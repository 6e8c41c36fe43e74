import GuestXml.Guest.Quantity
import GuestXml.Value.Ranged

/-!
# Processors

The processor of a guest, how processors and memory are arranged, and how many of the host's
processors they may use.
-/

namespace GuestXml

/-- How virtual processors are placed on those of the host. -/
inductive Placement where
  | static
  | auto
  deriving DecidableEq, Inhabited

instance : Enumeration Placement where
  name := "EPlacement"
  first := .static
  others := [.auto]
  spelling
    | .static => "static"
    | .auto => "auto"
  complete := by intro a; cases a <;> decide
  nodup_spellings := by decide

/-- How a guest processor relates to that of the host. -/
inductive CpuMode where
  | custom
  | hostModel
  | hostPassthrough
  | maximum
  deriving DecidableEq, Inhabited

instance : Enumeration CpuMode where
  name := "ECpuMode"
  first := .custom
  others := [.hostModel, .hostPassthrough, .maximum]
  spelling
    | .custom => "custom"
    | .hostModel => "host-model"
    | .hostPassthrough => "host-passthrough"
    | .maximum => "maximum"
  complete := by intro a; cases a <;> decide
  nodup_spellings := by decide

/-- How closely a processor has to match its model. -/
inductive CpuMatch where
  | minimum
  | exact
  | strict
  deriving DecidableEq, Inhabited

instance : Enumeration CpuMatch where
  name := "ECpuMatch"
  first := .minimum
  others := [.exact, .strict]
  spelling
    | .minimum => "minimum"
    | .exact => "exact"
    | .strict => "strict"
  complete := by intro a; cases a <;> decide
  nodup_spellings := by decide

/-- How the processor is checked before a guest starts. -/
inductive CpuCheck where
  | skip
  | partly
  | fully
  deriving DecidableEq, Inhabited

instance : Enumeration CpuCheck where
  name := "ECpuCheck"
  first := .skip
  others := [.partly, .fully]
  spelling
    | .skip => "none"
    | .partly => "partial"
    | .fully => "full"
  complete := by intro a; cases a <;> decide
  nodup_spellings := by decide

/-- Whether another model may stand in. -/
inductive Fallback where
  | allow
  | forbid
  deriving DecidableEq, Inhabited

instance : Enumeration Fallback where
  name := "EFallback"
  first := .allow
  others := [.forbid]
  spelling
    | .allow => "allow"
    | .forbid => "forbid"
  complete := by intro a; cases a <;> decide
  nodup_spellings := by decide

/-- What is done about a feature of the processor. -/
inductive FeaturePolicy where
  | force
  | require
  | optional
  | disable
  | forbid
  deriving DecidableEq, Inhabited

instance : Enumeration FeaturePolicy where
  name := "EFeaturePolicy"
  first := .force
  others := [.require, .optional, .disable, .forbid]
  spelling
    | .force => "force"
    | .require => "require"
    | .optional => "optional"
    | .disable => "disable"
    | .forbid => "forbid"
  complete := by intro a; cases a <;> decide
  nodup_spellings := by decide

/-- Whether memory is shared with the host. -/
inductive MemAccess where
  | shared
  | exclusive
  deriving DecidableEq, Inhabited

instance : Enumeration MemAccess where
  name := "EMemAccess"
  first := .shared
  others := [.exclusive]
  spelling
    | .shared => "shared"
    | .exclusive => "private"
  complete := by intro a; cases a <;> decide
  nodup_spellings := by decide

/-- How a memory-side cache is organised. -/
inductive AssociativityKind where
  | unspecified
  | direct
  | full
  deriving DecidableEq, Inhabited

instance : Enumeration AssociativityKind where
  name := "ECacheAssociativity"
  first := .unspecified
  others := [.direct, .full]
  spelling
    | .unspecified => "none"
    | .direct => "direct"
    | .full => "full"
  complete := by intro a; cases a <;> decide
  nodup_spellings := by decide

/-- How a memory-side cache is written. -/
inductive CachePolicy where
  | unspecified
  | writeback
  | writethrough
  deriving DecidableEq, Inhabited

instance : Enumeration CachePolicy where
  name := "ECachePolicy"
  first := .unspecified
  others := [.writeback, .writethrough]
  spelling
    | .unspecified => "none"
    | .writeback => "writeback"
    | .writethrough => "writethrough"
  complete := by intro a; cases a <;> decide
  nodup_spellings := by decide

/-- How many virtual processors a guest has. -/
structure Vcpu where
  placement : Option Placement := none
  cpuset : Option String := none
  current : Option UnsignedInt := none
  count : UnsignedInt := default
  deriving DecidableEq, Inhabited

/-- The model of a processor. -/
structure CpuModel where
  fallback : Option Fallback := none
  name : String := ""
  deriving DecidableEq, Inhabited

/-- How processors are arranged. -/
structure Topology where
  sockets : UnsignedInt := default
  dies : Option UnsignedInt := none
  cores : UnsignedInt := default
  threads : UnsignedInt := default
  deriving DecidableEq, Inhabited

/-- A feature of a processor, and what is done about it. -/
structure CpuFeature where
  policy : Option FeaturePolicy := none
  name : String := ""
  deriving DecidableEq, Inhabited

/-- The distance to one cell. -/
structure Sibling where
  id : UnsignedInt := default
  value : UnsignedInt := default
  deriving DecidableEq, Inhabited

/-- How far a cell is from others. -/
structure Distances where
  siblings : List Sibling := []
  deriving DecidableEq, Inhabited

/-- The organisation of a cache: a named one, or a number of ways. -/
inductive CacheAssociativity where
  | named (kind : AssociativityKind)
  | ways (n : UnsignedInt)
  deriving DecidableEq, Inhabited

/-- A cache on the side of a memory cell. -/
structure Cache where
  level : UnsignedInt := default
  associativity : CacheAssociativity := default
  policy : CachePolicy := default
  size : ScaledInteger := default
  line : ScaledInteger := default
  deriving DecidableEq, Inhabited

/-- A part of the memory, and the processors close to it. -/
structure NumaCell where
  id : Option UnsignedInt := none
  cpus : Option String := none
  memory : UnsignedLong := default
  unit : Option SizeUnit := none
  memAccess : Option MemAccess := none
  discard : Option YesNo := none
  distances : Option Distances := none
  caches : List Cache := []
  deriving DecidableEq, Inhabited

/-- The memory cells of a guest, of which there is one at least. -/
structure Numa where
  cells : List NumaCell := []
  deriving DecidableEq, Inhabited

/-- The processor of a guest. -/
structure Cpu where
  mode : Option CpuMode := none
  matching : Option CpuMatch := none
  check : Option CpuCheck := none
  migratable : Option OnOff := none
  model : Option CpuModel := none
  vendor : Option String := none
  topology : Option Topology := none
  features : List CpuFeature := []
  numa : Option Numa := none
  deriving DecidableEq, Inhabited

/-- The host processors one virtual processor may run on. -/
structure VcpuPin where
  vcpu : UnsignedInt := default
  cpuset : String := ""
  deriving DecidableEq, Inhabited

/-- The host processors the emulator may run on. -/
structure EmulatorPin where
  cpuset : String := ""
  deriving DecidableEq, Inhabited

/-- How much of the host processors a guest may use. -/
structure CpuTune where
  shares : Option UnsignedLong := none
  period : Option (Ranged .cpuPeriod) := none
  quota : Option (Ranged .cpuQuota) := none
  emulatorPeriod : Option (Ranged .cpuPeriod) := none
  emulatorQuota : Option (Ranged .cpuQuota) := none
  vcpupins : List VcpuPin := []
  emulatorpin : Option EmulatorPin := none
  deriving DecidableEq, Inhabited

/-- The number of virtual processors of a topology, if it is one of 32 bits. -/
def Topology.vcpus? (t : Topology) : Option UnsignedInt :=
  UnsignedInt.product? [t.sockets, t.dies.getD (.ofNat 1), t.cores, t.threads]

end GuestXml
