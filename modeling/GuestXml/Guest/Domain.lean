import GuestXml.Guest.Boot
import GuestXml.Guest.Clock
import GuestXml.Guest.Cpu
import GuestXml.Guest.Device
import GuestXml.Guest.Feature

/-!
# Domains

The definition of a guest as a whole.
-/

namespace GuestXml

/-- What runs a guest. -/
inductive VirtType where
  | kvm
  | qemu
  | kqemu
  | xen
  | lxc
  | vmware
  | hyperv
  deriving DecidableEq, Inhabited

instance : Enumeration VirtType where
  name := "EVirtType"
  first := .kvm
  others := [.qemu, .kqemu, .xen, .lxc, .vmware, .hyperv]
  spelling
    | .kvm => "kvm"
    | .qemu => "qemu"
    | .kqemu => "kqemu"
    | .xen => "xen"
    | .lxc => "lxc"
    | .vmware => "vmware"
    | .hyperv => "hyperv"
  complete := by intro a; cases a <;> decide
  nodup_spellings := by decide

/-- A guest: what it runs on, its memory and processors, how it boots, and its devices. -/
structure Domain where
  kind : VirtType := default
  id : Option SignedInt := none
  name : String := ""
  uuid : Option UuidText := none
  title : Option String := none
  description : Option String := none
  memory : ScaledInteger := default
  currentMemory : Option ScaledInteger := none
  vcpu : Option Vcpu := none
  cputune : Option CpuTune := none
  os : Os := default
  features : Option Features := none
  cpu : Option Cpu := none
  clock : Option Clock := none
  onPoweroff : Option LifecycleAction := none
  onReboot : Option LifecycleAction := none
  onCrash : Option CrashAction := none
  pm : Option PowerManagement := none
  devices : Option Devices := none
  deriving DecidableEq, Inhabited

end GuestXml
