import GuestXml.Guest.Domain
import GuestXml.Json
import GuestXml.Schema.Scalar

/-!
# Machine plans

A machine plan says briefly what a guest should be like: its processors and memory, its
disks, its network cards, and how its screen is shown. Everything else about the guest
follows from the plan.
-/

namespace GuestXml.Machine

/-- What a guest boots from: a BIOS, or UEFI firmware with variables of its own. -/
inductive Firmware where
  | bios
  | uefi
  deriving DecidableEq, Inhabited, Repr

/-- The processors of a guest. -/
structure CpuPlan where
  sockets : UnsignedInt := .ofNat 1
  cores : UnsignedInt := .ofNat 1
  threadsPerCore : UnsignedInt := .ofNat 1
  /-- `host-passthrough`, which is meant if nothing is said, `host-model`, `max`, or the name
  of a processor. -/
  model : Option String := none
  deriving DecidableEq, Inhabited

/-- A disk whose content is in a file. -/
structure DiskPlan where
  path : String
  bus : DiskBus := .virtio
  format : DiskFormat := .qcow2
  cache : DiskCache := .off
  io : DiskIo := .native
  readonly : Bool := false
  bootable : Bool := false
  /-- The image below, if the disk holds only what differs from it. -/
  backingFile : Option String := none
  deriving DecidableEq

/-- A network card. With a port name it is plugged into a virtual switch. Otherwise it is
attached to the bridge, or else to the network, or else to the default network. -/
structure NicPlan where
  macAddress : Option String := none
  bridge : Option String := none
  network : Option String := none
  model : String := "virtio"
  portName : Option String := none
  switch : Option String := none
  deriving DecidableEq, Inhabited

/-- How the screen of a guest is shown. A port that is not given is picked when the guest
starts. -/
structure ConsolePlan where
  vncEnabled : Bool := true
  vncPort : Option UnsignedShort := none
  vncPassword : Option String := none
  vncListen : String := "0.0.0.0"
  spiceEnabled : Bool := false
  spicePort : Option UnsignedShort := none
  deriving DecidableEq, Inhabited

/-- A machine plan. -/
structure Plan where
  id : UuidText
  name : String
  cpu : CpuPlan := {}
  memoryMib : UnsignedLong := .lit 1024
  disks : List DiskPlan := []
  nics : List NicPlan := []
  console : ConsolePlan := {}
  firmware : Firmware := .bios
  /-- The order in which a BIOS tries devices. UEFI tries the bootable disks. -/
  bootOrder : List BootDevice := [.hd, .cdrom, .network]
  deriving DecidableEq

/-- The number of virtual processors, if it is one of 32 bits. -/
def CpuPlan.vcpus? (c : CpuPlan) : Option UnsignedInt :=
  UnsignedInt.product? [c.sockets, c.cores, c.threadsPerCore]

/-! ### JSON -/

open Schema (Scalar)

/-- The name of a firmware. -/
def Firmware.name : Firmware → String
  | .bios => "bios"
  | .uefi => "uefi"

/-- The processors as JSON. -/
def CpuPlan.toJson (c : CpuPlan) : Json :=
  .object [("sockets", .number c.sockets.val), ("cores", .number c.cores.val),
    ("threads_per_core", .number c.threadsPerCore.val), ("model", .optional .string c.model)]

/-- A disk as JSON. -/
def DiskPlan.toJson (d : DiskPlan) : Json :=
  .object [("path", .string d.path), ("bus", (Scalar.enum .diskBus).toJson d.bus),
    ("format", (Scalar.enum .diskFormat).toJson d.format),
    ("cache", (Scalar.enum .diskCache).toJson d.cache),
    ("io", (Scalar.enum .diskIo).toJson d.io), ("readonly", .bool d.readonly),
    ("bootable", .bool d.bootable), ("backing_file", .optional .string d.backingFile)]

/-- A network card as JSON. -/
def NicPlan.toJson (n : NicPlan) : Json :=
  .object [("mac_address", .optional .string n.macAddress),
    ("bridge", .optional .string n.bridge), ("network", .optional .string n.network),
    ("model", .string n.model), ("ovn_port_name", .optional .string n.portName),
    ("ovs_bridge", .optional .string n.switch)]

/-- The console as JSON. -/
def ConsolePlan.toJson (c : ConsolePlan) : Json :=
  .object [("vnc_enabled", .bool c.vncEnabled),
    ("vnc_port", .optional (fun n => .number n.val) c.vncPort),
    ("vnc_password", .optional .string c.vncPassword), ("vnc_listen", .string c.vncListen),
    ("spice_enabled", .bool c.spiceEnabled),
    ("spice_port", .optional (fun n => .number n.val) c.spicePort)]

/-- A plan as JSON. -/
def Plan.toJson (p : Plan) : Json :=
  .object [("id", .string p.id.text), ("name", .string p.name), ("cpu", p.cpu.toJson),
    ("memory_mib", .number p.memoryMib.val), ("disks", .array (p.disks.map (·.toJson))),
    ("nics", .array (p.nics.map (·.toJson))), ("console", p.console.toJson),
    ("firmware", .string p.firmware.name),
    ("boot_order", .array (p.bootOrder.map (Scalar.enum .bootDevice).toJson))]

end GuestXml.Machine
