import GuestXml.Machine.Plan

/-!
# Guests from plans

The domain that follows from a machine plan: a q35 machine with free ports for devices that
are plugged in later, a serial console, a VGA screen, and channels to the agents inside the
guest. A plan that makes no sense is refused: one without a name, without memory, without
processors or with more than can be counted, or with a hardware address that is none.
-/

namespace GuestXml.Machine

/-! ### Names of disks

Disks are told apart by letters behind what the names on their bus begin with. The letters
count like digits, only that there is no zero: `a` to `z`, then `aa`, `ab` and so on. -/

/-- The letter with a number below 26. -/
def letter (n : Nat) : Char :=
  Char.ofNat ('a'.toNat + n % 26)

/-- The text of letters in the place `n`, counted from one; the empty text is in place zero. -/
def letters (n : Nat) : List Char :=
  if n = 0 then [] else letters ((n - 1) / 26) ++ [letter (n - 1)]
termination_by n
decreasing_by omega

/-- The name of a disk in the list of disks, counted from zero. -/
def deviceName (start : String) (index : Nat) : String :=
  start ++ String.ofList (letters (index + 1))

/-! ### Fixed parts -/

/-- The program that runs guests. -/
def emulator : String := "/usr/bin/qemu-system-x86_64"

/-- The UEFI firmware. -/
def firmwareImage : String := "/usr/share/OVMF/OVMF_CODE.fd"

/-- Where the variables of the firmware are kept, by guest. -/
def firmwareVariables (name : String) : String :=
  "/var/lib/libvirt/qemu/nvram/" ++ name ++ "_VARS.fd"

/-- Where the agent of a guest is reached. -/
def agentSocket (id : UuidText) : String :=
  "/var/run/quantix-kvm/vms/" ++ id.text ++ ".agent.sock"

/-- A free port for a device that is plugged in later. -/
def rootPort (index : Nat) : Controller where
  kind := .pci
  index := .ofNat index
  model := some "pcie-root-port"
  modelName := some { name := "pcie-root-port" }
  target := some {
    chassis := some (.ofNat index)
    port := some (.ofNumber (.ofNat (index + 16))) }

/-- The free ports. Lower indices are left to the machine itself. -/
def rootPorts : List Controller :=
  [10, 11, 12, 13].map rootPort

/-- The clock and its timers. -/
def clock : Clock where
  offset := .utc
  timers := [{ name := .rtc, tickpolicy := some .catchup },
    { name := .pit, tickpolicy := some .delay },
    { name := .hpet, present := some .no }]

/-- The serial line. -/
def serialLine : CharDevice where
  kind := .pty
  target := some { port := some (.ofNat 0) }

/-- The console on the serial line. -/
def serialConsole : CharDevice where
  kind := .pty
  target := some { kind := some "serial", port := some (.ofNat 0) }

/-- The guest's end of a channel. -/
def channelTarget (name : String) : CharTarget where
  kind := some "virtio"
  name := some name

/-- The video card. -/
def videoCard : Video where
  model := {
    kind := .vga
    vram := some (.ofNat 16384)
    heads := some (.ofNat 1)
    primary := some .yes }

/-! ### Disks -/

/-- What stands below a disk that holds only the differences from an image. -/
def DiskPlan.backing (d : DiskPlan) : Option BackingStore :=
  d.backingFile.map fun file => .layer {
    kind := .file
    index := some (.ofNat 1)
    format := some { format := .qcow2 }
    source := some (.file { file })
    backingStore := some (.done {}) }

/-- The disk at a place in the list of disks, with its place in the boot order. -/
def DiskPlan.toDisk (d : DiskPlan) (index : Nat) (boot : Option BootOrder) : Disk where
  kind := .file
  device := some .disk
  driver := some {
    name := some "qemu"
    format := some d.format
    cache := some d.cache
    io := some d.io }
  source := some (.file { file := d.path })
  backingStore := d.backing
  target := { dev := deviceName d.bus.devicePrefix index, bus := some d.bus }
  readonly := d.readonly
  boot

/-- The disks behind others, of which there are `index`, and `boots` of them bootable. UEFI
boots from the bootable disks in order. -/
def disksFrom (firmware : Firmware) (index boots : Nat) : List DiskPlan → List Disk
  | [] => []
  | d :: ds =>
    if firmware = .uefi ∧ d.bootable then
      d.toDisk index (some { order := .ofNat (boots + 1) }) ::
        disksFrom firmware (index + 1) (boots + 1) ds
    else d.toDisk index none :: disksFrom firmware (index + 1) boots ds

/-! ### Network cards -/

/-- The hardware address, if one is given. -/
def NicPlan.mac (n : NicPlan) : Except Error (Option MacAddress) :=
  match n.macAddress with
  | none => .ok none
  | some text =>
    ((Schema.Atom.restricted .unicastMac).decode text).map fun address => some { address }

/-- What a network card is attached to: the kind, the place, and the port of a switch. -/
def NicPlan.attachment (n : NicPlan) : InterfaceType × InterfaceSource × Option VirtualPort :=
  match n.portName, n.bridge with
  | some port, _ =>
    (.bridge, .bridge { bridge := n.switch.getD "br-int" }, some {
      kind := .openvswitch
      parameters := some { interfaceid := some port } })
  | none, some bridge => (.bridge, .bridge { bridge }, none)
  | none, none => (.network, .network { network := n.network.getD "default" }, none)

/-- The network interface of a card. -/
def NicPlan.toInterface (n : NicPlan) : Except Error Interface :=
  n.mac.map fun mac =>
    let (kind, source, virtualport) := n.attachment
    { kind, mac, source := some source, virtualport, model := some { kind := n.model } }

/-! ### Screens and channels -/

/-- A port that was given, or else one to be picked. -/
def portOrAuto (port : Option UnsignedShort) : PortNumber :=
  match port with
  | some n => ⟨⟨n.val, Int.le_trans (by decide) n.lo_le, Int.le_trans n.le_hi (by decide)⟩⟩
  | none => .auto

/-- The screen shown over VNC. -/
def ConsolePlan.vnc (c : ConsolePlan) : Graphics where
  kind := .vnc
  port := some (portOrAuto c.vncPort)
  autoport := some .yes
  listen := some c.vncListen
  passwd := c.vncPassword
  listens := [{ kind := .address, address := some c.vncListen }]

/-- The screen shown over SPICE. -/
def ConsolePlan.spice (c : ConsolePlan) : Graphics where
  kind := .spice
  port := some (portOrAuto c.spicePort)
  autoport := some .yes

/-- The ways to see the screen. -/
def ConsolePlan.graphics (c : ConsolePlan) : List Graphics :=
  (if c.vncEnabled then [c.vnc] else []) ++ (if c.spiceEnabled then [c.spice] else [])

/-- The channels to the agents inside the guest. -/
def channels (id : UuidText) : List CharDevice :=
  [{ kind := .unix
     source := some { mode := some .bind, path := some (agentSocket id) }
     target := some (channelTarget "org.quantix.agent.0") },
   { kind := .unix
     target := some (channelTarget "org.qemu.guest_agent.0") }]

/-! ### The guest -/

namespace Plan

/-- How the guest boots. -/
def os (p : Plan) : Os :=
  let kind : OsType := { arch := some "x86_64", machine := some "q35", kind := .hvm }
  match p.firmware with
  | .bios => { kind, boot := p.bootOrder.map fun dev => { dev } }
  | .uefi =>
    { kind
      loader := some { readonly := some .yes, kind := some .pflash, path := firmwareImage }
      nvram := some { path := firmwareVariables p.name } }

/-- The processor of the guest. -/
def processor (p : Plan) : Cpu :=
  let topology : Option Topology := some {
    sockets := p.cpu.sockets
    cores := p.cpu.cores
    threads := p.cpu.threadsPerCore }
  match p.cpu.model.getD "host-passthrough" with
  | "host-passthrough" =>
    { mode := some .hostPassthrough, check := some .skip, migratable := some .off, topology }
  | "host-model" => { mode := some .hostModel, check := some .partly, topology }
  | "max" => { mode := some .maximum, check := some .partly, migratable := some .on, topology }
  | name =>
    { mode := some .custom
      matching := some .exact
      check := some .partly
      model := some { fallback := some .allow, name }
      topology }

/-- The devices of the guest. -/
def devices (p : Plan) : Except Error Devices :=
  (p.nics.mapM NicPlan.toInterface).map fun interfaces =>
    { emulator := some emulator
      disks := disksFrom p.firmware 0 0 p.disks
      controllers := rootPorts
      interfaces
      serials := [serialLine]
      consoles := [serialConsole]
      channels := channels p.id
      graphics := p.console.graphics
      videos := [videoCard] }

/-- The number of virtual processors, of which there has to be one at least. -/
def vcpus (p : Plan) : Except Error UnsignedInt :=
  let c := p.cpu
  match c.vcpus? with
  | some n => if n.val = 0 then .error (.invalidValue "vcpu" "0") else .ok n
  | none =>
    .error (.invalidValue "vcpu"
      (c.sockets.toText ++ "x" ++ c.cores.toText ++ "x" ++ c.threadsPerCore.toText))

/-- The domain that follows from a plan. -/
def build (p : Plan) : Except Error Domain :=
  if p.name.isEmpty then .error (.invalidValue "name" p.name)
  else if p.memoryMib.val = 0 then .error (.invalidValue "memory" "0")
  else do
    let count ← p.vcpus
    let devices ← p.devices
    return {
      kind := .kvm
      name := p.name
      uuid := some p.id
      memory := .ofMib p.memoryMib
      vcpu := some { placement := some .static, count }
      os := p.os
      features := some { acpi := true, apic := true }
      cpu := some p.processor
      clock := some clock
      onPoweroff := some .destroy
      onReboot := some .restart
      onCrash := some .destroy
      devices := some devices }

end Plan

end GuestXml.Machine
