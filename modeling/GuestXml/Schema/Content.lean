import GuestXml.Guest.Snapshot

/-!
# Content types

What an element may hold is described by its content type. A *group* is a fixed list of
attributes and child elements; a *choice* is one of several alternatives; a *series* is a
group that goes on with any number of alternatives of a choice. Types are listed as codes,
each with the type of its values and the name it has in messages and layouts.
-/

namespace GuestXml.Schema

/-- Contents with fixed attributes and child elements. -/
inductive Group where
  | scaledInteger
  | osType
  | loader
  | nvram
  | boot
  | bootMenu
  | os
  | featureState
  | spinlocks
  | hyperv
  | features
  | vcpu
  | cpuModel
  | topology
  | cpuFeature
  | sibling
  | distances
  | cache
  | numaCell
  | numa
  | cpu
  | vcpuPin
  | emulatorPin
  | cpuTune
  | timer
  | clock
  | suspendState
  | powerManagement
  | pciAddress
  | driveAddress
  | virtioSerialAddress
  | usbAddress
  | diskDriver
  | fileSource
  | blockSource
  | dirSource
  | sourceHost
  | networkSource
  | volumeSource
  | backingFormat
  | bare
  | backingLayer
  | backingLink
  | diskTarget
  | bootOrder
  | disk
  | controllerModel
  | controllerTarget
  | controller
  | filterParameter
  | filterReference
  | macMatch
  | arpMatch
  | ipMatch
  | portMatch
  | icmpMatch
  | allMatch
  | macAddress
  | bridgeSource
  | networkRef
  | directSource
  | virtualPortParameters
  | virtualPort
  | interfaceTarget
  | interfaceModel
  | interface
  | charSource
  | charTarget
  | charDevice
  | input
  | graphicsListen
  | graphics
  | videoModel
  | video
  | memBalloonStats
  | memBalloon
  | devices
  | domain
  | snapshotParent
  | snapshotMemory
  | snapshotDisk
  | snapshotDisks
  | domainSnapshot
  deriving DecidableEq, Repr

/-- Contents that are one of several alternatives. -/
inductive Choice where
  | diskSource
  | backingStore
  | deviceAddress
  | interfaceSource
  | filterEntry
  | ruleMatch
  deriving DecidableEq, Repr

/-- Contents that go on with any number of alternatives. -/
inductive Series where
  | filter
  | rule
  deriving DecidableEq, Repr

/-- The type of what an element holds. -/
inductive Content where
  | group (g : Group)
  | choice (c : Choice)
  | series (s : Series)
  deriving DecidableEq, Repr

/-! ### Values -/

/-- The values of a group. -/
@[reducible] def Group.Carrier : Group → Type
  | .scaledInteger => ScaledInteger
  | .osType => OsType
  | .loader => Loader
  | .nvram => Nvram
  | .boot => Boot
  | .bootMenu => BootMenu
  | .os => Os
  | .featureState => FeatureState
  | .spinlocks => Spinlocks
  | .hyperv => Hyperv
  | .features => Features
  | .vcpu => Vcpu
  | .cpuModel => CpuModel
  | .topology => Topology
  | .cpuFeature => CpuFeature
  | .sibling => Sibling
  | .distances => Distances
  | .cache => Cache
  | .numaCell => NumaCell
  | .numa => Numa
  | .cpu => Cpu
  | .vcpuPin => VcpuPin
  | .emulatorPin => EmulatorPin
  | .cpuTune => CpuTune
  | .timer => Timer
  | .clock => Clock
  | .suspendState => SuspendState
  | .powerManagement => PowerManagement
  | .pciAddress => PciAddress
  | .driveAddress => DriveAddress
  | .virtioSerialAddress => VirtioSerialAddress
  | .usbAddress => UsbAddress
  | .diskDriver => DiskDriver
  | .fileSource => FileSource
  | .blockSource => BlockSource
  | .dirSource => DirSource
  | .sourceHost => SourceHost
  | .networkSource => NetworkSource
  | .volumeSource => VolumeSource
  | .backingFormat => BackingFormat
  | .bare => Bare
  | .backingLayer => BackingLayer
  | .backingLink => BackingLayer
  | .diskTarget => DiskTarget
  | .bootOrder => BootOrder
  | .disk => Disk
  | .controllerModel => ControllerModel
  | .controllerTarget => ControllerTarget
  | .controller => Controller
  | .filterParameter => FilterParameter
  | .filterReference => FilterReference
  | .macMatch => MacMatch
  | .arpMatch => ArpMatch
  | .ipMatch => IpMatch
  | .portMatch => PortMatch
  | .icmpMatch => IcmpMatch
  | .allMatch => AllMatch
  | .macAddress => MacAddress
  | .bridgeSource => BridgeSource
  | .networkRef => NetworkRef
  | .directSource => DirectSource
  | .virtualPortParameters => VirtualPortParameters
  | .virtualPort => VirtualPort
  | .interfaceTarget => InterfaceTarget
  | .interfaceModel => InterfaceModel
  | .interface => Interface
  | .charSource => CharSource
  | .charTarget => CharTarget
  | .charDevice => CharDevice
  | .input => Input
  | .graphicsListen => GraphicsListen
  | .graphics => Graphics
  | .videoModel => VideoModel
  | .video => Video
  | .memBalloonStats => MemBalloonStats
  | .memBalloon => MemBalloon
  | .devices => Devices
  | .domain => Domain
  | .snapshotParent => SnapshotParent
  | .snapshotMemory => SnapshotMemory
  | .snapshotDisk => SnapshotDisk
  | .snapshotDisks => SnapshotDisks
  | .domainSnapshot => DomainSnapshot

/-- The values of a choice. -/
@[reducible] def Choice.Carrier : Choice → Type
  | .diskSource => DiskSource
  | .backingStore => BackingStore
  | .deviceAddress => DeviceAddress
  | .interfaceSource => InterfaceSource
  | .filterEntry => FilterEntry
  | .ruleMatch => RuleMatch

/-- The values of a series. -/
@[reducible] def Series.Carrier : Series → Type
  | .filter => Filter
  | .rule => Rule

/-- The values of a content type. -/
@[reducible] def Content.Carrier : Content → Type
  | .group g => g.Carrier
  | .choice c => c.Carrier
  | .series s => s.Carrier

instance (g : Group) : DecidableEq g.Carrier := by
  cases g <;> (dsimp only [Group.Carrier]; infer_instance)

instance (c : Choice) : DecidableEq c.Carrier := by
  cases c <;> (dsimp only [Choice.Carrier]; infer_instance)

instance (s : Series) : DecidableEq s.Carrier := by
  cases s <;> (dsimp only [Series.Carrier]; infer_instance)

instance (t : Content) : DecidableEq t.Carrier := by
  cases t <;> (dsimp only [Content.Carrier]; infer_instance)

instance (g : Group) : Inhabited g.Carrier := by
  cases g <;> (dsimp only [Group.Carrier]; infer_instance)

instance (c : Choice) : Inhabited c.Carrier := by
  cases c <;> (dsimp only [Choice.Carrier]; infer_instance)

instance (s : Series) : Inhabited s.Carrier := by
  cases s <;> (dsimp only [Series.Carrier]; infer_instance)

instance (t : Content) : Inhabited t.Carrier := by
  cases t <;> (dsimp only [Content.Carrier]; infer_instance)

/-! ### Names -/

/-- The name of a group. -/
def Group.name : Group → String
  | .scaledInteger => "ScaledInteger"
  | .osType => "OsType"
  | .loader => "Loader"
  | .nvram => "Nvram"
  | .boot => "Boot"
  | .bootMenu => "BootMenu"
  | .os => "Os"
  | .featureState => "FeatureState"
  | .spinlocks => "Spinlocks"
  | .hyperv => "Hyperv"
  | .features => "Features"
  | .vcpu => "Vcpu"
  | .cpuModel => "CpuModel"
  | .topology => "Topology"
  | .cpuFeature => "CpuFeature"
  | .sibling => "Sibling"
  | .distances => "Distances"
  | .cache => "Cache"
  | .numaCell => "NumaCell"
  | .numa => "Numa"
  | .cpu => "Cpu"
  | .vcpuPin => "VcpuPin"
  | .emulatorPin => "EmulatorPin"
  | .cpuTune => "CpuTune"
  | .timer => "Timer"
  | .clock => "Clock"
  | .suspendState => "SuspendState"
  | .powerManagement => "PowerManagement"
  | .pciAddress => "PciAddress"
  | .driveAddress => "DriveAddress"
  | .virtioSerialAddress => "VirtioSerialAddress"
  | .usbAddress => "UsbAddress"
  | .diskDriver => "DiskDriver"
  | .fileSource => "FileSource"
  | .blockSource => "BlockSource"
  | .dirSource => "DirSource"
  | .sourceHost => "SourceHost"
  | .networkSource => "NetworkSource"
  | .volumeSource => "VolumeSource"
  | .backingFormat => "BackingFormat"
  | .bare => "Empty"
  | .backingLayer => "BackingLayer"
  | .backingLink => "Box<BackingLayer>"
  | .diskTarget => "DiskTarget"
  | .bootOrder => "BootOrder"
  | .disk => "Disk"
  | .controllerModel => "ControllerModel"
  | .controllerTarget => "ControllerTarget"
  | .controller => "Controller"
  | .filterParameter => "FilterParameter"
  | .filterReference => "FilterReference"
  | .macMatch => "MacMatch"
  | .arpMatch => "ArpMatch"
  | .ipMatch => "IpMatch"
  | .portMatch => "PortMatch"
  | .icmpMatch => "IcmpMatch"
  | .allMatch => "AllMatch"
  | .macAddress => "MacAddress"
  | .bridgeSource => "BridgeSource"
  | .networkRef => "NetworkRef"
  | .directSource => "DirectSource"
  | .virtualPortParameters => "VirtualPortParameters"
  | .virtualPort => "VirtualPort"
  | .interfaceTarget => "InterfaceTarget"
  | .interfaceModel => "InterfaceModel"
  | .interface => "Interface"
  | .charSource => "CharSource"
  | .charTarget => "CharTarget"
  | .charDevice => "CharDevice"
  | .input => "Input"
  | .graphicsListen => "GraphicsListen"
  | .graphics => "Graphics"
  | .videoModel => "VideoModel"
  | .video => "Video"
  | .memBalloonStats => "MemBalloonStats"
  | .memBalloon => "MemBalloon"
  | .devices => "Devices"
  | .domain => "Domain"
  | .snapshotParent => "SnapshotParent"
  | .snapshotMemory => "SnapshotMemory"
  | .snapshotDisk => "SnapshotDisk"
  | .snapshotDisks => "SnapshotDisks"
  | .domainSnapshot => "DomainSnapshot"

/-- The name of a choice. -/
def Choice.name : Choice → String
  | .diskSource => "DiskSource"
  | .backingStore => "BackingStore"
  | .deviceAddress => "DeviceAddress"
  | .interfaceSource => "InterfaceSource"
  | .filterEntry => "FilterEntry"
  | .ruleMatch => "RuleMatch"

/-- The name of a series. -/
def Series.name : Series → String
  | .filter => "Filter"
  | .rule => "Rule"

/-- The name of a content type. -/
def Content.name : Content → String
  | .group g => g.name
  | .choice c => c.name
  | .series s => s.name

/-- The part of the schema a type belongs to. -/
def Content.part : Content → String
  | .group .scaledInteger => "schema::basic"
  | .group .snapshotParent | .group .snapshotMemory | .group .snapshotDisk |
    .group .snapshotDisks | .group .domainSnapshot => "schema::snapshot"
  | .group .filterParameter | .group .filterReference | .group .macMatch | .group .arpMatch |
    .group .ipMatch | .group .portMatch | .group .icmpMatch | .group .allMatch |
    .choice .filterEntry | .choice .ruleMatch | .series _ => "schema::filter"
  | .group .osType | .group .loader | .group .nvram | .group .boot | .group .bootMenu |
    .group .os | .group .featureState | .group .spinlocks | .group .hyperv | .group .features |
    .group .vcpu | .group .cpuModel | .group .topology | .group .cpuFeature | .group .sibling |
    .group .distances | .group .cache | .group .numaCell | .group .numa | .group .cpu |
    .group .vcpuPin | .group .emulatorPin | .group .cpuTune | .group .timer | .group .clock |
    .group .suspendState | .group .powerManagement | .group .domain => "schema::domain"
  | .group .bare => "node"
  | .group _ | .choice _ => "schema::devices"

/-- The name of a type with the part of the schema it belongs to. -/
def Content.qualifiedName (t : Content) : String :=
  let inPart (name : String) := "limiquantix_virtxml::" ++ t.part ++ "::" ++ name
  match t with
  | .group .backingLink => "alloc::boxed::Box<" ++ inPart Group.backingLayer.name ++ ">"
  | _ => inPart t.name

/-- The tag that a type is bound to in documents of its own. Other types are read from any
element and written into any element. -/
def Content.tag? : Content → Option String
  | .group .cache => some "cache"
  | .group .graphics => some "graphics"
  | .group .domain => some "domain"
  | .group .domainSnapshot => some "domainsnapshot"
  | .series .filter => some "filter"
  | _ => none

/-- All groups. -/
def Group.all : List Group :=
  [.scaledInteger, .osType, .loader, .nvram, .boot, .bootMenu, .os, .featureState, .spinlocks,
    .hyperv, .features, .vcpu, .cpuModel, .topology, .cpuFeature, .sibling, .distances, .cache,
    .numaCell, .numa, .cpu, .vcpuPin, .emulatorPin, .cpuTune, .timer, .clock, .suspendState,
    .powerManagement, .pciAddress, .driveAddress, .virtioSerialAddress, .usbAddress, .diskDriver,
    .fileSource, .blockSource, .dirSource, .sourceHost, .networkSource, .volumeSource,
    .backingFormat, .bare, .backingLayer, .backingLink, .diskTarget, .bootOrder, .disk,
    .controllerModel, .controllerTarget, .controller, .filterParameter, .filterReference,
    .macMatch, .arpMatch, .ipMatch, .portMatch, .icmpMatch, .allMatch, .macAddress, .bridgeSource,
    .networkRef, .directSource, .virtualPortParameters, .virtualPort, .interfaceTarget,
    .interfaceModel, .interface, .charSource, .charTarget, .charDevice, .input, .graphicsListen,
    .graphics, .videoModel, .video, .memBalloonStats, .memBalloon, .devices, .domain,
    .snapshotParent, .snapshotMemory, .snapshotDisk, .snapshotDisks, .domainSnapshot]

/-- All choices. -/
def Choice.all : List Choice :=
  [.diskSource, .backingStore, .deviceAddress, .interfaceSource, .filterEntry, .ruleMatch]

/-- All content types. -/
def Content.all : List Content :=
  Group.all.map .group ++ Choice.all.map .choice ++ [.series .filter, .series .rule]

end GuestXml.Schema
