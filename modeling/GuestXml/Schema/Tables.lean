import GuestXml.Schema.Table.Connection
import GuestXml.Schema.Table.Document
import GuestXml.Schema.Table.Filtering
import GuestXml.Schema.Table.Machine
import GuestXml.Schema.Table.Storage

/-!
# The schema

Each group with its members, each choice with its alternatives, and each series with both.
-/

namespace GuestXml.Schema

/-- The members of a group. -/
def Group.record : (g : Group) → Record g.Carrier
  | .scaledInteger => ScaledInteger.record
  | .osType => OsType.record
  | .loader => Loader.record
  | .nvram => Nvram.record
  | .boot => Boot.record
  | .bootMenu => BootMenu.record
  | .os => Os.record
  | .featureState => FeatureState.record
  | .spinlocks => Spinlocks.record
  | .hyperv => Hyperv.record
  | .features => Features.record
  | .vcpu => Vcpu.record
  | .cpuModel => CpuModel.record
  | .topology => Topology.record
  | .cpuFeature => CpuFeature.record
  | .sibling => Sibling.record
  | .distances => Distances.record
  | .cache => Cache.record
  | .numaCell => NumaCell.record
  | .numa => Numa.record
  | .cpu => Cpu.record
  | .vcpuPin => VcpuPin.record
  | .emulatorPin => EmulatorPin.record
  | .cpuTune => CpuTune.record
  | .timer => Timer.record
  | .clock => Clock.record
  | .suspendState => SuspendState.record
  | .powerManagement => PowerManagement.record
  | .pciAddress => PciAddress.record
  | .driveAddress => DriveAddress.record
  | .virtioSerialAddress => VirtioSerialAddress.record
  | .usbAddress => UsbAddress.record
  | .diskDriver => DiskDriver.record
  | .fileSource => FileSource.record
  | .blockSource => BlockSource.record
  | .dirSource => DirSource.record
  | .sourceHost => SourceHost.record
  | .networkSource => NetworkSource.record
  | .volumeSource => VolumeSource.record
  | .backingFormat => BackingFormat.record
  | .bare => Bare.record
  | .backingLayer => BackingLayer.record
  | .backingLink => BackingLayer.record
  | .diskTarget => DiskTarget.record
  | .bootOrder => BootOrder.record
  | .disk => Disk.record
  | .controllerModel => ControllerModel.record
  | .controllerTarget => ControllerTarget.record
  | .controller => Controller.record
  | .filterParameter => FilterParameter.record
  | .filterReference => FilterReference.record
  | .macMatch => MacMatch.record
  | .arpMatch => ArpMatch.record
  | .ipMatch => IpMatch.record
  | .portMatch => PortMatch.record
  | .icmpMatch => IcmpMatch.record
  | .allMatch => AllMatch.record
  | .macAddress => MacAddress.record
  | .bridgeSource => BridgeSource.record
  | .networkRef => NetworkRef.record
  | .directSource => DirectSource.record
  | .virtualPortParameters => VirtualPortParameters.record
  | .virtualPort => VirtualPort.record
  | .interfaceTarget => InterfaceTarget.record
  | .interfaceModel => InterfaceModel.record
  | .interface => Interface.record
  | .charSource => CharSource.record
  | .charTarget => CharTarget.record
  | .charDevice => CharDevice.record
  | .input => Input.record
  | .graphicsListen => GraphicsListen.record
  | .graphics => Graphics.record
  | .videoModel => VideoModel.record
  | .video => Video.record
  | .memBalloonStats => MemBalloonStats.record
  | .memBalloon => MemBalloon.record
  | .devices => Devices.record
  | .domain => Domain.record
  | .snapshotParent => SnapshotParent.record
  | .snapshotMemory => SnapshotMemory.record
  | .snapshotDisk => SnapshotDisk.record
  | .snapshotDisks => SnapshotDisks.record
  | .domainSnapshot => DomainSnapshot.record

/-- The alternatives of a choice. -/
def Choice.variants : (c : Choice) → Variants c.Carrier
  | .diskSource => DiskSource.variants
  | .backingStore => BackingStore.variants
  | .deviceAddress => DeviceAddress.variants
  | .interfaceSource => InterfaceSource.variants
  | .filterEntry => FilterEntry.variants
  | .ruleMatch => RuleMatch.variants

/-- The members of a series. -/
def Series.record : (s : Series) → SeriesRecord s.Carrier
  | .filter => Filter.series
  | .rule => Rule.series

end GuestXml.Schema
