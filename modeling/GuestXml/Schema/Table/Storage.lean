import GuestXml.Schema.Record

/-!
# Members of disks and controllers

The members of device addresses, disks and controllers.
-/

namespace GuestXml

def PciAddress.record : Schema.Record PciAddress where
  members := [
    .fixed (.constant "type" "pci"),
    ⟨"domain", .optionalAttr "domain" (.union .pciDomain)⟩,
    ⟨"bus", .attr "bus" (.union .pciBus)⟩,
    ⟨"slot", .attr "slot" (.union .pciSlot)⟩,
    ⟨"function", .optionalAttr "function" (.union .pciFunction)⟩,
    ⟨"multifunction", .optionalAttr "multifunction" (.enum .onOff)⟩]
  toTuple a := ((), a.domain, a.bus, a.slot, a.function, a.multifunction, ())
  ofTuple := fun ((), domain, bus, slot, function, multifunction, ()) =>
    { domain, bus, slot, function, multifunction }
  ofTuple_toTuple _ := rfl
  toTuple_ofTuple _ := rfl

def DriveAddress.record : Schema.Record DriveAddress where
  members := [
    .fixed (.constant "type" "drive"),
    ⟨"controller", .optionalAttr "controller" .unsignedInt⟩,
    ⟨"bus", .optionalAttr "bus" .unsignedInt⟩,
    ⟨"target", .optionalAttr "target" .unsignedInt⟩,
    ⟨"unit", .optionalAttr "unit" .unsignedInt⟩]
  toTuple a := ((), a.controller, a.bus, a.target, a.unit, ())
  ofTuple := fun ((), controller, bus, target, unit, ()) =>
    { controller, bus, target, unit }
  ofTuple_toTuple _ := rfl
  toTuple_ofTuple _ := rfl

def VirtioSerialAddress.record : Schema.Record VirtioSerialAddress where
  members := [
    .fixed (.constant "type" "virtio-serial"),
    ⟨"controller", .optionalAttr "controller" .unsignedInt⟩,
    ⟨"bus", .optionalAttr "bus" .unsignedInt⟩,
    ⟨"port", .optionalAttr "port" .unsignedInt⟩]
  toTuple a := ((), a.controller, a.bus, a.port, ())
  ofTuple := fun ((), controller, bus, port, ()) =>
    { controller, bus, port }
  ofTuple_toTuple _ := rfl
  toTuple_ofTuple _ := rfl

def UsbAddress.record : Schema.Record UsbAddress where
  members := [
    .fixed (.constant "type" "usb"),
    ⟨"bus", .attr "bus" .unsignedInt⟩,
    ⟨"port", .attr "port" .string⟩]
  toTuple a := ((), a.bus, a.port, ())
  ofTuple := fun ((), bus, port, ()) =>
    { bus, port }
  ofTuple_toTuple _ := rfl
  toTuple_ofTuple _ := rfl

def DeviceAddress.variants : Schema.Variants DeviceAddress where
  alternatives := [
    .group "Pci" .pciAddress,
    .group "Drive" .driveAddress,
    .group "VirtioSerial" .virtioSerialAddress,
    .group "Usb" .usbAddress]
  toAny
    | .pci x => .inl x
    | .drive x => .inr (.inl x)
    | .virtioSerial x => .inr (.inr (.inl x))
    | .usb x => .inr (.inr (.inr (.inl x)))
  ofAny
    | .inl x => .pci x
    | .inr (.inl x) => .drive x
    | .inr (.inr (.inl x)) => .virtioSerial x
    | .inr (.inr (.inr (.inl x))) => .usb x
  ofAny_toAny a := by cases a <;> rfl
  toAny_ofAny
    | .inl _ => rfl
    | .inr (.inl _) => rfl
    | .inr (.inr (.inl _)) => rfl
    | .inr (.inr (.inr (.inl _))) => rfl

def DiskDriver.record : Schema.Record DiskDriver where
  members := [
    ⟨"name", .optionalAttr "name" .string⟩,
    ⟨"format", .optionalAttr "type" (.enum .diskFormat)⟩,
    ⟨"cache", .optionalAttr "cache" (.enum .diskCache)⟩,
    ⟨"io", .optionalAttr "io" (.enum .diskIo)⟩,
    ⟨"discard", .optionalAttr "discard" (.enum .discard)⟩]
  toTuple a := (a.name, a.format, a.cache, a.io, a.discard, ())
  ofTuple := fun (name, format, cache, io, discard, ()) =>
    { name, format, cache, io, discard }
  ofTuple_toTuple _ := rfl
  toTuple_ofTuple _ := rfl

def FileSource.record : Schema.Record FileSource where
  members := [
    ⟨"file", .attr "file" .string⟩]
  toTuple a := (a.file, ())
  ofTuple := fun (file, ()) =>
    { file }
  ofTuple_toTuple _ := rfl
  toTuple_ofTuple _ := rfl

def BlockSource.record : Schema.Record BlockSource where
  members := [
    ⟨"dev", .attr "dev" .string⟩]
  toTuple a := (a.dev, ())
  ofTuple := fun (dev, ()) =>
    { dev }
  ofTuple_toTuple _ := rfl
  toTuple_ofTuple _ := rfl

def DirSource.record : Schema.Record DirSource where
  members := [
    ⟨"dir", .attr "dir" .string⟩]
  toTuple a := (a.dir, ())
  ofTuple := fun (dir, ()) =>
    { dir }
  ofTuple_toTuple _ := rfl
  toTuple_ofTuple _ := rfl

def SourceHost.record : Schema.Record SourceHost where
  members := [
    ⟨"name", .attr "name" .string⟩,
    ⟨"port", .optionalAttr "port" (.ranged .portNumber)⟩]
  toTuple a := (a.name, a.port, ())
  ofTuple := fun (name, port, ()) =>
    { name, port }
  ofTuple_toTuple _ := rfl
  toTuple_ofTuple _ := rfl

def NetworkSource.record : Schema.Record NetworkSource where
  members := [
    ⟨"protocol", .attr "protocol" (.enum .networkProtocol)⟩,
    ⟨"name", .optionalAttr "name" .string⟩,
    ⟨"hosts", .elements "host" 0 (.group .sourceHost)⟩]
  toTuple a := (a.protocol, a.name, a.hosts, ())
  ofTuple := fun (protocol, name, hosts, ()) =>
    { protocol, name, hosts }
  ofTuple_toTuple _ := rfl
  toTuple_ofTuple _ := rfl

def VolumeSource.record : Schema.Record VolumeSource where
  members := [
    ⟨"pool", .attr "pool" .string⟩,
    ⟨"volume", .attr "volume" .string⟩]
  toTuple a := (a.pool, a.volume, ())
  ofTuple := fun (pool, volume, ()) =>
    { pool, volume }
  ofTuple_toTuple _ := rfl
  toTuple_ofTuple _ := rfl

def DiskSource.variants : Schema.Variants DiskSource where
  alternatives := [
    .group "File" .fileSource,
    .group "Block" .blockSource,
    .group "Dir" .dirSource,
    .group "Network" .networkSource,
    .group "Volume" .volumeSource]
  toAny
    | .file x => .inl x
    | .block x => .inr (.inl x)
    | .dir x => .inr (.inr (.inl x))
    | .network x => .inr (.inr (.inr (.inl x)))
    | .volume x => .inr (.inr (.inr (.inr (.inl x))))
  ofAny
    | .inl x => .file x
    | .inr (.inl x) => .block x
    | .inr (.inr (.inl x)) => .dir x
    | .inr (.inr (.inr (.inl x))) => .network x
    | .inr (.inr (.inr (.inr (.inl x)))) => .volume x
  ofAny_toAny a := by cases a <;> rfl
  toAny_ofAny
    | .inl _ => rfl
    | .inr (.inl _) => rfl
    | .inr (.inr (.inl _)) => rfl
    | .inr (.inr (.inr (.inl _))) => rfl
    | .inr (.inr (.inr (.inr (.inl _)))) => rfl

def BackingFormat.record : Schema.Record BackingFormat where
  members := [
    ⟨"format", .attr "type" (.enum .diskFormat)⟩]
  toTuple a := (a.format, ())
  ofTuple := fun (format, ()) =>
    { format }
  ofTuple_toTuple _ := rfl
  toTuple_ofTuple _ := rfl

/-- A bare element has no members: it has to be empty. -/
def Bare.record : Schema.Record Bare where
  members := [.fixed .noContent]
  toTuple _ := ((), ())
  ofTuple := fun _ => {}
  ofTuple_toTuple _ := rfl
  toTuple_ofTuple _ := rfl

def BackingLayer.record : Schema.Record BackingLayer where
  members := [
    ⟨"kind", .attr "type" (.enum .diskType)⟩,
    ⟨"index", .optionalAttr "index" .unsignedInt⟩,
    ⟨"format", .optionalElement "format" (.group .backingFormat)⟩,
    ⟨"source", .optionalElement "source" (.choice .diskSource)⟩,
    ⟨"backing_store", .optionalElement "backingStore" (.choice .backingStore)⟩]
  toTuple a := (a.kind, a.index, a.format, a.source, a.backingStore, ())
  ofTuple := fun (kind, index, format, source, backingStore, ()) =>
    { kind, index, format, source, backingStore }
  ofTuple_toTuple a := by cases a; rfl
  toTuple_ofTuple _ := rfl

def BackingStore.variants : Schema.Variants BackingStore where
  alternatives := [
    .group "Layer" .backingLink,
    .group "End" .bare]
  toAny
    | .layer x => .inl x
    | .done x => .inr (.inl x)
  ofAny
    | .inl x => .layer x
    | .inr (.inl x) => .done x
  ofAny_toAny a := by cases a <;> rfl
  toAny_ofAny
    | .inl _ => rfl
    | .inr (.inl _) => rfl

def DiskTarget.record : Schema.Record DiskTarget where
  members := [
    ⟨"dev", .attr "dev" .string⟩,
    ⟨"bus", .optionalAttr "bus" (.enum .diskBus)⟩,
    ⟨"tray", .optionalAttr "tray" (.enum .tray)⟩]
  toTuple a := (a.dev, a.bus, a.tray, ())
  ofTuple := fun (dev, bus, tray, ()) =>
    { dev, bus, tray }
  ofTuple_toTuple _ := rfl
  toTuple_ofTuple _ := rfl

def BootOrder.record : Schema.Record BootOrder where
  members := [
    ⟨"order", .attr "order" .unsignedInt⟩]
  toTuple a := (a.order, ())
  ofTuple := fun (order, ()) =>
    { order }
  ofTuple_toTuple _ := rfl
  toTuple_ofTuple _ := rfl

def Disk.record : Schema.Record Disk where
  members := [
    ⟨"kind", .attr "type" (.enum .diskType)⟩,
    ⟨"device", .optionalAttr "device" (.enum .diskDevice)⟩,
    ⟨"driver", .optionalElement "driver" (.group .diskDriver)⟩,
    ⟨"source", .optionalElement "source" (.choice .diskSource)⟩,
    ⟨"backing_store", .optionalElement "backingStore" (.choice .backingStore)⟩,
    ⟨"target", .element "target" (.group .diskTarget)⟩,
    ⟨"readonly", .flag "readonly"⟩,
    ⟨"shareable", .flag "shareable"⟩,
    ⟨"serial", .optionalValueElement "serial" .string⟩,
    ⟨"boot", .optionalElement "boot" (.group .bootOrder)⟩,
    ⟨"address", .optionalElement "address" (.choice .deviceAddress)⟩]
  toTuple a := (a.kind, a.device, a.driver, a.source, a.backingStore, a.target, a.readonly,
    a.shareable, a.serial, a.boot, a.address, ())
  ofTuple := fun (kind, device, driver, source, backingStore, target, readonly, shareable,
    serial, boot, address, ()) =>
    { kind, device, driver, source, backingStore, target, readonly, shareable, serial, boot,
      address }
  ofTuple_toTuple _ := rfl
  toTuple_ofTuple _ := rfl

def ControllerModel.record : Schema.Record ControllerModel where
  members := [
    ⟨"name", .attr "name" .string⟩]
  toTuple a := (a.name, ())
  ofTuple := fun (name, ()) =>
    { name }
  ofTuple_toTuple _ := rfl
  toTuple_ofTuple _ := rfl

def ControllerTarget.record : Schema.Record ControllerTarget where
  members := [
    ⟨"chassis", .optionalAttr "chassis" .unsignedInt⟩,
    ⟨"port", .optionalAttr "port" (.union .hexOrUnsigned)⟩]
  toTuple a := (a.chassis, a.port, ())
  ofTuple := fun (chassis, port, ()) =>
    { chassis, port }
  ofTuple_toTuple _ := rfl
  toTuple_ofTuple _ := rfl

def Controller.record : Schema.Record Controller where
  members := [
    ⟨"kind", .attr "type" (.enum .controllerType)⟩,
    ⟨"index", .attr "index" .unsignedInt⟩,
    ⟨"model", .optionalAttr "model" .string⟩,
    ⟨"model_name", .optionalElement "model" (.group .controllerModel)⟩,
    ⟨"target", .optionalElement "target" (.group .controllerTarget)⟩,
    ⟨"address", .optionalElement "address" (.choice .deviceAddress)⟩]
  toTuple a := (a.kind, a.index, a.model, a.modelName, a.target, a.address, ())
  ofTuple := fun (kind, index, model, modelName, target, address, ()) =>
    { kind, index, model, modelName, target, address }
  ofTuple_toTuple _ := rfl
  toTuple_ofTuple _ := rfl

end GuestXml
