import GuestXml.Schema.Record

/-!
# Members of interfaces and consoles

The members of network interfaces, character devices, displays and the other devices.
-/

namespace GuestXml

def MacAddress.record : Schema.Record MacAddress where
  members := [
    ⟨"address", .attr "address" (.restricted .unicastMac)⟩]
  toTuple a := (a.address, ())
  ofTuple := fun (address, ()) =>
    { address }
  ofTuple_toTuple _ := rfl
  toTuple_ofTuple _ := rfl

def BridgeSource.record : Schema.Record BridgeSource where
  members := [
    ⟨"bridge", .attr "bridge" .string⟩]
  toTuple a := (a.bridge, ())
  ofTuple := fun (bridge, ()) =>
    { bridge }
  ofTuple_toTuple _ := rfl
  toTuple_ofTuple _ := rfl

def NetworkRef.record : Schema.Record NetworkRef where
  members := [
    ⟨"network", .attr "network" .string⟩,
    ⟨"portgroup", .optionalAttr "portgroup" .string⟩]
  toTuple a := (a.network, a.portgroup, ())
  ofTuple := fun (network, portgroup, ()) =>
    { network, portgroup }
  ofTuple_toTuple _ := rfl
  toTuple_ofTuple _ := rfl

def DirectSource.record : Schema.Record DirectSource where
  members := [
    ⟨"dev", .attr "dev" .string⟩,
    ⟨"mode", .optionalAttr "mode" (.enum .directMode)⟩]
  toTuple a := (a.dev, a.mode, ())
  ofTuple := fun (dev, mode, ()) =>
    { dev, mode }
  ofTuple_toTuple _ := rfl
  toTuple_ofTuple _ := rfl

def InterfaceSource.variants : Schema.Variants InterfaceSource where
  alternatives := [
    .group "Bridge" .bridgeSource,
    .group "Network" .networkRef,
    .group "Direct" .directSource]
  toAny
    | .bridge x => .inl x
    | .network x => .inr (.inl x)
    | .direct x => .inr (.inr (.inl x))
  ofAny
    | .inl x => .bridge x
    | .inr (.inl x) => .network x
    | .inr (.inr (.inl x)) => .direct x
  ofAny_toAny a := by cases a <;> rfl
  toAny_ofAny
    | .inl _ => rfl
    | .inr (.inl _) => rfl
    | .inr (.inr (.inl _)) => rfl

def VirtualPortParameters.record : Schema.Record VirtualPortParameters where
  members := [
    ⟨"interfaceid", .optionalAttr "interfaceid" .string⟩,
    ⟨"profileid", .optionalAttr "profileid" .string⟩]
  toTuple a := (a.interfaceid, a.profileid, ())
  ofTuple := fun (interfaceid, profileid, ()) =>
    { interfaceid, profileid }
  ofTuple_toTuple _ := rfl
  toTuple_ofTuple _ := rfl

def VirtualPort.record : Schema.Record VirtualPort where
  members := [
    ⟨"kind", .attr "type" (.enum .virtualPortType)⟩,
    ⟨"parameters", .optionalElement "parameters" (.group .virtualPortParameters)⟩]
  toTuple a := (a.kind, a.parameters, ())
  ofTuple := fun (kind, parameters, ()) =>
    { kind, parameters }
  ofTuple_toTuple _ := rfl
  toTuple_ofTuple _ := rfl

def InterfaceTarget.record : Schema.Record InterfaceTarget where
  members := [
    ⟨"dev", .attr "dev" .string⟩]
  toTuple a := (a.dev, ())
  ofTuple := fun (dev, ()) =>
    { dev }
  ofTuple_toTuple _ := rfl
  toTuple_ofTuple _ := rfl

def InterfaceModel.record : Schema.Record InterfaceModel where
  members := [
    ⟨"kind", .attr "type" .string⟩]
  toTuple a := (a.kind, ())
  ofTuple := fun (kind, ()) =>
    { kind }
  ofTuple_toTuple _ := rfl
  toTuple_ofTuple _ := rfl

def Interface.record : Schema.Record Interface where
  members := [
    ⟨"kind", .attr "type" (.enum .interfaceType)⟩,
    ⟨"mac", .optionalElement "mac" (.group .macAddress)⟩,
    ⟨"source", .optionalElement "source" (.choice .interfaceSource)⟩,
    ⟨"virtualport", .optionalElement "virtualport" (.group .virtualPort)⟩,
    ⟨"target", .optionalElement "target" (.group .interfaceTarget)⟩,
    ⟨"model", .optionalElement "model" (.group .interfaceModel)⟩,
    ⟨"filterref", .optionalElement "filterref" (.group .filterReference)⟩,
    ⟨"address", .optionalElement "address" (.choice .deviceAddress)⟩]
  toTuple a := (a.kind, a.mac, a.source, a.virtualport, a.target, a.model, a.filterref,
    a.address, ())
  ofTuple := fun (kind, mac, source, virtualport, target, model, filterref, address, ()) =>
    { kind, mac, source, virtualport, target, model, filterref, address }
  ofTuple_toTuple _ := rfl
  toTuple_ofTuple _ := rfl

def CharSource.record : Schema.Record CharSource where
  members := [
    ⟨"mode", .optionalAttr "mode" (.enum .sourceMode)⟩,
    ⟨"path", .optionalAttr "path" .string⟩,
    ⟨"host", .optionalAttr "host" .string⟩,
    ⟨"service", .optionalAttr "service" .string⟩]
  toTuple a := (a.mode, a.path, a.host, a.service, ())
  ofTuple := fun (mode, path, host, service, ()) =>
    { mode, path, host, service }
  ofTuple_toTuple _ := rfl
  toTuple_ofTuple _ := rfl

def CharTarget.record : Schema.Record CharTarget where
  members := [
    ⟨"kind", .optionalAttr "type" .string⟩,
    ⟨"port", .optionalAttr "port" .unsignedInt⟩,
    ⟨"name", .optionalAttr "name" .string⟩]
  toTuple a := (a.kind, a.port, a.name, ())
  ofTuple := fun (kind, port, name, ()) =>
    { kind, port, name }
  ofTuple_toTuple _ := rfl
  toTuple_ofTuple _ := rfl

def CharDevice.record : Schema.Record CharDevice where
  members := [
    ⟨"kind", .attr "type" (.enum .charType)⟩,
    ⟨"source", .optionalElement "source" (.group .charSource)⟩,
    ⟨"target", .optionalElement "target" (.group .charTarget)⟩,
    ⟨"address", .optionalElement "address" (.choice .deviceAddress)⟩]
  toTuple a := (a.kind, a.source, a.target, a.address, ())
  ofTuple := fun (kind, source, target, address, ()) =>
    { kind, source, target, address }
  ofTuple_toTuple _ := rfl
  toTuple_ofTuple _ := rfl

def Input.record : Schema.Record Input where
  members := [
    ⟨"kind", .attr "type" (.enum .inputType)⟩,
    ⟨"bus", .optionalAttr "bus" (.enum .inputBus)⟩,
    ⟨"address", .optionalElement "address" (.choice .deviceAddress)⟩]
  toTuple a := (a.kind, a.bus, a.address, ())
  ofTuple := fun (kind, bus, address, ()) =>
    { kind, bus, address }
  ofTuple_toTuple _ := rfl
  toTuple_ofTuple _ := rfl

def GraphicsListen.record : Schema.Record GraphicsListen where
  members := [
    ⟨"kind", .attr "type" (.enum .listenType)⟩,
    ⟨"address", .optionalAttr "address" .string⟩,
    ⟨"network", .optionalAttr "network" .string⟩]
  toTuple a := (a.kind, a.address, a.network, ())
  ofTuple := fun (kind, address, network, ()) =>
    { kind, address, network }
  ofTuple_toTuple _ := rfl
  toTuple_ofTuple _ := rfl

def Graphics.record : Schema.Record Graphics where
  members := [
    ⟨"kind", .attr "type" (.enum .graphicsType)⟩,
    ⟨"port", .optionalAttr "port" (.ranged .portNumber)⟩,
    ⟨"autoport", .optionalAttr "autoport" (.enum .yesNo)⟩,
    ⟨"listen", .optionalAttr "listen" .string⟩,
    ⟨"passwd", .optionalAttr "passwd" .string⟩,
    ⟨"listens", .elements "listen" 0 (.group .graphicsListen)⟩]
  toTuple a := (a.kind, a.port, a.autoport, a.listen, a.passwd, a.listens, ())
  ofTuple := fun (kind, port, autoport, listen, passwd, listens, ()) =>
    { kind, port, autoport, listen, passwd, listens }
  ofTuple_toTuple _ := rfl
  toTuple_ofTuple _ := rfl

def VideoModel.record : Schema.Record VideoModel where
  members := [
    ⟨"kind", .attr "type" (.enum .videoKind)⟩,
    ⟨"vram", .optionalAttr "vram" .unsignedInt⟩,
    ⟨"heads", .optionalAttr "heads" .unsignedInt⟩,
    ⟨"primary", .optionalAttr "primary" (.enum .yesNo)⟩]
  toTuple a := (a.kind, a.vram, a.heads, a.primary, ())
  ofTuple := fun (kind, vram, heads, primary, ()) =>
    { kind, vram, heads, primary }
  ofTuple_toTuple _ := rfl
  toTuple_ofTuple _ := rfl

def Video.record : Schema.Record Video where
  members := [
    ⟨"model", .element "model" (.group .videoModel)⟩,
    ⟨"address", .optionalElement "address" (.choice .deviceAddress)⟩]
  toTuple a := (a.model, a.address, ())
  ofTuple := fun (model, address, ()) =>
    { model, address }
  ofTuple_toTuple _ := rfl
  toTuple_ofTuple _ := rfl

def MemBalloonStats.record : Schema.Record MemBalloonStats where
  members := [
    ⟨"period", .attr "period" .unsignedInt⟩]
  toTuple a := (a.period, ())
  ofTuple := fun (period, ()) =>
    { period }
  ofTuple_toTuple _ := rfl
  toTuple_ofTuple _ := rfl

def MemBalloon.record : Schema.Record MemBalloon where
  members := [
    ⟨"model", .attr "model" (.enum .balloonModel)⟩,
    ⟨"stats", .optionalElement "stats" (.group .memBalloonStats)⟩,
    ⟨"address", .optionalElement "address" (.choice .deviceAddress)⟩]
  toTuple a := (a.model, a.stats, a.address, ())
  ofTuple := fun (model, stats, address, ()) =>
    { model, stats, address }
  ofTuple_toTuple _ := rfl
  toTuple_ofTuple _ := rfl

def Devices.record : Schema.Record Devices where
  members := [
    ⟨"emulator", .optionalValueElement "emulator" .string⟩,
    ⟨"disks", .elements "disk" 0 (.group .disk)⟩,
    ⟨"controllers", .elements "controller" 0 (.group .controller)⟩,
    ⟨"interfaces", .elements "interface" 0 (.group .interface)⟩,
    ⟨"serials", .elements "serial" 0 (.group .charDevice)⟩,
    ⟨"consoles", .elements "console" 0 (.group .charDevice)⟩,
    ⟨"channels", .elements "channel" 0 (.group .charDevice)⟩,
    ⟨"inputs", .elements "input" 0 (.group .input)⟩,
    ⟨"graphics", .elements "graphics" 0 (.group .graphics)⟩,
    ⟨"videos", .elements "video" 0 (.group .video)⟩,
    ⟨"memballoon", .optionalElement "memballoon" (.group .memBalloon)⟩]
  toTuple a := (a.emulator, a.disks, a.controllers, a.interfaces, a.serials, a.consoles,
    a.channels, a.inputs, a.graphics, a.videos, a.memballoon, ())
  ofTuple := fun (emulator, disks, controllers, interfaces, serials, consoles, channels, inputs,
    graphics, videos, memballoon, ()) =>
    { emulator, disks, controllers, interfaces, serials, consoles, channels, inputs, graphics,
      videos, memballoon }
  ofTuple_toTuple _ := rfl
  toTuple_ofTuple _ := rfl

end GuestXml
