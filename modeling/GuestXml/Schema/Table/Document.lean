import GuestXml.Schema.Record

/-!
# Members of domains and snapshots

The members of the two large documents.
-/

namespace GuestXml

def Domain.record : Schema.Record Domain where
  members := [
    ⟨"kind", .attr "type" (.enum .virtType)⟩,
    ⟨"id", .optionalAttr "id" .signedInt⟩,
    ⟨"name", .valueElement "name" .string⟩,
    ⟨"uuid", .optionalValueElement "uuid" (.restricted .uuid)⟩,
    ⟨"title", .optionalValueElement "title" .string⟩,
    ⟨"description", .optionalValueElement "description" .string⟩,
    ⟨"memory", .element "memory" (.group .scaledInteger)⟩,
    ⟨"current_memory", .optionalElement "currentMemory" (.group .scaledInteger)⟩,
    ⟨"vcpu", .optionalElement "vcpu" (.group .vcpu)⟩,
    ⟨"cputune", .optionalElement "cputune" (.group .cpuTune)⟩,
    ⟨"os", .element "os" (.group .os)⟩,
    ⟨"features", .optionalElement "features" (.group .features)⟩,
    ⟨"cpu", .optionalElement "cpu" (.group .cpu)⟩,
    ⟨"clock", .optionalElement "clock" (.group .clock)⟩,
    ⟨"on_poweroff", .optionalValueElement "on_poweroff" (.enum .lifecycleAction)⟩,
    ⟨"on_reboot", .optionalValueElement "on_reboot" (.enum .lifecycleAction)⟩,
    ⟨"on_crash", .optionalValueElement "on_crash" (.enum .crashAction)⟩,
    ⟨"pm", .optionalElement "pm" (.group .powerManagement)⟩,
    ⟨"devices", .optionalElement "devices" (.group .devices)⟩]
  toTuple a := (a.kind, a.id, a.name, a.uuid, a.title, a.description, a.memory, a.currentMemory,
    a.vcpu, a.cputune, a.os, a.features, a.cpu, a.clock, a.onPoweroff, a.onReboot, a.onCrash,
    a.pm, a.devices, ())
  ofTuple := fun (kind, id, name, uuid, title, description, memory, currentMemory, vcpu,
    cputune, os, features, cpu, clock, onPoweroff, onReboot, onCrash, pm, devices, ()) =>
    { kind, id, name, uuid, title, description, memory, currentMemory, vcpu, cputune, os,
      features, cpu, clock, onPoweroff, onReboot, onCrash, pm, devices }
  ofTuple_toTuple _ := rfl
  toTuple_ofTuple _ := rfl

def SnapshotParent.record : Schema.Record SnapshotParent where
  members := [
    ⟨"name", .valueElement "name" .string⟩]
  toTuple a := (a.name, ())
  ofTuple := fun (name, ()) =>
    { name }
  ofTuple_toTuple _ := rfl
  toTuple_ofTuple _ := rfl

def SnapshotMemory.record : Schema.Record SnapshotMemory where
  members := [
    ⟨"snapshot", .attr "snapshot" (.enum .snapshotMode)⟩,
    ⟨"file", .optionalAttr "file" .string⟩]
  toTuple a := (a.snapshot, a.file, ())
  ofTuple := fun (snapshot, file, ()) =>
    { snapshot, file }
  ofTuple_toTuple _ := rfl
  toTuple_ofTuple _ := rfl

def SnapshotDisk.record : Schema.Record SnapshotDisk where
  members := [
    ⟨"name", .attr "name" .string⟩,
    ⟨"snapshot", .optionalAttr "snapshot" (.enum .snapshotMode)⟩,
    ⟨"kind", .optionalAttr "type" (.enum .diskType)⟩,
    ⟨"driver", .optionalElement "driver" (.group .diskDriver)⟩,
    ⟨"source", .optionalElement "source" (.choice .diskSource)⟩]
  toTuple a := (a.name, a.snapshot, a.kind, a.driver, a.source, ())
  ofTuple := fun (name, snapshot, kind, driver, source, ()) =>
    { name, snapshot, kind, driver, source }
  ofTuple_toTuple _ := rfl
  toTuple_ofTuple _ := rfl

def SnapshotDisks.record : Schema.Record SnapshotDisks where
  members := [
    ⟨"disks", .elements "disk" 0 (.group .snapshotDisk)⟩]
  toTuple a := (a.disks, ())
  ofTuple := fun (disks, ()) =>
    { disks }
  ofTuple_toTuple _ := rfl
  toTuple_ofTuple _ := rfl

def DomainSnapshot.record : Schema.Record DomainSnapshot where
  members := [
    ⟨"name", .optionalValueElement "name" .string⟩,
    ⟨"description", .optionalValueElement "description" .string⟩,
    ⟨"state", .optionalValueElement "state" (.enum .snapshotState)⟩,
    ⟨"parent", .optionalElement "parent" (.group .snapshotParent)⟩,
    ⟨"creation_time", .optionalValueElement "creationTime" .instant⟩,
    ⟨"memory", .optionalElement "memory" (.group .snapshotMemory)⟩,
    ⟨"disks", .optionalElement "disks" (.group .snapshotDisks)⟩,
    ⟨"domain", .optionalElement "domain" (.group .domain)⟩,
    ⟨"active", .optionalValueElement "active" .unsignedByte⟩]
  toTuple a := (a.name, a.description, a.state, a.parent, a.creationTime, a.memory, a.disks,
    a.domain, a.active, ())
  ofTuple := fun (name, description, state, parent, creationTime, memory, disks, domain, active,
    ()) =>
    { name, description, state, parent, creationTime, memory, disks, domain, active }
  ofTuple_toTuple _ := rfl
  toTuple_ofTuple _ := rfl

end GuestXml
