import GuestXml.Schema.Record

/-!
# Members of a machine

The members of the groups that describe a guest apart from its devices, in the order in which
they are written.
-/

namespace GuestXml

def ScaledInteger.record : Schema.Record ScaledInteger where
  members := [
    ⟨"unit", .optionalAttr "unit" (.enum .sizeUnit)⟩,
    ⟨"value", .text .unsignedLong⟩]
  toTuple a := (a.unit, a.value, ())
  ofTuple := fun (unit, value, ()) =>
    { unit, value }
  ofTuple_toTuple _ := rfl
  toTuple_ofTuple _ := rfl

def OsType.record : Schema.Record OsType where
  members := [
    ⟨"arch", .optionalAttr "arch" .string⟩,
    ⟨"machine", .optionalAttr "machine" .string⟩,
    ⟨"kind", .text (.enum .osKind)⟩]
  toTuple a := (a.arch, a.machine, a.kind, ())
  ofTuple := fun (arch, machine, kind, ()) =>
    { arch, machine, kind }
  ofTuple_toTuple _ := rfl
  toTuple_ofTuple _ := rfl

def Loader.record : Schema.Record Loader where
  members := [
    ⟨"readonly", .optionalAttr "readonly" (.enum .yesNo)⟩,
    ⟨"kind", .optionalAttr "type" (.enum .loaderType)⟩,
    ⟨"path", .text .string⟩]
  toTuple a := (a.readonly, a.kind, a.path, ())
  ofTuple := fun (readonly, kind, path, ()) =>
    { readonly, kind, path }
  ofTuple_toTuple _ := rfl
  toTuple_ofTuple _ := rfl

def Nvram.record : Schema.Record Nvram where
  members := [
    ⟨"template", .optionalAttr "template" .string⟩,
    ⟨"path", .text .string⟩]
  toTuple a := (a.template, a.path, ())
  ofTuple := fun (template, path, ()) =>
    { template, path }
  ofTuple_toTuple _ := rfl
  toTuple_ofTuple _ := rfl

def Boot.record : Schema.Record Boot where
  members := [
    ⟨"dev", .attr "dev" (.enum .bootDevice)⟩]
  toTuple a := (a.dev, ())
  ofTuple := fun (dev, ()) =>
    { dev }
  ofTuple_toTuple _ := rfl
  toTuple_ofTuple _ := rfl

def BootMenu.record : Schema.Record BootMenu where
  members := [
    ⟨"enable", .attr "enable" (.enum .yesNo)⟩,
    ⟨"timeout", .optionalAttr "timeout" .unsignedInt⟩]
  toTuple a := (a.enable, a.timeout, ())
  ofTuple := fun (enable, timeout, ()) =>
    { enable, timeout }
  ofTuple_toTuple _ := rfl
  toTuple_ofTuple _ := rfl

def Os.record : Schema.Record Os where
  members := [
    ⟨"kind", .element "type" (.group .osType)⟩,
    ⟨"loader", .optionalElement "loader" (.group .loader)⟩,
    ⟨"nvram", .optionalElement "nvram" (.group .nvram)⟩,
    ⟨"kernel", .optionalValueElement "kernel" .string⟩,
    ⟨"initrd", .optionalValueElement "initrd" .string⟩,
    ⟨"cmdline", .optionalValueElement "cmdline" .string⟩,
    ⟨"boot", .elements "boot" 0 (.group .boot)⟩,
    ⟨"bootmenu", .optionalElement "bootmenu" (.group .bootMenu)⟩]
  toTuple a := (a.kind, a.loader, a.nvram, a.kernel, a.initrd, a.cmdline, a.boot, a.bootmenu,
    ())
  ofTuple := fun (kind, loader, nvram, kernel, initrd, cmdline, boot, bootmenu, ()) =>
    { kind, loader, nvram, kernel, initrd, cmdline, boot, bootmenu }
  ofTuple_toTuple _ := rfl
  toTuple_ofTuple _ := rfl

def FeatureState.record : Schema.Record FeatureState where
  members := [
    ⟨"state", .attr "state" (.enum .onOff)⟩]
  toTuple a := (a.state, ())
  ofTuple := fun (state, ()) =>
    { state }
  ofTuple_toTuple _ := rfl
  toTuple_ofTuple _ := rfl

def Spinlocks.record : Schema.Record Spinlocks where
  members := [
    ⟨"state", .attr "state" (.enum .onOff)⟩,
    ⟨"retries", .optionalAttr "retries" .unsignedInt⟩]
  toTuple a := (a.state, a.retries, ())
  ofTuple := fun (state, retries, ()) =>
    { state, retries }
  ofTuple_toTuple _ := rfl
  toTuple_ofTuple _ := rfl

def Hyperv.record : Schema.Record Hyperv where
  members := [
    ⟨"relaxed", .optionalElement "relaxed" (.group .featureState)⟩,
    ⟨"vapic", .optionalElement "vapic" (.group .featureState)⟩,
    ⟨"spinlocks", .optionalElement "spinlocks" (.group .spinlocks)⟩,
    ⟨"vpindex", .optionalElement "vpindex" (.group .featureState)⟩,
    ⟨"runtime", .optionalElement "runtime" (.group .featureState)⟩,
    ⟨"synic", .optionalElement "synic" (.group .featureState)⟩,
    ⟨"stimer", .optionalElement "stimer" (.group .featureState)⟩,
    ⟨"reset", .optionalElement "reset" (.group .featureState)⟩,
    ⟨"frequencies", .optionalElement "frequencies" (.group .featureState)⟩,
    ⟨"reftime", .optionalElement "reftime" (.group .featureState)⟩,
    ⟨"tlbflush", .optionalElement "tlbflush" (.group .featureState)⟩,
    ⟨"ipi", .optionalElement "ipi" (.group .featureState)⟩]
  toTuple a := (a.relaxed, a.vapic, a.spinlocks, a.vpindex, a.runtime, a.synic, a.stimer,
    a.reset, a.frequencies, a.reftime, a.tlbflush, a.ipi, ())
  ofTuple := fun (relaxed, vapic, spinlocks, vpindex, runtime, synic, stimer, reset,
    frequencies, reftime, tlbflush, ipi, ()) =>
    { relaxed, vapic, spinlocks, vpindex, runtime, synic, stimer, reset, frequencies, reftime,
      tlbflush, ipi }
  ofTuple_toTuple _ := rfl
  toTuple_ofTuple _ := rfl

def Features.record : Schema.Record Features where
  members := [
    ⟨"acpi", .flag "acpi"⟩,
    ⟨"apic", .flag "apic"⟩,
    ⟨"pae", .flag "pae"⟩,
    ⟨"hyperv", .optionalElement "hyperv" (.group .hyperv)⟩,
    ⟨"vmport", .optionalElement "vmport" (.group .featureState)⟩,
    ⟨"smm", .optionalElement "smm" (.group .featureState)⟩]
  toTuple a := (a.acpi, a.apic, a.pae, a.hyperv, a.vmport, a.smm, ())
  ofTuple := fun (acpi, apic, pae, hyperv, vmport, smm, ()) =>
    { acpi, apic, pae, hyperv, vmport, smm }
  ofTuple_toTuple _ := rfl
  toTuple_ofTuple _ := rfl

def Vcpu.record : Schema.Record Vcpu where
  members := [
    ⟨"placement", .optionalAttr "placement" (.enum .placement)⟩,
    ⟨"cpuset", .optionalAttr "cpuset" .string⟩,
    ⟨"current", .optionalAttr "current" .unsignedInt⟩,
    ⟨"count", .text .unsignedInt⟩]
  toTuple a := (a.placement, a.cpuset, a.current, a.count, ())
  ofTuple := fun (placement, cpuset, current, count, ()) =>
    { placement, cpuset, current, count }
  ofTuple_toTuple _ := rfl
  toTuple_ofTuple _ := rfl

def CpuModel.record : Schema.Record CpuModel where
  members := [
    ⟨"fallback", .optionalAttr "fallback" (.enum .fallback)⟩,
    ⟨"name", .text .string⟩]
  toTuple a := (a.fallback, a.name, ())
  ofTuple := fun (fallback, name, ()) =>
    { fallback, name }
  ofTuple_toTuple _ := rfl
  toTuple_ofTuple _ := rfl

def Topology.record : Schema.Record Topology where
  members := [
    ⟨"sockets", .attr "sockets" .unsignedInt⟩,
    ⟨"dies", .optionalAttr "dies" .unsignedInt⟩,
    ⟨"cores", .attr "cores" .unsignedInt⟩,
    ⟨"threads", .attr "threads" .unsignedInt⟩]
  toTuple a := (a.sockets, a.dies, a.cores, a.threads, ())
  ofTuple := fun (sockets, dies, cores, threads, ()) =>
    { sockets, dies, cores, threads }
  ofTuple_toTuple _ := rfl
  toTuple_ofTuple _ := rfl

def CpuFeature.record : Schema.Record CpuFeature where
  members := [
    ⟨"policy", .optionalAttr "policy" (.enum .featurePolicy)⟩,
    ⟨"name", .attr "name" .string⟩]
  toTuple a := (a.policy, a.name, ())
  ofTuple := fun (policy, name, ()) =>
    { policy, name }
  ofTuple_toTuple _ := rfl
  toTuple_ofTuple _ := rfl

def Sibling.record : Schema.Record Sibling where
  members := [
    ⟨"id", .attr "id" .unsignedInt⟩,
    ⟨"value", .attr "value" .unsignedInt⟩]
  toTuple a := (a.id, a.value, ())
  ofTuple := fun (id, value, ()) =>
    { id, value }
  ofTuple_toTuple _ := rfl
  toTuple_ofTuple _ := rfl

def Distances.record : Schema.Record Distances where
  members := [
    ⟨"siblings", .elements "sibling" 1 (.group .sibling)⟩]
  toTuple a := (a.siblings, ())
  ofTuple := fun (siblings, ()) =>
    { siblings }
  ofTuple_toTuple _ := rfl
  toTuple_ofTuple _ := rfl

def Cache.record : Schema.Record Cache where
  members := [
    ⟨"level", .attr "level" .unsignedInt⟩,
    ⟨"associativity", .attr "associativity" (.union .cacheAssociativity)⟩,
    ⟨"policy", .attr "policy" (.enum .cachePolicy)⟩,
    ⟨"size", .element "size" (.group .scaledInteger)⟩,
    ⟨"line", .element "line" (.group .scaledInteger)⟩]
  toTuple a := (a.level, a.associativity, a.policy, a.size, a.line, ())
  ofTuple := fun (level, associativity, policy, size, line, ()) =>
    { level, associativity, policy, size, line }
  ofTuple_toTuple _ := rfl
  toTuple_ofTuple _ := rfl

def NumaCell.record : Schema.Record NumaCell where
  members := [
    ⟨"id", .optionalAttr "id" .unsignedInt⟩,
    ⟨"cpus", .optionalAttr "cpus" .string⟩,
    ⟨"memory", .attr "memory" .unsignedLong⟩,
    ⟨"unit", .optionalAttr "unit" (.enum .sizeUnit)⟩,
    ⟨"mem_access", .optionalAttr "memAccess" (.enum .memAccess)⟩,
    ⟨"discard", .optionalAttr "discard" (.enum .yesNo)⟩,
    ⟨"distances", .optionalElement "distances" (.group .distances)⟩,
    ⟨"caches", .elements "cache" 0 (.group .cache)⟩]
  toTuple a := (a.id, a.cpus, a.memory, a.unit, a.memAccess, a.discard, a.distances, a.caches,
    ())
  ofTuple := fun (id, cpus, memory, unit, memAccess, discard, distances, caches, ()) =>
    { id, cpus, memory, unit, memAccess, discard, distances, caches }
  ofTuple_toTuple _ := rfl
  toTuple_ofTuple _ := rfl

def Numa.record : Schema.Record Numa where
  members := [
    ⟨"cells", .elements "cell" 1 (.group .numaCell)⟩]
  toTuple a := (a.cells, ())
  ofTuple := fun (cells, ()) =>
    { cells }
  ofTuple_toTuple _ := rfl
  toTuple_ofTuple _ := rfl

def Cpu.record : Schema.Record Cpu where
  members := [
    ⟨"mode", .optionalAttr "mode" (.enum .cpuMode)⟩,
    ⟨"matching", .optionalAttr "match" (.enum .cpuMatch)⟩,
    ⟨"check", .optionalAttr "check" (.enum .cpuCheck)⟩,
    ⟨"migratable", .optionalAttr "migratable" (.enum .onOff)⟩,
    ⟨"model", .optionalElement "model" (.group .cpuModel)⟩,
    ⟨"vendor", .optionalValueElement "vendor" .string⟩,
    ⟨"topology", .optionalElement "topology" (.group .topology)⟩,
    ⟨"features", .elements "feature" 0 (.group .cpuFeature)⟩,
    ⟨"numa", .optionalElement "numa" (.group .numa)⟩]
  toTuple a := (a.mode, a.matching, a.check, a.migratable, a.model, a.vendor, a.topology,
    a.features, a.numa, ())
  ofTuple := fun (mode, matching, check, migratable, model, vendor, topology, features, numa,
    ()) =>
    { mode, matching, check, migratable, model, vendor, topology, features, numa }
  ofTuple_toTuple _ := rfl
  toTuple_ofTuple _ := rfl

def VcpuPin.record : Schema.Record VcpuPin where
  members := [
    ⟨"vcpu", .attr "vcpu" .unsignedInt⟩,
    ⟨"cpuset", .attr "cpuset" .string⟩]
  toTuple a := (a.vcpu, a.cpuset, ())
  ofTuple := fun (vcpu, cpuset, ()) =>
    { vcpu, cpuset }
  ofTuple_toTuple _ := rfl
  toTuple_ofTuple _ := rfl

def EmulatorPin.record : Schema.Record EmulatorPin where
  members := [
    ⟨"cpuset", .attr "cpuset" .string⟩]
  toTuple a := (a.cpuset, ())
  ofTuple := fun (cpuset, ()) =>
    { cpuset }
  ofTuple_toTuple _ := rfl
  toTuple_ofTuple _ := rfl

def CpuTune.record : Schema.Record CpuTune where
  members := [
    ⟨"shares", .optionalValueElement "shares" .unsignedLong⟩,
    ⟨"period", .optionalValueElement "period" (.ranged .cpuPeriod)⟩,
    ⟨"quota", .optionalValueElement "quota" (.ranged .cpuQuota)⟩,
    ⟨"emulator_period", .optionalValueElement "emulator_period" (.ranged .cpuPeriod)⟩,
    ⟨"emulator_quota", .optionalValueElement "emulator_quota" (.ranged .cpuQuota)⟩,
    ⟨"vcpupins", .elements "vcpupin" 0 (.group .vcpuPin)⟩,
    ⟨"emulatorpin", .optionalElement "emulatorpin" (.group .emulatorPin)⟩]
  toTuple a := (a.shares, a.period, a.quota, a.emulatorPeriod, a.emulatorQuota, a.vcpupins,
    a.emulatorpin, ())
  ofTuple := fun (shares, period, quota, emulatorPeriod, emulatorQuota, vcpupins, emulatorpin,
    ()) =>
    { shares, period, quota, emulatorPeriod, emulatorQuota, vcpupins, emulatorpin }
  ofTuple_toTuple _ := rfl
  toTuple_ofTuple _ := rfl

def Timer.record : Schema.Record Timer where
  members := [
    ⟨"name", .attr "name" (.enum .timerName)⟩,
    ⟨"tickpolicy", .optionalAttr "tickpolicy" (.enum .tickPolicy)⟩,
    ⟨"present", .optionalAttr "present" (.enum .yesNo)⟩]
  toTuple a := (a.name, a.tickpolicy, a.present, ())
  ofTuple := fun (name, tickpolicy, present, ()) =>
    { name, tickpolicy, present }
  ofTuple_toTuple _ := rfl
  toTuple_ofTuple _ := rfl

def Clock.record : Schema.Record Clock where
  members := [
    ⟨"offset", .attr "offset" (.enum .clockOffset)⟩,
    ⟨"timezone", .optionalAttr "timezone" .string⟩,
    ⟨"timers", .elements "timer" 0 (.group .timer)⟩]
  toTuple a := (a.offset, a.timezone, a.timers, ())
  ofTuple := fun (offset, timezone, timers, ()) =>
    { offset, timezone, timers }
  ofTuple_toTuple _ := rfl
  toTuple_ofTuple _ := rfl

def SuspendState.record : Schema.Record SuspendState where
  members := [
    ⟨"enabled", .attr "enabled" (.enum .yesNo)⟩]
  toTuple a := (a.enabled, ())
  ofTuple := fun (enabled, ()) =>
    { enabled }
  ofTuple_toTuple _ := rfl
  toTuple_ofTuple _ := rfl

def PowerManagement.record : Schema.Record PowerManagement where
  members := [
    ⟨"suspend_to_mem", .optionalElement "suspend-to-mem" (.group .suspendState)⟩,
    ⟨"suspend_to_disk", .optionalElement "suspend-to-disk" (.group .suspendState)⟩]
  toTuple a := (a.suspendToMem, a.suspendToDisk, ())
  ofTuple := fun (suspendToMem, suspendToDisk, ()) =>
    { suspendToMem, suspendToDisk }
  ofTuple_toTuple _ := rfl
  toTuple_ofTuple _ := rfl

end GuestXml
