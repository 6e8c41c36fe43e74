import GuestXml.Machine.Build
import GuestXml.Proofs.Writing.Text

/-!
# Documents of built guests

A domain that was built from a plan with a proper identifier can always be written: the
parts that could fail are the identifier and the hardware addresses, and the latter have been
checked (`Plan.textsOf_build`). Its document has few texts, and among them only the name and
the name of a processor can be blank (`Plan.forall_mem_texts_build`).
-/

namespace GuestXml.Machine

open Schema

/-! ### Entries of a list, one by one -/

section Entries

variable {α β : Type} {f : α → Except Error β} {a : α} {as : List α} {bs : List β}

theorem mapM_cons_eq_ok_iff :
    (a :: as).mapM f = .ok bs ↔
      ∃ b bs', f a = .ok b ∧ as.mapM f = .ok bs' ∧ bs = b :: bs' := by
  rw [List.mapM_cons]
  cases f a <;> cases as.mapM f <;> simp [bind, Except.bind, pure, Except.pure, @eq_comm _ bs]

/-- What was made of a list was made of its entries. -/
theorem exists_of_mem_mapM (h : as.mapM f = .ok bs) : ∀ b ∈ bs, ∃ a, f a = .ok b := by
  induction as generalizing bs with
  | nil =>
    obtain rfl : [] = bs := Except.ok.inj h
    simp
  | cons a as ih =>
    obtain ⟨b, bs', hfirst, hrest, rfl⟩ := mapM_cons_eq_ok_iff.mp h
    exact List.forall_mem_cons.mpr ⟨⟨a, hfirst⟩, ih hrest⟩

/-- Something is made of a list if something is made of each entry. -/
theorem exists_mapM_eq_ok_iff : (∃ bs, as.mapM f = .ok bs) ↔ ∀ a ∈ as, ∃ b, f a = .ok b := by
  induction as with
  | nil => exact iff_of_true ⟨[], rfl⟩ (by simp)
  | cons a as ih =>
    rw [List.forall_mem_cons, ← ih]
    constructor
    · rintro ⟨bs, h⟩
      obtain ⟨b, bs', hfirst, hrest, -⟩ := mapM_cons_eq_ok_iff.mp h
      exact ⟨⟨b, hfirst⟩, bs', hrest⟩
    · rintro ⟨⟨b, hfirst⟩, bs', hrest⟩
      exact ⟨b :: bs', mapM_cons_eq_ok_iff.mpr ⟨b, bs', hfirst, hrest, rfl⟩⟩

end Entries

/-! ### Devices -/

theorem textsOf_disk (d : DiskPlan) (index : Nat) (boot : Option BootOrder) :
    textsOf ((Content.group .disk).emit (d.toDisk index boot)) = some [] := by
  -- Which elements there are depends on what is given; the rest goes into attributes.
  obtain ⟨path, bus, format, cache, io, readonly, bootable, backingFile⟩ := d
  cases boot <;> cases backingFile <;> cases readonly <;> rfl

theorem textsOf_disksFrom (firmware : Firmware) (index boots : Nat) (ds : List DiskPlan) :
    ∀ disk ∈ disksFrom firmware index boots ds,
      textsOf ((Content.group .disk).emit disk) = some [] := by
  induction ds generalizing index boots with
  | nil => simp [disksFrom]
  | cons d ds ih =>
    intro disk hdisk
    unfold disksFrom at hdisk
    split at hdisk
    all_goals
      rcases List.mem_cons.mp hdisk with rfl | hdisk
      · exact textsOf_disk d index _
      · exact ih _ _ disk hdisk

theorem textsOf_mac {n : NicPlan} {mac : Option MacAddress} (h : n.mac = .ok mac) :
    ∀ m ∈ mac, textsOf ((Content.group .macAddress).emit m) = some [] := by
  unfold NicPlan.mac at h
  cases haddress : n.macAddress with
  | none =>
    rw [haddress] at h
    obtain rfl : none = mac := Except.ok.inj h
    simp
  | some text =>
    rw [haddress] at h
    cases hdecode : (Atom.restricted .unicastMac).decode text with
    | error e => simp [hdecode, Except.map] at h
    | ok address =>
      simp only [hdecode, Except.map, Except.ok.injEq] at h
      subst h
      intro m hm
      obtain rfl := Option.some.inj hm
      have hvalid : (Scalar.restricted .unicastMac).isValid address = true :=
        Scalar.isValid_of_decode (s := .restricted .unicastMac) (t := text) hdecode
      exact textsOf_emit (g := .macAddress) ([[]]) ⟨textsOf_emitAttr hvalid, trivial⟩

/-- A hardware address has been checked when the card is attached. -/
theorem textsOf_interface {n : NicPlan} {i : Interface} (h : n.toInterface = .ok i) :
    textsOf ((Content.group .interface).emit i) = some [] := by
  unfold NicPlan.toInterface at h
  cases hmac : n.mac with
  | error e => simp [hmac, Except.map] at h
  | ok mac =>
    simp only [hmac, Except.map, Except.ok.injEq] at h
    subst h
    have haddress : textsOf
        (emitField Content.emit (.optionalElement "mac" (.group .macAddress)) mac) = some [] := by
      cases mac with
      | none => rfl
      | some m => exact textsOf_emitOption (textsOf_emitChild _ (textsOf_mac hmac m rfl))
    unfold NicPlan.attachment
    cases n.portName <;> cases n.bridge <;>
      exact textsOf_emit (g := .interface) ([[], [], [], [], [], [], [], []])
        ⟨rfl, haddress, rfl, rfl, rfl, rfl, rfl, rfl, trivial⟩

theorem isValid_portOrAuto (port : Option UnsignedShort) :
    (Scalar.ranged .portNumber).isValid (portOrAuto port) = true := by
  cases port with
  | none => decide
  | some n =>
    have hlo : (0 : Int) ≤ n.val := n.lo_le
    have hhi : n.val ≤ (65535 : Int) := n.le_hi
    show (decide ((-1 : Int) ≤ n.val) && decide (n.val ≤ (65535 : Int))) = true
    rw [decide_eq_true (by omega), decide_eq_true hhi]
    rfl

theorem textsOf_graphics (c : ConsolePlan) :
    ∀ g ∈ c.graphics, textsOf ((Content.group .graphics).emit g) = some [] := by
  have hport (port : Option UnsignedShort) : textsOf (emitField Content.emit
      (.optionalAttr "port" (.ranged .portNumber)) (some (portOrAuto port))) = some [] :=
    textsOf_emitOption (textsOf_emitAttr (isValid_portOrAuto port))
  have hvnc : textsOf ((Content.group .graphics).emit c.vnc) = some [] := by
    unfold ConsolePlan.vnc
    cases c.vncPassword <;>
      exact textsOf_emit (g := .graphics) ([[], [], [], [], [], []])
        ⟨rfl, hport c.vncPort, rfl, rfl, rfl, rfl, trivial⟩
  have hspice : textsOf ((Content.group .graphics).emit c.spice) = some [] :=
    textsOf_emit (g := .graphics) ([[], [], [], [], [], []])
      ⟨rfl, hport c.spicePort, rfl, rfl, rfl, rfl, trivial⟩
  intro g hg
  unfold ConsolePlan.graphics at hg
  rcases List.mem_append.mp hg with hg | hg
  · split at hg
    · rw [List.mem_singleton.mp hg]
      exact hvnc
    · cases hg
  · split at hg
    · rw [List.mem_singleton.mp hg]
      exact hspice
    · cases hg

namespace Plan

variable {p : Plan}

/-- The devices, once the cards have been attached. -/
def devicesOf (p : Plan) (interfaces : List Interface) : Devices where
  emulator := some emulator
  disks := disksFrom p.firmware 0 0 p.disks
  controllers := rootPorts
  interfaces
  serials := [serialLine]
  consoles := [serialConsole]
  channels := channels p.id
  graphics := p.console.graphics
  videos := [videoCard]

theorem devices_eq (p : Plan) : p.devices = (p.nics.mapM NicPlan.toInterface).map p.devicesOf := rfl

theorem devices_eq_ok_iff {devices : Devices} :
    p.devices = .ok devices ↔ ∃ interfaces, p.nics.mapM NicPlan.toInterface = .ok interfaces ∧
      devices = p.devicesOf interfaces := by
  rw [devices_eq]
  cases p.nics.mapM NicPlan.toInterface <;> simp [Except.map, @eq_comm _ devices]

theorem textsOf_devices {devices : Devices} (h : p.devices = .ok devices) :
    textsOf ((Content.group .devices).emit devices) = some [emulator] := by
  obtain ⟨interfaces, hinterfaces, rfl⟩ := devices_eq_ok_iff.mp h
  have hdisks := textsOf_emitAll fun disk hdisk =>
    textsOf_emitChild "disk" (textsOf_disksFrom p.firmware 0 0 p.disks disk hdisk)
  have hcards : ∀ i ∈ interfaces,
      textsOf (emitChild "interface" ((Content.group .interface).emit i)) = some [] := by
    intro i hi
    obtain ⟨n, hn⟩ := exists_of_mem_mapM hinterfaces i hi
    exact textsOf_emitChild _ (textsOf_interface hn)
  have hscreens := textsOf_emitAll fun g hg =>
    textsOf_emitChild "graphics" (textsOf_graphics p.console g hg)
  exact textsOf_emit (g := .devices)
    ([[emulator], [], [], [], [], [], [], [], [], [], []])
    ⟨rfl, hdisks, rfl, textsOf_emitAll hcards, rfl, rfl, rfl, rfl, hscreens, rfl, rfl, trivial⟩

/-! ### The guest -/

/-- The texts of how the guest boots. -/
def osTexts (p : Plan) : List String :=
  match p.firmware with
  | .bios => ["hvm"]
  | .uefi => "hvm" :: firmwareImage :: writtenText (firmwareVariables p.name)

/-- The texts of the processor. -/
def processorTexts (p : Plan) : List String :=
  p.processor.model.elim [] fun model => writtenText model.name

theorem textsOf_os (p : Plan) :
    textsOf ((Content.group .os).emit p.os) = some p.osTexts := by
  have hboot : textsOf (emitAll (fun b => emitChild "boot" ((Content.group .boot).emit b))
      (p.bootOrder.map fun dev => { dev })) = some [] :=
    textsOf_emitAll fun b _ => rfl
  have hvariables : textsOf (emitField Content.emit (.optionalElement "nvram" (.group .nvram))
      (some { path := firmwareVariables p.name })) =
        some (writtenText (firmwareVariables p.name)) := by
    refine textsOf_emitOption (textsOf_emitChild _ ?_)
    simpa using textsOf_emit (g := .nvram) (v := { path := firmwareVariables p.name })
      ([[], writtenText (firmwareVariables p.name)])
      ⟨rfl, textsOf_emitText (s := .string) rfl, trivial⟩
  unfold Plan.os osTexts
  cases p.firmware with
  | bios =>
    exact textsOf_emit (g := .os) ([["hvm"], [], [], [], [], [], [], []])
      ⟨rfl, rfl, rfl, rfl, rfl, rfl, hboot, rfl, trivial⟩
  | uefi =>
    simpa using textsOf_emit (g := .os)
      (v := { kind := _, loader := some _, nvram := some { path := firmwareVariables p.name } })
      ([["hvm"], [firmwareImage], _, [], [], [], [], []])
      ⟨rfl, rfl, hvariables, rfl, rfl, rfl, rfl, rfl, trivial⟩

theorem textsOf_processor (p : Plan) :
    textsOf ((Content.group .cpu).emit p.processor) = some p.processorTexts := by
  unfold processorTexts Plan.processor
  split
  · rfl
  · rfl
  · rfl
  · generalize p.cpu.model.getD "host-passthrough" = name
    have hmodel : textsOf (emitField Content.emit (.optionalElement "model" (.group .cpuModel))
        (some { fallback := some .allow, name })) = some (writtenText name) := by
      refine textsOf_emitOption (textsOf_emitChild _ ?_)
      simpa using textsOf_emit (g := .cpuModel) (v := { fallback := some .allow, name })
        ([[], writtenText name]) ⟨rfl, textsOf_emitText (s := .string) rfl, trivial⟩
    refine (textsOf_emit ([[], [], [], [], writtenText name, [], [], [], []]) ?_).trans ?_
    · exact ⟨rfl, rfl, rfl, rfl, hmodel, rfl, rfl, rfl, rfl, trivial⟩
    · simp

/-- The domain that is built, from the parts that are computed. -/
def domain (p : Plan) (count : UnsignedInt) (devices : Devices) : Domain where
  kind := .kvm
  name := p.name
  uuid := some p.id
  memory := .ofMib p.memoryMib
  vcpu := some { placement := some .static, count }
  os := p.os
  features := some { acpi := true, apic := true }
  cpu := some p.processor
  clock := some clock
  onPoweroff := some .destroy
  onReboot := some .restart
  onCrash := some .destroy
  devices := some devices

theorem build_eq (p : Plan) :
    p.build = if p.name = "" then .error (.invalidValue "name" p.name)
      else if p.memoryMib.val = 0 then .error (.invalidValue "memory" "0")
      else do return p.domain (← p.vcpus) (← p.devices) := by
  simp only [← String.isEmpty_iff]
  rfl

theorem build_eq_ok_iff {d : Domain} :
    p.build = .ok d ↔ p.name ≠ "" ∧ p.memoryMib.val ≠ 0 ∧
      ∃ count devices, p.vcpus = .ok count ∧ p.devices = .ok devices ∧
        d = p.domain count devices := by
  rw [build_eq]
  by_cases hname : p.name = ""
  · simp [hname]
  · by_cases hmemory : p.memoryMib.val = 0
    · simp [hname, hmemory]
    · rw [if_neg hname, if_neg hmemory]
      cases p.vcpus <;> cases p.devices <;>
        simp [hname, hmemory, bind, Except.bind, pure, Except.pure, @eq_comm _ d]

/-- A built domain can be written, and these are the texts of its document. -/
theorem textsOf_build {d : Domain} (hid : p.id.isValid = true) (h : p.build = .ok d) :
    ∃ count : UnsignedInt, textsOf ((Content.group .domain).emit d) =
      some (writtenText p.name ++ writtenText p.id.text ++ writtenText p.memoryMib.toText ++
        writtenText count.toText ++ p.osTexts ++ p.processorTexts ++
        ["destroy", "restart", "destroy", emulator]) := by
  obtain ⟨-, -, count, devices, -, hdevices, rfl⟩ := build_eq_ok_iff.mp h
  have hname : textsOf (emitField Content.emit (.valueElement "name" .string) p.name) =
      some (writtenText p.name) :=
    textsOf_emitChild _ (textsOf_emitText (s := .string) rfl)
  have huuid : textsOf (emitField Content.emit
      (.optionalValueElement "uuid" (.restricted .uuid)) (some p.id)) =
        some (writtenText p.id.text) :=
    textsOf_emitOption (textsOf_emitChild _ (textsOf_emitText (s := .restricted .uuid) hid))
  have hmemory : textsOf (emitField Content.emit (.element "memory" (.group .scaledInteger))
      (.ofMib p.memoryMib)) = some (writtenText p.memoryMib.toText) := by
    refine textsOf_emitChild _ ?_
    simpa using textsOf_emit (g := .scaledInteger) (v := .ofMib p.memoryMib)
      ([[], writtenText p.memoryMib.toText])
      ⟨rfl, textsOf_emitText (s := .unsignedLong) rfl, trivial⟩
  have hvcpu : textsOf (emitField Content.emit (.optionalElement "vcpu" (.group .vcpu))
      (some { placement := some .static, count })) = some (writtenText count.toText) := by
    refine textsOf_emitOption (textsOf_emitChild _ ?_)
    simpa using textsOf_emit (g := .vcpu) (v := { placement := some .static, count })
      ([[], [], [], writtenText count.toText])
      ⟨rfl, rfl, rfl, textsOf_emitText (s := .unsignedInt) rfl, trivial⟩
  refine ⟨count, (textsOf_emit ([[], [], writtenText p.name, writtenText p.id.text, [], [],
    writtenText p.memoryMib.toText, [], writtenText count.toText, [], p.osTexts, [],
    p.processorTexts, [], ["destroy"], ["restart"], ["destroy"], [], [emulator]]) ?_).trans ?_⟩
  · exact ⟨rfl, rfl, hname, huuid, rfl, rfl, hmemory, rfl, hvcpu, rfl,
      textsOf_emitChild _ (textsOf_os p), rfl,
      textsOf_emitOption (textsOf_emitChild _ (textsOf_processor p)), rfl, rfl, rfl, rfl, rfl,
      textsOf_emitOption (textsOf_emitChild _ (textsOf_devices hdevices)), trivial⟩
  · simp

/-! ### Blank texts -/

theorem isBlank_of_mem_osTexts (p : Plan) : ∀ s ∈ p.osTexts, Text.isBlankText s = false := by
  have hvariables : Text.isBlankText (firmwareVariables p.name) = false := by
    have hfirst : Text.isBlankText "/var/lib/libvirt/qemu/nvram/" = false := by decide
    unfold firmwareVariables
    rw [Text.isBlankText_append, Text.isBlankText_append, hfirst, Bool.false_and, Bool.false_and]
  unfold osTexts
  cases p.firmware with
  | bios =>
    rw [List.forall_mem_singleton]
    decide
  | uefi =>
    rw [List.forall_mem_cons, List.forall_mem_cons, forall_mem_writtenText]
    exact ⟨by decide, by decide, .inr hvariables⟩

/-- The names of processors that are given a meaning are not written, and not blank. -/
theorem forall_mem_processorTexts (p : Plan) :
    (∀ s ∈ p.processorTexts, Text.isBlankText s = false) ↔
      ∀ s ∈ p.cpu.model, s = "" ∨ Text.isBlankText s = false := by
  unfold processorTexts Plan.processor
  cases p.cpu.model with
  | none => simp
  | some name =>
    simp only [Option.getD_some, Option.mem_def, Option.some.injEq, forall_eq']
    split
    · exact iff_of_true (by simp) (.inr (by decide))
    · exact iff_of_true (by simp) (.inr (by decide))
    · exact iff_of_true (by simp) (.inr (by decide))
    · exact forall_mem_writtenText

/-- The document of a built domain has a blank text only if its name is blank, or the name of
its processor is blank and not empty. -/
theorem forall_mem_texts_build {d : Domain} (hid : p.id.isValid = true) (h : p.build = .ok d) :
    ∃ m, (Content.group .domain).emit d = some m ∧
      ((∀ s ∈ Xml.Node.texts m.children, Text.isBlankText s = false) ↔
        Text.isBlankText p.name = false ∧
          ∀ s ∈ p.cpu.model, s = "" ∨ Text.isBlankText s = false) := by
  obtain ⟨count, htexts⟩ := textsOf_build hid h
  obtain ⟨hname, -⟩ := build_eq_ok_iff.mp h
  obtain ⟨m, hm, hchildren⟩ := Option.map_eq_some_iff.mp htexts
  refine ⟨m, hm, ?_⟩
  have huuid := isBlank_of_mem_writtenText (s := .restricted .uuid) rfl (by decide) hid
  have hmemory := isBlank_of_mem_writtenText (s := .unsignedLong) (v := p.memoryMib) rfl
    (by decide) rfl
  have hcount := isBlank_of_mem_writtenText (s := .unsignedInt) (v := count) rfl (by decide) rfl
  have hrest : ∀ s ∈ ["destroy", "restart", "destroy", emulator], Text.isBlankText s = false := by
    decide
  rw [hchildren]
  simp only [List.forall_mem_append, forall_mem_processorTexts]
  constructor
  · rintro ⟨⟨⟨⟨⟨⟨hwritten, -⟩, -⟩, -⟩, -⟩, hprocessor⟩, -⟩
    exact ⟨(forall_mem_writtenText.mp hwritten).resolve_left hname, hprocessor⟩
  · rintro ⟨hsolid, hprocessor⟩
    exact ⟨⟨⟨⟨⟨⟨forall_mem_writtenText.mpr (.inr hsolid), huuid⟩, hmemory⟩, hcount⟩,
      isBlank_of_mem_osTexts p⟩, hprocessor⟩, hrest⟩

end Plan

end GuestXml.Machine
