import GuestXml.Proofs.Machine.Build
import GuestXml.Proofs.Machine.DeviceName

/-!
# The disks of built guests

The disks of a plan are gone through with two counters, one for all disks and one for those
that UEFI may boot from. The disk in a place has the name for that place, and if it may be
booted from, the next number in the boot order (`getElem?_disksFrom`); all boot orders
together are those that follow in a row (`boots_disksFrom`). Of a built domain this says that
the names of its disks are different and how it boots: `Plan.disks_build`. Orders run out
behind the last number of 32 bits (`Plan.disks_build_order_zero`).
-/

namespace GuestXml.Machine

/-! ### Going through disks -/

/-- Whether the firmware may boot from a disk on account of its boot order. -/
def DiskPlan.inOrder (d : DiskPlan) (firmware : Firmware) : Bool :=
  firmware = .uefi && d.bootable

/-- The boot order of a disk behind others, of which `boots` have one. -/
def DiskPlan.boot (d : DiskPlan) (firmware : Firmware) (boots : Nat) : Option BootOrder :=
  if d.inOrder firmware then some { order := .ofNat (boots + 1) } else none

section Disks

variable {firmware : Firmware} {d : DiskPlan}

theorem DiskPlan.inOrder_iff :
    d.inOrder firmware = true ↔ firmware = .uefi ∧ d.bootable = true := by
  simp [inOrder]

theorem DiskPlan.boot_of_inOrder (h : d.inOrder firmware = true) (boots : Nat) :
    d.boot firmware boots = some { order := .ofNat (boots + 1) } :=
  if_pos h

theorem DiskPlan.boot_of_not_inOrder (h : ¬ d.inOrder firmware = true) (boots : Nat) :
    d.boot firmware boots = none :=
  if_neg h

/-- One step: the counter of disks goes up, and that of boot orders if there was one. -/
theorem disksFrom_cons (firmware : Firmware) (index boots : Nat) (d : DiskPlan)
    (ds : List DiskPlan) :
    disksFrom firmware index boots (d :: ds) = d.toDisk index (d.boot firmware boots) ::
      disksFrom firmware (index + 1) (boots + if d.inOrder firmware then 1 else 0) ds := by
  rw [disksFrom]
  by_cases h : d.inOrder firmware = true
  · rw [if_pos (DiskPlan.inOrder_iff.mp h), DiskPlan.boot_of_inOrder h, if_pos h]
  · rw [if_neg (fun hboth => h (DiskPlan.inOrder_iff.mpr hboth)), DiskPlan.boot_of_not_inOrder h,
      if_neg h]
    rfl

theorem length_disksFrom (firmware : Firmware) (index boots : Nat) (ds : List DiskPlan) :
    (disksFrom firmware index boots ds).length = ds.length := by
  induction ds generalizing index boots with
  | nil => rfl
  | cons d ds ih => rw [disksFrom_cons, List.length_cons, ih, List.length_cons]

/-- A disk is what its plan, its place, and the disks before it that are booted from make it. -/
theorem getElem?_disksFrom (firmware : Firmware) (index boots i : Nat) (ds : List DiskPlan) :
    (disksFrom firmware index boots ds)[i]? = ds[i]?.map fun d =>
      d.toDisk (index + i)
        (d.boot firmware (boots + (ds.take i).countP (·.inOrder firmware))) := by
  induction ds generalizing index boots i with
  | nil => rfl
  | cons d ds ih =>
    rw [disksFrom_cons]
    cases i with
    | zero => rfl
    | succ i =>
      have hcount : boots + (if d.inOrder firmware then 1 else 0) +
          (ds.take i).countP (·.inOrder firmware) =
            boots + ((d :: ds).take (i + 1)).countP (·.inOrder firmware) := by
        rw [List.take_succ_cons, List.countP_cons]
        omega
      rw [List.getElem?_cons_succ, List.getElem?_cons_succ, ih, hcount, Nat.add_right_comm,
        Nat.add_assoc]

/-- The boot orders are the numbers behind `boots` in a row. -/
theorem boots_disksFrom (firmware : Firmware) (index boots : Nat) (ds : List DiskPlan) :
    ((disksFrom firmware index boots ds).filterMap (·.boot)).map (·.order) =
      (List.range' (boots + 1) (ds.countP (·.inOrder firmware))).map .ofNat := by
  induction ds generalizing index boots with
  | nil => rfl
  | cons d ds ih =>
    rw [disksFrom_cons, List.countP_cons]
    by_cases h : d.inOrder firmware = true
    · have hboot : (d.toDisk index (d.boot firmware boots)).boot = _ := d.boot_of_inOrder h boots
      rw [List.filterMap_cons_some hboot, List.map_cons, ih, if_pos h, List.range'_succ,
        List.map_cons]
    · have hboot : (d.toDisk index (d.boot firmware boots)).boot = none :=
        d.boot_of_not_inOrder h boots
      rw [List.filterMap_cons_none hboot, ih, if_neg h]
      rfl

/-- The last of many bootable disks has their number as its order. -/
theorem getElem?_disksFrom_replicate (h : d.inOrder firmware = true) (n : Nat) :
    (disksFrom firmware 0 0 (List.replicate (n + 1) d))[n]? =
      some (d.toDisk n (some { order := .ofNat (n + 1) })) := by
  rw [getElem?_disksFrom, List.getElem?_replicate_of_lt (Nat.lt_succ_self n), Option.map_some,
    List.take_replicate, Nat.min_eq_left (Nat.le_succ n), List.countP_replicate, if_pos h,
    DiskPlan.boot_of_inOrder h]
  simp only [Nat.zero_add]

end Disks

/-! ### Built guests -/

theorem val_ofNat {n : Nat} (h : n ≤ 4294967295) : (UnsignedInt.ofNat n).val = n := by
  show ((n % 4294967296 : Nat) : Int) = n
  rw [Nat.mod_eq_of_lt (by omega)]

namespace Plan

variable {p : Plan}

theorem disks_of_devices {devices : Devices} (h : p.devices = .ok devices) :
    devices.disks = disksFrom p.firmware 0 0 p.disks := by
  obtain ⟨interfaces, -, rfl⟩ := devices_eq_ok_iff.mp h
  rfl

/-- Names of disks come from their buses and places, so no two are the same. -/
theorem nodup_names (firmware : Firmware) (ds : List DiskPlan) :
    ((disksFrom firmware 0 0 ds).map (·.target.dev)).Nodup := by
  have hname (i : Nat) (dev : String)
      (h : ((disksFrom firmware 0 0 ds).map (·.target.dev))[i]? = some dev) :
      ∃ bus : DiskBus, dev = deviceName bus.devicePrefix i := by
    rw [List.getElem?_map, getElem?_disksFrom, Option.map_map] at h
    obtain ⟨d, -, rfl⟩ := Option.map_eq_some_iff.mp h
    exact ⟨d.bus, by simp [DiskPlan.toDisk]⟩
  rw [List.nodup_iff_getElem?_ne_getElem?]
  intro i j hij hj heq
  obtain ⟨a, ha⟩ := hname i _ (heq.trans (List.getElem?_eq_getElem hj))
  obtain ⟨b, hb⟩ := hname j _ (List.getElem?_eq_getElem hj)
  exact Nat.ne_of_lt hij (deviceName_inj (ha.symm.trans hb))

/-- **Disks.** A built domain has the disks of its plan in their order, under names that are
all different. The disk in place `i`, counted from zero, is named by the prefix of its bus
and the word in place `i`. Under UEFI the bootable disks have the boot orders from one up in
a row, and no other disk has any. -/
theorem disks_build {d : Domain} (h : p.build = .ok d) :
    ∃ devices, d.devices = some devices ∧ devices.disks.length = p.disks.length ∧
      (devices.disks.map (·.target.dev)).Nodup ∧
      (∀ (i : Nat) (plan : DiskPlan), p.disks[i]? = some plan →
        ∃ boot word, devices.disks[i]? = some (plan.toDisk i boot) ∧ IsNthWord i word ∧
          (plan.toDisk i boot).target.dev = plan.bus.devicePrefix ++ String.ofList word ∧
          (boot.isSome ↔ p.firmware = .uefi ∧ plan.bootable)) ∧
      let boots := devices.disks.filterMap (·.boot)
      let count := p.disks.countP fun plan => p.firmware = .uefi && plan.bootable
      boots.map (·.order) = (List.range' 1 count).map .ofNat ∧
        (count ≤ 4294967295 → boots.map (·.order.val) = (List.range' 1 count).map (↑)) := by
  obtain ⟨-, -, count, devices, -, hdevices, rfl⟩ := build_eq_ok_iff.mp h
  have hdisks := disks_of_devices hdevices
  have horders : (devices.disks.filterMap (·.boot)).map (·.order) =
      (List.range' 1 (p.disks.countP (·.inOrder p.firmware))).map .ofNat := by
    rw [hdisks, boots_disksFrom]
  refine ⟨devices, rfl, ?_, ?_, ?_, horders, fun hcount => ?_⟩
  · rw [hdisks, length_disksFrom]
  · rw [hdisks]
    exact nodup_names p.firmware p.disks
  · intro i plan hplan
    refine ⟨plan.boot p.firmware ((p.disks.take i).countP (·.inOrder p.firmware)),
      letters (i + 1), ?_, isNthWord_letters i, rfl, ?_⟩
    · rw [hdisks, getElem?_disksFrom, hplan, Option.map_some, Nat.zero_add, Nat.zero_add]
    · rw [← DiskPlan.inOrder_iff]
      by_cases hinOrder : plan.inOrder p.firmware = true
      · simp [DiskPlan.boot_of_inOrder, hinOrder]
      · simp [DiskPlan.boot_of_not_inOrder, hinOrder]
  · have hle : p.disks.countP (·.inOrder p.firmware) ≤ 4294967295 := hcount
    have hvals := congrArg (List.map (·.val)) horders
    rw [List.map_map, List.map_map] at hvals
    refine hvals.trans (List.map_congr_left fun n hn => val_ofNat ?_)
    rw [List.mem_range'_1] at hn
    omega

/-- Three disks on two buses, the last two of which are bootable. -/
theorem disks_build_three :
    let p : Plan :=
      { id := ⟨"00000000-0000-4000-8000-000000000000"⟩, name := "db", firmware := .uefi,
        disks := [{ path := "/a" }, { path := "/b", bus := .sata, bootable := true },
          { path := "/c", bootable := true }] }
    ∃ d devices, p.build = .ok d ∧ d.devices = some devices ∧
      (devices.disks.map (·.target.dev)).Nodup ∧
      (devices.disks.filterMap (·.boot)).map (·.order.val) = [1, 2] := by
  intro p
  obtain ⟨d, hbuild⟩ : ∃ d, p.build = .ok d := ⟨_, rfl⟩
  obtain ⟨devices, hdevices, -, hnodup, -, -, horders⟩ := disks_build hbuild
  refine ⟨d, devices, hbuild, hdevices, hnodup, ?_⟩
  exact horders (by decide)

/-- Orders are numbers of 32 bits, so there are no more than 4294967295 of them. A guest with one
more bootable disk is built all the same: its last disk has the order zero, and its orders are
not those from one up in a row. -/
theorem disks_build_order_zero :
    let bootable : DiskPlan := { path := "/d", bootable := true }
    let p : Plan :=
      { id := ⟨"00000000-0000-4000-8000-000000000000"⟩, name := "db", firmware := .uefi,
        disks := List.replicate 4294967296 bootable }
    let count := p.disks.countP fun plan => p.firmware = .uefi && plan.bootable
    ∃ d devices disk, p.build = .ok d ∧ d.devices = some devices ∧ count = 4294967296 ∧
      devices.disks[4294967295]? = some disk ∧ disk.boot.map (·.order.val) = some 0 ∧
      (devices.disks.filterMap (·.boot)).map (·.order.val) ≠ (List.range' 1 count).map (↑) := by
  intro bootable p count
  have hinOrder : bootable.inOrder p.firmware = true := rfl
  have hcount : count = 4294967296 := by
    show (List.replicate 4294967296 bootable).countP (·.inOrder p.firmware) = 4294967296
    rw [List.countP_replicate, if_pos hinOrder]
  obtain ⟨vcpus, hvcpus⟩ : ∃ vcpus, p.vcpus = .ok vcpus := ⟨_, rfl⟩
  obtain ⟨devices, hdevices⟩ : ∃ devices, p.devices = .ok devices := ⟨_, rfl⟩
  have hbuild : p.build = .ok (p.domain vcpus devices) :=
    build_eq_ok_iff.mpr ⟨by decide, by decide, vcpus, devices, hvcpus, hdevices, rfl⟩
  have hdisks : devices.disks = disksFrom p.firmware 0 0 (List.replicate 4294967296 bootable) :=
    disks_of_devices hdevices
  have hlast : devices.disks[4294967295]? =
      some (bootable.toDisk 4294967295 (some { order := .ofNat 4294967296 })) := by
    rw [hdisks]
    exact getElem?_disksFrom_replicate hinOrder 4294967295
  have horders : (devices.disks.filterMap (·.boot)).map (·.order) =
      (List.range' 1 count).map .ofNat := by
    rw [hdisks, boots_disksFrom]
    rfl
  refine ⟨_, devices, _, hbuild, rfl, hcount, hlast, rfl, fun hrow => ?_⟩
  have hvals := congrArg (List.map (·.val)) horders
  rw [List.map_map, List.map_map] at hvals
  have hmem : 4294967296 ∈ List.range' 1 count := by
    rw [List.mem_range'_1, hcount]
    decide
  have hsame := List.map_inj_left.mp (hvals.symm.trans hrow) 4294967296 hmem
  exact absurd hsame (by decide)

end Plan

end GuestXml.Machine
