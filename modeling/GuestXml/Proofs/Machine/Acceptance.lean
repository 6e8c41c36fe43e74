import GuestXml.Proofs.Document.Text
import Mathlib.Algebra.Order.BigOperators.GroupWithZero.List
import Mathlib.Algebra.Order.Ring.Int

/-!
# Which plans are accepted

A plan is built exactly if it has a name, memory, a number of processors between one and the
greatest number of 32 bits, and proper hardware addresses (`Plan.Buildable`); any other plan
is refused as an invalid value. Processors are multiplied factor by factor, and an overflow
on the way to a product of zero is a refusal like any other.

What has been built can be written, unless the identifier of the plan is none:
`Plan.build_spec`.
-/

namespace GuestXml

/-! ### Products -/

namespace UnsignedInt

variable {ns : List UnsignedInt} {n m : UnsignedInt}

/-- A number multiplied by a factor. -/
def times? (n m : UnsignedInt) : Option UnsignedInt :=
  Number.Bounded.ofInt? _ _ (n.val * m.val)

theorem times?_eq_some_iff {k : UnsignedInt} : n.times? m = some k ↔ k.val = n.val * m.val :=
  Number.Bounded.ofInt?_eq_some_iff

theorem one_le_prod (h : (ns.map (·.val)).prod ≠ 0) : 1 ≤ (ns.map (·.val)).prod := by
  have hnonneg : 0 ≤ (ns.map (·.val)).prod := by
    refine List.prod_nonneg fun n hn => ?_
    obtain ⟨m, -, rfl⟩ := List.mem_map.mp hn
    exact m.lo_le
  omega

/-- A product that is not zero is no less than what it was on the way. -/
theorem foldlM_times?_eq_some_iff (hm : m.val ≠ 0) :
    ns.foldlM times? n = some m ↔ m.val = n.val * (ns.map (·.val)).prod := by
  induction ns generalizing n with
  | nil =>
    rw [List.map_nil, List.prod_nil, Int.mul_one, ← Number.Bounded.ofInt?_eq_some_iff,
      Number.Bounded.ofInt?_val]
    exact Iff.rfl
  | cons k ns ih =>
    rw [List.foldlM_cons, List.map_cons, List.prod_cons, ← Int.mul_assoc]
    constructor
    · intro h
      obtain ⟨nk, hnk, hrest⟩ := Option.bind_eq_some_iff.mp h
      rw [ih.mp hrest, times?_eq_some_iff.mp hnk]
    · intro h
      have hnk : 0 ≤ n.val * k.val := Int.mul_nonneg n.lo_le k.lo_le
      have hrest : 1 ≤ (ns.map (·.val)).prod :=
        one_le_prod fun hzero => hm (by rw [h, hzero, Int.mul_zero])
      have hle : n.val * k.val ≤ m.val := h ▸ le_mul_of_one_le_right hnk hrest
      have htimes : n.times? k = some ⟨n.val * k.val, hnk, Int.le_trans hle m.le_hi⟩ :=
        times?_eq_some_iff.mpr rfl
      rw [htimes]
      exact ih.mpr h

theorem product?_eq_some_iff (hn : n.val ≠ 0) :
    product? ns = some n ↔ n.val = (ns.map (·.val)).prod := by
  rw [← Int.one_mul (ns.map (·.val)).prod]
  exact foldlM_times?_eq_some_iff (n := .lit 1) hn

end UnsignedInt

/-! ### Refusals -/

section Refusals

variable {α β : Type} {r : Except Error α}

/-- A computation that fails with the error of an invalid value, if it fails. -/
def FailsAsInvalid (r : Except Error α) : Prop :=
  ∀ e, r = .error e → ∃ kind value, e = .invalidValue kind value

namespace FailsAsInvalid

theorem ok (a : α) : FailsAsInvalid (.ok a) :=
  fun _ h => nomatch h

theorem invalidValue (kind value : String) :
    FailsAsInvalid (.error (.invalidValue kind value) : Except Error α) :=
  fun _ h => ⟨kind, value, (Except.error.inj h).symm⟩

theorem map (h : FailsAsInvalid r) (f : α → β) : FailsAsInvalid (r.map f) := by
  cases r with
  | error e =>
    obtain ⟨kind, value, rfl⟩ := h e rfl
    exact .invalidValue kind value
  | ok a => exact .ok (f a)

theorem bind {f : α → Except Error β} (h : FailsAsInvalid r) (hf : ∀ a, FailsAsInvalid (f a)) :
    FailsAsInvalid (r >>= f) := by
  cases r with
  | error e =>
    obtain ⟨kind, value, rfl⟩ := h e rfl
    exact .invalidValue kind value
  | ok a => exact hf a

theorem mapM {f : α → Except Error β} (h : ∀ a, FailsAsInvalid (f a)) (as : List α) :
    FailsAsInvalid (as.mapM f) := by
  induction as with
  | nil => exact .ok []
  | cons a as ih =>
    rw [List.mapM_cons]
    exact (h a).bind fun b => ih.bind fun bs => .ok (b :: bs)

theorem decode (a : Schema.Atom) (text : String) : FailsAsInvalid (a.decode text) := by
  unfold Schema.Atom.decode
  split
  · split
    · exact .ok _
    · exact .invalidValue _ _
  · exact .invalidValue _ _

end FailsAsInvalid

end Refusals

namespace Machine

open Schema

/-! ### Plans -/

/-- The number of processors, which need not be one of 32 bits. -/
def CpuPlan.total (c : CpuPlan) : Int :=
  c.sockets.val * c.cores.val * c.threadsPerCore.val

/-- The hardware address of a card, if one is given, is read as the address of one host. -/
def NicPlan.MacDecodes (n : NicPlan) : Prop :=
  ∀ text ∈ n.macAddress, ∃ address, (Atom.restricted .unicastMac).decode text = .ok address

namespace Plan

/-- A plan that makes sense. -/
structure Buildable (p : Plan) : Prop where
  name : p.name ≠ ""
  memory : p.memoryMib.val ≠ 0
  processors : 1 ≤ p.cpu.total ∧ p.cpu.total ≤ 4294967295
  addresses : ∀ n ∈ p.nics, n.MacDecodes

variable {p : Plan} {count : UnsignedInt} {d : Domain}

/-! ### Processors -/

theorem topology_processor (p : Plan) : p.processor.topology = some {
    sockets := p.cpu.sockets, cores := p.cpu.cores, threads := p.cpu.threadsPerCore } := by
  unfold processor
  split <;> rfl

theorem vcpus?_eq_some_iff {c : CpuPlan} (hcount : count.val ≠ 0) :
    c.vcpus? = some count ↔ count.val = c.total := by
  rw [CpuPlan.vcpus?, UnsignedInt.product?_eq_some_iff hcount]
  simp [CpuPlan.total, Int.mul_assoc]

theorem vcpus_eq_ok_iff_vcpus? :
    p.vcpus = .ok count ↔ count.val ≠ 0 ∧ p.cpu.vcpus? = some count := by
  unfold vcpus
  dsimp only
  split
  · rename_i n hn
    by_cases hzero : n.val = 0
    · rw [if_pos hzero, hn]
      refine iff_of_false (fun h => nomatch h) ?_
      rintro ⟨hcount, heq⟩
      exact hcount (Option.some.inj heq ▸ hzero)
    · rw [if_neg hzero, hn]
      constructor
      · rintro ⟨⟩
        exact ⟨hzero, rfl⟩
      · rintro ⟨-, heq⟩
        rw [Option.some.inj heq]
  · rename_i hnone
    simp [hnone]

theorem vcpus_eq_ok_iff : p.vcpus = .ok count ↔ count.val ≠ 0 ∧ count.val = p.cpu.total := by
  rw [vcpus_eq_ok_iff_vcpus?]
  exact and_congr_right vcpus?_eq_some_iff

theorem exists_vcpus_iff :
    (∃ count, p.vcpus = .ok count) ↔ 1 ≤ p.cpu.total ∧ p.cpu.total ≤ 4294967295 := by
  constructor
  · rintro ⟨count, hcount⟩
    obtain ⟨hne, htotal⟩ := vcpus_eq_ok_iff.mp hcount
    have hlo : 0 ≤ count.val := count.lo_le
    have hhi : count.val ≤ 4294967295 := count.le_hi
    omega
  · rintro ⟨hlo, hhi⟩
    refine ⟨⟨p.cpu.total, Int.le_trans (by decide) hlo, hhi⟩, vcpus_eq_ok_iff.mpr ⟨?_, rfl⟩⟩
    show p.cpu.total ≠ 0
    omega

theorem vcpus_failsAsInvalid (p : Plan) : FailsAsInvalid p.vcpus := by
  unfold vcpus
  dsimp only
  split
  · split
    · exact .invalidValue _ _
    · exact .ok _
  · exact .invalidValue _ _

/-! ### Network cards -/

theorem exists_toInterface_iff {n : NicPlan} : (∃ i, n.toInterface = .ok i) ↔ n.MacDecodes := by
  unfold NicPlan.toInterface NicPlan.mac NicPlan.MacDecodes
  cases n.macAddress with
  | none => simp [Except.map]
  | some text =>
    cases hdecode : (Atom.restricted .unicastMac).decode text <;> simp [hdecode, Except.map]

theorem mac_failsAsInvalid (n : NicPlan) : FailsAsInvalid n.mac := by
  unfold NicPlan.mac
  cases n.macAddress with
  | none => exact .ok none
  | some text => exact (FailsAsInvalid.decode (.restricted .unicastMac) text).map _

theorem exists_devices_iff :
    (∃ devices, p.devices = .ok devices) ↔ ∀ n ∈ p.nics, n.MacDecodes := by
  simp only [← exists_toInterface_iff, ← exists_mapM_eq_ok_iff]
  constructor
  · rintro ⟨devices, hdevices⟩
    obtain ⟨interfaces, hinterfaces, -⟩ := devices_eq_ok_iff.mp hdevices
    exact ⟨interfaces, hinterfaces⟩
  · rintro ⟨interfaces, hinterfaces⟩
    exact ⟨_, devices_eq_ok_iff.mpr ⟨interfaces, hinterfaces, rfl⟩⟩

theorem devices_failsAsInvalid (p : Plan) : FailsAsInvalid p.devices :=
  (FailsAsInvalid.mapM (fun n => (mac_failsAsInvalid n).map _) p.nics).map _

/-! ### Building -/

theorem exists_build_iff : (∃ d, p.build = .ok d) ↔ p.Buildable := by
  constructor
  · rintro ⟨d, hbuild⟩
    obtain ⟨hname, hmemory, count, devices, hcount, hdevices, -⟩ := build_eq_ok_iff.mp hbuild
    exact ⟨hname, hmemory, exists_vcpus_iff.mp ⟨count, hcount⟩,
      exists_devices_iff.mp ⟨devices, hdevices⟩⟩
  · intro h
    obtain ⟨count, hcount⟩ := exists_vcpus_iff.mpr h.processors
    obtain ⟨devices, hdevices⟩ := exists_devices_iff.mpr h.addresses
    exact ⟨_, build_eq_ok_iff.mpr ⟨h.name, h.memory, count, devices, hcount, hdevices, rfl⟩⟩

theorem build_failsAsInvalid (p : Plan) : FailsAsInvalid p.build := by
  rw [build_eq]
  split
  · exact .invalidValue _ _
  · split
    · exact .invalidValue _ _
    · exact p.vcpus_failsAsInvalid.bind fun _ => p.devices_failsAsInvalid.bind fun _ => .ok _

/-! ### Writing -/

/-- The identifier is checked when the domain is written. -/
theorem isValid_of_emit {m : Fragment} (hbuild : p.build = .ok d)
    (hm : (Content.group .domain).emit d = some m) : p.id.isValid = true := by
  obtain ⟨-, -, count, devices, -, -, rfl⟩ := build_eq_ok_iff.mp hbuild
  unfold Content.emit at hm
  generalize (Content.group .domain).levels (p.domain count devices) = levels at hm
  obtain _ | n := levels
  case zero => exact nomatch hm
  -- The identifier is the fourth member.
  have hmembers : emitTuple (emitLevels n) Domain.record.members
      (Domain.record.toTuple (p.domain count devices)) = some m := hm
  obtain ⟨_, _, -, hmembers, -⟩ := emitTuple_cons_eq_some_iff.mp hmembers
  obtain ⟨_, _, -, hmembers, -⟩ := emitTuple_cons_eq_some_iff.mp hmembers
  obtain ⟨_, _, -, hmembers, -⟩ := emitTuple_cons_eq_some_iff.mp hmembers
  obtain ⟨muuid, _, huuid, -⟩ := emitTuple_cons_eq_some_iff.mp hmembers
  have hchild : emitAll (fun id => emitChild "uuid" (emitText (.restricted .uuid) id)) [p.id] =
      some muuid := huuid
  rw [emitAll_singleton] at hchild
  obtain ⟨_, htext, -⟩ := emitChild_eq_some_iff.mp hchild
  exact (emitText_eq_some_iff.mp htext).1

theorem toXml_eq_ok_iff (hbuild : p.build = .ok d) :
    (∃ text, (Content.group .domain).toXml d = .ok text) ↔ p.id.isValid = true := by
  constructor
  · rintro ⟨text, htext⟩
    unfold Content.toXml at htext
    cases hsave : (Content.group .domain).saveDocument d with
    | error e => simp [hsave] at htext
    | ok root =>
      obtain ⟨_, m, -, hm, -⟩ := Content.saveDocument_eq_ok_iff.mp hsave
      exact isValid_of_emit hbuild hm
  · intro hid
    obtain ⟨root, w, hsave, -⟩ := Content.exists_returnsAs_of_build hid hbuild
    exact ⟨root.toXml, by rw [Content.toXml, hsave]; rfl⟩

/-- **Acceptance.** A plan is built exactly if it is buildable, and any other is refused as an
invalid value. Of a domain that was built,
* the number of processors is the product of the plan, as a whole number, and the topology
  of its processor comes to the same number;
* the text can be written exactly if the identifier of the plan is valid. -/
theorem build_spec (p : Plan) :
    ((∃ d, p.build = .ok d) ↔ p.Buildable) ∧
      (¬ p.Buildable → ∃ kind value, p.build = .error (.invalidValue kind value)) ∧
      ∀ d, p.build = .ok d →
        (∃ vcpu cpu topology, d.vcpu = some vcpu ∧ d.cpu = some cpu ∧
          cpu.topology = some topology ∧ vcpu.count.val = p.cpu.total ∧
          topology.vcpus? = some vcpu.count) ∧
        ((∃ text, (Content.group .domain).toXml d = .ok text) ↔ p.id.isValid = true) := by
  refine ⟨exists_build_iff, fun h => ?_, fun d hbuild => ⟨?_, toXml_eq_ok_iff hbuild⟩⟩
  · cases hbuild : p.build with
    | ok d => exact absurd (exists_build_iff.mp ⟨d, hbuild⟩) h
    | error e =>
      obtain ⟨kind, value, rfl⟩ := p.build_failsAsInvalid e hbuild
      exact ⟨kind, value, rfl⟩
  · obtain ⟨-, -, count, devices, hcount, -, rfl⟩ := build_eq_ok_iff.mp hbuild
    obtain ⟨hne, htotal⟩ := vcpus_eq_ok_iff.mp hcount
    refine ⟨_, _, _, rfl, rfl, topology_processor p, htotal, ?_⟩
    have hdies : (UnsignedInt.ofNat 1).val = 1 := rfl
    rw [Topology.vcpus?, UnsignedInt.product?_eq_some_iff hne, htotal]
    simp [CpuPlan.total, hdies, Int.mul_assoc]

/-- A plan with a card is accepted, and its text written. -/
theorem build_spec_card :
    let p : Plan :=
      { id := ⟨"00000000-0000-4000-8000-000000000000"⟩, name := "web",
        cpu := { sockets := .ofNat 2, cores := .ofNat 65536, threadsPerCore := .ofNat 32767 },
        nics := [{ macAddress := some " 52:54:00:12:34:56" }] }
    let q : Plan := { p with cpu := { p.cpu with threadsPerCore := .ofNat 32768 } }
    (∃ d text, p.build = .ok d ∧ (Content.group .domain).toXml d = .ok text) ∧
      ∃ kind value, q.build = .error (.invalidValue kind value) := by
  intro p q
  have haddress : ∃ address,
      (Atom.restricted .unicastMac).decode " 52:54:00:12:34:56" = .ok address := ⟨_, rfl⟩
  have hp : p.Buildable :=
    ⟨by decide, by decide, by decide, by simpa [p, NicPlan.MacDecodes] using haddress⟩
  obtain ⟨d, hbuild⟩ := (build_spec p).1.mpr hp
  obtain ⟨text, htext⟩ := ((build_spec p).2.2 d hbuild).2.mpr (by decide +kernel)
  refine ⟨⟨d, text, hbuild, htext⟩, (build_spec q).2.1 fun hq => ?_⟩
  exact absurd hq.processors (by decide)

end Plan

end Machine

end GuestXml
