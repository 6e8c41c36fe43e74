import GuestXml.Proofs.Number.Denotation
import GuestXml.Proofs.Scalar.Law

/-!
# Which texts are integers

A text is read as an integer or as a ranged number exactly if it denotes one within the
bounds, blanks around it aside (`Scalar.decode_integer_iff`, `Scalar.decode_ranged_iff`). A
number of any length is compared with the bounds as it is: nothing wraps and nothing is cut
off. A ranged number is made of an integer exactly if the integer's text is read as one
(`Scalar.of?_eq_decode`).

Main statement: `Scalar.integers_read_exactly`.
-/

namespace GuestXml

theorem Ranged.isValid_iff {k : RangedKind} {n : Ranged k} :
    n.isValid = true ↔ k.min.val ≤ n.val.val ∧ n.val.val ≤ k.max.val := by
  simp [isValid]

theorem Ranged.of?_eq_some_iff {k : RangedKind} {n : k.inner.Carrier} {r : Ranged k} :
    Ranged.of? n = some r ↔ r.val = n ∧ r.isValid = true := by
  rw [of?, Option.ite_none_right_eq_some, Option.some.injEq]
  constructor
  · rintro ⟨hvalid, rfl⟩
    exact ⟨rfl, hvalid⟩
  · rintro ⟨rfl, hvalid⟩
    exact ⟨hvalid, rfl⟩

namespace Schema

open Number (DenotesInteger)

variable {t : String} {n : Int}

theorem Atom.ofText?_integer_iff {k : IntegerKind} {v : k.Carrier} :
    (Atom.integer k).ofText? t = some v ↔
      DenotesInteger (k.min < 0) (Text.trimChars t.toList) v.val :=
  Number.Bounded.ofText?_eq_some_iff

theorem Atom.ofText?_ranged_iff {k : RangedKind} {v : Ranged k} :
    (Atom.ranged k).ofText? t = some v ↔
      DenotesInteger (k.inner.min < 0) (Text.trimChars t.toList) v.val.val := by
  simp only [ofText?, Option.map_eq_some_iff, Number.Bounded.ofText?_eq_some_iff]
  constructor
  · rintro ⟨m, hm, rfl⟩
    exact hm
  · intro h
    exact ⟨v.val, h, rfl⟩

namespace Scalar

theorem decode_integer_iff {k : IntegerKind} :
    (∃ v : k.Carrier, (atom (.integer k)).decode t = .ok v ∧ v.val = n) ↔
      DenotesInteger (k.min < 0) (Text.trimChars t.toList) n ∧ k.min ≤ n ∧ n ≤ k.max := by
  have hread : ∀ v : k.Carrier, (atom (.integer k)).decode t = .ok v ↔
      DenotesInteger (k.min < 0) (Text.trimChars t.toList) v.val := by
    intro v
    rw [decode_eq_ok_iff, ← Atom.ofText?_integer_iff]
    exact and_iff_left rfl
  constructor
  · rintro ⟨v, hv, rfl⟩
    exact ⟨(hread v).mp hv, v.lo_le, v.le_hi⟩
  · rintro ⟨hn, hlo, hhi⟩
    exact ⟨⟨n, hlo, hhi⟩, (hread _).mpr hn, rfl⟩

theorem decode_ranged_eq_ok_iff {k : RangedKind} {v : Ranged k} :
    (ranged k).decode t = .ok v ↔
      DenotesInteger (k.inner.min < 0) (Text.trimChars t.toList) v.val.val ∧
        v.isValid = true := by
  rw [decode_eq_ok_iff, ← Atom.ofText?_ranged_iff]
  rfl

theorem decode_ranged_iff {k : RangedKind} :
    (∃ v : Ranged k, (ranged k).decode t = .ok v ∧ v.val.val = n) ↔
      DenotesInteger (k.inner.min < 0) (Text.trimChars t.toList) n ∧
        k.min.val ≤ n ∧ n ≤ k.max.val := by
  constructor
  · rintro ⟨v, hv, rfl⟩
    obtain ⟨hn, hvalid⟩ := decode_ranged_eq_ok_iff.mp hv
    exact ⟨hn, Ranged.isValid_iff.mp hvalid⟩
  · rintro ⟨hn, hlo, hhi⟩
    -- The range lies within the integer type, so its numbers are numbers of the type.
    let v : Ranged k := ⟨⟨n, Int.le_trans k.min.lo_le hlo, Int.le_trans hhi k.max.le_hi⟩⟩
    exact ⟨v, decode_ranged_eq_ok_iff.mpr ⟨hn, Ranged.isValid_iff.mpr ⟨hlo, hhi⟩⟩, rfl⟩

theorem of?_eq_decode {k : RangedKind} (n : k.inner.Carrier) :
    Ranged.of? n = ((ranged k).decode n.toText).toOption := by
  have hread : (ranged k).ofText? n.toText = some ⟨n⟩ := by
    simp only [ofText?, Atom.ofText?, Number.Bounded.ofText?_toText, Option.map_some]
  have hvalid : (ranged k).isValid ⟨n⟩ = Ranged.isValid ⟨n⟩ := rfl
  simp only [Ranged.of?, decode, hread, hvalid]
  split <;> rfl

/-- **Exact bounds.** A text is read as an integer exactly if it denotes one of the type, and
as a ranged number exactly if it denotes one of the range. What is made of an integer of the
type is what its text is read as. -/
theorem integers_read_exactly :
    (∀ (k : IntegerKind) (t : String) (n : Int),
      (∃ v : k.Carrier, (atom (.integer k)).decode t = .ok v ∧ v.val = n) ↔
        DenotesInteger (k.min < 0) (Text.trimChars t.toList) n ∧ k.min ≤ n ∧ n ≤ k.max) ∧
    (∀ (k : RangedKind) (t : String) (n : Int),
      (∃ v : Ranged k, (ranged k).decode t = .ok v ∧ v.val.val = n) ↔
        DenotesInteger (k.inner.min < 0) (Text.trimChars t.toList) n ∧
          k.min.val ≤ n ∧ n ≤ k.max.val) ∧
    ∀ (k : RangedKind) (n : k.inner.Carrier),
      Ranged.of? n = ((ranged k).decode n.toText).toOption := by
  refine ⟨fun k t n => ?_, fun k t n => ?_, fun k n => ?_⟩
  · exact decode_integer_iff
  · exact decode_ranged_iff
  · exact of?_eq_decode n

end Scalar

end Schema

end GuestXml
