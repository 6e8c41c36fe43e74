import GuestXml.Proofs.Reading.Scan
import GuestXml.Proofs.Schema.Shape

/-!
# What a step of a scan leaves

What is known once a step has succeeded: which child was asked for and which are left
(`scanNext?_eq_some`, `scanChild_eq_ok_iff`), that a member without children takes and asks
for nothing (`scanField_idle`), and which alternative of a choice was taken
(`scanFirst_eq_ok`).
-/

namespace GuestXml.Schema

open Xml (Element)

/-! ### Children -/

section Children

variable {α : Type} {site : Site} {name : String} {e : Element} {s s' : Scan}

theorem scanChild_eq_ok_iff {result : Except Error (α × Nat)} {a : α} :
    scanChild site result s = .ok (a, s') ↔
      0 < site.below ∧ ∃ n, result = .ok (a, n) ∧
        s' = { s with rest := s.rest.tail, consumed := s.consumed + n + 1 } := by
  unfold scanChild
  by_cases hbelow : site.below = 0
  · simp [hbelow]
  · rw [if_neg hbelow]
    cases result with
    | error err => simp [Except.map]
    | ok p =>
      obtain ⟨a', n⟩ := p
      constructor
      · intro h
        cases h
        exact ⟨Nat.pos_of_ne_zero hbelow, n, rfl, rfl⟩
      · rintro ⟨-, n', hn', rfl⟩
        cases hn'
        rfl

theorem scanNext?_eq_some (h : scanNext? name s = .ok (some e, s')) :
    s' = s.ask name ∧ e.name = name ∧ ∃ more, s.rest = e :: more := by
  simp only [scanNext?, Except.ok.injEq, Prod.mk.injEq] at h
  obtain ⟨hhead, hs'⟩ := h
  obtain ⟨hhead, hname⟩ := Option.filter_eq_some_iff.mp hhead
  exact ⟨hs'.symm, eq_of_beq hname, List.head?_eq_some_iff.mp hhead⟩

theorem scanRequired_eq_ok (h : scanRequired site name s = .ok (e, s')) :
    s' = s.ask name ∧ e.name = name ∧ ∃ more, s.rest = e :: more := by
  obtain ⟨e?, s₁, hnext, hs₁⟩ := ScanM.bind_eq_ok_iff.mp h
  cases e? with
  | none => cases hs₁
  | some e' =>
    cases hs₁
    exact scanNext?_eq_some hnext

theorem scanAll_eq_ok {es : List Element} (h : scanAll name s = .ok (es, s')) :
    s' = s.ask name ∧ (∀ e ∈ es, e.name = name) ∧ ∃ more, s.rest = es ++ more := by
  simp only [scanAll, Except.ok.injEq, Prod.mk.injEq] at h
  obtain ⟨rfl, rfl⟩ := h
  refine ⟨rfl, fun e he => ?_, s.rest.dropWhile (·.name == name),
    List.takeWhile_append_dropWhile.symm⟩
  exact eq_of_beq (List.all_eq_true.mp List.all_takeWhile e he)

theorem scanMin_eq_ok_iff {min found : Nat} :
    scanMin site name min found s = .ok ((), s') ↔ min ≤ found ∧ s' = s := by
  unfold scanMin
  by_cases hfew : found < min
  · rw [if_pos hfew]
    constructor
    · intro h
      cases h
    · rintro ⟨henough, -⟩
      exact absurd hfew (Nat.not_lt.mpr henough)
  · rw [if_neg hfew]
    constructor
    · intro h
      cases h
      exact ⟨Nat.not_lt.mp hfew, rfl⟩
    · rintro ⟨-, rfl⟩
      rfl

theorem scanValue_eq_ok {t : Scalar} {v : t.Carrier} {n : Nat}
    (h : scanValue site t e = .ok (v, n)) : t.decode e.text = .ok v ∧ n = 0 := by
  obtain ⟨s, hs, -, rfl⟩ := scanElement_eq_ok_iff.mp h
  cases hdecode : t.decode e.text with
  | error err =>
    rw [hdecode] at hs
    cases hs
  | ok v' =>
    rw [hdecode] at hs
    cases hs
    exact ⟨rfl, rfl⟩

theorem isFatal_fault? {err : Error} (h : s.fault? site e = some err) : err.isFatal = false := by
  unfold Scan.fault? at h
  split at h
  · cases h
    rfl
  · split at h
    · cases h
      rfl
    · cases h

end Children

/-! ### Members without children -/

/-- A scan that takes nothing and asks for nothing. -/
def Idle {α : Type} (scan : ScanM α) : Prop :=
  ∀ s, (∃ e, scan s = .error e ∧ e.isFatal = false) ∨ ∃ a, scan s = .ok (a, s)

namespace Idle

variable {α β : Type} {scan : ScanM α}

theorem isFatal_of_error (h : Idle scan) {s : Scan} {e : Error} (he : scan s = .error e) :
    e.isFatal = false := by
  rcases h s with ⟨e', he', hfatal⟩ | ⟨a, ha⟩
  · cases he'.symm.trans he
    exact hfatal
  · cases ha.symm.trans he

theorem eq_of_ok (h : Idle scan) {s s' : Scan} {a : α} (hs' : scan s = .ok (a, s')) : s' = s := by
  rcases h s with ⟨e, he, -⟩ | ⟨a', ha'⟩
  · cases he.symm.trans hs'
  · cases ha'.symm.trans hs'
    rfl

theorem pure (a : α) : Idle (pure a) :=
  fun _ => .inr ⟨a, rfl⟩

theorem fail {e : Error} (h : e.isFatal = false) : Idle (.fail e : ScanM α) :=
  fun _ => .inl ⟨e, rfl, h⟩

theorem decode (s : Scalar) (text : String) : Idle (.ofExcept (s.decode text)) := by
  intro _
  cases h : s.decode text with
  | error e => exact .inl ⟨e, rfl, Scalar.isFatal_of_decode h⟩
  | ok v => exact .inr ⟨v, rfl⟩

theorem bind {next : α → ScanM β} (h : Idle scan) (h' : ∀ a, Idle (next a)) :
    Idle (scan >>= next) := by
  intro s
  rcases h s with ⟨e, he, hfatal⟩ | ⟨a, ha⟩
  · exact .inl ⟨e, ScanM.bind_of_error he, hfatal⟩
  · rw [ScanM.bind_of_ok ha]
    exact h' a s

theorem map (f : α → β) (h : Idle scan) : Idle (f <$> scan) := by
  rw [map_eq_pure_bind]
  exact h.bind fun a => .pure (f a)

end Idle

section Members

variable {site : Site} {child : (t : Content) → Element → Except Error (t.Carrier × Nat)}

theorem scanField_idle {f : Field} (hf : f.childName? = none) :
    Idle (scanField site child f) := by
  cases f with
  | attr name s =>
    simp only [scanField]
    split
    · exact .decode s _
    · exact .fail rfl
  | optionalAttr name s =>
    simp only [scanField]
    split
    · exact (Idle.decode s _).map some
    · exact .pure none
  | constant name value =>
    simp only [scanField]
    split
    · split
      · exact .pure ()
      · exact .fail rfl
    · exact .fail rfl
  | text s => exact .decode s _
  | optionalText s =>
    simp only [scanField]
    split
    · exact .pure none
    · exact (Idle.decode s _).map some
  | noContent =>
    intro s
    simp only [scanField, scanNoContent]
    split
    · exact .inl ⟨_, rfl, rfl⟩
    · exact .inl ⟨_, rfl, rfl⟩
    · split
      · exact .inr ⟨(), rfl⟩
      · exact .inl ⟨_, rfl, rfl⟩
  | _ => cases hf

end Members

/-! ### Alternatives -/

section Alternatives

variable {site : Site} {child : (t : Content) → Element → Except Error (t.Carrier × Nat)}
  {choice : String} {a : Alternative} {as : List Alternative} {s s' : Scan}

theorem scanFirst_of_ok {v : a.Carrier} (h : scanAlternative site child a s = .ok (v, s')) :
    scanFirst site child choice (a :: as) s = .ok (.inl v, s') := by
  simp only [scanFirst, h]

theorem scanFirst_of_fatal {e : Error} (h : scanAlternative site child a s = .error e)
    (he : e.isFatal = true) : scanFirst site child choice (a :: as) s = .error e := by
  simp only [scanFirst, h, he, if_true]

theorem scanFirst_of_error {e : Error} (h : scanAlternative site child a s = .error e)
    (he : e.isFatal = false) :
    scanFirst site child choice (a :: as) s = (Sum.inr <$> scanFirst site child choice as) s := by
  simp only [scanFirst, h, he, Bool.false_eq_true, if_false]

/-- A choice comes to what an alternative comes to, or to what the others do. -/
theorem scanFirst_eq_ok {v : AnyOf (a :: as)}
    (h : scanFirst site child choice (a :: as) s = .ok (v, s')) :
    (∃ w, scanAlternative site child a s = .ok (w, s') ∧ v = .inl w) ∨
      ∃ w, scanFirst site child choice as s = .ok (w, s') ∧ v = .inr w := by
  cases hs : scanAlternative site child a s with
  | error e =>
    cases hfatal : e.isFatal with
    | true =>
      rw [scanFirst_of_fatal hs hfatal] at h
      cases h
    | false =>
      rw [scanFirst_of_error hs hfatal] at h
      obtain ⟨w, hw, rfl⟩ := ScanM.map_eq_ok_iff.mp h
      exact .inr ⟨w, hw, rfl⟩
  | ok p =>
    obtain ⟨w, s''⟩ := p
    rw [scanFirst_of_ok hs] at h
    cases h
    exact .inl ⟨w, rfl, rfl⟩

/-- An alternative that is a child element with another name than the next child. -/
theorem scanAlternative_of_unnamed {tag : String} (ha : a.tag? = some tag)
    (hs : ∀ e ∈ s.rest.head?, e.name ≠ tag) :
    scanAlternative site child a s = .error (.missingElement site.element.name tag) := by
  cases a with
  | group name g => exact nomatch ha
  | element name tag' t =>
    obtain rfl := Option.some.inj ha
    exact ScanM.bind_of_error (scanRequired_of_unnamed site hs)

/-- None of the alternatives is a child element with the name of the next child. -/
theorem scanFirst_of_unnamed
    (has : ∀ a ∈ as, ∃ tag, a.tag? = some tag ∧ ∀ e ∈ s.rest.head?, e.name ≠ tag) :
    scanFirst site child choice as s = .error (.variantExhausted choice site.element.name) := by
  induction as with
  | nil => rfl
  | cons a as ih =>
    obtain ⟨tag, htag, hname⟩ := has a (by simp)
    rw [scanFirst_of_error (scanAlternative_of_unnamed htag hname) rfl]
    exact ScanM.map_of_error (ih fun b hb => has b (by simp [hb]))

end Alternatives

end GuestXml.Schema
