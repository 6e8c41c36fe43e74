import GuestXml.Proofs.Reading.Agreement
import GuestXml.Proofs.Reading.Leftover
import GuestXml.Proofs.Reading.Strictness

/-!
# Children left over in documents

What becomes of the child elements that no member has taken. A child whose name a slot of
the type knows is out of order, unless the name belongs to alternatives that were not taken:
such names are overlooked. So a series does not look for the tag of an alternative before one
is read, and behind an unknown child a child with that tag counts as unknown as well.
`Content.load_leftover` says how loading comes out in all cases, and exactly when a child is
skipped.

Denying unknown children only rejects: loading so comes to the same value and count as loading
without, or to nothing, and it comes to something exactly for the documents of which nothing
is skipped (`Content.load_denyUnknown_iff`).
-/

namespace GuestXml.Schema

open Xml (Element)

/-- Reads the members of the root and stops there, with the children that are left over. -/
def Content.readMembers (t : Content) (o : LoadOptions) (root : Element) :
    Except Error (t.Carrier × List Element) :=
  let start := Reading.start root o.maxDepth o.denyUnknown
  match readContent (readLevels start.levelsBelow) t start with
  | (.ok v, r) => .ok (v, r.cursor.remaining)
  | (.error e, _) => .error e

/-- What is wrong with a child that is left over, if anything is: it is out of order if a
slot knows its name, unless the name was overlooked. -/
def Content.leftoverFault? (t : Content) (o : LoadOptions) (root : Element) (v : t.Carrier)
    (c : Element) : Option Error :=
  if c.name ∈ t.slotNames ∧ c.name ∉ t.overlookedNames v then
    some (.outOfOrder root.name c.name)
  else if o.denyUnknown then some (.unexpectedElement root.name c.name)
  else none

/-- The child is left over, and the document is loaded all the same. -/
def Content.Skips (t : Content) (o : LoadOptions) (root c : Element) : Prop :=
  ∃ v left, t.load o root = .ok v ∧ t.readMembers o root = .ok (v, left) ∧ c ∈ left

section Loading

variable (t : Content) (o : LoadOptions) (root : Element)

/-- The scan of the members of the root. -/
def Content.scanMembers : ScanM t.Carrier :=
  let site := Site.root o root
  scanContent site (scanLevels site.denyUnknown site.limit site.below) t

theorem Content.readMembers_eq_scan :
    t.readMembers o root =
      (t.scanMembers o root { rest := root.childElements }).map fun (v, s) => (v, s.rest) := by
  let site := Site.root o root
  have hchild (t' : Content) (e : Element) :
      Enters (site.child e) (readLevels site.below t')
        (scanLevels site.denyUnknown site.limit site.below t' e) := by
    refine readLevels_enters site.below (site.child e) t' ?_
    show site.below = 0 ∨ site.below = site.below - 1 + 1
    omega
  have hfollows : Follows site (readContent (readLevels site.below) t) (t.scanMembers o root) :=
    readContent_follows hchild t
  have hrun := hfollows _ 0 _ (Reading.start_shows o root)
  have hlevels : (Reading.start root o.maxDepth o.denyUnknown).levelsBelow = site.below := rfl
  unfold Content.readMembers
  simp only [hlevels]
  cases hscan : t.scanMembers o root { rest := root.childElements } with
  | error e =>
    simp only [hscan] at hrun
    obtain ⟨r', hr', -⟩ := hrun
    rw [hr']
    rfl
  | ok p =>
    obtain ⟨v, s⟩ := p
    simp only [hscan] at hrun
    obtain ⟨r', hr', -, hs⟩ := hrun
    rw [hr']
    simp only [Except.map, hs.rest]

theorem Content.readRoot_eq_scanElement :
    t.readRoot o root = scanElement (.root o root) (t.scanMembers o root) := by
  rw [Content.readRoot_eq_scan]
  nth_rewrite 2 [← Site.below_root o root]
  rfl

theorem Content.scanMembers_accounts :
    Accounts (t.Covers (AccountsFor (max o.maxDepth 1 - 1))) t.askedNames
      (t.scanMembers o root) :=
  scanContent_accounts (scanLevels_accountsFor o.denyUnknown (max o.maxDepth 1) _) t

/-- What is left over follows what was taken. -/
theorem Content.covers_of_readMembers {v : t.Carrier} {left : List Element}
    (h : t.readMembers o root = .ok (v, left)) :
    ∃ taken, root.childElements = taken ++ left ∧
      t.Covers (AccountsFor (max o.maxDepth 1 - 1)) v taken := by
  rw [t.readMembers_eq_scan] at h
  cases hscan : t.scanMembers o root { rest := root.childElements } with
  | error err =>
    rw [hscan] at h
    cases h
  | ok p =>
    obtain ⟨v', s⟩ := p
    rw [hscan] at h
    cases h
    exact (t.scanMembers_accounts o root _ v s hscan).1

/-- The names asked for are known from the value, and so is what is wrong with a child. -/
theorem Content.fault?_scanMembers {v : t.Carrier} {s : Scan}
    (h : t.scanMembers o root { rest := root.childElements } = .ok (v, s)) :
    s.fault? (.root o root) = t.leftoverFault? o root v := by
  obtain ⟨-, hasked⟩ := t.scanMembers_accounts o root _ v s h
  funext c
  have hname : s.asked.contains c.name = true ↔
      c.name ∈ t.slotNames ∧ c.name ∉ t.overlookedNames v := by
    rw [List.contains_iff_mem, hasked, ← t.mem_askedNames_iff]
    simp
  simp only [Scan.fault?, leftoverFault?, hname]
  rfl

/-- The members are read first, and then the children that they left over decide. -/
theorem Content.readRoot_eq_readMembers :
    (t.readRoot o root).map Prod.fst =
      (t.readMembers o root).bind fun (v, left) =>
        match left.findSome? (t.leftoverFault? o root v) with
        | some err => .error err
        | none => .ok v := by
  rw [t.readRoot_eq_scanElement, t.readMembers_eq_scan]
  cases hscan : t.scanMembers o root { rest := root.childElements } with
  | error err =>
    have hroot : scanElement (.root o root) (t.scanMembers o root) = .error err :=
      scanElement_of_error hscan
    rw [hroot]
    rfl
  | ok p =>
    obtain ⟨v, s⟩ := p
    have hroot : scanElement (.root o root) (t.scanMembers o root) = _ := scanElement_of_ok hscan
    rw [hroot, scanEnd, t.fault?_scanMembers o root hscan]
    show _ = match s.rest.findSome? (t.leftoverFault? o root v) with
      | some err => Except.error err
      | none => .ok v
    cases s.rest.findSome? (t.leftoverFault? o root v) with
    | some err => rfl
    | none => rfl

theorem Content.leftoverFault?_eq_none_iff {v : t.Carrier} {c : Element} :
    t.leftoverFault? o root v c = none ↔
      (c.name ∈ t.slotNames → c.name ∈ t.overlookedNames v) ∧ o.denyUnknown = false := by
  unfold Content.leftoverFault?
  by_cases hknown : c.name ∈ t.slotNames ∧ c.name ∉ t.overlookedNames v
  · rw [if_pos hknown]
    constructor
    · intro h
      cases h
    · rintro ⟨hoverlooked, -⟩
      exact absurd (hoverlooked hknown.1) hknown.2
  · rw [if_neg hknown]
    have hoverlooked : c.name ∈ t.slotNames → c.name ∈ t.overlookedNames v :=
      fun hslot => by_contra fun h => hknown ⟨hslot, h⟩
    cases o.denyUnknown with
    | true => simp
    | false => simpa using hoverlooked

theorem Content.load_eq_readMembers :
    t.load o root =
      match t.tagMismatch? root with
      | some err => .error err
      | none => (t.readMembers o root).bind fun (v, left) =>
        match left.findSome? (t.leftoverFault? o root v) with
        | some err => .error err
        | none => .ok v := by
  unfold Content.load Content.loadCounted
  cases t.tagMismatch? root with
  | some err => rfl
  | none => exact t.readRoot_eq_readMembers o root

theorem Content.accountsFor_of_load {v : t.Carrier} (h : t.load o root = .ok v) :
    t.AccountsFor (max o.maxDepth 1) v root := by
  unfold Content.load Content.loadCounted at h
  cases htag : t.tagMismatch? root with
  | some err =>
    rw [htag] at h
    cases h
  | none =>
    simp only [htag] at h
    cases hread : t.readRoot o root with
    | error err =>
      rw [hread] at h
      cases h
    | ok p =>
      obtain ⟨v', n⟩ := p
      rw [hread] at h
      cases h
      rw [t.readRoot_eq_scan] at hread
      exact scanLevels_accountsFor _ _ _ t root v' n hread

/-- A child that is left over is skipped if unknown children are, and if whatever is left
over is unknown or overlooked. -/
theorem Content.skips_iff (c : Element) :
    t.Skips o root c ↔
      t.tagMismatch? root = none ∧ o.denyUnknown = false ∧
        ∃ v left, t.readMembers o root = .ok (v, left) ∧ c ∈ left ∧
          ∀ c' ∈ left, c'.name ∈ t.slotNames → c'.name ∈ t.overlookedNames v := by
  constructor
  · rintro ⟨v, left, hload, hmembers, hc⟩
    rw [t.load_eq_readMembers, hmembers] at hload
    cases htag : t.tagMismatch? root with
    | some err =>
      rw [htag] at hload
      cases hload
    | none =>
      simp only [htag, Except.bind] at hload
      cases hfault : left.findSome? (t.leftoverFault? o root v) with
      | some err =>
        rw [hfault] at hload
        cases hload
      | none =>
        have hnone (c' : Element) (hc' : c' ∈ left) :=
          (t.leftoverFault?_eq_none_iff o root).mp (List.findSome?_eq_none_iff.mp hfault c' hc')
        exact ⟨rfl, (hnone c hc).2, v, left, hmembers, hc, fun c' hc' => (hnone c' hc').1⟩
  · rintro ⟨htag, hlenient, v, left, hmembers, hc, hleft⟩
    refine ⟨v, left, ?_, hmembers, hc⟩
    have hfault : left.findSome? (t.leftoverFault? o root v) = none :=
      List.findSome?_eq_none_iff.mpr fun c' hc' =>
        (t.leftoverFault?_eq_none_iff o root).mpr ⟨hleft c' hc', hlenient⟩
    rw [t.load_eq_readMembers, htag, hmembers]
    simp only [Except.bind, hfault]

end Loading

/-- **Children left over.** Loading reads the members of the root, which take the first
children, and then the first child left over with something wrong about it is the error. What
was loaded accounts for the whole tree that was read: each child is a part of the value, or it
is left over with a name that no slot knows, or with one that was overlooked. A child is
skipped exactly if unknown children are, and all that is left over is unknown or overlooked. -/
theorem Content.load_leftover (t : Content) (o : LoadOptions) (root : Element) :
    (∀ v left, t.readMembers o root = .ok (v, left) →
      ∃ taken, root.childElements = taken ++ left ∧
        t.Covers (AccountsFor (max o.maxDepth 1 - 1)) v taken) ∧
    (t.load o root =
      match t.tagMismatch? root with
      | some err => .error err
      | none => (t.readMembers o root).bind fun (v, left) =>
        match left.findSome? (t.leftoverFault? o root v) with
        | some err => .error err
        | none => .ok v) ∧
    (∀ v, t.load o root = .ok v → t.AccountsFor (max o.maxDepth 1) v root) ∧
    ∀ c, t.Skips o root c ↔
      t.tagMismatch? root = none ∧ o.denyUnknown = false ∧
        ∃ v left, t.readMembers o root = .ok (v, left) ∧ c ∈ left ∧
          ∀ c' ∈ left, c'.name ∈ t.slotNames → c'.name ∈ t.overlookedNames v := by
  refine ⟨fun v left => ?_, t.load_eq_readMembers o root, fun v => ?_, t.skips_iff o root⟩
  · exact t.covers_of_readMembers o root
  · exact t.accountsFor_of_load o root

/-- A rule behind an unknown child is skipped, and the filter is loaded without it. -/
theorem Content.skips_rule :
    let junk : Element := { name := "unknown" }
    let rule : Element :=
      { name := "rule", attributes := [("action", "accept"), ("direction", "in")] }
    let root : Element :=
      { name := "filter", attributes := [("name", "x")],
        children := [.element junk, .element rule] }
    let t : Content := .series .filter
    rule.name ∈ t.slotNames ∧ t.Skips {} root rule ∧
      ∃ v : Filter, t.load {} root = .ok v ∧ v.entries = [] := by
  intro junk rule root t
  have hload : t.load {} root = .ok { name := ⟨"x"⟩, entries := [] } := by decide +kernel
  refine ⟨by decide +kernel, ⟨_, [junk, rule], hload, ?_, by simp⟩, _, hload, rfl⟩
  decide +kernel

/-! ### Denying unknown children -/

theorem InStepAt.ok_iff {α : Type} {below n : Nat} {strict lenient : Except Error (α × Nat)}
    (h : InStepAt below strict lenient) {a : α} :
    strict = .ok (a, n) ↔ lenient = .ok (a, n) ∧ n = below := by
  rcases h with ⟨rfl, hall⟩ | ⟨⟨e, rfl, -⟩, hfewer⟩
  · constructor
    · exact fun hok => ⟨hok, hall a n hok⟩
    · exact fun hok => hok.1
  · constructor
    · intro hok
      cases hok
    · rintro ⟨hok, rfl⟩
      exact absurd (hfewer a n hok) (Nat.lt_irrefl n)

theorem Content.readRoot_inStepAt (t : Content) (maxDepth : Nat) (e : Element) :
    InStepAt e.descendants (t.readRoot { maxDepth, denyUnknown := true } e)
      (t.readRoot { maxDepth, denyUnknown := false } e) := by
  rw [Content.readRoot_eq_scan, Content.readRoot_eq_scan]
  exact scanLevels_inStepAt (max maxDepth 1) (max maxDepth 1) t e

/-- **Strictness.** With unknown children denied, an element is read as a value with a count
if and only if it is read so without, and the count is that of all elements below it. The
check of the tag before reading makes no difference to that. -/
theorem Content.load_denyUnknown_iff (t : Content) (maxDepth : Nat) (e : Element)
    (v : t.Carrier) (c : Nat) :
    (t.readRoot { maxDepth, denyUnknown := true } e = .ok (v, c) ↔
      t.readRoot { maxDepth, denyUnknown := false } e = .ok (v, c) ∧ c = e.descendants) ∧
    (t.loadCounted { maxDepth, denyUnknown := true } e = .ok (v, c) ↔
      t.loadCounted { maxDepth, denyUnknown := false } e = .ok (v, c) ∧ c = e.descendants) := by
  have hread := (t.readRoot_inStepAt maxDepth e).ok_iff (a := v) (n := c)
  refine ⟨hread, ?_⟩
  unfold Content.loadCounted
  cases t.tagMismatch? e with
  | none => exact hread
  | some err => simp

end GuestXml.Schema
