import GuestXml.Proofs.Reading.Agreement
import GuestXml.Proofs.Reading.Depth

/-!
# The grammar of a table

What the members of a group ask of an element, without a word on how it is read. Attributes
and text have to be accepted by the members that map to them (`Field.Accepts`), and the child
elements have to fall into blocks, one for each member in order, and a rest (`Splits`). Members
are read greedily: each takes the longest block it can (`Field.IsFull`), and members succeed
exactly on children that fall into such blocks (`scanTuple_ok_iff`). Where no name of a member
is left in the rest, any blocks are the longest ones (`Matches.greedily`).
-/

namespace GuestXml.Schema

open Xml (Element)

/-! ### What members ask for -/

namespace Field

/-- A member accepts the attributes and the text of an element. -/
def Accepts (e : Element) : Field → Prop
  | attr name s => ∃ text, e.attribute? name = some text ∧ ∃ v, s.decode text = .ok v
  | optionalAttr name s => ∀ text, e.attribute? name = some text → ∃ v, s.decode text = .ok v
  | constant name value => e.attribute? name = some value
  | text s => ∃ v, s.decode e.text = .ok v
  | optionalText s => e.text = "" ∨ ∃ v, s.decode e.text = .ok v
  | _ => True

/-- A member may have so many child elements: one, at most one, or at least a minimum. -/
def Admits : Field → Nat → Prop
  | valueElement .., n | element .., n => n = 1
  | optionalValueElement .., n | flag _, n | optionalElement .., n => n ≤ 1
  | valueElements _ min _, n | elements _ min _, n => min ≤ n
  | _, n => n = 0

/-- A member accepts what is in a child element: its text, its being there, or a value of the
type of the member, read under the same options. -/
def AcceptsChild (o : LoadOptions) (c : Element) : Field → Prop
  | valueElement _ s | optionalValueElement _ s | valueElements _ _ s =>
    (∃ v, s.decode c.text = .ok v) ∧ (o.denyUnknown = true → c.childElements = [])
  | flag _ => o.denyUnknown = true → c.childElements = []
  | element _ t | optionalElement _ t | elements _ _ t => ∃ v n, t.readRoot o c = .ok (v, n)
  | _ => False

/-- Child elements that a member accepts in a row: as many as it admits, all with its name. -/
structure IsBlock (o : LoadOptions) (f : Field) (block : List Element) : Prop where
  admits : f.Admits block.length
  name : ∀ c ∈ block, f.childName? = some c.name
  content : ∀ c ∈ block, f.AcceptsChild o c

/-- The child behind a block does not belong to it: it has another name, or it would be one
too many. -/
def IsFull (f : Field) (block more : List Element) : Prop :=
  ∀ c ∈ more.head?, f.childName? = some c.name → ¬f.Admits (block.length + 1)

end Field

/-- Children fall into blocks that fit the members, one for each in order, and a rest. -/
def Splits (fits : Field → (block more : List Element) → Prop) :
    List Member → (children rest : List Element) → Prop
  | [], children, rest => children = rest
  | m :: ms, children, rest =>
    ∃ block more, children = block ++ more ∧ fits m.field block more ∧ Splits fits ms more rest

/-- The children are blocks of the members, and a rest. -/
def Matches (o : LoadOptions) : List Member → (children rest : List Element) → Prop :=
  Splits fun f block _ => f.IsBlock o block

/-- The children are blocks of the members, each as long as it may be, and a rest. -/
def MatchesGreedily (o : LoadOptions) : List Member → (children rest : List Element) → Prop :=
  Splits fun f block more => f.IsBlock o block ∧ f.IsFull block more

section Matching

variable {o : LoadOptions} {ms : List Member} {children rest : List Element}

theorem MatchesGreedily.matches (h : MatchesGreedily o ms children rest) :
    Matches o ms children rest := by
  induction ms generalizing children with
  | nil => exact h
  | cons m ms ih =>
    obtain ⟨block, more, rfl, ⟨hblock, -⟩, hmore⟩ := h
    exact ⟨block, more, rfl, hblock, ih hmore⟩

/-- What is in no block is in the rest. -/
theorem Matches.mem_rest (h : Matches o ms children rest) {c : Element} (hc : c ∈ children)
    (hname : c.name ∉ childNames ms) : c ∈ rest := by
  induction ms generalizing children with
  | nil =>
    obtain rfl : children = rest := h
    exact hc
  | cons m ms ih =>
    obtain ⟨block, more, rfl, hblock, hmore⟩ := h
    rw [childNames_cons, List.mem_append, not_or, Option.mem_toList] at hname
    rcases List.mem_append.mp hc with hc | hc
    · exact absurd (hblock.name c hc) hname.1
    · exact ih hmore hc hname.2

/-- Without a name of a member in the rest, every block is as long as it may be. -/
theorem Matches.greedily (h : Matches o ms children rest) (hms : (childNames ms).Nodup)
    (hrest : ∀ c ∈ rest, c.name ∉ childNames ms) : MatchesGreedily o ms children rest := by
  induction ms generalizing children with
  | nil => exact h
  | cons m ms ih =>
    obtain ⟨block, more, rfl, hblock, hmore⟩ := h
    rw [childNames_cons] at hms hrest
    obtain ⟨-, hnodup, hnew⟩ := List.nodup_append.mp hms
    refine ⟨block, more, rfl, ⟨hblock, fun c hc hname => ?_⟩, ih hmore hnodup fun c hc hmem => ?_⟩
    · have hown : c.name ∈ m.field.childName?.toList := Option.mem_toList.mpr hname
      have hmem := Matches.mem_rest hmore (List.mem_of_mem_head? hc)
        fun hlater => hnew _ hown _ hlater rfl
      exact absurd (List.mem_append_left _ hown) (hrest c hmem)
    · exact hrest c hc (List.mem_append_right _ hmem)

end Matching

/-! ### Children that are read -/

section Children

variable {α β : Type} {site : Site} {name : String} {s : Scan} {more : List Element}
  {scan : Element → Except Error (α × Nat)} {accepts : Element → Prop}

/-- A scalar or a flag is read unless children are denied that it has. -/
theorem scanScalar_ok_iff {scan : ScanM α} (h : Idle scan) :
    (∃ v n, scanElement site scan = .ok (v, n)) ↔
      (∃ v, scan { rest := site.element.childElements } =
        .ok (v, { rest := site.element.childElements })) ∧
      (site.denyUnknown = true → site.element.childElements = []) := by
  simp only [scanElement_eq_ok_iff]
  constructor
  · rintro ⟨v, n, s, hs, hfault, -⟩
    obtain rfl := h.eq_of_ok hs
    refine ⟨⟨v, hs⟩, fun hdeny => List.eq_nil_iff_forall_not_mem.mpr fun c hc => ?_⟩
    have hnone := hfault c hc
    simp [Scan.fault?, hdeny] at hnone
  · rintro ⟨⟨v, hv⟩, hempty⟩
    refine ⟨v, 0, _, hv, fun c hc => ?_, rfl⟩
    have hlenient : site.denyUnknown = false := by
      rw [Bool.eq_false_iff]
      intro hdeny
      rw [hempty hdeny] at hc
      cases hc
    simp [Scan.fault?, hlenient]

variable (hroomy : site.Roomy) (hs : site.Holds s)
  (h : ∀ c ∈ site.element.childElements, (∃ v n, scan c = .ok (v, n)) ↔ accepts c)

include hroomy hs h

/-- A child is read if it is accepted, since there is a level left for it. -/
theorem scanChild_ok_iff {c : Element} (hrest : s.rest = c :: more) :
    (∃ v s', scanChild site (scan c) s = .ok (v, s') ∧ s'.rest = more) ↔ accepts c := by
  have hc : c ∈ site.element.childElements := hs c (hrest ▸ List.mem_cons_self)
  have hbelow : 0 < site.below := Nat.lt_of_lt_of_le c.height_pos (hroomy c hc)
  rw [← h c hc]
  simp only [scanChild_eq_ok_iff]
  constructor
  · rintro ⟨v, s', ⟨-, n, hn, -⟩, -⟩
    exact ⟨v, n, hn⟩
  · rintro ⟨v, n, hn⟩
    exact ⟨v, _, ⟨hbelow, n, hn, rfl⟩, by simp [hrest]⟩

/-- A required child is read if it comes next and is accepted. -/
theorem scanRequired_ok_iff :
    (∃ v s', (do scanChild site (scan (← scanRequired site name)) : ScanM α) s = .ok (v, s') ∧
        s'.rest = more) ↔
      ∃ c, s.rest = c :: more ∧ c.name = name ∧ accepts c := by
  have hask : site.Holds (s.ask name) := by simpa [Site.Holds] using hs
  constructor
  · rintro ⟨v, s', hs', rfl⟩
    obtain ⟨c, s₁, hc, hread⟩ := ScanM.bind_eq_ok_iff.mp hs'
    obtain ⟨rfl, hname, more, hrest⟩ := scanRequired_eq_ok hc
    have hnext : (s.ask name).rest = c :: more := by rw [Scan.rest_ask, hrest]
    obtain ⟨-, n, -, rfl⟩ := scanChild_eq_ok_iff.mp hread
    refine ⟨c, by simp [hrest], hname, ?_⟩
    exact (scanChild_ok_iff hroomy hask h hnext).mp ⟨v, _, hread, by simp [hrest]⟩
  · rintro ⟨c, hrest, hname, hc⟩
    have hnext : (s.ask name).rest = c :: more := by rw [Scan.rest_ask, hrest]
    obtain ⟨v, s', hread, hmore⟩ := (scanChild_ok_iff hroomy hask h hnext).mpr hc
    refine ⟨v, s', ?_, hmore⟩
    rw [ScanM.bind_of_ok (scanRequired_of_named site hrest hname)]
    exact hread

/-- A child that may be missing is read if it comes next and is accepted, and missing if
another child comes next. -/
theorem scanOptional_ok_iff (f : α → β) (b : β) :
    (∃ v s',
        (do match ← scanNext? name with
            | some e => f <$> scanChild site (scan e)
            | none => return b : ScanM β) s = .ok (v, s') ∧ s'.rest = more) ↔
      (∃ c, s.rest = c :: more ∧ c.name = name ∧ accepts c) ∨
        s.rest = more ∧ ∀ c ∈ more.head?, c.name ≠ name := by
  have hask : site.Holds (s.ask name) := by simpa [Site.Holds] using hs
  by_cases hnext : ∃ c more', s.rest = c :: more' ∧ c.name = name
  · obtain ⟨c, more', hrest, hname⟩ := hnext
    have hrest' : (s.ask name).rest = c :: more' := by rw [Scan.rest_ask, hrest]
    rw [ScanM.bind_of_ok (scanNext?_of_named hrest hname)]
    constructor
    · rintro ⟨v, s', hs', rfl⟩
      obtain ⟨u, hu, rfl⟩ := ScanM.map_eq_ok_iff.mp hs'
      obtain ⟨-, n, -, rfl⟩ := scanChild_eq_ok_iff.mp hu
      refine .inl ⟨c, by simp [hrest], hname, ?_⟩
      exact (scanChild_ok_iff hroomy hask h hrest').mp ⟨u, _, hu, by simp [hrest]⟩
    · rintro (⟨c', hc', -, haccepts⟩ | ⟨rfl, hother⟩)
      · obtain ⟨rfl, rfl⟩ := List.cons_eq_cons.mp (hrest.symm.trans hc')
        obtain ⟨u, s', hu, hmore⟩ := (scanChild_ok_iff hroomy hask h hrest').mpr haccepts
        exact ⟨f u, s', ScanM.map_of_ok hu, hmore⟩
      · exact absurd hname (hother c (by simp [hrest]))
  · have hother : ∀ c ∈ s.rest.head?, c.name ≠ name := by
      intro c hc hname
      obtain ⟨more', hrest⟩ := List.head?_eq_some_iff.mp hc
      exact hnext ⟨c, more', hrest, hname⟩
    rw [ScanM.bind_of_ok (scanNext?_of_unnamed hother)]
    constructor
    · rintro ⟨v, s', hs', rfl⟩
      cases hs'
      rw [Scan.rest_ask]
      exact .inr ⟨rfl, hother⟩
    · rintro (⟨c, hrest, hname, -⟩ | ⟨rfl, -⟩)
      · exact absurd ⟨c, more, hrest, hname⟩ hnext
      · exact ⟨b, s.ask name, rfl, s.rest_ask name⟩

/-- Children in a row are read if all are accepted, and what follows them is left. -/
theorem mapM_scanChild_ok_iff {block left : List Element} (hrest : s.rest = block ++ more)
    {n : Nat} :
    (∃ vs s', (block.mapM fun c => scanChild site (scan c)) s = .ok (vs, s') ∧
        vs.length = n ∧ s'.rest = left) ↔
      n = block.length ∧ left = more ∧ ∀ c ∈ block, accepts c := by
  induction block generalizing s n with
  | nil =>
    constructor
    · rintro ⟨vs, s', hs', rfl, rfl⟩
      cases hs'
      exact ⟨rfl, hrest, by simp⟩
    · rintro ⟨rfl, rfl, -⟩
      exact ⟨[], s, rfl, rfl, hrest⟩
  | cons c block ih =>
    rw [List.mapM_cons]
    have hread := scanChild_ok_iff hroomy hs h hrest
    constructor
    · rintro ⟨vs, s', hs', rfl, rfl⟩
      obtain ⟨v, s₁, hv, hs₁⟩ := ScanM.bind_eq_ok_iff.mp hs'
      obtain ⟨vs', s₂, hvs', hs₂⟩ := ScanM.bind_eq_ok_iff.mp hs₁
      cases hs₂
      obtain ⟨-, k, -, rfl⟩ := scanChild_eq_ok_iff.mp hv
      have hafter : s.rest.tail = block ++ more := by rw [hrest]; rfl
      have hc := hread.mp ⟨v, _, hv, hafter⟩
      have hholds : site.Holds { s with rest := s.rest.tail, consumed := s.consumed + k + 1 } :=
        fun c hc => hs c (List.mem_of_mem_tail hc)
      obtain ⟨hlength, hleft, hblock⟩ := (ih hholds hafter).mp ⟨vs', s', hvs', rfl, rfl⟩
      exact ⟨by simp [hlength], hleft, List.forall_mem_cons.mpr ⟨hc, hblock⟩⟩
    · rintro ⟨rfl, rfl, haccepts⟩
      obtain ⟨hc, hblock⟩ := List.forall_mem_cons.mp haccepts
      obtain ⟨v, s₁, hv, hafter⟩ := hread.mpr hc
      have hholds : site.Holds s₁ := by
        intro c' hc'
        rw [hafter] at hc'
        exact hs c' (hrest ▸ List.mem_cons_of_mem c hc')
      obtain ⟨vs, s', hvs, hlength, hmore⟩ := (ih hholds hafter).mpr ⟨rfl, rfl, hblock⟩
      refine ⟨v :: vs, s', ?_, by simp [hlength], hmore⟩
      rw [ScanM.bind_of_ok hv, ScanM.bind_of_ok hvs]
      rfl

omit hroomy hs h in
/-- All next children of a name are asked for. -/
theorem scanAll_ok_iff {block : List Element} {s' : Scan} :
    (scanAll name s = .ok (block, s') ∧ s.rest = block ++ more) ↔
      s' = s.ask name ∧ s.rest = block ++ more ∧ (∀ c ∈ block, c.name = name) ∧
        ∀ c ∈ more.head?, c.name ≠ name := by
  constructor
  · rintro ⟨hall, hrest⟩
    obtain ⟨hs', hnames, -⟩ := scanAll_eq_ok hall
    refine ⟨hs', hrest, hnames, fun c hc hname => ?_⟩
    obtain ⟨more', rfl⟩ := List.head?_eq_some_iff.mp hc
    simp only [scanAll, Except.ok.injEq, Prod.mk.injEq, hrest] at hall
    have htake := hall.1
    rw [List.takeWhile_append_of_pos fun c hc => by simp [hnames c hc]] at htake
    simp [hname] at htake
  · rintro ⟨rfl, hrest, hnames, hother⟩
    refine ⟨?_, hrest⟩
    have htake : (block ++ more).takeWhile (·.name == name) = block := by
      rw [List.takeWhile_append_of_pos fun c hc => by simp [hnames c hc]]
      cases more with
      | nil => simp
      | cons c more => simp [hother c rfl]
    rw [scanAll, hrest, htake]

/-- All children of a name are read if they are accepted and there are enough of them. -/
theorem scanMany_ok_iff {min : Nat} :
    (∃ v s',
        (do let values ← (← scanAll name).mapM fun e => scanChild site (scan e)
            scanMin site name min values.length
            return values : ScanM (List α)) s = .ok (v, s') ∧ s'.rest = more) ↔
      ∃ block, s.rest = block ++ more ∧ min ≤ block.length ∧
        (∀ c ∈ block, c.name = name ∧ accepts c) ∧ ∀ c ∈ more.head?, c.name ≠ name := by
  have hask : site.Holds (s.ask name) := by simpa [Site.Holds] using hs
  constructor
  · rintro ⟨v, s', hs', rfl⟩
    obtain ⟨block, s₁, hall, hs₁⟩ := ScanM.bind_eq_ok_iff.mp hs'
    obtain ⟨vs, s₂, hvs, hs₂⟩ := ScanM.bind_eq_ok_iff.mp hs₁
    obtain ⟨u, s₃, hmin, hs₃⟩ := ScanM.bind_eq_ok_iff.mp hs₂
    cases hs₃
    obtain ⟨henough, rfl⟩ := scanMin_eq_ok_iff.mp hmin
    obtain ⟨more, hrest⟩ := (scanAll_eq_ok hall).2.2
    obtain ⟨rfl, -, hnames, hother⟩ := scanAll_ok_iff.mp ⟨hall, hrest⟩
    obtain ⟨hlength, rfl, haccepts⟩ := (mapM_scanChild_ok_iff hroomy hask h
      (by rw [Scan.rest_ask, hrest])).mp ⟨_, _, hvs, rfl, rfl⟩
    exact ⟨block, hrest, hlength ▸ henough, fun c hc => ⟨hnames c hc, haccepts c hc⟩, hother⟩
  · rintro ⟨block, hrest, henough, hblock, hother⟩
    obtain ⟨hall, -⟩ := scanAll_ok_iff.mpr ⟨rfl, hrest, fun c hc => (hblock c hc).1, hother⟩
    obtain ⟨vs, s', hvs, hlength, hmore⟩ := (mapM_scanChild_ok_iff hroomy hask h
      (by rw [Scan.rest_ask, hrest])).mpr ⟨rfl, rfl, fun c hc => (hblock c hc).2⟩
    refine ⟨vs, s', ?_, hmore⟩
    rw [ScanM.bind_of_ok hall, ScanM.bind_of_ok hvs,
      ScanM.bind_of_ok (scanMin_eq_ok_iff.mpr ⟨hlength ▸ henough, rfl⟩)]
    rfl

end Children

/-! ### Members that are read -/

section Members

variable {o : LoadOptions} {e : Element}

/-- The elements below the root are no higher than the limit leaves room for. -/
theorem Site.roomy_root (h : e.height ≤ max o.maxDepth 1) : (Site.root o e).Roomy := by
  rw [← Site.below_root o e] at h
  exact Element.height_le_succ_iff.mp h

/-- How a child of the root is read whose content has a type. -/
def scanBelowRoot (o : LoadOptions) (t : Content) (c : Element) : Except Error (t.Carrier × Nat) :=
  scanLevels o.denyUnknown (max o.maxDepth 1) (max o.maxDepth 1 - 1) t c

/-- Below the root a child is read as if it were the root, as long as it fits. -/
theorem scanBelowRoot_eq_readRoot (t : Content) {c : Element}
    (h : c.height ≤ max o.maxDepth 1 - 1) :
    scanBelowRoot o t c = t.readRoot o c := by
  rw [Content.readRoot_eq_scan]
  have hcut : CutAt (max o.maxDepth 1 - 1) (max o.maxDepth 1) c (scanBelowRoot o t c)
      (scanLevels o.denyUnknown (max o.maxDepth 1) (max o.maxDepth 1) t c) :=
    scanLevels_cut o.denyUnknown (Nat.sub_le (max o.maxDepth 1) 1) t c
  rcases hcut.eq with hsame | hdeep
  · exact hsame
  · exact absurd hdeep (hcut.error h _)

theorem ofExcept_ok_iff {α : Type} {r : Except Error α} {s : Scan} :
    (∃ v, ScanM.ofExcept r s = .ok (v, s)) ↔ ∃ v, r = .ok v := by
  cases r with
  | error err => simp
  | ok v => simp

theorem map_ofExcept_ok_iff {α β : Type} {r : Except Error α} {s : Scan} (f : α → β) :
    (∃ v, (f <$> ScanM.ofExcept r) s = .ok (v, s)) ↔ ∃ v, r = .ok v := by
  rw [← ofExcept_ok_iff (s := s)]
  simp only [ScanM.map_eq_ok_iff]
  constructor
  · rintro ⟨-, v, hv, -⟩
    exact ⟨v, hv⟩
  · rintro ⟨v, hv⟩
    exact ⟨f v, v, hv, rfl⟩

section Fields

variable {s : Scan} {more : List Element} {name : String} {f : Field}

/-- A member without child elements is read if it accepts the element. -/
theorem scanField_ok_iff_accepts (hf : f ≠ .noContent) (hchild : f.childName? = none) :
    (∃ v, scanField (.root o e) (scanBelowRoot o) f s = .ok (v, s)) ↔ f.Accepts e := by
  have hroot : (Site.root o e).element = e := rfl
  cases f with
  | attr name t =>
    simp only [scanField, Field.Accepts, hroot]
    cases e.attribute? name with
    | none => simp
    | some text => simpa using ofExcept_ok_iff
  | optionalAttr name t =>
    simp only [scanField, Field.Accepts, hroot]
    cases e.attribute? name with
    | none => simp
    | some text => simpa using map_ofExcept_ok_iff some
  | constant name value =>
    simp only [scanField, Field.Accepts, hroot]
    cases e.attribute? name with
    | none => simp
    | some found =>
      by_cases hfound : found = value
      · simp [hfound]
      · simp [hfound]
  | text t => exact ofExcept_ok_iff
  | optionalText t =>
    simp only [scanField, Field.Accepts, hroot]
    by_cases hempty : e.text = ""
    · simp [hempty]
    · have hsome : e.text.isEmpty = false := by simpa using hempty
      rw [hsome, if_neg Bool.false_ne_true, map_ofExcept_ok_iff]
      simp [hempty]
  | noContent => exact absurd rfl hf
  | _ => cases hchild

/-- A single child is a block of a member that admits just one. -/
theorem isBlock_single_iff {accepts : Element → Prop} (hname : f.childName? = some name)
    (hadmits : ∀ n, f.Admits n ↔ n = 1) (haccepts : ∀ c, f.AcceptsChild o c ↔ accepts c) :
    (∃ c, s.rest = c :: more ∧ c.name = name ∧ accepts c) ↔
      ∃ block, s.rest = block ++ more ∧ f.IsBlock o block ∧ f.IsFull block more := by
  constructor
  · rintro ⟨c, hrest, rfl, hc⟩
    refine ⟨[c], hrest, ⟨(hadmits 1).mpr rfl, by simp [hname], by simpa [haccepts] using hc⟩, ?_⟩
    intro _ _ _ htwo
    cases (hadmits 2).mp htwo
  · rintro ⟨block, hrest, hblock, -⟩
    obtain ⟨c, rfl⟩ := List.length_eq_one_iff.mp ((hadmits _).mp hblock.admits)
    refine ⟨c, hrest, ?_, (haccepts c).mp (hblock.content c (by simp))⟩
    have hown := hblock.name c (by simp)
    rw [hname] at hown
    exact (Option.some.inj hown).symm

/-- A single child or none is a block of a member that admits at most one. -/
theorem isBlock_optional_iff {accepts : Element → Prop} (hname : f.childName? = some name)
    (hadmits : ∀ n, f.Admits n ↔ n ≤ 1) (haccepts : ∀ c, f.AcceptsChild o c ↔ accepts c) :
    ((∃ c, s.rest = c :: more ∧ c.name = name ∧ accepts c) ∨
        s.rest = more ∧ ∀ c ∈ more.head?, c.name ≠ name) ↔
      ∃ block, s.rest = block ++ more ∧ f.IsBlock o block ∧ f.IsFull block more := by
  constructor
  · rintro (⟨c, hrest, rfl, hc⟩ | ⟨hrest, hother⟩)
    · refine ⟨[c], hrest, ⟨(hadmits 1).mpr (Nat.le_refl 1), by simp [hname],
        by simpa [haccepts] using hc⟩, ?_⟩
      intro _ _ _ htwo
      exact absurd ((hadmits 2).mp htwo) (by decide)
    · refine ⟨[], hrest, ⟨(hadmits 0).mpr (Nat.zero_le 1), by simp, by simp⟩, ?_⟩
      intro c hc hown
      rw [hname] at hown
      exact absurd (Option.some.inj hown).symm (hother c hc)
  · rintro ⟨block, hrest, hblock, hfull⟩
    obtain _ | ⟨c, _ | ⟨c', block⟩⟩ := block
    · refine .inr ⟨hrest, ?_⟩
      rintro c hc rfl
      exact hfull c hc hname ((hadmits 1).mpr (Nat.le_refl 1))
    · refine .inl ⟨c, hrest, ?_, (haccepts c).mp (hblock.content c (by simp))⟩
      have hown := hblock.name c (by simp)
      rw [hname] at hown
      exact (Option.some.inj hown).symm
    · have hle := (hadmits _).mp hblock.admits
      simp at hle

/-- Enough children are a block of a member that admits any number from a minimum on. -/
theorem isBlock_many_iff {accepts : Element → Prop} {min : Nat}
    (hname : f.childName? = some name) (hadmits : ∀ n, f.Admits n ↔ min ≤ n)
    (haccepts : ∀ c, f.AcceptsChild o c ↔ accepts c) :
    (∃ block, s.rest = block ++ more ∧ min ≤ block.length ∧
        (∀ c ∈ block, c.name = name ∧ accepts c) ∧ ∀ c ∈ more.head?, c.name ≠ name) ↔
      ∃ block, s.rest = block ++ more ∧ f.IsBlock o block ∧ f.IsFull block more := by
  constructor
  · rintro ⟨block, hrest, henough, hblock, hother⟩
    refine ⟨block, hrest, ⟨(hadmits _).mpr henough, fun c hc => ?_, fun c hc => ?_⟩, ?_⟩
    · rw [hname, (hblock c hc).1]
    · exact (haccepts c).mpr (hblock c hc).2
    · intro c hc hown
      rw [hname] at hown
      exact absurd (Option.some.inj hown).symm (hother c hc)
  · rintro ⟨block, hrest, hblock, hfull⟩
    have henough := (hadmits _).mp hblock.admits
    refine ⟨block, hrest, henough, fun c hc => ⟨?_, ?_⟩, ?_⟩
    · have hown := hblock.name c hc
      rw [hname] at hown
      exact (Option.some.inj hown).symm
    · exact (haccepts c).mp (hblock.content c hc)
    · rintro c hc rfl
      exact hfull c hc hname ((hadmits _).mpr (Nat.le_succ_of_le henough))

/-- No child is a block of a member that maps to none. -/
theorem isBlock_none_iff (hchild : f.childName? = none) :
    s.rest = more ↔
      ∃ block, s.rest = block ++ more ∧ f.IsBlock o block ∧ f.IsFull block more := by
  have hadmits : ∀ n, f.Admits n ↔ n = 0 := by
    intro n
    cases f <;> first | exact .rfl | cases hchild
  constructor
  · intro hrest
    refine ⟨[], hrest, ⟨(hadmits 0).mpr rfl, by simp, by simp⟩, fun c _ hown => ?_⟩
    rw [hchild] at hown
    cases hown
  · rintro ⟨block, hrest, hblock, -⟩
    rw [List.length_eq_zero_iff.mp ((hadmits _).mp hblock.admits)] at hrest
    exact hrest

variable (hfits : e.height ≤ max o.maxDepth 1) (hs : (Site.root o e).Holds s)

include hfits hs

/-- **A member is read** exactly if it accepts the element and the next children are a block
of it, which is as long as it may be. -/
theorem scanField_ok_iff (hf : f ≠ .noContent) :
    (∃ v s', scanField (.root o e) (scanBelowRoot o) f s = .ok (v, s') ∧ s'.rest = more) ↔
      f.Accepts e ∧ ∃ block, s.rest = block ++ more ∧ f.IsBlock o block ∧ f.IsFull block more := by
  have hroomy := Site.roomy_root hfits
  by_cases hchild : f.childName? = none
  · rw [← scanField_ok_iff_accepts (o := o) (s := s) hf hchild, ← isBlock_none_iff hchild]
    constructor
    · rintro ⟨v, s', hv, hmore⟩
      obtain rfl := (scanField_idle hchild).eq_of_ok hv
      exact ⟨⟨v, hv⟩, hmore⟩
    · rintro ⟨⟨v, hv⟩, hmore⟩
      exact ⟨v, s, hv, hmore⟩
  · have hvalue : ∀ (t : Scalar), ∀ c ∈ e.childElements,
        (∃ v n, scanValue (.root o e) t c = .ok (v, n)) ↔
          (∃ v, t.decode c.text = .ok v) ∧ (o.denyUnknown = true → c.childElements = []) := by
      intro t c _
      rw [← ofExcept_ok_iff]
      exact scanScalar_ok_iff (.decode t c.text)
    have hflag : ∀ c ∈ e.childElements, (∃ v n, scanFlag (.root o e) c = .ok (v, n)) ↔
        (o.denyUnknown = true → c.childElements = []) := by
      intro c _
      refine (scanScalar_ok_iff (.pure ())).trans ?_
      exact and_iff_right ⟨(), rfl⟩
    have hread : ∀ (t : Content), ∀ c ∈ e.childElements,
        (∃ v n, scanBelowRoot o t c = .ok (v, n)) ↔ ∃ v n, t.readRoot o c = .ok (v, n) := by
      intro t c hc
      rw [scanBelowRoot_eq_readRoot t (hroomy c hc)]
    rw [show f.Accepts e ↔ True by cases f <;> first | rfl | exact absurd rfl hchild, true_and]
    cases f with
    | valueElement name t =>
      rw [← isBlock_single_iff rfl (fun _ => .rfl) (fun _ => .rfl)]
      exact scanRequired_ok_iff hroomy hs (hvalue t)
    | optionalValueElement name t =>
      rw [← isBlock_optional_iff rfl (fun _ => .rfl) (fun _ => .rfl)]
      exact scanOptional_ok_iff hroomy hs (hvalue t) some none
    | valueElements name min t =>
      rw [← isBlock_many_iff rfl (fun _ => .rfl) (fun _ => .rfl)]
      exact scanMany_ok_iff hroomy hs (hvalue t)
    | flag name =>
      rw [← isBlock_optional_iff rfl (fun _ => .rfl) (fun _ => .rfl)]
      exact scanOptional_ok_iff hroomy hs hflag (fun _ => true) false
    | element name t =>
      rw [← isBlock_single_iff rfl (fun _ => .rfl) (fun _ => .rfl)]
      exact scanRequired_ok_iff hroomy hs (hread t)
    | optionalElement name t =>
      rw [← isBlock_optional_iff rfl (fun _ => .rfl) (fun _ => .rfl)]
      exact scanOptional_ok_iff hroomy hs (hread t) some none
    | elements name min t =>
      rw [← isBlock_many_iff rfl (fun _ => .rfl) (fun _ => .rfl)]
      exact scanMany_ok_iff hroomy hs (hread t)
    | _ => exact absurd rfl hchild

end Fields

/-- **Members are read** exactly if they accept the element and its children are greedy blocks
of them. By induction on the members. -/
theorem scanTuple_ok_iff (hfits : e.height ≤ max o.maxDepth 1) {ms : List Member}
    (hms : ∀ m ∈ ms, m.field ≠ .noContent) {s : Scan} (hs : (Site.root o e).Holds s)
    {rest : List Element} :
    (∃ vs s', scanTuple (.root o e) (scanBelowRoot o) ms s = .ok (vs, s') ∧ s'.rest = rest) ↔
      (∀ m ∈ ms, m.field.Accepts e) ∧ MatchesGreedily o ms s.rest rest := by
  induction ms generalizing s with
  | nil =>
    constructor
    · rintro ⟨vs, s', hs', rfl⟩
      cases hs'
      exact ⟨by simp, rfl⟩
    · rintro ⟨-, hrest⟩
      exact ⟨(), s, rfl, hrest⟩
  | cons m ms ih =>
    have hm := hms m List.mem_cons_self
    have htail : ∀ m' ∈ ms, m'.field ≠ .noContent := fun m' hm' => hms m' (by simp [hm'])
    constructor
    · rintro ⟨vs, s'', hs'', rfl⟩
      obtain ⟨v, s', hv, hs'⟩ := ScanM.bind_eq_ok_iff.mp hs''
      obtain ⟨vs', s₂, hvs', hs₂⟩ := ScanM.bind_eq_ok_iff.mp hs'
      cases hs₂
      obtain ⟨haccepts, block, hrest, hblock, hfull⟩ :=
        (scanField_ok_iff hfits hs hm).mp ⟨v, s', hv, rfl⟩
      have hholds : (Site.root o e).Holds s' := fun c hc =>
        hs c (hrest ▸ List.mem_append_right block hc)
      obtain ⟨hothers, hmore⟩ := (ih htail hholds).mp ⟨vs', _, hvs', rfl⟩
      exact ⟨List.forall_mem_cons.mpr ⟨haccepts, hothers⟩, block, s'.rest, hrest,
        ⟨hblock, hfull⟩, hmore⟩
    · rintro ⟨haccepts, block, more, hrest, ⟨hblock, hfull⟩, hmore⟩
      obtain ⟨hown, hothers⟩ := List.forall_mem_cons.mp haccepts
      obtain ⟨v, s', hv, rfl⟩ :=
        (scanField_ok_iff hfits hs hm).mpr ⟨hown, block, hrest, hblock, hfull⟩
      have hholds : (Site.root o e).Holds s' := fun c hc =>
        hs c (hrest ▸ List.mem_append_right block hc)
      obtain ⟨vs, s'', hvs, hrest'⟩ := (ih htail hholds).mpr ⟨hothers, hmore⟩
      refine ⟨(v, vs), s'', ?_, hrest'⟩
      show (scanField _ _ m.field >>= _) s = _
      rw [ScanM.bind_of_ok hv, ScanM.bind_of_ok hvs]
      rfl

end Members

end GuestXml.Schema
