import GuestXml.Proofs.Reading.Steps

/-!
# Children left over

The value that a scan comes to covers the children that were taken (`Content.Covers`): front
to back, each of them was read as a part of the value. The rest is left over, and what
becomes of a child there depends on whether its name was asked for. Members ask for their
names whether they find a child or not, but alternatives that were rejected take their
requests back, and a series asks for the tags of its alternatives only as it reads them
(`Content.overlookedNames`).

So the names that were asked for can be told from the value (`scanContent_accounts`). A
child that is left over without an error is one that no slot knows, or that is overlooked
(`scanLevels_accountedFor`).
-/

namespace GuestXml.Schema

open Xml (Element)

/-! ### Names of slots -/

/-- The names of the child elements that an alternative maps to. -/
def Alternative.slotNames : Alternative → List String
  | .group _ g => childNames g.record.members
  | .element _ tag _ => [tag]

/-- The names of the child elements that any alternative of a choice maps to. -/
def Choice.slotNames (c : Choice) : List String :=
  c.variants.alternatives.flatMap (·.slotNames)

/-- The names of the child elements that a type maps to. -/
def Content.slotNames : Content → List String
  | .group g => childNames g.record.members
  | .choice c => c.slotNames
  | .series s => childNames s.record.members ++ s.record.choice.slotNames

/-- The names that the alternative of a value maps to. -/
def AnyOf.slotNames : {as : List Alternative} → AnyOf as → List String
  | a :: _, .inl _ => a.slotNames
  | _ :: _, .inr v => slotNames v

/-- The names that the alternative of a value maps to. -/
def Choice.takenNames (c : Choice) (v : c.Carrier) : List String :=
  (c.variants.toAny v).slotNames

/-- The names of slots that are not looked for when a value is read: those of the
alternatives that were not taken. -/
def Content.overlookedNames : (t : Content) → t.Carrier → List String
  | .group _, _ => []
  | .choice c, v => c.slotNames.filter (· ∉ c.takenNames v)
  | .series s, v =>
    s.record.choice.slotNames.filter (· ∉ (s.record.toParts v).2.flatMap s.record.choice.takenNames)

/-- The names that were asked for when a value has been read. -/
def Content.askedNames : (t : Content) → t.Carrier → List String
  | .group g, _ => childNames g.record.members
  | .choice c, v => c.takenNames v
  | .series s, v =>
    childNames s.record.members ++ (s.record.toParts v).2.flatMap s.record.choice.takenNames

theorem AnyOf.mem_slotNames {as : List Alternative} (v : AnyOf as) {name : String}
    (h : name ∈ v.slotNames) : name ∈ as.flatMap (·.slotNames) := by
  induction as with
  | nil => exact v.elim
  | cons a as ih =>
    rw [List.flatMap_cons, List.mem_append]
    cases v with
    | inl v => exact .inl h
    | inr v => exact .inr (ih v h)

theorem flatMap_slotNames_of_tags {as : List Alternative} {tags : List String}
    (h : as.map (·.tag?) = tags.map some) : as.flatMap (·.slotNames) = tags := by
  induction as generalizing tags with
  | nil => simpa using h.symm
  | cons a as ih =>
    obtain _ | ⟨tag, tags⟩ := tags
    case nil => simp at h
    obtain ⟨htag, hrest⟩ := List.cons_eq_cons.mp h
    cases a with
    | group => exact nomatch htag
    | element name tag' t =>
      obtain rfl := Option.some.inj htag
      rw [List.flatMap_cons, ih hrest]
      rfl

/-- No member of a series has the name of one of its alternatives. -/
theorem Series.not_mem_slotNames_choice (s : Series) {name : String}
    (h : name ∈ childNames s.record.members) : name ∉ s.record.choice.slotNames := by
  obtain ⟨tags, htags, -, hnew⟩ := s.tags?_choice
  rw [Choice.slotNames, flatMap_slotNames_of_tags (mapM_tag?_eq_some_iff.mp htags)]
  exact fun htag => hnew name htag h

/-- What was asked for are the names of slots that were not overlooked. -/
theorem Content.mem_askedNames_iff (t : Content) (v : t.Carrier) (name : String) :
    name ∈ t.askedNames v ↔ name ∈ t.slotNames ∧ name ∉ t.overlookedNames v := by
  cases t with
  | group g => simp [askedNames, slotNames, overlookedNames]
  | choice c =>
    have hslot : name ∈ c.takenNames v → name ∈ c.slotNames := AnyOf.mem_slotNames _
    simp only [askedNames, slotNames, overlookedNames, List.mem_filter, decide_eq_true_eq]
    tauto
  | series s =>
    have hslot : name ∈ (s.record.toParts v).2.flatMap s.record.choice.takenNames →
        name ∈ s.record.choice.slotNames := by
      intro h
      obtain ⟨entry, -, hentry⟩ := List.mem_flatMap.mp h
      exact AnyOf.mem_slotNames _ hentry
    have hmember : name ∈ childNames s.record.members → name ∉ s.record.choice.slotNames :=
      s.not_mem_slotNames_choice
    simp only [askedNames, slotNames, overlookedNames, List.mem_append, List.mem_filter,
      decide_eq_true_eq]
    tauto

/-! ### What a value covers -/

/-- The elements are first such ones and then such others. -/
def Both (p q : List Element → Prop) (es : List Element) : Prop :=
  ∃ front back, es = front ++ back ∧ p front ∧ q back

/-- The value was read from a single element with a name. -/
def OfChild {α : Type} (name : String) (readFrom : α → Element → Prop) (v : α)
    (es : List Element) : Prop :=
  ∃ e, es = [e] ∧ e.name = name ∧ readFrom v e

/-- Each value covers its elements, one value after the other. -/
def CoversAll {α : Type} (covers : α → List Element → Prop) : List α → List Element → Prop
  | [], es => es = []
  | v :: vs, es => Both (covers v) (CoversAll covers vs) es

section Covers

-- Whether a value of a type was read from an element as a whole.
variable (nested : (t : Content) → t.Carrier → Element → Prop)

/-- The value of a member was read from the child elements. -/
def Field.Covers : (f : Field) → f.Carrier → List Element → Prop
  | .valueElement name s, v, es => OfChild name (fun v e => s.decode e.text = .ok v) v es
  | .optionalValueElement name s, v, es =>
    CoversAll (OfChild name fun v e => s.decode e.text = .ok v) v.toList es
  | .valueElements name _ s, vs, es =>
    CoversAll (OfChild name fun v e => s.decode e.text = .ok v) vs es
  | .flag name, v, es => if v then OfChild name (fun _ _ => True) () es else es = []
  | .element name t, v, es => OfChild name (nested t) v es
  | .optionalElement name t, v, es => CoversAll (OfChild name (nested t)) v.toList es
  | .elements name _ t, vs, es => CoversAll (OfChild name (nested t)) vs es
  | .attr .., _, es | .optionalAttr .., _, es | .constant .., _, es | .text _, _, es
  | .optionalText _, _, es | .noContent, _, es => es = []

/-- The values of members were read from the child elements, in order. -/
def TupleCovers : (ms : List Member) → Tuple ms → List Element → Prop
  | [], _, es => es = []
  | m :: ms, (v, vs), es => Both (m.field.Covers nested v) (TupleCovers ms vs) es

/-- The value of an alternative was read from the child elements. -/
def Alternative.Covers : (a : Alternative) → a.Carrier → List Element → Prop
  | .group _ g, v, es => TupleCovers nested g.record.members (g.record.toTuple v) es
  | .element _ tag t, v, es => OfChild tag (nested t) v es

/-- The value was read from the child elements by the alternative it belongs to. -/
def AnyOf.Covers : {as : List Alternative} → AnyOf as → List Element → Prop
  | a :: _, .inl v, es => a.Covers nested v es
  | _ :: _, .inr v, es => AnyOf.Covers v es

/-- The value of a choice was read from the child elements. -/
def Choice.Covers (c : Choice) (v : c.Carrier) (es : List Element) : Prop :=
  (c.variants.toAny v).Covers nested es

/-- The value of a type was read from the child elements: each of them is a part of it. -/
def Content.Covers : (t : Content) → t.Carrier → List Element → Prop
  | .group g, v, es => TupleCovers nested g.record.members (g.record.toTuple v) es
  | .choice c, v, es => c.Covers nested v es
  | .series s, v, es =>
    Both (TupleCovers nested s.record.members (s.record.toParts v).1)
      (CoversAll (s.record.choice.Covers nested) (s.record.toParts v).2) es

end Covers

/-- The value was read from the element, and so down to a number of levels: it covers the
first child elements, and the others are left over, with no name among them that a slot
knows and that was looked for. -/
def Content.AccountsFor : (levels : Nat) → (t : Content) → t.Carrier → Element → Prop
  | 0, _, _, _ => False
  | n + 1, t, v, e =>
    ∃ taken left, e.childElements = taken ++ left ∧ t.Covers (AccountsFor n) v taken ∧
      ∀ c ∈ left, c.name ∈ t.slotNames → c.name ∈ t.overlookedNames v

/-! ### Accounting for children -/

theorem Scan.mem_asked_ask {s : Scan} {name asked : String} :
    name ∈ (s.ask asked).asked ↔ name ∈ s.asked ∨ name = asked := by
  unfold Scan.ask
  split
  · rename_i hhead
    have hmem : asked ∈ s.asked := List.mem_of_mem_head? hhead
    constructor
    · exact .inl
    · rintro (hname | rfl)
      · exact hname
      · exact hmem
  · rw [List.mem_cons, or_comm]

/-- What the scan comes to covers the children that it took, and just these names were asked
for. -/
def Accounts {α : Type} (covers : α → List Element → Prop) (names : α → List String)
    (scan : ScanM α) : Prop :=
  ∀ s v s', scan s = .ok (v, s') →
    (∃ taken, s.rest = taken ++ s'.rest ∧ covers v taken) ∧
      ∀ name, name ∈ s'.asked ↔ name ∈ s.asked ∨ name ∈ names v

namespace Accounts

variable {α β γ : Type} {covers : α → List Element → Prop} {names : α → List String}
  {scan : ScanM α}

theorem of_idle (h : Idle scan) (hcovers : ∀ v, covers v []) :
    Accounts covers (fun _ => []) scan := by
  intro s v s' hs
  obtain rfl := h.eq_of_ok hs
  exact ⟨⟨[], rfl, hcovers v⟩, by simp⟩

theorem pure {v : α} (hcovers : covers v []) (hnames : names v = []) :
    Accounts covers names (pure v) := by
  intro s v' s' hs
  cases hs
  exact ⟨⟨[], rfl, hcovers⟩, by simp [hnames]⟩

theorem map {covers' : β → List Element → Prop} {names' : β → List String} (f : α → β)
    (h : Accounts covers names scan) (hcovers : ∀ v es, covers v es → covers' (f v) es)
    (hnames : ∀ v, names' (f v) = names v) : Accounts covers' names' (f <$> scan) := by
  intro s w s' hs
  obtain ⟨v, hv, rfl⟩ := ScanM.map_eq_ok_iff.mp hs
  obtain ⟨⟨taken, hrest, htaken⟩, hasked⟩ := h s v s' hv
  exact ⟨⟨taken, hrest, hcovers v taken htaken⟩, by rw [hnames]; exact hasked⟩

theorem andReturn {covers' : β → List Element → Prop} {names' : β → List String} (f : α → β)
    (h : Accounts covers names scan) (hcovers : ∀ v es, covers v es → covers' (f v) es)
    (hnames : ∀ v, names' (f v) = names v) :
    Accounts covers' names' (do return f (← scan)) := by
  rw [← map_eq_pure_bind]
  exact h.map f hcovers hnames

/-- Two scans in a row take children one behind the other. -/
theorem pair {covers' : β → List Element → Prop} {names' : β → List String}
    {both : γ → List Element → Prop} {bothNames : γ → List String} {scan' : ScanM β}
    (f : α → β → γ) (h : Accounts covers names scan) (h' : Accounts covers' names' scan')
    (hboth : ∀ v w es, Both (covers v) (covers' w) es → both (f v w) es)
    (hnames : ∀ v w, bothNames (f v w) = names v ++ names' w) :
    Accounts both bothNames (do let v ← scan; return f v (← scan')) := by
  intro s u s'' hs
  obtain ⟨v, s', hv, hs'⟩ := ScanM.bind_eq_ok_iff.mp hs
  obtain ⟨w, s₂, hw, hs₂⟩ := ScanM.bind_eq_ok_iff.mp hs'
  cases hs₂
  obtain ⟨⟨front, hrest, hfront⟩, hasked⟩ := h s v s' hv
  obtain ⟨⟨back, hrest', hback⟩, hasked'⟩ := h' s' w s'' hw
  refine ⟨⟨front ++ back, ?_, hboth v w _ ⟨front, back, rfl, hfront, hback⟩⟩, fun name => ?_⟩
  · rw [hrest, hrest', List.append_assoc]
  · rw [hasked', hasked, hnames, List.mem_append, or_assoc]

theorem list {scan : γ → ScanM α} (h : ∀ c, Accounts covers names (scan c)) (cs : List γ) :
    Accounts (CoversAll covers) (·.flatMap names) (cs.mapM scan) := by
  induction cs with
  | nil =>
    rw [List.mapM_nil]
    exact .pure rfl rfl
  | cons c cs ih =>
    rw [List.mapM_cons]
    exact (h c).pair (· :: ·) ih (fun _ _ _ hes => hes) fun _ _ => List.flatMap_cons

/-- The values of a list are checked to be enough. -/
theorem enough (site : Site) (name : String) (min : Nat) {scan : ScanM (List α)}
    {covers : List α → List Element → Prop} {names : List α → List String}
    (h : Accounts covers names scan) :
    Accounts covers names
      (do let values ← scan
          scanMin site name min values.length
          return values) := by
  intro s vs s' hs
  obtain ⟨vs', s₁, hvs, hs'⟩ := ScanM.bind_eq_ok_iff.mp hs
  obtain ⟨u, s₂, hmin, hs₂⟩ := ScanM.bind_eq_ok_iff.mp hs'
  obtain ⟨-, rfl⟩ := scanMin_eq_ok_iff.mp hmin
  cases hs₂
  exact h s vs s' hvs

end Accounts

/-! ### Children -/

section Children

variable {α β : Type} {site : Site} {scan : Element → Except Error (α × Nat)}
  {readFrom : α → Element → Prop} (h : ∀ e v n, scan e = .ok (v, n) → readFrom v e)

include h

theorem readFrom_of_scanChild {s s' : Scan} {e : Element} {v : α}
    (hs : scanChild site (scan e) s = .ok (v, s')) :
    readFrom v e ∧ s'.rest = s.rest.tail ∧ s'.asked = s.asked := by
  obtain ⟨-, n, hscan, rfl⟩ := scanChild_eq_ok_iff.mp hs
  exact ⟨h e v n hscan, rfl, rfl⟩

theorem accounts_required (name : String) :
    Accounts (OfChild name readFrom) (fun _ => [name])
      (do scanChild site (scan (← scanRequired site name))) := by
  intro s v s' hs
  obtain ⟨e, s₁, he, hs'⟩ := ScanM.bind_eq_ok_iff.mp hs
  obtain ⟨rfl, hname, more, hrest⟩ := scanRequired_eq_ok he
  obtain ⟨hread, hrest', hasked⟩ := readFrom_of_scanChild h hs'
  rw [s.rest_ask, hrest] at hrest'
  refine ⟨⟨[e], ?_, e, rfl, hname, hread⟩, fun name' => ?_⟩
  · rw [hrest, hrest']
    rfl
  · rw [hasked, Scan.mem_asked_ask, List.mem_singleton]

theorem accounts_optional {covers : β → List Element → Prop} (name : String) (f : α → β) (b : β)
    (hsome : ∀ v es, OfChild name readFrom v es → covers (f v) es) (hnone : covers b []) :
    Accounts covers (fun _ => [name])
      (do match ← scanNext? name with
          | some e => f <$> scanChild site (scan e)
          | none => return b) := by
  intro s w s' hs
  obtain ⟨e?, s₁, he, hs'⟩ := ScanM.bind_eq_ok_iff.mp hs
  cases e? with
  | none =>
    simp only [scanNext?, Except.ok.injEq, Prod.mk.injEq] at he
    obtain ⟨-, rfl⟩ := he
    cases hs'
    exact ⟨⟨[], (s.rest_ask name).symm, hnone⟩, fun name' => by
      rw [Scan.mem_asked_ask, List.mem_singleton]⟩
  | some e =>
    obtain ⟨v, hv, rfl⟩ := ScanM.map_eq_ok_iff.mp hs'
    obtain ⟨rfl, hname, more, hrest⟩ := scanNext?_eq_some he
    obtain ⟨hread, hrest', hasked⟩ := readFrom_of_scanChild h hv
    rw [s.rest_ask, hrest] at hrest'
    refine ⟨⟨[e], ?_, hsome v _ ⟨e, rfl, hname, hread⟩⟩, fun name' => ?_⟩
    · rw [hrest, hrest']
      rfl
    · rw [hasked, Scan.mem_asked_ask, List.mem_singleton]

theorem coversAll_of_mapM {name : String} {es more : List Element} (hes : ∀ e ∈ es, e.name = name)
    {s s' : Scan} {vs : List α} (hrest : s.rest = es ++ more)
    (hs : es.mapM (fun e => scanChild site (scan e)) s = .ok (vs, s')) :
    CoversAll (OfChild name readFrom) vs es ∧ s'.rest = more ∧ s'.asked = s.asked := by
  induction es generalizing s vs with
  | nil =>
    cases hs
    exact ⟨rfl, hrest, rfl⟩
  | cons e es ih =>
    rw [List.mapM_cons] at hs
    obtain ⟨v, s₁, hv, hs⟩ := ScanM.bind_eq_ok_iff.mp hs
    obtain ⟨vs', s₂, hvs, hs⟩ := ScanM.bind_eq_ok_iff.mp hs
    cases hs
    obtain ⟨hread, hrest₁, hasked₁⟩ := readFrom_of_scanChild h hv
    rw [hrest] at hrest₁
    obtain ⟨hall, hrest', hasked'⟩ := ih (fun e' he' => hes e' (by simp [he'])) hrest₁ hvs
    exact ⟨⟨[e], es, rfl, ⟨e, rfl, hes e (by simp), hread⟩, hall⟩, hrest',
      hasked'.trans hasked₁⟩

theorem accounts_many (name : String) (min : Nat) :
    Accounts (CoversAll (OfChild name readFrom)) (fun _ => [name])
      (do let values ← (← scanAll name).mapM fun e => scanChild site (scan e)
          scanMin site name min values.length
          return values) := by
  have hlist : Accounts (CoversAll (OfChild name readFrom)) (fun _ => [name])
      (do (← scanAll name).mapM fun e => scanChild site (scan e)) := by
    intro s vs s' hs
    obtain ⟨es, s₁, hes, hs'⟩ := ScanM.bind_eq_ok_iff.mp hs
    obtain ⟨rfl, hname, more, hrest⟩ := scanAll_eq_ok hes
    obtain ⟨hall, hrest', hasked⟩ :=
      coversAll_of_mapM h hname ((s.rest_ask name).trans hrest) hs'
    refine ⟨⟨es, by rw [hrest, hrest'], hall⟩, fun name' => ?_⟩
    rw [hasked, Scan.mem_asked_ask, List.mem_singleton]
  have henough := hlist.enough site name min
  rwa [bind_assoc] at henough

end Children

/-! ### Members and alternatives -/

section Members

variable {site : Site} {child : (t : Content) → Element → Except Error (t.Carrier × Nat)}
  {nested : (t : Content) → t.Carrier → Element → Prop}

variable (h : ∀ t e v n, child t e = .ok (v, n) → nested t v e)

include h

theorem scanField_accounts (f : Field) :
    Accounts (f.Covers nested) (fun _ => f.childName?.toList) (scanField site child f) := by
  by_cases hf : f.childName? = none
  · rw [hf]
    refine .of_idle (scanField_idle hf) fun v => ?_
    cases f with
    | attr | optionalAttr | constant | text | optionalText | noContent => rfl
    | _ => exact nomatch hf
  · have hvalue (s : Scalar) (e : Element) (v : s.Carrier) (n : Nat)
        (hv : scanValue site s e = .ok (v, n)) : s.decode e.text = .ok v :=
      (scanValue_eq_ok hv).1
    have hsome {α : Type} {covers : α → List Element → Prop} (v : α) (es : List Element)
        (hes : covers v es) : CoversAll covers [v] es :=
      ⟨es, [], (List.append_nil es).symm, hes, rfl⟩
    cases f with
    | valueElement name s => exact accounts_required (hvalue s) name
    | optionalValueElement name s => exact accounts_optional (hvalue s) name some none hsome rfl
    | valueElements name min s => exact accounts_many (hvalue s) name min
    | flag name =>
      have hflag (e : Element) (v : Unit) (n : Nat) :
          scanFlag site e = .ok (v, n) → (fun _ _ => True : Unit → Element → Prop) v e :=
        fun _ => trivial
      exact accounts_optional hflag name (fun _ => true) false (fun _ _ hes => hes) rfl
    | element name t => exact accounts_required (h t) name
    | optionalElement name t => exact accounts_optional (h t) name some none hsome rfl
    | elements name min t => exact accounts_many (h t) name min
    | _ => exact absurd rfl hf

theorem scanTuple_accounts (ms : List Member) :
    Accounts (TupleCovers nested ms) (fun _ => childNames ms) (scanTuple site child ms) := by
  induction ms with
  | nil => exact .pure rfl rfl
  | cons m ms ih =>
    exact (scanField_accounts h m.field).pair Prod.mk ih (fun _ _ _ hes => hes) fun _ _ =>
      childNames_cons m ms

theorem scanGroup_accounts (g : Group) :
    Accounts (fun v => TupleCovers nested g.record.members (g.record.toTuple v))
      (fun _ => childNames g.record.members) (scanGroup site child g) :=
  (scanTuple_accounts h g.record.members).andReturn g.record.ofTuple
    (fun vs es hes => by rwa [g.record.toTuple_ofTuple]) fun _ => rfl

theorem scanAlternative_accounts (a : Alternative) :
    Accounts (a.Covers nested) (fun _ => a.slotNames) (scanAlternative site child a) := by
  cases a with
  | group name g => exact scanGroup_accounts h g
  | element name tag t => exact accounts_required (h t) tag

/-- Rejected alternatives have taken nothing, and have not asked for anything. -/
theorem scanFirst_accounts (choice : String) (as : List Alternative) :
    Accounts (fun v : AnyOf as => v.Covers nested) (fun v => v.slotNames)
      (scanFirst site child choice as) := by
  induction as with
  | nil => exact fun s v s' hs => nomatch hs
  | cons a as ih =>
    intro s v s' hs
    rcases scanFirst_eq_ok hs with ⟨w, hw, rfl⟩ | ⟨w, hw, rfl⟩
    · exact scanAlternative_accounts h a s w s' hw
    · exact ih s w s' hw

theorem scanChoice_accounts (c : Choice) :
    Accounts (c.Covers nested) c.takenNames (scanChoice site child c) :=
  (scanFirst_accounts h c.name c.variants.alternatives).andReturn c.variants.ofAny
    (fun v es hes => by rwa [Choice.Covers, c.variants.toAny_ofAny])
    fun v => by rw [Choice.takenNames, c.variants.toAny_ofAny]

theorem scanChoices_accounts {c : Choice} {tags : List String} (htags : c.tags? = some tags)
    (min : Nat) :
    Accounts (CoversAll (c.Covers nested)) (·.flatMap c.takenNames)
      (scanChoices site child c min) := by
  intro s vs s' hs
  simp only [scanChoices, scanChoicesFrom, htags] at hs
  exact (Accounts.list (fun _ => scanChoice_accounts h c) _).enough site c.name min s vs s' hs

theorem scanContent_accounts (t : Content) :
    Accounts (t.Covers nested) t.askedNames (scanContent site child t) := by
  cases t with
  | group g => exact scanGroup_accounts h g
  | choice c => exact scanChoice_accounts h c
  | series s =>
    obtain ⟨tags, htags, -⟩ := s.tags?_choice
    refine (scanTuple_accounts h s.record.members).pair
      (fun values entries => s.record.ofParts (values, entries))
      (scanChoices_accounts h htags s.record.min) (fun vs entries es hes => ?_)
      fun vs entries => ?_
    · simpa only [Content.Covers, s.record.toParts_ofParts] using hes
    · simp only [Content.askedNames, s.record.toParts_ofParts]

end Members

/-! ### Elements -/

/-- What is wrong with a child that is left over is known from what was asked for. -/
theorem Accounts.fault?_eq_none {α : Type} {covers : α → List Element → Prop}
    {names : α → List String} {scan : ScanM α} (h : Accounts covers names scan) {site : Site}
    {s : Scan} {v : α} (hs : scan { rest := site.element.childElements } = .ok (v, s))
    {c : Element} (hc : s.fault? site c = none) : c.name ∉ names v := by
  intro hname
  have hasked : c.name ∈ s.asked := ((h _ v s hs).2 c.name).mpr (.inr hname)
  simp [Scan.fault?, hasked] at hc

/-- By induction on the levels that the limit leaves. -/
theorem scanLevels_accountsFor (denyUnknown : Bool) (limit levels : Nat) (t : Content)
    (e : Element) (v : t.Carrier) (n : Nat)
    (h : scanLevels denyUnknown limit levels t e = .ok (v, n)) : t.AccountsFor levels v e := by
  induction levels generalizing t e v n with
  | zero => cases h
  | succ levels ih =>
    let site : Site := { element := e, denyUnknown, limit, below := levels }
    have haccounts : Accounts (t.Covers (Content.AccountsFor levels)) t.askedNames
        (scanContent site (scanLevels denyUnknown limit levels) t) :=
      scanContent_accounts ih t
    obtain ⟨s, hs, hleft, -⟩ := scanElement_eq_ok_iff.mp h
    obtain ⟨⟨taken, hrest, hcovers⟩, -⟩ := haccounts _ v s hs
    refine ⟨taken, s.rest, hrest, hcovers, fun c hc hslot => ?_⟩
    have hasked := haccounts.fault?_eq_none hs (hleft c hc)
    rw [t.mem_askedNames_iff] at hasked
    tauto

end GuestXml.Schema
