import GuestXml.Schema.Reader

/-!
# Scans

The reader of values works on a cursor with marks, on one count and on one list of requested
names, all shared by the levels of a tree. A scan says the same with less: what is read of an
element depends on the element and on the list of its children that are not consumed, and a
child is read on its own, from its first child on.

The scanners go along with the readers, one by one. `Proofs.Reading.Agreement` shows that
the readers do what the scanners say, so that statements about loading can be proved about
scans.
-/

namespace GuestXml.Schema

open Xml (Element)

/-- What is left of an element while its members are read. -/
structure Scan where
  /-- The child elements that are not consumed. -/
  rest : List Element
  /-- The number of elements consumed below the element. -/
  consumed : Nat := 0
  /-- The names that members asked for, latest first. -/
  asked : List String := []

/-- The element that is read, and under which conditions. -/
structure Site where
  element : Element
  /-- Whether a child that no member asks for is an error. -/
  denyUnknown : Bool
  /-- How deep elements may nest. -/
  limit : Nat
  /-- How many more levels may follow below the element. -/
  below : Nat

/-- Steps of a scan. What failed leaves nothing behind. -/
abbrev ScanM (α : Type) : Type :=
  StateT Scan (Except Error) α

namespace ScanM

variable {α β : Type}

/-- A result that does not depend on the scan. -/
def ofExcept (r : Except Error α) : ScanM α := fun s =>
  r.map fun a => (a, s)

/-- Fails. -/
def fail (e : Error) : ScanM α := fun _ =>
  .error e

@[simp] theorem pure_apply (a : α) (s : Scan) : (pure a : ScanM α) s = .ok (a, s) := rfl

@[simp] theorem fail_apply (e : Error) (s : Scan) : (fail e : ScanM α) s = .error e := rfl

@[simp] theorem ofExcept_ok (a : α) (s : Scan) : ofExcept (.ok a) s = .ok (a, s) := rfl

@[simp] theorem ofExcept_error (e : Error) (s : Scan) :
    (ofExcept (.error e) : ScanM α) s = .error e := rfl

theorem bind_of_ok {x : ScanM α} {f : α → ScanM β} {s s' : Scan} {a : α}
    (h : x s = .ok (a, s')) : (x >>= f) s = f a s' := by
  show (x s >>= fun p => f p.1 p.2) = _
  rw [h]
  rfl

theorem bind_of_error {x : ScanM α} {f : α → ScanM β} {s : Scan} {e : Error}
    (h : x s = .error e) : (x >>= f) s = .error e := by
  show (x s >>= fun p => f p.1 p.2) = _
  rw [h]
  rfl

theorem map_of_ok {x : ScanM α} {f : α → β} {s s' : Scan} {a : α}
    (h : x s = .ok (a, s')) : (f <$> x) s = .ok (f a, s') := by
  rw [map_eq_pure_bind, bind_of_ok h]
  rfl

theorem map_of_error {x : ScanM α} {f : α → β} {s : Scan} {e : Error}
    (h : x s = .error e) : (f <$> x) s = .error e := by
  rw [map_eq_pure_bind, bind_of_error h]

theorem bind_eq_ok_iff {x : ScanM α} {f : α → ScanM β} {s s'' : Scan} {b : β} :
    (x >>= f) s = .ok (b, s'') ↔ ∃ a s', x s = .ok (a, s') ∧ f a s' = .ok (b, s'') := by
  cases h : x s with
  | ok p =>
    obtain ⟨a, s'⟩ := p
    rw [bind_of_ok h]
    constructor
    · intro hf
      exact ⟨a, s', rfl, hf⟩
    · rintro ⟨a', s₁, heq, hf⟩
      cases heq
      exact hf
  | error e => simp [bind_of_error h]

theorem map_eq_ok_iff {x : ScanM α} {f : α → β} {s s' : Scan} {b : β} :
    (f <$> x) s = .ok (b, s') ↔ ∃ a, x s = .ok (a, s') ∧ f a = b := by
  rw [map_eq_pure_bind, bind_eq_ok_iff]
  simp only [pure_apply, Except.ok.injEq, Prod.mk.injEq]
  constructor
  · rintro ⟨a, s₁, hx, rfl, rfl⟩
    exact ⟨a, hx, rfl⟩
  · rintro ⟨a, hx, rfl⟩
    exact ⟨a, s', hx, rfl, rfl⟩

end ScanM

/-! ### Steps -/

/-- Notes that a name is asked for, unless it was asked for just before. -/
def Scan.ask (s : Scan) (name : String) : Scan :=
  if s.asked.head? = some name then s else { s with asked := name :: s.asked }

@[simp] theorem Scan.rest_ask (s : Scan) (name : String) : (s.ask name).rest = s.rest := by
  unfold Scan.ask
  split <;> rfl

@[simp] theorem Scan.consumed_ask (s : Scan) (name : String) :
    (s.ask name).consumed = s.consumed := by
  unfold Scan.ask
  split <;> rfl

/-- Asks for a child: the next one, if it has the name. -/
def scanNext? (name : String) : ScanM (Option Element) := fun s =>
  .ok (s.rest.head?.filter (·.name == name), s.ask name)

/-- Asks for any number of children: all next ones that have the name. -/
def scanAll (name : String) : ScanM (List Element) := fun s =>
  .ok (s.rest.takeWhile (·.name == name), s.ask name)

section Steps

variable {α : Type} (site : Site)

/-- Asks for a child that has to be there. -/
def scanRequired (name : String) : ScanM Element := do
  match ← scanNext? name with
  | some child => return child
  | none => .fail (.missingElement site.element.name name)

/-- Goes on behind the next child, with what was read of it. -/
def scanChild (result : Except Error (α × Nat)) : ScanM α := fun s =>
  if site.below = 0 then .error (.depthExceeded site.limit)
  else result.map fun (a, n) =>
    (a, { s with rest := s.rest.tail, consumed := s.consumed + n + 1 })

/-- Checks that a list has enough members. -/
def scanMin (name : String) (min found : Nat) : ScanM Unit :=
  if found < min then .fail (.cardinality site.element.name name min found) else return ()

/-- What is wrong with a child that is left over, if anything is. -/
def Scan.fault? (s : Scan) (child : Element) : Option Error :=
  if s.asked.contains child.name then some (.outOfOrder site.element.name child.name)
  else if site.denyUnknown then some (.unexpectedElement site.element.name child.name)
  else none

/-- Checks that no child is left over wrongly. -/
def scanEnd : ScanM Unit := fun s =>
  match s.rest.findSome? (s.fault? site) with
  | some e => .error e
  | none => .ok ((), s)

/-- Reads an element from its first child on, and counts the elements consumed below it. -/
def scanElement (read : ScanM α) : Except Error (α × Nat) :=
  (do let a ← read; scanEnd site; return a : ScanM α) { rest := site.element.childElements }
    |>.map fun (a, s) => (a, s.consumed)

theorem scanElement_of_error {site : Site} {scan : ScanM α} {e : Error}
    (h : scan { rest := site.element.childElements } = .error e) :
    scanElement site scan = .error e := by
  rw [scanElement, ScanM.bind_of_error h]
  rfl

theorem scanElement_of_ok {site : Site} {scan : ScanM α} {a : α} {s : Scan}
    (h : scan { rest := site.element.childElements } = .ok (a, s)) :
    scanElement site scan = (scanEnd site s).map fun _ => (a, s.consumed) := by
  rw [scanElement, ScanM.bind_of_ok h]
  unfold scanEnd
  cases hfault : s.rest.findSome? (s.fault? site) with
  | some e =>
    rw [ScanM.bind_of_error (by rw [hfault])]
    rfl
  | none =>
    rw [ScanM.bind_of_ok (by rw [hfault])]
    rfl

/-- An element is read if its members are and nothing is wrong with what they left over. -/
theorem scanElement_eq_ok_iff {site : Site} {scan : ScanM α} {a : α} {n : Nat} :
    scanElement site scan = .ok (a, n) ↔
      ∃ s, scan { rest := site.element.childElements } = .ok (a, s) ∧
        (∀ e ∈ s.rest, s.fault? site e = none) ∧ s.consumed = n := by
  cases h : scan { rest := site.element.childElements } with
  | error e => simp [scanElement_of_error h]
  | ok p =>
    obtain ⟨a', s⟩ := p
    rw [scanElement_of_ok h, scanEnd]
    cases hfault : s.rest.findSome? (s.fault? site) with
    | some e =>
      constructor
      · intro hok
        cases hok
      · rintro ⟨s', hs', hnone, -⟩
        cases hs'
        rw [List.findSome?_eq_none_iff.mpr hnone] at hfault
        cases hfault
    | none =>
      constructor
      · intro hok
        cases hok
        exact ⟨s, rfl, List.findSome?_eq_none_iff.mp hfault, rfl⟩
      · rintro ⟨s', hs', -, rfl⟩
        cases hs'
        rfl

/-- The same conditions for a child, one level further down. -/
def Site.child (e : Element) : Site :=
  { site with element := e, below := site.below - 1 }

/-- Reads a child that holds a scalar. -/
def scanValue (s : Scalar) (e : Element) : Except Error (s.Carrier × Nat) :=
  scanElement (site.child e) (.ofExcept (s.decode e.text))

/-- Reads a child that is a flag. -/
def scanFlag (e : Element) : Except Error (Unit × Nat) :=
  scanElement (site.child e) (return ())

end Steps

/-! ### Looking for a name -/

section Looking

variable {s : Scan} {name : String} {e : Element} {es more : List Element}

theorem scanNext?_of_named (hrest : s.rest = e :: more) (hname : e.name = name) :
    scanNext? name s = .ok (some e, s.ask name) := by
  simp [scanNext?, hrest, hname]

theorem scanNext?_of_unnamed (h : ∀ e ∈ s.rest.head?, e.name ≠ name) :
    scanNext? name s = .ok (none, s.ask name) := by
  unfold scanNext?
  cases hhead : s.rest.head? with
  | none => rfl
  | some e => simp [h e hhead]

theorem scanRequired_of_named (site : Site) (hrest : s.rest = e :: more) (hname : e.name = name) :
    scanRequired site name s = .ok (e, s.ask name) := by
  unfold scanRequired
  rw [ScanM.bind_of_ok (scanNext?_of_named hrest hname)]
  rfl

theorem scanRequired_of_unnamed (site : Site) (h : ∀ e ∈ s.rest.head?, e.name ≠ name) :
    scanRequired site name s = .error (.missingElement site.element.name name) := by
  unfold scanRequired
  rw [ScanM.bind_of_ok (scanNext?_of_unnamed h)]
  rfl

theorem scanAll_of_named (hrest : s.rest = es ++ more) (hes : ∀ e ∈ es, e.name = name)
    (hmore : ∀ e ∈ more, e.name ≠ name) : scanAll name s = .ok (es, s.ask name) := by
  have hnext : more.takeWhile (·.name == name) = [] := by
    cases more with
    | nil => rfl
    | cons e more => simp [hmore e (by simp)]
  have htake : s.rest.takeWhile (·.name == name) = es := by
    rw [hrest, List.takeWhile_append_of_pos fun e he => by simp [hes e he], hnext,
      List.append_nil]
  rw [scanAll, htake]

end Looking

/-! ### Members and alternatives -/

section Members

-- How a child is read whose content has a type.
variable (site : Site) (child : (t : Content) → Element → Except Error (t.Carrier × Nat))

/-- Checks that the element is empty. -/
def scanNoContent : ScanM Unit := fun s =>
  match site.element.attributes, s.rest with
  | (name, _) :: _, _ => .error (.unexpectedAttribute site.element.name name)
  | [], extra :: _ => .error (.unexpectedElement site.element.name extra.name)
  | [], [] =>
    if Text.isBlankText site.element.text then .ok ((), s)
    else .error (.invalidValue "empty element" site.element.text)

/-- Reads a member. -/
def scanField : (f : Field) → ScanM f.Carrier
  | .attr name s =>
    match site.element.attribute? name with
    | some text => .ofExcept (s.decode text)
    | none => .fail (.missingAttribute site.element.name name)
  | .optionalAttr name s =>
    match site.element.attribute? name with
    | some text => some <$> .ofExcept (s.decode text)
    | none => return none
  | .constant name value =>
    match site.element.attribute? name with
    | some found =>
      if found = value then return ()
      else .fail (.constantMismatch site.element.name name value found)
    | none => .fail (.missingAttribute site.element.name name)
  | .text s => .ofExcept (s.decode site.element.text)
  | .optionalText s =>
    if site.element.text.isEmpty then return none
    else some <$> .ofExcept (s.decode site.element.text)
  | .valueElement name s => do
    scanChild site (scanValue site s (← scanRequired site name))
  | .optionalValueElement name s => do
    match ← scanNext? name with
    | some e => some <$> scanChild site (scanValue site s e)
    | none => return none
  | .valueElements name min s => do
    let values ← (← scanAll name).mapM fun e => scanChild site (scanValue site s e)
    scanMin site name min values.length
    return values
  | .noContent => scanNoContent site
  | .flag name => do
    match ← scanNext? name with
    | some e => (fun _ => true) <$> scanChild site (scanFlag site e)
    | none => return false
  | .element name t => do
    scanChild site (child t (← scanRequired site name))
  | .optionalElement name t => do
    match ← scanNext? name with
    | some e => some <$> scanChild site (child t e)
    | none => return none
  | .elements name min t => do
    let values ← (← scanAll name).mapM fun e => scanChild site (child t e)
    scanMin site name min values.length
    return values

/-- Reads members in order. -/
def scanTuple : (ms : List Member) → ScanM (Tuple ms)
  | [] => return ()
  | m :: ms => do
    let value ← scanField site child m.field
    return (value, ← scanTuple ms)

/-- Reads the members of a group. -/
def scanGroup (g : Group) : ScanM g.Carrier := do
  return g.record.ofTuple (← scanTuple site child g.record.members)

/-- Reads an alternative. -/
def scanAlternative : (a : Alternative) → ScanM a.Carrier
  | .group _ g => scanGroup site child g
  | .element _ tag t => do
    scanChild site (child t (← scanRequired site tag))

/-- Reads the first alternative that can be read. A fatal error ends the search. -/
def scanFirst (choice : String) : (as : List Alternative) → ScanM (AnyOf as)
  | [] => .fail (.variantExhausted choice site.element.name)
  | a :: as => fun s =>
    match scanAlternative site child a s with
    | .ok (value, s') => .ok (.inl value, s')
    | .error e => if e.isFatal then .error e else (Sum.inr <$> scanFirst choice as) s

/-- Reads a choice. -/
def scanChoice (c : Choice) : ScanM c.Carrier := do
  return c.variants.ofAny (← scanFirst site child c.name c.variants.alternatives)

/-- Reads a choice over and over until it cannot be read, or takes no element, or no element
is left. -/
def scanWhileTaken {α : Type} (read : ScanM α) : (most : Nat) → ScanM (List α)
  | 0 => return []
  | n + 1 => fun s =>
    if s.rest.isEmpty then .ok ([], s)
    else
      match read s with
      | .ok (value, s') =>
        if s'.consumed = s.consumed then .ok ([value], s')
        else ((value :: ·) <$> scanWhileTaken read n) s'
      | .error e => if e.isFatal then .error e else .ok ([], s)

/-- Reads a choice repeatedly from some children. -/
def scanChoicesFrom (c : Choice) (min : Nat) (rest : List Element) :
    ScanM (List c.Carrier) := do
  let values ← match c.tags? with
    | some tags => (rest.takeWhile (tags.contains ·.name)).mapM fun _ => scanChoice site child c
    | none => scanWhileTaken (scanChoice site child c) rest.length
  scanMin site c.name min values.length
  return values

/-- Reads a choice repeatedly. -/
def scanChoices (c : Choice) (min : Nat) : ScanM (List c.Carrier) := fun s =>
  scanChoicesFrom site child c min s.rest s

/-- Reads the members of the element, without a look at what is left over. -/
def scanContent : (t : Content) → ScanM t.Carrier
  | .group g => scanGroup site child g
  | .choice c => scanChoice site child c
  | .series s => do
    let values ← scanTuple site child s.record.members
    let entries ← scanChoices site child s.record.choice s.record.min
    return s.record.ofParts (values, entries)

end Members

/-! ### Levels -/

/-- Reads an element that is on the first of a number of levels. -/
def scanLevels (denyUnknown : Bool) (limit : Nat) :
    (levels : Nat) → (t : Content) → Element → Except Error (t.Carrier × Nat)
  | 0, _, _ => .error (.depthExceeded limit)
  | n + 1, t, e =>
    let site : Site := { element := e, denyUnknown, limit, below := n }
    scanElement site (scanContent site (scanLevels denyUnknown limit n) t)

end GuestXml.Schema
