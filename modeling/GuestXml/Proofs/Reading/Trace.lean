import GuestXml.Proofs.Reading.Position
import GuestXml.Proofs.Schema.Shape
import GuestXml.Schema.Reader

/-!
# Readers with a trace

A traced reader is a reader that keeps a record of what it does: the readings it passes
through, and the names that members of the element it starts in ask for. Names asked for in
an attempt that fails are left out of the record, and so are those that a child asks for
inside itself.

Every reader of the schema is put together anew from the steps of a traced reader. Without
the record it is the reader that runs (`Traced.read_levels`, `Call.read_trace`), so that a
statement about the record is one about the way the reader comes to its end.
-/

namespace GuestXml.Schema

open Xml (Element)

/-- A reader with a record of what it does. -/
structure Traced (α : Type) where
  read : ReadM α
  /-- The readings passed through, from the first to the last. -/
  passed : Reading → List Reading
  /-- The names asked for in the element, in attempts that were not undone. -/
  asked : Reading → List String

namespace Traced

variable {α β γ : Type}

/-! ### Steps -/

/-- A step that only looks at the reading. -/
def look (read : ReadM α) : Traced α where
  read r := ((read r).1, r)
  passed r := [r]
  asked _ := []

/-- A step that asks for a name. -/
def ask (name : String) (find : Reading → α) : Traced α where
  read r := (.ok (find r), r.request name)
  passed r := [r, r.request name]
  asked _ := [name]

/-- Goes on with what a reader has come to. -/
def andThen (x : Traced α) (next : Except Error α → Traced β) : Traced β where
  read r := (next (x.read r).1).read (x.read r).2
  passed r := x.passed r ++ (next (x.read r).1).passed (x.read r).2
  asked r := x.asked r ++ (next (x.read r).1).asked (x.read r).2

/-- Reads in a way that depends on where the reading stands. -/
def depending (x : Reading → Traced α) : Traced α where
  read r := (x r).read r
  passed r := (x r).passed r
  asked r := (x r).asked r

/-- Reads inside a child. What is asked for there is not asked for here. -/
def inside (e : Element) (x : Traced α) : Traced α where
  read := withChild e x.read
  passed r :=
    if r.cursor.maxDepth ≤ r.cursor.depth then [r]
    else r :: (x.passed (r.inside e) ++
      [(x.read (r.inside e)).2.leave, (withChild e x.read r).2])
  asked _ := []

/-- Tries to read. What a failed attempt asked for is not asked for. -/
def attempt (x : Traced α) : Traced α where
  read := Schema.attempt x.read
  passed r := x.passed r ++ [(Schema.attempt x.read r).2]
  asked r :=
    match (x.read r).1 with
    | .ok _ => x.asked r
    | .error _ => []

instance : Monad Traced where
  pure a := look (pure a)
  bind x f := x.andThen fun
    | .ok a => f a
    | .error e => look (Fallible.fail e)

/-- Reads one thing after the other. -/
def each (x : γ → Traced α) : List γ → Traced (List α)
  | [] => return []
  | c :: cs => do
    let value ← x c
    return value :: (← each x cs)

/-! ### Forgetting the record -/

@[simp] theorem read_pure (a : α) : (pure a : Traced α).read = pure a := rfl

@[simp] theorem read_bind (x : Traced α) (f : α → Traced β) :
    (x >>= f).read = x.read >>= fun a => (f a).read := by
  funext r
  show (match (x.read r).1 with
    | .ok a => f a
    | .error e => look (Fallible.fail e)).read (x.read r).2 = (x.read >>= _) r
  rcases hx : x.read r with ⟨_ | a, r'⟩
  case error => rw [Fallible.bind_of_error hx]; rfl
  case ok => rw [Fallible.bind_of_ok hx]

@[simp] theorem read_map (f : α → β) (x : Traced α) : (f <$> x).read = f <$> x.read := by
  show (x >>= fun a => pure (f a)).read = _
  rw [read_bind, map_eq_pure_bind]
  rfl

@[simp] theorem read_each (x : γ → Traced α) (cs : List γ) :
    (each x cs).read = cs.mapM fun c => (x c).read := by
  induction cs with
  | nil => rfl
  | cons c cs ih => simp [each, ih]

@[simp] theorem read_inside (e : Element) (x : Traced α) :
    (inside e x).read = withChild e x.read := rfl

@[simp] theorem read_attempt (x : Traced α) : x.attempt.read = Schema.attempt x.read := rfl

/-- A reader that changes nothing is a look at the reading. -/
theorem read_look {read : ReadM α} (h : ∀ r, (read r).2 = r) : (look read).read = read := by
  funext r
  exact Prod.ext rfl (h r).symm

@[simp] theorem read_look_view (f : Reading → α) :
    (look (Fallible.view f)).read = Fallible.view f := rfl

@[simp] theorem read_look_ofExcept (result : Except Error α) :
    (look (Fallible.ofExcept result)).read = Fallible.ofExcept result := rfl

@[simp] theorem read_look_finishElement : (look finishElement).read = finishElement := by
  apply read_look
  intro r
  unfold finishElement
  split <;> rfl

@[simp] theorem read_look_checkMin (name : String) (min found : Nat) :
    (look (checkMin name min found)).read = checkMin name min found := by
  apply read_look
  intro r
  unfold checkMin
  split <;> rfl

/-! ### Members -/

/-- Asks for a child: the next one, if it has the name. -/
def next? (name : String) : Traced (Option Element) :=
  ask name fun r => r.cursor.peek?.filter (·.name == name)

/-- Asks for any number of children: all next ones that have the name. -/
def all (name : String) : Traced (List Element) :=
  ask name fun r => r.cursor.remaining.takeWhile (·.name == name)

/-- Asks for a child that has to be there. -/
def require (name : String) : Traced Element := do
  match ← next? name with
  | some child => return child
  | none => look (missing name)

@[simp] theorem read_next? (name : String) : (next? name).read = nextNamed? name := rfl

@[simp] theorem read_all (name : String) : (all name).read = allNamed name := rfl

@[simp] theorem read_require (name : String) : (require name).read = requireNamed name := by
  unfold require requireNamed
  rw [read_bind, read_next?]
  refine congrArg _ (funext fun child? => ?_)
  cases child? <;> rfl

/-- Reads a child that has to be there. -/
def required (name : String) (x : Traced α) : Traced α := do
  inside (← require name) x

/-- Reads a child that may be missing. -/
def optional (name : String) (f : α → β) (b : β) (x : Traced α) : Traced β := do
  match ← next? name with
  | some e => f <$> inside e x
  | none => return b

/-- Reads all next children that have a name. -/
def many (name : String) (min : Nat) (x : Traced α) : Traced (List α) := do
  let values ← each (inside · x) (← all name)
  look (checkMin name min values.length)
  return values

@[simp] theorem read_required (name : String) (x : Traced α) :
    (required name x).read = (do withChild (← requireNamed name) x.read) := by
  simp [required]

@[simp] theorem read_optional (name : String) (f : α → β) (b : β) (x : Traced α) :
    (optional name f b x).read = do
      match ← nextNamed? name with
      | some e => f <$> withChild e x.read
      | none => return b := by
  unfold optional
  rw [read_bind, read_next?]
  refine congrArg _ (funext fun child? => ?_)
  cases child? with
  | none => rfl
  | some e => exact read_map f (inside e x)

@[simp] theorem read_many (name : String) (min : Nat) (x : Traced α) :
    (many name min x).read = do
      let values ← (← allNamed name).mapM fun e => withChild e x.read
      checkMin name min values.length
      return values := by
  simp [many]

/-- Reads a scalar that is the text of the element. -/
def value (s : Scalar) : Traced s.Carrier := do
  let text ← look (Fallible.view (·.current.text))
  let value ← look (Fallible.ofExcept (s.decode text))
  look finishElement
  return value

@[simp] theorem read_value (s : Scalar) : (value s).read = readValue s := by
  simp [value, readValue]

section Members

variable (child : (t : Content) → Traced t.Carrier)

/-- Reads a member. One without children is a look at the element. -/
def field : (f : Field) → Traced f.Carrier
  | .valueElement name s => required name (value s)
  | .optionalValueElement name s => optional name some none (value s)
  | .valueElements name min s => many name min (value s)
  | .flag name => optional name (fun _ => true) false (look finishElement)
  | .element name t => required name (child t)
  | .optionalElement name t => optional name some none (child t)
  | .elements name min t => many name min (child t)
  | f => look (readField (fun t => (child t).read) f)

/-- Reads members in order. -/
def tuple : (ms : List Member) → Traced (Tuple ms)
  | [] => return ()
  | m :: ms => do
    let value ← field child m.field
    return (value, ← tuple ms)

/-- Reads the members of a group. -/
def group (g : Group) : Traced g.Carrier := do
  return g.record.ofTuple (← tuple child g.record.members)

/-- Tries to read an alternative. -/
def alternative : (a : Alternative) → Traced a.Carrier
  | .group _ g => attempt (group child g)
  | .element _ tag t => attempt (required tag (child t))

/-- Reads the first alternative that can be read. -/
def first (choice : String) : (as : List Alternative) → Traced (AnyOf as)
  | [] => look (exhausted choice)
  | a :: as => (alternative child a).andThen fun
    | .ok value => return .inl value
    | .error e => if e.isFatal then look (Fallible.fail e) else Sum.inr <$> first choice as

/-- Reads a choice. -/
def choice (c : Choice) : Traced c.Carrier := do
  return c.variants.ofAny (← first child c.name c.variants.alternatives)

/-- Reads something over and over until it cannot be read, or takes no element, or no element
is left. -/
def whileTaken (x : Traced α) : (most : Nat) → Traced (List α)
  | 0 => return []
  | n + 1 => depending fun r =>
    if r.cursor.remaining.isEmpty then return []
    else x.andThen fun
      | .ok value => depending fun r' =>
        if r'.consumed = r.consumed then return [value] else (value :: ·) <$> whileTaken x n
      | .error e => if e.isFatal then look (Fallible.fail e) else return []

/-- Reads a choice repeatedly. -/
def choices (c : Choice) (min : Nat) : Traced (List c.Carrier) := do
  let remaining ← look (Fallible.view (·.cursor.remaining))
  let values ← match c.tags? with
    | some tags => each (fun _ => choice child c) (remaining.takeWhile (tags.contains ·.name))
    | none => whileTaken (choice child c) remaining.length
  look (checkMin c.name min values.length)
  return values

/-- Reads the members of the element, without a look at what is left over. -/
def content : (t : Content) → Traced t.Carrier
  | .group g => group child g
  | .choice c => choice child c
  | .series s => do
    let values ← tuple child s.record.members
    let entries ← choices child s.record.choice s.record.min
    return s.record.ofParts (values, entries)

end Members

/-- Reads an element that is on the first of a number of levels. -/
def levels : (levels : Nat) → (t : Content) → Traced t.Carrier
  | 0, _ => look fun r => (.error (.depthExceeded r.cursor.maxDepth), r)
  | n + 1, t => do
    let value ← content (levels n) t
    look finishElement
    return value

/-! ### The readers of the schema -/

/-- A reader that leaves the reading as it is. -/
def Still (read : ReadM α) : Prop :=
  ∀ r, (read r).2 = r

namespace Still

theorem pure (a : α) : Still (pure a) :=
  fun _ => rfl

theorem ofExcept (result : Except Error α) : Still (Fallible.ofExcept result) :=
  fun _ => rfl

theorem fail (e : Error) : Still (Fallible.fail e : ReadM α) :=
  fun _ => rfl

theorem view (f : Reading → α) : Still (Fallible.view f) :=
  fun _ => rfl

theorem bind {read : ReadM α} {next : α → ReadM β} (h : Still read) (h' : ∀ a, Still (next a)) :
    Still (read >>= next) := by
  intro r
  have hr := h r
  rcases hread : read r with ⟨_ | a, r'⟩
  · rw [Fallible.bind_of_error hread]
    rw [hread] at hr
    exact hr
  · rw [Fallible.bind_of_ok hread]
    rw [hread] at hr
    exact (h' a r').trans hr

theorem map {read : ReadM α} (f : α → β) (h : Still read) : Still (f <$> read) := by
  rw [map_eq_pure_bind]
  exact h.bind fun a => .pure (f a)

end Still

/-- A member without children is read without a step. -/
theorem readField_still {child : (t : Content) → ReadM t.Carrier} {f : Field}
    (hf : f.childName? = none) : Still (readField child f) := by
  cases f with
  | attr name s =>
    refine (Still.view _).bind fun e => ?_
    cases e.attribute? name with
    | some text => exact .ofExcept _
    | none => exact .fail _
  | optionalAttr name s =>
    refine (Still.view _).bind fun text? => ?_
    cases text? with
    | some text => exact (Still.ofExcept _).map some
    | none => exact .pure none
  | constant name value =>
    refine (Still.view _).bind fun e => ?_
    cases e.attribute? name with
    | some found =>
      by_cases hfound : found = value
      · simp only [if_pos hfound]
        exact .pure ()
      · simp only [if_neg hfound]
        exact .fail _
    | none => exact .fail _
  | text s => exact (Still.view _).bind fun text => .ofExcept _
  | optionalText s =>
    refine (Still.view _).bind fun text => ?_
    by_cases htext : text.isEmpty = true
    · simp only [if_pos htext]
      exact .pure none
    · simp only [if_neg htext]
      exact (Still.ofExcept _).map some
  | noContent =>
    intro r
    unfold readField readNoContent
    dsimp only
    split <;> rfl
  | _ => cases hf

section Members

variable {child : (t : Content) → Traced t.Carrier} {childRead : (t : Content) → ReadM t.Carrier}
  (h : ∀ t, (child t).read = childRead t)

include h

theorem read_field (f : Field) : (field child f).read = readField childRead f := by
  obtain rfl : (fun t => (child t).read) = childRead := funext h
  cases f with
  | valueElement name s => simp [field, readField]
  | valueElements name min s => simp [field, readField]
  | element name t => simp [field, readField]
  | elements name min t => simp [field, readField]
  | optionalValueElement name s =>
    refine (read_optional name some none (value s)).trans ?_
    rw [read_value]
    rfl
  | flag name =>
    refine (read_optional name (fun _ => true) false (look finishElement)).trans ?_
    rw [read_look_finishElement]
    rfl
  | optionalElement name t => exact read_optional name some none (child t)
  | attr | optionalAttr | constant | text | optionalText | noContent =>
    exact read_look (readField_still rfl)

theorem read_tuple (ms : List Member) : (tuple child ms).read = readTuple childRead ms := by
  induction ms with
  | nil => rfl
  | cons m ms ih => simp [tuple, readTuple, read_field h, ih]

theorem read_group (g : Group) : (group child g).read = readGroup childRead g := by
  simp [group, readGroup, read_tuple h]

theorem read_alternative (a : Alternative) :
    (alternative child a).read = readAlternative childRead a := by
  cases a with
  | group name g => simp [alternative, readAlternative, read_group h]
  | element name tag t => simp [alternative, readAlternative, h]

theorem read_first (choice : String) (as : List Alternative) :
    (first child choice as).read = readFirst childRead choice as := by
  induction as with
  | nil => rfl
  | cons a as ih =>
    funext r
    unfold first readFirst andThen
    rw [← read_alternative h a]
    dsimp only
    rcases (alternative child a).read r with ⟨e | value, r'⟩
    case ok => rfl
    case error =>
      by_cases hfatal : e.isFatal = true
      · simp only [if_pos hfatal]
        rfl
      · simp only [if_neg hfatal, read_map, ih]

theorem read_choice (c : Choice) : (choice child c).read = readChoice childRead c := by
  simp [choice, readChoice, read_first h]

omit h in
theorem read_whileTaken (x : Traced α) (most : Nat) :
    (whileTaken x most).read = readWhileTaken x.read most := by
  induction most with
  | zero => rfl
  | succ n ih =>
    funext r
    unfold whileTaken readWhileTaken depending
    dsimp only
    by_cases hempty : r.cursor.remaining.isEmpty = true
    · simp only [if_pos hempty]
      rfl
    · simp only [if_neg hempty, andThen]
      rcases x.read r with ⟨e | value, r'⟩
      case ok =>
        by_cases hstay : r'.consumed = r.consumed
        · simp only [if_pos hstay]
          rfl
        · simp only [if_neg hstay, read_map, ih]
      case error =>
        by_cases hfatal : e.isFatal = true
        · simp only [if_pos hfatal]
          rfl
        · simp only [if_neg hfatal]
          rfl

theorem read_choices (c : Choice) (min : Nat) :
    (choices child c min).read = readChoices childRead c min := by
  unfold choices readChoices
  cases c.tags? <;> simp [read_choice h, read_whileTaken]

theorem read_content (t : Content) : (content child t).read = readContent childRead t := by
  cases t with
  | group g => exact read_group h g
  | choice c => exact read_choice h c
  | series s => simp [content, readContent, read_tuple h, read_choices h]

end Members

/-- By induction on the levels. -/
theorem read_levels (n : Nat) (t : Content) : (levels n t).read = readLevels n t := by
  induction n generalizing t with
  | zero => rfl
  | succ n ih => simp [levels, readLevels, read_content ih]

end Traced

/-! ### Calls -/

/-- The calls that take a reading on in the element it stands on. -/
inductive Call where
  /-- A member is read. -/
  | member (f : Field)
  /-- A choice is read. -/
  | choice (c : Choice)
  /-- A choice is read repeatedly. -/
  | choices (c : Choice) (min : Nat)
  /-- The members of a type are tried. -/
  | tryMembers (t : Content)
  /-- The next child is tried as an element with a tag. -/
  | tryElement (t : Content) (tag : String)
  /-- The element is read as a whole. -/
  | parse (t : Content)
  deriving DecidableEq

namespace Call

/-- What a call comes to. -/
@[reducible] def Result : Call → Type
  | member f => f.Carrier
  | choice c => c.Carrier
  | choices c _ => List c.Carrier
  | tryMembers t => t.Carrier
  | tryElement t _ => t.Carrier
  | parse t => t.Carrier × Nat

/-- Makes a call. -/
def read : (call : Call) → ReadM call.Result
  | member f => f.read
  | choice c => c.read
  | choices c min => c.readMany min
  | tryMembers t => t.tryMembers
  | tryElement t tag => t.tryElement tag
  | parse t => t.read

/-- Makes a call with a trace, on the levels that are left below the element. -/
def traceOn (n : Nat) : (call : Call) → Traced call.Result
  | member f => .field (.levels n) f
  | choice c => .choice (.levels n) c
  | choices c min => .choices (.levels n) c min
  | tryMembers t => .attempt (.content (.levels n) t)
  | tryElement t tag => .attempt (.required tag (.levels n t))
  | parse t => do
    let before ← .look (Fallible.view (·.consumed))
    let value ← .levels (n + 1) t
    let after ← .look (Fallible.view (·.consumed))
    return (value, after - before)

/-- Makes a call with a trace. -/
def trace (call : Call) : Traced call.Result :=
  .depending fun r => call.traceOn r.levelsBelow

/-- **The trace is that of the call.** -/
theorem read_trace (call : Call) : call.trace.read = call.read := by
  have hchild (n : Nat) (t : Content) := Traced.read_levels n t
  funext r
  show (call.traceOn r.levelsBelow).read r = call.read r
  cases call with
  | member f => exact congrFun (Traced.read_field (hchild _) f) r
  | choice c => exact congrFun (Traced.read_choice (hchild _) c) r
  | choices c min => exact congrFun (Traced.read_choices (hchild _) c min) r
  | tryMembers t =>
    simp only [traceOn, Traced.read_attempt, Traced.read_content (hchild _)]
    rfl
  | tryElement t tag =>
    simp only [traceOn, Traced.read_attempt, Traced.read_required, hchild]
    rfl
  | parse t =>
    simp only [traceOn, Traced.read_bind, Traced.read_look_view, hchild]
    show _ = t.read r
    unfold Content.read
    rcases hread : readLevels (r.levelsBelow + 1) t r with ⟨e | value, r'⟩
    case error => exact (Fallible.bind_of_ok rfl).trans (Fallible.bind_of_error hread)
    case ok => exact (Fallible.bind_of_ok rfl).trans (Fallible.bind_of_ok hread)

end Call

end GuestXml.Schema
