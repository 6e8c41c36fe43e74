import GuestXml.Proofs.Xml.Tree
import GuestXml.Schema.Writer

/-!
# What a writer emits

A writer adds to the element it is given, and what it adds does not depend on what is there
already. A fragment holds the attributes and nodes that are added; an emission computes the
fragment of a value, if the value can be written. The emissions go along with the writers,
and a writer does what its emission says (`writeLevels_emits`).
-/

namespace GuestXml.Schema

open Xml (Element Node)

/-! ### Fragments -/

/-- Attributes and nodes that are added to an element. -/
structure Fragment where
  attributes : List (String × String) := []
  children : List Node := []
  deriving DecidableEq

namespace Fragment

instance : Append Fragment where
  append m m' :=
    { attributes := m.attributes ++ m'.attributes, children := m.children ++ m'.children }

/-- The child elements that are added. -/
def elements (m : Fragment) : List Element :=
  m.children.filterMap Node.element?

/-- The text that is added. -/
def text (m : Fragment) : String :=
  String.join (m.children.filterMap Node.text?)

/-- Adds a fragment to an element. -/
def addTo (m : Fragment) (e : Element) : Element :=
  { e with
    attributes := m.attributes.foldl (fun as a => Element.assign a.1 a.2 as) e.attributes
    children := e.children ++ m.children }

/-- The element that has nothing but the fragment. -/
def toElement (m : Fragment) (name : String) : Element :=
  m.addTo { name }

@[simp] theorem elements_empty : ({} : Fragment).elements = [] := rfl

@[simp] theorem text_empty : ({} : Fragment).text = "" := rfl

@[simp] theorem attributes_append (m m' : Fragment) :
    (m ++ m').attributes = m.attributes ++ m'.attributes := rfl

@[simp] theorem children_append (m m' : Fragment) :
    (m ++ m').children = m.children ++ m'.children := rfl

@[simp] theorem elements_append (m m' : Fragment) :
    (m ++ m').elements = m.elements ++ m'.elements := by
  simp [elements]

@[simp] theorem text_append (m m' : Fragment) : (m ++ m').text = m.text ++ m'.text := by
  simp [text, String.join_append]

theorem append_empty (m : Fragment) : m ++ ({} : Fragment) = m := by
  obtain ⟨attributes, children⟩ := m
  show Fragment.mk (attributes ++ []) (children ++ []) = _
  simp

theorem addTo_append (m m' : Fragment) (e : Element) :
    (m ++ m').addTo e = m'.addTo (m.addTo e) := by
  simp [addTo, List.foldl_append, List.append_assoc]

theorem addTo_empty (e : Element) : ({} : Fragment).addTo e = e := by
  obtain ⟨name, attributes, children⟩ := e
  simp [addTo]

end Fragment

/-! ### Emissions -/

/-- The fragments of several values, one behind the other. -/
def emitAll {α : Type} (emit : α → Option Fragment) : List α → Option Fragment
  | [] => some {}
  | v :: vs => do return (← emit v) ++ (← emitAll emit vs)

theorem emitAll_singleton {α : Type} (emit : α → Option Fragment) (v : α) :
    emitAll emit [v] = emit v := by
  show (do return (← emit v) ++ (← some ({} : Fragment))) = emit v
  cases emit v with
  | none => rfl
  | some m => exact congrArg some m.append_empty

/-- The fragment of a scalar as an attribute. -/
def emitAttr (name : String) (s : Scalar) (v : s.Carrier) : Option Fragment :=
  (s.encode v).toOption.map fun text => { attributes := [(name, text)] }

/-- The fragment of a scalar as text. -/
def emitText (s : Scalar) (v : s.Carrier) : Option Fragment :=
  (s.encode v).toOption.map fun text =>
    if text.isEmpty then {} else { children := [.text text] }

/-- The fragment that is a child element. -/
def emitChild (name : String) (content : Option Fragment) : Option Fragment :=
  content.map fun m => { children := [.element (m.toElement name)] }

/-- No fragment, unless a list has enough members. -/
def emitIf (enough : Bool) (m? : Option Fragment) : Option Fragment :=
  if enough then m? else none

section Members

-- The fragment of the content of a child element.
variable (child : (t : Content) → t.Carrier → Option Fragment)

/-- The fragment of a member. -/
def emitField : (f : Field) → f.Carrier → Option Fragment
  | .attr name s, v => emitAttr name s v
  | .optionalAttr name s, v => emitAll (emitAttr name s) v.toList
  | .constant name value, _ => some { attributes := [(name, value)] }
  | .text s, v => emitText s v
  | .optionalText s, v => emitAll (emitText s) v.toList
  | .valueElement name s, v => emitChild name (emitText s v)
  | .optionalValueElement name s, v => emitAll (fun w => emitChild name (emitText s w)) v.toList
  | .valueElements name min s, vs =>
    emitIf (min ≤ vs.length) (emitAll (fun w => emitChild name (emitText s w)) vs)
  | .noContent, _ => some {}
  | .flag name, v => if v then emitChild name (some {}) else some {}
  | .element name t, v => emitChild name (child t v)
  | .optionalElement name t, v => emitAll (fun w => emitChild name (child t w)) v.toList
  | .elements name min t, vs =>
    emitIf (min ≤ vs.length) (emitAll (fun w => emitChild name (child t w)) vs)

/-- The fragment of members in order. -/
def emitTuple : (ms : List Member) → Tuple ms → Option Fragment
  | [], _ => some {}
  | m :: ms, (v, vs) => do return (← emitField child m.field v) ++ (← emitTuple ms vs)

/-- The fragment of a group. -/
def emitGroup (g : Group) (v : g.Carrier) : Option Fragment :=
  emitTuple child g.record.members (g.record.toTuple v)

/-- The fragment of an alternative. -/
def emitAlternative : (a : Alternative) → a.Carrier → Option Fragment
  | .group _ g, v => emitGroup child g v
  | .element _ tag t, v => emitChild tag (child t v)

/-- The fragment of the alternative that a value belongs to. -/
def emitAny : (as : List Alternative) → AnyOf as → Option Fragment
  | a :: _, .inl v => emitAlternative child a v
  | _ :: as, .inr v => emitAny as v

/-- The fragment of a choice. -/
def emitChoice (c : Choice) (v : c.Carrier) : Option Fragment :=
  emitAny child c.variants.alternatives (c.variants.toAny v)

/-- The fragment of any number of choices. -/
def emitChoices (c : Choice) (min : Nat) (vs : List c.Carrier) : Option Fragment :=
  emitIf (min ≤ vs.length) (emitAll (emitChoice child c) vs)

/-- The fragment of what a content type describes. -/
def emitContent : (t : Content) → t.Carrier → Option Fragment
  | .group g, v => emitGroup child g v
  | .choice c, v => emitChoice child c v
  | .series s, v => do
    return (← emitTuple child s.record.members (s.record.toParts v).1) ++
      (← emitChoices child s.record.choice s.record.min (s.record.toParts v).2)

end Members

/-- The fragment of a value that takes a number of levels at most. -/
def emitLevels : (levels : Nat) → (t : Content) → t.Carrier → Option Fragment
  | 0, _, _ => none
  | n + 1, t, v => emitContent (emitLevels n) t v

/-- The fragment of a value. -/
def Content.emit (t : Content) (v : t.Carrier) : Option Fragment :=
  emitLevels (t.levels v) t v

/-! ### Writers do what emissions say -/

/-- The writer adds the fragment to whatever element it is given, and fails if there is
none. -/
structure Emits (write : WriteM Unit) (m? : Option Fragment) : Prop where
  ok : ∀ m, m? = some m → ∀ e, write e = (.ok (), m.addTo e)
  error : m? = none → ∀ e, ∃ err e', write e = (.error err, e')

namespace Emits

variable {write write' : WriteM Unit} {m? m'? : Option Fragment}

theorem of_none (h : ∀ e, ∃ err e', write e = (.error err, e')) : Emits write none :=
  ⟨fun _ hm => (nomatch hm), fun _ => h⟩

theorem of_some {m : Fragment} (h : ∀ e, write e = (.ok (), m.addTo e)) :
    Emits write (some m) :=
  ⟨fun _ hm => Option.some.inj hm ▸ h, fun hm => (nomatch hm)⟩

theorem pure : Emits (pure ()) (some {}) :=
  .of_some fun e => by
    rw [Fragment.addTo_empty]
    rfl

theorem bind (h : Emits write m?) (h' : Emits write' m'?) :
    Emits (do write; write') (do return (← m?) ++ (← m'?)) := by
  cases m? with
  | none =>
    refine .of_none fun e => ?_
    obtain ⟨err, e', he'⟩ := h.error rfl e
    exact ⟨err, e', Fallible.bind_of_error he'⟩
  | some m =>
    have hrun (e : Element) : (do write; write' : WriteM Unit) e = write' (m.addTo e) :=
      Fallible.bind_of_ok (h.ok m rfl e)
    cases m'? with
    | none =>
      refine .of_none fun e => ?_
      rw [hrun]
      exact h'.error rfl _
    | some m' =>
      refine .of_some (m := m ++ m') fun e => ?_
      rw [hrun, Fragment.addTo_append]
      exact h'.ok m' rfl _

theorem list {α : Type} {write : α → WriteM Unit} {emit : α → Option Fragment}
    (h : ∀ v, Emits (write v) (emit v)) (vs : List α) :
    Emits (vs.forM write) (emitAll emit vs) := by
  induction vs with
  | nil => exact .pure
  | cons v vs ih => exact (h v).bind ih

theorem option {α : Type} {write : α → WriteM Unit} {emit : α → Option Fragment}
    (h : ∀ v, Emits (write v) (emit v)) (v? : Option α) :
    Emits (v?.forM write) (emitAll emit v?.toList) := by
  cases v? with
  | none => exact .pure
  | some v =>
    show Emits (write v) (emitAll emit [v])
    rw [emitAll_singleton]
    exact h v

theorem enough {name : String} {min found : Nat} (h : Emits write m?) :
    Emits (do checkLength name min found; write) (emitIf (min ≤ found) m?) := by
  unfold emitIf
  by_cases hfew : found < min
  · have hcheck (e : Element) : checkLength name min found e =
        (.error (.cardinality e.name name min found), e) := if_pos hfew
    rw [decide_eq_false (Nat.not_le.mpr hfew)]
    exact .of_none fun e => ⟨_, _, Fallible.bind_of_error (hcheck e)⟩
  · have hcheck (e : Element) : checkLength name min found e = (.ok (), e) := if_neg hfew
    have hrun : (do checkLength name min found; write : WriteM Unit) = write :=
      funext fun e => Fallible.bind_of_ok (hcheck e)
    rw [decide_eq_true (Nat.not_lt.mp hfew), if_pos rfl, hrun]
    exact h

theorem child {name : String} (h : Emits write m?) :
    Emits (pushChild name write) (emitChild name m?) := by
  cases m? with
  | none =>
    refine .of_none fun e => ?_
    obtain ⟨err, e', he'⟩ := h.error rfl { name }
    exact ⟨err, e, by simp only [pushChild, he']⟩
  | some m =>
    refine .of_some fun e => ?_
    simp only [pushChild, h.ok m rfl]
    rfl

theorem scalar {s : Scalar} {v : s.Carrier} {change : String → Element → Element}
    {emit : String → Fragment} (h : ∀ text e, change text e = (emit text).addTo e) :
    Emits (do let text ← Fallible.ofExcept (s.encode v); Fallible.update (change text))
      ((s.encode v).toOption.map emit) := by
  cases s.encode v with
  | error err => exact .of_none fun e => ⟨err, e, rfl⟩
  | ok text =>
    refine .of_some fun e => ?_
    show (Except.ok (), change text e) = _
    rw [h]

end Emits

section Members

variable {child : (t : Content) → t.Carrier → WriteM Unit}
  {emit : (t : Content) → t.Carrier → Option Fragment}

theorem writeAttr_emits (name : String) (s : Scalar) (v : s.Carrier) :
    Emits (writeAttr name s v) (emitAttr name s v) :=
  .scalar fun text e => by simp [Fragment.addTo, Element.setAttribute]

theorem writeText_emits (s : Scalar) (v : s.Carrier) :
    Emits (writeText s v) (emitText s v) := by
  refine .scalar fun text e => ?_
  by_cases hempty : text.isEmpty = true
  · simp only [if_pos hempty, Fragment.addTo_empty]
  · simp only [if_neg hempty]
    rfl

theorem writeValueElement_emits (name : String) (s : Scalar) (v : s.Carrier) :
    Emits (writeValueElement name s v) (emitChild name (emitText s v)) :=
  (writeText_emits s v).child

theorem writeField_emits (h : ∀ t v, Emits (child t v) (emit t v)) :
    (f : Field) → (v : f.Carrier) → Emits (writeField child f v) (emitField emit f v)
  | .attr name s, v => writeAttr_emits name s v
  | .optionalAttr name s, v => .option (writeAttr_emits name s) v
  | .constant name value, _ =>
    .of_some fun e => by
      show (Except.ok (), e.setAttribute name value) = _
      simp [Fragment.addTo, Element.setAttribute]
  | .text s, v => writeText_emits s v
  | .optionalText s, v => .option (writeText_emits s) v
  | .valueElement name s, v => writeValueElement_emits name s v
  | .optionalValueElement name s, v => .option (writeValueElement_emits name s) v
  | .valueElements name _ s, vs => (Emits.list (writeValueElement_emits name s) vs).enough
  | .noContent, _ => .pure
  | .flag name, true => Emits.pure.child
  | .flag _, false => .pure
  | .element _ t, v => (h t v).child
  | .optionalElement _ t, v => .option (fun w => (h t w).child) v
  | .elements _ _ t, vs => (Emits.list (fun w => (h t w).child) vs).enough

theorem writeTuple_emits (h : ∀ t v, Emits (child t v) (emit t v)) :
    (ms : List Member) → (vs : Tuple ms) → Emits (writeTuple child ms vs) (emitTuple emit ms vs)
  | [], _ => .pure
  | m :: ms, (v, vs) => (writeField_emits h m.field v).bind (writeTuple_emits h ms vs)

theorem writeGroup_emits (h : ∀ t v, Emits (child t v) (emit t v)) (g : Group) (v : g.Carrier) :
    Emits (writeGroup child g v) (emitGroup emit g v) :=
  writeTuple_emits h g.record.members (g.record.toTuple v)

theorem writeAny_emits (h : ∀ t v, Emits (child t v) (emit t v)) :
    (as : List Alternative) → (v : AnyOf as) → Emits (writeAny child as v) (emitAny emit as v)
  | .group _ g :: _, .inl v => writeGroup_emits h g v
  | .element _ _ t :: _, .inl v => (h t v).child
  | _ :: as, .inr v => writeAny_emits h as v

theorem writeChoice_emits (h : ∀ t v, Emits (child t v) (emit t v)) (c : Choice)
    (v : c.Carrier) : Emits (writeChoice child c v) (emitChoice emit c v) :=
  writeAny_emits h c.variants.alternatives (c.variants.toAny v)

theorem writeContent_emits (h : ∀ t v, Emits (child t v) (emit t v)) :
    (t : Content) → (v : t.Carrier) → Emits (writeContent child t v) (emitContent emit t v)
  | .group g, v => writeGroup_emits h g v
  | .choice c, v => writeChoice_emits h c v
  | .series s, v =>
    (writeTuple_emits h s.record.members (s.record.toParts v).1).bind
      (Emits.list (writeChoice_emits h s.record.choice) (s.record.toParts v).2).enough

end Members

theorem writeLevels_emits (levels : Nat) (t : Content) (v : t.Carrier) :
    Emits (writeLevels levels t v) (emitLevels levels t v) := by
  induction levels generalizing t with
  | zero => exact .of_none fun e => ⟨.depthExceeded 0, e, rfl⟩
  | succ n ih => exact writeContent_emits (fun t' v' => ih t' v') t v

/-- A value is written if it has an emission, which is then added to the element. -/
theorem Content.writeInto_eq_ok_iff {t : Content} {v : t.Carrier} {e e' : Element} :
    t.writeInto v e = .ok e' ↔
      ∃ m, t.emit v = some m ∧ e' = e.append (m.toElement e.name) := by
  have hemits : Emits (t.write v) (t.emit v) := writeLevels_emits (t.levels v) t v
  unfold Content.writeInto
  cases hemit : t.emit v with
  | none =>
    obtain ⟨err, content, hrun⟩ := hemits.error hemit { name := e.name }
    simp [hrun]
  | some m =>
    simp only [hemits.ok m hemit, Except.ok.injEq, Option.some.injEq, exists_eq_left']
    exact eq_comm

end GuestXml.Schema
