import GuestXml.Proofs.Document.RoundTrip
import GuestXml.Proofs.Xml.Merging

/-!
# Saving into an element that has content

Saving changes an element in place. At each level the content is written into a new element
first, and merged into the one it is meant for when it is complete (`viaScratch`); members
are written one by one, so without this a failure would leave the members before it behind.
Step by step this is `Content.saveInto`, and it does what `Content.save` says.

The step is that merging a new element adds what the writer would have added in place
(`viaScratch_emits`), so it makes no difference inside a child element, where nothing is left
behind anyway (`pushChild_viaScratch`). From there on all levels are written alike
(`generateLevels_eq`), and what is added does not depend on the element it is added to.
-/

namespace GuestXml.Schema

open Xml (Element)

/-- Writes into a new element of the same name, and merges it into the element if that
succeeds. -/
def viaScratch (write : WriteM Unit) : WriteM Unit := fun e =>
  match write { name := e.name } with
  | (.ok _, scratch) => (.ok (), e.append scratch)
  | (.error err, _) => (.error err, e)

/-- Writes a value that takes a number of levels at most, each by way of a new element. -/
def generateLevels : (levels : Nat) → (t : Content) → t.Carrier → WriteM Unit
  | 0, _, _ => Fallible.fail (.depthExceeded 0)
  | n + 1, t, v => viaScratch (writeContent (generateLevels n) t v)

/-- Writes a value into the current element, or nothing. -/
def Content.generate (t : Content) (v : t.Carrier) : WriteM Unit :=
  generateLevels (t.levels v) t v

/-- Saves a value into the current element: as a new child if the type has a tag, and into
the element itself otherwise. -/
def Content.saveInto (t : Content) (v : t.Carrier) : WriteM Unit :=
  match t.tag? with
  | some tag => pushChild tag (t.generate v)
  | none => t.generate v

/-! ### New elements -/

section Scratch

variable {write : WriteM Unit} {m? : Option Fragment}

/-- Merging a new element adds what would have been added in place. -/
theorem viaScratch_emits (h : Emits write m?) (hnodup : ∀ m ∈ m?, (m.attributes.map (·.1)).Nodup) :
    Emits (viaScratch write) m? := by
  cases m? with
  | none =>
    refine .of_none fun e => ?_
    obtain ⟨err, e', hrun⟩ := h.error rfl { name := e.name }
    exact ⟨err, e, by simp only [viaScratch, hrun]⟩
  | some m =>
    refine .of_some fun e => ?_
    have happend := Fragment.append_toElement_eq_addTo (hnodup m rfl) e e.name
    simp only [viaScratch, h.ok m rfl]
    rw [← happend]
    rfl

/-- In a child element that is discarded on failure it makes no difference how the content
is written. -/
theorem pushChild_viaScratch (h : Emits write m?)
    (hnodup : ∀ m ∈ m?, (m.attributes.map (·.1)).Nodup) (name : String) :
    pushChild name (viaScratch write) = pushChild name write := by
  funext e
  cases m? with
  | none =>
    obtain ⟨err, e', hrun⟩ := h.error rfl { name }
    simp only [pushChild, viaScratch, hrun]
  | some m =>
    have hrun := h.ok m rfl { name }
    have hscratch := (viaScratch_emits h hnodup).ok m rfl { name }
    simp only [pushChild, hrun, hscratch]

end Scratch

/-! ### Writers that treat child elements alike -/

section Congruence

variable {child child' : (t : Content) → t.Carrier → WriteM Unit}

/-- Two ways to write content come to the same child elements. -/
def SameChildren (child child' : (t : Content) → t.Carrier → WriteM Unit) : Prop :=
  ∀ (t : Content) (v : t.Carrier) (name : String),
    pushChild name (child t v) = pushChild name (child' t v)

theorem writeField_congr (h : SameChildren child child') (f : Field) (v : f.Carrier) :
    writeField child f v = writeField child' f v := by
  unfold SameChildren at h
  cases f with
  | element name t => exact h t v name
  | optionalElement name t => simp only [writeField, h]
  | elements name min t => simp only [writeField, h]
  | _ => rfl

theorem writeTuple_congr (h : SameChildren child child') (ms : List Member) (vs : Tuple ms) :
    writeTuple child ms vs = writeTuple child' ms vs := by
  induction ms with
  | nil => rfl
  | cons m ms ih =>
    obtain ⟨v, vs⟩ := vs
    rw [writeTuple, writeTuple, writeField_congr h, ih]

theorem writeAny_congr (h : SameChildren child child') (as : List Alternative) (v : AnyOf as) :
    writeAny child as v = writeAny child' as v := by
  induction as with
  | nil => exact nomatch v
  | cons a as ih =>
    cases v with
    | inr w => exact ih w
    | inl w =>
      cases a with
      | group name g => exact writeTuple_congr h g.record.members (g.record.toTuple w)
      | element name tag t => exact h t w tag

theorem writeChoice_congr (h : SameChildren child child') (c : Choice) :
    writeChoice child c = writeChoice child' c :=
  funext fun v => writeAny_congr h c.variants.alternatives (c.variants.toAny v)

theorem writeContent_congr (h : SameChildren child child') (t : Content) (v : t.Carrier) :
    writeContent child t v = writeContent child' t v := by
  cases t with
  | group g => exact writeTuple_congr h g.record.members (g.record.toTuple v)
  | choice c => exact congrFun (writeChoice_congr h c) v
  | series s =>
    simp only [writeContent, writeChoices, writeTuple_congr h, writeChoice_congr h]

end Congruence

/-! ### All levels -/

/-- Inside, the levels may as well be written in place. -/
theorem generateLevels_eq (levels : Nat) (t : Content) (v : t.Carrier) :
    generateLevels levels t v = viaScratch (writeLevels levels t v) := by
  induction levels generalizing t with
  | zero => rfl
  | succ n ih =>
    have hchild : SameChildren (generateLevels n) (writeLevels n) := by
      intro t' v' name
      rw [ih t' v', pushChild_viaScratch (writeLevels_emits n t' v')]
      exact fun _ hm => emitLevels_attributes hm
    rw [generateLevels, writeContent_congr hchild]
    rfl

namespace Content

variable {t : Content} {v : t.Carrier} {tag : String} {m : Fragment}

theorem generate_eq (t : Content) (v : t.Carrier) : t.generate v = viaScratch (t.write v) :=
  generateLevels_eq (t.levels v) t v

theorem generate_emits (t : Content) (v : t.Carrier) : Emits (t.generate v) (t.emit v) := by
  rw [generate_eq]
  exact viaScratch_emits (writeLevels_emits _ t v) fun _ hm => emitLevels_attributes hm

/-- Saving in place comes to what saving says, and to nothing if that fails. -/
theorem saveInto_eq (t : Content) (v : t.Carrier) (e : Element) :
    t.saveInto v e = match t.save v e with
      | .ok e' => (.ok (), e')
      | .error err => (.error err, e) := by
  unfold saveInto save
  cases t.tag? with
  | none =>
    simp only [generate_eq, viaScratch, writeInto]
    rcases t.write v { name := e.name } with ⟨_ | _, _⟩ <;> rfl
  | some tag =>
    simp only [generate_eq, pushChild, viaScratch, toElement, writeInto]
    rcases t.write v { name := tag } with ⟨_ | _, _⟩ <;> rfl

/-- What a value adds to an element, if it can be saved. -/
def addition? (t : Content) (v : t.Carrier) : Option Fragment :=
  match t.tag? with
  | some tag => emitChild tag (t.emit v)
  | none => t.emit v

theorem saveInto_emits (t : Content) (v : t.Carrier) : Emits (t.saveInto v) (t.addition? v) := by
  unfold saveInto addition?
  cases t.tag? with
  | none => exact generate_emits t v
  | some tag => exact (generate_emits t v).child

/-- A value can be saved into every element if it has an addition, and into none otherwise. -/
theorem isOk_saveInto (t : Content) (v : t.Carrier) (e : Element) :
    ((t.saveInto v).run e).1.isOk = (t.addition? v).isSome := by
  have hemits := saveInto_emits t v
  cases hadd : t.addition? v with
  | none =>
    obtain ⟨err, e', hrun⟩ := hemits.error hadd e
    rw [Fallible.run, hrun]
    rfl
  | some m =>
    rw [Fallible.run, hemits.ok m hadd e]
    rfl

theorem saveInto_of_error {e e' : Element} {err : Error}
    (h : (t.saveInto v).run e = (.error err, e')) : e' = e := by
  rw [Fallible.run, saveInto_eq] at h
  cases hsave : t.save v e with
  | ok _ => simp [hsave] at h
  | error _ => simp_all

theorem saveInto_of_ok {e e' : Element} (h : (t.saveInto v).run e = (.ok (), e')) :
    ∃ m, t.addition? v = some m ∧ ∀ q, (t.saveInto v).run q = (.ok (), m.addTo q) := by
  have hsome : (t.addition? v).isSome = true := by
    rw [← isOk_saveInto t v e, h]
    rfl
  obtain ⟨m, hm⟩ := Option.isSome_iff_exists.mp hsome
  exact ⟨m, hm, (saveInto_emits t v).ok m hm⟩

/-- **Saving only adds.** Whether a value can be saved does not depend on the element it is
saved into, and
* saving in place is the same as saving into a copy;
* a failure, wherever it is inside the value, leaves the element as it was;
* a type with a tag adds one child element at the end, the same to every element;
* any other type adds what it writes into an empty element of any name: content at the end,
  attributes in place if they are there and behind the others if not. -/
theorem saveInto_only_adds (t : Content) (v : t.Carrier) (e : Element) :
    ((t.saveInto v).run e = match t.save v e with
      | .ok e' => (.ok (), e')
      | .error err => (.error err, e)) ∧
      (∀ q, ((t.saveInto v).run q).1.isOk = ((t.saveInto v).run e).1.isOk) ∧
      (∀ err e', (t.saveInto v).run e = (.error err, e') → e' = e) ∧
      (∀ tag e', t.tag? = some tag → (t.saveInto v).run e = (.ok (), e') →
        ∃ child : Element, child.name = tag ∧
          ∀ q, (t.saveInto v).run q = (.ok (), q.pushElement child)) ∧
      ∀ e', t.tag? = none → (t.saveInto v).run e = (.ok (), e') → ∀ name,
        ∃ f, (t.saveInto v).run { name } = (.ok (), f) ∧ e.Receives f e' := by
  refine ⟨saveInto_eq t v e, fun q => ?_, fun err e' h => saveInto_of_error h, ?_, ?_⟩
  · rw [isOk_saveInto, isOk_saveInto]
  · intro tag e' htag h
    obtain ⟨m, hm, hrun⟩ := saveInto_of_ok h
    simp only [addition?, htag] at hm
    obtain ⟨content, -, rfl⟩ := emitChild_eq_some_iff.mp hm
    exact ⟨content.toElement tag, rfl, hrun⟩
  · intro e' htag h name
    obtain ⟨m, hm, hrun⟩ := saveInto_of_ok h
    simp only [addition?, htag] at hm
    have hnodup := emitLevels_attributes hm
    have hattributes := (m.heldBy_toElement hnodup name).attributes
    obtain rfl : m.addTo e = e' := (Prod.mk.inj ((hrun e).symm.trans h)).2
    refine ⟨m.toElement name, hrun { name }, ?_⟩
    rw [← Fragment.append_toElement_eq_addTo hnodup e name]
    exact e.receives_append (by rwa [hattributes])

/-- A memory size, a filter and an interface with a bad address are saved into an element
that has content. The unit of the size replaces the one that was there. -/
theorem saveInto_only_adds_memory :
    let e : Element := { name := "memory", attributes := [("unit", "b"), ("note", "n")],
                         children := [.text "7"] }
    let size : ScaledInteger := { unit := some .mib, value := .lit 4 }
    let filter : Filter := { name := ⟨"clean"⟩ }
    let nic : Interface := { mac := some { address := ⟨"00-16"⟩ } }
    let saved : Element := { name := "memory", attributes := [("unit", "MiB"), ("note", "n")],
                             children := [.text "7", .text "4"] }
    (∃ f, (saveInto (.group .scaledInteger) size).run { name := "x" } = (.ok (), f) ∧
      e.Receives f saved) ∧
      (∃ c : Element, c.name = "filter" ∧
        ∀ q, (saveInto (.series .filter) filter).run q = (.ok (), q.pushElement c)) ∧
      ∃ err e', (saveInto (.group .interface) nic).run e = (.error err, e') ∧ e' = e := by
  intro e size filter nic saved
  refine ⟨?_, ?_, ?_⟩
  · have hrun : (saveInto (.group .scaledInteger) size).run e = (.ok (), saved) := by
      decide +kernel
    exact (saveInto_only_adds (.group .scaledInteger) size e).2.2.2.2 saved rfl hrun "x"
  · let child : Element := { name := "filter", attributes := [("name", "clean")] }
    have hrun : (saveInto (.series .filter) filter).run e = (.ok (), e.pushElement child) := by
      decide +kernel
    exact (saveInto_only_adds (.series .filter) filter e).2.2.2.1 "filter" _ rfl hrun
  · obtain ⟨err, e', hrun⟩ : ∃ err e', (saveInto (.group .interface) nic).run e =
        (.error err, e') := ⟨_, _, rfl⟩
    exact ⟨err, e', hrun, (saveInto_only_adds (.group .interface) nic e).2.2.1 err e' hrun⟩

/-- Member by member, the type of the interface would stay behind. -/
example :
    let nic : Interface := { mac := some { address := ⟨"00-16"⟩ } }
    ((Content.group .interface).write nic { name := "interface" }).1.isOk = false ∧
      ((Content.group .interface).write nic { name := "interface" }).2.attributes =
        [("type", "bridge")] := by
  decide +kernel

end Content

end GuestXml.Schema
