import GuestXml.Proofs.Scalar.Codec
import GuestXml.Schema.Levels
import GuestXml.Schema.Reader

/-!
# The shape of the schema

What reading and writing rely on beyond the order of members: the members of a group have
different names, so that each finds its own part of an element again (`Separate`), and no
alternative of a choice can be mistaken for an earlier one (`Alternative.Excludes`). These
are facts about the tables; each is decided for all of them at once.
-/

namespace GuestXml.Schema

/-! ### Names in a member -/

namespace Field

/-- The attribute that a member maps to. -/
def attributeName? : Field → Option String
  | attr name _ | optionalAttr name _ | constant name _ => some name
  | _ => none

/-- The name of the child elements that a member maps to. -/
def childName? : Field → Option String
  | valueElement name _ | optionalValueElement name _ | valueElements name _ _ | flag name
  | element name _ | optionalElement name _ | elements name _ _ => some name
  | _ => none

/-- Whether a member maps to the element's own text. -/
def isText : Field → Bool
  | text _ | optionalText _ => true
  | _ => false

/-- Whether the values of a member can be told apart by what is written. The empty text and
no text are the same. -/
def isFaithful : Field → Bool
  | attr _ s | optionalAttr _ s | text s | valueElement _ s | optionalValueElement _ s
  | valueElements _ _ s => s.occurs
  | optionalText _ => false
  | _ => true

end Field

/-- The attributes that members map to. -/
def attributeNames (ms : List Member) : List String :=
  ms.filterMap (·.field.attributeName?)

/-- The names of the child elements that members map to. -/
def childNames (ms : List Member) : List String :=
  ms.filterMap (·.field.childName?)

@[simp] theorem attributeNames_nil : attributeNames [] = [] := rfl

@[simp] theorem childNames_nil : childNames [] = [] := rfl

theorem attributeNames_cons (m : Member) (ms : List Member) :
    attributeNames (m :: ms) = m.field.attributeName?.toList ++ attributeNames ms := by
  cases h : m.field.attributeName? <;> simp [attributeNames, h]

theorem childNames_cons (m : Member) (ms : List Member) :
    childNames (m :: ms) = m.field.childName?.toList ++ childNames ms := by
  cases h : m.field.childName? <;> simp [childNames, h]

theorem childNames_cons_eq_nil_iff {m : Member} {ms : List Member} :
    childNames (m :: ms) = [] ↔ m.field.childName? = none ∧ childNames ms = [] := by
  rw [childNames_cons, List.append_eq_nil_iff, Option.toList_eq_nil_iff]

/-! ### Members -/

/-- Members that find their own parts of an element again. -/
structure Separate (ms : List Member) : Prop where
  attributes : (attributeNames ms).Nodup
  children : (childNames ms).Nodup
  texts : ms.countP (·.field.isText) ≤ 1
  faithful : ∀ m ∈ ms, m.field.isFaithful = true
  /-- The check that an element is empty stands alone. -/
  alone : ∀ m ∈ ms, m.field = .noContent → ms = [m]

namespace Separate

variable {f : Member} {ms : List Member}

theorem attributes_cons (h : Separate (f :: ms)) :
    ∀ name ∈ f.field.attributeName?, name ∉ attributeNames ms := by
  have hnodup := h.attributes
  rw [attributeNames_cons, List.nodup_append] at hnodup
  exact fun name hname hmem =>
    hnodup.2.2 name (Option.mem_toList.mpr hname) name hmem rfl

theorem children_cons (h : Separate (f :: ms)) :
    ∀ name ∈ f.field.childName?, name ∉ childNames ms := by
  have hnodup := h.children
  rw [childNames_cons, List.nodup_append] at hnodup
  exact fun name hname hmem =>
    hnodup.2.2 name (Option.mem_toList.mpr hname) name hmem rfl

theorem text_cons (h : Separate (f :: ms)) (hf : f.field.isText = true) :
    ∀ f' ∈ ms, f'.field.isText = false := by
  have hcount := h.texts
  rw [List.countP_cons_of_pos (by simpa using hf)] at hcount
  have hnone : ms.countP (·.field.isText) = 0 := by omega
  simpa using List.countP_eq_zero.mp hnone

theorem alone_cons (h : Separate (f :: ms)) (hf : f.field = .noContent) : ms = [] := by
  simpa using h.alone f (by simp) hf

theorem tail (h : Separate (f :: ms)) : Separate ms where
  attributes := by
    have hnodup := h.attributes
    rw [attributeNames_cons] at hnodup
    exact (List.nodup_append.mp hnodup).2.1
  children := by
    have hnodup := h.children
    rw [childNames_cons] at hnodup
    exact (List.nodup_append.mp hnodup).2.1
  texts := by
    have hcount := h.texts
    rw [List.countP_cons] at hcount
    omega
  faithful := fun m hm => h.faithful m (by simp [hm])
  alone := fun m hm hfield => by
    have hms := h.alone m (by simp [hm]) hfield
    obtain rfl := (List.cons_eq_cons.mp hms).2
    cases hm

end Separate

theorem Group.separate (g : Group) : Separate g.record.members where
  attributes := by cases g <;> decide
  children := by cases g <;> decide
  texts := by cases g <;> decide
  faithful := by cases g <;> decide
  alone := by cases g <;> decide

theorem Series.separate (s : Series) : Separate s.record.members where
  attributes := by cases s <;> decide
  children := by cases s <;> decide
  texts := by cases s <;> decide
  faithful := by cases s <;> decide
  alone := by cases s <;> decide

theorem Series.field_ne_noContent (s : Series) : ∀ f ∈ s.record.members, f.field ≠ .noContent := by
  cases s <;> decide

/-! ### Alternatives -/

/-- Whether a member fails on an element that holds the members of a group: it asks for an
attribute that the group has not, or for another value than the group writes there. -/
def Field.rejects (f : Field) (ms : List Member) : Bool :=
  match f with
  | .attr name _ => !(attributeNames ms).contains name
  | .constant name value => ms.any fun m =>
    match m.field with
    | .constant name' value' => name' = name && value' ≠ value
    | _ => false
  | _ => false

/-- Whether an element that holds the second alternative cannot be read as the first. -/
def Alternative.excludes : (a b : Alternative) → Bool
  | .group _ g, .group _ h =>
    (g.record.members.head?.map (·.field.rejects h.record.members)).getD false
  | .element _ tag _, .element _ tag' _ => tag ≠ tag'
  | _, _ => false

/-- No alternative of a choice can be mistaken for an earlier one. -/
theorem Choice.excludes_alternatives (c : Choice) :
    c.variants.alternatives.Pairwise fun a b => a.excludes b = true := by
  cases c <;> decide

/-- Whether an alternative reads no child elements. -/
def Alternative.isChildless : Alternative → Bool
  | .group _ g => (childNames g.record.members).isEmpty
  | .element .. => false

/-- Of two alternatives of a choice one reads no children at all, unless all are child
elements with different tags. -/
theorem Choice.separates_alternatives (c : Choice) :
    (c.variants.alternatives.Pairwise fun a b => a.isChildless = true ∨ b.isChildless = true) ∨
      ∃ tags, c.tags? = some tags ∧ tags.Nodup := by
  cases c
  case filterEntry => exact .inr ⟨["rule", "filterref"], by decide, by decide⟩
  case ruleMatch =>
    exact .inr ⟨["mac", "arp", "ip", "ipv6", "tcp", "udp", "icmp", "all"], by decide,
      by decide⟩
  all_goals exact .inl (by decide)

/-- Different alternatives of a choice have different tags. -/
theorem Choice.tag?_ne (c : Choice) :
    c.variants.alternatives.Pairwise fun a b => a.tag? = none ∨ a.tag? ≠ b.tag? := by
  cases c <;> decide

/-- What an alternative with a tag holds has no tag of its own. -/
theorem Choice.tag?_content (c : Choice) :
    ∀ a ∈ c.variants.alternatives, a.tag? = none ∨ a.content.tag? = none := by
  cases c <;> decide

theorem mapM_tag?_eq_some_iff {as : List Alternative} {tags : List String} :
    as.mapM (·.tag?) = some tags ↔ as.map (·.tag?) = tags.map some := by
  induction as generalizing tags with
  | nil => cases tags <;> simp
  | cons a as ih =>
    rw [List.mapM_cons]
    cases htag : a.tag? with
    | none => cases tags <;> simp [htag]
    | some tag =>
      cases hrest : as.mapM (·.tag?) with
      | none =>
        cases tags with
        | nil => simp
        | cons tag' tags => simp [htag, ← ih, hrest]
      | some tags' =>
        cases tags with
        | nil => simp
        | cons tag' tags => simp [htag, ← ih, hrest]

/-- The alternatives that a series goes on with have different tags, and no member has one of
them. -/
theorem Series.tags?_choice (s : Series) :
    ∃ tags, s.record.choice.tags? = some tags ∧ tags.Nodup ∧
      ∀ tag ∈ tags, tag ∉ childNames s.record.members := by
  cases s
  case filter => exact ⟨["rule", "filterref"], by decide⟩
  case rule =>
    exact ⟨["mac", "arp", "ip", "ipv6", "tcp", "udp", "icmp", "all"], by decide⟩

end GuestXml.Schema
