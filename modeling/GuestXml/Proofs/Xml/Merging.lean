import GuestXml.Xml.Tree
import Mathlib.Data.List.Nodup

/-!
# Adding the parts of one element to another

Appending an element to another adds its content at the end and assigns its attributes one
by one. What that comes to is said entry by entry (`Element.Receives`): every entry stays at
its place under its name, the first entry of an assigned name has the new value, and names
that were not there are added behind, in their order. So it is, if no name is assigned twice
(`Element.receives_append`).
-/

namespace GuestXml.Xml.Element

/-! ### Entries of a list -/

/-- The value of the first entry with a name. -/
def lookup? (as : List (String × String)) (name : String) : Option String :=
  (as.find? (·.1 == name)).map (·.2)

/-- Assigns entries one behind the other. -/
def assignAll (new old : List (String × String)) : List (String × String) :=
  new.foldl (fun as a => assign a.1 a.2 as) old

variable {as new old : List (String × String)} {a : String × String} {name value : String}
  {i : Nat}

theorem lookup?_cons (k v name : String) (as : List (String × String)) :
    lookup? ((k, v) :: as) name = if k = name then some v else lookup? as name := by
  by_cases hk : k = name <;> simp [lookup?, hk]

theorem lookup?_eq_none (h : name ∉ as.map (·.1)) : lookup? as name = none := by
  refine Option.map_eq_none_iff.mpr (List.find?_eq_none.mpr fun b hb hname => h ?_)
  rw [← beq_iff_eq.mp hname]
  exact List.mem_map_of_mem hb

/-- Where no name comes twice, each entry is found by its name. -/
theorem lookup?_of_mem (has : (as.map (·.1)).Nodup) (h : a ∈ as) :
    lookup? as a.1 = some a.2 := by
  induction as with
  | nil => cases h
  | cons b as ih =>
    obtain ⟨k, v⟩ := b
    rw [List.map_cons, List.nodup_cons] at has
    rw [lookup?_cons]
    rcases List.mem_cons.mp h with rfl | hrest
    · exact if_pos rfl
    · have hk : ¬ k = a.1 := fun heq => has.1 (List.mem_map.mpr ⟨a, hrest, heq.symm⟩)
      rw [if_neg hk, ih has.2 hrest]

/-! ### Assigning one attribute -/

theorem map_fst_assign (value : String) (h : name ∈ as.map (·.1)) :
    (assign name value as).map (·.1) = as.map (·.1) := by
  induction as with
  | nil => cases h
  | cons b as ih =>
    obtain ⟨k, v⟩ := b
    by_cases hk : k = name
    · rw [assign, if_pos hk]
      rfl
    · have hrest : name ∈ as.map (·.1) := (List.mem_cons.mp h).resolve_left (Ne.symm hk)
      rw [assign, if_neg hk, List.map_cons, List.map_cons, ih hrest]

theorem assign_of_not_mem (value : String) (h : name ∉ as.map (·.1)) :
    assign name value as = as ++ [(name, value)] := by
  induction as with
  | nil => rfl
  | cons b as ih =>
    obtain ⟨k, v⟩ := b
    simp only [List.map_cons, List.mem_cons, not_or] at h
    rw [assign, if_neg (Ne.symm h.1), ih h.2]
    rfl

/-- The names that were there stay where they are. -/
theorem take_map_fst_assign (name value : String) (h : i ≤ as.length) :
    ((assign name value as).take i).map (·.1) = (as.take i).map (·.1) := by
  by_cases hmem : name ∈ as.map (·.1)
  · rw [List.map_take, List.map_take, map_fst_assign value hmem]
  · rw [assign_of_not_mem value hmem, List.take_append_of_le_length h]

/-- Only the first entry of the name changes, and only its value. -/
theorem getElem?_assign (name value : String) (h : as[i]? = some a) :
    (assign name value as)[i]? = some (a.1,
      if a.1 = name ∧ name ∉ (as.take i).map (·.1) then value else a.2) := by
  induction as generalizing i with
  | nil => simp at h
  | cons b as ih =>
    obtain ⟨k, v⟩ := b
    cases i with
    | zero =>
      obtain rfl : (k, v) = a := by simpa using h
      by_cases hk : k = name <;> simp [assign, hk]
    | succ i =>
      have hrest : as[i]? = some a := by simpa using h
      by_cases hk : k = name
      · simp [assign, hk, hrest]
      · have hname : ¬ name = k := Ne.symm hk
        simp [assign, hk, hname, ih hrest]

theorem lookup?_assign (name value k : String) (as : List (String × String)) :
    lookup? (assign name value as) k = if name = k then some value else lookup? as k := by
  induction as with
  | nil => exact lookup?_cons name value k []
  | cons b as ih =>
    obtain ⟨k', v⟩ := b
    by_cases hassigned : k' = name
    · rw [assign, if_pos hassigned, lookup?_cons, lookup?_cons, hassigned]
      by_cases hk : name = k <;> simp only [hk, if_true, if_false]
    · rw [assign, if_neg hassigned, lookup?_cons, lookup?_cons, ih]
      by_cases hk : name = k
      · simp only [if_neg (hk ▸ hassigned), if_pos hk]
      · simp only [if_neg hk]

/-! ### Assigning several attributes -/

theorem lookup?_assignAll (hnew : (new.map (·.1)).Nodup) (old : List (String × String))
    (k : String) : lookup? (assignAll new old) k = (lookup? new k).or (lookup? old k) := by
  induction new generalizing old with
  | nil => rfl
  | cons b new ih =>
    obtain ⟨name, value⟩ := b
    rw [List.map_cons, List.nodup_cons] at hnew
    rw [assignAll, List.foldl_cons, ← assignAll, ih hnew.2, lookup?_assign, lookup?_cons]
    by_cases hk : name = k
    · rw [if_pos hk, if_pos hk, lookup?_eq_none (hk ▸ hnew.1)]
      rfl
    · rw [if_neg hk, if_neg hk]

/-- An entry stays at its place, with the value that was assigned to the first entry of its
name. -/
theorem getElem?_assignAll (hnew : (new.map (·.1)).Nodup) (h : old[i]? = some a) :
    (assignAll new old)[i]? = some (a.1,
      if a.1 ∈ (old.take i).map (·.1) then a.2 else (lookup? new a.1).getD a.2) := by
  induction new generalizing old a with
  | nil => simpa [assignAll, lookup?] using h
  | cons b new ih =>
    obtain ⟨name, value⟩ := b
    rw [List.map_cons, List.nodup_cons] at hnew
    have hlength : i ≤ old.length := Nat.le_of_lt (List.getElem?_eq_some_iff.mp h).1
    rw [assignAll, List.foldl_cons, ← assignAll, ih hnew.2 (getElem?_assign name value h),
      take_map_fst_assign name value hlength]
    by_cases hearlier : a.1 ∈ (old.take i).map (·.1)
    · have hkept : ¬ (a.1 = name ∧ name ∉ (old.take i).map (·.1)) :=
        fun hassigned => hassigned.2 (hassigned.1 ▸ hearlier)
      rw [if_pos hearlier, if_pos hearlier, if_neg hkept]
    · rw [if_neg hearlier, if_neg hearlier, lookup?_cons]
      by_cases hname : name = a.1
      · rw [if_pos ⟨hname.symm, hname ▸ hearlier⟩, if_pos hname,
          lookup?_eq_none (hname ▸ hnew.1)]
        rfl
      · rw [if_neg (fun hassigned => hname hassigned.1.symm), if_neg hname]

/-- Entries with names that were not there come behind the others, in their order. -/
theorem drop_assignAll (hnew : (new.map (·.1)).Nodup) (old : List (String × String)) :
    (assignAll new old).drop old.length = new.filter fun a => a.1 ∉ old.map (·.1) := by
  induction new generalizing old with
  | nil => simp [assignAll]
  | cons b new ih =>
    obtain ⟨name, value⟩ := b
    rw [List.map_cons, List.nodup_cons] at hnew
    rw [assignAll, List.foldl_cons, ← assignAll]
    by_cases hmem : name ∈ old.map (·.1)
    · have hlength : (assign name value old).length = old.length := by
        have hnames := congrArg List.length (map_fst_assign value hmem)
        rwa [List.length_map, List.length_map] at hnames
      rw [List.filter_cons_of_neg (by simpa using hmem), ← hlength, ih hnew.2,
        map_fst_assign value hmem]
    · rw [List.filter_cons_of_pos (by simpa using hmem), assign_of_not_mem value hmem]
      have hhead : (assignAll new (old ++ [(name, value)]))[old.length]? = some (name, value) := by
        rw [getElem?_assignAll hnew.2 (a := (name, value)) (by simp), List.take_left,
          if_neg hmem, lookup?_eq_none hnew.1]
        rfl
      have htail := ih hnew.2 (old ++ [(name, value)])
      rw [List.length_append, List.length_singleton] at htail
      obtain ⟨hlt, hget⟩ := List.getElem?_eq_some_iff.mp hhead
      rw [List.drop_eq_getElem_cons hlt, hget, htail]
      refine congrArg _ (List.filter_congr fun b hb => ?_)
      have hne : b.1 ≠ name := fun heq => hnew.1 (List.mem_map.mpr ⟨b, hb, heq⟩)
      simp [hne]

/-! ### Elements -/

/-- The second element is the first with the attributes and the content of `content` added:
attributes that were there stay at their places, those with a new value have it, and the
others come behind them. -/
structure Receives (e content e' : Element) : Prop where
  name : e'.name = e.name
  children : e'.children = e.children ++ content.children
  assigned : ∀ a ∈ content.attributes, e'.attribute? a.1 = some a.2
  kept : ∀ (i : Nat) (a : String × String), e.attributes[i]? = some a →
    e'.attributes[i]? = some (a.1,
      if a.1 ∈ (e.attributes.take i).map (·.1) then a.2
      else (content.attribute? a.1).getD a.2)
  added : e'.attributes.drop e.attributes.length =
    content.attributes.filter fun a => a.1 ∉ e.attributes.map (·.1)

theorem receives_append (e : Element) {content : Element}
    (h : (content.attributes.map (·.1)).Nodup) : e.Receives content (e.append content) where
  name := rfl
  children := rfl
  assigned a ha := by
    show lookup? (assignAll content.attributes e.attributes) a.1 = some a.2
    rw [lookup?_assignAll h, lookup?_of_mem h ha]
    rfl
  kept _ _ ha := getElem?_assignAll h ha
  added := drop_assignAll h e.attributes

end GuestXml.Xml.Element
