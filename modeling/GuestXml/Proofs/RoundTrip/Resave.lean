import GuestXml.Proofs.Reading.Steps
import GuestXml.Proofs.Writing.Levels

/-!
# What is read can be written

Whatever a scan comes to has an emission, and the emission has as many elements as the scan
consumed and is no higher than the limit on nesting allowed (`resaves_levels`). Nothing is
asked of the element that was scanned: children that no member took are not in the value,
and they were not counted.
-/

namespace GuestXml.Schema

open Xml (Element)

/-- What is scanned of an element is emitted with as many elements as were counted, all of
them of a lower height. -/
def Resaves {α : Type} (levels : Nat) (scan : Element → Except Error (α × Nat))
    (emit : α → Option Fragment) : Prop :=
  ∀ e v n, scan e = .ok (v, n) →
    ∃ m, emit v = some m ∧ Element.sizes m.elements = n ∧ ∀ c ∈ m.elements, c.height < levels

/-- What the scan comes to is emitted with as many elements as the scan consumed, none of
them above a height. -/
def Emittable {α : Type} (height : Nat) (scan : ScanM α) (emit : α → Option Fragment) : Prop :=
  ∀ s v s', scan s = .ok (v, s') →
    ∃ m, emit v = some m ∧ s'.consumed = s.consumed + Element.sizes m.elements ∧
      ∀ c ∈ m.elements, c.height ≤ height

theorem Fragment.height_toElement_le (m : Fragment) (name : String) {levels : Nat}
    (hlevels : 0 < levels) (h : ∀ c ∈ m.elements, c.height < levels) :
    (m.toElement name).height ≤ levels := by
  obtain ⟨n, rfl⟩ : ∃ n, levels = n + 1 := Nat.exists_eq_add_of_le' hlevels
  rw [Element.height_le_succ_iff, m.childElements_toElement]
  exact fun c hc => Nat.le_of_lt_succ (h c hc)

/-! ### Combining scans -/

namespace Emittable

variable {α β : Type} {height : Nat} {scan : ScanM α} {emit : α → Option Fragment}

/-- A scan that consumes nothing. -/
theorem of_eq (h : ∀ s v s', scan s = .ok (v, s') →
    s'.consumed = s.consumed ∧ ∃ m, emit v = some m ∧ m.elements = []) :
    Emittable height scan emit := by
  intro s v s' hs
  obtain ⟨hconsumed, m, hm, helements⟩ := h s v s' hs
  exact ⟨m, hm, by simp [hconsumed, helements], by simp [helements]⟩

theorem pure {v : α} {m : Fragment} (hm : emit v = some m) (helements : m.elements = []) :
    Emittable height (pure v) emit := by
  intro s v' s' hs
  cases hs
  exact ⟨m, hm, by simp [helements], by simp [helements]⟩

theorem fail (e : Error) : Emittable height (.fail e : ScanM α) emit :=
  fun _ _ _ hs => nomatch hs

/-- A step that consumes nothing comes first. -/
theorem after {look : ScanM β} {next : β → ScanM α}
    (hlook : ∀ s b s', look s = .ok (b, s') → s'.consumed = s.consumed)
    (h : ∀ b, Emittable height (next b) emit) : Emittable height (look >>= next) emit := by
  intro s v s'' hs
  obtain ⟨b, s', hb, hs'⟩ := ScanM.bind_eq_ok_iff.mp hs
  rw [← hlook s b s' hb]
  exact h b s' v s'' hs'

theorem map {emit' : β → Option Fragment} (f : α → β) (h : Emittable height scan emit)
    (hf : ∀ v m, emit v = some m → emit' (f v) = some m) :
    Emittable height (f <$> scan) emit' := by
  intro s v s' hs
  obtain ⟨u, hu, rfl⟩ := ScanM.map_eq_ok_iff.mp hs
  obtain ⟨m, hm, hcount⟩ := h s u s' hu
  exact ⟨m, hf u m hm, hcount⟩

theorem andReturn {emit' : β → Option Fragment} (f : α → β) (h : Emittable height scan emit)
    (hf : ∀ v m, emit v = some m → emit' (f v) = some m) :
    Emittable height (do return f (← scan)) emit' := by
  rw [← map_eq_pure_bind]
  exact h.map f hf

/-- Two scans in a row are emitted one behind the other. -/
theorem pair {γ : Type} {scan' : ScanM β} {emit' : β → Option Fragment}
    {both : γ → Option Fragment} (f : α → β → γ) (h : Emittable height scan emit)
    (h' : Emittable height scan' emit')
    (hf : ∀ v w m m', emit v = some m → emit' w = some m' → both (f v w) = some (m ++ m')) :
    Emittable height (do let v ← scan; return f v (← scan')) both := by
  intro s u s'' hs
  obtain ⟨v, s', hv, hs'⟩ := ScanM.bind_eq_ok_iff.mp hs
  obtain ⟨w, s₂, hw, hs₂⟩ := ScanM.bind_eq_ok_iff.mp hs'
  cases hs₂
  obtain ⟨m, hm, hcount, hheight⟩ := h s v s' hv
  obtain ⟨m', hm', hcount', hheight'⟩ := h' s' w s'' hw
  refine ⟨m ++ m', hf v w m m' hm hm', ?_, fun c hc => ?_⟩
  · rw [hcount', hcount, Fragment.elements_append, Element.sizes_append, Nat.add_assoc]
  · rw [Fragment.elements_append] at hc
    exact (List.mem_append.mp hc).elim (hheight c) (hheight' c)

theorem list {γ : Type} {scan : γ → ScanM α} (h : ∀ c, Emittable height (scan c) emit)
    (cs : List γ) : Emittable height (cs.mapM scan) (emitAll emit) := by
  induction cs with
  | nil => exact .pure rfl rfl
  | cons c cs ih =>
    rw [List.mapM_cons]
    exact (h c).pair (· :: ·) ih fun v vs m m' hm hm' =>
      emitAll_cons_eq_some_iff.mpr ⟨m, m', hm, hm', rfl⟩

theorem whileTaken (h : Emittable height scan emit) (most : Nat) :
    Emittable height (scanWhileTaken scan most) (emitAll emit) := by
  induction most with
  | zero => exact .pure rfl rfl
  | succ n ih =>
    have hnone (s : Scan) : ∃ m, emitAll emit [] = some m ∧
        s.consumed = s.consumed + Element.sizes m.elements ∧ ∀ c ∈ m.elements, c.height ≤ height :=
      ⟨{}, rfl, rfl, by simp⟩
    intro s vs s'' hs
    unfold scanWhileTaken at hs
    split at hs
    · cases hs
      exact hnone s
    · split at hs
      · rename_i v s' hv
        split at hs
        · cases hs
          exact Emittable.list (fun _ : Unit => h) [()] s [v] s'' (ScanM.bind_of_ok hv)
        · obtain ⟨vs', hvs', rfl⟩ := ScanM.map_eq_ok_iff.mp hs
          have hpair := h.pair (· :: ·) ih fun v vs m m' hm hm' =>
            emitAll_cons_eq_some_iff.mpr ⟨m, m', hm, hm', rfl⟩
          refine hpair s (v :: vs') s'' ?_
          rw [ScanM.bind_of_ok hv, ScanM.bind_of_ok hvs']
          rfl
      · split at hs
        · cases hs
        · cases hs
          exact hnone s

theorem enough {site : Site} {scan : ScanM (List α)} {emit : List α → Option Fragment}
    {name : String} {min : Nat} (h : Emittable height scan emit) :
    Emittable height
      (do let values ← scan
          scanMin site name min values.length
          return values)
      fun vs => emitIf (min ≤ vs.length) (emit vs) := by
  intro s vs s'' hs
  obtain ⟨vs', s', hvs, hs'⟩ := ScanM.bind_eq_ok_iff.mp hs
  obtain ⟨u, s₂, hmin, hs₂⟩ := ScanM.bind_eq_ok_iff.mp hs'
  cases hs₂
  obtain ⟨m, hm, hcount⟩ := h s vs s' hvs
  obtain ⟨henough, rfl⟩ := scanMin_eq_ok_iff.mp hmin
  exact ⟨m, emitIf_eq_some_iff.mpr ⟨decide_eq_true henough, hm⟩, hcount⟩

/-- A child that was read is emitted as a child again. -/
theorem child {site : Site} {scan : Element → Except Error (α × Nat)} {name : String}
    (h : Resaves site.below scan emit) (e : Element) :
    Emittable site.below (scanChild site (scan e)) fun v => emitChild name (emit v) := by
  intro s v s' hs
  obtain ⟨hbelow, n, hscan, rfl⟩ := scanChild_eq_ok_iff.mp hs
  obtain ⟨m, hm, rfl, hheight⟩ := h e v n hscan
  refine ⟨_, emitChild_eq_some_iff.mpr ⟨m, hm, rfl⟩, ?_, ?_⟩
  · simp [Fragment.elements, Element.descendants_eq, m.childElements_toElement, Nat.add_assoc]
  · intro c hc
    obtain rfl : c = m.toElement name := by simpa [Fragment.elements] using hc
    exact m.height_toElement_le name hbelow hheight

end Emittable

/-! ### Elements -/

section Elements

variable {site : Site}

/-- What is read of an element is emitted if what its members come to is. -/
theorem Emittable.element {α : Type} {scan : ScanM α} {emit : α → Option Fragment}
    {height : Nat} (h : Emittable height scan emit) {v : α} {n : Nat}
    (hn : scanElement site scan = .ok (v, n)) :
    ∃ m, emit v = some m ∧ Element.sizes m.elements = n ∧
      ∀ c ∈ m.elements, c.height < height + 1 := by
  obtain ⟨s', hs', -, rfl⟩ := scanElement_eq_ok_iff.mp hn
  obtain ⟨m, hm, hcount, hheight⟩ := h _ v s' hs'
  exact ⟨m, hm, by simp [hcount], fun c hc => Nat.lt_succ_of_le (hheight c hc)⟩

theorem exists_emitText {s : Scalar} {text : String} {v : s.Carrier}
    (h : s.decode text = .ok v) : ∃ m, emitText s v = some m ∧ m.elements = [] := by
  have hm := emitText_eq_some_iff.mpr ⟨Scalar.isValid_of_decode h, rfl⟩
  exact ⟨_, hm, (emitText_text hm).2.2⟩

theorem exists_emitAttr (name : String) {s : Scalar} {text : String} {v : s.Carrier}
    (h : s.decode text = .ok v) : ∃ m, emitAttr name s v = some m ∧ m.elements = [] :=
  ⟨_, emitAttr_eq_some_iff.mpr ⟨Scalar.isValid_of_decode h, rfl⟩, rfl⟩

theorem resaves_value (s : Scalar) (levels : Nat) :
    Resaves levels (scanValue site s) (emitText s) := by
  intro e v n hn
  obtain ⟨hdecode, rfl⟩ := scanValue_eq_ok hn
  obtain ⟨m, hm, helements⟩ := exists_emitText hdecode
  exact ⟨m, hm, by simp [helements], by simp [helements]⟩

theorem resaves_flag (levels : Nat) :
    Resaves levels (scanFlag site) fun _ : Unit => some {} := by
  intro e v n hn
  obtain ⟨s', hs', -, rfl⟩ := scanElement_eq_ok_iff.mp hn
  cases hs'
  exact ⟨{}, rfl, rfl, by simp⟩

end Elements

/-! ### Members -/

section Members

variable {site : Site} {child : (t : Content) → Element → Except Error (t.Carrier × Nat)}
  {emit : (t : Content) → t.Carrier → Option Fragment}

theorem emittable_ofExcept {α : Type} {height : Nat} {result : Except Error α}
    {emit : α → Option Fragment}
    (h : ∀ v, result = .ok v → ∃ m, emit v = some m ∧ m.elements = []) :
    Emittable height (.ofExcept result) emit := by
  refine .of_eq fun s v s' hs => ?_
  cases result with
  | error e => cases hs
  | ok w =>
    cases hs
    exact ⟨rfl, h _ rfl⟩

theorem consumed_scanNext? {name : String} {s s' : Scan} {e? : Option Element}
    (h : scanNext? name s = .ok (e?, s')) : s'.consumed = s.consumed := by
  cases h
  exact s.consumed_ask name

theorem consumed_scanRequired {name : String} {s s' : Scan} {e : Element}
    (h : scanRequired site name s = .ok (e, s')) : s'.consumed = s.consumed := by
  obtain ⟨e?, s₁, hnext, hs₁⟩ := ScanM.bind_eq_ok_iff.mp h
  cases e? with
  | none => cases hs₁
  | some e' =>
    cases hs₁
    exact consumed_scanNext? hnext

theorem consumed_scanAll {name : String} {s s' : Scan} {es : List Element}
    (h : scanAll name s = .ok (es, s')) : s'.consumed = s.consumed := by
  cases h
  exact s.consumed_ask name

section Children

variable {α β : Type} {scan : Element → Except Error (α × Nat)} {one : α → Option Fragment}
  (h : Resaves site.below scan one) (name : String)

include h

theorem emittable_required :
    Emittable site.below (do scanChild site (scan (← scanRequired site name)))
      fun v => emitChild name (one v) :=
  .after (fun _ _ _ => consumed_scanRequired) fun e => .child h e

theorem emittable_optional (f : α → β) (b : β) {all : β → Option Fragment}
    (hf : ∀ v m, emitChild name (one v) = some m → all (f v) = some m)
    (hb : all b = some {}) :
    Emittable site.below
      (do match ← scanNext? name with
          | some e => f <$> scanChild site (scan e)
          | none => return b)
      all := by
  refine .after (fun _ _ _ => consumed_scanNext?) fun e? => ?_
  cases e? with
  | some e => exact (Emittable.child h e).map f hf
  | none => exact .pure hb rfl

theorem emittable_many (min : Nat) :
    Emittable site.below
      (do let values ← (← scanAll name).mapM fun e => scanChild site (scan e)
          scanMin site name min values.length
          return values)
      fun vs => emitIf (min ≤ vs.length) (emitAll (fun v => emitChild name (one v)) vs) :=
  .after (fun _ _ _ => consumed_scanAll) fun es => (Emittable.list (Emittable.child h) es).enough

end Children

variable (h : ∀ t, Resaves site.below (child t) (emit t))

include h

theorem scanField_emittable (f : Field) :
    Emittable site.below (scanField site child f) (emitField emit f) := by
  cases f with
  | attr name s =>
    simp only [scanField]
    split
    · exact emittable_ofExcept fun v => exists_emitAttr name
    · exact .fail _
  | optionalAttr name s =>
    simp only [scanField]
    split
    · exact (emittable_ofExcept fun v => exists_emitAttr name).map some fun v m hm =>
        (emitAll_singleton _ v).trans hm
    · exact .pure rfl rfl
  | constant name value =>
    simp only [scanField]
    split
    · split
      · exact .pure rfl rfl
      · exact .fail _
    · exact .fail _
  | text s => exact emittable_ofExcept fun v => exists_emitText
  | optionalText s =>
    simp only [scanField]
    split
    · exact .pure rfl rfl
    · exact (emittable_ofExcept fun v => exists_emitText).map some fun v m hm =>
        (emitAll_singleton _ v).trans hm
  | valueElement name s => exact emittable_required (resaves_value s _) name
  | optionalValueElement name s =>
    refine emittable_optional (resaves_value s _) name some none (fun v m hm => ?_) rfl
    exact (emitAll_singleton (fun w => emitChild name (emitText s w)) v).trans hm
  | valueElements name min s => exact emittable_many (resaves_value s _) name min
  | noContent =>
    refine .of_eq fun s v s' hs => ⟨?_, {}, rfl, rfl⟩
    simp only [scanField, scanNoContent] at hs
    split at hs
    · cases hs
    · cases hs
    · split at hs
      · cases hs
        rfl
      · cases hs
  | flag name =>
    exact emittable_optional (resaves_flag _) name (fun _ => true) false (fun v m hm => hm) rfl
  | element name t => exact emittable_required (h t) name
  | optionalElement name t =>
    refine emittable_optional (h t) name some none (fun v m hm => ?_) rfl
    exact (emitAll_singleton (fun w => emitChild name (emit t w)) v).trans hm
  | elements name min t => exact emittable_many (h t) name min

theorem scanTuple_emittable (ms : List Member) :
    Emittable site.below (scanTuple site child ms) (emitTuple emit ms) := by
  induction ms with
  | nil => exact .pure rfl rfl
  | cons f ms ih =>
    exact (scanField_emittable h f.field).pair (fun v vs => (v, vs)) ih
      fun v vs m m' hm hm' => emitTuple_cons_eq_some_iff.mpr ⟨m, m', hm, hm', rfl⟩

theorem scanGroup_emittable (g : Group) :
    Emittable site.below (scanGroup site child g) (emitGroup emit g) :=
  (scanTuple_emittable h g.record.members).andReturn g.record.ofTuple fun vs m hm => by
    rw [emitGroup, g.record.toTuple_ofTuple]
    exact hm

theorem scanAlternative_emittable (a : Alternative) :
    Emittable site.below (scanAlternative site child a) (emitAlternative emit a) := by
  cases a with
  | group name g => exact scanGroup_emittable h g
  | element name tag t => exact emittable_required (h t) tag

theorem scanFirst_emittable (choice : String) (as : List Alternative) :
    Emittable site.below (scanFirst site child choice as) (emitAny emit as) := by
  induction as with
  | nil => exact fun _ v _ _ => nomatch v
  | cons a as ih =>
    intro s v s' hs
    rcases scanFirst_eq_ok hs with ⟨w, hw, rfl⟩ | ⟨w, hw, rfl⟩
    · exact scanAlternative_emittable h a s w s' hw
    · exact ih s w s' hw

theorem scanChoice_emittable (c : Choice) :
    Emittable site.below (scanChoice site child c) (emitChoice emit c) :=
  (scanFirst_emittable h c.name c.variants.alternatives).andReturn c.variants.ofAny
    fun v m hm => by
      rw [emitChoice, c.variants.toAny_ofAny]
      exact hm

theorem scanChoices_emittable (c : Choice) (min : Nat) :
    Emittable site.below (scanChoices site child c min) (emitChoices emit c min) := by
  have hfrom (rest : List Element) :
      Emittable site.below (scanChoicesFrom site child c min rest) (emitChoices emit c min) := by
    unfold scanChoicesFrom
    cases c.tags? with
    | some tags => exact (Emittable.list (fun _ => scanChoice_emittable h c) _).enough
    | none => exact ((scanChoice_emittable h c).whileTaken _).enough
  exact fun s => hfrom s.rest s

theorem scanContent_emittable (t : Content) :
    Emittable site.below (scanContent site child t) (emitContent emit t) := by
  cases t with
  | group g => exact scanGroup_emittable h g
  | choice c => exact scanChoice_emittable h c
  | series s =>
    refine (scanTuple_emittable h s.record.members).pair
      (fun values entries => s.record.ofParts (values, entries))
      (scanChoices_emittable h s.record.choice s.record.min) fun values entries m m' hm hm' => ?_
    have hparts : s.record.toParts (s.record.ofParts (values, entries)) = (values, entries) :=
      s.record.toParts_ofParts (values, entries)
    refine append_eq_some_iff.mpr ⟨m, m', ?_, ?_, rfl⟩
    · rw [hparts]
      exact hm
    · rw [hparts]
      exact hm'

end Members

/-! ### Levels -/

/-- By induction on the levels of the reader; the writer finds the levels of each value. -/
theorem resaves_levels (denyUnknown : Bool) (limit levels : Nat) (t : Content) :
    Resaves levels (scanLevels denyUnknown limit levels t) t.emit := by
  induction levels generalizing t with
  | zero => exact fun e v n hn => nomatch hn
  | succ n ih =>
    intro e v c hc
    let site : Site := { element := e, denyUnknown, limit, below := n }
    have hcontent : Emittable site.below (scanContent site (scanLevels denyUnknown limit n) t)
      (emitContent Content.emit t) := scanContent_emittable ih t
    obtain ⟨m, hm, hcount⟩ := hcontent.element hc
    exact ⟨m, Content.emit_of_children hm, hcount⟩

end GuestXml.Schema
