import GuestXml.Proofs.Reading.Scan
import GuestXml.Proofs.Xml.Tree

/-!
# What a scan takes

A scan takes some elements and comes to a value (`Takes`) if it does so whatever follows
them, as long as what follows is clear of what the scan looks for. Scans that take what is
left to them, one after the other, read an element to its end (`Takes.scanElement`), with all
elements below it counted.
-/

namespace GuestXml.Schema

open Xml (Element)

/-! ### Taking children -/

/-- The scan takes the elements and comes to the value, if all that follows is clear. -/
def Takes {α : Type} (clear : Element → Prop) (scan : ScanM α) (a : α) (es : List Element) :
    Prop :=
  ∀ s more, s.rest = es ++ more → (∀ e ∈ more, clear e) →
    ∃ s', scan s = .ok (a, s') ∧ s'.rest = more ∧ s'.consumed = s.consumed + Element.sizes es

namespace Takes

variable {α β : Type} {clear clear' : Element → Prop} {scan : ScanM α} {a : α}
  {es es' : List Element}

theorem mono (h : Takes clear scan a es) (hclear : ∀ e, clear' e → clear e) :
    Takes clear' scan a es :=
  fun s more hrest hmore => h s more hrest fun e he => hclear e (hmore e he)

/-- A scan that does not look at the children. -/
theorem of_eq_ok (h : ∀ s, scan s = .ok (a, s)) : Takes clear scan a [] :=
  fun s _ hrest _ => ⟨s, h s, hrest, by simp⟩

theorem pure (a : α) : Takes clear (pure a) a [] :=
  of_eq_ok fun _ => rfl

theorem bind {next : α → ScanM β} {b : β} (h : Takes clear scan a es)
    (h' : Takes clear' (next a) b es') (hclear : ∀ e ∈ es', clear e) :
    Takes (fun e => clear e ∧ clear' e) (scan >>= next) b (es ++ es') := by
  intro s more hrest hmore
  have hclear₁ : ∀ e ∈ es' ++ more, clear e := by
    intro e he
    exact (List.mem_append.mp he).elim (hclear e) fun he => (hmore e he).1
  obtain ⟨s₁, hs₁, hrest₁, hconsumed₁⟩ :=
    h s (es' ++ more) (by rw [hrest, List.append_assoc]) hclear₁
  obtain ⟨s₂, hs₂, hrest₂, hconsumed₂⟩ := h' s₁ more hrest₁ fun e he => (hmore e he).2
  refine ⟨s₂, (ScanM.bind_of_ok hs₁).trans hs₂, hrest₂, ?_⟩
  rw [hconsumed₂, hconsumed₁, Element.sizes_append, Nat.add_assoc]

theorem map (f : α → β) (h : Takes clear scan a es) : Takes clear (f <$> scan) (f a) es := by
  intro s more hrest hmore
  obtain ⟨s', hs', hrest', hconsumed'⟩ := h s more hrest hmore
  exact ⟨s', ScanM.map_of_ok hs', hrest', hconsumed'⟩

theorem andReturn (f : α → β) (h : Takes clear scan a es) :
    Takes clear (do return f (← scan)) (f a) es := by
  rw [← map_eq_pure_bind]
  exact h.map f

/-- A step that asks for a name and takes nothing comes first. -/
theorem ask {name : String} {look : ScanM β} {next : β → ScanM α} {b : β}
    (hlook : ∀ s more, s.rest = es ++ more → (∀ e ∈ more, clear e) →
      look s = .ok (b, s.ask name))
    (h : Takes clear (next b) a es) : Takes clear (look >>= next) a es := by
  intro s more hrest hmore
  obtain ⟨s', hs', hrest', hconsumed'⟩ := h (s.ask name) more (by rw [s.rest_ask, hrest]) hmore
  refine ⟨s', (ScanM.bind_of_ok (hlook s more hrest hmore)).trans hs', hrest', ?_⟩
  rw [hconsumed', s.consumed_ask]

theorem scanMin {site : Site} {name : String} {min found : Nat} (h : min ≤ found) :
    Takes (fun _ => True) (scanMin site name min found) () [] := by
  unfold Schema.scanMin
  rw [if_neg (Nat.not_lt.mpr h)]
  exact .pure ()

/-- The values of a list are checked to be enough. -/
theorem enough (site : Site) (name : String) {scan : ScanM (List α)} {vs : List α} {min : Nat}
    (h : Takes clear scan vs es) (hmin : min ≤ vs.length) :
    Takes clear
      (do let values ← scan
          Schema.scanMin site name min values.length
          return values)
      vs es := by
  have hcheck : Takes (fun _ => True)
      (do Schema.scanMin site name min vs.length; return vs) vs [] :=
    (bind (scanMin hmin) (.pure vs) (by simp)).mono fun _ _ => ⟨trivial, trivial⟩
  have hboth : Takes (fun e => clear e ∧ True)
      (do let values ← scan
          Schema.scanMin site name min values.length
          return values)
      vs (es ++ []) := h.bind hcheck (by simp)
  rw [List.append_nil] at hboth
  exact hboth.mono fun e he => ⟨he, trivial⟩

/-- A child that is read to its end is taken with all that is below it. -/
theorem scanChild {site : Site} {result : Except Error (α × Nat)} {e : Element}
    (hbelow : 0 < site.below) (h : result = .ok (a, e.descendants)) :
    Takes (fun _ => True) (scanChild site result) a [e] := by
  intro s more hrest _
  refine ⟨{ s with rest := more, consumed := s.consumed + e.descendants + 1 }, ?_, rfl, ?_⟩
  · simp [Schema.scanChild, Nat.ne_of_gt hbelow, h, hrest, Except.map]
  · simp [Nat.add_assoc]

/-- An element whose children are all taken is read to its end. -/
theorem scanElement (site : Site)
    (h : Takes (fun _ => False) scan a site.element.childElements) :
    scanElement site scan = .ok (a, site.element.descendants) := by
  obtain ⟨s', hs', hrest', hconsumed'⟩ :=
    h { rest := site.element.childElements } [] (List.append_nil _).symm (by simp)
  have hend : scanEnd site s' = .ok ((), s') := by simp [scanEnd, hrest']
  have hscan : (do let a ← scan; scanEnd site; return a : ScanM α)
      { rest := site.element.childElements } = .ok (a, s') := by
    rw [ScanM.bind_of_ok hs', ScanM.bind_of_ok hend]
    rfl
  rw [Schema.scanElement, hscan, Element.descendants_eq]
  simp [Except.map, hconsumed']

end Takes

end GuestXml.Schema
