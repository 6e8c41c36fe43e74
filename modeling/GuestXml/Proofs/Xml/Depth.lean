import GuestXml.Proofs.Xml.Tree
import GuestXml.Xml.Document

/-!
# The limit on nesting while a document is read

How deep the elements that were read so far nest is the reach of the progress made
(`Progress.reach`). A step raises it to the depth of the tag it takes in, and the limit has
no say in a step but to refuse a tag that lies too deep (`Progress.step_eq_step`,
`Progress.step_of_limit_lt`). So a lower limit gives the same result or the error of that
limit, and the error is due exactly if the document is higher than the limit:
`Document.parse_limit`.
-/

namespace GuestXml.Xml

theorem Element.heights_reverse (ns : List Node) : heights ns.reverse = heights ns := by
  induction ns with
  | nil => rfl
  | cons n ns ih =>
    rw [List.reverse_cons, heights_append, ih, Nat.max_comm]
    cases n <;> simp [heights]

namespace Document

theorem OpenElement.height_close (o : OpenElement) :
    o.close.height = Element.heights o.content + 1 := by
  rw [close, Element.height, Element.heights_reverse]

namespace Progress

/-! ### Reach -/

/-- How deep the open elements and what they hold so far nest. -/
def stackReach : List OpenElement → Nat
  | [] => 0
  | o :: outer => max (outer.length + 1 + Element.heights o.content) (stackReach outer)

/-- How deep the elements nest that were read so far. -/
def reach (p : Progress) : Nat :=
  max (stackReach p.stack) ((p.root?.map Element.height).getD 0)

/-- The depth at which an event opens an element; zero if it opens none. -/
def tagDepth (p : Progress) : Event → Nat
  | .startTag .. | .emptyTag .. => p.stack.length + 1
  | _ => 0

theorem stackReach_push (parent : OpenElement) (outer : List OpenElement) (e : Element) :
    stackReach (parent.push (.element e) :: outer) =
      max (outer.length + 1 + e.height) (stackReach (parent :: outer)) := by
  simp only [stackReach, OpenElement.push, Element.heights]
  omega

theorem stackReach_push_text (parent : OpenElement) (outer : List OpenElement) (s : String) :
    stackReach (parent.push (.text s) :: outer) = stackReach (parent :: outer) := by
  simp only [stackReach, OpenElement.push, Element.heights]

/-! ### One step -/

variable {p p' : Progress} {limit limit' : Nat} {event : Event}

/-- Limits that leave room for a tag do not tell steps apart. -/
theorem step_eq_step (h : p.tagDepth event ≤ limit) (h' : p.tagDepth event ≤ limit') :
    p.step limit event = p.step limit' event := by
  cases event with
  | startTag name attributes =>
    simp only [tagDepth] at h h'
    simp only [step, if_neg (Nat.not_le.mpr h), if_neg (Nat.not_le.mpr h')]
  | emptyTag name attributes =>
    simp only [tagDepth] at h h'
    simp only [step, if_neg (Nat.not_le.mpr h), if_neg (Nat.not_le.mpr h')]
  | _ => rfl

/-- A tag that lies too deep is refused. -/
theorem step_of_limit_lt (h : limit < p.tagDepth event) :
    p.step limit event = .error (.depthExceeded limit) := by
  cases event with
  | startTag name attributes => exact if_pos (Nat.le_of_lt_succ h)
  | emptyTag name attributes => exact if_pos (Nat.le_of_lt_succ h)
  | _ => cases h

theorem reach_addText (s : String) : (p.addText s).reach = p.reach := by
  obtain ⟨stack, root?⟩ := p
  cases stack with
  | nil => rfl
  | cons parent outer => simp only [reach, addText, stackReach_push_text]

theorem reach_of_attach {e : Element} {q : Progress}
    (h : (p.attach e).mapError Error.malformed = .ok q) :
    q.reach = max p.reach (p.stack.length + e.height) := by
  obtain ⟨stack, root?⟩ := p
  cases stack with
  | cons parent outer =>
    cases h
    simp only [reach, stackReach_push, List.length_cons]
    omega
  | nil =>
    cases root? with
    | some root => cases h
    | none =>
      cases h
      simp [reach, stackReach]

/-- A step raises the reach to the depth of its tag, which the limit has room for. -/
theorem reach_of_step (h : p.step limit event = .ok p') :
    p'.reach = max p.reach (p.tagDepth event) ∧ p.tagDepth event ≤ limit := by
  rcases Nat.lt_or_ge limit (p.tagDepth event) with hdeep | hroom
  · rw [step_of_limit_lt hdeep] at h
    cases h
  · refine ⟨?_, hroom⟩
    cases event with
    | startTag name attributes =>
      simp only [tagDepth] at hroom
      simp only [step, if_neg (Nat.not_le.mpr hroom)] at h
      split at h
      · cases h
        simp only [reach, stackReach, tagDepth, Element.heights]
        omega
      · cases h
    | emptyTag name attributes =>
      simp only [tagDepth] at hroom
      simp only [step, if_neg (Nat.not_le.mpr hroom)] at h
      split at h
      · rw [reach_of_attach h]
        rfl
      · cases h
    | endTag name =>
      simp only [step] at h
      split at h
      · rename_i o outer hstack
        split at h
        · rw [reach_of_attach h, OpenElement.height_close]
          simp only [reach, hstack, stackReach, tagDepth]
          omega
        · cases h
      · cases h
    | text written =>
      simp only [step] at h
      split at h
      · cases h
        split
        · simp [tagDepth]
        · simp [tagDepth, reach_addText]
      · cases h
    | verbatim content =>
      cases h
      simp [tagDepth, reach_addText]
    | ignored =>
      cases h
      simp [tagDepth]

theorem reach_of_finish {root : Element} (h : p.finish = .ok root) : p.reach = root.height := by
  obtain ⟨stack, root?⟩ := p
  cases stack with
  | cons o outer => cases h
  | nil =>
    cases root? with
    | none => cases h
    | some r =>
      cases h
      simp [reach, stackReach]

end Progress

/-! ### Whole documents -/

section Runs

variable {limit limit' : Nat}

/-- With a lower limit the result is the same or the error of that limit. -/
theorem parseFrom_of_limit_le (h : limit ≤ limit') (p : Progress) (cs : List Char) :
    parseFrom limit p cs = parseFrom limit' p cs ∨
      parseFrom limit p cs = .error (.depthExceeded limit) := by
  rw [parseFrom_eq limit, parseFrom_eq limit']
  cases hnext : Event.next? cs with
  | error m => exact .inl rfl
  | ok next? =>
    obtain _ | ⟨event, rest⟩ := next?
    · exact .inl rfl
    · have hshorter := Event.length_lt_of_next? hnext
      dsimp only
      rcases Nat.lt_or_ge limit (p.tagDepth event) with hdeep | hroom
      · rw [Progress.step_of_limit_lt hdeep]
        exact .inr rfl
      · rw [Progress.step_eq_step hroom (Nat.le_trans hroom h)]
        cases hstep : p.step limit' event with
        | error e => exact .inl rfl
        | ok p' => exact parseFrom_of_limit_le h p' rest
termination_by cs.length
decreasing_by exact hshorter

/-- The document that is read is as high as the deepest tag, and the limit has room for it. -/
theorem height_of_parseFrom {p : Progress} {cs : List Char} {root : Element}
    (h : parseFrom limit p cs = .ok root) :
    p.reach ≤ root.height ∧ root.height ≤ max p.reach limit := by
  rw [parseFrom_eq] at h
  cases hnext : Event.next? cs with
  | error m =>
    rw [hnext] at h
    cases h
  | ok next? =>
    rw [hnext] at h
    obtain _ | ⟨event, rest⟩ := next?
    · have hreach := Progress.reach_of_finish h
      omega
    · have hshorter := Event.length_lt_of_next? hnext
      dsimp only at h
      cases hstep : p.step limit event with
      | error e =>
        rw [hstep] at h
        cases h
      | ok p' =>
        rw [hstep] at h
        obtain ⟨hreach, hroom⟩ := Progress.reach_of_step hstep
        obtain ⟨hlow, hhigh⟩ := height_of_parseFrom h
        omega
termination_by cs.length
decreasing_by exact hshorter

/-- A document is read under every limit that is no less than its height. -/
theorem parseFrom_of_height_le {p : Progress} {cs : List Char} {root : Element}
    (h : parseFrom limit' p cs = .ok root) (hheight : root.height ≤ limit) :
    parseFrom limit p cs = .ok root := by
  rw [parseFrom_eq] at h ⊢
  cases hnext : Event.next? cs with
  | error m =>
    rw [hnext] at h
    cases h
  | ok next? =>
    rw [hnext] at h
    obtain _ | ⟨event, rest⟩ := next?
    · exact h
    · have hshorter := Event.length_lt_of_next? hnext
      dsimp only at h ⊢
      cases hstep : p.step limit' event with
      | error e =>
        rw [hstep] at h
        cases h
      | ok p' =>
        rw [hstep] at h
        obtain ⟨hreach, hroom⟩ := Progress.reach_of_step hstep
        have hlow := (height_of_parseFrom h).1
        have hstep' : p.step limit event = .ok p' :=
          (Progress.step_eq_step (by omega) hroom).trans hstep
        rw [hstep']
        exact parseFrom_of_height_le h hheight
termination_by cs.length
decreasing_by exact hshorter

/-- A document that was read is no higher than the limit. -/
theorem height_of_parse {maxDepth : Nat} {xml : String} {root : Element}
    (h : parse maxDepth xml = .ok root) : root.height ≤ max maxDepth 1 := by
  have hhigh := (height_of_parseFrom h).2
  have hstart : ({} : Progress).reach = 0 := rfl
  omega

/-- A lower limit gives the same result or its own error, and the error exactly for documents
that are higher than the limit. -/
theorem parse_limit {a b : Nat} (hab : a ≤ b) (xml : String) :
    (parse a xml = parse b xml ∨ parse a xml = .error (.depthExceeded (max a 1))) ∧
      ∀ root, parse b xml = .ok root →
        (parse a xml = .error (.depthExceeded (max a 1)) ↔ max a 1 < root.height) := by
  have hlimits : max a 1 ≤ max b 1 := by omega
  have hcut := parseFrom_of_limit_le hlimits {} (dropMark xml.toList)
  refine ⟨hcut, fun root hroot => ?_⟩
  constructor
  · intro hdeep
    rcases Nat.lt_or_ge (max a 1) root.height with hlt | hle
    · exact hlt
    · cases hdeep.symm.trans (parseFrom_of_height_le hroot hle)
  · intro hlt
    rcases hcut with hsame | hdeep
    · have hle := height_of_parse (hsame.trans hroot)
      omega
    · exact hdeep

end Runs

end Document

end GuestXml.Xml
