import GuestXml.Proofs.Xml.Normal
import GuestXml.Proofs.Xml.Tag

/-!
# Written trees are read back

A tree whose names are proper is read back in its normal form, from the compact and from
every indented text of it, as soon as the limit is no less than its height:
`Document.parse_toXml`. Reading an element that was written puts it, whole, where the
reader stands (`Document.parseFrom_written`). Inside an element the reader sees a run of
text only once it has come to the tag behind it, so the statement on content carries the
text that is still pending; a line break comes only where no text is pending, and there it
is a blank run of its own.
-/

namespace GuestXml.Xml.Document

open Element (written writtenContent writtenAttributes lineBreak wellNamed allWellNamed)

variable {maxDepth : Nat} {p p' : Progress}

/-! ### Single steps -/

theorem parseFrom_of_next? {cs rest : List Char} {event : Event}
    (hnext : Event.next? cs = .ok (some (event, rest)))
    (hstep : p.step maxDepth event = .ok p') :
    parseFrom maxDepth p cs = parseFrom maxDepth p' rest := by
  rw [parseFrom_eq, hnext]
  simp only [hstep]

theorem parseFrom_nil : parseFrom maxDepth p [] = p.finish := by
  rw [parseFrom_eq]
  rfl

/-! ### Runs of text -/

/-- Adds nodes to the content, in order. -/
def OpenElement.add (o : OpenElement) (nodes : List Node) : OpenElement :=
  { o with content := nodes.reverse ++ o.content }

@[simp] theorem OpenElement.add_nil (o : OpenElement) : o.add [] = o := rfl

theorem OpenElement.add_append (o : OpenElement) (ns ms : List Node) :
    o.add (ns ++ ms) = (o.add ns).add ms := by
  simp [OpenElement.add]

theorem OpenElement.add_cons (o : OpenElement) (n : Node) (ns : List Node) :
    o.add (n :: ns) = (o.push n).add ns := by
  simp [OpenElement.add, OpenElement.push]

variable (maxDepth) (o : OpenElement) (outer : List OpenElement) (root? : Option Element)

/-- A run of text in front of a tag adds the nodes of that run. -/
theorem parseFrom_run (cs rest : List Char) :
    parseFrom maxDepth ⟨o :: outer, root?⟩ (escape cs ++ '<' :: rest) =
      parseFrom maxDepth ⟨o.add (Node.ofRun (String.ofList cs)) :: outer, root?⟩
        ('<' :: rest) := by
  by_cases hcs : cs = []
  · subst hcs
    rfl
  · have hne : escape cs ≠ [] := by
      obtain ⟨c, cs, rfl⟩ := List.exists_cons_of_ne_nil hcs
      intro h
      have hread := unescape_escape (c :: cs)
      rw [h] at hread
      cases hread
    refine parseFrom_of_next? (Event.next?_text hne (fun c hc => (ne_of_mem_escape hc).1) rest) ?_
    simp only [Progress.step, unescape_escape]
    by_cases hblank : cs.all Text.isBlank = true
    · rw [if_pos hblank, Node.ofRun_of_isBlank (by simpa [Text.isBlankText] using hblank),
        OpenElement.add_nil]
    · rw [if_neg hblank, Node.ofRun, Text.isBlankText, String.toList_ofList, if_neg hblank]
      rfl

theorem mem_lineBreak {indent? : Option Nat} {depth : Nat} {c : Char}
    (h : c ∈ lineBreak indent? depth) : c = '\n' ∨ c = ' ' := by
  cases indent? with
  | none => cases h
  | some indent =>
    rcases List.mem_cons.mp h with rfl | h
    · exact .inl rfl
    · exact .inr (List.eq_of_mem_replicate h)

/-- A line break adds nothing. -/
theorem parseFrom_lineBreak (indent? : Option Nat) (depth : Nat) (rest : List Char) :
    parseFrom maxDepth ⟨o :: outer, root?⟩ (lineBreak indent? depth ++ '<' :: rest) =
      parseFrom maxDepth ⟨o :: outer, root?⟩ ('<' :: rest) := by
  have hself : escape (lineBreak indent? depth) = lineBreak indent? depth :=
    escape_eq_self fun c hc => by rcases mem_lineBreak hc with rfl | rfl <;> rfl
  have hblank : Text.isBlankText (String.ofList (lineBreak indent? depth)) = true := by
    rw [Text.isBlankText, String.toList_ofList, List.all_eq_true]
    intro c hc
    rcases mem_lineBreak hc with rfl | rfl <;> rfl
  have hrun := parseFrom_run maxDepth o outer root? (lineBreak indent? depth) rest
  rwa [hself, Node.ofRun_of_isBlank hblank, OpenElement.add_nil] at hrun

/-- What stands in front of a tag adds the run that is pending. -/
theorem parseFrom_pending (indent? : Option Nat) (depth : Nat) {afterTag : Bool}
    {pending : String} (hpending : afterTag = true → pending = "") (rest : List Char) :
    parseFrom maxDepth ⟨o :: outer, root?⟩
        (escape pending.toList ++ ((if afterTag then lineBreak indent? depth else []) ++
          '<' :: rest)) =
      parseFrom maxDepth ⟨o.add (Node.ofRun pending) :: outer, root?⟩ ('<' :: rest) := by
  cases afterTag with
  | true =>
    rw [hpending rfl, if_pos rfl]
    exact parseFrom_lineBreak maxDepth o outer root? indent? depth rest
  | false =>
    rw [if_neg Bool.false_ne_true, List.nil_append, parseFrom_run, String.ofList_toList]

/-! ### Elements and content -/

/-- A written element begins with a bracket. -/
theorem written_eq_cons (indent? : Option Nat) (depth : Nat) (e : Element) :
    ∃ r, written indent? depth e = '<' :: r := by
  obtain ⟨name, as, cs⟩ := e
  cases cs <;> exact ⟨_, rfl⟩

mutual
/-- **A written element is read whole**, in normal form, where the reader stands. -/
theorem parseFrom_written (indent? : Option Nat) :
    ∀ (e : Element) (depth : Nat) (p p' : Progress) (rest : List Char),
      e.wellNamed = true → p.stack.length + e.height ≤ maxDepth → p.attach e.normal = .ok p' →
        parseFrom maxDepth p (written indent? depth e ++ rest) = parseFrom maxDepth p' rest
  | ⟨name, as, []⟩, depth, p, p', rest, hnamed, hdepth, hattach => by
    obtain ⟨htag, -⟩ := Element.wellNamed_iff.mp hnamed
    have hroom : ¬maxDepth ≤ p.stack.length := by
      have := Element.height_pos ⟨name, as, []⟩
      omega
    have hstep : p.step maxDepth (.emptyTag name.toList (writtenAttributes as)) = .ok p' := by
      simp only [Progress.step, if_neg hroom, Attribute.parse_writtenAttributes htag,
        String.ofList_toList]
      rw [show (⟨name, as, []⟩ : Element) = Element.normal ⟨name, as, []⟩ from rfl, hattach]
      rfl
    have hnext := Event.next?_emptyTag htag rest
    rw [← parseFrom_of_next? hnext hstep, written]
    simp
  | ⟨name, as, n :: ns⟩, depth, p, p', rest, hnamed, hdepth, hattach => by
    obtain ⟨htag, hcontent⟩ := Element.wellNamed_iff.mp hnamed
    rw [Element.height] at hdepth
    have hroom : ¬maxDepth ≤ p.stack.length := by omega
    have hstart : p.step maxDepth (.startTag name.toList (writtenAttributes as)) =
        .ok ⟨⟨name, as, []⟩ :: p.stack, p.root?⟩ := by
      simp only [Progress.step, if_neg hroom, Attribute.parse_writtenAttributes htag,
        String.ofList_toList]
    have hend : Progress.step maxDepth
        ⟨OpenElement.add ⟨name, as, []⟩ (Node.normalFrom "" (n :: ns)) :: p.stack, p.root?⟩
        (.endTag name.toList) = .ok p' := by
      simp only [Progress.step, OpenElement.add, String.ofList_toList, if_true]
      rw [show OpenElement.close _ = Element.normal ⟨name, as, n :: ns⟩ by
        simp [OpenElement.close, Element.normal], hattach]
      rfl
    have hinner := parseFrom_writtenContent indent? (n :: ns) depth ⟨name, as, []⟩ p.stack p.root?
      true "" ('/' :: name.toList ++ '>' :: rest) hcontent (by omega) (fun _ => rfl)
    have hwritten : written indent? depth ⟨name, as, n :: ns⟩ ++ rest =
        '<' :: name.toList ++ writtenAttributes as ++ '>' ::
          (escape "".toList ++ writtenContent indent? depth true (n :: ns) ++
            '<' :: ('/' :: name.toList ++ '>' :: rest)) := by
      simp [written, escape]
    rw [hwritten, parseFrom_of_next? (Event.next?_startTag htag _) hstart, hinner]
    exact parseFrom_of_next? (Event.next?_endTag htag.isName_name rest) hend

/-- Written content adds its normal form to the innermost open element. -/
theorem parseFrom_writtenContent (indent? : Option Nat) :
    ∀ (nodes : List Node) (depth : Nat) (o : OpenElement) (outer : List OpenElement)
      (root? : Option Element) (afterTag : Bool) (pending : String) (rest : List Char),
      allWellNamed nodes = true → outer.length + 1 + Element.heights nodes ≤ maxDepth →
        (afterTag = true → pending = "") →
          parseFrom maxDepth ⟨o :: outer, root?⟩
              (escape pending.toList ++ writtenContent indent? depth afterTag nodes ++
                '<' :: rest) =
            parseFrom maxDepth ⟨o.add (Node.normalFrom pending nodes) :: outer, root?⟩
              ('<' :: rest)
  | [], depth, o, outer, root?, afterTag, pending, rest, _, _, hpending => by
    rw [writtenContent, List.append_assoc]
    exact parseFrom_pending maxDepth o outer root? indent? depth hpending rest
  | .text s :: ns, depth, o, outer, root?, afterTag, pending, rest, hnamed, hdepth, _ => by
    have hrest := parseFrom_writtenContent indent? ns depth o outer root? false (pending ++ s) rest
      hnamed hdepth (fun h => nomatch h)
    rw [String.toList_append, escape_append] at hrest
    rw [writtenContent, ← List.append_assoc]
    exact hrest
  | .element e :: ns, depth, o, outer, root?, afterTag, pending, rest, hnamed, hdepth, hpending => by
    rw [allWellNamed, Bool.and_eq_true] at hnamed
    rw [Element.heights] at hdepth
    have hbefore := parseFrom_pending maxDepth o outer root? indent? (depth + 1) hpending
    have helement := parseFrom_written indent? e (depth + 1)
      ⟨o.add (Node.ofRun pending) :: outer, root?⟩
      ⟨(o.add (Node.ofRun pending)).push (.element e.normal) :: outer, root?⟩
      (writtenContent indent? depth true ns ++ '<' :: rest) hnamed.1
      (by simp only [List.length_cons]; omega) rfl
    have hrest := parseFrom_writtenContent indent? ns depth
      ((o.add (Node.ofRun pending)).push (.element e.normal)) outer root? true "" rest hnamed.2
      (by omega) (fun _ => rfl)
    obtain ⟨r, hr⟩ := written_eq_cons indent? (depth + 1) e
    rw [hr] at helement
    rw [writtenContent, hr, Node.normalFrom, OpenElement.add_append, OpenElement.add_cons, ← hrest]
    simp only [List.append_assoc, List.cons_append] at helement hbefore ⊢
    rw [hbefore, helement]
    rfl
end

variable {maxDepth}

/-- A written tree is read in its normal form. The root may always be there. -/
theorem parse_written (indent? : Option Nat) {e : Element} (hnamed : e.wellNamed = true)
    (hdepth : e.height ≤ max maxDepth 1) :
    parse maxDepth (String.ofList (written indent? 0 e)) = .ok e.normal := by
  have hread := parseFrom_written (max maxDepth 1) indent? e 0 {} ⟨[], some e.normal⟩ [] hnamed
    (by simpa using hdepth) rfl
  obtain ⟨r, hr⟩ := written_eq_cons indent? 0 e
  rw [List.append_nil, parseFrom_nil] at hread
  rw [parse, String.toList_ofList]
  rw [hr] at hread ⊢
  exact hread

/-- **Reading undoes writing, up to the normal form of text.** A tree with proper names is
read back in its normal form from its compact text and from every indented one, under every
limit that is no less than its height. -/
theorem parse_toXml {e : Element} (hnamed : e.wellNamed = true) (hdepth : e.height ≤ maxDepth) :
    parse maxDepth e.toXml = .ok e.normal ∧
      ∀ indent, parse maxDepth (e.toXmlPretty indent) = .ok e.normal := by
  have hroom := Nat.le_trans hdepth (Nat.le_max_left maxDepth 1)
  constructor
  · exact parse_written none hnamed hroom
  · intro indent
    exact parse_written (some indent) hnamed hroom

/-- Mixed content: a value full of marks, blank runs, a run in three parts that looks like
markup, and an element with nothing but an empty text. -/
theorem parse_toXml_mixed :
    let e : Element :=
      { name := "d\u00e9p\u00f4t", attributes := [("xml:id", " <\"&'>\n"), ("b", "")],
        children := [
          .text " ", .text "\u00a0", .element { name := "a", children := [.text ""] },
          .text "", .text " ]]>", .text "&lt;", .element { name := "b" }, .text "\t"] }
    let read : Element :=
      { e with children := [.element { name := "a" }, .text " ]]>&lt;", .element { name := "b" }] }
    e.wellNamed = true ∧ e.height ≤ 2 ∧ e.normal = read ∧ parse 2 e.toXml = .ok read ∧
      ∀ indent, parse 2 (e.toXmlPretty indent) = .ok read := by
  intro e read
  have hnamed : e.wellNamed = true := by decide
  have hdepth : e.height ≤ 2 := by decide
  have hnormal : e.normal = read := by decide
  have hread := parse_toXml hnamed hdepth
  rw [hnormal] at hread
  exact ⟨hnamed, hdepth, hnormal, hread⟩

end GuestXml.Xml.Document
