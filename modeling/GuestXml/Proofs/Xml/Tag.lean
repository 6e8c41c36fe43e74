import GuestXml.Proofs.Xml.Name
import GuestXml.Xml.Document
import GuestXml.Xml.Tree
import Mathlib.Data.List.Nodup

/-!
# Written texts and tags are read back

Escaped text stands for the text it was made from (`unescape_escape`) and has no character
that ends text or a quoted value. So the attributes of a written tag are read back as they
were (`Attribute.parse_writtenAttributes`), and what begins at a written tag is the event
of that tag (`Event.next?_startTag`, `Event.next?_emptyTag`, `Event.next?_endTag`).
-/

namespace GuestXml.Xml

/-! ### References -/

theorem escapeChar_eq (c : Char) :
    (∃ name, escapeChar c = '&' :: name ++ [';'] ∧ referent? name = some c ∧
        ∀ d ∈ name, d ≠ ';' ∧ d ≠ '&' ∧ d ≠ '<' ∧ d ≠ '>' ∧ d ≠ '"') ∨
      escapeChar c = [c] ∧ c ≠ '&' ∧ c ≠ '<' ∧ c ≠ '>' ∧ c ≠ '"' := by
  unfold escapeChar
  split
  · exact .inl ⟨['l', 't'], rfl, rfl, by simp⟩
  · exact .inl ⟨['g', 't'], rfl, rfl, by simp⟩
  · exact .inl ⟨['a', 'm', 'p'], rfl, rfl, by simp⟩
  · exact .inl ⟨['a', 'p', 'o', 's'], rfl, rfl, by simp⟩
  · exact .inl ⟨['q', 'u', 'o', 't'], rfl, rfl, by simp⟩
  · rename_i hlt hgt hamp _ hquot
    exact .inr ⟨rfl, hamp, hlt, hgt, hquot⟩

/-- A reference whose name is complete stands for its character. -/
theorem unescapeFrom_name {c : Char} (r : List Char) :
    ∀ {name before : List Char}, (∀ d ∈ name, d ≠ ';' ∧ d ≠ '&') →
      referent? (before.reverse ++ name) = some c →
        unescapeFrom (some before) (name ++ ';' :: r) = (c :: ·) <$> unescapeFrom none r := by
  intro name
  induction name with
  | nil =>
    intro before _ hc
    rw [List.append_nil] at hc
    rw [List.nil_append, unescapeFrom, if_pos rfl, hc]
  | cons d name ih =>
    intro before hname hc
    obtain ⟨hsemi, hamp⟩ := hname d List.mem_cons_self
    rw [List.cons_append, unescapeFrom, if_neg hsemi, if_neg hamp]
    refine ih (fun d' hd' => hname d' (List.mem_cons_of_mem d hd')) ?_
    rw [List.reverse_cons, List.append_assoc, List.singleton_append]
    exact hc

theorem unescapeFrom_escapeChar (c : Char) (r : List Char) :
    unescapeFrom none (escapeChar c ++ r) = (c :: ·) <$> unescapeFrom none r := by
  rcases escapeChar_eq c with ⟨name, hname, href, hplain⟩ | ⟨hself, hamp, -⟩
  · rw [hname, List.append_assoc, List.singleton_append, List.cons_append, unescapeFrom,
      if_pos rfl]
    exact unescapeFrom_name r (fun d hd => ⟨(hplain d hd).1, (hplain d hd).2.1⟩) href
  · rw [hself, List.singleton_append, unescapeFrom, if_neg hamp]

/-- **What is escaped is read back.** -/
theorem unescape_escape (cs : List Char) : unescape (escape cs) = .ok cs := by
  induction cs with
  | nil => rfl
  | cons c cs ih =>
    rw [unescape] at ih ⊢
    rw [escape, List.flatMap_cons, unescapeFrom_escapeChar, ← escape, ih]
    rfl

theorem escape_append (cs ds : List Char) : escape (cs ++ ds) = escape cs ++ escape ds :=
  List.flatMap_append

/-- Written text has no bracket and no double quote. -/
theorem ne_of_mem_escape {cs : List Char} {d : Char} (h : d ∈ escape cs) :
    d ≠ '<' ∧ d ≠ '>' ∧ d ≠ '"' := by
  obtain ⟨c, -, hd⟩ := List.mem_flatMap.mp h
  rcases escapeChar_eq c with ⟨name, hname, -, hplain⟩ | ⟨hself, -, hlt, hgt, hquot⟩
  · rw [hname, List.cons_append, List.mem_cons, List.mem_append, List.mem_singleton] at hd
    rcases hd with rfl | hd | rfl
    · decide
    · exact (hplain d hd).2.2
    · decide
  · rw [hself, List.mem_singleton] at hd
    subst hd
    exact ⟨hlt, hgt, hquot⟩

/-- A text that needs no reference is written as it is. -/
theorem escape_eq_self {cs : List Char} (h : ∀ c ∈ cs, escapeChar c = [c]) : escape cs = cs := by
  induction cs with
  | nil => rfl
  | cons c cs ih =>
    rw [escape, List.flatMap_cons, h c List.mem_cons_self, ← escape,
      ih fun d hd => h d (List.mem_cons_of_mem c hd)]
    rfl

/-! ### Attributes -/

namespace Element

@[simp] theorem writtenAttributes_nil : writtenAttributes [] = [] := rfl

theorem writtenAttributes_cons (a : String × String) (as : List (String × String)) :
    writtenAttributes (a :: as) =
      ' ' :: a.1.toList ++ '=' :: '"' :: escape a.2.toList ++ '"' :: writtenAttributes as := by
  rw [writtenAttributes, List.flatMap_cons, ← writtenAttributes]
  simp [List.append_assoc]

end Element

namespace Attribute

open Element (writtenAttributes writtenAttributes_cons TagNamed)

theorem inName_of_isNameChar {c : Char} (h : isNameChar c = true) : inName c = true := by
  rw [inName, isSpace_of_isNameChar h, Bool.not_false, Bool.and_true]
  exact bne_iff_ne.mpr (ne_of_isNameChar h (by decide))

/-- The mark behind a value is the first one if there is none in the value. -/
theorem splitAtMark_singleton {q : Char} {value : List Char} (rest : List Char)
    (h : ∀ c ∈ value, c ≠ q) :
    Event.splitAtMark [q] (value ++ q :: rest) = some (value, rest) := by
  induction value with
  | nil =>
    rw [List.nil_append, Event.splitAtMark, if_pos (by simp [List.isPrefixOf])]
    rfl
  | cons c value ih =>
    have hc : ([q].isPrefixOf (c :: (value ++ q :: rest))) = false := by
      simpa [List.isPrefixOf] using (h c List.mem_cons_self).symm
    rw [List.cons_append, Event.splitAtMark, hc, if_neg Bool.false_ne_true,
      ih fun d hd => h d (List.mem_cons_of_mem c hd)]
    rfl

/-- The first written attribute is read first. -/
theorem next?_writtenAttributes_cons {a : String × String} (as : List (String × String))
    (h : isName a.1 = true) :
    next? (writtenAttributes (a :: as)) =
      .ok (some ((a.1.toList, escape a.2.toList), writtenAttributes as)) := by
  obtain ⟨k, r, hk, hstart, hall⟩ := isName_iff.mp h
  have hspace : isSpace k = false := isSpace_of_isNameChar (isNameChar_of_isNameStart hstart)
  have hr : ∀ d ∈ r, inName d = true := fun d hd =>
    inName_of_isNameChar (hall d (hk ▸ List.mem_cons_of_mem k hd))
  have hvalue := splitAtMark_singleton (writtenAttributes as)
    fun c (hc : c ∈ escape a.2.toList) => (ne_of_mem_escape hc).2.2
  rw [writtenAttributes_cons, hk]
  have hblank : (' ' :: (k :: r) ++ '=' :: '"' :: escape a.2.toList ++
      '"' :: writtenAttributes as).dropWhile isSpace =
        k :: (r ++ '=' :: '"' :: (escape a.2.toList ++ '"' :: writtenAttributes as)) := by
    simp [hspace, show isSpace ' ' = true from rfl]
  have hname : ∀ s, (r ++ '=' :: s).dropWhile inName = '=' :: s ∧
      (r ++ '=' :: s).takeWhile inName = r := by
    intro s
    have heq : inName '=' = false := rfl
    constructor
    · rw [List.dropWhile_append_of_pos hr, List.dropWhile_cons_of_neg (by simp [heq])]
    · rw [List.takeWhile_append_of_pos hr, List.takeWhile_cons_of_neg (by simp [heq]),
        List.append_nil]
  simp only [next?, hblank, (hname _).1, (hname _).2,
    List.dropWhile_cons_of_neg (show ¬isSpace '=' = true by decide),
    List.dropWhile_cons_of_neg (show ¬isSpace '"' = true by decide), true_or, if_true, hvalue]

theorem written_writtenAttributes {as : List (String × String)}
    (h : ∀ a ∈ as, isName a.1 = true) :
    written (writtenAttributes as) =
      .ok (as.map fun a => (a.1.toList, escape a.2.toList)) := by
  induction as with
  | nil =>
    rw [Element.writtenAttributes_nil, written]
    rfl
  | cons a as ih =>
    have hnext := next?_writtenAttributes_cons as (h a List.mem_cons_self)
    rw [written]
    split
    · rename_i e he
      rw [hnext] at he
      cases he
    · rename_i he
      rw [hnext] at he
      cases he
    · rename_i b rest hb
      rw [hnext] at hb
      cases hb
      rw [ih fun b hb => h b (List.mem_cons_of_mem a hb)]
      rfl

/-- **Written attributes are read back.** -/
theorem parse_writtenAttributes {name : String} {as : List (String × String)}
    (h : TagNamed name as) : parse (writtenAttributes as) = .ok as := by
  have hnodup : ((as.map fun a => (a.1.toList, escape a.2.toList)).map (·.1)).Nodup := by
    rw [List.map_map]
    have hmap : as.map ((fun x : List Char × List Char => x.1) ∘
        fun a : String × String => (a.1.toList, escape a.2.toList)) =
          (as.map (·.1)).map String.toList := by rw [List.map_map]; rfl
    rw [hmap]
    exact List.Nodup.map (fun _ _ h => String.toList_injective h) h.nodup
  have hvalues : ∀ bs : List (String × String),
      (bs.map fun a => (a.1.toList, escape a.2.toList)).mapM (m := Except Malformation)
        (fun a => do return (String.ofList a.1, String.ofList (← unescape a.2))) = .ok bs := by
    intro bs
    induction bs with
    | nil => rfl
    | cons b bs ih =>
      rw [List.map_cons, List.mapM_cons, ih, unescape_escape]
      show Except.ok ((String.ofList b.1.toList, String.ofList b.2.toList) :: bs) = _
      rw [String.ofList_toList, String.ofList_toList]
  rw [parse, written_writtenAttributes h.isName_attribute]
  show (if _ then _ else _) = _
  rw [if_pos hnodup]
  exact hvalues as

end Attribute

/-! ### Tags -/

namespace Event

open Element (writtenAttributes writtenAttributes_cons TagNamed)

/-- A part of a tag that begins and ends outside quotes, with no `>` outside them: the end
of the tag is looked for behind it. -/
def Crosses (part : List Char) : Prop :=
  ∀ r, splitTag none (part ++ r) = (splitTag none r).map fun (before, after) =>
    (part ++ before, after)

theorem Crosses.nil : Crosses [] := by
  intro r
  cases h : splitTag none r <;> simp [h]

theorem Crosses.append {a b : List Char} (ha : Crosses a) (hb : Crosses b) :
    Crosses (a ++ b) := by
  intro r
  rw [List.append_assoc, ha, hb]
  cases splitTag none r <;> simp

theorem crosses_singleton {c : Char} (hclose : c ≠ '>') (hapos : c ≠ '\'') (hquot : c ≠ '"') :
    Crosses [c] := by
  intro r
  rw [List.singleton_append, splitTag, if_neg hclose, if_neg (not_or.mpr ⟨hapos, hquot⟩)]
  rfl

theorem crosses_name {s : String} (h : isName s = true) : Crosses s.toList := by
  have hall : ∀ cs : List Char, (∀ c ∈ cs, isNameChar c = true) → Crosses cs := by
    intro cs
    induction cs with
    | nil => exact fun _ => Crosses.nil
    | cons c cs ih =>
      intro hcs
      have hc := hcs c List.mem_cons_self
      exact (crosses_singleton (ne_of_isNameChar hc (by decide)) (ne_of_isNameChar hc (by decide))
        (ne_of_isNameChar hc (by decide))).append
          (ih fun d hd => hcs d (List.mem_cons_of_mem c hd))
  exact hall _ fun c hc => isNameChar_of_mem h hc

/-- Inside quotes everything up to the closing quote is passed over. -/
theorem splitTag_quoted {value : List Char} (r : List Char) (h : ∀ c ∈ value, c ≠ '"') :
    splitTag (some '"') (value ++ '"' :: r) =
      (splitTag none r).map fun (before, after) => (value ++ '"' :: before, after) := by
  induction value with
  | nil => rw [List.nil_append, splitTag, if_pos rfl]; rfl
  | cons c value ih =>
    rw [List.cons_append, splitTag, if_neg (h c List.mem_cons_self),
      ih fun d hd => h d (List.mem_cons_of_mem c hd), Option.map_map]
    rfl

theorem crosses_value (value : List Char) : Crosses ('"' :: escape value ++ ['"']) := by
  intro r
  rw [List.append_assoc, List.singleton_append, List.cons_append, splitTag,
    if_neg (by decide), if_pos (.inr rfl),
    splitTag_quoted r fun c hc => (ne_of_mem_escape hc).2.2, Option.map_map]
  cases splitTag none r <;> simp

theorem crosses_writtenAttributes {as : List (String × String)}
    (h : ∀ a ∈ as, isName a.1 = true) : Crosses (writtenAttributes as) := by
  induction as with
  | nil => exact Crosses.nil
  | cons a as ih =>
    have hblank : Crosses [' '] := crosses_singleton (by decide) (by decide) (by decide)
    have heq : Crosses ['='] := crosses_singleton (by decide) (by decide) (by decide)
    have hrest := ih fun b hb => h b (List.mem_cons_of_mem a hb)
    have hparts := hblank.append ((crosses_name (h a List.mem_cons_self)).append
      (heq.append ((crosses_value a.2.toList).append hrest)))
    rw [writtenAttributes_cons]
    simpa using hparts

theorem splitTag_of_crosses {part : List Char} (h : Crosses part) (r : List Char) :
    splitTag none (part ++ '>' :: r) = some (part, r) := by
  rw [h, splitTag, if_pos rfl]
  simp

/-- The attributes of a written tag begin with a blank. -/
theorem writtenAttributes_eq (as : List (String × String)) :
    writtenAttributes as = [] ∨ ∃ r, writtenAttributes as = ' ' :: r := by
  cases as with
  | nil => exact .inl rfl
  | cons a as => exact .inr ⟨_, writtenAttributes_cons a as⟩

/-- The name of a tag ends where the written attributes begin. -/
theorem split_name {name : String} (h : isName name = true) (as : List (String × String)) :
    (name.toList ++ writtenAttributes as).takeWhile (!isSpace ·) = name.toList ∧
      (name.toList ++ writtenAttributes as).dropWhile (!isSpace ·) = writtenAttributes as := by
  have hname : ∀ c ∈ name.toList, (!isSpace c) = true := by
    intro c hc
    rw [isSpace_of_isNameChar (isNameChar_of_mem h hc)]
    rfl
  rw [List.takeWhile_append_of_pos hname, List.dropWhile_append_of_pos hname]
  rcases writtenAttributes_eq as with has | ⟨r, has⟩
  · simp [has]
  · rw [has, List.takeWhile_cons_of_neg (by decide), List.dropWhile_cons_of_neg (by decide)]
    simp

/-- The last character of a written tag is a quote or belongs to the name. -/
theorem getLast?_ne_slash {name : String} {as : List (String × String)}
    (h : TagNamed name as) :
    (name.toList ++ writtenAttributes as).getLast? ≠ some '/' := by
  intro hlast
  rcases List.eq_nil_or_concat as with rfl | ⟨as, a, rfl⟩
  · rw [Element.writtenAttributes_nil, List.append_nil] at hlast
    exact ne_of_isNameChar (isNameChar_of_mem h.isName_name (List.mem_of_getLast? hlast))
      (by decide) rfl
  · have hquote : writtenAttributes (as.concat a) =
        writtenAttributes as ++ ' ' :: a.1.toList ++ '=' :: '"' :: escape a.2.toList ++ ['"'] := by
      simp [writtenAttributes]
    rw [hquote, ← List.append_assoc, List.getLast?_concat] at hlast
    cases hlast

/-- What begins behind the bracket of a written tag is a tag. -/
theorem markup?_of_isNameStart {c : Char} {r content rest : List Char}
    (h : isNameStart c = true) (hsplit : splitTag none (c :: r) = some (content, rest)) :
    markup? (c :: r) = .ok (some (ofTag content, rest)) := by
  have hne : ∀ d, isNameChar d = false → c ≠ d := fun d hd =>
    ne_of_isNameChar (isNameChar_of_isNameStart h) hd
  have hbang := hne '!' (by decide)
  have hslash := hne '/' (by decide)
  have hquestion := hne '?' (by decide)
  unfold markup?
  split
  · cases ‹_ = []›
  · exact absurd (List.cons.inj ‹_›).1 hbang
  · exact absurd (List.cons.inj ‹_›).1 hbang
  · exact absurd (List.cons.inj ‹_›).1 hbang
  · exact absurd (List.cons.inj ‹_›).1 hslash
  · exact absurd (List.cons.inj ‹_›).1 hquestion
  · rw [hsplit]

theorem next?_of_crosses {name : String} (h : isName name = true) {part : List Char}
    (hpart : Crosses part) (r : List Char) :
    next? ('<' :: name.toList ++ part ++ '>' :: r) =
      .ok (some (ofTag (name.toList ++ part), r)) := by
  obtain ⟨c, cs, hc, hstart, -⟩ := isName_iff.mp h
  have hsplit := splitTag_of_crosses ((crosses_name h).append hpart) r
  rw [List.cons_append, List.cons_append, next?]
  rw [hc, List.cons_append, List.cons_append] at hsplit ⊢
  exact markup?_of_isNameStart hstart hsplit

/-- What begins at a written start tag. -/
theorem next?_startTag {name : String} {as : List (String × String)} (h : TagNamed name as)
    (r : List Char) :
    next? ('<' :: name.toList ++ writtenAttributes as ++ '>' :: r) =
      .ok (some (.startTag name.toList (writtenAttributes as), r)) := by
  obtain ⟨htake, hdrop⟩ := split_name h.isName_name as
  rw [next?_of_crosses h.isName_name (crosses_writtenAttributes h.isName_attribute), ofTag,
    if_neg (getLast?_ne_slash h), htake, hdrop]

/-- What begins at the written tag of an element without content. -/
theorem next?_emptyTag {name : String} {as : List (String × String)} (h : TagNamed name as)
    (r : List Char) :
    next? ('<' :: name.toList ++ writtenAttributes as ++ '/' :: '>' :: r) =
      .ok (some (.emptyTag name.toList (writtenAttributes as), r)) := by
  obtain ⟨htake, hdrop⟩ := split_name h.isName_name as
  have hslash : Crosses ['/'] := crosses_singleton (by decide) (by decide) (by decide)
  have hnext := next?_of_crosses h.isName_name
    ((crosses_writtenAttributes h.isName_attribute).append hslash) r
  have htag : ofTag (name.toList ++ (writtenAttributes as ++ ['/'])) =
      .emptyTag name.toList (writtenAttributes as) := by
    rw [← List.append_assoc, ofTag, if_pos List.getLast?_concat, List.dropLast_concat]
    dsimp only
    rw [htake, hdrop]
  rw [htag] at hnext
  simpa using hnext

/-- What begins at a written end tag. -/
theorem next?_endTag {name : String} (h : isName name = true) (r : List Char) :
    next? ('<' :: '/' :: name.toList ++ '>' :: r) = .ok (some (.endTag name.toList, r)) := by
  have hchar := fun c (hc : c ∈ name.toList) => isNameChar_of_mem h hc
  have hclose : ∀ c ∈ name.toList, decide (c ≠ '>') = true := fun c hc =>
    decide_eq_true (ne_of_isNameChar (hchar c hc) (by decide))
  have hsplit : splitAtClose (name.toList ++ '>' :: r) = (name.toList, r) := by
    rw [splitAtClose, List.takeWhile_append_of_pos hclose, List.dropWhile_append_of_pos hclose]
    simp
  have hnoBlank : name.toList.reverse.dropWhile isSpace = name.toList.reverse := by
    cases hrev : name.toList.reverse with
    | nil => rfl
    | cons d ds =>
      have hd : d ∈ name.toList := List.mem_reverse.mp (hrev ▸ List.mem_cons_self)
      rw [List.dropWhile_cons_of_neg (by simp [isSpace_of_isNameChar (hchar d hd)])]
  have hend : endName name.toList = name.toList := by
    rw [endName, hnoBlank, List.reverse_reverse, ite_self]
  rw [List.cons_append, List.cons_append, next?, markup?, hsplit]
  show Except.ok (some (endTag (endName name.toList), r)) = _
  rw [hend]

/-- What begins at a run of written text in front of a tag. -/
theorem next?_text {w : List Char} (hne : w ≠ []) (h : ∀ c ∈ w, c ≠ '<') (r : List Char) :
    next? (w ++ '<' :: r) = .ok (some (.text w, '<' :: r)) := by
  obtain ⟨c, w, rfl⟩ := List.exists_cons_of_ne_nil hne
  have hall : ∀ d ∈ c :: w, decide (d ≠ '<') = true := fun d hd => decide_eq_true (h d hd)
  have htake : ((c :: w) ++ '<' :: r).takeWhile (· ≠ '<') = c :: w := by
    rw [List.takeWhile_append_of_pos hall]
    simp
  have hdrop : ((c :: w) ++ '<' :: r).dropWhile (· ≠ '<') = '<' :: r := by
    rw [List.dropWhile_append_of_pos hall]
    simp
  unfold next?
  split
  · cases ‹_ = []›
  · exact absurd (List.cons.inj ‹_›).1 (h c List.mem_cons_self)
  · rw [htake, hdrop]

end Event

end GuestXml.Xml
