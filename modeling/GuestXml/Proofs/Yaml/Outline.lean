import GuestXml.Proofs.Number.Denotation
import GuestXml.Yaml.Document

/-!
# Outlines and their tokens

An outline is what most files of settings are: a mapping of words to words and to further
mappings, each on lines of its own and deeper than the one around it. Its text is read from
left to right into its tokens, by whatever number of blanks the lines are set in. Main
statements:

* `leads_entries`: in front of the entries of an outline, the scanner comes to what stands
  behind them, with their tokens read. The induction is on the outline, and the state at the
  beginning of a line carries it.
* `tokens?_entriesText`: the text of an outline has the tokens of the outline.

The scanner ends a mapping when it comes to a line that is not as deep, and begins one when it
comes to the colon behind its first key. `leads_close` and `leads_open` say that it may as well
have done so at the beginning of the line.
-/

namespace GuestXml.Yaml

/-! ### Words -/

/-- The characters of words. -/
def isWordChar (c : Char) : Bool :=
  c.isAlphanum || c == '_'

/-- A text that is a key or a value as it stands. A key has 1024 characters at most. -/
structure IsWord (w : String) : Prop where
  ne_nil : w.toList ≠ []
  isWordChar_of_mem : ∀ c ∈ w.toList, isWordChar c = true
  length_le : w.toList.length ≤ 1024

instance (w : String) : Decidable (IsWord w) :=
  decidable_of_iff
    (w.toList ≠ [] ∧ w.toList.all isWordChar = true ∧ w.toList.length ≤ 1024)
    ⟨fun h => ⟨h.1, List.all_eq_true.mp h.2.1, h.2.2⟩,
      fun h => ⟨h.ne_nil, List.all_eq_true.mpr h.isWordChar_of_mem, h.length_le⟩⟩

theorem IsWord.exists_cons {w : String} (h : IsWord w) :
    ∃ c r, w.toList = c :: r ∧ isWordChar c = true := by
  obtain ⟨c, r, hcons⟩ := List.exists_cons_of_ne_nil h.ne_nil
  exact ⟨c, r, hcons, h.isWordChar_of_mem c (hcons ▸ List.mem_cons_self)⟩

theorem ne_of_isWordChar {c d : Char} (hc : isWordChar c = true) (hd : isWordChar d = false) :
    c ≠ d := by
  rintro rfl
  exact absurd hc (Bool.eq_false_iff.mp hd)

theorem isBreak_of_isWordChar {c : Char} (hc : isWordChar c = true) : isBreak c = false := by
  simp (disch := decide) [isBreak, ne_of_isWordChar hc]

theorem isSpace_of_isWordChar {c : Char} (hc : isWordChar c = true) : isSpace c = false := by
  simp (disch := decide) [isSpace, ne_of_isWordChar hc]

theorem isLongBreak_of_isWordChar {c : Char} (hc : isWordChar c = true) (r : List Char) :
    isLongBreak c r = false := by
  simp (disch := decide) [isLongBreak, ne_of_isWordChar hc]

theorem isDocumentMark_of_isWordChar {c : Char} (hc : isWordChar c = true) (r : List Char) :
    isDocumentMark (c :: r) = false := by
  simp (disch := decide) [isDocumentMark, ne_of_isWordChar hc]

theorem beginsPlain_of_isWordChar {c : Char} (hc : isWordChar c = true) (inFlow : Bool)
    (r : List Char) : Scan.beginsPlain inFlow c r = true := by
  simp (disch := decide) [Scan.beginsPlain, ne_of_isWordChar hc]

theorem isAdmitted_of_isWordChar {c : Char} (hc : isWordChar c = true) : isAdmitted c = true := by
  rw [isWordChar, Bool.or_eq_true, beq_iff_eq] at hc
  rcases hc with hc | rfl
  · rw [Number.isAlphanum_iff, Char.isDigit_iff_toNat, Number.charIsUpper_iff,
      Number.charIsLower_iff] at hc
    have hrange : (48 ≤ c.toNat ∧ c.toNat ≤ 57) ∨ (65 ≤ c.toNat ∧ c.toNat ≤ 90) ∨
        (97 ≤ c.toNat ∧ c.toNat ≤ 122) := hc
    simp only [isAdmitted, Bool.or_eq_true, Bool.and_eq_true, decide_eq_true_eq]
    omega
  · rfl

/-! ### Outlines -/

/-- A word, or a mapping of words to outlines. -/
inductive Outline where
  | word (w : String)
  | group (entries : List (String × Outline))

namespace Outline

mutual

/-- Every key and every value is a word. -/
def IsProper : Outline → Prop
  | word w => IsWord w
  | group es => AllProper es

/-- The same for the entries of a mapping. -/
def AllProper : List (String × Outline) → Prop
  | [] => True
  | (key, o) :: es => IsWord key ∧ IsProper o ∧ AllProper es

end

mutual

/-- What stands behind the colon of a key at a depth. Further keys are `step` blanks deeper. -/
def valueText (step depth : Nat) : Outline → List Char
  | word w => ' ' :: (w.toList ++ ['\n'])
  | group es => '\n' :: entriesText step (depth + step) es

/-- The lines of the entries of a mapping at a depth. -/
def entriesText (step depth : Nat) : List (String × Outline) → List Char
  | [] => []
  | (key, o) :: es =>
    List.replicate depth ' ' ++ (key.toList ++ ':' :: (valueText step depth o ++
      entriesText step depth es))

end

/-- The tokens of a mapping, by those of its entries. Of an empty one there are none. -/
def groupTokens : List Token → List Token
  | [] => []
  | ts => .blockMapping :: (ts ++ [.blockEnd])

mutual

/-- The tokens behind the colon of a key. -/
def valueTokens : Outline → List Token
  | word w => [.scalar .plain w]
  | group es => groupTokens (entryTokens es)

/-- The tokens of the entries of a mapping. -/
def entryTokens : List (String × Outline) → List Token
  | [] => []
  | (key, o) :: es => .key :: .scalar .plain key :: .value :: (valueTokens o ++ entryTokens es)

end

theorem valueTokens_group {es : List (String × Outline)} (hne : es ≠ []) :
    valueTokens (.group es) = .blockMapping :: (entryTokens es ++ [.blockEnd]) := by
  obtain ⟨⟨key, o⟩, es, rfl⟩ := List.exists_cons_of_ne_nil hne
  rfl

end Outline

/-! ### Plain words -/

variable {floor : Nat} {rest : List Char}

/-- The characters of a word are read one by one. -/
theorem plainFrom_word (w : List Char) (hw : ∀ c ∈ w, isWordChar c = true) (mark : Mark)
    (read : List Char) :
    plainFrom false floor mark read (.spaces []) (w ++ rest) =
      plainFrom false floor (mark.advance w.length) (w.reverse ++ read) (.spaces []) rest := by
  induction w generalizing mark read with
  | nil => rfl
  | cons c w ih =>
    have hc := hw c List.mem_cons_self
    have hcolon : c ≠ ':' := ne_of_isWordChar hc rfl
    have hends : endsPlain false c (w ++ rest) = false := by simp [endsPlain, hcolon]
    rw [List.cons_append, plainFrom]
    simp only [isLongBreak_of_isWordChar hc, isBreak_of_isWordChar hc, isSpace_of_isWordChar hc,
      isDocumentMark_of_isWordChar hc, hends, bne_self_eq_false, Bool.and_false, Bool.false_and,
      Bool.or_self, Bool.false_eq_true, if_false, Gap.joinReversed, List.nil_append]
    rw [ih (fun d hd => hw d (List.mem_cons_of_mem c hd))]
    simp [Mark.advance, Nat.add_assoc, Nat.add_comm 1]

/-- A word ends in front of a colon, if the colon ends a word. -/
theorem plainFrom_colon (hrest : endsWord rest = true) (mark : Mark) (read : List Char) :
    plainFrom false floor mark read (.spaces []) (':' :: rest) =
      some { text := read.reverse, mark, rest := ':' :: rest } := by
  have hends : endsPlain false ':' rest = true := by simp [endsPlain, hrest]
  rw [plainFrom]
  simp [hends, isLongBreak, isBreak, isSpace, isDocumentMark, Gap.isLines]

/-! ### Lines ahead -/

/-- A text has ended, or begins with a line no deeper than `depth`, which begins with a word. -/
inductive LineAhead (depth : Nat) : List Char → Prop
  | nothing : LineAhead depth []
  | word {n : Nat} {c : Char} (r : List Char) : n ≤ depth → isWordChar c = true →
      LineAhead depth (List.replicate n ' ' ++ c :: r)

theorem LineAhead.mono {depth depth' : Nat} {cs : List Char} (h : LineAhead depth cs)
    (hle : depth ≤ depth') : LineAhead depth' cs := by
  cases h with
  | nothing => exact .nothing
  | word r hn hc => exact .word r (Nat.le_trans hn hle) hc

theorem plainFrom_blanks (n : Nat) (mark : Mark) (read : List Char) (first : Option Char)
    (others : List Char) :
    plainFrom false floor mark read (.lines first others) (List.replicate n ' ' ++ rest) =
      plainFrom false floor (mark.advance n) read (.lines first others) rest := by
  induction n generalizing mark with
  | zero => rfl
  | succ n ih =>
    rw [List.replicate_succ, List.cons_append, plainFrom]
    simp only [isLongBreak, isBreak, isSpace, Gap.addSpace]
    simp [ih, Mark.advance, Nat.add_assoc, Nat.add_comm 1]

/-- A word ends at the end of its line, if the line behind it is not deeper than the mapping. -/
theorem plainFrom_lineAhead {depth : Nat} {cs : List Char} (h : LineAhead depth cs) (mark : Mark)
    (read : List Char) :
    ∃ n rest, cs = List.replicate n ' ' ++ rest ∧
      plainFrom false (depth + 1) mark read (.spaces []) ('\n' :: cs) = some {
        text := read.reverse
        mark := mark.nextLine.advance n
        rest
        lineEnded := true } := by
  have hbreak : plainFrom false (depth + 1) mark read (.spaces []) ('\n' :: cs) =
      plainFrom false (depth + 1) mark.nextLine read (.lines (some '\n') []) cs := by
    rw [plainFrom]
    rfl
  cases h with
  | nothing => exact ⟨0, [], rfl, hbreak⟩
  | @word n c r hn hc =>
    refine ⟨n, c :: r, rfl, ?_⟩
    have hcolumn : (mark.nextLine.advance n).column < depth + 1 := by
      simp only [Mark.advance, Mark.nextLine]
      omega
    rw [hbreak, plainFrom_blanks, plainFrom]
    simp [isLongBreak_of_isWordChar hc, isBreak_of_isWordChar hc, isSpace_of_isWordChar hc,
      hcolumn, Gap.isLines]

namespace Scan

theorem skipFrom_blanks (n : Nat) (inFlow keyAllowed inComment : Bool) (mark : Mark) :
    skipFrom inFlow keyAllowed inComment mark (List.replicate n ' ' ++ rest) =
      skipFrom inFlow keyAllowed inComment (mark.advance n) rest := by
  induction n generalizing mark with
  | zero => rfl
  | succ n ih =>
    rw [List.replicate_succ, List.cons_append, skipFrom]
    simp only [isLongBreak, isBreak]
    simp [ih, Mark.advance, Nat.add_assoc, Nat.add_comm 1]

theorem skipFrom_word {c : Char} (hc : isWordChar c = true) (inFlow keyAllowed : Bool)
    (mark : Mark) :
    skipFrom inFlow keyAllowed false mark (c :: rest) = (c :: rest, mark, keyAllowed) := by
  rw [skipFrom]
  simp (disch := decide) [isLongBreak_of_isWordChar hc, isBreak_of_isWordChar hc,
    ne_of_isWordChar hc]

/-! ### States between tokens -/

/-- A state outside all brackets, where no key has begun. -/
def outside (keyAllowed : Bool) (mark : Mark) (tokens : List Token) (depths : List Nat)
    (rest : List Char) : Scan where
  rest
  mark
  tokens
  count := tokens.length
  depths
  keyAllowed

theorem unrollTo_of_le {s : Scan} {column : Nat} (h : ∀ d ∈ s.depths.head?, d ≤ column) :
    s.unrollTo column = s := by
  rw [unrollTo]
  have hnone : s.depths.takeWhile (column < ·) = [] := by
    cases hdepths : s.depths with
    | nil => rfl
    | cons d ds =>
      rw [hdepths] at h
      simp [Nat.not_lt.mpr (h d rfl)]
  rw [hnone]
  simp

variable {keyAllowed : Bool} {mark : Mark} {tokens : List Token} {depths : List Nat}

theorem unrollTo_outside_cons {depth column : Nat} (h : column < depth) :
    (outside keyAllowed mark tokens (depth :: depths) rest).unrollTo column =
      (outside keyAllowed mark (.blockEnd :: tokens) depths rest).unrollTo column := by
  simp [unrollTo, outside, inFlow, h, push]

theorem run?_step {s s' s'' : Scan} {c : Char} {r : List Char} (hnext : s.toToken? = some s')
    (hrest : s'.rest = c :: r) (htoken : s'.token? c r = some s'') (fuel : Nat) :
    run? (fuel + 1) s = run? fuel s'' := by
  simp [run?, hnext, hrest, htoken]

theorem run?_congr {s s' : Scan} (h : s.toToken? = s'.toToken?) (fuel : Nat) :
    run? fuel s = run? fuel s' := by
  cases fuel with
  | zero => rfl
  | succ fuel => rw [run?, run?, h]

/-- Blanks in front of the next token do not matter, if they are counted. -/
theorem toToken?_blanks (n : Nat) :
    (outside keyAllowed mark tokens depths (List.replicate n ' ' ++ rest)).toToken? =
      (outside keyAllowed (mark.advance n) tokens depths rest).toToken? := by
  simp only [toToken?, outside, skipFrom_blanks]
  rfl

/-- Nor does the end of a line, behind which a key may begin. -/
theorem toToken?_break :
    (outside keyAllowed mark tokens depths ('\n' :: rest)).toToken? =
      (outside true mark.nextLine tokens depths rest).toToken? := by
  have hskip : skipFrom false keyAllowed false mark ('\n' :: rest) =
      skipFrom false true false mark.nextLine rest := by
    rw [skipFrom]
    simp [isLongBreak, isBreak]
  simp only [toToken?, outside, inFlow, List.isEmpty_nil, Bool.not_true, hskip]

theorem toToken?_word {c : Char} (hc : isWordChar c = true) :
    (outside keyAllowed mark tokens depths (c :: rest)).toToken? =
      some ((outside keyAllowed mark tokens depths (c :: rest)).unrollTo mark.column) := by
  simp only [toToken?, outside, skipFrom_word hc]
  rfl

theorem toToken?_end :
    (outside keyAllowed mark tokens depths []).toToken? =
      some ((outside keyAllowed mark tokens depths []).unrollTo mark.column) :=
  rfl

theorem token?_word {c : Char} (hc : isWordChar c = true) (s : Scan) (r : List Char) :
    s.token? c r = s.plainScalar? := by
  simp (disch := decide) [token?, isDocumentMark_of_isWordChar hc, beginsPlain_of_isWordChar hc,
    ne_of_isWordChar hc]

/-! ### Keys and values -/

/-- A state outside all brackets in front of a colon, behind a word that may be a key. -/
def behindWord (mark : Mark) (key : String) (tokens : List Token) (depths : List Nat)
    (rest : List Char) : Scan :=
  { outside false (mark.advance key.toList.length) (.scalar .plain key :: tokens) depths rest with
    keyStart := some {
      position := tokens.length
      mark
      required := depths.head? == some mark.column } }

theorem plainScalar?_key {key : String} (hkey : IsWord key) (hrest : endsWord rest = true) :
    (outside true mark tokens depths (key.toList ++ ':' :: rest)).plainScalar? =
      some (behindWord mark key tokens depths (':' :: rest)) := by
  simp only [plainScalar?, saveKeyStart?, outside, dropKeyStart?, inFlow]
  simp [plainFrom_word _ hkey.isWordChar_of_mem, plainFrom_colon hrest, behindWord, outside, push]

/-- The tokens and the depths behind the first key at a depth, or a further one. -/
theorem value?_behindWord {depth line : Nat} {key : String}
    (hdepth : ∀ d ∈ depths.head?, d < depth) :
    (behindWord ⟨line, depth⟩ key tokens depths (':' :: rest)).value? =
      some (outside false ⟨line, depth + key.toList.length + 1⟩
        (.value :: .scalar .plain key :: .key :: .blockMapping :: tokens)
        (depth :: depths) rest) := by
  have hroll : depths.head?.any (depth ≤ ·) = false := by
    cases depths with
    | nil => rfl
    | cons d ds => simpa using hdepth d rfl
  have hplace : tokens.length + 1 + 1 - tokens.length = 2 := by omega
  simp [value?, behindWord, outside, insert, rollTo, hroll, inFlow, push, advance, Mark.advance,
    hplace]

theorem value?_behindWord_cons {depth line : Nat} {key : String} :
    (behindWord ⟨line, depth⟩ key tokens (depth :: depths) (':' :: rest)).value? =
      some (outside false ⟨line, depth + key.toList.length + 1⟩
        (.value :: .scalar .plain key :: .key :: tokens) (depth :: depths) rest) := by
  simp [value?, behindWord, outside, insert, rollTo, inFlow, push, advance, Mark.advance]

theorem toToken?_behindWord {key : String} (hkey : IsWord key)
    (hdepths : ∀ d ∈ depths.head?, d ≤ mark.column) :
    (behindWord mark key tokens depths (':' :: rest)).toToken? =
      some (behindWord mark key tokens depths (':' :: rest)) := by
  have hskip (mark : Mark) : skipFrom false false false mark (':' :: rest) =
      (':' :: rest, mark, false) := by
    rw [skipFrom]
    simp [isLongBreak, isBreak]
  have hfresh : ¬mark.column + 1024 < mark.column + key.toList.length :=
    Nat.not_lt.mpr (Nat.add_le_add_left hkey.length_le _)
  have hstay : (behindWord mark key tokens depths (':' :: rest)).unrollTo
      (mark.column + key.toList.length) = behindWord mark key tokens depths (':' :: rest) :=
    unrollTo_of_le fun d hd => Nat.le_trans (hdepths d hd) (Nat.le_add_right _ _)
  rw [behindWord, outside] at hstay ⊢
  simp only [toToken?, inFlow, List.isEmpty_nil, Bool.not_true, hskip]
  simpa [dropStaleStarts?, freshStart?, Mark.advance, hfresh] using hstay

/-- A word behind the colon of its key is a value. -/
theorem plainScalar?_value {w : String} (hw : IsWord w) {depth : Nat} (h : LineAhead depth rest)
    (mark : Mark) (tokens : List Token) (depths : List Nat) :
    ∃ n r, rest = List.replicate n ' ' ++ r ∧
      (outside false mark tokens (depth :: depths) (w.toList ++ '\n' :: rest)).plainScalar? =
        some (outside true ((mark.advance w.toList.length).nextLine.advance n)
          (.scalar .plain w :: tokens) (depth :: depths) r) := by
  obtain ⟨n, r, hrest, hplain⟩ := plainFrom_lineAhead h (mark.advance w.toList.length)
    (w.toList.reverse)
  refine ⟨n, r, hrest, ?_⟩
  simp only [plainScalar?, saveKeyStart?, outside, inFlow]
  simp [plainFrom_word _ hw.isWordChar_of_mem, hplain, push]

/-! ### Runs -/

theorem token?_colon (s : Scan) {r : List Char} (hr : endsWord r = true) :
    s.token? ':' r = s.value? := by
  simp [token?, hr, isDocumentMark]

section KeyLine

variable {depth line : Nat} {key : String} (hkey : IsWord key) (hrest : endsWord rest = true)
include hkey hrest

/-- The line of a key is read down to its colon. -/
theorem run?_behindWord (hdepths : ∀ d ∈ depths.head?, d ≤ depth) (fuel : Nat) :
    run? (fuel + 1) (outside true ⟨line, 0⟩ tokens depths
        (List.replicate depth ' ' ++ (key.toList ++ ':' :: rest))) =
      run? fuel (behindWord ⟨line, depth⟩ key tokens depths (':' :: rest)) := by
  obtain ⟨c, w, hw, hc⟩ := hkey.exists_cons
  have hnext : (outside true ⟨line, 0⟩ tokens depths
      (List.replicate depth ' ' ++ (key.toList ++ ':' :: rest))).toToken? =
        some (outside true ⟨line, depth⟩ tokens depths (key.toList ++ ':' :: rest)) := by
    rw [toToken?_blanks, Mark.advance, Nat.zero_add, hw, List.cons_append, toToken?_word hc,
      unrollTo_of_le hdepths]
  have htoken : (outside true ⟨line, depth⟩ tokens depths
      (key.toList ++ ':' :: rest)).plainScalar? =
        some (behindWord ⟨line, depth⟩ key tokens depths (':' :: rest)) :=
    plainScalar?_key hkey hrest
  exact run?_step hnext (by rw [outside, hw]; rfl) ((token?_word hc _ _).trans htoken) fuel

/-- The line of a key is read with its colon. -/
theorem run?_key {s : Scan} (hdepths : ∀ d ∈ depths.head?, d ≤ depth)
    (hvalue : (behindWord ⟨line, depth⟩ key tokens depths (':' :: rest)).value? = some s)
    (fuel : Nat) :
    run? (fuel + 2) (outside true ⟨line, 0⟩ tokens depths
        (List.replicate depth ' ' ++ (key.toList ++ ':' :: rest))) = run? fuel s := by
  rw [run?_behindWord hkey hrest hdepths]
  exact run?_step (toToken?_behindWord hkey hdepths) rfl ((token?_colon _ hrest).trans hvalue) fuel

/-- A mapping may begin before its first key. -/
theorem run?_open (hdepths : ∀ d ∈ depths.head?, d < depth) (fuel : Nat) :
    run? fuel (outside true ⟨line, 0⟩ tokens depths
        (List.replicate depth ' ' ++ (key.toList ++ ':' :: rest))) =
      run? fuel (outside true ⟨line, 0⟩ (.blockMapping :: tokens) (depth :: depths)
        (List.replicate depth ' ' ++ (key.toList ++ ':' :: rest))) := by
  have hle : ∀ d ∈ depths.head?, d ≤ depth := fun d hd => Nat.le_of_lt (hdepths d hd)
  have hself : ∀ d ∈ (depth :: depths).head?, d ≤ depth := by simp
  match fuel with
  | 0 => rfl
  | 1 => rw [run?_behindWord hkey hrest hle 0, run?_behindWord hkey hrest hself 0, run?, run?]
  | fuel + 2 =>
    rw [run?_key hkey hrest hle (value?_behindWord hdepths),
      run?_key hkey hrest hself value?_behindWord_cons]

end KeyLine

/-- A run comes from one state to another, in no more steps than characters are read. -/
def Leads (s s' : Scan) : Prop :=
  ∃ n, n + s'.rest.length ≤ s.rest.length ∧ ∀ fuel, run? (fuel + n) s = run? fuel s'

namespace Leads

theorem of_eq {s s' : Scan} (hlength : s'.rest.length ≤ s.rest.length)
    (h : ∀ fuel, run? fuel s = run? fuel s') : Leads s s' :=
  ⟨0, by omega, h⟩

theorem trans {s s' s'' : Scan} (h : Leads s s') (h' : Leads s' s'') : Leads s s'' := by
  obtain ⟨n, hn, hrun⟩ := h
  obtain ⟨m, hm, hrun'⟩ := h'
  refine ⟨m + n, by omega, fun fuel => ?_⟩
  rw [← Nat.add_assoc, hrun, hrun']

end Leads

theorem leads_key {key : String} (hkey : IsWord key) (hrest : endsWord rest = true)
    (depth line : Nat) (tokens : List Token) (depths : List Nat) :
    Leads (outside true ⟨line, 0⟩ tokens (depth :: depths)
        (List.replicate depth ' ' ++ (key.toList ++ ':' :: rest)))
      (outside false ⟨line, depth + key.toList.length + 1⟩
        (.value :: .scalar .plain key :: .key :: tokens) (depth :: depths) rest) := by
  have hlength := List.length_pos_iff.mpr hkey.ne_nil
  refine ⟨2, ?_, run?_key hkey hrest (by simp) value?_behindWord_cons⟩
  simp only [outside, List.length_append, List.length_cons]
  omega

theorem leads_break (keyAllowed : Bool) (line column : Nat) (tokens : List Token)
    (depths : List Nat) (rest : List Char) :
    Leads (outside keyAllowed ⟨line, column⟩ tokens depths ('\n' :: rest))
      (outside true ⟨line + 1, 0⟩ tokens depths rest) :=
  .of_eq (Nat.le_succ _) (run?_congr toToken?_break)

/-- A mapping may end before the next line, if that is not as deep. -/
theorem leads_close {depth inner : Nat} (h : LineAhead depth rest) (hinner : depth < inner)
    (line : Nat) (tokens : List Token) (depths : List Nat) :
    Leads (outside true ⟨line, 0⟩ tokens (inner :: depths) rest)
      (outside true ⟨line, 0⟩ (.blockEnd :: tokens) depths rest) := by
  refine .of_eq (Nat.le_refl _) (run?_congr ?_)
  cases h with
  | nothing => rw [toToken?_end, toToken?_end, unrollTo_outside_cons (Nat.zero_lt_of_lt hinner)]
  | @word n c r hn hc =>
    have hcolumn : (Mark.advance ⟨line, 0⟩ n).column < inner := by
      simp only [Mark.advance]
      omega
    rw [toToken?_blanks, toToken?_blanks, toToken?_word hc, toToken?_word hc,
      unrollTo_outside_cons hcolumn]

/-- A word is read with the end of its line. -/
theorem leads_word {depth column : Nat} {w : String} (hw : IsWord w) (h : LineAhead depth rest)
    (hdepth : depth ≤ column) (line : Nat) (tokens : List Token) (depths : List Nat) :
    Leads
      (outside false ⟨line, column⟩ tokens (depth :: depths) (' ' :: (w.toList ++ '\n' :: rest)))
      (outside true ⟨line + 1, 0⟩ (.scalar .plain w :: tokens) (depth :: depths) rest) := by
  obtain ⟨c, r, hcons, hc⟩ := hw.exists_cons
  have hnext : (outside false ⟨line, column⟩ tokens (depth :: depths)
      (' ' :: (w.toList ++ '\n' :: rest))).toToken? =
        some (outside false ⟨line, column + 1⟩ tokens (depth :: depths)
          (w.toList ++ '\n' :: rest)) := by
    have hstay : ∀ d ∈ (depth :: depths).head?, d ≤ column + 1 := by
      intro d hd
      obtain rfl := Option.some.inj hd
      exact Nat.le_succ_of_le hdepth
    rw [hcons, List.cons_append]
    refine (toToken?_blanks 1).trans ((toToken?_word hc).trans ?_)
    exact congrArg some (unrollTo_of_le hstay)
  obtain ⟨n, behind, hrest, htoken⟩ := plainScalar?_value hw h ⟨line, column + 1⟩ tokens depths
  refine ⟨1, ?_, fun fuel => ?_⟩
  · simp only [outside, List.length_cons, List.length_append]
    omega
  · rw [run?_step hnext (by rw [outside, hcons]; rfl) ((token?_word hc _ _).trans htoken) fuel,
      hrest]
    exact run?_congr (toToken?_blanks n).symm fuel

/-! ### Outlines -/

open Outline

theorem endsWord_valueText (step depth : Nat) (o : Outline) (r : List Char) :
    endsWord (valueText step depth o ++ r) = true := by
  cases o <;> rfl

theorem lineAhead_entriesText {depth : Nat} {es : List (String × Outline)} (hes : AllProper es)
    (h : LineAhead depth rest) (step : Nat) :
    LineAhead depth (entriesText step depth es ++ rest) := by
  cases es with
  | nil => exact h
  | cons e es =>
    obtain ⟨key, o⟩ := e
    obtain ⟨c, w, hw, hc⟩ := hes.1.exists_cons
    rw [entriesText, hw, List.cons_append, List.append_assoc]
    exact .word _ (Nat.le_refl depth) hc

/-- A mapping may begin before its entries. -/
theorem leads_open {depth : Nat} {es : List (String × Outline)} (hne : es ≠ [])
    (hes : AllProper es) (hdepths : ∀ d ∈ depths.head?, d < depth) (step line : Nat)
    (tokens : List Token) (rest : List Char) :
    Leads (outside true ⟨line, 0⟩ tokens depths (entriesText step depth es ++ rest))
      (outside true ⟨line, 0⟩ (.blockMapping :: tokens) (depth :: depths)
        (entriesText step depth es ++ rest)) := by
  obtain ⟨⟨key, o⟩, es, rfl⟩ := List.exists_cons_of_ne_nil hne
  refine .of_eq (Nat.le_refl _) ?_
  simp only [entriesText, List.append_assoc, List.cons_append]
  exact run?_open hes.1 (endsWord_valueText step depth o _) hdepths

variable {step : Nat}

mutual

/-- What stands behind the colon of a key is read with the lines that belong to it. -/
theorem leads_value (hstep : 0 < step) :
    ∀ (o : Outline), o.IsProper → ∀ {depth column : Nat} {rest : List Char},
      LineAhead depth rest → depth ≤ column →
        ∀ (line : Nat) (tokens : List Token) (depths : List Nat), ∃ line', Leads
          (outside false ⟨line, column⟩ tokens (depth :: depths) (valueText step depth o ++ rest))
          (outside true ⟨line', 0⟩ ((valueTokens o).reverse ++ tokens) (depth :: depths) rest)
  | .word w, hw, depth, column, rest, hrest, hdepth, line, tokens, depths => by
    have hword := leads_word hw hrest hdepth line tokens depths
    refine ⟨line + 1, ?_⟩
    simpa [valueText, valueTokens] using hword
  | .group es, hes, depth, column, rest, hrest, _, line, tokens, depths => by
    have hdeep : depth < depth + step := Nat.lt_add_of_pos_right hstep
    have hbreak := leads_break false line column tokens (depth :: depths)
      (entriesText step (depth + step) es ++ rest)
    obtain ⟨line', hentries⟩ := leads_entries hstep es hes (hrest.mono (Nat.le_of_lt hdeep))
      (line + 1) (.blockMapping :: tokens) (depth :: depths)
    have hclose := leads_close hrest hdeep line'
      ((entryTokens es).reverse ++ .blockMapping :: tokens) (depth :: depths)
    by_cases hne : es = []
    · subst hne
      exact ⟨line + 1, hbreak⟩
    · have hdepths : ∀ d ∈ (depth :: depths).head?, d < depth + step := by simpa using hstep
      have hopen := leads_open hne hes hdepths step (line + 1) tokens rest
      refine ⟨line', ?_⟩
      rw [valueText, valueTokens_group hne]
      simpa using hbreak.trans (hopen.trans (hentries.trans hclose))

/-- The entries of a mapping are read, once it has begun. -/
theorem leads_entries (hstep : 0 < step) :
    ∀ (es : List (String × Outline)), AllProper es → ∀ {depth : Nat} {rest : List Char},
      LineAhead depth rest →
        ∀ (line : Nat) (tokens : List Token) (depths : List Nat), ∃ line', Leads
          (outside true ⟨line, 0⟩ tokens (depth :: depths) (entriesText step depth es ++ rest))
          (outside true ⟨line', 0⟩ ((entryTokens es).reverse ++ tokens) (depth :: depths) rest)
  | [], _, depth, rest, _, line, tokens, depths => ⟨line, .of_eq (Nat.le_refl _) fun _ => rfl⟩
  | (key, o) :: es, ⟨hkey, ho, hes⟩, depth, rest, hrest, line, tokens, depths => by
    have hvalueEnds := endsWord_valueText step depth o (entriesText step depth es ++ rest)
    have hkeyLine := leads_key hkey hvalueEnds depth line tokens depths
    have hcolumn : depth ≤ depth + key.toList.length + 1 := by omega
    obtain ⟨line₁, hvalue⟩ := leads_value hstep o ho (lineAhead_entriesText hes hrest step) hcolumn
      line (.value :: .scalar .plain key :: .key :: tokens) depths
    obtain ⟨line₂, hentries⟩ := leads_entries hstep es hes hrest line₁
      ((valueTokens o).reverse ++ .value :: .scalar .plain key :: .key :: tokens) depths
    refine ⟨line₂, ?_⟩
    simpa [entriesText, entryTokens] using hkeyLine.trans (hvalue.trans hentries)

end

theorem run?_end (line fuel : Nat) :
    run? (fuel + 1) (outside true ⟨line, 0⟩ tokens [0] []) =
      some (tokens.reverse ++ [.blockEnd, .streamEnd]) := by
  rw [run?, toToken?_end, unrollTo_of_le (by simp [outside])]
  simp [outside, finish?, unrollAll, dropKeyStart?, inFlow, push]

/-- The text of an outline is read into its tokens. -/
theorem run?_entries (hstep : 0 < step) {es : List (String × Outline)} (hes : AllProper es) :
    run? ((entriesText step 0 es).length + 1) { rest := entriesText step 0 es } =
      some (valueTokens (.group es) ++ [.streamEnd]) := by
  by_cases hne : es = []
  · subst hne
    rfl
  · have hend : LineAhead 0 [] := .nothing
    have hdepths : ∀ d ∈ ([] : List Nat).head?, d < 0 := by simp
    obtain ⟨line, hentries⟩ := leads_entries hstep es hes hend 0 [.blockMapping] []
    obtain ⟨n, hn, hrun⟩ := (leads_open hne hes hdepths step 0 [] []).trans hentries
    obtain ⟨fuel, hfuel⟩ := Nat.exists_eq_add_of_le hn
    rw [List.append_nil] at hrun hfuel
    have hlength : (entriesText step 0 es).length + 1 = fuel + 1 + n := by
      simp only [outside, List.length_nil] at hfuel
      omega
    rw [hlength, valueTokens_group hne]
    refine (hrun (fuel + 1)).trans ?_
    rw [run?_end]
    simp

end Scan

open Outline

mutual

theorem isAdmitted_of_mem_valueText {step : Nat} :
    ∀ {depth : Nat} (o : Outline), o.IsProper → ∀ c ∈ valueText step depth o, isAdmitted c = true
  | depth, .word w, hw, c, hc => by
    rw [valueText, List.mem_cons, List.mem_append, List.mem_singleton] at hc
    rcases hc with rfl | hc | rfl
    · rfl
    · exact isAdmitted_of_isWordChar (hw.isWordChar_of_mem c hc)
    · rfl
  | depth, .group es, hes, c, hc => by
    rw [valueText, List.mem_cons] at hc
    rcases hc with rfl | hc
    · rfl
    · exact isAdmitted_of_mem_entriesText es hes c hc

theorem isAdmitted_of_mem_entriesText {step : Nat} :
    ∀ {depth : Nat} (es : List (String × Outline)), AllProper es →
      ∀ c ∈ entriesText step depth es, isAdmitted c = true
  | depth, [], _, c, hc => absurd hc List.not_mem_nil
  | depth, (key, o) :: es, ⟨hkey, ho, hes⟩, c, hc => by
    rw [entriesText, List.mem_append, List.mem_append, List.mem_cons, List.mem_append] at hc
    rcases hc with hc | hc | rfl | hc | hc
    · obtain rfl := List.eq_of_mem_replicate hc
      rfl
    · exact isAdmitted_of_isWordChar (hkey.isWordChar_of_mem c hc)
    · rfl
    · exact isAdmitted_of_mem_valueText o ho c hc
    · exact isAdmitted_of_mem_entriesText es hes c hc

end

/-- **The text of an outline has its tokens**, however deep the lines are set in. -/
theorem tokens?_entriesText {step : Nat} (hstep : 0 < step) {es : List (String × Outline)}
    (hes : AllProper es) :
    tokens? (entriesText step 0 es) = some (valueTokens (.group es) ++ [.streamEnd]) := by
  have hadmitted : (entriesText step 0 es).all isAdmitted = true :=
    List.all_eq_true.mpr (isAdmitted_of_mem_entriesText es hes)
  rw [tokens?, if_pos hadmitted]
  exact Scan.run?_entries hstep hes

end GuestXml.Yaml
