import GuestXml.Error

/-!
# XML events

A document is a sequence of events: tags, runs of text, and markup that carries no content.
`Event.next?` says what begins at a position and hands on what follows it; the rest is
always shorter (`Event.length_lt_of_next?`). Nothing is checked here about how tags nest or
how elements and attributes are named.
-/

namespace GuestXml.Xml

/-- The blanks inside tags. -/
def isSpace (c : Char) : Bool :=
  c == ' ' || c == '\t' || c == '\r' || c == '\n'

/-- One step of reading a document. -/
inductive Event where
  /-- A start tag and its unread attributes. -/
  | startTag (name attributes : List Char)
  /-- The tag of an element without content, and its unread attributes. -/
  | emptyTag (name attributes : List Char)
  /-- An end tag. -/
  | endTag (name : List Char)
  /-- A run of text as written, with its references. -/
  | text (written : List Char)
  /-- Text that is taken as it stands. -/
  | verbatim (content : List Char)
  /-- A comment, a processing instruction, a declaration or a document type. -/
  | ignored
  deriving DecidableEq, Repr

namespace Event

/-! ### Splitting at a mark -/

/-- Splits at the first occurrence of a mark, which belongs to neither part. -/
def splitAtMark (mark : List Char) : List Char → Option (List Char × List Char)
  | [] => none
  | c :: r =>
    if mark.isPrefixOf (c :: r) then some ([], (c :: r).drop mark.length)
    else (splitAtMark mark r).map fun (before, after) => (c :: before, after)

/-- Splits at the first `>`, or at the end of the text. -/
def splitAtClose (cs : List Char) : List Char × List Char :=
  (cs.takeWhile (· ≠ '>'), (cs.dropWhile (· ≠ '>')).drop 1)

/-- Splits at the first `>` outside quotes; `quote?` is the quote that is open. -/
def splitTag : (quote? : Option Char) → List Char → Option (List Char × List Char)
  | _, [] => none
  | none, c :: r =>
    if c = '>' then some ([], r)
    else (splitTag (if c = '\'' ∨ c = '"' then some c else none) r).map
      fun (before, after) => (c :: before, after)
  | some q, c :: r =>
    (splitTag (if c = q then none else some q) r).map fun (before, after) => (c :: before, after)

/-- Splits at the `>` that closes as many `<` as were opened before it. -/
def splitBalanced : (depth : Nat) → List Char → Option (List Char × List Char)
  | _, [] => none
  | 0, c :: r =>
    if c = '>' then some ([], r)
    else (splitBalanced (if c = '<' then 1 else 0) r).map
      fun (before, after) => (c :: before, after)
  | d + 1, c :: r =>
    (splitBalanced (if c = '>' then d else if c = '<' then d + 2 else d + 1) r).map
      fun (before, after) => (c :: before, after)

/-- Whether a text begins with a keyword, in capitals or not. -/
def startsWithKeyword (keyword cs : List Char) : Bool :=
  (cs.take keyword.length).map Char.toLower == keyword.map Char.toLower

/-! ### Markup -/

/-- A comment; the position is behind `<!-`. -/
def comment? : List Char → Option (List Char)
  | '-' :: r => (splitAtMark ['-', '-', '>'] r).map (·.2)
  | _ => none

/-- Verbatim text; the position is behind `<!`. -/
def verbatim? (cs : List Char) : Option (List Char × List Char) :=
  if startsWithKeyword "[CDATA[".toList cs then splitAtMark [']', ']', '>'] (cs.drop 7) else none

/-- A document type, which has to say something; the position is behind `<!`. -/
def docType? (cs : List Char) : Option (List Char) :=
  match splitBalanced 0 cs with
  | some (content, rest) =>
    if startsWithKeyword "DOCTYPE".toList content && !(content.drop 7).all isSpace then some rest
    else none
  | none => none

/-- The name in an end tag, without the blanks after it. -/
def endName (cs : List Char) : List Char :=
  if cs.all isSpace then cs else (cs.reverse.dropWhile isSpace).reverse

/-- A start tag from what stands between its brackets. -/
def ofTag (cs : List Char) : Event :=
  if cs.getLast? = some '/' then
    let inner := cs.dropLast
    .emptyTag (inner.takeWhile (!isSpace ·)) (inner.dropWhile (!isSpace ·))
  else
    .startTag (cs.takeWhile (!isSpace ·)) (cs.dropWhile (!isSpace ·))

/-- What begins behind a `<`, and what follows it. -/
def markup? : List Char → Except Malformation (Option (Event × List Char))
  | [] => .ok none
  | '!' :: '-' :: r =>
    match comment? r with
    | some rest => .ok (some (.ignored, rest))
    | none => .error .markup
  | '!' :: '[' :: r =>
    match verbatim? ('[' :: r) with
    | some (content, rest) => .ok (some (.verbatim content, rest))
    | none => .error .markup
  | '!' :: r =>
    match docType? r with
    | some rest => .ok (some (.ignored, rest))
    | none => .error .markup
  | '/' :: r =>
    let (content, rest) := splitAtClose r
    .ok (some (.endTag (endName content), rest))
  | '?' :: r =>
    let (content, rest) := splitAtClose r
    if 2 ≤ content.length ∧ content.getLast? = some '?' then .ok (some (.ignored, rest))
    else .error .markup
  | r =>
    match splitTag none r with
    | some (content, rest) => .ok (some (ofTag content, rest))
    | none => .error .markup

/-- The event that begins at a position, and what follows it. -/
def next? : List Char → Except Malformation (Option (Event × List Char))
  | [] => .ok none
  | '<' :: r => markup? r
  | cs => .ok (some (.text (cs.takeWhile (· ≠ '<')), cs.dropWhile (· ≠ '<')))

/-! ### The rest is shorter -/

theorem length_lt_of_splitAtMark {mark : List Char} (hm : mark ≠ []) :
    ∀ {cs before after : List Char}, splitAtMark mark cs = some (before, after) →
      after.length < cs.length
  | [], _, _, h => by simp [splitAtMark] at h
  | c :: r, before, after, h => by
      rw [splitAtMark] at h
      split at h
      · have : 0 < mark.length := List.length_pos_iff.mpr hm
        cases h
        simp only [List.length_drop, List.length_cons]
        omega
      · simp only [Option.map_eq_some_iff] at h
        obtain ⟨p, hp, hq⟩ := h
        cases hq
        have := length_lt_of_splitAtMark hm hp
        simp only [List.length_cons]
        omega

theorem length_le_of_splitAtClose (cs : List Char) :
    (splitAtClose cs).2.length ≤ cs.length := by
  simp only [splitAtClose, List.length_drop]
  have := (List.dropWhile_sublist (l := cs) (fun c => decide (c ≠ '>'))).length_le
  omega

theorem length_lt_of_splitTag :
    ∀ {quote? : Option Char} {cs before after : List Char},
      splitTag quote? cs = some (before, after) → after.length < cs.length
  | _, [], _, _, h => by simp [splitTag] at h
  | none, c :: r, before, after, h => by
      rw [splitTag] at h
      split at h
      · cases h; simp
      · simp only [Option.map_eq_some_iff] at h
        obtain ⟨p, hp, hq⟩ := h
        cases hq
        have := length_lt_of_splitTag hp
        simp only [List.length_cons]
        omega
  | some q, c :: r, before, after, h => by
      simp only [splitTag, Option.map_eq_some_iff] at h
      obtain ⟨p, hp, hq⟩ := h
      cases hq
      have := length_lt_of_splitTag hp
      simp only [List.length_cons]
      omega

theorem length_lt_of_splitBalanced :
    ∀ {depth : Nat} {cs before after : List Char},
      splitBalanced depth cs = some (before, after) → after.length < cs.length
  | _, [], _, _, h => by simp [splitBalanced] at h
  | 0, c :: r, before, after, h => by
      rw [splitBalanced] at h
      split at h
      · cases h; simp
      · simp only [Option.map_eq_some_iff] at h
        obtain ⟨p, hp, hq⟩ := h
        cases hq
        have := length_lt_of_splitBalanced hp
        simp only [List.length_cons]
        omega
  | d + 1, c :: r, before, after, h => by
      simp only [splitBalanced, Option.map_eq_some_iff] at h
      obtain ⟨p, hp, hq⟩ := h
      cases hq
      have := length_lt_of_splitBalanced hp
      simp only [List.length_cons]
      omega

theorem length_lt_of_comment? {cs rest : List Char} (h : comment? cs = some rest) :
    rest.length < cs.length := by
  unfold comment? at h
  split at h
  · simp only [Option.map_eq_some_iff] at h
    obtain ⟨p, hp, rfl⟩ := h
    have := length_lt_of_splitAtMark (by simp) hp
    simp only [List.length_cons]
    omega
  · cases h

theorem length_lt_of_verbatim? {cs content rest : List Char}
    (h : verbatim? cs = some (content, rest)) : rest.length < cs.length := by
  unfold verbatim? at h
  split at h
  · have := length_lt_of_splitAtMark (by simp) h
    simp only [List.length_drop] at this
    omega
  · cases h

theorem length_lt_of_docType? {cs rest : List Char} (h : docType? cs = some rest) :
    rest.length < cs.length := by
  unfold docType? at h
  split at h
  · rename_i hs
    split at h
    · cases h; exact length_lt_of_splitBalanced hs
    · cases h
  · cases h

theorem length_le_of_markup? {cs rest : List Char} {event : Event}
    (h : markup? cs = .ok (some (event, rest))) : rest.length ≤ cs.length := by
  unfold markup? at h
  split at h
  · cases h
  · split at h
    · rename_i hc
      cases h
      have := length_lt_of_comment? hc
      simp only [List.length_cons]
      omega
    · cases h
  · split at h
    · rename_i hv
      cases h
      have := length_lt_of_verbatim? hv
      simp only [List.length_cons] at this ⊢
      omega
    · cases h
  · split at h
    · rename_i hd
      cases h
      have := length_lt_of_docType? hd
      simp only [List.length_cons]
      omega
    · cases h
  · rename_i r
    cases h
    exact Nat.le_succ_of_le (length_le_of_splitAtClose r)
  · rename_i r
    dsimp only at h
    split at h
    · cases h
      exact Nat.le_succ_of_le (length_le_of_splitAtClose r)
    · cases h
  · split at h
    · rename_i ht
      cases h
      exact Nat.le_of_lt (length_lt_of_splitTag ht)
    · cases h

/-- Every event takes at least one character. -/
theorem length_lt_of_next? {cs rest : List Char} {event : Event}
    (h : next? cs = .ok (some (event, rest))) : rest.length < cs.length := by
  unfold next? at h
  split at h
  · cases h
  · have := length_le_of_markup? h
    simp only [List.length_cons]
    omega
  · rename_i hnil hlt
    cases h
    cases cs with
    | nil => exact absurd rfl hnil
    | cons c r =>
      have hc : c ≠ '<' := fun hc => hlt r (by rw [hc])
      rw [List.dropWhile_cons_of_pos (by simpa using hc)]
      exact Nat.lt_succ_of_le (List.dropWhile_sublist _).length_le

end Event

end GuestXml.Xml
