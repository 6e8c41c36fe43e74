import GuestXml.Proofs.Number.Numeral
import GuestXml.Schema.Scalar
import Mathlib.Data.List.Nodup

/-!
# Scalars read back

A scalar that keeps its constraint is read back from its text as the same value
(`Scalar.decode_toText`), and a scalar that was read keeps its constraint, so that it can be
written (`Scalar.encode_of_decode`). The first holds of every scalar that occurs in
documents, which leaves out doubles and dates.

For a union it needs that the text of its second form never is one of its first form
(`UnionKind.first_decode_second`): hexadecimal numbers have an `x`, words have letters, and
chains of one's own have a hyphen.

Strings aside, no text has blanks in it (`Scalar.isBlank_of_mem_toText`), so a scalar whose
text is blank can also have the empty text (`Scalar.exists_toText_eq_empty`).
-/

namespace GuestXml

open Text (Pattern)

/-! ### Words -/

namespace Enumeration

variable {α : Type} [Enumeration α]

theorem mem_all (a : α) : a ∈ all α :=
  complete a

/-- No other value has the spelling of a value. -/
theorem eq_of_spelling_eq {a b : α} (h : spelling a = spelling b) : a = b :=
  List.inj_on_of_nodup_map (nodup_spellings (α := α)) (mem_all a) (mem_all b) h

theorem find?_spelling (a : α) : (all α).find? (fun b => spelling b == spelling a) = some a := by
  obtain ⟨b, hb⟩ := Option.isSome_iff_exists.mp
    (List.find?_isSome (p := fun b => spelling b == spelling a).mpr ⟨a, mem_all a, by simp⟩)
  have heq : spelling b = spelling a := by simpa using List.find?_some hb
  rw [hb, eq_of_spelling_eq heq]

theorem ofText?_spelling {a : α} (h : Text.trim (spelling a) = spelling a) :
    ofText? (spelling a) = some a := by
  rw [ofText?, h, find?_spelling]

end Enumeration

namespace Schema

theorem EnumKind.isGraphicChar_of_mem_spelling (k : EnumKind) (v : k.Carrier) :
    ∀ c ∈ (Enumeration.spelling v).toList, Pattern.isGraphicChar c = true := by
  have hall : ∀ w ∈ Enumeration.all k.Carrier,
      (Enumeration.spelling w).toList.all Pattern.isGraphicChar = true := by
    cases k <;> decide +kernel
  exact List.all_eq_true.mp (hall v (Enumeration.mem_all v))

theorem EnumKind.trim_spelling (k : EnumKind) (v : k.Carrier) :
    Text.trim (Enumeration.spelling v) = Enumeration.spelling v :=
  Text.trim_of_not_blank fun c hc =>
    Text.isBlank_of_isGraphicChar (k.isGraphicChar_of_mem_spelling v c hc)

theorem PatternKind.isGraphic_pattern (k : PatternKind) : k.pattern.isGraphic = true := by
  cases k <;> decide +kernel

theorem Restricted.trim_text {k : PatternKind} {t : Restricted k} (h : t.isValid = true) :
    Text.trim t.text = t.text :=
  Text.trim_of_accepts (PatternKind.isGraphic_pattern k) h

/-! ### Atoms -/

namespace Atom

/-- Whether an atom occurs in documents. -/
def occurs : Atom → Bool
  | double => false
  | dateTime => false
  | _ => true

theorem ofText?_toText {a : Atom} (ha : a.occurs = true) {v : a.Carrier}
    (hv : a.isValid v = true) : a.ofText? (a.toText v) = some v := by
  cases a with
  | string => rfl
  | integer k => exact Number.Bounded.ofText?_toText v
  | double => simp [occurs] at ha
  | dateTime => simp [occurs] at ha
  | instant =>
    -- The calendar's range lies within 64 bits, so the text reads back as such a number first.
    have hlo : IntegerKind.long.min ≤ v.val := Int.le_trans (by decide) v.lo_le
    have hhi : v.val ≤ IntegerKind.long.max := Int.le_trans v.le_hi (by decide)
    have hwide : Number.Bounded.ofText? IntegerKind.long.min IntegerKind.long.max
        (Text.trimChars (Number.Bounded.toText v).toList) = some ⟨v.val, hlo, hhi⟩ :=
      Number.Bounded.ofText?_toText (⟨v.val, hlo, hhi⟩ : Number.Bounded _ _)
    show (Number.Bounded.ofText? IntegerKind.long.min IntegerKind.long.max
      (Text.trimChars (Number.Bounded.toText v).toList)).bind _ = _
    rw [hwide]
    exact Number.Bounded.ofInt?_val v
  | ranged k =>
    simp only [ofText?, toText, Number.Bounded.ofText?_toText, Option.map_some]
  | restricted k =>
    simp only [ofText?, toText, Restricted.trimmed, Restricted.trim_text hv]
  | enum k => exact Enumeration.ofText?_spelling (k.trim_spelling v)

theorem decode_toText {a : Atom} (ha : a.occurs = true) {v : a.Carrier}
    (hv : a.isValid v = true) : a.decode (a.toText v) = .ok v := by
  simp [decode, ofText?_toText ha hv, hv]

/-- All texts but strings are printable ASCII. -/
theorem isGraphicChar_of_mem_toText {a : Atom} (ha : a.occurs = true) (hstring : a ≠ .string)
    {v : a.Carrier} (hv : a.isValid v = true) :
    ∀ c ∈ (a.toText v).toList, Pattern.isGraphicChar c = true := by
  cases a with
  | string => exact absurd rfl hstring
  | integer k => exact Number.isGraphicChar_of_mem_toString_int
  | double => simp [occurs] at ha
  | dateTime => simp [occurs] at ha
  | instant => exact Number.isGraphicChar_of_mem_toString_int
  | ranged k => exact Number.isGraphicChar_of_mem_toString_int
  | restricted k =>
    have hmatches := (Pattern.accepts_iff_matches _ _).mp hv
    exact Pattern.isGraphicChar_of_matches (PatternKind.isGraphic_pattern k) hmatches
  | enum k => exact k.isGraphicChar_of_mem_spelling v

end Atom

/-! ### Unions -/

/-- A hexadecimal number is the mark and digits. -/
theorem PatternKind.matches_hexNumber_iff {digits : Pattern} {cs : List Char} :
    (PatternKind.hexNumber digits).Matches cs ↔ ∃ ds, cs = '0' :: 'x' :: ds ∧ digits.Matches ds := by
  simp only [PatternKind.hexNumber, Pattern.all, Pattern.Matches, Pattern.matches_char_iff]
  constructor
  · rintro ⟨_, _, rfl, rfl, _, ds, rfl, rfl, hds⟩
    exact ⟨ds, rfl, hds⟩
  · rintro ⟨ds, rfl, hds⟩
    exact ⟨['0'], 'x' :: ds, rfl, rfl, ['x'], ds, rfl, rfl, hds⟩

theorem PatternKind.mem_x_of_hexNumber {digits : Pattern} {cs : List Char}
    (h : (PatternKind.hexNumber digits).accepts cs = true) : 'x' ∈ cs := by
  obtain ⟨ds, rfl, -⟩ := matches_hexNumber_iff.mp ((Pattern.accepts_iff_matches _ cs).mp h)
  simp

/-- The digits of a decimal number are no hexadecimal number. -/
theorem PatternKind.hexNumber_rejects_digits {digits : Pattern} {cs : List Char}
    (h : ∀ c ∈ cs, c.isDigit = true) : (PatternKind.hexNumber digits).accepts cs = false := by
  rw [Bool.eq_false_iff]
  intro haccepts
  exact absurd (h 'x' (PatternKind.mem_x_of_hexNumber haccepts)) (by decide)

/-- A chain of one's own has a hyphen behind the name of its protocol. -/
theorem PatternKind.mem_hyphen_of_customChain {cs : List Char}
    (h : PatternKind.customChain.pattern.accepts cs = true) : '-' ∈ cs := by
  obtain ⟨_, _, rfl, -, _, _, rfl, hhyphen, -⟩ := (Pattern.accepts_iff_matches _ cs).mp h
  simp [Pattern.matches_char_iff.mp hhyphen]

theorem Enumeration.ofText?_eq_none {α : Type} [Enumeration α] {s : String}
    (h : ∀ a : α, Enumeration.spelling a ≠ Text.trim s) :
    (Enumeration.ofText? s : Option α) = none := by
  rw [Enumeration.ofText?, List.find?_eq_none]
  intro a _
  simpa using h a

theorem Atom.decode_restricted_of_reject {k : PatternKind} {s : String}
    (hs : k.pattern.accepts (Text.trim s).toList = false) :
    ∃ e, (Atom.restricted k).decode s = .error e := by
  refine ⟨.invalidValue k.name s, ?_⟩
  simp [decode, ofText?, isValid, Restricted.isValid, Restricted.trimmed, hs, name]

theorem Atom.decode_enum_of_unspelled {k : EnumKind} {s : String}
    (hs : ∀ v : k.Carrier, Enumeration.spelling v ≠ Text.trim s) :
    ∃ e, (Atom.enum k).decode s = .error e := by
  refine ⟨.invalidValue k.enumeration.name s, ?_⟩
  simp [decode, ofText?, Enumeration.ofText?_eq_none hs, name]

namespace UnionKind

variable {lo hi : Int}

/-- A number that is not negative has a text that is no hexadecimal number. -/
theorem hex_decode_decimal {k : PatternKind} {digits : Pattern}
    (hk : k.pattern = PatternKind.hexNumber digits) (n : Number.Bounded lo hi) (hlo : 0 ≤ lo) :
    ∃ e, (Atom.restricted k).decode n.toText = .error e := by
  apply Atom.decode_restricted_of_reject
  have hdigits := Number.Bounded.isDigit_of_mem_toText (n := n) hlo
  rw [Number.trim_of_digits hdigits, hk]
  exact PatternKind.hexNumber_rejects_digits hdigits

/-- The text of a union's second form is none of its first. -/
theorem first_decode_second (u : UnionKind) {w : u.second.Carrier}
    (hw : u.second.isValid w = true) : ∃ e, u.first.decode (u.second.toText w) = .error e := by
  cases u with
  | hexOrUnsigned => exact hex_decode_decimal rfl w (by decide)
  | pciDomain => exact hex_decode_decimal rfl w (by decide)
  | pciBus => exact hex_decode_decimal rfl w (by decide)
  | pciSlot => exact hex_decode_decimal rfl w.val (by decide)
  | pciFunction => exact hex_decode_decimal rfl w.val (by decide)
  | cacheAssociativity =>
    have hdigits := Number.Bounded.isDigit_of_mem_toText (n := w) (by decide)
    refine Atom.decode_enum_of_unspelled fun v hv => ?_
    replace hv : Enumeration.spelling v = Number.Bounded.toText w :=
      hv.trans (Number.trim_of_digits hdigits)
    have hletter : (Enumeration.spelling v).toList.all Char.isDigit = false := by
      cases v <;> decide +kernel
    rw [hv] at hletter
    exact absurd (List.all_eq_true.mpr hdigits) (Bool.eq_false_iff.mp hletter)
  | filterChain =>
    refine Atom.decode_enum_of_unspelled fun v hv => ?_
    have hhyphen := PatternKind.mem_hyphen_of_customChain hw
    rw [← Restricted.trim_text hw] at hhyphen
    have hword : (Enumeration.spelling v).toList.contains '-' = false := by
      cases v <;> decide +kernel
    rw [hv] at hword
    exact absurd (List.contains_iff_mem.mpr hhyphen) (Bool.eq_false_iff.mp hword)

theorem first_occurs (u : UnionKind) : u.first.occurs = true := by
  cases u <;> rfl

theorem second_occurs (u : UnionKind) : u.second.occurs = true := by
  cases u <;> rfl

theorem first_ne_string (u : UnionKind) : u.first ≠ .string := by
  cases u <;> decide

theorem second_ne_string (u : UnionKind) : u.second ≠ .string := by
  cases u <;> decide

end UnionKind

/-! ### Scalars -/

namespace Scalar

/-- Whether a scalar occurs in documents. -/
def occurs : Scalar → Bool
  | atom a => a.occurs
  | union _ => true

theorem ofText?_toText {s : Scalar} (hs : s.occurs = true) {v : s.Carrier}
    (hv : s.isValid v = true) : s.ofText? (s.toText v) = some v := by
  cases s with
  | atom a => exact Atom.ofText?_toText hs hv
  | union u =>
    simp only [isValid] at hv
    simp only [ofText?, toText]
    cases hform : u.toSum v with
    | inl w =>
      rw [hform] at hv
      simp only [Atom.decode_toText u.first_occurs hv]
      rw [← hform, UnionKind.ofSum_toSum]
    | inr w =>
      rw [hform] at hv
      obtain ⟨e, he⟩ := u.first_decode_second hv
      simp only [he, Atom.decode_toText u.second_occurs hv, Except.toOption, Option.map_some]
      rw [← hform, UnionKind.ofSum_toSum]

/-- A value that keeps its constraint is read back from its text. -/
theorem decode_toText {s : Scalar} (hs : s.occurs = true) {v : s.Carrier}
    (hv : s.isValid v = true) : s.decode (s.toText v) = .ok v := by
  simp [decode, ofText?_toText hs hv, hv]

theorem isValid_of_decode {s : Scalar} {t : String} {v : s.Carrier} (h : s.decode t = .ok v) :
    s.isValid v = true := by
  unfold decode at h
  split at h
  · split at h
    · rename_i hvalid
      cases h
      exact hvalid
    · cases h
  · cases h

/-- A text that is no value is an error of the ordinary kind. -/
theorem isFatal_of_decode {s : Scalar} {t : String} {e : Error} (h : s.decode t = .error e) :
    e.isFatal = false := by
  unfold decode at h
  split at h
  · split at h <;> cases h
    rfl
  · cases h
    rfl

theorem encode_eq_ok_iff {s : Scalar} {v : s.Carrier} {t : String} :
    s.encode v = .ok t ↔ s.isValid v = true ∧ t = s.toText v := by
  unfold encode
  split
  · rename_i hv
    simp only [Except.ok.injEq, hv, true_and]
    exact eq_comm
  · rename_i hv
    simp [hv]

/-- A value that was read can be written. -/
theorem encode_of_decode {s : Scalar} {t : String} {v : s.Carrier} (h : s.decode t = .ok v) :
    s.encode v = .ok (s.toText v) :=
  encode_eq_ok_iff.mpr ⟨isValid_of_decode h, rfl⟩

/-! ### Blank texts -/

/-- Only strings have blanks in their texts. -/
theorem isBlank_of_mem_toText {s : Scalar} (hs : s.occurs = true) (hstring : s ≠ .string)
    {v : s.Carrier} (hv : s.isValid v = true) :
    ∀ c ∈ (s.toText v).toList, Text.isBlank c = false := by
  intro c hc
  apply Text.isBlank_of_isGraphicChar
  cases s with
  | atom a =>
    have hatom : a ≠ .string := fun ha => hstring (congrArg Scalar.atom ha)
    exact Atom.isGraphicChar_of_mem_toText hs hatom hv c hc
  | union u =>
    simp only [isValid] at hv
    simp only [toText] at hc
    cases hform : u.toSum v with
    | inl w =>
      rw [hform] at hv hc
      exact Atom.isGraphicChar_of_mem_toText u.first_occurs u.first_ne_string hv c hc
    | inr w =>
      rw [hform] at hv hc
      exact Atom.isGraphicChar_of_mem_toText u.second_occurs u.second_ne_string hv c hc

/-- Strings aside, a text that is blank is empty. -/
theorem toText_eq_empty_of_isBlankText {s : Scalar} (hs : s.occurs = true)
    (hstring : s ≠ .string) {v : s.Carrier} (hv : s.isValid v = true)
    (hblank : Text.isBlankText (s.toText v) = true) : s.toText v = "" := by
  apply String.toList_eq_nil_iff.mp
  rw [List.eq_nil_iff_forall_not_mem]
  intro c hc
  rw [Text.isBlankText, List.all_eq_true] at hblank
  have hsolid := isBlank_of_mem_toText hs hstring hv c hc
  rw [hblank c hc] at hsolid
  cases hsolid

/-- A scalar with a blank text has a value with the empty text. -/
theorem exists_toText_eq_empty {s : Scalar} (hs : s.occurs = true) {v : s.Carrier}
    (hv : s.isValid v = true) (hblank : Text.isBlankText (s.toText v) = true) :
    ∃ w, s.isValid w = true ∧ s.toText w = "" := by
  by_cases hstring : s = .string
  · subst hstring
    exact ⟨"", rfl, rfl⟩
  · exact ⟨v, hv, toText_eq_empty_of_isBlankText hs hstring hv hblank⟩

end Scalar

end Schema

end GuestXml
