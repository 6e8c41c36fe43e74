import GuestXml.Proofs.Scalar.Integer

/-!
# Hexadecimal numbers

The pattern, the printer and the reader of hexadecimal numbers agree. A text that the pattern
lets pass is `0x` and digits that denote a number (`matches_between_iff`), and the reader
finds that number (`hexValue?_of_denotes`). What the printer writes fits the pattern, denotes
the number it was written for and is read back as it is (`UnionKind.Writes`), for every number
that the digits of the pattern are enough for (`UnionKind.writes_of_lt_pow`).

Main statement: `Scalar.hexadecimal_agrees`.
-/

namespace GuestXml

open Number (IsDigit Denotes DenotesInteger weight)
open Text (Pattern)

/-! ### What the patterns describe -/

namespace PatternKind

theorem matches_hexDigit_iff {c : Char} : hexDigit.Matches [c] ↔ IsDigit 16 c := by
  rw [Number.isDigit_sixteen_iff]
  simp [hexDigit, Pattern.Matches]

/-- Digits between two lengths. -/
theorem matches_between_iff {lo hi : Nat} {ds : List Char} :
    (Pattern.between lo hi hexDigit).Matches ds ↔
      (∀ c ∈ ds, IsDigit 16 c) ∧ lo ≤ ds.length ∧ ds.length ≤ lo + (hi - lo) := by
  simp only [← matches_hexDigit_iff]
  exact Pattern.matches_times_oneOf_iff.trans (by simp [hexDigit])

/-- What the pattern of a slot asks of the digits. -/
def slotDigits : Pattern :=
  .all [.optional (.oneOf [('0', '1')]), hexDigit]

/-- A slot has one digit, or one behind a zero or a one. -/
theorem digits_of_slotDigits {ds : List Char} (h : slotDigits.Matches ds) :
    ∃ c, IsDigit 16 c ∧ (ds = [c] ∨ ds = ['0', c] ∨ ds = ['1', c]) := by
  obtain ⟨as, bs, rfl, hfirst, hlast⟩ := h
  obtain ⟨c, rfl, hc⟩ : hexDigit.Matches bs := hlast
  obtain ⟨hsmall, -, hlength⟩ := Pattern.matches_times_oneOf_iff.mp hfirst
  have hshort : as.length ≤ 1 := by simpa using hlength 1 rfl
  refine ⟨c, matches_hexDigit_iff.mp ⟨c, rfl, hc⟩, ?_⟩
  match as with
  | [] => exact .inl rfl
  | [b] =>
    have hclass : '0' ≤ b ∧ b ≤ '1' := by simpa [Pattern.Matches] using hsmall b (by simp)
    have hrange : 48 ≤ b.toNat ∧ b.toNat ≤ 49 := hclass
    have hb : b = '0' ∨ b = '1' := by
      rw [← Char.ofNat_toNat b]
      obtain hnat | hnat : b.toNat = 48 ∨ b.toNat = 49 := by omega
      · exact .inl (congrArg Char.ofNat hnat)
      · exact .inr (congrArg Char.ofNat hnat)
    rcases hb with rfl | rfl
    · exact .inr (.inl rfl)
    · exact .inr (.inr rfl)

/-- So the digits of a slot denote a number, and there are 32 slots. -/
theorem exists_denotes_of_slotDigits {ds : List Char} (h : slotDigits.Matches ds) :
    ∃ n, Denotes 16 ds n ∧ n ≤ 31 := by
  obtain ⟨c, hc, hds⟩ := digits_of_slotDigits h
  have hlast : weight c < 16 := hc.2
  have hzero : IsDigit 16 '0' ∧ weight '0' = 0 := ⟨⟨by decide, by decide⟩, by decide⟩
  have hone : IsDigit 16 '1' ∧ weight '1' = 1 := ⟨⟨by decide, by decide⟩, by decide⟩
  rcases hds with rfl | rfl | rfl
  · exact ⟨weight c, ⟨by simp, by simpa using hc, by simp⟩, by omega⟩
  · exact ⟨weight c, ⟨by simp, by simpa [hzero] using hc, by simp [Nat.ofDigits_cons, hzero]⟩,
      by omega⟩
  · exact ⟨weight c + 16, ⟨by simp, by simpa [hone] using hc, by simp [Nat.ofDigits_cons, hone]⟩,
      by omega⟩

end PatternKind

/-! ### Reading -/

theorem withoutMarks_of_not_mem {cs : List Char} (h : 'x' ∉ cs) : withoutMarks cs = cs := by
  unfold withoutMarks
  split
  · simp at h
  · rfl

/-- Digits behind the mark are read as the number they denote. -/
theorem hexValue?_of_denotes {s : String} {ds : List Char} {n : Nat}
    (hs : s.toList = '0' :: 'x' :: ds) (h : Denotes 16 ds n) : hexValue? s = some n := by
  have hx : 'x' ∉ ds := fun hmem => absurd (h.2.1 'x' hmem).2 (by decide)
  have hplus : '+' ∉ ds := fun hmem => absurd (h.2.1 '+' hmem).1 (by decide)
  have hread : Number.numeral? 16 ds = some n := (Number.numeral?_eq_some_iff (by decide)).mpr h
  rw [hexValue?, hs, withoutMarks, withoutMarks_of_not_mem hx]
  split
  · simp at hplus
  · exact hread

/-! ### Writing -/

theorem toList_hexText (width n : Nat) :
    (hexText width n).toList = '0' :: 'x' :: Number.padded 16 width n :=
  String.toList_ofList

theorem isValid_hexText {k : PatternKind} {digits : Pattern} {width n : Nat}
    (hk : k.pattern = PatternKind.hexNumber digits)
    (h : digits.Matches (Number.padded 16 width n)) :
    Restricted.isValid (k := k) ⟨hexText width n⟩ = true := by
  rw [Restricted.isValid, hk, Pattern.accepts_iff_matches, toList_hexText]
  exact Schema.PatternKind.matches_hexNumber_iff.mpr ⟨_, rfl, h⟩

/-- The digits of a number fit, if so many are enough for it. -/
theorem matches_padded {width most n : Nat} (hmost : 0 < most) (hwidth : width ≤ most)
    (hn : n < 16 ^ most) :
    (Pattern.between 1 most PatternKind.hexDigit).Matches (Number.padded 16 width n) := by
  have hdigits := (Number.denotes_padded (by decide) (Nat.le_refl 16) width n).2.1
  have hpos := List.length_pos_of_ne_nil (Number.padded_ne_nil 16 width n)
  have hle : (Nat.toDigits 16 n).length ≤ most :=
    (Nat.length_toDigits_le_iff (by decide) hmost).mpr hn
  refine PatternKind.matches_between_iff.mpr ⟨hdigits, hpos, ?_⟩
  rw [Number.padded, List.length_append, List.length_replicate]
  omega

namespace Schema

/-- The number that a text denotes in hexadecimal, behind its mark, or in decimal. -/
inductive DenotesHexOrDecimal : List Char → Int → Prop
  | hex {ds : List Char} {n : Nat} : Denotes 16 ds n → DenotesHexOrDecimal ('0' :: 'x' :: ds) n
  | decimal {ds : List Char} {n : Int} : DenotesInteger false ds n → DenotesHexOrDecimal ds n

/-- A value is in hexadecimal, keeps its constraint, has a text that denotes a number and is
read back from it as it is. -/
structure UnionKind.Writes (u : UnionKind) (v : u.Carrier) (n : Int) : Prop where
  first : (u.toSum v).isLeft = true
  valid : (Scalar.union u).isValid v = true
  denotes : DenotesHexOrDecimal ((Scalar.union u).toText v).toList n
  back : (Scalar.union u).decode ((Scalar.union u).toText v) = .ok v

theorem UnionKind.writes_of_valid {u : UnionKind} {v : u.Carrier} {width n : Nat}
    (hfirst : (u.toSum v).isLeft = true) (htext : (Scalar.union u).toText v = hexText width n)
    (hvalid : (Scalar.union u).isValid v = true) : u.Writes v n := by
  refine ⟨hfirst, hvalid, ?_, Scalar.decode_toText rfl hvalid⟩
  rw [htext, toList_hexText]
  exact .hex (Number.denotes_padded (by decide) (by decide) width n)

end Schema

theorem Number.Bounded.cast_toNat {lo hi : Int} (n : Number.Bounded lo hi) (hlo : 0 ≤ lo) :
    (n.val.toNat : Int) = n.val :=
  Int.toNat_of_nonneg (Int.le_trans hlo n.lo_le)

namespace Schema

/-- A pattern of so many digits has the texts of all numbers below that power of sixteen. -/
theorem UnionKind.writes_of_lt_pow {u : UnionKind} {v : u.Carrier} {lo hi : Int} {width : Nat}
    (k : PatternKind) (most : Nat) (n : Number.Bounded lo hi)
    (hk : k.pattern = PatternKind.hexNumber (.between 1 most PatternKind.hexDigit))
    (hfirst : (u.toSum v).isLeft = true)
    (htext : (Scalar.union u).toText v = hexText width n.val.toNat)
    (hvalid : (Scalar.union u).isValid v =
      Restricted.isValid (k := k) ⟨hexText width n.val.toNat⟩)
    (hlo : 0 ≤ lo) (hhi : hi < ((16 ^ most : Nat) : Int)) (hmost : 0 < most)
    (hwidth : width ≤ most) : u.Writes v n.val := by
  have hn : n.val.toNat < 16 ^ most := by
    have hcast := n.cast_toNat hlo
    have hle := n.le_hi
    omega
  rw [← n.cast_toNat hlo]
  exact writes_of_valid hfirst htext
    (hvalid.trans (isValid_hexText hk (matches_padded hmost hwidth hn)))

/-! ### Slots and functions -/

theorem map_of?_eq_some_iff {α : Type} {k : RangedKind} {n : k.inner.Carrier} {a b : α} :
    (Ranged.of? (k := k) n).map (fun _ => a) = some b ↔
      (k.min.val ≤ n.val ∧ n.val ≤ k.max.val) ∧ a = b := by
  simp only [Option.map_eq_some_iff, Ranged.of?_eq_some_iff]
  constructor
  · rintro ⟨r, ⟨rfl, hr⟩, rfl⟩
    exact ⟨Ranged.isValid_iff.mp hr, rfl⟩
  · rintro ⟨hn, rfl⟩
    exact ⟨⟨n⟩, ⟨rfl, Ranged.isValid_iff.mpr hn⟩, rfl⟩

theorem slot_ofNumber?_eq_some_iff {n : UnsignedByte} {s : PciSlot} :
    PciSlot.ofNumber? n = some s ↔ n.val ≤ 31 ∧ PciSlot.hex ⟨hexText 2 n.val.toNat⟩ = s :=
  map_of?_eq_some_iff.trans (and_congr_left' (and_iff_right n.lo_le))

theorem function_ofNumber?_eq_some_iff {n : UnsignedByte} {f : PciFunction} :
    PciFunction.ofNumber? n = some f ↔ n.val ≤ 7 ∧ PciFunction.hex ⟨hexText 1 n.val.toNat⟩ = f :=
  map_of?_eq_some_iff.trans (and_congr_left' (and_iff_right n.lo_le))

theorem writes_slot {n : UnsignedByte} {s : PciSlot} (h : PciSlot.ofNumber? n = some s) :
    UnionKind.pciSlot.Writes s n.val := by
  obtain ⟨hn, rfl⟩ := slot_ofNumber?_eq_some_iff.mp h
  have hall : ∀ m < 32, Restricted.isValid (k := .hexPciSlot) ⟨hexText 2 m⟩ = true := by decide
  have hvalid := hall n.val.toNat (by omega)
  rw [← n.cast_toNat (by decide)]
  exact UnionKind.writes_of_valid rfl rfl hvalid

theorem writes_function {n : UnsignedByte} {f : PciFunction}
    (h : PciFunction.ofNumber? n = some f) : UnionKind.pciFunction.Writes f n.val := by
  obtain ⟨hn, rfl⟩ := function_ofNumber?_eq_some_iff.mp h
  have hall : ∀ m < 8, Restricted.isValid (k := .hexPciFunction) ⟨hexText 1 m⟩ = true := by decide
  have hvalid := hall n.val.toNat (by omega)
  rw [← n.cast_toNat (by decide)]
  exact UnionKind.writes_of_valid rfl rfl hvalid

/-! ### Numbers of texts -/

theorem Scalar.decode_union_eq_ok {u : UnionKind} {t : String} {v : u.Carrier}
    (h : (union u).decode t = .ok v) :
    (∃ w, u.first.decode t = .ok w ∧ v = u.ofSum (.inl w)) ∨
      ∃ w, u.second.decode t = .ok w ∧ v = u.ofSum (.inr w) := by
  have hread := (decode_eq_ok_iff.mp h).1
  simp only [ofText?] at hread
  split at hread
  · rename_i w hw
    exact .inl ⟨w, hw, (Option.some.inj hread).symm⟩
  · obtain ⟨w, hw, rfl⟩ := Option.map_eq_some_iff.mp hread
    cases hsecond : u.second.decode t with
    | error e => simp [hsecond, Except.toOption] at hw
    | ok w' =>
      obtain rfl : w' = w := by simpa [hsecond, Except.toOption] using hw
      exact .inr ⟨w', rfl, rfl⟩

/-- A text of a hexadecimal pattern is the mark and digits of the pattern. -/
theorem Atom.digits_of_decode {k : PatternKind} {digits : Pattern} {t : String}
    {w : Restricted k} (hk : k.pattern = PatternKind.hexNumber digits)
    (h : (Atom.restricted k).decode t = .ok w) :
    w.text.toList = Text.trimChars t.toList ∧
      ∃ ds, Text.trimChars t.toList = '0' :: 'x' :: ds ∧ digits.Matches ds := by
  obtain ⟨hread, hvalid⟩ := Atom.decode_eq_ok_iff.mp h
  obtain rfl : Restricted.trimmed t = w := Option.some.inj hread
  have htext : (Restricted.trimmed (k := k) t).text.toList = Text.trimChars t.toList :=
    String.toList_ofList
  refine ⟨htext, PatternKind.matches_hexNumber_iff.mp ?_⟩
  rw [← hk, ← Pattern.accepts_iff_matches, ← htext]
  exact hvalid

/-- The digits of a hexadecimal form give its number, if the bounds admit it. -/
theorem hexValue?_bind_of_denotes {s : String} {cs ds : List Char} {n : Nat} {lo hi : Int}
    (hs : s.toList = cs) (hcs : cs = '0' :: 'x' :: ds) (h : Denotes 16 ds n)
    (hn : lo ≤ n ∧ (n : Int) ≤ hi) :
    ((hexValue? s).bind fun m => Number.Bounded.ofInt? lo hi m) = some ⟨n, hn.1, hn.2⟩ ∧
      DenotesHexOrDecimal cs n := by
  subst hcs
  rw [hexValue?_of_denotes hs h]
  exact ⟨Number.Bounded.ofInt?_eq_some_iff.mpr rfl, .hex h⟩

theorem number?_of_decode_unsigned {t : String} {v : HexOrUnsigned}
    (h : (Scalar.union .hexOrUnsigned).decode t = .ok v) :
    ∃ n, v.number? = some n ∧ DenotesHexOrDecimal (Text.trimChars t.toList) n.val := by
  rcases Scalar.decode_union_eq_ok h with ⟨w, hw, rfl⟩ | ⟨n, hn, rfl⟩
  · obtain ⟨htext, ds, hds, hmatches⟩ := Atom.digits_of_decode rfl hw
    obtain ⟨hdigits, hlo, hhi⟩ := PatternKind.matches_between_iff.mp hmatches
    obtain ⟨n, hn⟩ := Number.exists_denotes (List.length_pos_iff.mp hlo) hdigits
    have hlt : n < 16 ^ 8 :=
      Nat.lt_of_lt_of_le (hn.lt_pow (by decide)) (Nat.pow_le_pow_right (by decide) hhi)
    have hbounds : IntegerKind.unsignedInt.min ≤ (n : Int) ∧
        (n : Int) ≤ IntegerKind.unsignedInt.max := by
      simp only [IntegerKind.min, IntegerKind.max]
      omega
    exact ⟨_, hexValue?_bind_of_denotes htext hds hn hbounds⟩
  · exact ⟨n, rfl, .decimal (Atom.ofText?_integer_iff.mp (Atom.decode_eq_ok_iff.mp hn).1)⟩

theorem number?_of_decode_slot {t : String} {v : PciSlot}
    (h : (Scalar.union .pciSlot).decode t = .ok v) :
    ∃ n, v.number? = some n ∧ n.val ≤ 31 ∧
      DenotesHexOrDecimal (Text.trimChars t.toList) n.val := by
  rcases Scalar.decode_union_eq_ok h with ⟨w, hw, rfl⟩ | ⟨n, hn, rfl⟩
  · obtain ⟨htext, ds, hds, hmatches⟩ := Atom.digits_of_decode rfl hw
    obtain ⟨n, hn, hle⟩ := PatternKind.exists_denotes_of_slotDigits hmatches
    have hbounds : IntegerKind.unsignedByte.min ≤ (n : Int) ∧
        (n : Int) ≤ IntegerKind.unsignedByte.max := by
      simp only [IntegerKind.min, IntegerKind.max]
      omega
    obtain ⟨hnumber, hdenotes⟩ := hexValue?_bind_of_denotes htext hds hn hbounds
    exact ⟨_, hnumber, Int.ofNat_le.mpr hle, hdenotes⟩
  · obtain ⟨hread, hvalid⟩ := Atom.decode_eq_ok_iff.mp hn
    have hrange := Ranged.isValid_iff.mp hvalid
    exact ⟨n.val, rfl, hrange.2, .decimal (Atom.ofText?_ranged_iff.mp hread)⟩

theorem number?_ofNumber (n : UnsignedInt) : (HexOrUnsigned.ofNumber n).number? = some n := by
  have hvalue : hexValue? (hexText 1 n.val.toNat) = some n.val.toNat :=
    hexValue?_of_denotes (toList_hexText 1 _) (Number.denotes_padded (by decide) (by decide) 1 _)
  rw [HexOrUnsigned.ofNumber, HexOrUnsigned.number?, hvalue, Option.bind_some]
  exact Number.Bounded.ofInt?_eq_some_iff.mpr (n.cast_toNat (by decide)).symm

/-! ### Agreement -/

/-- **Agreement of hexadecimal forms.** Every text of an unsigned number or a slot has the
number that it denotes. All numbers have a hexadecimal form, slots up to 31 and functions up
to 7, which is valid, denotes the number and comes back from its text. -/
theorem Scalar.hexadecimal_agrees :
    (∀ t v, (union .hexOrUnsigned).decode t = .ok v →
      ∃ n, HexOrUnsigned.number? v = some n ∧
        DenotesHexOrDecimal (Text.trimChars t.toList) n.val) ∧
    (∀ n : UnsignedInt, UnionKind.hexOrUnsigned.Writes (.ofNumber n) n.val ∧
      (HexOrUnsigned.ofNumber n).number? = some n) ∧
    (∀ t v, (union .pciSlot).decode t = .ok v →
      ∃ n, PciSlot.number? v = some n ∧ n.val ≤ 31 ∧
        DenotesHexOrDecimal (Text.trimChars t.toList) n.val) ∧
    (∀ n : UnsignedByte, ((PciSlot.ofNumber? n).isSome = true ↔ n.val ≤ 31) ∧
      ((PciFunction.ofNumber? n).isSome = true ↔ n.val ≤ 7)) ∧
    (∀ n : UnsignedShort, UnionKind.pciDomain.Writes (.ofNumber n) n.val) ∧
    (∀ n : UnsignedByte, UnionKind.pciBus.Writes (.ofNumber n) n.val) ∧
    (∀ n s, PciSlot.ofNumber? n = some s → UnionKind.pciSlot.Writes s n.val) ∧
    ∀ n f, PciFunction.ofNumber? n = some f → UnionKind.pciFunction.Writes f n.val := by
  refine ⟨fun t v hread => number?_of_decode_unsigned hread, fun n => ⟨?_, ?_⟩,
    fun t v hread => number?_of_decode_slot hread, fun n => ⟨?_, ?_⟩, fun n => ?_, fun n => ?_,
    fun n s hs => writes_slot hs, fun n f hf => writes_function hf⟩
  · exact UnionKind.writes_of_lt_pow .hexUnsigned 8 n rfl rfl rfl rfl (by decide) (by decide)
      (by decide) (by decide)
  · exact number?_ofNumber n
  · simp [Option.isSome_iff_exists, slot_ofNumber?_eq_some_iff]
  · simp [Option.isSome_iff_exists, function_ofNumber?_eq_some_iff]
  · exact UnionKind.writes_of_lt_pow .hexPciDomain 4 n rfl rfl rfl rfl (by decide) (by decide)
      (by decide) (by decide)
  · exact UnionKind.writes_of_lt_pow .hexPciBus 2 n rfl rfl rfl rfl (by decide) (by decide)
      (by decide) (by decide)

/-- The widest numbers, in capitals and behind blanks. -/
theorem Scalar.hexadecimal_agrees_widest :
    let v : HexOrUnsigned := .hex ⟨"0xFFFFffff"⟩
    let s : PciSlot := .hex ⟨"0x1F"⟩
    ((union .hexOrUnsigned).decode "\u3000 0xFFFFffff\n" = .ok v ∧
      v.number? = some (.lit 4294967295) ∧
      DenotesHexOrDecimal "0xFFFFffff".toList 4294967295) ∧
    ((union .pciSlot).decode "0x1F" = .ok s ∧ ∃ n, s.number? = some n ∧ n.val ≤ 31) ∧
    UnionKind.pciSlot.Writes (.hex ⟨"0x1f"⟩) 31 ∧
    UnionKind.pciFunction.Writes (.hex ⟨"0x7"⟩) 7 := by
  intro v s
  have hv : (union .hexOrUnsigned).decode "\u3000 0xFFFFffff\n" = .ok v := by decide +kernel
  have hs : (union .pciSlot).decode "0x1F" = .ok s := by decide +kernel
  obtain ⟨hunsigned, -, hslot, -, -, -, hslots, hfunctions⟩ := hexadecimal_agrees
  obtain ⟨n, hn, hdenotes⟩ := hunsigned _ v hv
  obtain ⟨m, hm, hrange, -⟩ := hslot _ s hs
  have hnumber : v.number? = some (.lit 4294967295) := by decide +kernel
  obtain rfl := Option.some.inj (hn.symm.trans hnumber)
  exact ⟨⟨hv, hnumber, hdenotes⟩, ⟨hs, m, hm, hrange⟩, hslots (.lit 31) _ (by decide +kernel),
    hfunctions (.lit 7) _ (by decide +kernel)⟩

end Schema

end GuestXml
