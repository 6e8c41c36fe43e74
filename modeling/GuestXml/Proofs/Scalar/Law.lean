import GuestXml.Proofs.Scalar.Codec
import GuestXml.Proofs.Text.Pattern
import GuestXml.Proofs.Time.DateTime

/-!
# The law of scalars

All scalars but doubles obey one law, `Scalar.decode_law`:

* what was read is written as a text that reads as the same value;
* strings aside, blanks around a text make no difference;
* a valid value reads back from its text;
* no text is read by both forms of a union (`UnionKind.forms_exclusive`), so a value comes
  back in the form it has.
-/

namespace GuestXml.Schema

/-! ### Reading and checking -/

theorem Scalar.decode_eq_ok_iff {s : Scalar} {t : String} {v : s.Carrier} :
    s.decode t = .ok v ↔ s.ofText? t = some v ∧ s.isValid v = true := by
  unfold decode
  cases s.ofText? t with
  | none => simp
  | some w =>
    by_cases hw : s.isValid w = true
    · simp only [hw, if_true, Except.ok.injEq, Option.some.injEq]
      constructor
      · rintro rfl
        exact ⟨rfl, hw⟩
      · exact fun h => h.1
    · simp only [hw, Bool.false_eq_true, if_false, reduceCtorEq, Option.some.injEq, false_iff]
      rintro ⟨rfl, hv⟩
      exact hw hv

theorem Scalar.decode_atom (a : Atom) (t : String) : (atom a).decode t = a.decode t := by
  unfold decode Atom.decode
  simp only [ofText?]
  cases a.ofText? t <;> rfl

theorem Atom.decode_eq_ok_iff {a : Atom} {t : String} {v : a.Carrier} :
    a.decode t = .ok v ↔ a.ofText? t = some v ∧ a.isValid v = true := by
  rw [← Scalar.decode_atom]
  exact Scalar.decode_eq_ok_iff

/-! ### Blanks around a text -/

namespace Atom

variable {a : Atom} {s t : String}

theorem ofText?_of_trim_eq (ha : a ≠ .string) (h : Text.trim s = Text.trim t) :
    a.ofText? s = a.ofText? t := by
  have hchars : Text.trimChars s.toList = Text.trimChars t.toList := String.ofList_injective h
  cases a with
  | string => exact absurd rfl ha
  | integer k => simp only [ofText?, hchars]
  | double => simp only [ofText?, hchars]
  | dateTime => simp only [ofText?, hchars]
  | instant => simp only [ofText?, hchars]
  | ranged k => simp only [ofText?, hchars]
  | restricted k => simp only [ofText?, Restricted.trimmed, h]
  | enum k => simp only [ofText?, Enumeration.ofText?, h]

theorem toOption_decode_of_trim_eq (ha : a ≠ .string) (h : Text.trim s = Text.trim t) :
    (a.decode s).toOption = (a.decode t).toOption := by
  unfold decode
  rw [ofText?_of_trim_eq ha h]
  cases a.ofText? t with
  | none => rfl
  | some v =>
    by_cases hv : a.isValid v = true
    · simp only [hv, if_true]
    · simp only [hv, Bool.false_eq_true, if_false]
      rfl

end Atom

namespace Scalar

/-- Texts that are the same but for blanks around them are read alike, strings aside. -/
theorem ofText?_of_trim_eq {s : Scalar} {t t' : String} (hs : s ≠ .string)
    (h : Text.trim t = Text.trim t') : s.ofText? t = s.ofText? t' := by
  cases s with
  | atom a => exact Atom.ofText?_of_trim_eq (fun ha => hs (congrArg Scalar.atom ha)) h
  | union u =>
    have hfirst := Atom.toOption_decode_of_trim_eq u.first_ne_string h
    have hsecond := Atom.toOption_decode_of_trim_eq u.second_ne_string h
    simp only [ofText?, hsecond]
    cases ht : u.first.decode t <;> cases ht' : u.first.decode t' <;>
      simp_all [Except.toOption]

end Scalar

/-! ### Forms that exclude each other -/

namespace UnionKind

variable {u : UnionKind}

/-- What is written as a whole number is no hexadecimal number. -/
theorem hex_decode_integer {k : PatternKind} {digits : Text.Pattern} {t : String}
    (hk : k.pattern = PatternKind.hexNumber digits)
    (ht : ∀ c ∈ Text.trimChars t.toList, Number.isIntegerChar c = true) :
    ∃ e, (Atom.restricted k).decode t = .error e := by
  refine Atom.decode_restricted_of_reject (Bool.eq_false_iff.mpr fun haccepts => ?_)
  rw [hk, Text.trim, String.toList_ofList] at haccepts
  exact absurd (ht 'x' (PatternKind.mem_x_of_hexNumber haccepts)) (by decide)

/-- **Exclusive forms.** A text that is read in the second form of a union is not one of the
first. -/
theorem forms_exclusive {t : String} {w : u.second.Carrier} (h : u.second.decode t = .ok w) :
    ∃ e, u.first.decode t = .error e := by
  obtain ⟨hread, hvalid⟩ := Atom.decode_eq_ok_iff.mp h
  cases u with
  | hexOrUnsigned => exact hex_decode_integer rfl (Number.Bounded.isIntegerChar_of_ofText? hread)
  | pciDomain => exact hex_decode_integer rfl (Number.Bounded.isIntegerChar_of_ofText? hread)
  | pciBus => exact hex_decode_integer rfl (Number.Bounded.isIntegerChar_of_ofText? hread)
  | pciSlot =>
    obtain ⟨n, hn, -⟩ := Option.map_eq_some_iff.mp hread
    exact hex_decode_integer rfl (Number.Bounded.isIntegerChar_of_ofText? hn)
  | pciFunction =>
    obtain ⟨n, hn, -⟩ := Option.map_eq_some_iff.mp hread
    exact hex_decode_integer rfl (Number.Bounded.isIntegerChar_of_ofText? hn)
  | cacheAssociativity =>
    have hchars := Number.Bounded.isIntegerChar_of_ofText? hread
    refine Atom.decode_enum_of_unspelled fun v hv => ?_
    have hletter : (Enumeration.spelling v).toList.all Number.isIntegerChar = false := by
      cases v <;> decide +kernel
    rw [hv, Text.trim, String.toList_ofList] at hletter
    exact absurd (List.all_eq_true.mpr hchars) (Bool.eq_false_iff.mp hletter)
  | filterChain =>
    obtain rfl : Restricted.trimmed t = w := Option.some.inj hread
    refine Atom.decode_enum_of_unspelled fun v hv => ?_
    have hhyphen := PatternKind.mem_hyphen_of_customChain hvalid
    have hword : (Enumeration.spelling v).toList.contains '-' = false := by
      cases v <;> decide +kernel
    rw [hv] at hword
    exact absurd (List.contains_iff_mem.mpr hhyphen) (Bool.eq_false_iff.mp hword)

end UnionKind

/-! ### The law -/

namespace Scalar

/-- Dates included, a value that keeps its constraint is read back from its text. -/
theorem decode_toText_of_ne_double {s : Scalar} (hs : s ≠ .atom .double) {v : s.Carrier}
    (hv : s.isValid v = true) : s.decode (s.toText v) = .ok v := by
  by_cases hoccurs : s.occurs = true
  · exact decode_toText hoccurs hv
  · obtain rfl : s = .atom .dateTime := by
      cases s with
      | atom a => cases a <;> simp_all [occurs, Atom.occurs]
      | union u => exact absurd rfl hoccurs
    have htrim : Text.trimChars (Time.DateTime.toText v).toList = v.toText.toList :=
      Text.trimChars_of_not_blank fun c hc => Time.DateTime.isBlank_of_mem_toText hc
    refine decode_eq_ok_iff.mpr ⟨?_, hv⟩
    show Time.DateTime.ofText? (Text.trimChars (Time.DateTime.toText v).toList) = some v
    rw [htrim, Time.DateTime.ofText?_toText]

/-- **Law of scalars.** -/
theorem decode_law {s : Scalar} (hs : s ≠ .atom .double) :
    (∀ t v, s.decode t = .ok v →
      (∃ text, s.encode v = .ok text ∧ s.decode text = .ok v) ∧
      (s ≠ .string → ∀ before after, Text.isBlankText before = true →
        Text.isBlankText after = true → s.decode (before ++ t ++ after) = .ok v)) ∧
    (s ≠ .atom .dateTime → s ≠ .instant →
      ∀ v, s.isValid v = true → s.decode (s.toText v) = .ok v) ∧
    ∀ u, s = .union u → ∀ t v w, u.first.decode t = .ok v → u.second.decode t ≠ .ok w := by
  refine ⟨fun t v hread => ⟨?_, ?_⟩, ?_, ?_⟩
  · have hvalid := isValid_of_decode hread
    exact ⟨s.toText v, encode_of_decode hread, decode_toText_of_ne_double hs hvalid⟩
  · intro hstring before after hbefore hafter
    obtain ⟨htext, hvalid⟩ := decode_eq_ok_iff.mp hread
    have htrim := Text.trim_surrounded hbefore hafter t
    exact decode_eq_ok_iff.mpr ⟨(ofText?_of_trim_eq hstring htrim).trans htext, hvalid⟩
  · intro _ _ v hvalid
    exact decode_toText_of_ne_double hs hvalid
  · intro u _ t v w hfirst hsecond
    obtain ⟨e, he⟩ := UnionKind.forms_exclusive hsecond
    rw [he] at hfirst
    cases hfirst

/-- A leap second behind the years of four digits, with blanks around it that no keyboard
has. It is written with three places. -/
theorem decode_law_leapSecond :
    let s : Scalar := .atom .dateTime
    let t : String := "+10000-2-29T23:59:60.5"
    ∃ v, s.decode t = .ok v ∧ s.encode v = .ok "+10000-02-29T23:59:60.500" ∧
      s.decode "+10000-02-29T23:59:60.500" = .ok v ∧
      s.decode ("\u3000\n" ++ t ++ "\u0085") = .ok v := by
  intro s t
  let v : s.Carrier := ⟨10000, 2, 29, 23, 59, 60, 500000000, by decide, by decide, by decide,
    by decide, by decide, by decide, by decide⟩
  have hread : s.decode t = .ok v := by decide +kernel
  have hwritten : s.encode v = .ok "+10000-02-29T23:59:60.500" := by decide +kernel
  obtain ⟨⟨text, htext, hback⟩, hblanks⟩ := (decode_law (s := s) (by decide)).1 t v hread
  obtain rfl := Except.ok.inj (htext.symm.trans hwritten)
  exact ⟨v, hread, hwritten, hback, hblanks (by decide) _ _ (by decide) (by decide)⟩

end Scalar

end GuestXml.Schema
