import GuestXml.Proofs.Scalar.Hexadecimal

/-!
# Identifiers and their texts

The pattern of identifiers lets exactly two forms pass, the plain and the hyphenated one
(`PatternKind.matches_uuid_iff`). A text of either form has an identifier, and only its digits
count for it: hyphens and capitals are lost (`Uuid.ofText?_of_isForm`). The canonical text is
hyphenated and in lower case and has the digits of the identifier (`Uuid.bareDigits_toText`).

So each text that is accepted has an identifier, which has one canonical text that leads back
to it, and texts have the same identifier exactly if they have the same digits
(`UuidText.accepted_has_uuid`). This is so for every reader of identifiers that takes the two
forms, whatever else it takes (`Uuid.TakesBothForms`).
-/

namespace GuestXml

open Number (IsDigit weight)
open Text (Pattern)

namespace Uuid

/-! ### Forms of a text -/

/-- The digits of a text: what is left without hyphens, in lower case. -/
def bareDigits (cs : List Char) : List Char :=
  (cs.filter (· ≠ '-')).map Char.toLower

/-- Thirty-two digits and nothing else. -/
def IsPlain (cs : List Char) : Prop :=
  cs.length = 32 ∧ ∀ c ∈ cs, IsDigit 16 c

/-- Digits in groups of 8, 4, 4, 4 and 12 with hyphens between them. -/
def IsHyphenated (cs : List Char) : Prop :=
  ∃ groups : List (List Char), groups.map List.length = [8, 4, 4, 4, 12] ∧
    (∀ g ∈ groups, ∀ c ∈ g, IsDigit 16 c) ∧ cs = ['-'].intercalate groups

/-- Either of the two forms that are accepted. -/
def IsForm (cs : List Char) : Prop :=
  IsPlain cs ∨ IsHyphenated cs

/-- A text is canonical if it is hyphenated and has no capitals. -/
def IsCanonical (cs : List Char) : Prop :=
  IsHyphenated cs ∧ ∀ c ∈ cs, c.isUpper = false

/-- A reader of identifiers that takes at least the plain and the hyphenated form. -/
def TakesBothForms (parse : List Char → Option Uuid) : Prop :=
  ∀ cs u, IsForm cs → bareDigits cs = u.digits.map digitChar → parse cs = some u

theorem isHyphenated_iff {cs : List Char} :
    IsHyphenated cs ↔ ∃ as bs ds es fs : List Char,
      cs = as ++ '-' :: (bs ++ '-' :: (ds ++ '-' :: (es ++ '-' :: fs))) ∧
      (as.length = 8 ∧ bs.length = 4 ∧ ds.length = 4 ∧ es.length = 4 ∧ fs.length = 12) ∧
      ∀ c ∈ as ++ bs ++ ds ++ es ++ fs, IsDigit 16 c := by
  constructor
  · rintro ⟨groups, hlengths, hdigits, rfl⟩
    simp only [List.map_eq_cons_iff, List.map_eq_nil_iff] at hlengths
    obtain ⟨as, _, rfl, ha, bs, _, rfl, hb, ds, _, rfl, hd, es, _, rfl, he, fs, _, rfl, hf, rfl⟩ :=
      hlengths
    refine ⟨as, bs, ds, es, fs, by simp [List.intercalate], ⟨ha, hb, hd, he, hf⟩, ?_⟩
    simpa [or_imp, forall_and] using hdigits
  · rintro ⟨as, bs, ds, es, fs, rfl, hlengths, hdigits⟩
    refine ⟨[as, bs, ds, es, fs], by simpa using hlengths, ?_, by simp [List.intercalate]⟩
    simpa [or_imp, forall_and] using hdigits

end Uuid

/-! ### What the pattern lets pass -/

namespace PatternKind

theorem matches_uuidDigit_iff {c : Char} : uuidDigit.Matches [c] ↔ IsDigit 16 c := by
  rw [Number.isDigit_sixteen_iff]
  simp only [uuidDigit, Pattern.Matches, List.cons.injEq, and_true, exists_eq_left',
    List.mem_cons, List.not_mem_nil, or_false, exists_eq_or_imp, exists_eq_left]
  rw [or_comm, or_assoc, or_comm, or_assoc]

theorem matches_exactly_iff {n : Nat} {ds : List Char} :
    (Pattern.exactly n uuidDigit).Matches ds ↔ ds.length = n ∧ ∀ c ∈ ds, IsDigit 16 c := by
  simp only [← matches_uuidDigit_iff]
  refine Pattern.matches_times_oneOf_iff.trans ?_
  simp only [Option.mem_some_iff, forall_eq', Nat.add_zero]
  constructor
  · rintro ⟨hclass, hlo, hhi⟩
    exact ⟨Nat.le_antisymm hhi hlo, hclass⟩
  · rintro ⟨hlength, hclass⟩
    exact ⟨hclass, hlength.ge, hlength.le⟩

theorem matches_uuid_iff {cs : List Char} : uuid.pattern.Matches cs ↔ Uuid.IsForm cs := by
  have hgroups : (Pattern.all [.exactly 8 uuidDigit, .char '-', .exactly 4 uuidDigit, .char '-',
        .exactly 4 uuidDigit, .char '-', .exactly 4 uuidDigit, .char '-',
        .exactly 12 uuidDigit]).Matches cs ↔ Uuid.IsHyphenated cs := by
    rw [Uuid.isHyphenated_iff]
    simp only [Pattern.all, Pattern.Matches, Pattern.matches_char_iff, matches_exactly_iff]
    constructor
    · rintro ⟨as, _, rfl, ha, _, _, rfl, rfl, bs, _, rfl, hb, _, _, rfl, rfl, ds, _, rfl, hd,
        _, _, rfl, rfl, es, _, rfl, he, _, fs, rfl, rfl, hf⟩
      refine ⟨as, bs, ds, es, fs, rfl, ⟨ha.1, hb.1, hd.1, he.1, hf.1⟩, ?_⟩
      simp only [List.forall_mem_append]
      exact ⟨⟨⟨⟨ha.2, hb.2⟩, hd.2⟩, he.2⟩, hf.2⟩
    · rintro ⟨as, bs, ds, es, fs, rfl, ⟨ha, hb, hd, he, hf⟩, hdigits⟩
      simp only [List.forall_mem_append] at hdigits
      obtain ⟨⟨⟨⟨ha', hb'⟩, hd'⟩, he'⟩, hf'⟩ := hdigits
      exact ⟨as, _, rfl, ⟨ha, ha'⟩, ['-'], _, rfl, rfl, bs, _, rfl, ⟨hb, hb'⟩, ['-'], _, rfl, rfl,
        ds, _, rfl, ⟨hd, hd'⟩, ['-'], _, rfl, rfl, es, _, rfl, ⟨he, he'⟩, ['-'], fs, rfl, rfl,
        ⟨hf, hf'⟩⟩
  show _ ∨ _ ↔ _ ∨ _
  exact or_congr matches_exactly_iff hgroups

end PatternKind

/-! ### Digits -/

namespace Uuid

/-- In lower case a digit is the character of what it counts. -/
theorem toLower_of_isDigit {c : Char} (h : IsDigit 16 c) :
    c.toLower = Nat.digitChar (weight c) := by
  have hall : ∀ n < 128, IsDigit 16 (Char.ofNat n) →
      (Char.ofNat n).toLower = Nat.digitChar (weight (Char.ofNat n)) := by decide
  have hrange := (Number.isDigit_iff.mp h).1
  have hc := hall c.toNat (by omega)
  rw [Char.ofNat_toNat] at hc
  exact hc h

theorem digit?_eq_some_iff {c : Char} {d : Fin 16} :
    digit? c = some d ↔ IsDigit 16 c ∧ weight c = d := by
  simp only [digit?, Option.bind_eq_some_iff, Number.digitValue?_eq_some_iff (Nat.le_refl 16)]
  constructor
  · rintro ⟨n, ⟨hc, rfl⟩, hd⟩
    rw [dif_pos hc.2] at hd
    exact ⟨hc, congrArg Fin.val (Option.some.inj hd)⟩
  · rintro ⟨hc, hd⟩
    refine ⟨weight c, ⟨hc, rfl⟩, ?_⟩
    rw [dif_pos hc.2]
    exact congrArg some (Fin.ext hd)

theorem digitChar_injective : Function.Injective digitChar := by
  unfold Function.Injective
  decide

theorem isDigit_digitChar (d : Fin 16) : IsDigit 16 (digitChar d) ∧ (digitChar d).isUpper = false ∧
    (digitChar d).toLower = digitChar d := by
  revert d
  decide

/-- Digits without anything between them are read one by one. -/
theorem exists_mapM_digit? {cs : List Char} (h : ∀ c ∈ cs, IsDigit 16 c) :
    ∃ ds, cs.mapM digit? = some ds ∧ ds.length = cs.length ∧
      cs.map Char.toLower = ds.map digitChar := by
  induction cs with
  | nil => exact ⟨[], rfl, rfl, rfl⟩
  | cons c cs ih =>
    obtain ⟨hc, hcs⟩ := List.forall_mem_cons.mp h
    obtain ⟨ds, hds, hlength, hlower⟩ := ih hcs
    have hd : digit? c = some ⟨weight c, hc.2⟩ := digit?_eq_some_iff.mpr ⟨hc, rfl⟩
    refine ⟨⟨weight c, hc.2⟩ :: ds, by simp [List.mapM_cons, hd, hds], by simp [hlength], ?_⟩
    rw [List.map_cons, List.map_cons, hlower, toLower_of_isDigit hc]
    rfl

theorem exists_ofPlain? {cs : List Char} (hlength : cs.length = 32)
    (h : ∀ c ∈ cs, IsDigit 16 c) :
    ∃ u, ofPlain? cs = some u ∧ cs.map Char.toLower = u.digits.map digitChar := by
  obtain ⟨ds, hds, hcount, hlower⟩ := exists_mapM_digit? h
  have hu : ds.length = 32 := hcount.trans hlength
  refine ⟨⟨ds, hu⟩, ?_, hlower⟩
  rw [ofPlain?, hds, Option.bind_some, dif_pos hu]

/-! ### Reading either form -/

theorem bareDigits_append (cs ds : List Char) :
    bareDigits (cs ++ ds) = bareDigits cs ++ bareDigits ds := by
  simp [bareDigits]

theorem bareDigits_hyphen (cs : List Char) : bareDigits ('-' :: cs) = bareDigits cs := by
  simp [bareDigits]

/-- Only the hyphens between its groups are lost of a hyphenated text. -/
theorem bareDigits_hyphenated (as bs ds es fs : List Char) :
    bareDigits (as ++ '-' :: (bs ++ '-' :: (ds ++ '-' :: (es ++ '-' :: fs)))) =
      bareDigits (as ++ bs ++ ds ++ es ++ fs) := by
  simp only [bareDigits_append, bareDigits_hyphen, List.append_assoc]

theorem bareDigits_of_digits {cs : List Char} (h : ∀ c ∈ cs, IsDigit 16 c) :
    bareDigits cs = cs.map Char.toLower := by
  have hkeep : cs.filter (· ≠ '-') = cs := by
    refine List.filter_eq_self.mpr fun c hc => ?_
    have hne : c ≠ '-' := by
      rintro rfl
      exact absurd (h '-' hc).1 (by decide)
    simpa using hne
  rw [bareDigits, hkeep]

/-- The hyphenated form is read by its groups. -/
theorem ofText?_hyphenated {as bs ds es fs : List Char} (ha : as.length = 8) (hb : bs.length = 4)
    (hd : ds.length = 4) (he : es.length = 4) (hf : fs.length = 12) :
    ofText? (as ++ '-' :: (bs ++ '-' :: (ds ++ '-' :: (es ++ '-' :: fs)))) =
      ofPlain? (as ++ bs ++ ds ++ es ++ fs) := by
  generalize hcs : as ++ '-' :: (bs ++ '-' :: (ds ++ '-' :: (es ++ '-' :: fs))) = cs
  have hlength : cs.length = 36 := by simp [← hcs, ha, hb, hd, he, hf]
  have hmarks : cs[8]? = some '-' ∧ cs[13]? = some '-' ∧ cs[18]? = some '-' ∧
      cs[23]? = some '-' := by
    simp [← hcs, List.getElem?_append, ha, hb, hd, he]
  have hgroups : cs.take 8 ++ (cs.drop 9).take 4 ++ (cs.drop 14).take 4 ++ (cs.drop 19).take 4 ++
      cs.drop 24 = as ++ bs ++ ds ++ es ++ fs := by
    simp (disch := omega) [← hcs, List.drop_append, List.drop_eq_nil_of_le, ha, hb, hd, he]
  have hnot : ¬ cs.length = 32 := by omega
  rw [ofText?, if_neg hnot, if_pos hlength, ofHyphenated?, if_pos ⟨hlength, hmarks⟩, hgroups]

/-- A text of either form has an identifier, whose digits are those of the text. -/
theorem ofText?_of_isForm {cs : List Char} (h : IsForm cs) :
    ∃ u, ofText? cs = some u ∧ bareDigits cs = u.digits.map digitChar := by
  rcases h with ⟨hlength, hdigits⟩ | h
  · obtain ⟨u, hu, hlower⟩ := exists_ofPlain? hlength hdigits
    refine ⟨u, ?_, (bareDigits_of_digits hdigits).trans hlower⟩
    rw [ofText?, if_pos hlength, hu]
  · obtain ⟨as, bs, ds, es, fs, rfl, ⟨ha, hb, hd, he, hf⟩, hdigits⟩ := isHyphenated_iff.mp h
    obtain ⟨u, hu, hlower⟩ := exists_ofPlain? (by simp [ha, hb, hd, he, hf]) hdigits
    refine ⟨u, (ofText?_hyphenated ha hb hd he hf).trans hu, ?_⟩
    rw [bareDigits_hyphenated, bareDigits_of_digits hdigits, hlower]

/-- An identifier is known by the characters of its digits. -/
theorem eq_of_digits {u v : Uuid} (h : u.digits.map digitChar = v.digits.map digitChar) :
    u = v := by
  obtain ⟨ds, hu⟩ := u
  obtain ⟨es, hv⟩ := v
  obtain rfl : ds = es := List.map_injective_iff.mpr digitChar_injective h
  rfl

theorem takesBothForms_ofText? : TakesBothForms ofText? := by
  intro cs u hform hdigits
  obtain ⟨v, hv, hvdigits⟩ := ofText?_of_isForm hform
  rw [hv, eq_of_digits (hvdigits.symm.trans hdigits)]

/-! ### The canonical text -/

/-- The canonical text has the digits in their groups. -/
theorem toList_toText (u : Uuid) : ∃ as bs ds es fs : List Char,
    u.toText.toList = as ++ '-' :: (bs ++ '-' :: (ds ++ '-' :: (es ++ '-' :: fs))) ∧
      (as.length = 8 ∧ bs.length = 4 ∧ ds.length = 4 ∧ es.length = 4 ∧ fs.length = 12) ∧
      as ++ bs ++ ds ++ es ++ fs = u.digits.map digitChar := by
  have hlength : (u.digits.map digitChar).length = 32 := by simp [u.length_eq]
  have hparts : ∀ cs : List Char, cs.take 8 ++ (cs.drop 8).take 4 ++ (cs.drop 12).take 4 ++
      (cs.drop 16).take 4 ++ cs.drop 20 = cs := by
    intro cs
    rw [← List.take_add, ← List.take_add, ← List.take_add, List.take_append_drop]
  refine ⟨_, _, _, _, _, ?_, ?_, hparts (u.digits.map digitChar)⟩
  · simp [toText]
  · simp [hlength]

theorem isDigit_of_mem_digits {u : Uuid} {c : Char} (h : c ∈ u.digits.map digitChar) :
    IsDigit 16 c ∧ c.isUpper = false ∧ c.toLower = c := by
  obtain ⟨d, -, rfl⟩ := List.mem_map.mp h
  exact isDigit_digitChar d

theorem isCanonical_toText (u : Uuid) : IsCanonical u.toText.toList := by
  obtain ⟨as, bs, ds, es, fs, htext, hlengths, hparts⟩ := toList_toText u
  constructor
  · refine isHyphenated_iff.mpr ⟨as, bs, ds, es, fs, htext, hlengths, fun c hc => ?_⟩
    exact (isDigit_of_mem_digits (hparts ▸ hc)).1
  · intro c hc
    have hmem : c = '-' ∨ c ∈ as ++ bs ++ ds ++ es ++ fs := by
      rw [htext] at hc
      simp only [List.mem_append, List.mem_cons] at hc ⊢
      rcases hc with h | h | h | h | h | h | h | h | h <;> simp [h]
    rcases hmem with rfl | hmem
    · rfl
    · exact (isDigit_of_mem_digits (hparts ▸ hmem)).2.1

theorem bareDigits_toText (u : Uuid) : bareDigits u.toText.toList = u.digits.map digitChar := by
  obtain ⟨as, bs, ds, es, fs, htext, -, hparts⟩ := toList_toText u
  rw [htext, bareDigits_hyphenated, hparts,
    bareDigits_of_digits fun c hc => (isDigit_of_mem_digits hc).1]
  exact (List.map_congr_left fun c hc => (isDigit_of_mem_digits hc).2.2).trans (List.map_id _)

end Uuid

/-! ### Accepted texts -/

open Schema (Scalar)

namespace UuidText

theorem isValid_iff {p : UuidText} : p.isValid = true ↔ Uuid.IsForm p.text.toList := by
  rw [Restricted.isValid, Pattern.accepts_iff_matches, PatternKind.matches_uuid_iff]

/-- An accepted text is one of the two forms with blanks around it. -/
theorem isForm_of_decode {t : String} {p : UuidText}
    (h : (Scalar.restricted .uuid).decode t = .ok p) :
    p.text.toList = Text.trimChars t.toList ∧ Uuid.IsForm p.text.toList := by
  obtain ⟨hread, hvalid⟩ := Scalar.decode_eq_ok_iff.mp h
  obtain rfl : Restricted.trimmed t = p := Option.some.inj hread
  exact ⟨String.toList_ofList, isValid_iff.mp hvalid⟩

/-- What a reader that takes the two forms makes of an accepted text. -/
theorem exists_parse_of_decode {parse : List Char → Option Uuid}
    (hparse : Uuid.TakesBothForms parse) {t : String} {p : UuidText}
    (h : (Scalar.restricted .uuid).decode t = .ok p) :
    ∃ u : Uuid, parse p.text.toList = some u ∧
      Uuid.bareDigits p.text.toList = u.digits.map Uuid.digitChar := by
  obtain ⟨-, hform⟩ := isForm_of_decode h
  obtain ⟨u, -, hdigits⟩ := Uuid.ofText?_of_isForm hform
  exact ⟨u, hparse _ u hform hdigits, hdigits⟩

theorem parse_ofUuid {parse : List Char → Option Uuid} (hparse : Uuid.TakesBothForms parse)
    (u : Uuid) : parse (ofUuid u).text.toList = some u :=
  hparse _ u (.inr (Uuid.isCanonical_toText u).1) (Uuid.bareDigits_toText u)

/-- **Accepted texts have identifiers.** Let a reader of identifiers take at least the two
forms. Then an accepted text has an identifier, whose canonical text is accepted, has the
same digits and leads back to it. Accepted texts have the same identifier exactly if they
have the same digits. -/
theorem accepted_has_uuid {parse : List Char → Option Uuid} (hparse : Uuid.TakesBothForms parse)
    {t : String} {p : UuidText} (h : (Scalar.restricted .uuid).decode t = .ok p) :
    (∃ u, parse p.text.toList = some u ∧ p.toUuid? = some u ∧ (ofUuid u).isValid = true ∧
      Uuid.IsCanonical (ofUuid u).text.toList ∧
      Uuid.bareDigits (ofUuid u).text.toList = Uuid.bareDigits p.text.toList ∧
      parse (ofUuid u).text.toList = some u ∧ (ofUuid u).toUuid? = some u) ∧
    ∀ (t' : String) (q : UuidText), (Scalar.restricted .uuid).decode t' = .ok q →
      (parse p.text.toList = parse q.text.toList ↔
        Uuid.bareDigits (Text.trimChars t.toList) =
          Uuid.bareDigits (Text.trimChars t'.toList)) := by
  obtain ⟨htext, hform⟩ := isForm_of_decode h
  obtain ⟨u, hu, hdigits⟩ := exists_parse_of_decode hparse h
  have hown : p.toUuid? = some u := Uuid.takesBothForms_ofText? _ u hform hdigits
  constructor
  · refine ⟨u, hu, hown, ?_, Uuid.isCanonical_toText u, ?_, parse_ofUuid hparse u,
      parse_ofUuid Uuid.takesBothForms_ofText? u⟩
    · exact isValid_iff.mpr (.inr (Uuid.isCanonical_toText u).1)
    · exact (Uuid.bareDigits_toText u).trans hdigits.symm
  · intro t' q h'
    obtain ⟨htext', -⟩ := isForm_of_decode h'
    obtain ⟨v, hv, hvdigits⟩ := exists_parse_of_decode hparse h'
    rw [hu, hv, ← htext, ← htext', hdigits, hvdigits, Option.some.injEq]
    constructor
    · exact fun huv => huv ▸ rfl
    · exact Uuid.eq_of_digits

/-- Capitals and hyphens against small letters and blanks. -/
theorem accepted_has_uuid_capitals :
    let p : UuidText := ⟨"C7A5FDBD-EDAF-9455-926A-D65C16DB1809"⟩
    let q : UuidText := ⟨"c7a5fdbdedaf9455926ad65c16db1809"⟩
    Uuid.TakesBothForms Uuid.ofText? ∧
    ((Scalar.restricted .uuid).decode p.text = .ok p ∧
      (Scalar.restricted .uuid).decode (" " ++ q.text ++ "\n") = .ok q) ∧
    p.toUuid? = q.toUuid? ∧ ∃ u, p.toUuid? = some u ∧ (ofUuid u).toUuid? = some u := by
  intro p q
  have hp : (Scalar.restricted .uuid).decode p.text = .ok p := by decide +kernel
  have hq : (Scalar.restricted .uuid).decode (" " ++ q.text ++ "\n") = .ok q := by decide +kernel
  obtain ⟨⟨u, -, hu, -, -, -, -, hback⟩, hsame⟩ := accepted_has_uuid Uuid.takesBothForms_ofText? hp
  exact ⟨Uuid.takesBothForms_ofText?, ⟨hp, hq⟩, (hsame _ q hq).mpr (by decide +kernel),
    u, hu, hback⟩

end UuidText

end GuestXml
