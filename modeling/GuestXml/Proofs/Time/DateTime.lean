import GuestXml.Proofs.Number.Numeral
import GuestXml.Time.DateTime

/-!
# Dates read back

Every date and time is read back from its written form (`DateTime.ofText?_toText`): years
with a sign, the leap second, and fractions of three, six or nine places included. A part of
the written form is a padded number in front of a character that is no digit, so reading the
number stops where the part ends (`DateTime.takeNumber?_of_digits`).
-/

namespace GuestXml.Time.DateTime

open Number (padded)

variable {n : Nat} {rest : List Char}

/-! ### Numbers -/

/-- The digits in front are taken as one number, if there are not too many of them and no
other digit follows. -/
theorem takeNumber?_of_digits {most : Nat} {ds : List Char}
    (hdigits : ∀ c ∈ ds, c.isDigit = true) (hvalue : Number.numeral? 10 ds = some n)
    (hlength : ds.length ≤ most) (hrest : ∀ c ∈ rest.head?, c.isDigit = false) :
    takeNumber? most (ds ++ rest) = some (n, rest) := by
  have hstop : rest.takeWhile Char.isDigit = [] := by
    cases rest with
    | nil => rfl
    | cons c rest => exact List.takeWhile_cons_of_neg (by simp [hrest c rfl])
  have htake : ((ds ++ rest).takeWhile Char.isDigit).take most = ds := by
    rw [List.takeWhile_append_of_pos hdigits, hstop, List.append_nil,
      List.take_of_length_le hlength]
  simp only [takeNumber?, htake, hvalue, Option.map_some, List.drop_left]

theorem takeNumber?_padded {most width : Nat} (hlength : (padded 10 width n).length ≤ most)
    (hrest : ∀ c ∈ rest.head?, c.isDigit = false) :
    takeNumber? most (padded 10 width n ++ rest) = some (n, rest) :=
  takeNumber?_of_digits (fun _ hc => Number.isDigit_of_mem_padded hc)
    (Number.numeral?_padded (by decide) (by decide) width n) hlength hrest

/-- A padded number begins with a digit. -/
theorem padded_eq_cons (width n : Nat) :
    ∃ c ds, padded 10 width n = c :: ds ∧ c.isDigit = true := by
  obtain ⟨c, ds, hpadded⟩ := List.exists_cons_of_ne_nil (Number.padded_ne_nil 10 width n)
  exact ⟨c, ds, hpadded, Number.isDigit_of_mem_padded (hpadded ▸ List.mem_cons_self)⟩

theorem isBlank_of_isDigit {c : Char} (h : c.isDigit = true) : Text.isBlank c = false :=
  Text.isBlank_of_isGraphicChar (Number.isGraphicChar_of_isDigit h)

/-- There is no blank to leave out in front of a padded number. -/
theorem dropWhile_isBlank_padded (width n : Nat) (rest : List Char) :
    (padded 10 width n ++ rest).dropWhile Text.isBlank = padded 10 width n ++ rest := by
  obtain ⟨c, ds, hpadded, hdigit⟩ := padded_eq_cons width n
  rw [hpadded, List.cons_append]
  exact List.dropWhile_cons_of_neg (by simp [isBlank_of_isDigit hdigit])

/-- A part is taken behind the character that separates it from the part before. -/
theorem takePart?_behind {α : Type} {c : Char} (hn : n < 100)
    (hrest : ∀ c ∈ rest.head?, c.isDigit = false) (f : Nat × List Char → Option α) :
    ((skip? c (c :: (padded 10 2 n ++ rest))).bind fun cs => (takePart? cs).bind f) =
      f (n, rest) := by
  have hlength : (padded 10 2 n).length = 2 := Number.length_padded (by decide) (by decide) hn
  have hpart : takePart? (padded 10 2 n ++ rest) = some (n, rest) := by
    rw [takePart?, dropWhile_isBlank_padded]
    exact takeNumber?_padded (Nat.le_of_eq hlength) hrest
  rw [skip?, if_pos rfl, Option.bind_some, hpart, Option.bind_some]

/-! ### Years -/

section Years

variable (hrest : ∀ c ∈ rest.head?, c.isDigit = false)

include hrest

/-- A year behind a sign may have any number of digits. -/
theorem takeNumber?_signed (n : Nat) :
    takeNumber? (padded 10 4 n ++ rest).length (padded 10 4 n ++ rest) = some (n, rest) :=
  takeNumber?_padded (by simp) hrest

theorem takeYear?_minus (n : Nat) :
    takeYear? ('-' :: padded 10 4 n ++ rest) = some (-(n : Int), rest) := by
  rw [List.cons_append, takeYear?,
    List.dropWhile_cons_of_neg (show ¬ Text.isBlank '-' = true by decide)]
  show (takeNumber? _ _).map _ = _
  rw [takeNumber?_signed hrest n]
  rfl

theorem takeYear?_plus (n : Nat) :
    takeYear? ('+' :: padded 10 4 n ++ rest) = some ((n : Int), rest) := by
  rw [List.cons_append, takeYear?,
    List.dropWhile_cons_of_neg (show ¬ Text.isBlank '+' = true by decide)]
  show (takeNumber? _ _).map _ = _
  rw [takeNumber?_signed hrest n]
  rfl

theorem takeYear?_unsigned (hn : n < 10000) :
    takeYear? (padded 10 4 n ++ rest) = some ((n : Int), rest) := by
  have hlength : (padded 10 4 n).length = 4 := Number.length_padded (by decide) (by decide) hn
  have htaken : takeNumber? 4 (padded 10 4 n ++ rest) = some (n, rest) :=
    takeNumber?_padded (Nat.le_of_eq hlength) hrest
  -- The first character is a digit, so it is neither of the two signs.
  obtain ⟨c, ds, hpadded, hdigit⟩ := padded_eq_cons 4 n
  have hnosign : ∀ sign r, sign.isDigit = false → padded 10 4 n ++ rest ≠ sign :: r := by
    intro sign r hsign heq
    rw [hpadded, List.cons_append] at heq
    rw [(List.cons.inj heq).1, hsign] at hdigit
    cases hdigit
  rw [takeYear?, dropWhile_isBlank_padded]
  split
  · rename_i heq
    exact absurd heq (hnosign '-' _ (by decide))
  · rename_i heq
    exact absurd heq (hnosign '+' _ (by decide))
  · rw [htaken]
    rfl

theorem takeYear?_writtenYear (year : Int) :
    takeYear? (writtenYear year ++ rest) = some (year, rest) := by
  unfold writtenYear
  split
  · rename_i hyear
    rw [takeYear?_unsigned hrest (by omega), Int.toNat_of_nonneg hyear.1]
  · split
    · rename_i hneg
      rw [takeYear?_minus hrest, Int.ofNat_natAbs_of_nonpos (Int.le_of_lt hneg), Int.neg_neg]
    · rename_i hnonneg
      rw [takeYear?_plus hrest, Int.natAbs_of_nonneg (Int.not_lt.mp hnonneg)]

end Years

/-! ### Fractions -/

theorem fraction?_padded {places : Nat} (hpos : 0 < places) (hplaces : places ≤ 9)
    (hn : n < 10 ^ places) :
    fraction? ('.' :: padded 10 places n) = some (n * 10 ^ (9 - places)) := by
  have hlength : (padded 10 places n).length = places :=
    Number.length_padded (by decide) hpos hn
  have hdigits : (padded 10 places n).all Char.isDigit = true :=
    List.all_eq_true.mpr fun c hc => Number.isDigit_of_mem_padded hc
  have htake : (padded 10 places n).take 9 = padded 10 places n :=
    List.take_of_length_le (by omega)
  simp only [fraction?, if_pos hdigits, htake, hlength,
    Number.numeral?_padded (by decide : 1 < 10) (by decide)]
  rfl

theorem fraction?_writtenFraction {nanosecond : Nat} (h : nanosecond < 1000000000) :
    fraction? (writtenFraction nanosecond) = some nanosecond := by
  unfold writtenFraction
  split
  · rename_i hzero
    rw [hzero]
    rfl
  · split
    · rw [fraction?_padded (by decide) (by decide) (by omega), Option.some.injEq]
      omega
    · split
      · rw [fraction?_padded (by decide) (by decide) (by omega), Option.some.injEq]
        omega
      · rw [fraction?_padded (by decide) (by decide) (by omega), Option.some.injEq]
        omega

/-- A fraction is behind a point, if there is one at all. -/
theorem isDigit_of_mem_head?_writtenFraction (nanosecond : Nat) :
    ∀ c ∈ (writtenFraction nanosecond).head?, c.isDigit = false := by
  unfold writtenFraction
  repeat' split
  all_goals simp

/-! ### Dates and times -/

theorem of?_self (t : DateTime) :
    of? t.year t.month t.day t.hour t.minute t.second t.nanosecond = some t :=
  dif_pos ⟨t.year_mem, t.month_mem, t.day_mem, t.hour_lt, t.minute_lt, t.second_le,
    t.nanosecond_lt⟩

theorem daysInMonth_le (year : Int) (month : Nat) : daysInMonth year month ≤ 31 := by
  unfold daysInMonth
  repeat' split
  all_goals omega

/-- The written form is read as the same date and time. -/
theorem ofText?_toText (t : DateTime) : ofText? t.toText.toList = some t := by
  have hday := Nat.le_trans t.day_mem.2 (daysInMonth_le t.year t.month)
  have hmonth := t.month_mem.2
  have hhour := t.hour_lt
  have hminute := t.minute_lt
  have hsecond := t.second_le
  have hfraction := isDigit_of_mem_head?_writtenFraction t.nanosecond
  simp only [toText, String.toList_ofList, List.append_assoc, List.cons_append]
  rw [ofText?, takeYear?_writtenYear (by simp) t.year]
  simp only [Option.bind_eq_bind, Option.bind_some]
  rw [takePart?_behind (by omega) (by simp), takePart?_behind (by omega) (by simp),
    takePart?_behind (by omega) (by simp), takePart?_behind (by omega) (by simp),
    takePart?_behind (by omega) hfraction]
  rw [fraction?_writtenFraction t.nanosecond_lt, Option.bind_some, of?_self]

/-- The leap second that ends the calendar, with a fraction of six places. -/
example : (of? 262142 12 31 23 59 60 120000).map toText =
    some "+262142-12-31T23:59:60.000120" := by decide +kernel

/-! ### Blanks -/

theorem isBlank_of_mem_padded {width : Nat} {c : Char} (h : c ∈ padded 10 width n) :
    Text.isBlank c = false :=
  isBlank_of_isDigit (Number.isDigit_of_mem_padded h)

theorem isBlank_of_mem_writtenYear {year : Int} {c : Char} (h : c ∈ writtenYear year) :
    Text.isBlank c = false := by
  unfold writtenYear at h
  split at h
  · exact isBlank_of_mem_padded h
  · rcases List.mem_cons.mp h with rfl | h
    · split <;> decide
    · exact isBlank_of_mem_padded h

theorem isBlank_of_mem_writtenFraction {nanosecond : Nat} {c : Char}
    (h : c ∈ writtenFraction nanosecond) : Text.isBlank c = false := by
  have hplaces : ∀ places m, c ∈ '.' :: padded 10 places m → Text.isBlank c = false := by
    intro places m hmem
    rcases List.mem_cons.mp hmem with rfl | hmem
    · decide
    · exact isBlank_of_mem_padded hmem
  unfold writtenFraction at h
  split at h
  · cases h
  · split at h
    · exact hplaces _ _ h
    · split at h <;> exact hplaces _ _ h

/-- The written form has no blanks. -/
theorem isBlank_of_mem_toText {t : DateTime} {c : Char} (h : c ∈ t.toText.toList) :
    Text.isBlank c = false := by
  simp only [toText, String.toList_ofList, List.append_assoc, List.cons_append,
    List.mem_append, List.mem_cons] at h
  rcases h with h | rfl | h | rfl | h | rfl | h | rfl | h | rfl | h | h
  · exact isBlank_of_mem_writtenYear h
  all_goals first
    | decide
    | exact isBlank_of_mem_padded h
    | exact isBlank_of_mem_writtenFraction h

end GuestXml.Time.DateTime
