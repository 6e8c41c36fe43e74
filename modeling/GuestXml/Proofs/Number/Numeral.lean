import GuestXml.Number.Bounded
import GuestXml.Proofs.Text.Pattern
import Mathlib.Algebra.Group.Nat.Defs

/-!
# Numerals read back

The digits that a number is written with denote that number, in every base up to sixteen
(`numeral?_toDigits`). So a bounded number is read back from its decimal form
(`Bounded.ofText?_toText`), which has nothing to trim.
-/

namespace GuestXml.Number

/-! ### Digits -/

theorem digitValue?_digitChar {base n : Nat} (hbase : base ≤ 16) (hn : n < base) :
    digitValue? base n.digitChar = some n := by
  have hall : ∀ b < 17, ∀ m < b, digitValue? b (Nat.digitChar m) = some m := by decide
  exact hall base (by omega) n hn

theorem digitsValue?_append_singleton (base : Nat) (cs : List Char) (c : Char) :
    digitsValue? base (cs ++ [c]) =
      (digitsValue? base cs).bind fun n => (digitValue? base c).map (n * base + ·) := by
  simp [digitsValue?, List.foldlM_append]

theorem digitsValue?_toDigits {base : Nat} (hlo : 1 < base) (hhi : base ≤ 16) (n : Nat) :
    digitsValue? base (Nat.toDigits base n) = some n := by
  induction n using Nat.strongRecOn with
  | ind n ih =>
    by_cases hn : n < base
    · rw [Nat.toDigits_of_lt_base hn, ← List.nil_append [_], digitsValue?_append_singleton]
      simp [digitsValue?, digitValue?_digitChar hhi hn]
    · have hle : base ≤ n := Nat.le_of_not_lt hn
      have hlt : n / base < n := Nat.div_lt_self (by omega) hlo
      rw [Nat.toDigits_of_base_le hlo hle, digitsValue?_append_singleton, ih _ hlt,
        digitValue?_digitChar hhi (Nat.mod_lt n (by omega))]
      simp only [Option.bind_some, Option.map_some, Option.some.injEq]
      exact Nat.div_add_mod' n base

theorem numeral?_toDigits {base : Nat} (hlo : 1 < base) (hhi : base ≤ 16) (n : Nat) :
    numeral? base (Nat.toDigits base n) = some n := by
  rw [numeral?, if_neg (by simp), digitsValue?_toDigits hlo hhi]

theorem isDigit_of_mem_decimal {n : Nat} {c : Char} (h : c ∈ Nat.toDigits 10 n) :
    c.isDigit = true :=
  Nat.isDigit_of_mem_toDigits (by decide) (by decide) h

theorem isGraphicChar_of_isDigit {c : Char} (h : c.isDigit = true) :
    Text.Pattern.isGraphicChar c = true := by
  simp only [Char.isDigit, Bool.and_eq_true, decide_eq_true_eq] at h
  simp only [Text.Pattern.isGraphicChar, Bool.and_eq_true, decide_eq_true_eq, Char.le_def,
    UInt32.le_iff_toNat_le] at h ⊢
  have hlo : 48 ≤ c.val.toNat := h.1
  have hhi : c.val.toNat ≤ 57 := h.2
  exact ⟨Nat.le_trans (by decide) hlo, Nat.le_trans hhi (by decide)⟩

theorem trim_of_digits {s : String} (h : ∀ c ∈ s.toList, c.isDigit = true) : Text.trim s = s :=
  Text.trim_of_not_blank fun c hc =>
    Text.isBlank_of_isGraphicChar (isGraphicChar_of_isDigit (h c hc))

/-! ### Padded numerals -/

/-- Zeros in front do not count. -/
theorem digitsValue?_zeros_append {base : Nat} (hbase : 0 < base) (k : Nat) (ds : List Char) :
    digitsValue? base (List.replicate k '0' ++ ds) = digitsValue? base ds := by
  have hzero : digitValue? base '0' = some 0 := if_pos hbase
  induction k with
  | zero => rfl
  | succ k ih =>
    rw [List.replicate_succ, List.cons_append, ← ih]
    simp only [digitsValue?, List.foldlM_cons, hzero, Option.map_some, Nat.zero_mul]
    rfl

theorem padded_ne_nil (base width n : Nat) : padded base width n ≠ [] := by
  simp [padded, Nat.toDigits_ne_nil]

theorem numeral?_padded {base : Nat} (hlo : 1 < base) (hhi : base ≤ 16) (width n : Nat) :
    numeral? base (padded base width n) = some n := by
  rw [numeral?, if_neg (by simpa using padded_ne_nil base width n), padded,
    digitsValue?_zeros_append (by omega), digitsValue?_toDigits hlo hhi]

theorem length_padded {base width n : Nat} (hbase : 1 < base) (hwidth : 0 < width)
    (hn : n < base ^ width) : (padded base width n).length = width := by
  have hle := (Nat.length_toDigits_le_iff hbase hwidth).mpr hn
  rw [padded, List.length_append, List.length_replicate]
  omega

theorem isDigit_of_mem_padded {width n : Nat} {c : Char} (h : c ∈ padded 10 width n) :
    c.isDigit = true := by
  rcases List.mem_append.mp h with h | h
  · rw [List.eq_of_mem_replicate h]
    decide
  · exact isDigit_of_mem_decimal h

/-! ### Decimal forms -/

/-- The sign and the digits of a whole number. -/
theorem toList_toString_int (n : Int) :
    (toString n).toList =
      if n < 0 then '-' :: Nat.toDigits 10 n.natAbs else Nat.toDigits 10 n.natAbs := by
  cases n with
  | ofNat n =>
    rw [if_neg (by simp)]
    exact Nat.toList_repr
  | negSucc n =>
    rw [if_pos (Int.negSucc_lt_zero n)]
    show ("-" ++ Nat.repr (n + 1)).toList = _
    rw [String.toList_append, Nat.toList_repr]
    rfl

theorem isGraphicChar_of_mem_toString_int {n : Int} :
    ∀ c ∈ (toString n).toList, Text.Pattern.isGraphicChar c = true := by
  intro c hc
  have hdigit : c ∈ Nat.toDigits 10 n.natAbs → Text.Pattern.isGraphicChar c = true :=
    fun h => isGraphicChar_of_isDigit (isDigit_of_mem_decimal h)
  rw [toList_toString_int] at hc
  split at hc
  · rcases List.mem_cons.mp hc with rfl | hc
    · decide
    · exact hdigit hc
  · exact hdigit hc

/-- A text of digits begins with neither of the two signs. -/
theorem integer?_of_digits {signed : Bool} {cs : List Char} (h : ∀ c ∈ cs, c.isDigit = true) :
    integer? signed cs = (numeral? 10 cs).map Int.ofNat := by
  unfold integer?
  split
  · exact absurd (h '+' (by simp)) (by decide)
  · exact absurd (h '-' (by simp)) (by decide)
  · rfl

theorem integer?_toString {signed : Bool} {n : Int} (h : n < 0 → signed = true) :
    integer? signed (toString n).toList = some n := by
  rw [toList_toString_int]
  split
  · rename_i hneg
    simp only [integer?, h hneg, if_true, numeral?_toDigits (by decide : 1 < 10) (by decide)]
    show some (-(n.natAbs : Int)) = some n
    rw [Int.ofNat_natAbs_of_nonpos (Int.le_of_lt hneg), Int.neg_neg]
  · rename_i hnonneg
    have hvalue := numeral?_toDigits (by decide : 1 < 10) (by decide) n.natAbs
    rw [integer?_of_digits fun c hc => isDigit_of_mem_decimal hc, hvalue]
    show some (n.natAbs : Int) = some n
    rw [Int.natAbs_of_nonneg (by omega)]

/-! ### Characters of numbers -/

/-- A character that a whole number may be written with. -/
def isIntegerChar (c : Char) : Bool :=
  c.isDigit || c == '+' || c == '-'

theorem isDigit_of_digitValue? {c : Char} {n : Nat} (h : digitValue? 10 c = some n) :
    c.isDigit = true := by
  by_cases hdigit : '0' ≤ c ∧ c ≤ '9'
  · exact Bool.and_eq_true_iff.mpr ⟨decide_eq_true hdigit.1, decide_eq_true hdigit.2⟩
  · -- Letters stand for ten and more.
    simp only [digitValue?, if_neg hdigit, Option.ite_none_right_eq_some] at h
    have hten := h.1
    repeat' split at hten
    all_goals omega

theorem isDigit_of_numeral? {cs : List Char} {n : Nat} (h : numeral? 10 cs = some n) :
    ∀ c ∈ cs, c.isDigit = true := by
  have hfold : ∀ (ds : List Char) (m : Nat),
      ds.foldlM (fun k c => (digitValue? 10 c).map (k * 10 + ·)) m = some n →
        ∀ c ∈ ds, c.isDigit = true := by
    intro ds
    induction ds with
    | nil => simp
    | cons d ds ih =>
      intro m hds
      rw [List.foldlM_cons] at hds
      obtain ⟨k, hfirst, hrest⟩ := Option.bind_eq_some_iff.mp hds
      obtain ⟨value, hvalue, -⟩ := Option.map_eq_some_iff.mp hfirst
      exact List.forall_mem_cons.mpr ⟨isDigit_of_digitValue? hvalue, ih k hrest⟩
  unfold numeral? at h
  split at h
  · cases h
  · exact hfold cs 0 h

/-- A whole number is written with digits and a sign only. -/
theorem isIntegerChar_of_integer? {signed : Bool} {cs : List Char} {n : Int}
    (h : integer? signed cs = some n) : ∀ c ∈ cs, isIntegerChar c = true := by
  have hdigits : ∀ {ds : List Char}, numeral? 10 ds ≠ none → ∀ c ∈ ds, isIntegerChar c = true := by
    intro ds hsome c hc
    obtain ⟨k, hk⟩ := Option.ne_none_iff_exists'.mp hsome
    simp [isIntegerChar, isDigit_of_numeral? hk c hc]
  unfold integer? at h
  split at h
  · exact List.forall_mem_cons.mpr ⟨by decide, hdigits fun hnone => by simp [hnone] at h⟩
  · split at h
    · exact List.forall_mem_cons.mpr ⟨by decide, hdigits fun hnone => by simp [hnone] at h⟩
    · cases h
  · exact hdigits fun hnone => by simp [hnone] at h

namespace Bounded

variable {lo hi : Int}

theorem isIntegerChar_of_ofText? {cs : List Char} {n : Bounded lo hi}
    (h : ofText? lo hi cs = some n) : ∀ c ∈ cs, isIntegerChar c = true := by
  obtain ⟨_, hinteger, -⟩ := Option.bind_eq_some_iff.mp h
  exact isIntegerChar_of_integer? hinteger

theorem ofText?_toText (n : Bounded lo hi) :
    ofText? lo hi (Text.trimChars n.toText.toList) = some n := by
  have htrim : Text.trimChars n.toText.toList = n.toText.toList :=
    Text.trimChars_of_not_blank fun c hc =>
      Text.isBlank_of_isGraphicChar (isGraphicChar_of_mem_toString_int c hc)
  rw [htrim, ofText?, toText, integer?_toString]
  · exact ofInt?_val n
  · intro hneg
    exact decide_eq_true (Int.lt_of_le_of_lt n.lo_le hneg)

/-- A number that is not negative is written with digits only. -/
theorem isDigit_of_mem_toText {n : Bounded lo hi} (h : 0 ≤ lo) :
    ∀ c ∈ n.toText.toList, c.isDigit = true := by
  intro c hc
  have hn := n.lo_le
  rw [toText, toList_toString_int, if_neg (by omega)] at hc
  exact isDigit_of_mem_decimal hc

end Bounded

end GuestXml.Number
