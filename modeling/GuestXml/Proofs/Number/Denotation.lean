import GuestXml.Proofs.Number.Numeral
import Mathlib.Data.List.Induction
import Mathlib.Data.Nat.Digits.Defs

/-!
# What numerals denote

`Denotes` says which number the digits of a base stand for, as the sum of what they count by
their places, and `DenotesInteger` puts a sign in front. Neither speaks of reading, and
neither bounds the length of a numeral or its zeros in front. Main statements:

* `numeral?_eq_some_iff`, `integer?_eq_some_iff`: a text is read as a number exactly if it
  denotes that number.
* `Bounded.ofText?_eq_some_iff`: between bounds, exactly the numbers within them are read.
* `exists_denotes`, `Denotes.lt_pow`: one or more digits denote a number, and it is below the
  power of the base that has one zero for each of them.
-/

namespace GuestXml.Number

/-! ### Digits by their places -/

/-- What a character counts as a digit. Letters of either case go on where the ten digits
end. -/
def weight (c : Char) : Nat :=
  if c.isDigit then c.toNat - '0'.toNat
  else if c.isUpper then c.toNat - 'A'.toNat + 10
  else c.toNat - 'a'.toNat + 10

/-- A digit of a base is an ASCII digit or letter that counts less than the base. -/
def IsDigit (base : Nat) (c : Char) : Prop :=
  c.isAlphanum = true ∧ weight c < base

instance (base : Nat) (c : Char) : Decidable (IsDigit base c) :=
  inferInstanceAs (Decidable (_ ∧ _))

/-- The number that one or more digits of a base stand for, the last of them the ones. -/
def Denotes (base : Nat) (cs : List Char) (n : Nat) : Prop :=
  cs ≠ [] ∧ (∀ c ∈ cs, IsDigit base c) ∧ Nat.ofDigits base (cs.reverse.map weight) = n

/-- The whole number that decimal digits stand for behind a sign, which may be left out. A
minus sign is for signed numbers only. -/
inductive DenotesInteger (signed : Bool) : List Char → Int → Prop
  | bare {ds : List Char} {n : Nat} : Denotes 10 ds n → DenotesInteger signed ds n
  | plus {ds : List Char} {n : Nat} : Denotes 10 ds n → DenotesInteger signed ('+' :: ds) n
  | minus {ds : List Char} {n : Nat} : signed = true → Denotes 10 ds n →
      DenotesInteger signed ('-' :: ds) (-n)

section Digits

variable {base d n : Nat} {c : Char} {cs : List Char}

theorem charIsUpper_iff : c.isUpper = true ↔ 65 ≤ c.toNat ∧ c.toNat ≤ 90 :=
  decide_eq_true_iff

theorem charIsLower_iff : c.isLower = true ↔ 97 ≤ c.toNat ∧ c.toNat ≤ 122 :=
  Bool.and_eq_true_iff.trans (and_congr decide_eq_true_iff decide_eq_true_iff)

theorem isAlphanum_iff :
    c.isAlphanum = true ↔ c.isDigit = true ∨ c.isUpper = true ∨ c.isLower = true := by
  have halpha : c.isAlpha = true ↔ c.isUpper = true ∨ c.isLower = true := Bool.or_eq_true_iff
  rw [← halpha, or_comm]
  exact Bool.or_eq_true_iff

theorem weight_eq (c : Char) :
    weight c = if 48 ≤ c.toNat ∧ c.toNat ≤ 57 then c.toNat - 48
      else if 65 ≤ c.toNat ∧ c.toNat ≤ 90 then c.toNat - 65 + 10 else c.toNat - 97 + 10 := by
  simp only [weight, Char.isDigit_iff_toNat, charIsUpper_iff]
  rfl

theorem isDigit_iff :
    IsDigit base c ↔ ((48 ≤ c.toNat ∧ c.toNat ≤ 57) ∨ (65 ≤ c.toNat ∧ c.toNat ≤ 90) ∨
      (97 ≤ c.toNat ∧ c.toNat ≤ 122)) ∧ weight c < base := by
  rw [IsDigit, isAlphanum_iff, Char.isDigit_iff_toNat, charIsUpper_iff, charIsLower_iff]
  rfl

theorem digitValue?_eq_some_iff (hbase : base ≤ 16) :
    digitValue? base c = some d ↔ IsDigit base c ∧ weight c = d := by
  have hdecimal : ('0' ≤ c ∧ c ≤ '9') ↔ 48 ≤ c.toNat ∧ c.toNat ≤ 57 := Iff.rfl
  have hsmall : ('a' ≤ c ∧ c ≤ 'f') ↔ 97 ≤ c.toNat ∧ c.toNat ≤ 102 := Iff.rfl
  have hcapital : ('A' ≤ c ∧ c ≤ 'F') ↔ 65 ≤ c.toNat ∧ c.toNat ≤ 70 := Iff.rfl
  have hzero : '0'.toNat = 48 := rfl
  have ha : 'a'.toNat = 97 := rfl
  have hA : 'A'.toNat = 65 := rfl
  rw [isDigit_iff, weight_eq]
  simp only [digitValue?, hdecimal, hsmall, hcapital, hzero, ha, hA,
    Option.ite_none_right_eq_some, Option.some.injEq]
  generalize c.toNat = m
  by_cases hten : 48 ≤ m ∧ m ≤ 57
  · simp only [if_pos hten]
    omega
  · simp only [if_neg hten]
    by_cases hlow : 97 ≤ m ∧ m ≤ 102
    · have hup : ¬ (65 ≤ m ∧ m ≤ 90) := by omega
      simp only [if_pos hlow, if_neg hup]
      omega
    · by_cases hup : 65 ≤ m ∧ m ≤ 70
      · have hwide : 65 ≤ m ∧ m ≤ 90 := by omega
        simp only [if_neg hlow, if_pos hup, if_pos hwide]
        omega
      · -- The letters behind `f` count sixteen and more.
        simp only [if_neg hlow, if_neg hup]
        split <;> omega

/-- The characters of hexadecimal digits. -/
theorem isDigit_sixteen_iff :
    IsDigit 16 c ↔ ('0' ≤ c ∧ c ≤ '9') ∨ ('a' ≤ c ∧ c ≤ 'f') ∨ ('A' ≤ c ∧ c ≤ 'F') := by
  rw [isDigit_iff, weight_eq]
  show _ ↔ (48 ≤ c.toNat ∧ c.toNat ≤ 57) ∨ (97 ≤ c.toNat ∧ c.toNat ≤ 102) ∨
    (65 ≤ c.toNat ∧ c.toNat ≤ 70)
  generalize c.toNat = m
  by_cases hten : 48 ≤ m ∧ m ≤ 57
  · simp only [if_pos hten]
    omega
  · simp only [if_neg hten]
    split <;> omega

theorem digitsValue?_eq_some_iff (hbase : base ≤ 16) :
    digitsValue? base cs = some n ↔
      (∀ c ∈ cs, IsDigit base c) ∧ Nat.ofDigits base (cs.reverse.map weight) = n := by
  induction cs using List.reverseRecOn generalizing n with
  | nil => simp [digitsValue?]
  | append_singleton cs c ih =>
    simp only [digitsValue?_append_singleton, Option.bind_eq_some_iff, Option.map_eq_some_iff, ih,
      digitValue?_eq_some_iff hbase, List.reverse_append, List.reverse_singleton,
      List.singleton_append, List.map_cons, Nat.ofDigits_cons, List.forall_mem_append,
      List.forall_mem_singleton]
    constructor
    · rintro ⟨_, ⟨hcs, rfl⟩, _, ⟨hc, rfl⟩, rfl⟩
      exact ⟨⟨hcs, hc⟩, by rw [Nat.mul_comm, Nat.add_comm]⟩
    · rintro ⟨⟨hcs, hc⟩, rfl⟩
      exact ⟨_, ⟨hcs, rfl⟩, _, ⟨hc, rfl⟩, by rw [Nat.mul_comm, Nat.add_comm]⟩

theorem numeral?_eq_some_iff (hbase : base ≤ 16) :
    numeral? base cs = some n ↔ Denotes base cs n := by
  unfold numeral? Denotes
  rw [← digitsValue?_eq_some_iff hbase]
  cases cs <;> simp

/-! ### Texts of digits -/

theorem exists_denotes (hne : cs ≠ []) (h : ∀ c ∈ cs, IsDigit base c) :
    ∃ n, Denotes base cs n :=
  ⟨_, hne, h, rfl⟩

/-- Numbers of so many digits stay below that power of the base. -/
theorem Denotes.lt_pow (hbase : 1 < base) (h : Denotes base cs n) : n < base ^ cs.length := by
  obtain ⟨-, hdigits, rfl⟩ := h
  have hlength : (cs.reverse.map weight).length = cs.length := by simp
  rw [← hlength]
  refine Nat.ofDigits_lt_base_pow_length hbase fun d hd => ?_
  obtain ⟨c, hc, rfl⟩ := List.mem_map.mp hd
  exact (hdigits c (List.mem_reverse.mp hc)).2

theorem denotes_padded (hlo : 1 < base) (hhi : base ≤ 16) (width n : Nat) :
    Denotes base (padded base width n) n :=
  (numeral?_eq_some_iff hhi).mp (numeral?_padded hlo hhi width n)

/-! ### Signs -/

theorem integer?_eq_some_iff {signed : Bool} {n : Int} :
    integer? signed cs = some n ↔ DenotesInteger signed cs n := by
  have hread : ∀ {ds : List Char} {m : Nat}, numeral? 10 ds = some m ↔ Denotes 10 ds m :=
    numeral?_eq_some_iff (by decide)
  constructor
  · intro h
    unfold integer? at h
    split at h
    · obtain ⟨m, hm, rfl⟩ := Option.map_eq_some_iff.mp h
      exact .plus (hread.mp hm)
    · obtain ⟨hsigned, hnegated⟩ := Option.ite_none_right_eq_some.mp h
      obtain ⟨_, hvalue, rfl⟩ := Option.map_eq_some_iff.mp hnegated
      obtain ⟨m, hm, hcast⟩ := Option.bind_eq_some_iff.mp hvalue
      obtain rfl := Option.some.inj hcast
      exact .minus hsigned (hread.mp hm)
    · obtain ⟨m, hm, rfl⟩ := Option.map_eq_some_iff.mp h
      exact .bare (hread.mp hm)
  · intro h
    cases h with
    | bare h =>
      rw [integer?_of_digits (isDigit_of_numeral? (hread.mpr h)), hread.mpr h]
      rfl
    | plus h => simp [integer?, hread.mpr h]
    | minus hsigned h => simp [integer?, hsigned, hread.mpr h]

end Digits

/-- Between bounds, exactly the texts of numbers within them are read. -/
theorem Bounded.ofText?_eq_some_iff {lo hi : Int} {cs : List Char} {b : Bounded lo hi} :
    ofText? lo hi cs = some b ↔ DenotesInteger (lo < 0) cs b.val := by
  simp only [ofText?, Option.bind_eq_some_iff, ofInt?_eq_some_iff, integer?_eq_some_iff]
  constructor
  · rintro ⟨n, hn, rfl⟩
    exact hn
  · intro h
    exact ⟨b.val, h, rfl⟩

end GuestXml.Number
