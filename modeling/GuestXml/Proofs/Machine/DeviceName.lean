import GuestXml.Machine.Build
import Mathlib.Data.List.Shortlex
import Mathlib.Data.Set.Card

/-!
# The order of disk names

The letters of disk names are numerals without a zero. Here they are all the words over the
alphabet, in the order in which short words come first and words of one length are sorted
(`shortlex_letters`, `exists_letters`), so the letters of the disk in place `i` are the
non-empty word with exactly `i` others before it (`isNthWord_iff`).

No bus begins the names of its disks with what another one begins them with and something
more, so that names are different wherever places are (`deviceName_inj`).
-/

namespace GuestXml.Machine

/-! ### Single letters -/

theorem toNat_letter (n : Nat) : (letter n).toNat = 97 + n % 26 := by
  have hvalid : (97 + n % 26).isValidChar := .inl (by omega)
  have hletter : letter n = Char.ofNatAux (97 + n % 26) hvalid := dif_pos hvalid
  rw [hletter]
  rfl

theorem letter_lt {m n : Nat} (h : m % 26 < n % 26) : letter m < letter n := by
  have hnat : (letter m).toNat < (letter n).toNat := by
    rw [toNat_letter, toNat_letter]
    omega
  exact hnat

/-- A text of small letters. -/
def IsWord (w : List Char) : Prop :=
  ∀ c ∈ w, 'a' ≤ c ∧ c ≤ 'z'

theorem isSmall_iff {c : Char} : 'a' ≤ c ∧ c ≤ 'z' ↔ 97 ≤ c.toNat ∧ c.toNat ≤ 122 := Iff.rfl

theorem isWord_letter (n : Nat) : IsWord [letter n] := by
  rw [IsWord, List.forall_mem_singleton, isSmall_iff, toNat_letter]
  omega

theorem exists_letter {c : Char} (h : 'a' ≤ c ∧ c ≤ 'z') : ∃ n < 26, c = letter n := by
  rw [isSmall_iff] at h
  refine ⟨c.toNat - 97, by omega, Char.toNat_inj.mp ?_⟩
  rw [toNat_letter]
  omega

/-! ### Letters in their places -/

theorem letters_zero : letters 0 = [] := by
  rw [letters, if_pos rfl]

theorem letters_succ (n : Nat) : letters (n + 1) = letters (n / 26) ++ [letter n] := by
  rw [letters, if_neg (Nat.succ_ne_zero n), Nat.add_sub_cancel]

theorem isWord_letters (n : Nat) : IsWord (letters n) := by
  induction n using Nat.strongRecOn with
  | ind n ih =>
    cases n with
    | zero => simp [letters_zero, IsWord]
    | succ n =>
      rw [letters_succ, IsWord, List.forall_mem_append]
      exact ⟨ih (n / 26) (by omega), isWord_letter n⟩

/-- Every word is in some place. -/
theorem exists_letters {w : List Char} (h : IsWord w) : ∃ n, letters n = w := by
  induction w using List.reverseRecOn with
  | nil => exact ⟨0, letters_zero⟩
  | append_singleton w c ih =>
    rw [IsWord, List.forall_mem_append, List.forall_mem_singleton] at h
    obtain ⟨n, rfl⟩ := ih h.1
    obtain ⟨k, hk, rfl⟩ := exists_letter h.2
    have hplace : (26 * n + k) / 26 = n := by omega
    have hletter : letter (26 * n + k) = letter k := by
      rw [letter, letter, Nat.mul_add_mod]
    exact ⟨26 * n + k + 1, by rw [letters_succ, hplace, hletter]⟩

/-! ### The order of words -/

theorem lex_concat {u v : List Char} (h : List.Lex (· < ·) u v) (hlength : u.length = v.length)
    (c d : Char) : List.Lex (· < ·) (u ++ [c]) (v ++ [d]) := by
  induction h with
  | nil => simp at hlength
  | cons _ ih => exact .cons (ih (Nat.succ.inj hlength))
  | rel h => exact .rel h

theorem shortlex_concat {u v : List Char} (h : List.Shortlex (· < ·) u v) (c d : Char) :
    List.Shortlex (· < ·) (u ++ [c]) (v ++ [d]) := by
  rcases List.shortlex_def.mp h with hshorter | ⟨hlength, hlex⟩
  · exact .of_length_lt (by simpa using hshorter)
  · exact .of_lex (by simp [hlength]) (lex_concat hlex hlength c d)

/-- Letters in an earlier place come first. By induction on the later place: either the
places of what is in front of the last letters differ, or the last letters do. -/
theorem shortlex_letters {m n : Nat} (h : m < n) :
    List.Shortlex (· < ·) (letters m) (letters n) := by
  induction n using Nat.strongRecOn generalizing m with
  | ind n ih =>
    cases n with
    | zero => exact absurd h (Nat.not_lt_zero m)
    | succ n =>
      rw [letters_succ]
      cases m with
      | zero =>
        rw [letters_zero]
        exact .of_length_lt (by simp)
      | succ m =>
        rw [letters_succ]
        have hle : m / 26 ≤ n / 26 := Nat.div_le_div_right (by omega)
        rcases Nat.lt_or_eq_of_le hle with hlt | heq
        · exact shortlex_concat (ih (n / 26) (by omega) hlt) _ _
        · rw [heq]
          have hlast : letter m < letter n := letter_lt (by omega)
          exact ((List.shortlex_singleton_iff _ _).mpr hlast).append_left _

theorem shortlex_letters_iff {m n : Nat} :
    List.Shortlex (· < ·) (letters m) (letters n) ↔ m < n := by
  refine ⟨fun h => ?_, shortlex_letters⟩
  by_contra hle
  rcases Nat.lt_or_eq_of_le (Nat.not_lt.mp hle) with hlt | rfl
  · exact Std.Asymm.asymm _ _ h (shortlex_letters hlt)
  · exact Std.Asymm.asymm _ _ h h

theorem letters_injective : Function.Injective letters := by
  intro m n h
  have hle : ¬ n < m := by
    rw [← shortlex_letters_iff, h, shortlex_letters_iff]
    exact Nat.lt_irrefl n
  have hge : ¬ m < n := by
    rw [← shortlex_letters_iff, h, shortlex_letters_iff]
    exact Nat.lt_irrefl n
  omega

theorem letters_eq_nil_iff {n : Nat} : letters n = [] ↔ n = 0 := by
  rw [← letters_zero]
  exact letters_injective.eq_iff

/-- The non-empty word that has exactly `i` non-empty words before it, where shorter words
come before longer ones and words of one length are sorted. -/
structure IsNthWord (i : Nat) (w : List Char) : Prop where
  ne_nil : w ≠ []
  isWord : IsWord w
  before : {v | v ≠ [] ∧ IsWord v ∧ List.Shortlex (· < ·) v w}.encard = i

theorem isNthWord_letters (i : Nat) : IsNthWord i (letters (i + 1)) where
  ne_nil := letters_eq_nil_iff.not.mpr (Nat.succ_ne_zero i)
  isWord := isWord_letters (i + 1)
  before := by
    have hset : {v | v ≠ [] ∧ IsWord v ∧ List.Shortlex (· < ·) v (letters (i + 1))} =
        (fun m => letters (m + 1)) '' (Finset.range i : Set Nat) := by
      ext v
      simp only [Set.mem_ofPred_eq, Set.mem_image, Finset.coe_range, Set.mem_Iio]
      constructor
      · rintro ⟨hne, hword, hbefore⟩
        obtain ⟨n, rfl⟩ := exists_letters hword
        obtain ⟨m, rfl⟩ := Nat.exists_eq_succ_of_ne_zero (letters_eq_nil_iff.not.mp hne)
        exact ⟨m, Nat.lt_of_succ_lt_succ (shortlex_letters_iff.mp hbefore), rfl⟩
      · rintro ⟨m, hm, rfl⟩
        exact ⟨letters_eq_nil_iff.not.mpr (Nat.succ_ne_zero m), isWord_letters (m + 1),
          shortlex_letters (by omega)⟩
    have hinjective : Function.Injective fun m => letters (m + 1) :=
      letters_injective.comp Nat.succ_injective
    rw [hset, hinjective.encard_image, Set.encard_coe_eq_coe_finsetCard, Finset.card_range]

/-- There is one word for each place. -/
theorem isNthWord_iff {i : Nat} {w : List Char} : IsNthWord i w ↔ w = letters (i + 1) := by
  constructor
  · intro h
    obtain ⟨n, rfl⟩ := exists_letters h.isWord
    obtain ⟨j, rfl⟩ := Nat.exists_eq_succ_of_ne_zero (letters_eq_nil_iff.not.mp h.ne_nil)
    have hplace : (j : ℕ∞) = i := (isNthWord_letters j).before.symm.trans h.before
    rw [Nat.cast_inj.mp hplace]
  · rintro rfl
    exact isNthWord_letters i

/-! ### Names -/

/-- No bus extends what another one begins its names with. -/
theorem devicePrefix_eq_of_isPrefix {a b : DiskBus}
    (h : a.devicePrefix.toList <+: b.devicePrefix.toList) : a.devicePrefix = b.devicePrefix := by
  revert h
  cases a <;> cases b <;> decide

/-- Names of disks are different where their places are, on whatever buses they are. -/
theorem deviceName_inj {a b : DiskBus} {i j : Nat}
    (h : deviceName a.devicePrefix i = deviceName b.devicePrefix j) : i = j := by
  have hchars : a.devicePrefix.toList ++ letters (i + 1) =
      b.devicePrefix.toList ++ letters (j + 1) := by
    simpa [deviceName] using congrArg String.toList h
  have hbus : a.devicePrefix = b.devicePrefix := by
    have ha : a.devicePrefix.toList <+: a.devicePrefix.toList ++ letters (i + 1) :=
      List.prefix_append _ _
    have hb : b.devicePrefix.toList <+: a.devicePrefix.toList ++ letters (i + 1) :=
      hchars ▸ List.prefix_append _ _
    rcases List.prefix_or_prefix_of_prefix ha hb with hab | hba
    · exact devicePrefix_eq_of_isPrefix hab
    · exact (devicePrefix_eq_of_isPrefix hba).symm
  rw [hbus] at hchars
  exact Nat.succ.inj (letters_injective (List.append_cancel_left hchars))

/-- After the names with one letter and those with two come those with more. -/
example : [25, 26, 701, 702].map (deviceName "vd") = ["vdz", "vdaa", "vdzz", "vdaaa"] := by
  cbv

end GuestXml.Machine
