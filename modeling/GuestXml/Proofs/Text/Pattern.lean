import GuestXml.Text.Character
import GuestXml.Text.Pattern

/-!
# The texts of a pattern

`Pattern.Matches` says which texts a pattern describes, by recursion on the pattern and
without derivatives. `accepts_iff_matches` states that the decision procedure accepts
exactly these texts: a derivative describes what may follow a character
(`matches_derivative_iff`), and a pattern is nullable if it describes the empty text
(`nullable_iff`).

`Pattern.isGraphic` holds of patterns whose characters are all printable ASCII. Their texts
have no blanks, so trimming leaves them as they are (`trim_of_accepts`). Blanks at the two ends
of any text do not count once it is trimmed (`trim_surrounded`).
-/

namespace GuestXml.Text

/-! ### Blanks around a text -/

theorem trimChars_surrounded {before after : List Char} (hbefore : before.all isBlank = true)
    (hafter : after.all isBlank = true) (cs : List Char) :
    trimChars (before ++ cs ++ after) = trimChars cs := by
  have hskip : ∀ {ds : List Char}, ds.all isBlank = true → ∀ es,
      (ds ++ es).dropWhile isBlank = es.dropWhile isBlank := by
    intro ds hds es
    exact List.dropWhile_append_of_pos (List.all_eq_true.mp hds)
  have hnone : after.dropWhile isBlank = [] := by simpa using hskip hafter []
  have hreversed : after.reverse.all isBlank = true := by simpa using hafter
  unfold trimChars
  rw [List.append_assoc, hskip hbefore, List.dropWhile_append]
  split
  · rename_i hempty
    rw [hnone, List.isEmpty_iff.mp hempty]
  · rw [List.reverse_append, hskip hreversed]

theorem trim_surrounded {before after : String} (hbefore : isBlankText before = true)
    (hafter : isBlankText after = true) (s : String) :
    trim (before ++ s ++ after) = trim s := by
  rw [trim, trim, String.toList_append, String.toList_append,
    trimChars_surrounded hbefore hafter]

namespace Pattern

/-! ### Meaning -/

/-- The texts that a pattern describes. -/
def Matches : Pattern → List Char → Prop
  | never, _ => False
  | empty, cs => cs = []
  | oneOf ranges, cs => ∃ c, cs = [c] ∧ ∃ r ∈ ranges, r.1 ≤ c ∧ c ≤ r.2
  | seq p q, cs => ∃ as bs, cs = as ++ bs ∧ p.Matches as ∧ q.Matches bs
  | alt p q, cs => p.Matches cs ∨ q.Matches cs
  | times p least more, cs =>
    ∃ parts : List (List Char), cs = parts.flatten ∧ (∀ part ∈ parts, p.Matches part) ∧
      least ≤ parts.length ∧ ∀ m ∈ more, parts.length ≤ least + m

theorem nullable_iff (p : Pattern) : p.nullable = true ↔ p.Matches [] := by
  induction p with
  | never => simp [nullable, Matches]
  | empty => simp [nullable, Matches]
  | oneOf ranges => simp [nullable, Matches]
  | seq p q ihp ihq =>
    simp only [nullable, Bool.and_eq_true, ihp, ihq, Matches]
    constructor
    · rintro ⟨hp, hq⟩
      exact ⟨[], [], rfl, hp, hq⟩
    · rintro ⟨as, bs, heq, hp, hq⟩
      obtain ⟨rfl, rfl⟩ := List.append_eq_nil_iff.mp heq.symm
      exact ⟨hp, hq⟩
  | alt p q ihp ihq => simp [nullable, Matches, ihp, ihq]
  | times p least more ih =>
    simp only [nullable, Bool.or_eq_true, beq_iff_eq, ih, Matches]
    constructor
    · rintro (rfl | hp)
      · exact ⟨[], rfl, by simp, by simp, by simp⟩
      · refine ⟨List.replicate least [], by simp, ?_, by simp, by simp⟩
        intro part hpart
        rw [List.eq_of_mem_replicate hpart]
        exact hp
    · rintro ⟨parts, hflat, hparts, hleast, -⟩
      cases parts with
      | nil => exact Or.inl (by simpa using hleast)
      | cons part parts =>
        have hempty : part = [] := by
          simp only [List.flatten_cons] at hflat
          exact (List.append_eq_nil_iff.mp hflat.symm).1
        exact Or.inr (hempty ▸ hparts part (by simp))

/-! ### Derivatives -/

theorem matches_andThen_iff (p q : Pattern) (cs : List Char) :
    (andThen p q).Matches cs ↔ (seq p q).Matches cs := by
  unfold andThen
  split
  · simp [Matches]
  · simp only [Matches]
    constructor
    · intro hq
      exact ⟨[], cs, rfl, rfl, hq⟩
    · rintro ⟨as, bs, rfl, rfl, hq⟩
      exact hq
  · rfl

theorem matches_orElse_iff (p q : Pattern) (cs : List Char) :
    (orElse p q).Matches cs ↔ (alt p q).Matches cs := by
  unfold orElse
  split <;> simp [Matches]

/-- A text of a sequence that does not begin in its second part begins in its first. -/
theorem matches_seq_cons_iff (p q : Pattern) (c : Char) (cs : List Char) :
    (seq p q).Matches (c :: cs) ↔
      (∃ as bs, cs = as ++ bs ∧ p.Matches (c :: as) ∧ q.Matches bs) ∨
        (p.Matches [] ∧ q.Matches (c :: cs)) := by
  simp only [Matches]
  constructor
  · rintro ⟨as, bs, heq, hp, hq⟩
    cases as with
    | nil => exact Or.inr ⟨hp, by simpa using heq ▸ hq⟩
    | cons a as =>
      obtain ⟨rfl, rfl⟩ := List.cons_eq_cons.mp heq
      exact Or.inl ⟨as, bs, rfl, hp, hq⟩
  · rintro (⟨as, bs, rfl, hp, hq⟩ | ⟨hp, hq⟩)
    · exact ⟨c :: as, bs, rfl, hp, hq⟩
    · exact ⟨[], c :: cs, rfl, hp, hq⟩

/-- Among parts that make up a text, the first one that is not empty begins it. The empty
ones in front of it may as well stand behind it. -/
theorem exists_first_part {parts : List (List Char)} {c : Char} {cs : List Char}
    (h : parts.flatten = c :: cs) :
    ∃ (as : List Char) (others : List (List Char)), (c :: as) ∈ parts ∧ (∀ part ∈ others, part ∈ parts) ∧
      parts.length = others.length + 1 ∧ cs = as ++ others.flatten := by
  induction parts with
  | nil => simp at h
  | cons part parts ih =>
    cases part with
    | nil =>
      obtain ⟨as, others, hmem, hsub, hlen, hcs⟩ := ih (by simpa using h)
      refine ⟨as, [] :: others, List.mem_cons_of_mem _ hmem, ?_, by simp [hlen], by simpa using hcs⟩
      intro part hpart
      rcases List.mem_cons.mp hpart with rfl | hpart
      · simp
      · exact List.mem_cons_of_mem _ (hsub part hpart)
    | cons d as =>
      simp only [List.flatten_cons, List.cons_append, List.cons.injEq] at h
      obtain ⟨rfl, rfl⟩ := h
      exact ⟨as, parts, by simp, fun part hpart => List.mem_cons_of_mem _ hpart, by simp, rfl⟩

/-- A repetition begins with one of its parts, and goes on with one repetition less. -/
theorem matches_times_cons_iff (p : Pattern) (least least' : Nat) (more more' : Option Nat)
    (c : Char) (cs : List Char)
    (hleast : ∀ n, least' ≤ n ↔ least ≤ n + 1)
    (hmore : ∀ n, (∀ m ∈ more', n ≤ least' + m) ↔ ∀ m ∈ more, n + 1 ≤ least + m) :
    (times p least more).Matches (c :: cs) ↔
      ∃ as bs, cs = as ++ bs ∧ p.Matches (c :: as) ∧ (times p least' more').Matches bs := by
  constructor
  · rintro ⟨parts, hflat, hparts, hlo, hhi⟩
    obtain ⟨as, others, hmem, hsub, hlen, hcs⟩ := exists_first_part hflat.symm
    refine ⟨as, others.flatten, hcs, hparts _ hmem, others, rfl,
      fun part hpart => hparts part (hsub part hpart), ?_, ?_⟩
    · exact (hleast _).mpr (hlen ▸ hlo)
    · exact (hmore _).mpr (hlen ▸ hhi)
  · rintro ⟨as, bs, rfl, hp, parts, rfl, hparts, hlo, hhi⟩
    refine ⟨(c :: as) :: parts, by simp, ?_, by simpa using (hleast _).mp hlo,
      by simpa using (hmore _).mp hhi⟩
    intro part hpart
    rcases List.mem_cons.mp hpart with rfl | hpart
    · exact hp
    · exact hparts part hpart

theorem matches_derivative_iff (c : Char) (p : Pattern) (cs : List Char) :
    (derivative c p).Matches cs ↔ p.Matches (c :: cs) := by
  induction p generalizing cs with
  | never => simp [derivative, Matches]
  | empty => simp [derivative, Matches]
  | oneOf ranges =>
    simp only [derivative]
    split
    · rename_i h
      obtain ⟨r, hr, hc⟩ := List.any_eq_true.mp h
      simp only [Bool.and_eq_true, decide_eq_true_eq] at hc
      simp only [Matches, List.cons.injEq]
      exact ⟨fun hcs => ⟨c, ⟨rfl, hcs⟩, r, hr, hc⟩, fun ⟨_, h, _⟩ => h.2⟩
    · rename_i h
      simp only [Matches, List.cons.injEq, false_iff, not_exists, not_and]
      rintro d ⟨rfl, -⟩ r hr hlo hhi
      exact h (List.any_eq_true.mpr ⟨r, hr, by simp [hlo, hhi]⟩)
  | seq p q ihp ihq =>
    have hfirst : (andThen (derivative c p) q).Matches cs ↔
        ∃ as bs, cs = as ++ bs ∧ p.Matches (c :: as) ∧ q.Matches bs := by
      simp only [matches_andThen_iff, Matches, ihp]
    simp only [derivative, matches_seq_cons_iff]
    split
    · rename_i hnull
      simp only [matches_orElse_iff, Matches, hfirst, ihq, (nullable_iff p).mp hnull, true_and]
    · rename_i hnull
      simp [hfirst, ← nullable_iff, hnull]
  | alt p q ihp ihq =>
    simp only [derivative, matches_orElse_iff, Matches, ihp, ihq]
  | times p least more ih =>
    have hstep : ∀ least' more',
        (andThen (derivative c p) (times p least' more')).Matches cs ↔
          ∃ as bs, cs = as ++ bs ∧ p.Matches (c :: as) ∧ (times p least' more').Matches bs := by
      intro least' more'
      rw [matches_andThen_iff]
      simp only [Matches, ih]
    match least, more with
    | 0, some 0 =>
      simp only [derivative, Matches, false_iff, not_exists, not_and]
      intro parts hflat _ _ hhi
      have hnil : parts = [] := List.length_eq_zero_iff.mp (by simpa using hhi 0 rfl)
      simp [hnil] at hflat
    | 0, some (m + 1) =>
      simp only [derivative, hstep]
      rw [matches_times_cons_iff p 0 0 (some (m + 1)) (some m)] <;> simp
    | 0, none =>
      simp only [derivative, hstep]
      rw [matches_times_cons_iff p 0 0 none none] <;> simp
    | n + 1, more =>
      simp only [derivative, hstep]
      rw [matches_times_cons_iff p (n + 1) n more more]
      · intro k; omega
      · intro k; exact ⟨fun h m hm => by have := h m hm; omega, fun h m hm => by have := h m hm; omega⟩

theorem accepts_iff_matches (p : Pattern) (cs : List Char) :
    p.accepts cs = true ↔ p.Matches cs := by
  induction cs generalizing p with
  | nil => exact nullable_iff p
  | cons c cs ih =>
    rw [← matches_derivative_iff, ← ih]
    rfl

/-! ### Characters and classes -/

theorem matches_char_iff {c : Char} {cs : List Char} : (char c).Matches cs ↔ cs = [c] := by
  simp only [char, Matches, List.mem_singleton, exists_eq_left]
  constructor
  · rintro ⟨d, rfl, hlo, hhi⟩
    rw [Char.le_antisymm hhi hlo]
  · rintro rfl
    exact ⟨c, rfl, Char.le_refl c, Char.le_refl c⟩

/-- A class that is repeated describes the texts of its characters that are long enough and
not too long. -/
theorem matches_times_oneOf_iff {ranges : List (Char × Char)} {least : Nat} {more : Option Nat}
    {cs : List Char} :
    (times (oneOf ranges) least more).Matches cs ↔
      (∀ c ∈ cs, (oneOf ranges).Matches [c]) ∧ least ≤ cs.length ∧
        ∀ m ∈ more, cs.length ≤ least + m := by
  constructor
  · rintro ⟨parts, rfl, hparts, hlo, hhi⟩
    have hlength : parts.flatten.length = parts.length := by
      clear hlo hhi
      induction parts with
      | nil => rfl
      | cons part parts ih =>
        obtain ⟨hpart, hrest⟩ := List.forall_mem_cons.mp hparts
        obtain ⟨c, rfl, -⟩ := hpart
        simp [ih hrest]
    refine ⟨fun c hc => ?_, hlength ▸ hlo, hlength ▸ hhi⟩
    obtain ⟨part, hpart, hmem⟩ := List.mem_flatten.mp hc
    obtain ⟨d, rfl, hd⟩ := hparts part hpart
    obtain rfl := List.mem_singleton.mp hmem
    exact ⟨c, rfl, hd⟩
  · rintro ⟨hclass, hlo, hhi⟩
    have hflat : (cs.map ([·])).flatten = cs := by
      rw [← List.flatMap_def, List.flatMap_singleton']
    refine ⟨cs.map ([·]), hflat.symm, ?_, by simpa using hlo, by simpa using hhi⟩
    intro part hpart
    obtain ⟨c, hc, rfl⟩ := List.mem_map.mp hpart
    exact hclass c hc

/-! ### Printable characters -/

/-- Whether a character is printable ASCII, the space excluded. -/
def isGraphicChar (c : Char) : Bool :=
  '!' ≤ c && c ≤ '~'

/-- Whether all characters that a pattern names are printable ASCII. -/
def isGraphic : Pattern → Bool
  | never => true
  | empty => true
  | oneOf ranges => ranges.all fun r => '!' ≤ r.1 && r.2 ≤ '~'
  | seq p q => p.isGraphic && q.isGraphic
  | alt p q => p.isGraphic && q.isGraphic
  | times p _ _ => p.isGraphic

theorem isGraphicChar_of_matches {p : Pattern} (hp : p.isGraphic = true) {cs : List Char}
    (h : p.Matches cs) : ∀ c ∈ cs, isGraphicChar c = true := by
  induction p generalizing cs with
  | never => exact h.elim
  | empty => simp [show cs = [] from h]
  | oneOf ranges =>
    obtain ⟨d, rfl, r, hr, hlo, hhi⟩ := h
    have hbounds := List.all_eq_true.mp hp r hr
    simp only [Bool.and_eq_true, decide_eq_true_eq] at hbounds
    intro c hc
    rw [List.mem_singleton.mp hc]
    simp only [isGraphicChar, Bool.and_eq_true, decide_eq_true_eq]
    exact ⟨Char.le_trans hbounds.1 hlo, Char.le_trans hhi hbounds.2⟩
  | seq p q ihp ihq =>
    obtain ⟨as, bs, rfl, ha, hb⟩ := h
    simp only [isGraphic, Bool.and_eq_true] at hp
    intro c hc
    rcases List.mem_append.mp hc with hc | hc
    · exact ihp hp.1 ha c hc
    · exact ihq hp.2 hb c hc
  | alt p q ihp ihq =>
    simp only [isGraphic, Bool.and_eq_true] at hp
    rcases h with h | h
    · exact ihp hp.1 h
    · exact ihq hp.2 h
  | times p least more ih =>
    obtain ⟨parts, rfl, hparts, -, -⟩ := h
    intro c hc
    obtain ⟨part, hpart, hc⟩ := List.mem_flatten.mp hc
    exact ih hp (hparts part hpart) c hc

end Pattern

/-! ### Trimming -/

theorem isBlank_of_isGraphicChar {c : Char} (h : Pattern.isGraphicChar c = true) :
    isBlank c = false := by
  simp only [Pattern.isGraphicChar, Bool.and_eq_true, decide_eq_true_eq, Char.le_def,
    UInt32.le_iff_toNat_le] at h
  have hlo : 33 ≤ c.toNat := h.1
  have hhi : c.toNat ≤ 126 := h.2
  simp only [isBlank, Bool.or_eq_false_iff, Bool.and_eq_false_iff, decide_eq_false_iff_not,
    beq_eq_false_iff_ne]
  omega

theorem trimChars_of_not_blank {cs : List Char} (h : ∀ c ∈ cs, isBlank c = false) :
    trimChars cs = cs := by
  have hdrop : ∀ ds : List Char, (∀ c ∈ ds, isBlank c = false) → ds.dropWhile isBlank = ds := by
    intro ds hds
    cases ds with
    | nil => rfl
    | cons d ds => simp [hds d (by simp)]
  simp only [trimChars]
  rw [hdrop cs h, hdrop cs.reverse (by simpa using h), List.reverse_reverse]

theorem trim_of_not_blank {s : String} (h : ∀ c ∈ s.toList, isBlank c = false) : trim s = s := by
  rw [trim, trimChars_of_not_blank h, String.ofList_toList]

/-- A text that a printable pattern accepts has nothing to trim. -/
theorem trim_of_accepts {p : Pattern} (hp : p.isGraphic = true) {s : String}
    (h : p.accepts s.toList = true) : trim s = s := by
  have hmatches := (Pattern.accepts_iff_matches p s.toList).mp h
  exact trim_of_not_blank fun c hc =>
    isBlank_of_isGraphicChar (Pattern.isGraphicChar_of_matches hp hmatches c hc)

end GuestXml.Text
