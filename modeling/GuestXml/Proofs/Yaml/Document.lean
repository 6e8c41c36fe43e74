import GuestXml.Proofs.Yaml.Outline

/-!
# Outlines are read back

The tokens of an outline are read into its nodes, so its text is read back, and the words in
it for the numbers and truth values that they are. Main statements:

* `readBlockEntries_entryTokens`: the entries of a mapping are read from their tokens, by
  induction on the outline. There is fuel enough for two steps for each token.
* `Document.ofText?_entriesText`: an outline is read back from its text.
-/

namespace GuestXml.Yaml

namespace Outline

/-- The mapping with given entries. Where there are none, nothing stands for it. -/
def groupNode : List (Node × Node) → Node
  | [] => .empty
  | es => .mapping es

mutual

/-- What an outline is read as. -/
def node : Outline → Node
  | word w => .scalar .plain none w
  | group es => groupNode (entryNodes es)

/-- The same for the entries of a mapping. -/
def entryNodes : List (String × Outline) → List (Node × Node)
  | [] => []
  | (key, o) :: es => (.scalar .plain none key, node o) :: entryNodes es

end

end Outline

open Outline NodeReader

variable {handles : TagHandles} {names : List (String × Nat)} {anchored : List Anchored}

theorem readNode_word (indentless : Bool) (w : String) (ts : List Token) (fuel : Nat) :
    (readNode handles true indentless (fuel + 2)).run ⟨.scalar .plain w :: ts, names, anchored⟩ =
      some (.scalar .plain none w, ⟨ts, names, anchored⟩) := by
  cases indentless <;> rfl

theorem readNode_mapping (indentless : Bool) {ts ts' : List Token} {fuel : Nat}
    {es : List (Node × Node)}
    (h : (readBlockEntries handles fuel).run ⟨ts, names, anchored⟩ =
      some (es, ⟨ts', names, anchored⟩)) :
    (readNode handles true indentless (fuel + 2)).run ⟨.blockMapping :: ts, names, anchored⟩ =
      some (.mapping es, ⟨ts', names, anchored⟩) := by
  have hrun : (readNode handles true indentless (fuel + 2)).run
      ⟨.blockMapping :: ts, names, anchored⟩ =
        ((readBlockEntries handles fuel).run ⟨ts, names, anchored⟩).bind
          fun p => some (.mapping p.1, p.2) := by
    cases indentless <;> rfl
  rw [hrun, h]
  rfl

theorem unlessNext_of_mem {t : Token} {ts next : List Token} (ht : t ∈ next)
    (read : NodeReader Node) :
    (unlessNext next read).run ⟨t :: ts, names, anchored⟩ =
      some (.empty, ⟨t :: ts, names, anchored⟩) := by
  have hcontains : next.contains t = true := List.contains_iff_mem.mpr ht
  have hrun : (unlessNext next read).run ⟨t :: ts, names, anchored⟩ =
      (if next.contains t then pure Node.empty else read).run ⟨t :: ts, names, anchored⟩ := rfl
  rw [hrun, if_pos hcontains]
  rfl

theorem unlessNext_of_not_mem {t : Token} {ts next : List Token} (ht : t ∉ next)
    (read : NodeReader Node) :
    (unlessNext next read).run ⟨t :: ts, names, anchored⟩ =
      read.run ⟨t :: ts, names, anchored⟩ := by
  have hcontains : ¬next.contains t = true := fun h => ht (List.contains_iff_mem.mp h)
  have hrun : (unlessNext next read).run ⟨t :: ts, names, anchored⟩ =
      (if next.contains t then pure Node.empty else read).run ⟨t :: ts, names, anchored⟩ := rfl
  rw [hrun, if_neg hcontains]

/-- The tokens in front of which there is no value. -/
def valueEnds : List Token :=
  [.key, .value, .blockEnd]

theorem readBlockEntries_cons {key : String} {value : Node} {ts ts' ts'' : List Token} {fuel : Nat}
    {es : List (Node × Node)}
    (hvalue : (unlessNext valueEnds (readNode handles true true (fuel + 2))).run
      ⟨ts, names, anchored⟩ = some (value, ⟨ts', names, anchored⟩))
    (hentries : (readBlockEntries handles (fuel + 2)).run ⟨ts', names, anchored⟩ =
      some (es, ⟨ts'', names, anchored⟩)) :
    (readBlockEntries handles (fuel + 3)).run
        ⟨.key :: .scalar .plain key :: .value :: ts, names, anchored⟩ =
      some ((.scalar .plain none key, value) :: es, ⟨ts'', names, anchored⟩) := by
  have hrun : (readBlockEntries handles (fuel + 3)).run
      ⟨.key :: .scalar .plain key :: .value :: ts, names, anchored⟩ =
        ((unlessNext valueEnds (readNode handles true true (fuel + 2))).run
          ⟨ts, names, anchored⟩).bind fun p =>
            ((readBlockEntries handles (fuel + 2)).run p.2).bind fun q =>
              some ((.scalar .plain none key, p.1) :: q.1, q.2) := rfl
  rw [hrun, hvalue, Option.bind_some, hentries]
  rfl

mutual

/-- A value is read from its tokens, or taken as empty in front of what follows it. -/
theorem unlessNext_valueTokens :
    ∀ (o : Outline) (fuel : Nat) {t : Token} (ts : List Token), t ∈ valueEnds →
      2 * (valueTokens o).length ≤ fuel →
        (unlessNext valueEnds (readNode handles true true fuel)).run
            ⟨valueTokens o ++ t :: ts, names, anchored⟩ =
          some (o.node, ⟨t :: ts, names, anchored⟩)
  | .word w, fuel, t, ts, _, hfuel => by
    obtain ⟨fuel, rfl⟩ := Nat.exists_eq_add_of_le' hfuel
    have hnext : Token.scalar .plain w ∉ valueEnds := by simp [valueEnds]
    exact (unlessNext_of_not_mem hnext _).trans (readNode_word true w (t :: ts) fuel)
  | .group [], fuel, t, ts, ht, _ => unlessNext_of_mem ht _
  | .group (e :: es), fuel, t, ts, ht, hfuel => by
    have hlength : 2 * (entryTokens (e :: es)).length + 1 + 2 ≤ fuel := by
      rw [valueTokens_group (List.cons_ne_nil e es)] at hfuel
      simp only [List.length_cons, List.length_append, List.length_nil] at hfuel
      omega
    obtain ⟨fuel, rfl⟩ := Nat.exists_eq_add_of_le' (Nat.le_of_add_left_le hlength)
    have hentries := readBlockEntries_entryTokens (e :: es) fuel (t :: ts) (by omega)
    have hnext : Token.blockMapping ∉ valueEnds := by simp [valueEnds]
    rw [valueTokens_group (List.cons_ne_nil e es), List.cons_append,
      unlessNext_of_not_mem hnext, List.append_assoc]
    exact readNode_mapping true hentries

/-- The entries of a mapping are read from their tokens and the sign of its end. -/
theorem readBlockEntries_entryTokens :
    ∀ (es : List (String × Outline)) (fuel : Nat) (ts : List Token),
      2 * (entryTokens es).length + 1 ≤ fuel →
        (readBlockEntries handles fuel).run ⟨entryTokens es ++ .blockEnd :: ts, names, anchored⟩ =
          some (entryNodes es, ⟨ts, names, anchored⟩)
  | [], fuel, ts, hfuel => by
    obtain ⟨fuel, rfl⟩ := Nat.exists_eq_add_of_le' hfuel
    rfl
  | (key, o) :: es, fuel, ts, hfuel => by
    have hlength : 2 * (valueTokens o).length + 2 * (entryTokens es).length + 4 + 3 ≤ fuel := by
      simp only [entryTokens, List.length_cons, List.length_append] at hfuel
      omega
    obtain ⟨fuel, rfl⟩ := Nat.exists_eq_add_of_le' (Nat.le_of_add_left_le hlength)
    have hentries := readBlockEntries_entryTokens es (fuel + 2) ts (by omega)
    obtain ⟨t, r, hnext, ht⟩ :
        ∃ t r, entryTokens es ++ .blockEnd :: ts = t :: r ∧ t ∈ valueEnds := by
      cases es with
      | nil => exact ⟨_, _, rfl, by simp [valueEnds]⟩
      | cons e es => exact ⟨_, _, rfl, by simp [valueEnds]⟩
    have hvalue := unlessNext_valueTokens o (fuel + 2) r ht (by omega)
    rw [← hnext] at hvalue
    simp only [entryTokens, List.cons_append, List.append_assoc]
    exact readBlockEntries_cons hvalue hentries

end

theorem Document.ofTokens?_valueTokens (es : List (String × Outline)) :
    ofTokens? (valueTokens (.group es) ++ [.streamEnd]) = some { root := node (.group es) } := by
  cases es with
  | nil => rfl
  | cons e es =>
    obtain ⟨ts, hts⟩ : ∃ ts, entryTokens (e :: es) ++ [Token.blockEnd, .streamEnd] = ts := ⟨_, rfl⟩
    have htokens : valueTokens (.group (e :: es)) ++ [.streamEnd] = .blockMapping :: ts := by
      rw [valueTokens_group (List.cons_ne_nil e es), ← hts]
      simp
    have hlength : 2 * (entryTokens (e :: es)).length + 1 ≤ 2 * (ts.length + 1) := by
      rw [← hts, List.length_append]
      omega
    have hentries : (readBlockEntries TagHandles.standard (2 * (ts.length + 1))).run ⟨ts, [], []⟩ =
        some (entryNodes (e :: es), ⟨[.streamEnd], [], []⟩) :=
      hts ▸ readBlockEntries_entryTokens (e :: es) _ [.streamEnd] (hts ▸ hlength)
    -- A text that begins with a mapping has no directives.
    have hcontent : ofTokens? (.blockMapping :: ts) =
        ((readNode TagHandles.standard true false (2 * (ts.length + 1) + 2)).run
          ⟨.blockMapping :: ts, [], []⟩).bind fun p =>
            if p.2.tokens.dropWhile (· = .documentEnd) = [.streamEnd] then
              some { root := p.1, anchored := p.2.anchored }
            else none := rfl
    rw [htokens, hcontent, readNode_mapping false hentries]
    rfl

/-- **An outline is read back** from its text, however deep its lines are set in. -/
theorem Document.ofText?_entriesText {step : Nat} (hstep : 0 < step)
    {es : List (String × Outline)} (hes : AllProper es) :
    Document.ofText? (String.ofList (entriesText step 0 es)) =
      some { root := node (.group es) } := by
  rw [ofText?, String.toList_ofList, tokens?_entriesText hstep hes]
  exact ofTokens?_valueTokens es

/-! ### Values of outlines -/

namespace Document

theorem numeral?_cons {c : Char} (hc : c ≠ '0') (r : List Char) :
    numeral? (c :: r) = Number.numeral? 10 (c :: r) := by
  unfold numeral?
  split <;> simp_all

/-- A positive number has no zero in front. -/
theorem exists_toDigits_cons {n : Nat} (hn : 0 < n) :
    ∃ c r, Nat.toDigits 10 n = c :: r ∧ c ≠ '0' := by
  induction n using Nat.strongRecOn with
  | ind n ih =>
    by_cases hlt : n < 10
    · have hall : ∀ m < 10, 0 < m → Nat.digitChar m ≠ '0' := by decide
      exact ⟨n.digitChar, [], Nat.toDigits_of_lt_base hlt, hall n hlt hn⟩
    · have hle : 10 ≤ n := Nat.le_of_not_lt hlt
      obtain ⟨c, r, hcons, hc⟩ := ih (n / 10) (by omega) (Nat.div_pos hle (by decide))
      refine ⟨c, r ++ [(n % 10).digitChar], ?_, hc⟩
      rw [Nat.toDigits_of_base_le (by decide) hle, hcons, List.cons_append]

theorem numeral?_toDigits (n : Nat) : numeral? (Nat.toDigits 10 n) = some n := by
  rcases Nat.eq_zero_or_pos n with rfl | hn
  · rfl
  · obtain ⟨c, r, hcons, hc⟩ := exists_toDigits_cons hn
    have hvalue := Number.numeral?_toDigits (by decide : 1 < 10) (by decide) n
    rw [hcons] at hvalue ⊢
    rw [numeral?_cons hc, hvalue]

theorem nat?_toString (d : Document) {n : Nat} (hn : n < 18446744073709551616) :
    d.nat? (node (.word (toString n))) = some n := by
  have hdigits : (toString n).toList = Nat.toDigits 10 n := Nat.toList_repr
  -- No digit is a sign, so the whole word is the numeral.
  have hplus : ∀ r, Nat.toDigits 10 n ≠ '+' :: r := by
    intro r h
    exact absurd (Number.isDigit_of_mem_decimal (n := n) (h ▸ List.mem_cons_self)) (by decide)
  have hword (tag : String) : d.word? tag (node (.word (toString n))) = some (toString n) := rfl
  rw [nat?, hword]
  simp only [Option.bind_eq_bind, Option.bind_some, hdigits, numeral?_toDigits]
  simp [hn]

theorem bool?_toString (d : Document) (b : Bool) :
    d.bool? (node (.word (toString b))) = some b := by
  cases b <;> rfl

theorem entries?_node (d : Document) (es : List (String × Outline)) :
    d.entries? (node (.group es)) = some (es.map fun e => (e.1, e.2.node)) := by
  cases es with
  | nil => rfl
  | cons e es =>
    have hroot : d.resolve (node (.group (e :: es))) = .mapping (entryNodes (e :: es)) := rfl
    rw [entries?, hroot]
    dsimp only
    generalize e :: es = es
    induction es with
    | nil => rfl
    | cons e es ih =>
      simp only [entryNodes, List.mapM_cons, ih]
      rfl

end Document

end GuestXml.Yaml
