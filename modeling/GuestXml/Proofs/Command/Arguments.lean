import GuestXml.Command.Arguments
import GuestXml.Proofs.Number.Numeral
import Mathlib.Data.List.TakeWhile

/-!
# Words and what they ask for

Whatever can be asked for has words that ask for it, each switch in long form
(`Arguments.words`). Main statements:

* `ofWords_words`: these words are read as what they were made from.
* `isSayable_of_ofWords`: only what has such words is ever read, whichever way it was put. So
  all spellings, places of switches and operands come down to the words of `Arguments.words`.
-/

namespace GuestXml.Command

/-! ### Switches in long form -/

/-- A switch in long form, with its value behind an equals sign if it takes one. -/
def Switch.word (s : Switch) (value : String) : String :=
  "--" ++ s.name ++ if s.takesValue then "=" ++ value else ""

/-- The words of switches. -/
def switchWords (given : List (Switch × String)) : List String :=
  given.map fun (s, value) => s.word value

/-- Whether a switch can be given a value behind a command, or in front of all commands. -/
structure Switch.Takes (verb? : Option Verb) (s : Switch) (value : String) : Prop where
  admitted : s.admittedAt verb? = true
  asks : s ≠ .help ∧ s ≠ .version
  admits : s.admits value = true
  bare : s.takesValue = false → value = ""

namespace Switch

theorem ofName?_name {verb? : Option Verb} {s : Switch} (h : s.admittedAt verb? = true) :
    ofName? verb? s.name = some s := by
  rcases verb? with _ | verb
  · revert h
    cases s <;> decide
  · revert h
    cases verb <;> cases s <;> decide

theorem name_ne_nil (s : Switch) : s.name.toList ≠ [] := by
  cases s <;> decide

theorem ne_equals_of_mem_name (s : Switch) : ∀ c ∈ s.name.toList, (c != '=') = true := by
  have hall : s.name.toList.all (· != '=') = true := by cases s <;> decide +kernel
  exact List.all_eq_true.mp hall

/-- What follows the hyphens of the long form. -/
theorem toList_word (s : Switch) (value : String) :
    (s.word value).toList =
      '-' :: '-' :: (s.name.toList ++ if s.takesValue then '=' :: value.toList else []) := by
  unfold word
  split <;> simp [String.toList_append]

end Switch

/-! ### Reading switches -/

section Reading

variable {verb? : Option Verb} {g : Given} {s : Switch} {value : String}

theorem Given.addSwitch_of_takes (htakes : s.Takes verb? value) (hnew : g.has s = false) :
    g.addSwitch s value = .ok { g with values := g.values ++ [(s, value)] } := by
  rw [addSwitch, if_neg htakes.asks.1, if_neg htakes.asks.2, if_neg (by simp [hnew]),
    if_pos htakes.admits]

theorem Given.addLong_word (htakes : s.Takes verb? value) (hnew : g.has s = false) :
    g.addLong verb? (s.name.toList ++ if s.takesValue then '=' :: value.toList else []) =
      .ok ({ g with values := g.values ++ [(s, value)] }, none) := by
  have hadd := addSwitch_of_takes htakes hnew
  unfold addLong
  cases hvalue : s.takesValue with
  | true =>
    have htake : (s.name.toList ++ '=' :: value.toList).takeWhile (· != '=') = s.name.toList := by
      rw [List.takeWhile_append_of_pos s.ne_equals_of_mem_name]
      simp
    have hdrop : (s.name.toList ++ '=' :: value.toList).dropWhile (· != '=') =
        '=' :: value.toList := by
      rw [List.dropWhile_append_of_pos s.ne_equals_of_mem_name]
      simp
    simp only [if_true, htake, hdrop, String.ofList_toList, Switch.ofName?_name htakes.admitted,
      hvalue, hadd]
    rfl
  | false =>
    obtain rfl := htakes.bare hvalue
    have htake : s.name.toList.takeWhile (· != '=') = s.name.toList :=
      List.takeWhile_eq_self_iff.mpr s.ne_equals_of_mem_name
    have hdrop : s.name.toList.dropWhile (· != '=') = [] :=
      List.dropWhile_eq_nil_iff.mpr s.ne_equals_of_mem_name
    simp only [Bool.false_eq_true, if_false, List.append_nil, htake, hdrop, String.ofList_toList,
      Switch.ofName?_name htakes.admitted, hvalue, hadd]
    rfl

/-- No command is named by a word that begins with a hyphen. -/
theorem Verb.ofName?_of_hyphen {word : String} {cs : List Char} (h : word.toList = '-' :: cs) :
    Verb.ofName? word = none := by
  rw [Verb.ofName?, List.find?_eq_none]
  intro verb _ hname
  rw [← eq_of_beq hname] at h
  cases verb <;> exact absurd h (by simp [Verb.name])

/-- A switch that has not been given is taken down, and reading goes on. -/
theorem readWords_switch (htakes : s.Takes verb? value) (hnew : g.has s = false)
    (words : List String) :
    readWords verb? g none false (s.word value :: words) =
      readWords verb? { g with values := g.values ++ [(s, value)] } none false words := by
  have hlist := s.toList_word value
  have hhelp : s.word value ≠ "help" := fun heq => by simp [heq] at hlist
  have hhyphens : s.word value ≠ "--" := fun heq => by
    rw [heq] at hlist
    simp [s.name_ne_nil] at hlist
  rw [readWords]
  · simp only [hhelp, hhyphens, hlist, and_false, if_false, Bool.false_eq_true]
    rw [Given.addLong_word htakes hnew]
    rfl
  · intro verb _ hverb
    rw [Verb.ofName?_of_hyphen hlist] at hverb
    cases hverb

theorem Given.has_eq_false_iff : g.has s = false ↔ s ∉ g.values.map (·.1) := by
  rw [has, value?, Option.isSome_eq_false_iff, Option.isNone_iff_eq_none, List.lookup_eq_none_iff,
    List.mem_map]
  constructor
  · rintro h ⟨p, hp, rfl⟩
    simpa using h p hp
  · intro h p hp
    exact bne_iff_ne.mpr fun heq => h ⟨p, hp, heq.symm⟩

/-- Switches that are all different are taken down one after the other. -/
theorem readWords_switches {given : List (Switch × String)}
    (htakes : ∀ p ∈ given, p.1.Takes verb? p.2)
    (hnodup : ((g.values ++ given).map (·.1)).Nodup) (words : List String) :
    readWords verb? g none false (switchWords given ++ words) =
      readWords verb? { g with values := g.values ++ given } none false words := by
  induction given generalizing g with
  | nil => simp [switchWords]
  | cons p given ih =>
    obtain ⟨s, value⟩ := p
    have hnew : g.has s = false := by
      rw [Given.has_eq_false_iff]
      rw [List.map_append, List.map_cons] at hnodup
      exact fun hmem => (List.nodup_append.mp hnodup).2.2 s hmem s List.mem_cons_self rfl
    have hstep := readWords_switch (htakes _ List.mem_cons_self) hnew (switchWords given ++ words)
    have hrest := ih (g := { g with values := g.values ++ [(s, value)] })
      (fun p hp => htakes p (List.mem_cons_of_mem _ hp)) (by simpa using hnodup)
    rw [List.append_assoc] at hrest
    exact hstep.trans hrest

/-- A command ends the words in front of it. -/
theorem readWords_verb (verb : Verb) (words : List String) :
    readWords none g none false (verb.name :: words) = .ok (g, some (verb, words)) := by
  have hverb : Verb.ofName? verb.name = some verb := by cases verb <;> decide
  unfold readWords
  simp only [Bool.false_eq_true, if_false, hverb]

/-- The words of an operand, which may begin with a hyphen. -/
def operandWords (operand? : Option String) : List String :=
  operand?.elim [] fun operand => ["--", operand]

theorem readWords_operand {verb : Verb} {operand? : Option String} (hnone : g.operands = [])
    (hoperand : ∀ operand ∈ operand?, operand = "" → verb = .describe) :
    readWords (some verb) g none false (operandWords operand?) =
      .ok ({ g with operands := operand?.toList }, none) := by
  obtain ⟨values, operands⟩ := g
  obtain rfl : operands = [] := hnone
  cases operand? with
  | none => rfl
  | some operand =>
    have hadd : Given.addOperand ⟨values, []⟩ (some verb) operand = .ok ⟨values, [operand]⟩ := by
      have hadmitted : (operand.isEmpty && verb != .describe) = false := by
        simpa using hoperand operand rfl
      simp [Given.addOperand, hadmitted]
    have hread : readWords (some verb) ⟨values, []⟩ none true [operand] =
        .ok (⟨values, [operand]⟩, none) := by
      simp only [readWords, if_true, hadd]
      rfl
    exact hread

end Reading

/-! ### Words of what is asked for -/

namespace Task

/-- The command of a task. -/
def verb : Task → Verb
  | check _ _ => .check
  | format _ _ _ => .format
  | present _ _ => .present
  | describe _ _ => .describe

/-- The switches that stand behind the command of a task. -/
def switches : Task → List (Switch × String)
  | check _ kind? | present _ kind? => (kind?.map (Switch.kind, ·.name)).toList
  | format _ output? kind? =>
    (output?.map (Switch.output, ·)).toList ++ (kind?.map (Switch.kind, ·.name)).toList
  | describe _ asJson => if asJson then [(.json, "")] else []

/-- The operand of a task. -/
def operand? : Task → Option String
  | check file _ | format file _ _ | present file _ => some file
  | describe name? _ => name?

/-- A task that words can ask for: names of files are not empty. -/
def IsSayable : Task → Prop
  | check file _ | present file _ => file ≠ ""
  | format file output? _ => file ≠ "" ∧ ∀ target ∈ output?, target ≠ ""
  | describe _ _ => True

end Task

namespace Arguments

/-- The switches that stand in front of the command. -/
def switches (a : Arguments) : List (Switch × String) :=
  (a.config?.map (Switch.config, ·)).toList ++ [(.logLevel, a.logLevel)] ++
    (if a.logFormat = .json then [(.logJson, "")] else []) ++
    (if a.denyUnknown then [(.denyUnknown, "")] else []) ++
    (a.maxDepth?.map (Switch.maxDepth, toString ·)).toList

/-- Words that ask for a task with its settings. -/
def words (a : Arguments) : List String :=
  switchWords a.switches ++
    a.task.verb.name :: (switchWords a.task.switches ++ operandWords a.task.operand?)

/-- What words can ask for: a depth has 64 bits. -/
structure IsSayable (a : Arguments) : Prop where
  depth : ∀ depth ∈ a.maxDepth?, (depth : Int) ≤ IntegerKind.unsignedLong.max
  task : a.task.IsSayable

theorem depthOfWord?_toString {n : Nat} (h : (n : Int) ≤ IntegerKind.unsignedLong.max) :
    depthOfWord? (toString n) = some n := by
  have hinteger : Number.integer? (IntegerKind.unsignedLong.min < 0) (toString n).toList =
      some (n : Int) := Number.integer?_toString (n := (n : Int)) fun hneg => by omega
  have hbounds : IntegerKind.unsignedLong.min ≤ (n : Int) ∧
      (n : Int) ≤ IntegerKind.unsignedLong.max := ⟨Int.natCast_nonneg n, h⟩
  rw [depthOfWord?, Number.Bounded.ofText?, hinteger, Option.bind_some, Number.Bounded.ofInt?,
    dif_pos hbounds]
  rfl

theorem takes_switches {a : Arguments} (h : a.IsSayable) :
    ∀ p ∈ a.switches, p.1.Takes none p.2 := by
  simp only [switches, List.forall_mem_append]
  refine ⟨⟨⟨⟨?config, ?level⟩, ?json⟩, ?deny⟩, ?depth⟩
  case config =>
    intro p hp
    obtain ⟨path, -, rfl⟩ := Option.map_eq_some_iff.mp (Option.mem_toList.mp hp)
    exact ⟨rfl, ⟨nofun, nofun⟩, rfl, nofun⟩
  case level => exact List.forall_mem_singleton.mpr ⟨rfl, ⟨nofun, nofun⟩, rfl, nofun⟩
  case json =>
    split
    · exact List.forall_mem_singleton.mpr ⟨rfl, ⟨nofun, nofun⟩, rfl, fun _ => rfl⟩
    · exact List.forall_mem_nil _
  case deny =>
    split
    · exact List.forall_mem_singleton.mpr ⟨rfl, ⟨nofun, nofun⟩, rfl, fun _ => rfl⟩
    · exact List.forall_mem_nil _
  case depth =>
    intro p hp
    obtain ⟨n, hn, rfl⟩ := Option.map_eq_some_iff.mp (Option.mem_toList.mp hp)
    refine ⟨rfl, ⟨nofun, nofun⟩, ?_, nofun⟩
    rw [Switch.admits, depthOfWord?_toString (h.depth n hn)]
    rfl

theorem nodup_switches (a : Arguments) : (a.switches.map (·.1)).Nodup := by
  obtain ⟨config?, level, logFormat, deny, depth?, task⟩ := a
  cases config? <;> cases logFormat <;> cases deny <;> cases depth? <;> simp [switches]

theorem kindOfWord?_name (kind : DocumentKind) : kindOfWord? kind.name = some (some kind) := by
  cases kind <;> decide

theorem takes_kind {verb : Verb} (hverb : Switch.kind.admittedAt (some verb) = true)
    {kind? : Option DocumentKind} :
    ∀ p ∈ (kind?.map (Switch.kind, ·.name)).toList, p.1.Takes (some verb) p.2 := by
  intro p hp
  obtain ⟨kind, -, rfl⟩ := Option.map_eq_some_iff.mp (Option.mem_toList.mp hp)
  exact ⟨hverb, ⟨nofun, nofun⟩, by rw [Switch.admits, kindOfWord?_name]; rfl, nofun⟩

theorem operand_of_isSayable {t : Task} (h : t.IsSayable) :
    ∀ operand ∈ t.operand?, operand = "" → t.verb = .describe := by
  rintro operand hoperand rfl
  cases t with
  | check file kind? => exact absurd (Option.some.inj hoperand) h
  | present file kind? => exact absurd (Option.some.inj hoperand) h
  | format file output? kind? => exact absurd (Option.some.inj hoperand) h.1
  | describe name? asJson => rfl

theorem takes_taskSwitches {t : Task} (h : t.IsSayable) :
    ∀ p ∈ t.switches, p.1.Takes (some t.verb) p.2 := by
  cases t with
  | check file kind? => exact takes_kind rfl
  | present file kind? => exact takes_kind rfl
  | format file output? kind? =>
    refine List.forall_mem_append.mpr ⟨fun p hp => ?_, takes_kind rfl⟩
    obtain ⟨target, htarget, rfl⟩ := Option.map_eq_some_iff.mp (Option.mem_toList.mp hp)
    exact ⟨rfl, ⟨nofun, nofun⟩, by simpa [Switch.admits] using h.2 target htarget, nofun⟩
  | describe name? asJson =>
    cases asJson with
    | true => exact List.forall_mem_singleton.mpr ⟨rfl, ⟨nofun, nofun⟩, rfl, fun _ => rfl⟩
    | false => exact List.forall_mem_nil _

theorem nodup_taskSwitches (t : Task) : (t.switches.map (·.1)).Nodup := by
  rcases t with ⟨file, kind?⟩ | ⟨file, output?, kind?⟩ | ⟨file, kind?⟩ | ⟨name?, asJson⟩
  · cases kind? <;> simp [Task.switches]
  · cases output? <;> cases kind? <;> simp [Task.switches]
  · cases kind? <;> simp [Task.switches]
  · cases asJson <;> simp [Task.switches]

/-- What stands behind a command is what its task is made of. -/
theorem task_of_switches (t : Task) :
    t.verb.task { values := t.switches, operands := t.operand?.toList } = .ok t := by
  rcases t with
    ⟨file, _ | kind⟩ | ⟨file, _ | target, _ | kind⟩ | ⟨file, _ | kind⟩ | ⟨_ | name, asJson⟩
  case describe.none | describe.some => cases asJson <;> rfl
  case check.some | format.none.some | format.some.some | present.some => cases kind <;> rfl
  all_goals rfl

/-- A switch that may stand in front of the command is not among those of the task. -/
theorem lookup_taskSwitches {s : Switch} (h : s.admittedAt none = true) (t : Task) :
    t.switches.lookup s = none := by
  have hbehind : ∀ p ∈ t.switches, p.1.admittedAt none = false := by
    rcases t with ⟨file, kind?⟩ | ⟨file, output?, kind?⟩ | ⟨file, kind?⟩ | ⟨name?, asJson⟩
    · cases kind? <;> simp [Task.switches, Switch.admittedAt]
    · cases output? <;> cases kind? <;> simp [Task.switches, Switch.admittedAt]
    · cases kind? <;> simp [Task.switches, Switch.admittedAt]
    · cases asJson <;> simp [Task.switches, Switch.admittedAt]
  rw [List.lookup_eq_none_iff]
  rintro p hp
  refine bne_iff_ne.mpr fun heq => ?_
  rw [heq, hbehind p hp] at h
  cases h

/-- The switches in front of a command say what its settings are. -/
theorem lookup_switches (a : Arguments) :
    a.switches.lookup .config = a.config? ∧ a.switches.lookup .logLevel = some a.logLevel ∧
      (a.switches.lookup .logJson).isSome = decide (a.logFormat = .json) ∧
      (a.switches.lookup .denyUnknown).isSome = a.denyUnknown ∧
      a.switches.lookup .maxDepth = a.maxDepth?.map (toString ·) := by
  obtain ⟨config?, level, logFormat, deny, depth?, task⟩ := a
  cases config? <;> cases logFormat <;> cases deny <;> cases depth? <;>
    exact ⟨rfl, rfl, rfl, rfl, rfl⟩

/-- **Words are read as what they ask for.** -/
theorem ofWords_words {a : Arguments} (h : a.IsSayable) (config? : Option String) :
    ofWords config? a.words = .ok { a with config? := a.config?.or config? } := by
  have hbefore := readWords_switches (g := {}) (takes_switches h) (nodup_switches a)
    (a.task.verb.name :: (switchWords a.task.switches ++ operandWords a.task.operand?))
  have hbehind := readWords_switches (g := {}) (takes_taskSwitches h.task)
    (nodup_taskSwitches a.task) (operandWords a.task.operand?)
  rw [readWords_operand rfl (operand_of_isSayable h.task)] at hbehind
  rw [readWords_verb] at hbefore
  obtain ⟨hconfig, hlevel, hjson, hdeny, hdepth⟩ := lookup_switches a
  have hformat : (if decide (a.logFormat = .json) = true then LogFormat.json else .pretty) =
      a.logFormat := by
    cases a.logFormat <;> rfl
  have hread : (a.maxDepth?.map (toString ·)).bind depthOfWord? = a.maxDepth? := by
    cases hdepth? : a.maxDepth? with
    | none => rfl
    | some n => exact depthOfWord?_toString (h.depth n hdepth?)
  have hglobal (s : Switch) (hs : s.admittedAt none = true) :
      (a.task.switches.lookup s).or (a.switches.lookup s) = a.switches.lookup s := by
    rw [lookup_taskSwitches hs]
    rfl
  rw [ofWords, words, hbefore]
  simp only [bind, Except.bind, hbehind, List.nil_append, task_of_switches, Given.value?,
    hglobal .config rfl, hglobal .logLevel rfl, hglobal .logJson rfl, hglobal .denyUnknown rfl,
    hglobal .maxDepth rfl]
  rw [hconfig, hlevel, hjson, hdeny, hdepth, hformat, hread]
  rfl

end Arguments

/-! ### What is read from words -/

/-- If something comes of a computation, it has a property. -/
def Yields {ε α : Type} (P : α → Prop) (x : Except ε α) : Prop :=
  ∀ a, x = .ok a → P a

namespace Yields

variable {ε α β : Type} {P : α → Prop} {Q : β → Prop} {x : Except ε α}

theorem ok {a : α} (h : P a) : Yields P (.ok a : Except ε α) := by
  rintro _ ⟨⟩
  exact h

theorem error (e : ε) : Yields P (.error e : Except ε α) :=
  nofun

theorem bind (h : Yields P x) {f : α → Except ε β} (hf : ∀ a, P a → Yields Q (f a)) :
    Yields Q (x >>= f) := by
  cases x with
  | error e => exact error e
  | ok a => exact hf a (h a rfl)

theorem map (h : Yields P x) {f : α → β} (hf : ∀ a, P a → Q (f a)) : Yields Q (x.map f) := by
  cases x with
  | error e => exact error e
  | ok a => exact ok (hf a (h a rfl))

end Yields

/-- What has been given can be what words say: each switch takes its value, and only the
description of a type may be asked for by an empty name. -/
structure Given.IsSound (verb? : Option Verb) (g : Given) : Prop where
  admits : ∀ p ∈ g.values, p.1.admits p.2 = true
  operands : ∀ operand ∈ g.operands, operand = "" → verb? = some .describe

section Sound

variable {verb? : Option Verb} {g : Given}

theorem Given.isSound_empty : IsSound verb? {} :=
  ⟨List.forall_mem_nil _, List.forall_mem_nil _⟩

theorem Given.addSwitch_isSound (h : g.IsSound verb?) (s : Switch) (value : String) :
    Yields (IsSound verb?) (g.addSwitch s value) := by
  unfold addSwitch
  split_ifs with hhelp hversion hgiven hadmits
  · exact .error _
  · exact .error _
  · exact .error _
  · refine .ok ⟨?_, h.operands⟩
    exact List.forall_mem_append.mpr ⟨h.admits, List.forall_mem_singleton.mpr hadmits⟩
  · exact .error _

theorem Given.addOperand_isSound (h : g.IsSound verb?) (word : String) :
    Yields (IsSound verb?) (g.addOperand verb? word) := by
  unfold addOperand
  cases verb? with
  | none => exact .error _
  | some verb =>
    dsimp only
    split_ifs with hgiven hempty
    · exact .error _
    · exact .error _
    · refine .ok ⟨h.admits, List.forall_mem_singleton.mpr ?_⟩
      rintro rfl
      simpa using hempty

theorem Given.addLong_isSound (h : g.IsSound verb?) (word : List Char) :
    Yields (fun r => IsSound verb? r.1) (g.addLong verb? word) := by
  unfold addLong
  dsimp only
  split
  · exact .error _
  · split
    · exact .ok h
    · exact (addSwitch_isSound h _ _).map fun _ hg => hg
  · split
    · exact (addSwitch_isSound h _ _).map fun _ hg => hg
    · exact .error _

theorem Given.addLetters_isSound (h : g.IsSound verb?) (letters : List Char) :
    Yields (fun r => IsSound verb? r.1) (g.addLetters verb? letters) := by
  induction letters generalizing g with
  | nil => exact .ok h
  | cons c r ih =>
    unfold addLetters
    cases Switch.ofLetter? verb? c with
    | none => exact .error _
    | some s =>
      dsimp only
      split
      · split
        · exact .ok h
        · exact (addSwitch_isSound h _ _).map fun _ hg => hg
        · exact (addSwitch_isSound h _ _).map fun _ hg => hg
      · exact (addSwitch_isSound h s "").bind fun _ hg => ih hg

/-- Every word keeps what has been given sound. -/
theorem readWords_isSound (h : g.IsSound verb?) (awaiting : Option Switch) (operandsOnly : Bool)
    (words : List String) :
    Yields (fun r => r.1.IsSound verb?) (readWords verb? g awaiting operandsOnly words) := by
  induction words generalizing g awaiting operandsOnly with
  | nil =>
    cases awaiting with
    | none => exact .ok h
    | some s => exact .error _
  | cons word words ih =>
    unfold readWords
    cases awaiting with
    | some s =>
      dsimp only
      split
      · exact .error _
      · exact (Given.addSwitch_isSound h s word).bind fun _ hg => ih hg none operandsOnly
    | none =>
      dsimp only
      split
      · exact (Given.addOperand_isSound h word).bind fun _ hg => ih hg none true
      · split
        · exact .ok h
        · split_ifs with hhelp hhyphens
          · exact .error _
          · exact ih h none true
          · split
            · exact (Given.addLong_isSound h _).bind fun r hg => ih hg r.2 false
            · exact (Given.addLetters_isSound h _).bind fun r hg => ih hg r.2 false
            · exact (Given.addOperand_isSound h word).bind fun _ hg => ih hg none false

theorem Given.admits_of_value? (h : g.IsSound verb?) {s : Switch} {value : String}
    (hvalue : g.value? s = some value) : s.admits value = true := by
  obtain ⟨before, behind, hvalues, -⟩ := List.lookup_eq_some_iff.mp hvalue
  exact h.admits (s, value) (by rw [hvalues]; exact List.mem_append_right _ List.mem_cons_self)

theorem Verb.task_isSayable {verb : Verb} (h : g.IsSound (some verb)) :
    Yields Task.IsSayable (verb.task g) := by
  have hfile {file : String} (hhead : g.operands.head? = some file) (hverb : verb ≠ .describe) :
      file ≠ "" := fun hempty =>
    hverb (Option.some.inj (h.operands file (List.mem_of_head? hhead) hempty))
  have houtput : ∀ target ∈ g.value? .output, target ≠ "" := fun target htarget => by
    simpa [Switch.admits] using Given.admits_of_value? h htarget
  unfold task
  dsimp only
  split
  · exact .ok trivial
  · exact .error _
  · rename_i hhead
    exact .ok (hfile hhead nofun)
  · rename_i hhead
    exact .ok ⟨hfile hhead nofun, houtput⟩
  · rename_i hhead
    exact .ok (hfile hhead nofun)

end Sound

namespace Arguments

theorem le_of_depthOfWord? {word : String} {n : Nat} (h : depthOfWord? word = some n) :
    (n : Int) ≤ IntegerKind.unsignedLong.max := by
  obtain ⟨b, -, rfl⟩ := Option.map_eq_some_iff.mp h
  rw [Int.toNat_of_nonneg b.lo_le]
  exact b.le_hi

/-- **Only what can be said is read.** -/
theorem isSayable_of_ofWords (config? : Option String) (words : List String) :
    Yields IsSayable (ofWords config? words) := by
  refine (readWords_isSound Given.isSound_empty none false words).bind fun r _ => ?_
  obtain ⟨before, _ | ⟨verb, words⟩⟩ := r
  · exact .error _
  · refine (readWords_isSound Given.isSound_empty none false words).bind fun r hbehind => ?_
    refine (Verb.task_isSayable hbehind).bind fun task htask => .ok ⟨fun depth hdepth => ?_, htask⟩
    obtain ⟨word, -, hword⟩ := Option.bind_eq_some_iff.mp hdepth
    exact le_of_depthOfWord? hword

/-- So words of any spelling ask for the same as those in long form. -/
theorem ofWords_words_of_ofWords {config? : Option String} {words : List String} {a : Arguments}
    (h : ofWords config? words = .ok a) : ofWords none a.words = .ok a := by
  rw [ofWords_words (isSayable_of_ofWords config? words a h) none, Option.or_none]

end Arguments

end GuestXml.Command
