import GuestXml.Proofs.Command.Program
import GuestXml.Proofs.Yaml.Document

/-!
# Settings are read as they are said

A file of settings says some of the four values that there are, and leaves out the others.
Main statements:

* `Settings.ofText?_text`: the settings read from the text of what is said are the ones that
  are said, and those there are by default where nothing is. So every setting can be said.
* `run_said`: a run goes by its words first, then by what the file of settings says, and then
  by what there is by default.
-/

namespace GuestXml.Command

open Schema (LoadOptions)
open Yaml (Outline Document IsWord)

namespace Settings

/-! ### What a file says -/

/-- What a file says about the settings. -/
structure Said where
  maxDepth? : Option Nat := none
  denyUnknown? : Option Bool := none
  indent? : Option Nat := none
  jsonPretty? : Option Bool := none

/-- An entry with a value, if there is one. -/
def entry {α : Type} [ToString α] (key : String) (value? : Option α) : List (String × Outline) :=
  (value?.map fun value => (key, .word (toString value))).toList

namespace Said

/-- The numbers that are said have 64 bits. -/
structure Fits (said : Said) : Prop where
  maxDepth : ∀ n ∈ said.maxDepth?, n < 18446744073709551616
  indent : ∀ n ∈ said.indent?, n < 18446744073709551616

variable (said : Said)

def load : List (String × Outline) :=
  entry "max_depth" said.maxDepth? ++ entry "deny_unknown" said.denyUnknown?

def output : List (String × Outline) :=
  entry "indent" said.indent? ++ entry "json_pretty" said.jsonPretty?

def outline : List (String × Outline) :=
  [("load", .group said.load), ("output", .group said.output)]

/-- What is said, with `step` blanks in front of every value. -/
def text (step : Nat) : String :=
  String.ofList (Outline.entriesText step 0 said.outline)

/-- The settings that are said, or are there by default. -/
def settings : Settings where
  load := {
    maxDepth := said.maxDepth?.getD ({} : LoadOptions).maxDepth
    denyUnknown := said.denyUnknown?.getD ({} : LoadOptions).denyUnknown }
  output := {
    indent := said.indent?.getD ({} : OutputOptions).indent
    jsonPretty := said.jsonPretty?.getD ({} : OutputOptions).jsonPretty }

/-- The settings that words and a file say together; words go first. -/
def settingsWith (a : Arguments) : Settings where
  load := {
    maxDepth := (a.maxDepth?.or said.maxDepth?).getD ({} : LoadOptions).maxDepth
    denyUnknown := a.denyUnknown || said.denyUnknown?.getD ({} : LoadOptions).denyUnknown }
  output := said.settings.output

end Said

/-! ### Words -/

theorem isWord_nat {n : Nat} (hn : n < 18446744073709551616) : IsWord (toString n) := by
  have hdigits : (toString n).toList = Nat.toDigits 10 n := Nat.toList_repr
  refine ⟨?_, ?_, ?_⟩
  · rw [hdigits]
    exact Nat.toDigits_ne_nil
  · intro c hc
    rw [hdigits] at hc
    simp [Yaml.isWordChar, Char.isAlphanum, Number.isDigit_of_mem_decimal hc]
  · have hle : (Nat.toDigits 10 n).length ≤ 20 :=
      (Nat.length_toDigits_le_iff (by decide) (by decide)).mpr (Nat.lt_trans hn (by decide))
    rw [hdigits]
    exact Nat.le_trans hle (by decide)

theorem isWord_bool (b : Bool) : IsWord (toString b) := by
  cases b <;> decide

theorem allProper_append {es es' : List (String × Outline)} (h : Outline.AllProper es)
    (h' : Outline.AllProper es') : Outline.AllProper (es ++ es') := by
  induction es with
  | nil => exact h'
  | cons e es ih => exact ⟨h.1, h.2.1, ih h.2.2⟩

theorem allProper_entry {α : Type} [ToString α] {key : String} {value? : Option α}
    (hkey : IsWord key) (hvalue : ∀ value ∈ value?, IsWord (toString value)) :
    Outline.AllProper (entry key value?) := by
  cases value? with
  | none => trivial
  | some value => exact ⟨hkey, hvalue value rfl, trivial⟩

theorem Said.allProper_outline {said : Said} (h : said.Fits) :
    Outline.AllProper said.outline := by
  have hload : Outline.AllProper said.load :=
    allProper_append
      (allProper_entry (by decide) fun n hn => isWord_nat (h.maxDepth n hn))
      (allProper_entry (by decide) fun b _ => isWord_bool b)
  have houtput : Outline.AllProper said.output :=
    allProper_append
      (allProper_entry (by decide) fun n hn => isWord_nat (h.indent n hn))
      (allProper_entry (by decide) fun b _ => isWord_bool b)
  exact ⟨by decide, hload, by decide, houtput, trivial⟩

/-! ### Values -/

/-- A value is the one that is said under its key, if only that key has it. -/
theorem valueOr_entry {α : Type} [ToString α] {read : Yaml.Node → Option α} (other : α)
    {key : String} {value? : Option α} {es : List (String × Outline)}
    (hes : es.filter (·.1 == key) = entry key value?)
    (hread : ∀ value ∈ value?, read (Outline.word (toString value)).node = some value) :
    valueOr read other key (es.map fun e => (e.1, e.2.node)) = some (value?.getD other) := by
  have hfilter : (es.map fun e => (e.1, e.2.node)).filter (·.1 == key) =
      (entry key value?).map fun e => (e.1, e.2.node) := by
    rw [← hes, List.filter_map]
    rfl
  rw [valueOr, hfilter]
  cases value? with
  | none => rfl
  | some value => exact hread value rfl

theorem filter_entry {α β : Type} [ToString α] [ToString β] {key key' : String} (hne : key ≠ key')
    (value? : Option α) (value'? : Option β) :
    (entry key value? ++ entry key' value'?).filter (·.1 == key) = entry key value? ∧
      (entry key value? ++ entry key' value'?).filter (·.1 == key') = entry key' value'? := by
  cases value? <;> cases value'? <;> simp [entry, hne, hne.symm]

theorem loadOptions?_node (d : Document) {said : Said} (h : said.Fits) :
    loadOptions? d (Outline.group said.load).node = some said.settings.load := by
  have hne : "max_depth" ≠ "deny_unknown" := by decide
  obtain ⟨hdepth, hdeny⟩ := filter_entry hne said.maxDepth? said.denyUnknown?
  have hmaxDepth := valueOr_entry ({} : LoadOptions).maxDepth hdepth
    fun n hn => d.nat?_toString (h.maxDepth n hn)
  have hdenyUnknown := valueOr_entry ({} : LoadOptions).denyUnknown hdeny
    fun b _ => d.bool?_toString b
  rw [loadOptions?, d.entries?_node]
  simp only [Option.bind_eq_bind, Option.bind_some, Said.load, hmaxDepth, hdenyUnknown]
  rfl

theorem outputOptions?_node (d : Document) {said : Said} (h : said.Fits) :
    outputOptions? d (Outline.group said.output).node = some said.settings.output := by
  have hne : "indent" ≠ "json_pretty" := by decide
  obtain ⟨hind, hjson⟩ := filter_entry hne said.indent? said.jsonPretty?
  have hindent := valueOr_entry ({} : OutputOptions).indent hind
    fun n hn => d.nat?_toString (h.indent n hn)
  have hjsonPretty := valueOr_entry ({} : OutputOptions).jsonPretty hjson
    fun b _ => d.bool?_toString b
  rw [outputOptions?, d.entries?_node]
  simp only [Option.bind_eq_bind, Option.bind_some, Said.output, hindent, hjsonPretty]
  rfl

/-- **Settings are read as they are said**, however deep their lines are set in. -/
theorem ofText?_text {step : Nat} (hstep : 0 < step) {said : Said} (h : said.Fits) :
    ofText? (said.text step) = some said.settings := by
  obtain ⟨d, hd⟩ : ∃ d : Document, { root := (Outline.group said.outline).node } = d := ⟨_, rfl⟩
  have hread : Document.ofText? (said.text step) = some d :=
    hd ▸ Document.ofText?_entriesText hstep (Said.allProper_outline h)
  have hentries : d.entries? d.root =
      some (said.outline.map fun e => (e.1, e.2.node)) := hd ▸ Document.entries?_node _ said.outline
  have hload : valueOr (loadOptions? d) {} "load" (said.outline.map fun e => (e.1, e.2.node)) =
      some said.settings.load := loadOptions?_node d h
  have houtput : valueOr (outputOptions? d) {} "output"
      (said.outline.map fun e => (e.1, e.2.node)) = some said.settings.output :=
    outputOptions?_node d h
  rw [ofText?, hread]
  simp only [Option.bind_eq_bind, Option.bind_some, hentries, hload, houtput]
  rfl

example : (Said.text { maxDepth? := some 16, denyUnknown? := some true } 2) =
    "load:\n  max_depth: 16\n  deny_unknown: true\noutput:\n" := by
  decide

/-- Says all settings. -/
def said (s : Settings) : Said where
  maxDepth? := s.load.maxDepth
  denyUnknown? := s.load.denyUnknown
  indent? := s.output.indent
  jsonPretty? := s.output.jsonPretty

/-- All settings whose numbers have 64 bits can be said. -/
theorem ofText?_said {step : Nat} (hstep : 0 < step) {s : Settings} (h : s.said.Fits) :
    ofText? (s.said.text step) = some s :=
  ofText?_text hstep h

end Settings

/-! ### Runs -/

variable {σ : Type} {host : Host (StateM σ)} {s : σ} {a : Arguments} {said : Settings.Said}
  {step : Nat}

/-- Words go before what the file of settings says. -/
theorem settingsOf_said (hstep : 0 < step) (h : said.Fits)
    (hfile : host.content (a.config?.getD Settings.defaultPath) s = .text (said.text step)) :
    settingsOf host a s = .ok (said.settingsWith a) := by
  have hcontent (path : String) :
      Settings.ofContent path (.text (said.text step)) = .ok said.settings := by
    rw [Settings.ofContent, Settings.ofText?_text hstep h]
  have hsettings : settingsOf host a s = .ok (said.settings.withArguments a) := by
    unfold settingsOf
    cases hconfig : a.config? with
    | none =>
      rw [hconfig, Option.getD_none] at hfile
      simp only [hfile, hcontent]
      rfl
    | some path =>
      rw [hconfig, Option.getD_some] at hfile
      simp only [hfile, hcontent]
      rfl
  have hwith : said.settings.withArguments a = said.settingsWith a := by
    rw [Settings.withArguments, Settings.Said.settingsWith, Bool.or_comm]
    cases a.maxDepth? <;> rfl
  rw [hsettings, hwith]

/-- **A run goes by its words, then by its file of settings**, and then by what there is by
default. -/
theorem run_said (hreads : host.ReadsOnly) {config? : Option String} {words : List String}
    (hwords : Arguments.ofWords config? words = .ok a) (hlog : checkLogFilter a.logLevel = .ok ())
    (hstep : 0 < step) (h : said.Fits)
    (hfile : host.content (a.config?.getD Settings.defaultPath) s = .text (said.text step)) :
    (run host config? words).run s = (runTask host (said.settingsWith a) a.task).run s := by
  have hsettings := (run_readSettings hreads a s).trans
    (congrArg (·, s) (settingsOf_said hstep h hfile))
  have hrun : run host config? words = runArguments host a := by rw [run, hwords]
  rw [hrun, runArguments, hlog]
  simp only [StateT.run_bind, hsettings]
  rfl

end GuestXml.Command
