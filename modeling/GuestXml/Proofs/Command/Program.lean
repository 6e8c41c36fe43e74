import GuestXml.Command.Program
import GuestXml.Proofs.Command.Agreement
import GuestXml.Proofs.Command.Arguments

/-!
# Runs of the program

What the program does to the files of its host, and how its commands fit together when they
are run. The host is any state with files, of which little is assumed: reading changes nothing
(`Host.ReadsOnly`), and a file keeps what is written to it (`Host.Keeps`). Main statements:

* `run_writes_output_only`: a run changes nothing, or it has formatted a document and written
  the text to the file that its words name.
* `run_concur`: with one file and the same settings, the three commands on documents end in
  the same way before they get to it, or they fail for the same cause, or checking and showing
  succeed and formatting does unless it breaks off.
* `check_formatted`: a file that a document was formatted into passes the check as a
  document of the same kind.
-/

namespace GuestXml.Command

variable {σ : Type} {host : Host (StateM σ)}

/-! ### Hosts -/

namespace Host

/-- What a file has in it. -/
def content (host : Host (StateM σ)) (path : String) (s : σ) : FileContent :=
  ((host.read path).run s).1

/-- Reading a file changes nothing. -/
def ReadsOnly (host : Host (StateM σ)) : Prop :=
  ∀ path s, ((host.read path).run s).2 = s

/-- A file has in it what was written to it. -/
def Keeps (host : Host (StateM σ)) (path : String) : Prop :=
  ∀ text s s', (host.write path text).run s = (true, s') → host.content path s' = .text text

theorem ReadsOnly.run_read (h : host.ReadsOnly) (path : String) (s : σ) :
    (host.read path).run s = (host.content path s, s) :=
  Prod.ext rfl (h path s)

/-- Files in memory, by path, all of which can be written. -/
def memory : Host (StateM (String → FileContent)) where
  read path := return (← get) path
  write path text := modifyGet fun files => (true, Function.update files path (.text text))

theorem memory_readsOnly : memory.ReadsOnly :=
  fun _ _ => rfl

theorem memory_keeps (path : String) : memory.Keeps path := by
  intro text s s' h
  cases h
  exact Function.update_self path (FileContent.text text) s

end Host

/-! ### Tasks on a file -/

section Tasks

variable {path xml : String} {kind? : Option DocumentKind} {settings : Settings} {s : σ}

theorem onFile_of_text (hreads : host.ReadsOnly) (h : host.content path s = .text xml)
    (command : String → StateM σ Outcome) :
    (onFile host path command).run s = (command xml).run s := by
  rw [onFile, StateT.run_bind, hreads.run_read, h]
  rfl

theorem onFile_of_not_text (hreads : host.ReadsOnly) (h : ∀ xml, host.content path s ≠ .text xml)
    (command : String → StateM σ Outcome) :
    (onFile host path command).run s = (.failed (.unreadable path), s) := by
  rw [onFile, StateT.run_bind, hreads.run_read]
  cases hcontent : host.content path s with
  | text xml => exact absurd hcontent (h xml)
  | absent => rfl
  | unreadable => rfl

/-- The file that a task is about. -/
def Task.file? : Task → Option String
  | check file _ | format file _ _ | present file _ => some file
  | describe _ _ => none

theorem runTask_of_not_text (hreads : host.ReadsOnly) {task : Task} (hfile : task.file? = some path)
    (h : ∀ xml, host.content path s ≠ .text xml) :
    (runTask host settings task).run s = (.failed (.unreadable path), s) := by
  cases task with
  | describe name? asJson => cases hfile
  | _ =>
    obtain rfl := Option.some.inj hfile
    exact onFile_of_not_text hreads h _

theorem runTask_check (hreads : host.ReadsOnly) (h : host.content path s = .text xml) :
    (runTask host settings (.check path kind?)).run s =
      (match check xml kind? settings.load with
        | .error f => .failed (.check path f)
        | .ok text => .done (text ++ "\n"), s) := by
  rw [runTask, onFile_of_text hreads h]
  cases check xml kind? settings.load <;> rfl

theorem runTask_present (hreads : host.ReadsOnly) (h : host.content path s = .text xml) :
    (runTask host settings (.present path kind?)).run s =
      (match showJson xml kind? settings.load settings.output with
        | .error f => .failed (.present path f)
        | .ok text => .done (text ++ "\n"), s) := by
  rw [runTask, onFile_of_text hreads h]
  cases showJson xml kind? settings.load settings.output <;> rfl

theorem runTask_format (hreads : host.ReadsOnly) (h : host.content path s = .text xml)
    (output? : Option String) :
    (runTask host settings (.format path output? kind?)).run s =
      match format xml kind? settings.load settings.output, output? with
      | .error .aborted, _ => (.aborted, s)
      | .error (.failed f), _ => (.failed (.format path f), s)
      | .ok text, none => (.done text, s)
      | .ok text, some target =>
        let (written, s') := (host.write target text).run s
        (if written then .done "" else .failed (.unwritable target), s') := by
  rw [runTask, onFile_of_text hreads h]
  cases format xml kind? settings.load settings.output with
  | error halt => cases halt <;> rfl
  | ok text => cases output? <;> rfl

theorem runTask_describe (name? : Option String) (asJson : Bool) :
    (runTask host settings (.describe name? asJson)).run s =
      (match describe name? asJson with
        | .error f => .failed (.describe f)
        | .ok text => .done (text ++ "\n"), s) := by
  rw [runTask]
  cases describe name? asJson <;> rfl

end Tasks

/-! ### What a run writes -/

/-- A task has formatted a document and written it, and the outcome says whether the file took
it. -/
inductive Writes (host : Host (StateM σ)) (settings : Settings) (s : σ) :
    Task → Outcome × σ → Prop
  | output {path target xml text : String} {kind? : Option DocumentKind} {written : Bool} {s' : σ} :
      host.content path s = .text xml →
      format xml kind? settings.load settings.output = .ok text →
      (host.write target text).run s = (written, s') →
      Writes host settings s (.format path (some target) kind?)
        (if written then .done "" else .failed (.unwritable target), s')

/-- A task changes nothing, or it writes what it has formatted. -/
theorem runTask_writes (hreads : host.ReadsOnly) (settings : Settings) (task : Task) (s : σ) :
    ((runTask host settings task).run s).2 = s ∨
      Writes host settings s task ((runTask host settings task).run s) := by
  by_cases hunread : ∃ path, task.file? = some path ∧ ∀ xml, host.content path s ≠ .text xml
  · obtain ⟨path, hfile, hcontent⟩ := hunread
    rw [runTask_of_not_text hreads hfile hcontent]
    exact .inl rfl
  · push Not at hunread
    cases task with
    | check path kind? =>
      obtain ⟨xml, hxml⟩ := hunread path rfl
      rw [runTask_check hreads hxml]
      exact .inl rfl
    | present path kind? =>
      obtain ⟨xml, hxml⟩ := hunread path rfl
      rw [runTask_present hreads hxml]
      exact .inl rfl
    | describe name? asJson =>
      rw [runTask_describe]
      exact .inl rfl
    | format path output? kind? =>
      obtain ⟨xml, hxml⟩ := hunread path rfl
      rw [runTask_format hreads hxml]
      cases hformat : format xml kind? settings.load settings.output with
      | error halt =>
        cases halt with
        | aborted => exact .inl rfl
        | failed f => exact .inl rfl
      | ok text =>
        cases output? with
        | none => exact .inl rfl
        | some target => exact .inr (.output hxml hformat rfl)

/-! ### Before the task -/

/-- The settings that words and files come to. -/
def settingsOf (host : Host (StateM σ)) (a : Arguments) (s : σ) : Except ProgramFailure Settings :=
  match a.config? with
  | some path => (Settings.ofContent path (host.content path s)).map (·.withArguments a)
  | none =>
    let path := Settings.defaultPath
    .ok (((Settings.ofContent path (host.content path s)).toOption.getD {}).withArguments a)

theorem run_readSettings (hreads : host.ReadsOnly) (a : Arguments) (s : σ) :
    (readSettings host a).run s = (settingsOf host a s, s) := by
  unfold readSettings settingsOf
  cases a.config? with
  | none =>
    simp only [StateT.run_bind, hreads.run_read]
    rfl
  | some path =>
    simp only [StateT.run_bind, hreads.run_read]
    rfl

/-- What comes before a task does not depend on it: the words are at fault or the settings are,
whatever the task is, or every task is run with the same settings. -/
theorem runArguments_cases (hreads : host.ReadsOnly) (a : Arguments) (s : σ) :
    (∃ o : Outcome, o.exitCode ≠ 0 ∧
        ∀ task, (runArguments host { a with task := task }).run s = (o, s)) ∨
      ∃ settings, (readSettings host a).run s = (.ok settings, s) ∧
        ∀ task, (runArguments host { a with task := task }).run s =
          (runTask host settings task).run s := by
  cases hlog : checkLogFilter a.logLevel with
  | error fault =>
    cases fault with
    | malformed =>
      refine .inl ⟨.failed (.logLevel a.logLevel), Nat.one_ne_zero, fun task => ?_⟩
      simp only [runArguments, hlog]
      rfl
    | severed =>
      refine .inl ⟨.aborted, by decide, fun task => ?_⟩
      simp only [runArguments, hlog]
      rfl
  | ok u =>
    obtain ⟨settings?, hsettings⟩ : ∃ settings?, (readSettings host a).run s = (settings?, s) :=
      ⟨_, run_readSettings hreads a s⟩
    -- The task is not looked at before the settings have been read.
    have hrun (task : Task) : (runArguments host { a with task := task }).run s =
        match settings? with
        | .error f => (.failed f, s)
        | .ok settings => (runTask host settings task).run s := by
      have hsame : (readSettings host { a with task := task }).run s = (settings?, s) := hsettings
      simp only [runArguments, hlog, StateT.run_bind, hsame]
      cases settings? <;> rfl
    cases settings? with
    | error f => exact .inl ⟨.failed f, Nat.one_ne_zero, hrun⟩
    | ok settings => exact .inr ⟨settings, hsettings, hrun⟩

/-- **A run writes its output only.** It changes nothing, or its words ask for a document to be
formatted into a file, and it has done that with the settings that the words and the files
give. -/
theorem run_writes_output_only (hreads : host.ReadsOnly) (config? : Option String)
    (words : List String) (s : σ) :
    ((run host config? words).run s).2 = s ∨
      ∃ a settings, Arguments.ofWords config? words = .ok a ∧
        (readSettings host a).run s = (.ok settings, s) ∧
        Writes host settings s a.task ((run host config? words).run s) := by
  unfold run
  cases hwords : Arguments.ofWords config? words with
  | error stop => cases stop <;> exact .inl rfl
  | ok a =>
    rcases runArguments_cases hreads a s with ⟨o, -, hrun⟩ | ⟨settings, hsettings, hrun⟩
    · exact .inl (congrArg Prod.snd (hrun a.task))
    · have htask : (runArguments host a).run s = (runTask host settings a.task).run s :=
        hrun a.task
      show ((runArguments host a).run s).2 = s ∨ _
      rw [htask]
      rcases runTask_writes hreads settings a.task s with hsame | hwrites
      · exact .inl hsame
      · exact .inr ⟨a, settings, rfl, hsettings, htask ▸ hwrites⟩

/-- A run that breaks off, or fails for another reason than the file it writes, changes nothing. -/
theorem run_state_of_not_written (hreads : host.ReadsOnly) {config? : Option String}
    {words : List String} {s s' : σ} {o : Outcome} (h : (run host config? words).run s = (o, s'))
    (hdone : o ≠ .done "") (hfailed : ∀ target, o ≠ .failed (.unwritable target)) : s' = s := by
  rcases run_writes_output_only hreads config? words s with hsame | ⟨a, settings, -, -, hwrites⟩
  · rw [h] at hsame
    exact hsame
  · rw [h] at hwrites
    generalize a.task = task at hwrites
    cases hwrites with
    | @output _ target _ _ _ written _ _ _ _ =>
      cases written with
      | true => exact absurd rfl hdone
      | false => exact absurd rfl (hfailed target)

/-- Files in memory other than the output that the words name stay as they are. -/
theorem run_memory_of_ne {config? : Option String} {words : List String} {file : String}
    (hother : ∀ a path kind?, Arguments.ofWords config? words = .ok a →
      a.task ≠ .format path (some file) kind?) (s : String → FileContent) :
    ((run Host.memory config? words).run s).2 file = s file := by
  rcases run_writes_output_only Host.memory_readsOnly config? words s with
    hsame | ⟨a, settings, hwords, -, hwrites⟩
  · rw [hsame]
  · have hne := fun path kind? => hother a path kind? hwords
    generalize a.task = task at hwrites hne
    generalize (run Host.memory config? words).run s = result at hwrites
    cases hwrites with
    | @output path target xml text kind? written s' hxml hformat hwrite =>
      have hfile : file ≠ target := fun heq => hne path kind? (by rw [heq])
      cases hwrite
      exact Function.update_of_ne hfile (FileContent.text text) s

/-! ### Commands side by side -/

/-- What checking, formatting and showing one file come to. -/
inductive Concur (path : String) : (checked formatted shown : Outcome) → Prop
  /-- The program does not get as far as the document. -/
  | early {o : Outcome} : o.exitCode ≠ 0 → Concur path o o o
  /-- The document cannot be loaded. -/
  | rejected (f : Failure) :
      Concur path (.failed (.check path f)) (.failed (.format path f)) (.failed (.present path f))
  | accepted (kind : DocumentKind) (text json : String) :
      Concur path (.done ("ok " ++ kind.name ++ "\n")) (.done text) (.done (json ++ "\n"))
  /-- No memory holds the document as it is written. -/
  | severed (kind : DocumentKind) (json : String) :
      Concur path (.done ("ok " ++ kind.name ++ "\n")) .aborted (.done (json ++ "\n"))

theorem Concur.exitCode {path : String} {checked formatted shown : Outcome}
    (h : Concur path checked formatted shown) :
    shown.exitCode = checked.exitCode ∧
      (formatted = .aborted ∨ formatted.exitCode = checked.exitCode) := by
  cases h with
  | severed kind json => exact ⟨rfl, .inl rfl⟩
  | _ => exact ⟨rfl, .inr rfl⟩

theorem runTask_concur (hreads : host.ReadsOnly) (settings : Settings) (path : String)
    (kind? : Option DocumentKind) (s : σ) :
    Concur path ((runTask host settings (.check path kind?)).run s).1
      ((runTask host settings (.format path none kind?)).run s).1
      ((runTask host settings (.present path kind?)).run s).1 := by
  by_cases hunread : ∀ xml, host.content path s ≠ .text xml
  · rw [runTask_of_not_text hreads rfl hunread, runTask_of_not_text hreads rfl hunread,
      runTask_of_not_text hreads rfl hunread]
    exact .early Nat.one_ne_zero
  · push Not at hunread
    obtain ⟨xml, hxml⟩ := hunread
    rw [runTask_check hreads hxml, runTask_format hreads hxml, runTask_present hreads hxml]
    cases hload : load xml kind? settings.load with
    | error f =>
      rw [check, format, showJson, hload]
      exact .rejected f
    | ok d =>
      obtain ⟨e, -, he, -⟩ := exists_toElement_of_load hload
      obtain ⟨json, hjson⟩ := exists_showJson_of_load hload settings.output
      rw [check_of_load hload, hjson, format_of_load hload, Loaded.toXml_of_toElement he]
      cases fitsMemory settings.output.indent e with
      | true => exact .accepted d.kind _ json
      | false => exact .severed d.kind json

/-- **Commands concur.** Whatever the words and the files are, the three commands on a file end
before they get to the document, in the same way; or they cannot load it, for the same cause;
or checking and showing succeed, and formatting does unless no memory holds what is written. -/
theorem runArguments_concur (hreads : host.ReadsOnly) (a : Arguments) (path : String)
    (kind? : Option DocumentKind) (s : σ) :
    Concur path ((runArguments host { a with task := .check path kind? }).run s).1
      ((runArguments host { a with task := .format path none kind? }).run s).1
      ((runArguments host { a with task := .present path kind? }).run s).1 := by
  rcases runArguments_cases hreads a s with ⟨o, ho, hrun⟩ | ⟨settings, -, hrun⟩
  · rw [hrun, hrun, hrun]
    exact .early ho
  · rw [hrun, hrun, hrun]
    exact runTask_concur hreads settings path kind? s

/-! ### Words -/

/-- What can be said is run when it is said. -/
theorem run_words {a : Arguments} (h : a.IsSayable) (config? : Option String) :
    run host config? a.words = runArguments host { a with config? := a.config?.or config? } := by
  rw [run, Arguments.ofWords_words h]

/-- A run goes by what its words ask for and not by how they put it. -/
theorem run_eq_run_words {config? : Option String} {words : List String} {a : Arguments}
    (h : Arguments.ofWords config? words = .ok a) :
    run host config? words = run host none a.words := by
  rw [run, h, run, Arguments.ofWords_words_of_ofWords h]

/-- **Runs concur.** The three commands on one file concur when they are run with the same
settings in their words. -/
theorem run_concur (hreads : host.ReadsOnly) {a : Arguments}
    (hdepth : ∀ depth ∈ a.maxDepth?, (depth : Int) ≤ IntegerKind.unsignedLong.max)
    {path : String} (hpath : path ≠ "") (kind? : Option DocumentKind) (config? : Option String)
    (s : σ) :
    Concur path ((run host config? { a with task := .check path kind? }.words).run s).1
      ((run host config? { a with task := .format path none kind? }.words).run s).1
      ((run host config? { a with task := .present path kind? }.words).run s).1 := by
  have hrun (task : Task) (htask : task.IsSayable) :
      run host config? { a with task := task }.words =
        runArguments host { a with config? := a.config?.or config?, task := task } := by
    have hsayable : ({ a with task := task } : Arguments).IsSayable := ⟨hdepth, htask⟩
    exact run_words hsayable config?
  rw [hrun (.check path kind?) hpath, hrun (.format path none kind?) ⟨hpath, nofun⟩,
    hrun (.present path kind?) hpath]
  exact runArguments_concur hreads { a with config? := a.config?.or config? } path kind? s

/-! ### Files that were formatted -/

section Formatted

variable {settings : Settings} {path target : String} {kind? : Option DocumentKind} {s s' : σ}
  {o : Outcome}

/-- A task that has formatted into a file has put the text there that comes of the document. -/
theorem exists_formatted (hreads : host.ReadsOnly) (hkeeps : host.Keeps target)
    (h : (runTask host settings (.format path (some target) kind?)).run s = (o, s'))
    (ho : o.exitCode = 0) :
    ∃ xml text, host.content path s = .text xml ∧
      format xml kind? settings.load settings.output = .ok text ∧
      host.content target s' = .text text := by
  by_cases hunread : ∀ xml, host.content path s ≠ .text xml
  · cases (runTask_of_not_text hreads rfl hunread).symm.trans h
    cases ho
  · push Not at hunread
    obtain ⟨xml, hxml⟩ := hunread
    rw [runTask_format hreads hxml] at h
    cases hformat : format xml kind? settings.load settings.output with
    | error halt =>
      rw [hformat] at h
      cases halt <;> cases h <;> cases ho
    | ok text =>
      rcases hwrite : (host.write target text).run s with ⟨written, s₁⟩
      simp only [hformat, hwrite] at h
      cases written with
      | false =>
        cases h
        cases ho
      | true =>
        cases h
        exact ⟨xml, text, hxml, hformat, hkeeps text s s' hwrite⟩

/-- **Formatted files pass the check.** A file that a document was formatted into passes the
check with the same settings, as a document of the same kind as the one it was made from. -/
theorem check_formatted (hreads : host.ReadsOnly) (hkeeps : host.Keeps target)
    (h : (runTask host settings (.format path (some target) kind?)).run s = (o, s'))
    (ho : o.exitCode = 0) :
    ∃ kind : DocumentKind,
      (runTask host settings (.check path kind?)).run s = (.done ("ok " ++ kind.name ++ "\n"), s) ∧
      (runTask host settings (.check target kind?)).run s' =
        (.done ("ok " ++ kind.name ++ "\n"), s') := by
  obtain ⟨xml, text, hxml, hformat, htext⟩ := exists_formatted hreads hkeeps h ho
  obtain ⟨d, w, hload, hagain⟩ := exists_load_of_format hformat
  refine ⟨d.kind, ?_, ?_⟩
  · rw [runTask_check hreads hxml, check_of_load hload]
  · rw [runTask_check hreads htext, check_of_load hagain]

/-- A file that is formatted in place stays as it is from the second time on. -/
theorem content_format_in_place (hreads : host.ReadsOnly) (hkeeps : host.Keeps path)
    {s₁ s₂ s₃ : σ} {o₁ o₂ o₃ : Outcome}
    (h₁ : (runTask host settings (.format path (some path) kind?)).run s = (o₁, s₁))
    (h₂ : (runTask host settings (.format path (some path) kind?)).run s₁ = (o₂, s₂))
    (h₃ : (runTask host settings (.format path (some path) kind?)).run s₂ = (o₃, s₃))
    (ho₁ : o₁.exitCode = 0) (ho₂ : o₂.exitCode = 0) (ho₃ : o₃.exitCode = 0) :
    host.content path s₃ = host.content path s₂ := by
  obtain ⟨xml, text, -, hformat, htext⟩ := exists_formatted hreads hkeeps h₁ ho₁
  obtain ⟨xml₁, text₁, hxml₁, hformat₁, htext₁⟩ := exists_formatted hreads hkeeps h₂ ho₂
  obtain ⟨xml₂, text₂, hxml₂, hformat₂, htext₂⟩ := exists_formatted hreads hkeeps h₃ ho₃
  obtain rfl : text = xml₁ := FileContent.text.inj (htext.symm.trans hxml₁)
  obtain rfl : text₁ = xml₂ := FileContent.text.inj (htext₁.symm.trans hxml₂)
  rw [htext₁, htext₂, Except.ok.inj (hformat₂.symm.trans (format_settles hformat hformat₁))]

end Formatted

end GuestXml.Command
