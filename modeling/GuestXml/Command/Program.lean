import GuestXml.Command.Arguments
import GuestXml.Command.Settings

/-!
# The program

What the program does with its words: it checks the settings of the log, reads its own
settings, and runs the command. It asks a host for files, so that what it does can be told
for any host. The outcome is what is printed, or why the program failed.
-/

namespace GuestXml.Command

/-! ### The host -/

/-- What comes of reading a file. -/
inductive FileContent where
  | text (s : String)
  /-- There is no such file. -/
  | absent
  /-- There is something, but it cannot be read as text. -/
  | unreadable
  deriving DecidableEq, Repr

/-- What the program asks its host for. -/
structure Host (m : Type → Type) where
  /-- Reads a file. -/
  read : String → m FileContent
  /-- Writes a file, and says whether that succeeded. -/
  write : String → String → m Bool

/-! ### Failures -/

/-- The ways the program fails. -/
inductive ProgramFailure where
  | logLevel (level : String)
  | configAbsent (path : String)
  | configUnreadable (path : String)
  | configMalformed (path : String)
  | unreadable (path : String)
  | unwritable (path : String)
  | check (path : String) (cause : Failure)
  | format (path : String) (cause : Failure)
  | present (path : String) (cause : Failure)
  | describe (cause : Failure)
  deriving DecidableEq, Repr

namespace ProgramFailure

/-- What the program itself says about a failure. -/
def own : ProgramFailure → List String
  | logLevel level => ["Invalid log level '" ++ level ++ "'"]
  | configAbsent path => ["Config file not found: " ++ path]
  | configUnreadable path => ["Failed to read config file: " ++ path]
  | configMalformed path => ["Failed to parse config file: " ++ path]
  | unreadable path => ["Failed to read " ++ path]
  | unwritable path => ["Failed to write " ++ path]
  | check path _ => [path ++ " is not valid"]
  | format path _ => ["Failed to format " ++ path]
  | present path _ => ["Failed to load " ++ path]
  | describe _ => []

/-- The failure of a command at the bottom. -/
def failure? : ProgramFailure → Option Failure
  | check _ cause | format _ cause | present _ cause | describe cause => some cause
  | _ => none

/-- The error of loading or saving at the bottom. -/
def cause? (f : ProgramFailure) : Option Error :=
  f.failure?.bind (·.cause?)

/-- What is said before the error of loading or saving, or instead of one. -/
def context (f : ProgramFailure) : List String :=
  f.own ++ (f.failure?.map (·.context)).getD []

/-- All messages, each the cause of the one before it. -/
def messages (f : ProgramFailure) : List String :=
  f.context ++ (f.cause?.map (·.message)).toList

end ProgramFailure

/-- How the program ends. -/
inductive Outcome where
  /-- It prints a text. -/
  | done (output : String)
  /-- It tells how it is used. -/
  | help
  /-- Its words are wrong. -/
  | misused (e : UsageError)
  | failed (f : ProgramFailure)
  /-- It breaks off without a message. -/
  | aborted
  deriving DecidableEq, Repr

/-- The code the program ends with. -/
def Outcome.exitCode : Outcome → Nat
  | .done _ | .help => 0
  | .failed _ => 1
  | .misused _ => 2
  | .aborted => 101

/-! ### Running -/

/-- The name and version of the program. -/
def version : String := "virtxml 0.1.27"

/-- Settings with what the words say instead. -/
def Settings.withArguments (s : Settings) (a : Arguments) : Settings :=
  { s with
    load.denyUnknown := s.load.denyUnknown || a.denyUnknown
    load.maxDepth := a.maxDepth?.getD s.load.maxDepth }

/-- The settings in a file. -/
def Settings.ofContent (path : String) : FileContent → Except ProgramFailure Settings
  | .absent => .error (.configAbsent path)
  | .unreadable => .error (.configUnreadable path)
  | .text s =>
    match Settings.ofText? s with
    | some settings => .ok settings
    | none => .error (.configMalformed path)

section Running

variable {m : Type → Type} [Monad m] (host : Host m)

/-- Reads the settings that words name, which have to be there, or those in the usual place,
which need not. -/
def readSettings (a : Arguments) : m (Except ProgramFailure Settings) := do
  match a.config? with
  | some path =>
    return (Settings.ofContent path (← host.read path)).map (·.withArguments a)
  | none =>
    let path := Settings.defaultPath
    let settings := (Settings.ofContent path (← host.read path)).toOption.getD {}
    return .ok (settings.withArguments a)

/-- Runs a command on the text of a file. -/
def onFile (path : String) (command : String → m Outcome) : m Outcome := do
  match ← host.read path with
  | .text s => command s
  | _ => return .failed (.unreadable path)

/-- Runs a task. What it prints ends with a line break. -/
def runTask (settings : Settings) : Task → m Outcome
  | .check path kind? => onFile host path fun xml =>
    match check xml kind? settings.load with
    | .error f => return .failed (.check path f)
    | .ok text => return .done (text ++ "\n")
  | .format path output? kind? => onFile host path fun xml => do
    match format xml kind? settings.load settings.output, output? with
    | .error .aborted, _ => return .aborted
    | .error (.failed f), _ => return .failed (.format path f)
    | .ok text, none => return .done text
    | .ok text, some target =>
      return if ← host.write target text then .done "" else .failed (.unwritable target)
  | .present path kind? => onFile host path fun xml =>
    match showJson xml kind? settings.load settings.output with
    | .error f => return .failed (.present path f)
    | .ok text => return .done (text ++ "\n")
  | .describe name? asJson =>
    match describe name? asJson with
    | .error f => return .failed (.describe f)
    | .ok text => return .done (text ++ "\n")

/-- Runs what the words ask for. -/
def runArguments (a : Arguments) : m Outcome := do
  match checkLogFilter a.logLevel with
  | .error .malformed => return .failed (.logLevel a.logLevel)
  | .error .severed => return .aborted
  | .ok () =>
    match ← readSettings host a with
    | .error f => return .failed f
    | .ok settings => runTask host settings a.task

/-- Runs the program on its words. `config?` names the settings if no word does. -/
def run (config? : Option String) (words : List String) : m Outcome := do
  match Arguments.ofWords config? words with
  | .error (.usage e) => return .misused e
  | .error .help => return .help
  | .error .version => return .done (version ++ "\n")
  | .ok a => runArguments host a

end Running

end GuestXml.Command
