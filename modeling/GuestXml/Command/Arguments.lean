import GuestXml.Command.Document
import GuestXml.Command.Logging
import GuestXml.Number.Bounded
import GuestXml.Value.Integer

/-!
# Arguments

The words that follow the name of the program: switches that hold for all commands, the
command, and switches and operands of that command. A switch has a long form, and some have
a short form of one letter; a value stands in the next word, or in the same word behind an
equals sign or right behind the letter. Switches for all commands may stand on either side
of the command, and the side behind it wins. Words are read from left to right, and the
first one that is wrong, or asks for help or the version, ends the reading.
-/

namespace GuestXml.Command

/-! ### Switches -/

/-- The commands. -/
inductive Verb where
  | check
  | format
  | present
  | describe
  deriving DecidableEq, Repr

/-- The switches. -/
inductive Switch where
  | config
  | logLevel
  | logJson
  | denyUnknown
  | maxDepth
  | kind
  | output
  | json
  | help
  | version
  deriving DecidableEq, Repr

namespace Verb

/-- All commands. -/
def all : List Verb :=
  [check, format, present, describe]

/-- The word for a command. -/
def name : Verb → String
  | check => "check"
  | format => "format"
  | present => "show"
  | describe => "schema"

/-- The command a word stands for. -/
def ofName? (word : String) : Option Verb :=
  all.find? (·.name == word)

end Verb

namespace Switch

/-- All switches. -/
def all : List Switch :=
  [config, logLevel, logJson, denyUnknown, maxDepth, kind, output, json, help, version]

/-- The long form, without hyphens. -/
def name : Switch → String
  | config => "config"
  | logLevel => "log-level"
  | logJson => "log-json"
  | denyUnknown => "deny-unknown"
  | maxDepth => "max-depth"
  | kind => "kind"
  | output => "output"
  | json => "json"
  | help => "help"
  | version => "version"

/-- The letter of the short form. -/
def letter? : Switch → Option Char
  | config => some 'c'
  | logLevel => some 'l'
  | output => some 'o'
  | help => some 'h'
  | version => some 'V'
  | _ => none

/-- Whether a switch has a value. -/
def takesValue : Switch → Bool
  | config | logLevel | maxDepth | kind | output => true
  | _ => false

/-- Whether a switch may stand behind a command, or in front of all commands. -/
def admittedAt : Switch → Option Verb → Bool
  | kind, verb? => verb? == some .check || verb? == some .format || verb? == some .present
  | output, verb? => verb? == some .format
  | json, verb? => verb? == some .describe
  | version, verb? => verb? == none
  | _, _ => true

/-- The switch with a long form. -/
def ofName? (verb? : Option Verb) (name : String) : Option Switch :=
  all.find? fun s => s.admittedAt verb? && s.name == name

/-- The switch with a letter. -/
def ofLetter? (verb? : Option Verb) (c : Char) : Option Switch :=
  all.find? fun s => s.admittedAt verb? && s.letter? == some c

end Switch

/-- The kind of document a word asks for; `auto` asks for none. -/
def kindOfWord? (word : String) : Option (Option DocumentKind) :=
  if word = "auto" then some none
  else (DocumentKind.all.find? (·.name == word)).map some

/-- The depth a word asks for: an unsigned number of 64 bits. -/
def depthOfWord? (word : String) : Option Nat :=
  (Number.Bounded.ofText? IntegerKind.unsignedLong.min IntegerKind.unsignedLong.max
    word.toList).map (·.val.toNat)

/-- Whether a word can be the value of a switch. -/
def Switch.admits : Switch → String → Bool
  | .maxDepth, word => (depthOfWord? word).isSome
  | .kind, word => (kindOfWord? word).isSome
  | .output, word => !word.isEmpty
  | _, _ => true

/-! ### Reading words -/

/-- What is wrong with the words. -/
inductive UsageError where
  | unknownSwitch (word : String)
  | missingValue (s : Switch)
  | surplusValue (s : Switch)
  | repeated (s : Switch)
  | invalidValue (s : Switch) (value : String)
  | unknownCommand (word : String)
  | surplusOperand (word : String)
  | missingCommand
  | missingFile
  deriving DecidableEq, Repr

/-- The wording of a usage error. -/
def UsageError.message : UsageError → String
  | unknownSwitch word => "unexpected argument '" ++ word ++ "' found"
  | missingValue s => "a value is required for '--" ++ s.name ++ "' but none was supplied"
  | surplusValue s => "unexpected value for '--" ++ s.name ++ "' found; no more were expected"
  | repeated s => "the argument '--" ++ s.name ++ "' cannot be used multiple times"
  | invalidValue s value => "invalid value '" ++ value ++ "' for '--" ++ s.name ++ "'"
  | unknownCommand word => "unrecognized subcommand '" ++ word ++ "'"
  | surplusOperand word => "unexpected argument '" ++ word ++ "' found"
  | missingCommand => "a subcommand is required"
  | missingFile => "the argument '<FILE>' was not provided"

/-- Why the reading of words ends early. -/
inductive Stop where
  | usage (e : UsageError)
  | help
  | version
  deriving DecidableEq, Repr

/-- What has been given on one side of the command. -/
structure Given where
  /-- Switches with their values, which are empty for those that take none. -/
  values : List (Switch × String) := []
  operands : List String := []
  deriving DecidableEq, Repr

namespace Given

/-- The value of a switch that was given. -/
def value? (g : Given) (s : Switch) : Option String :=
  g.values.lookup s

/-- Whether a switch was given. -/
def has (g : Given) (s : Switch) : Bool :=
  (g.value? s).isSome

/-- Takes a switch, which may be given once. -/
def addSwitch (g : Given) (s : Switch) (value : String) : Except Stop Given :=
  if s = .help then .error .help
  else if s = .version then .error .version
  else if g.has s then .error (.usage (.repeated s))
  else if s.admits value then .ok { g with values := g.values ++ [(s, value)] }
  else .error (.usage (.invalidValue s value))

/-- Takes an operand. Each command has one at most, and names of files are not empty. -/
def addOperand (g : Given) (verb? : Option Verb) (word : String) : Except Stop Given :=
  match verb? with
  | none => .error (.usage (.unknownCommand word))
  | some verb =>
    if !g.operands.isEmpty then .error (.usage (.surplusOperand word))
    else if word.isEmpty && verb != .describe then .error (.usage .missingFile)
    else .ok { g with operands := [word] }

/-- Takes a word in long form, without its hyphens. If the value has to stand in the next
word, the switch is returned as well. -/
def addLong (g : Given) (verb? : Option Verb) (word : List Char) :
    Except Stop (Given × Option Switch) :=
  let name := word.takeWhile (· != '=')
  match Switch.ofName? verb? (String.ofList name), word.dropWhile (· != '=') with
  | none, _ => .error (.usage (.unknownSwitch (String.ofList ('-' :: '-' :: name))))
  | some s, [] =>
    if s.takesValue then .ok (g, some s) else (g.addSwitch s "").map (·, none)
  | some s, _ :: value =>
    if s.takesValue then (g.addSwitch s (String.ofList value)).map (·, none)
    else .error (.usage (.surplusValue s))

/-- Takes the letters of a word in short form. A letter that takes a value takes the rest
of the word, or the next word if there is no rest. -/
def addLetters (g : Given) (verb? : Option Verb) :
    List Char → Except Stop (Given × Option Switch)
  | [] => .ok (g, none)
  | c :: r =>
    match Switch.ofLetter? verb? c with
    | none => .error (.usage (.unknownSwitch (String.ofList ['-', c])))
    | some s =>
      if s.takesValue then
        match r with
        | [] => .ok (g, some s)
        | '=' :: value => (g.addSwitch s (String.ofList value)).map (·, none)
        | value => (g.addSwitch s (String.ofList value)).map (·, none)
      else do addLetters (← g.addSwitch s "") verb? r

end Given

/-- Whether a word is meant as a switch where a value is awaited. -/
def isSwitchLike (word : String) : Bool :=
  word.toList.head? == some '-' && word != "-"

/-- What the words behind the command `help` ask for. -/
def helpOn : List String → Stop
  | [] => .help
  | [word] =>
    if (Verb.ofName? word).isSome || word == "help" then .help
    else .usage (.unknownCommand word)
  | _ :: word :: _ => .usage (.unknownCommand word)

/-- Reads the words behind a command to the end, or those in front of all commands up to a
command. `awaiting` is the switch whose value comes next, and `operandsOnly` says whether
two hyphens have been read, behind which no word is a switch. -/
def readWords (verb? : Option Verb) (g : Given) (awaiting : Option Switch)
    (operandsOnly : Bool) : List String → Except Stop (Given × Option (Verb × List String))
  | [] =>
    match awaiting with
    | some s => .error (.usage (.missingValue s))
    | none => .ok (g, none)
  | word :: words =>
    match awaiting with
    | some s =>
      if isSwitchLike word then .error (.usage (.missingValue s))
      else do readWords verb? (← g.addSwitch s word) none operandsOnly words
    | none =>
      if operandsOnly then do readWords verb? (← g.addOperand verb? word) none true words
      else
        match verb?, Verb.ofName? word with
        | none, some verb => .ok (g, some (verb, words))
        | _, _ =>
          if verb? = none ∧ word = "help" then .error (helpOn words)
          else if word = "--" then readWords verb? g none true words
          else
            match word.toList with
            | '-' :: '-' :: name => do
              let (g, awaiting) ← g.addLong verb? name
              readWords verb? g awaiting false words
            | '-' :: c :: letters => do
              let (g, awaiting) ← g.addLetters verb? (c :: letters)
              readWords verb? g awaiting false words
            | _ => do readWords verb? (← g.addOperand verb? word) none false words

/-! ### What is asked for -/

/-- A command with its operands. -/
inductive Task where
  /-- Says whether a document can be loaded. -/
  | check (file : String) (kind? : Option DocumentKind)
  /-- Writes a document in canonical form, into a file if one is named. -/
  | format (file : String) (output? : Option String) (kind? : Option DocumentKind)
  /-- Shows a document as JSON. -/
  | present (file : String) (kind? : Option DocumentKind)
  /-- Shows the layout of a type, or the names of all types. -/
  | describe (name? : Option String) (asJson : Bool)
  deriving DecidableEq, Repr

/-- What the words ask for. -/
structure Arguments where
  config? : Option String
  logLevel : String
  logFormat : LogFormat
  denyUnknown : Bool
  maxDepth? : Option Nat
  task : Task
  deriving DecidableEq, Repr

/-- The task of a command with what was given behind it. -/
def Verb.task (verb : Verb) (g : Given) : Except Stop Task :=
  let kind? := ((g.value? .kind).bind kindOfWord?).join
  match verb, g.operands.head? with
  | .describe, name? => .ok (.describe name? (g.has .json))
  | _, none => .error (.usage .missingFile)
  | .check, some file => .ok (.check file kind?)
  | .format, some file => .ok (.format file (g.value? .output) kind?)
  | .present, some file => .ok (.present file kind?)

/-- Reads all words. `config?` names the settings if no word does. -/
def Arguments.ofWords (config? : Option String) (words : List String) : Except Stop Arguments := do
  match ← readWords none {} none false words with
  | (_, none) => .error (.usage .missingCommand)
  | (before, some (verb, words)) =>
    let (behind, _) ← readWords (some verb) {} none false words
    let value? (s : Switch) : Option String := (behind.value? s).or (before.value? s)
    let task ← verb.task behind
    return {
      config? := (value? .config).or config?
      logLevel := (value? .logLevel).getD "warn"
      logFormat := if (value? .logJson).isSome then .json else .pretty
      denyUnknown := (value? .denyUnknown).isSome
      maxDepth? := (value? .maxDepth).bind depthOfWord?
      task }

end GuestXml.Command
