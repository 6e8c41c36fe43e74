import GuestXml.Command.Document
import GuestXml.Yaml.Document

/-!
# Settings

How documents are loaded and results written, as read from a file of settings. Whatever the
file does not say stays as it is by default, and what it says beyond that is ignored.
-/

namespace GuestXml.Command

open Schema (LoadOptions)

/-- The settings of the program. -/
structure Settings where
  load : LoadOptions := {}
  output : OutputOptions := {}
  deriving DecidableEq, Repr

namespace Settings

/-- Where settings are looked for if no other place is named. -/
def defaultPath : String := "/etc/limiquantix/virtxml.yaml"

/-- The value of a key, or the default if the key is missing; a key may not be repeated. -/
def valueOr {α : Type} (read : Yaml.Node → Option α) (other : α) (key : String)
    (entries : List (String × Yaml.Node)) : Option α :=
  match entries.filter (·.1 == key) with
  | [] => some other
  | [(_, value)] => read value
  | _ => none

/-- Reads how documents are loaded. -/
def loadOptions? (d : Yaml.Document) (node : Yaml.Node) : Option LoadOptions := do
  let entries ← d.entries? node
  let byDefault : LoadOptions := {}
  let maxDepth ← valueOr d.nat? byDefault.maxDepth "max_depth" entries
  let denyUnknown ← valueOr d.bool? byDefault.denyUnknown "deny_unknown" entries
  return { maxDepth, denyUnknown }

/-- Reads how results are written. -/
def outputOptions? (d : Yaml.Document) (node : Yaml.Node) : Option OutputOptions := do
  let entries ← d.entries? node
  let byDefault : OutputOptions := {}
  let indent ← valueOr d.nat? byDefault.indent "indent" entries
  let jsonPretty ← valueOr d.bool? byDefault.jsonPretty "json_pretty" entries
  return { indent, jsonPretty }

/-- Reads a file of settings. -/
def ofText? (s : String) : Option Settings := do
  let d ← Yaml.Document.ofText? s
  let entries ← d.entries? d.root
  let load ← valueOr (loadOptions? d) {} "load" entries
  let output ← valueOr (outputOptions? d) {} "output" entries
  return { load, output }

end Settings

end GuestXml.Command
