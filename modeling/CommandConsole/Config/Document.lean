import CommandConsole.Config.Load
import CommandConsole.Toml.Document
set_option autoImplicit false

/-!
Configurations as TOML documents. Keys that are missing take their defaults and keys that are not
known are ignored.
-/

namespace CommandConsole

/-- A size is an integer that is not negative. -/
def Toml.size? : Toml → Option Nat
  | .integer i => if i.toInt < 0 then none else some i.toInt.toNat
  | _ => none

def Toml.boolean? : Toml → Option Bool
  | .boolean b => some b
  | _ => none

def Toml.string? : Toml → Option String
  | .string s => some s
  | _ => none

def Toml.char? : Toml → Option Char
  | .string s =>
    match s.toList with
    | [c] => some c
    | _ => none
  | _ => none

def Toml.chars? : Toml → Option (List Char)
  | .array elements => elements.mapM Toml.char?
  | _ => none

/-- The value of a key, read by `f`, or the default if the key is missing. -/
def Entries.field {α : Type} (es : Entries) (key : String) (f : Toml → Option α) (default : α) :
    Option α :=
  match es.lookup key with
  | none => some default
  | some v => f v

def Config.ofEntries? (es : Entries) : Option Config := do
  let d := Config.default
  let historySize ← es.field "history_size" Toml.size? d.historySize
  let maxSuggestions ← es.field "max_suggestions" Toml.size? d.maxSuggestions
  let exact ← es.field "include_exact_suggestion" Toml.boolean? d.includeExactSuggestion
  let prompt ← es.field "prompt" Toml.string? d.prompt
  let prohibited ← es.field "prohibited_chars" Toml.chars? d.prohibitedChars
  return ⟨historySize, maxSuggestions, exact, prompt, prohibited⟩

/-- The decoder of the program. -/
def Config.readToml : ConfigDecoder := fun text =>
  match (Toml.readDocument? text).bind ofEntries? with
  | none => .error "not a document with the fields of a configuration"
  | some c => .ok c

end CommandConsole
