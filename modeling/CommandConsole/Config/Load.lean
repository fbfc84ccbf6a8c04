import CommandConsole.Config
import CommandConsole.Error
set_option autoImplicit false

/-!
Loading a configuration from a file. How the text of a document is decoded is left open; a decoded
configuration is still checked.
-/

namespace CommandConsole

/-- Makes a configuration of the text of a document, or says what is wrong with the text. -/
abbrev ConfigDecoder := String → Except String Config

/-- A configuration must leave room for a suggestion. -/
def Config.ofDocument (decode : ConfigDecoder) (text : String) : Except ConsoleError Config :=
  match decode text with
  | .error reason => .error (.malformedDocument reason)
  | .ok c =>
    if c.maxSuggestions = 0 then .error (.config "max_suggestions must be at least 1") else .ok c

def decodeText? (bytes : List UInt8) : Option String := String.fromUTF8? bytes.toByteArray

/-- What there is at a path that names a configuration. A reason is the text of the system for a
file that cannot be read. -/
inductive ConfigFile where
  | missing (reason : String)
  | unreadable (reason : String)
  | contents (bytes : List UInt8)
  deriving DecidableEq, Repr

def Config.load (decode : ConfigDecoder) : ConfigFile → Except ConsoleError Config
  | .missing reason | .unreadable reason => .error (.file reason)
  | .contents bytes =>
    match decodeText? bytes with
    | none => .error (.file "stream did not contain valid UTF-8")
    | some text => ofDocument decode text

end CommandConsole
