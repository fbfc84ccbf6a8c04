import CommandConsole.Numeral
import CommandConsole.Toml.Reader
set_option autoImplicit false

/-!
TOML strings in their four notations: basic strings with escapes, literal strings without, and
the multi-line form of each in three quotes.
-/

namespace CommandConsole.Toml

def isSpace (c : Char) : Bool := c == ' ' || c == '\t'

/-- Characters that may stand for themselves in a comment or a string, quotes and backslashes
apart. Control characters may not. -/
def isText (c : Char) : Bool := c == '\t' || (0x20 ≤ c.toNat && c.toNat != 0x7F)

/-- A line ends with a line feed, which a carriage return may precede. -/
def acceptNewline : Reader Bool := do
  if ← Reader.accept ['\n'] then return true
  Reader.accept ['\r', '\n']

/-- A code point in exactly `n` hexadecimal digits. -/
def readScalar (n : Nat) : Reader Char := do
  let digits ← Reader.exactly n fun c => (digitValue? 16 c).isSome
  match readNat? 16 digits with
  | some v => if v.isValidChar then return Char.ofNat v else failure
  | none => failure

def readEscape : Reader Char := do
  match ← Reader.char fun _ => true with
  | 'b' => return '\x08'
  | 't' => return '\t'
  | 'n' => return '\n'
  | 'f' => return '\x0c'
  | 'r' => return '\r'
  | '"' => return '"'
  | '\\' => return '\\'
  | 'u' => readScalar 4
  | 'U' => readScalar 8
  | _ => failure

/-- The rest of a basic string, after its opening quote. -/
def readBasic : Reader (List Char) :=
  Reader.collect do
    if ← Reader.accept ['"'] then return none
    if ← Reader.accept ['\\'] then return some (← readEscape)
    return some (← Reader.char isText)

def readLiteral : Reader (List Char) :=
  Reader.collect do
    if ← Reader.accept ['\''] then return none
    return some (← Reader.char isText)

/-- Quotes inside a multi-line string. Three end it; one or two more before them, or standing
alone, are text. -/
def readQuotes (quote : Char) : Reader (Option (List Char)) := do
  let run ← Reader.takeWhile (· == quote)
  match run.length with
  | 1 | 2 => return some run
  | 3 => return none
  | 4 | 5 =>
    modify (List.replicate 3 quote ++ ·)
    return some (run.drop 3)
  | _ => failure

/-- Line ends and the spaces around them. -/
def skipBlankLines : Reader Unit := do
  let _ ← Reader.collect (α := Unit) do
    if ← acceptNewline then return some ()
    match ← Reader.peek with
    | some c => if isSpace c then do Reader.skipWhile isSpace; return some () else return none
    | none => return none

/-- A backslash at the end of a line joins it to the next text. -/
def readJoin : Reader (List Char) := do
  Reader.skipWhile isSpace
  if ← acceptNewline then skipBlankLines; return [] else failure

/-- The rest of a multi-line string, after its opening quotes and the line end that may follow
them. A line end inside is one line feed. -/
def readLines (quote : Char) (escapes : Bool) : Reader (List Char) := do
  let _ ← acceptNewline
  let pieces ← Reader.collect do
    if ← acceptNewline then return some ['\n']
    match ← Reader.peek with
    | none => failure
    | some c =>
      if c = quote then readQuotes quote
      else if escapes ∧ c = '\\' then do
        Reader.expect ['\\']
        return some (← readJoin <|> (fun c => [c]) <$> readEscape)
      else return some [← Reader.char isText]
  return pieces.flatten

def readString : Reader String := do
  if ← Reader.accept ['"', '"', '"'] then return String.ofList (← readLines '"' true)
  if ← Reader.accept ['"'] then return String.ofList (← readBasic)
  if ← Reader.accept ['\'', '\'', '\''] then return String.ofList (← readLines '\'' false)
  Reader.expect ['\'']
  return String.ofList (← readLiteral)

/-- One part of a key: bare, or a string on one line. -/
def readKeyPart : Reader String := do
  if ← Reader.accept ['"'] then return String.ofList (← readBasic)
  if ← Reader.accept ['\''] then return String.ofList (← readLiteral)
  let part ← Reader.takeWhile fun c => c.isAlphanum || c == '_' || c == '-'
  if part = [] then failure
  return String.ofList part

end CommandConsole.Toml
