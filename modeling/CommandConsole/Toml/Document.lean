import CommandConsole.Toml.Number
set_option autoImplicit false

/-!
TOML documents: values, keys, and the statements line by line.
-/

namespace CommandConsole.Toml

/-- How deeply arrays and inline tables may be nested, and how many parts a key may have. -/
def nestingLimit : Nat := 79

/-- A comment runs to the end of its line, where a character that may not stand in it is found. -/
def skipComment : Reader Unit := do
  if ← Reader.accept ['#'] then Reader.skipWhile isText

/-- The rest of a line: spaces, a comment, and the end of the line or of the text. -/
def readLineEnd : Reader Unit := do
  Reader.skipWhile isSpace
  skipComment
  if ← acceptNewline then return
  if (← Reader.peek).isSome then failure

/-- Spaces, comments and line ends between the elements of an array. -/
def skipGap : Reader Unit := do
  let _ ← Reader.collect (α := Unit) do
    if ← acceptNewline then return some ()
    match ← Reader.peek with
    | some c =>
      if isSpace c then do Reader.skipWhile isSpace; return some ()
      else if c = '#' then do skipComment; return some ()
      else return none
    | none => return none

def readKey : Reader (List String × String) := do
  let part : Reader String := do
    Reader.skipWhile isSpace
    let part ← readKeyPart
    Reader.skipWhile isSpace
    return part
  let first ← part
  let others ← Reader.collect do
    if ← Reader.accept ['.'] then return some (← part) else return none
  if nestingLimit ≤ others.length then failure
  return ((first :: others).dropLast, others.getLast?.getD first)

/-- The elements of an array, after its opening bracket. A comma may follow the last one. -/
def readElements (element : Reader Toml) : Reader (List Toml) := do
  skipGap
  Reader.collect do
    if ← Reader.accept [']'] then return none
    let v ← element
    skipGap
    if ← Reader.accept [','] then skipGap
    else if (← Reader.peek) ≠ some ']' then failure
    return some v

def readPair (value : Reader Toml) : Reader (List String × String × Toml) := do
  let (path, key) ← readKey
  Reader.expect ['=']
  Reader.skipWhile isSpace
  return (path, key, ← value)

/-- The pairs of an inline table, after its opening brace, on one line and without a comma at the
end. -/
def readInlinePairs (value : Reader Toml) : Reader (List (List String × String × Toml)) := do
  let pair := do
    let p ← readPair value
    Reader.skipWhile isSpace
    return p
  Reader.skipWhile isSpace
  if ← Reader.accept ['\x7d'] then return []
  let first ← pair
  let others ← Reader.collect do
    if ← Reader.accept [','] then return some (← pair) else return none
  Reader.expect ['\x7d']
  return first :: others

def readNumber : Reader Toml :=
  (do readMoment; return .moment) <|> .float <$> (readFraction <|> readSpecial) <|>
    .integer <$> readInteger

/-- A value that holds no more than `depth` arrays and inline tables inside each other. -/
def readValue (depth : Nat) : Reader Toml := do
  match ← Reader.peek with
  | none => failure
  | some c =>
    if c = '"' ∨ c = '\'' then return .string (← readString)
    else if c = 't' then do Reader.expect ['t', 'r', 'u', 'e']; return .boolean true
    else if c = 'f' then do Reader.expect ['f', 'a', 'l', 's', 'e']; return .boolean false
    else if c = '[' ∨ c = '\x7b' then
      match depth with
      | 0 => failure
      | d + 1 =>
        let _ ← Reader.char fun _ => true
        if c = '[' then return .array (← readElements (readValue d))
        match Entries.ofPairs? (← readInlinePairs (readValue d)) with
        | some es => return .table .inline es
        | none => failure
    else readNumber

def readHeader : Reader Statement := do
  if ← Reader.accept ['[', '['] then
    let (path, key) ← readKey
    Reader.expect [']', ']']
    return .element path key
  Reader.expect ['[']
  let (path, key) ← readKey
  Reader.expect [']']
  return .header path key

/-- The statements of a document. Blank lines and comment lines have none. -/
def readStatements : Reader (List Statement) := do
  let chunks ← Reader.collect do
    Reader.skipWhile isSpace
    match ← Reader.peek with
    | none => return none
    | some '[' =>
      let s ← readHeader
      readLineEnd
      return some [s]
    | some c =>
      if c = '#' ∨ c = '\n' ∨ c = '\r' then do readLineEnd; return some []
      else
        let (path, key, v) ← readPair (readValue nestingLimit)
        readLineEnd
        return some [.pair path key v]
  return chunks.flatten

/-- The top-level table of a document, which a byte order mark may precede. -/
def readDocument? (text : String) : Option Entries :=
  let t := text.toList
  let t := if t.head? = some '\uFEFF' then t.drop 1 else t
  match readStatements t with
  | some (statements, []) => Entries.ofStatements? statements
  | _ => none

end CommandConsole.Toml
