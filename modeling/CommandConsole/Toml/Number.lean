import CommandConsole.Toml.Basic
import CommandConsole.Toml.Text
set_option autoImplicit false

/-!
TOML numbers, dates and times.
-/

namespace CommandConsole.Toml

def isDecimalDigit (c : Char) : Bool := (digitValue? 10 c).isSome

/-- Digits with single underscores between them, which do not count. -/
def readDigitRun (p : Char → Bool) : Reader (List Char) := do
  let first ← Reader.char p
  let others ← Reader.collect do
    if ← Reader.accept ['_'] then return some (← Reader.char p)
    match ← Reader.peek with
    | some c => if p c then return some (← Reader.char p) else return none
    | none => return none
  return first :: others

def readSign : Reader (List Char) := do
  if ← Reader.accept ['+'] then return ['+']
  if ← Reader.accept ['-'] then return ['-']
  return []

def readWhole : Reader (List Char) := do
  if ← Reader.accept ['0'] then return ['0']
  readDigitRun isDecimalDigit

/-- A whole number in another base, after the letter that names the base. -/
def readBased (base : Nat) : Reader Int64 := do
  let digits ← readDigitRun fun c => (digitValue? base c).isSome
  match (readNat? base digits).bind fun n => int64? n with
  | some i => return i
  | none => failure

def readInteger : Reader Int64 := do
  if ← Reader.accept ['0', 'x'] then readBased 16
  else if ← Reader.accept ['0', 'o'] then readBased 8
  else if ← Reader.accept ['0', 'b'] then readBased 2
  else
    let sign ← readSign
    let digits ← readWhole
    match (readInt? (sign ++ digits)).bind int64? with
    | some i => return i
    | none => failure

def readFloatExponent : Reader (List Char) := do
  let _ ← Reader.char fun c => c == 'e' || c == 'E'
  let sign ← readSign
  let digits ← readDigitRun isDecimalDigit
  return 'e' :: sign ++ digits

/-- A number with a point, an exponent or both. One too great for a double is refused. -/
def readFraction : Reader Binary64 := do
  let sign ← readSign
  let whole ← readWhole
  let tail ← if ← Reader.accept ['.'] then do
      let digits ← readDigitRun isDecimalDigit
      let exponent ← readFloatExponent <|> pure []
      pure ('.' :: digits ++ exponent)
    else readFloatExponent
  match Binary64.read? (sign ++ whole ++ tail) with
  | some (.infinite false) => failure
  | some x => return x
  | none => failure

def readSpecial : Reader Binary64 := do
  let sign ← readSign
  if ← Reader.accept ['i', 'n', 'f'] then return .infinite (sign = ['-'])
  Reader.expect ['n', 'a', 'n']
  return .nan

def readField (n least most : Nat) : Reader Nat := do
  let digits ← Reader.exactly n isDecimalDigit
  match readNat? 10 digits with
  | some v => if least ≤ v ∧ v ≤ most then return v else failure
  | none => failure

def isLeapYear (year : Nat) : Bool := year % 4 == 0 && (year % 100 != 0 || year % 400 == 0)

def daysInMonth (year month : Nat) : Nat :=
  if month = 2 then if isLeapYear year then 29 else 28
  else if month ∈ [4, 6, 9, 11] then 30
  else 31

def readDate : Reader Unit := do
  let year ← readField 4 0 9999
  Reader.expect ['-']
  let month ← readField 2 1 12
  Reader.expect ['-']
  let _ ← readField 2 1 (daysInMonth year month)

/-- Hours, minutes and seconds, where a minute may have a leap second, with an optional fraction. -/
def readTime : Reader Unit := do
  let _ ← readField 2 0 23
  Reader.expect [':']
  let _ ← readField 2 0 59
  Reader.expect [':']
  let _ ← readField 2 0 60
  if ← Reader.accept ['.'] then
    let _ ← Reader.char isDecimalDigit
    Reader.skipWhile isDecimalDigit

def readOffset : Reader Unit := do
  if (← Reader.accept ['Z']) || (← Reader.accept ['z']) then return
  let _ ← Reader.char fun c => c == '+' || c == '-'
  let _ ← readField 2 0 23
  Reader.expect [':']
  let _ ← readField 2 0 59

/-- A date, a time, or both with an optional offset from universal time. -/
def readMoment : Reader Unit := do
  let both : Reader Unit := do
    let _ ← Reader.char fun c => c == 'T' || c == 't' || c == ' '
    readTime
    readOffset <|> pure ()
  (do readDate; both <|> pure ()) <|> readTime

end CommandConsole.Toml
