set_option autoImplicit false

/-!
Readers: functions that read a value from the front of a text and return the rest, or refuse.
-/

namespace CommandConsole

abbrev Reader := StateT (List Char) Option

def Reader.peek : Reader (Option Char) := fun t => some (t.head?, t)

def Reader.char (p : Char → Bool) : Reader Char
  | c :: r => if p c then some (c, r) else none
  | [] => none

def Reader.takeWhile (p : Char → Bool) : Reader (List Char) := fun t =>
  some (t.takeWhile p, t.dropWhile p)

def Reader.skipWhile (p : Char → Bool) : Reader Unit := fun t => some ((), t.dropWhile p)

/-- Takes these characters if they come next, and tells whether they did. -/
def Reader.accept (start : List Char) : Reader Bool := fun t =>
  if start.isPrefixOf t then some (true, t.drop start.length) else some (false, t)

def Reader.expect (start : List Char) : Reader Unit := fun t =>
  if start.isPrefixOf t then some ((), t.drop start.length) else none

def Reader.exactly (n : Nat) (p : Char → Bool) : Reader (List Char) := fun t =>
  if (t.take n).length = n ∧ (t.take n).all p then some (t.take n, t.drop n) else none

def Reader.collectUpTo {α : Type} (step : Reader (Option α)) : Nat → Reader (List α)
  | 0 => failure
  | n + 1 => do
    match ← step with
    | none => pure []
    | some a => return a :: (← collectUpTo step n)

/-- Repeats a step until it has nothing more to read. A step that reads nothing is refused after
as many rounds as the text has characters. -/
def Reader.collect {α : Type} (step : Reader (Option α)) : Reader (List α) := fun t =>
  collectUpTo step (t.length + 1) t

end CommandConsole
