import CommandConsole.Text.Blank
import CommandConsole.Event
set_option autoImplicit false

/-!
Command lines: a name and argument tokens. Blank characters separate tokens only outside double
quotes and outside parentheses, so a vector is one token and a quoted text may hold blanks.
Nothing is malformed: an open quote or parenthesis keeps the rest of the line in its token.
-/

namespace CommandConsole

/-- What the characters read so far leave open. -/
structure Nesting where
  quoted : Bool
  depth : Nat
  deriving DecidableEq, Repr

def Nesting.closed : Nesting := ⟨false, 0⟩

/-- A quote toggles. Parentheses count outside quotes only, and one that closes nothing is text. -/
def Nesting.next (s : Nesting) (c : Char) : Nesting :=
  if c = '"' then { s with quoted := !s.quoted }
  else if s.quoted then s
  else if c = '(' then { s with depth := s.depth + 1 }
  else if c = ')' then { s with depth := s.depth - 1 }
  else s

def Nesting.after (s : Nesting) (t : List Char) : Nesting := t.foldl Nesting.next s

def Nesting.isOpen (s : Nesting) : Bool := s.quoted || 0 < s.depth

def Nesting.separates (s : Nesting) (c : Char) : Bool := isBlank c && !s.isOpen

/-- Splits the rest of a text. `word` holds the characters of the token begun, last one first;
quotes begin a token and are not part of it. -/
def splitFrom (s : Nesting) (word : Option (List Char)) : List Char → List (List Char)
  | [] => word.toList.map List.reverse
  | c :: r =>
    if s.separates c then word.toList.map List.reverse ++ splitFrom s none r
    else splitFrom (s.next c) (some ((if c = '"' then [] else [c]) ++ word.getD [])) r

def splitArguments (text : String) : List String :=
  (splitFrom .closed none text.toList).map String.ofList

/-- A text with something left open at its end is reported. -/
def splitDiagnostics (text : String) : List Diagnostic :=
  if (Nesting.closed.after text.toList).isOpen then [.unbalancedArguments text] else []

structure CommandLine where
  name : String
  arguments : List String
  deriving DecidableEq, Repr

/-- The name, which ends at the first blank, and the text after that blank. A line with nothing but
blanks has neither. -/
def lineParts? (line : String) : Option (String × String) :=
  let t := trim line.toList
  if t = [] then none
  else some (String.ofList (t.takeWhile (!isBlank ·)),
    String.ofList ((t.dropWhile (!isBlank ·)).drop 1))

def CommandLine.read? (line : String) : Option CommandLine :=
  (lineParts? line).map fun p => ⟨p.1, splitArguments p.2⟩

def lineDiagnostics (line : String) : List Diagnostic :=
  match lineParts? line with
  | none => []
  | some p => splitDiagnostics p.2

/-- A token as it has to be typed: in quotes if it is empty or if a blank or a parenthesis in it
would be read as more than text. -/
def quoteToken (token : String) : String :=
  if token.toList = [] ∨ token.toList.any (fun c => isBlank c || c == '(' || c == ')') then
    "\"" ++ token ++ "\""
  else token

example : (CommandLine.read? " add  1 \"two words\" (3, 4) ").map (·.arguments) =
    some ["1", "two words", "(3, 4)"] := by decide +kernel
example : splitArguments "a) \"\" \"b" = ["a)", "", "b"] := by decide +kernel

end CommandConsole
