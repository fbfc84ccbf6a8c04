import CommandConsole.Parser
import CommandConsole.Text.Blank
import CommandConsole.Text.Fields
set_option autoImplicit false

/-!
The parsers for the types that need no registration. Blanks around a token do not count, except in
a string, which is the token as it is.
-/

namespace CommandConsole

def readBool? (t : List Char) : Option Bool :=
  let word := (trim t).map Char.toLower
  if word = ['t', 'r', 'u', 'e'] then some true
  else if word = ['f', 'a', 'l', 's', 'e'] then some false
  else none

def readInt64? (t : List Char) : Option Int64 := (readInt? (trim t)).bind int64?

def readFloat? (t : List Char) : Option Binary64 := Binary64.read? (trim t)

/-- Removes one pair of parentheses around a text, if both are there. -/
def unwrapParens : List Char → List Char
  | '(' :: r => if r.getLast? = some ')' then r.dropLast else '(' :: r
  | t => t

/-- Numbers with commas between them, in parentheses or not. -/
def readComponents? (t : List Char) : Option (List Binary64) :=
  (splitFields ',' (unwrapParens (trim t))).mapM readFloat?

def readVec2? (t : List Char) : Option Value :=
  match readComponents? t with
  | some [x, y] => some (.vec2 x y)
  | _ => none

def readVec3? (t : List Char) : Option Value :=
  match readComponents? t with
  | some [x, y, z] => some (.vec3 x y z)
  | _ => none

def builtinParsers : List ValueParser :=
  [.ofProbe .bool fun s => (readBool? s.toList).map .bool,
   .ofProbe .int fun s => (readInt64? s.toList).map .int,
   .ofProbe .float fun s => (readFloat? s.toList).map .float,
   .ofProbe .string fun s => some (.string s),
   .ofProbe .vec2 fun s => readVec2? s.toList,
   .ofProbe .vec3 fun s => readVec3? s.toList]

def ParserTable.builtin : ParserTable := ⟨builtinParsers⟩

example : readVec2? "( 1 , 2.5 )".toList = readVec2? "1,2.5".toList := by decide +kernel
example : readVec2? "((1, 2))".toList = none ∧ readVec2? "1, 2)".toList = none := by decide +kernel

end CommandConsole
