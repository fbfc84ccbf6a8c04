import CommandConsole.Binary64.Shortest
set_option autoImplicit false

/-!
Typed argument values: the types a parameter may ask for, the values that satisfy them, their
text and their equality.
-/

namespace CommandConsole

/-- A custom type is identified by its name alone. The context type stands for the console that
runs the command and is never read from a token. -/
inductive ValueType where
  | bool | int | float | string | vec2 | vec3 | context
  | custom (name : String)
  deriving DecidableEq, Repr

def ValueType.label : ValueType → String
  | .bool => "bool"
  | .int => "int"
  | .float => "float"
  | .string => "string"
  | .vec2 => "vec2"
  | .vec3 => "vec3"
  | .context => "context"
  | .custom name => name

/-- The place of a type in the order of types, where all custom types come last. -/
def ValueType.rank : ValueType → Nat
  | .bool => 0
  | .int => 1
  | .float => 2
  | .string => 3
  | .vec2 => 4
  | .vec3 => 5
  | .context => 6
  | .custom _ => 7

/-- Custom types are ordered among themselves by name. -/
def ValueType.le : ValueType → ValueType → Bool
  | .custom a, .custom b => decide (a ≤ b)
  | a, b => a.rank ≤ b.rank

def sortTypes (types : List ValueType) : List ValueType := types.mergeSort ValueType.le

inductive Payload where
  | word (n : UInt32)
  | flag (b : Bool)
  | text (s : String)
  deriving DecidableEq, Repr

/-- A value of a custom type. Its payload is shared, not compared: copies of a value keep its
identity and values made apart have different ones. -/
structure CustomValue where
  typeName : String
  payload : Payload
  identity : Nat
  deriving DecidableEq, Repr

inductive Value where
  | bool (b : Bool)
  | int (i : Int64)
  | float (x : Binary64)
  | string (s : String)
  | vec2 (x y : Binary64)
  | vec3 (x y z : Binary64)
  | context
  | custom (c : CustomValue)
  deriving DecidableEq, Repr

def Value.type : Value → ValueType
  | .bool _ => .bool
  | .int _ => .int
  | .float _ => .float
  | .string _ => .string
  | .vec2 _ _ => .vec2
  | .vec3 _ _ _ => .vec3
  | .context => .context
  | .custom c => .custom c.typeName

/-- The components of a vector in parentheses, with a comma and a space between them. -/
def writeVector (xs : List Binary64) : List Char :=
  ['('] ++ [',', ' '].intercalate (xs.map Binary64.write) ++ [')']

def Value.text : Value → String
  | .bool b => if b then "true" else "false"
  | .int i => String.ofList (writeInt64 i)
  | .float x => String.ofList x.write
  | .string s => s
  | .vec2 x y => String.ofList (writeVector [x, y])
  | .vec3 x y z => String.ofList (writeVector [x, y, z])
  | .context => "<console>"
  | .custom c => "<" ++ c.typeName ++ ">"

/-- A custom value is summed up by its type, since its payload has no text. -/
def CustomValue.summary (c : CustomValue) : String := "CustomValue(" ++ c.typeName ++ ")"

/-- Numbers are compared as numbers and custom values by their identity. -/
def Value.agrees : Value → Value → Bool
  | .bool a, .bool b => a == b
  | .int a, .int b => a == b
  | .float a, .float b => a.agrees b
  | .string a, .string b => a == b
  | .vec2 a b, .vec2 a' b' => a.agrees a' && b.agrees b'
  | .vec3 a b c, .vec3 a' b' c' => a.agrees a' && b.agrees b' && c.agrees c'
  | .context, .context => true
  | .custom a, .custom b => a.typeName == b.typeName && a.identity == b.identity
  | _, _ => false

end CommandConsole
