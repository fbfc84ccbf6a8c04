import CommandConsole.Error
set_option autoImplicit false

/-!
A call with its bound arguments, and typed access to them.
-/

namespace CommandConsole

/-- The name that the command was called by and one value for each of its parameters. -/
structure Invocation where
  command : String
  arguments : List Value
  deriving DecidableEq, Repr

def Invocation.value (call : Invocation) (index : Nat) : Except ConsoleError Value :=
  match call.arguments[index]? with
  | some v => .ok v
  | none => .error (.argument (.missing call.command index call.arguments.length))

def Invocation.mistyped {α : Type} (call : Invocation) (index : Nat) (expected : ValueType)
    (v : Value) : Except ConsoleError α :=
  .error (.argument (.mistyped call.command index expected v.type))

def Invocation.bool (call : Invocation) (index : Nat) : Except ConsoleError Bool :=
  (call.value index).bind fun
    | .bool b => .ok b
    | v => call.mistyped index .bool v

def Invocation.int (call : Invocation) (index : Nat) : Except ConsoleError Int64 :=
  (call.value index).bind fun
    | .int i => .ok i
    | v => call.mistyped index .int v

def Invocation.float (call : Invocation) (index : Nat) : Except ConsoleError Binary64 :=
  (call.value index).bind fun
    | .float x => .ok x
    | v => call.mistyped index .float v

def Invocation.string (call : Invocation) (index : Nat) : Except ConsoleError String :=
  (call.value index).bind fun
    | .string s => .ok s
    | v => call.mistyped index .string v

def Invocation.vec2 (call : Invocation) (index : Nat) :
    Except ConsoleError (Binary64 × Binary64) :=
  (call.value index).bind fun
    | .vec2 x y => .ok (x, y)
    | v => call.mistyped index .vec2 v

def Invocation.vec3 (call : Invocation) (index : Nat) :
    Except ConsoleError (Binary64 × Binary64 × Binary64) :=
  (call.value index).bind fun
    | .vec3 x y z => .ok (x, y, z)
    | v => call.mistyped index .vec3 v

/-- The payload of a custom value, as far as `select` accepts it. -/
def Invocation.payload {α : Type} (call : Invocation) (index : Nat) (select : Payload → Option α) :
    Except ConsoleError α :=
  (call.value index).bind fun
    | .custom c =>
      match select c.payload with
      | some a => .ok a
      | none => .error (.argument (.payload call.command index c.typeName))
    | v => .error (.argument (.notCustom call.command index v.type))

def Payload.word? : Payload → Option UInt32
  | .word n => some n
  | _ => none

def Payload.flag? : Payload → Option Bool
  | .flag b => some b
  | _ => none

def Payload.text? : Payload → Option String
  | .text s => some s
  | _ => none

end CommandConsole
