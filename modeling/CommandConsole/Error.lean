import CommandConsole.Value
set_option autoImplicit false

/-!
What can go wrong, by cause, with the kind and the text of each error.
-/

namespace CommandConsole

/-- Why a handler could not get an argument of its call. -/
inductive ArgumentFault where
  | missing (command : String) (index bound : Nat)
  | mistyped (command : String) (index : Nat) (expected actual : ValueType)
  | notCustom (command : String) (index : Nat) (actual : ValueType)
  | payload (command : String) (index : Nat) (typeName : String)
  | stated (text : String)
  deriving DecidableEq, Repr

inductive ConsoleError where
  | unknownCommand (name : String)
  | noMatchingOverload (name : String)
  | unreadable (type : ValueType) (token : String)
  | unknownType (type : ValueType)
  | handler (command : String) (cause : ConsoleError)
  | argument (fault : ArgumentFault)
  | command (text : String)
  | config (text : String)
  | file (text : String)
  | malformedDocument (text : String)
  deriving DecidableEq, Repr

/-- A coarse classification, for hosts that do not look inside an error. -/
inductive ErrorKind where
  | unknownCommand | noMatchingOverload | unreadable | unknownType | handler | argument | command
  | config
  deriving DecidableEq, Repr

/-- Whatever keeps a configuration from being loaded is of the configuration kind. -/
def ConsoleError.kind : ConsoleError → ErrorKind
  | .unknownCommand _ => .unknownCommand
  | .noMatchingOverload _ => .noMatchingOverload
  | .unreadable _ _ => .unreadable
  | .unknownType _ => .unknownType
  | .handler _ _ => .handler
  | .argument _ => .argument
  | .command _ => .command
  | .config _ | .file _ | .malformedDocument _ => .config

def writeIndex (n : Nat) : String := String.ofList (writeNat 10 n)

def ArgumentFault.message : ArgumentFault → String
  | .missing name index bound =>
    "'" ++ name ++ "' has no argument " ++ writeIndex index ++ " (" ++ writeIndex bound ++ " bound)"
  | .mistyped name index expected actual =>
    "argument " ++ writeIndex index ++ " of '" ++ name ++ "' is " ++ actual.label ++ ", not " ++
      expected.label
  | .notCustom name index actual =>
    "argument " ++ writeIndex index ++ " of '" ++ name ++ "' is " ++ actual.label ++
      ", not a custom value"
  | .payload name index typeName =>
    "argument " ++ writeIndex index ++ " of '" ++ name ++ "' (" ++ typeName ++
      ") has an unexpected payload"
  | .stated text => text

/-- The text shown to the user. The error of a handler names the command before the cause. -/
def ConsoleError.message : ConsoleError → String
  | .unknownCommand name => "Unknown command '" ++ name ++ "'"
  | .noMatchingOverload name =>
    "No overload for command '" ++ name ++ "' matches given parameters."
  | .unreadable type token => "cannot parse '" ++ token ++ "' as " ++ type.label
  | .unknownType type => "no parser registered for type '" ++ type.label ++ "'"
  | .handler name cause => "command '" ++ name ++ "' failed: " ++ cause.message
  | .argument fault => "argument error: " ++ fault.message
  | .command text => text
  | .config text => "config error: " ++ text
  | .file text => "I/O error: " ++ text
  | .malformedDocument text => "TOML parse error: " ++ text

theorem ConsoleError.message_handler (name : String) (cause : ConsoleError) :
    (handler name cause).message = "command '" ++ name ++ "' failed: " ++ cause.message := rfl

end CommandConsole
