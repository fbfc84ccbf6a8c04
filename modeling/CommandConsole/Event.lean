import CommandConsole.Error
import CommandConsole.Text.Escaped
set_option autoImplicit false

/-!
What a console emits while it works: lines for its host, and diagnostics for whoever runs it.
-/

namespace CommandConsole

inductive Severity where
  | message | success | warning | error
  deriving DecidableEq, Repr

inductive Level where
  | debug | info | warn | error
  deriving DecidableEq, Repr

/-- The level at which a line is recorded by a host that has no display. -/
def Severity.level : Severity → Level
  | .message | .success => .info
  | .warning => .warn
  | .error => .error

inductive Diagnostic where
  | parserRegistered (type : ValueType)
  | contextParserIgnored
  | duplicateParserIgnored (type : ValueType)
  | mistypedValueRejected (type produced : ValueType)
  | overloadRegistered (name : String) (parameters : Nat)
  | untypeableNameSkipped (name : String)
  | overloadChosen (name : String) (overload : Nat)
  | submissionFailed (line : String) (error : ConsoleError)
  | unbalancedArguments (text : String)
  deriving DecidableEq, Repr

def Diagnostic.level : Diagnostic → Level
  | .contextParserIgnored | .duplicateParserIgnored _ | .mistypedValueRejected _ _
  | .untypeableNameSkipped _ => .warn
  | _ => .debug

def Diagnostic.text : Diagnostic → String
  | .parserRegistered type => "registered parser for '" ++ type.label ++ "'"
  | .contextParserIgnored =>
    "ignoring parser for the context type: it is never read from input"
  | .duplicateParserIgnored type =>
    "parser for '" ++ type.label ++ "' already registered, ignoring new one"
  | .mistypedValueRejected type produced =>
    "parser for '" ++ type.label ++ "' produced a " ++ produced.label ++ " value, rejecting it"
  | .overloadRegistered name parameters =>
    "registered '" ++ name ++ "' overload with " ++ writeIndex parameters ++ " parameter(s)"
  | .untypeableNameSkipped name => "skipping command with untypeable name " ++ escaped name
  | .overloadChosen name overload =>
    "'" ++ name ++ "' resolved to overload " ++ writeIndex overload
  | .submissionFailed line error => "submit " ++ escaped line ++ " failed: " ++ error.message
  | .unbalancedArguments text =>
    "unbalanced argument string kept as trailing token: " ++ escaped text

inductive Event where
  | line (severity : Severity) (text : String)
  | diagnostic (d : Diagnostic)
  deriving DecidableEq, Repr

/-- The lines that reach the host, in order. -/
def hostLines (events : List Event) : List (Severity × String) :=
  events.filterMap fun
    | .line severity text => some (severity, text)
    | .diagnostic _ => none

/-- The diagnostics, in order. -/
def records (events : List Event) : List (Level × String) :=
  events.filterMap fun
    | .line _ _ => none
    | .diagnostic d => some (d.level, d.text)

/-- All that a host without a display records: its lines stand among the diagnostics. -/
def recordsWithLines (events : List Event) : List (Level × String) :=
  events.map fun
    | .line severity text => (severity.level, text)
    | .diagnostic d => (d.level, d.text)

@[simp] theorem hostLines_append (a b : List Event) :
    hostLines (a ++ b) = hostLines a ++ hostLines b := by simp [hostLines]

end CommandConsole
