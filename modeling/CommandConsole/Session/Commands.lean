import CommandConsole.Builtins
import CommandConsole.History
import CommandConsole.Session.Color
import CommandConsole.Session.Transcript
set_option autoImplicit false

/-!
The commands of an interactive session: those that concern the session itself, and a few that
show what arguments of each kind are good for.
-/

namespace CommandConsole

/-- What the session commands can see and change. -/
structure SessionState where
  history : History
  transcript : Transcript
  running : Bool
  deriving DecidableEq, Repr

abbrev SessionCommand := Overload (Handler SessionState)

def clearCommand : SessionCommand where
  signature :=
    { name := "clear"
      params := []
      description := "Clears the contents of the command console."
      usage := "" }
  action _ := do
    let s ← Script.state
    .setState { s with transcript := s.transcript.clear }

/-- An entry with its number, right-aligned to four places. -/
def historyLine (number : Nat) (entry : String) : String :=
  let digits := writeNat 10 number
  String.ofList ([' ', ' '] ++ List.replicate (4 - digits.length) ' ' ++ digits ++ [' ', ' ']) ++
    entry

def historyText (h : History) : String :=
  if h.isEmpty then "(no history)"
  else joinStrings '\n' (h.entries.mapIdx fun i entry => historyLine (i + 1) entry)

def historyCommand : SessionCommand where
  signature :=
    { name := "history"
      params := [.context "console"]
      description := "Shows previously submitted lines, newest first."
      usage := "" }
  action _ := do .say .message (historyText (← Script.state).history)

def quitCommand : SessionCommand where
  signature :=
    { name := "quit"
      params := []
      description := "Closes the console."
      usage := "" }
  action _ := do .setState { (← Script.state) with running := false }

def addInt64? (a b : Int64) : Option Int64 := int64? (a.toInt + b.toInt)

def addCommand : SessionCommand where
  signature :=
    { name := "add"
      params := [.required "a" .int, .optional "b" .int (.int 0)]
      description := "Adds two integers."
      usage := "[a] [b = 0]" }
  action call := do
    match addInt64? (← Script.ofExcept (call.int 0)) (← Script.ofExcept (call.int 1)) with
    | some sum => .say .success (String.ofList (writeInt64 sum))
    | none => .fail (.command "integer overflow")

def echoCommand : SessionCommand where
  signature :=
    { name := "echo"
      params := [.required "text" .string]
      description := "Prints its argument."
      usage := "[text]" }
  action call := do .say .message (← Script.ofExcept (call.string 0))

def teleportPlayer : SessionCommand where
  signature :=
    { name := "teleport"
      params := [.required "position" .vec3]
      description := "Moves the player."
      usage := "[(x, y, z)]" }
  action call := do
    let (x, y, z) ← Script.ofExcept (call.vec3 0)
    .say .success ("teleported to " ++ (Value.vec3 x y z).text)

def teleportEntity : SessionCommand where
  signature :=
    { name := "teleport"
      params := [.required "who" .string, .required "position" .vec3]
      description := "Moves a named entity."
      usage := "[name] [(x, y, z)]" }
  action call := do
    let who ← Script.ofExcept (call.string 0)
    let (x, y, z) ← Script.ofExcept (call.vec3 1)
    .say .success ("teleported " ++ who ++ " to " ++ (Value.vec3 x y z).text)

def tintCommand : SessionCommand where
  signature :=
    { name := "tint"
      params := [.required "color" colorType]
      description := "Sets the tint color."
      usage := "[red|green|blue|white|black|#rrggbb]" }
  action call := do
    let rgb ← Script.ofExcept (call.payload 0 Payload.word?)
    .say .success ("tint set to " ++ String.ofList (writeColor rgb))

/-- The session commands in the order of their registration. -/
def sessionCommands : List SessionCommand :=
  [clearCommand, historyCommand, quitCommand, addCommand, echoCommand, teleportPlayer,
   teleportEntity, tintCommand]

/-- The console of a session. -/
def sessionConsole (config : Config) : Console (Handler SessionState) :=
  ((Console.new config).registerBuiltins.registerParser colorParser).1.registerAll sessionCommands

end CommandConsole
