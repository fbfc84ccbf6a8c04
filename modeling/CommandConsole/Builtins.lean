import CommandConsole.Script
set_option autoImplicit false

/-!
The commands that every console is given: help, list, and one logging command for each severity
above a plain message.
-/

namespace CommandConsole

/-- Shows the help text of a command, or an error if there is no such command. -/
def showHelp {σ : Type} (name : String) : Script σ Unit := do
  match (← Script.console).helpText? name with
  | some text => .say .message text
  | none =>
    .say .error ("No command found with name '" ++ name ++
      "', to see a list of all commands use 'list'.")

def helpTopic {σ : Type} : Overload (Handler σ) where
  signature :=
    { name := "help"
      params := [.required "command" .string, .context "console"]
      description := "Provides help information for commands."
      usage := "[command name]" }
  action call := do showHelp (← Script.ofExcept (call.string 0))

def helpOverview {σ : Type} : Overload (Handler σ) where
  signature :=
    { name := "help"
      params := [.context "console"]
      description := "Provides help information for the 'help' command."
      usage := "" }
  action _ := showHelp "help"

def listCommands {σ : Type} : Overload (Handler σ) where
  signature :=
    { name := "list"
      params := [.context "console"]
      description := "Lists all commands."
      usage := "" }
  action _ := do .say .message (joinStrings '\n' (← Script.console).names)

def logCommand {σ : Type} (name description : String) (severity : Severity) :
    Overload (Handler σ) where
  signature :=
    { name := name
      params := [.required "message" .string, .context "console"]
      description := description
      usage := "[string]" }
  action call := do .say severity (← Script.ofExcept (call.string 0))

/-- The built-in commands in the order of their registration. -/
def builtinCommands {σ : Type} : List (Overload (Handler σ)) :=
  [helpTopic, helpOverview, listCommands,
   logCommand "logSuccess" "Logs a success message to the console." .success,
   logCommand "logWarning" "Logs a warning message to the console." .warning,
   logCommand "logError" "Logs an error message to the console." .error]

def Console.registerBuiltins {σ : Type} (c : Console (Handler σ)) : Console (Handler σ) :=
  c.registerAll builtinCommands

end CommandConsole
