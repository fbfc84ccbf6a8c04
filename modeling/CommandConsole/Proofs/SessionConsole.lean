import CommandConsole.Proofs.BuiltinParsers
import CommandConsole.Proofs.SessionCommands
set_option autoImplicit false

/-!
The console of a session and what is registered with it later. The parsers stay whatever is
registered, and the commands of a name stay until another one of that name is registered.
-/

namespace CommandConsole

/-- The registrations of a session. -/
def sessionHistory : List (Registration (Handler SessionState)) :=
  builtinCommands.map .command ++ .parser colorParser :: sessionCommands.map .command

theorem sessionConsole_eq (config : Config) :
    sessionConsole config = (Console.new config).enterAll sessionHistory := rfl

variable (config : Config) {history : List (Registration (Handler SessionState))}

theorem hasBuiltins_session_enterAll :
    ((sessionConsole config).enterAll history).registry.parsers.HasBuiltins := by
  rw [sessionConsole_eq, Console.enterAll_eq, Console.enterAll_eq]
  exact fun p hp => Registry.find?_enterAll (Registry.hasBuiltins_enterAll sessionHistory p hp) _

theorem find?_color_session_enterAll :
    ((sessionConsole config).enterAll history).registry.parsers.find? colorType =
      some colorParser := by
  rw [Console.enterAll_eq]
  exact Registry.find?_enterAll rfl history

theorem named_session_enterAll {name : String} (h : commandsNamed name history = []) :
    ((sessionConsole config).enterAll history).registry.named name =
      (builtinCommands ++ sessionCommands).filter (·.signature.name == name) := by
  rw [Console.enterAll_eq, Registry.named_enterAll, registeredUnder_eq, h, ite_self,
    List.append_nil, Registry.named, overloads_sessionConsole]

end CommandConsole
