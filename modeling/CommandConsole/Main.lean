import CommandConsole.Config.Document
import CommandConsole.Session
set_option autoImplicit false

/-!
The command line: an interactive session on the standard streams. The first argument, or else a
variable of the environment, names the file of the configuration, which is a TOML document.
-/

namespace CommandConsole

/-- The variable that names a configuration where no argument does. -/
def configVariable : String := "DEVCON_CONFIG"

/-- What there is at a path. Nothing is there if the path does not lead to a file, for whatever
reason. -/
def readConfigFile (path : String) : IO ConfigFile := do
  let file ← try IO.FS.realPath path catch e => return .missing (toString e)
  try return .contents (← IO.FS.readBinFile file).toList
  catch e => return .unreadable (toString e)

/-- The bytes up to the next line feed, which is one of them, or to the end of the input. -/
partial def readLineBytes (input : IO.FS.Stream) (before : Array UInt8) : IO (List UInt8) := do
  match (← input.read 1).toList with
  | [b] => if b = 10 then return (before.push b).toList else readLineBytes input (before.push b)
  | _ => return before.toList

partial def converse (input output : IO.FS.Stream) (s : Session) : IO UInt32 := do
  output.putStr s.console.config.prompt
  output.flush
  let bytes ← readLineBytes input #[]
  if bytes.isEmpty then return 0
  match s.turn bytes with
  | .next answer next =>
    output.putStr answer
    converse input output next
  | .ended answer succeeded =>
    output.putStr answer
    if succeeded then return 0
    IO.eprintln "the input is not text in UTF-8"
    return 1

end CommandConsole

open CommandConsole in
def main (arguments : List String) : IO UInt32 := do
  let argument ← arguments.head?.mapM readConfigFile
  let environment ← if argument.isSome then pure none
    else (← IO.getEnv configVariable).mapM readConfigFile
  match startupConfig Config.readToml argument environment with
  | .error e =>
    IO.eprintln e.message
    return 1
  | .ok config =>
    let output ← IO.getStdout
    let code ← converse (← IO.getStdin) output (.start (← output.isTty) config)
    output.flush
    return code
