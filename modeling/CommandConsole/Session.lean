import CommandConsole.Config.Load
import CommandConsole.Dispatch
import CommandConsole.Session.Commands
set_option autoImplicit false

/-!
Interactive sessions: lines in, text out. A line that starts with a question mark asks for
suggestions, any other line that is not blank is recorded and submitted, and the session ends when
a command quits it or its input does.
-/

namespace CommandConsole

/-- The console stays the same; the state and the buffer of suggestions change from line to
line. -/
structure Session where
  console : Console (Handler SessionState)
  state : SessionState
  suggestions : Suggestions

def Session.start (terminal : Bool) (config : Config) : Session where
  console := sessionConsole config
  state := ⟨.empty config.historySize, .empty terminal, true⟩
  suggestions := .empty config.maxSuggestions

/-- A line without prohibited characters and without the blanks around it. -/
def cleanLine (config : Config) (line : String) : String := trimmed (config.strip line)

def printLines (lines : List String) : String :=
  String.join (lines.map (· ++ "\n"))

/-- Answers a question for suggestions, the shortest names first. -/
def Session.suggest (s : Session) (start : String) : Session × String :=
  let found := (s.console.suggestInto start s.suggestions).sortByLength
  ({ s with suggestions := found }, printLines (found.toList.map ("  " ++ ·)))

/-- The state with a line echoed in the transcript and recorded in the history. -/
def SessionState.record (s : SessionState) (line : String) : SessionState :=
  { s with
    history := (s.history.push line).1
    transcript := s.transcript.echo line }

/-- The state with lines shown in the transcript. -/
def SessionState.display (s : SessionState) (lines : List (Severity × String)) : SessionState :=
  { s with transcript := s.transcript.logAll lines }

@[simp] theorem SessionState.history_record (s : SessionState) (line : String) :
    (s.record line).history = (s.history.push line).1 := rfl

@[simp] theorem SessionState.running_record (s : SessionState) (line : String) :
    (s.record line).running = s.running := rfl

@[simp] theorem SessionState.terminal_record (s : SessionState) (line : String) :
    (s.record line).transcript.terminal = s.transcript.terminal := rfl

@[simp] theorem SessionState.written_record (s : SessionState) (line : String) :
    (s.record line).transcript.written = "" := rfl

@[simp] theorem SessionState.history_display (s : SessionState) (lines : List (Severity × String)) :
    (s.display lines).history = s.history := rfl

@[simp] theorem SessionState.running_display (s : SessionState) (lines : List (Severity × String)) :
    (s.display lines).running = s.running := rfl

/-- Records and submits a line, and answers with what the transcript has written since. No session
command runs another one, so one active handler is enough, and none both clears the transcript and
shows lines, so these are displayed at the end. -/
def Session.submit (s : Session) (line : String) : Session × String :=
  let recorded := s.state.record line
  match s.console.submit 1 line recorded with
  | some o =>
    let state := o.state.display (hostLines o.events)
    ({ s with state := state }, state.transcript.written)
  | none => ({ s with state := recorded }, "")

/-- The answer to one line. -/
def Session.enter (s : Session) (line : String) : Session × String :=
  let cleaned := cleanLine s.console.config line
  match cleaned.toList with
  | [] => (s, "")
  | '?' :: r => s.suggest (String.ofList (trim r))
  | _ => s.submit cleaned

/-- What becomes of a session at a line of its input: it answers, and either waits for the next
line or ends, without an error or with one. -/
inductive Turn where
  | next (answer : String) (s : Session)
  | ended (answer : String) (succeeded : Bool)

/-- A line that is not text in UTF-8 ends the session with an error. -/
def Session.turn (s : Session) (bytes : List UInt8) : Turn :=
  match decodeText? bytes with
  | none => .ended "" false
  | some line =>
    let (next, answer) := s.enter line
    if next.state.running then .next answer next else .ended answer true

/-- Everything a session printed, and whether it ended without an error. -/
structure Report where
  output : String
  succeeded : Bool
  deriving DecidableEq, Repr

/-- Runs a session on the lines of its input, with a prompt before each line and one at the end of
the input. -/
def Session.run (s : Session) : List (List UInt8) → Report
  | [] => ⟨s.console.config.prompt, true⟩
  | bytes :: rest =>
    let prompt := s.console.config.prompt
    match s.turn bytes with
    | .next answer next =>
      let r := next.run rest
      ⟨prompt ++ answer ++ r.output, r.succeeded⟩
    | .ended answer succeeded => ⟨prompt ++ answer, succeeded⟩

/-- The lines of an input, each with the line feed at its end. -/
def splitLines : List UInt8 → List (List UInt8)
  | [] => []
  | b :: r =>
    if b = 10 then [b] :: splitLines r
    else match splitLines r with
      | [] => [[b]]
      | l :: ls => (b :: l) :: ls

/-- The configuration of a program. A file named by an argument goes before one named by the
environment, and a file that does not exist counts as none. -/
def startupConfig (decode : ConfigDecoder) (argument environment : Option ConfigFile) :
    Except ConsoleError Config :=
  match argument.or environment with
  | none | some (.missing _) => .ok .default
  | some file => Config.load decode file

/-- A program without a valid configuration prints nothing and fails. -/
def runProgram (decode : ConfigDecoder) (terminal : Bool)
    (argument environment : Option ConfigFile) (input : List UInt8) : Report :=
  match startupConfig decode argument environment with
  | .error _ => ⟨"", false⟩
  | .ok config => (Session.start terminal config).run (splitLines input)

theorem flatten_splitLines (input : List UInt8) : (splitLines input).flatten = input := by
  induction input with
  | nil => rfl
  | cons b r ih =>
    simp only [splitLines]
    split
    · simp [ih]
    · split
      · next h => rw [h] at ih; simp [← ih]
      · next l ls h => rw [h] at ih; simp [← ih]

end CommandConsole
