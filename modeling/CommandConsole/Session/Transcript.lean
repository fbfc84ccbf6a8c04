import CommandConsole.Event
set_option autoImplicit false

/-!
The transcript of a session: the lines on display, and how they are written. On a terminal a line
has the colour of its severity, and the screen can be cleared.
-/

namespace CommandConsole

/-- The control sequence that a colour begins with. Messages have no colour. -/
def Severity.color : Severity → String
  | .message => ""
  | .success => "\x1b[32m"
  | .warning => "\x1b[33m"
  | .error => "\x1b[31m"

def colorEnd : String := "\x1b[0m"

def screenClear : String := "\x1b[2J\x1b[H"

/-- A displayed line as it is written, on a terminal or elsewhere. -/
def writtenLine (terminal : Bool) (line : Severity × String) : String :=
  if terminal && line.1 != .message then line.1.color ++ line.2 ++ colorEnd ++ "\n"
  else line.2 ++ "\n"

def writtenLines (terminal : Bool) (lines : List (Severity × String)) : String :=
  String.join (lines.map (writtenLine terminal))

/-- The displayed lines, the newest one first, and what was written since the last line of the input
was echoed. -/
structure Transcript where
  terminal : Bool
  lines : List (Severity × String)
  written : String
  deriving DecidableEq, Repr

namespace Transcript

def empty (terminal : Bool) : Transcript := ⟨terminal, [], ""⟩

/-- Displays a line of the input. It is not written, since whoever typed it has it on the screen. -/
def echo (t : Transcript) (line : String) : Transcript :=
  { t with lines := (.message, "> " ++ line) :: t.lines, written := "" }

def log (t : Transcript) (line : Severity × String) : Transcript :=
  { t with lines := line :: t.lines, written := t.written ++ writtenLine t.terminal line }

def logAll (t : Transcript) (lines : List (Severity × String)) : Transcript := lines.foldl log t

/-- Only a terminal is cleared together with the lines. -/
def clear (t : Transcript) : Transcript :=
  { t with lines := [], written := t.written ++ if t.terminal then screenClear else "" }

theorem logAll_cons (t : Transcript) (line : Severity × String) (lines : List (Severity × String)) :
    t.logAll (line :: lines) = (t.log line).logAll lines := rfl

@[simp] theorem terminal_logAll (t : Transcript) (lines : List (Severity × String)) :
    (t.logAll lines).terminal = t.terminal := by
  induction lines generalizing t with
  | nil => rfl
  | cons line lines ih => rw [logAll_cons, ih, log]

theorem written_logAll (t : Transcript) (lines : List (Severity × String)) :
    (t.logAll lines).written = t.written ++ writtenLines t.terminal lines := by
  induction lines generalizing t with
  | nil => exact String.append_empty.symm
  | cons line lines ih =>
    rw [logAll_cons, ih, log, writtenLines, writtenLines, List.map_cons, String.join_cons,
      String.append_assoc]

end Transcript

example : writtenLine true (.error, "no") = "\x1b[31mno\x1b[0m\n" := by decide
example : writtenLine true (.message, "yes") = writtenLine false (.error, "yes") := by decide

end CommandConsole
