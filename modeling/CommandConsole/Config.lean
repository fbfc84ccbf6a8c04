import CommandConsole.History
set_option autoImplicit false

/-!
What can be configured about a console and the program around it.
-/

namespace CommandConsole

structure Config where
  historySize : Nat
  maxSuggestions : Nat
  includeExactSuggestion : Bool
  prompt : String
  prohibitedChars : List Char
  deriving DecidableEq, Repr

def Config.default : Config := ⟨defaultHistorySize, 5, false, "> ", []⟩

def Config.strip (c : Config) (text : String) : String :=
  String.ofList (text.toList.filter (!c.prohibitedChars.contains ·))

@[simp] theorem Config.strip_strip (c : Config) (text : String) :
    c.strip (c.strip text) = c.strip text := by simp [strip]

end CommandConsole
