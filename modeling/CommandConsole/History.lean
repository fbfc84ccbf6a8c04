import CommandConsole.Text.Blank
set_option autoImplicit false

/-!
A bounded history of lines. No entry is blank or padded and no two neighbours are equal.
-/

namespace CommandConsole

/-- The newest entry comes first. -/
structure History where
  capacity : Nat
  entries : List String
  deriving DecidableEq, Repr

/-- How many entries are kept where nothing else is asked for. -/
def defaultHistorySize : Nat := 75

def History.empty (capacity : Nat) : History := ⟨capacity, []⟩

def History.size (h : History) : Nat := h.entries.length

def History.isEmpty (h : History) : Bool := h.entries.isEmpty

def History.get? (h : History) (index : Nat) : Option String := h.entries[index]?

def History.clear (h : History) : History := { h with entries := [] }

/-- Records a line without the blanks around it and tells whether it did. A blank line and a
repeat of the newest entry are not recorded; the oldest entry gives way when there is no room. -/
def History.push (h : History) (line : String) : History × Bool :=
  let line := trimmed line
  if line = "" ∨ h.capacity = 0 ∨ h.entries.head? = some line then (h, false)
  else ({ h with entries := (line :: h.entries).take h.capacity }, true)

theorem History.capacity_push (h : History) (line : String) :
    (h.push line).1.capacity = h.capacity := by
  unfold push; dsimp only; split <;> rfl

end CommandConsole
