import CommandConsole.Trie
set_option autoImplicit false

/-!
A buffer of suggestions that is filled again and again. Slots that a query does not reach keep
their old text behind the filled ones, and every query walks the trie with the same path.
-/

namespace CommandConsole

/-- The first `filled` slots hold the suggestions; at most `capacity` slots are ever used. The path
of a query has its last character first. -/
structure Suggestions where
  slots : List String
  capacity : Nat
  filled : Nat
  path : List Char
  deriving DecidableEq, Repr

def Suggestions.empty (capacity : Nat) : Suggestions := ⟨[], capacity, 0, []⟩

def Suggestions.isEmpty (b : Suggestions) : Bool := b.filled == 0

def Suggestions.isFull (b : Suggestions) : Bool := b.capacity ≤ b.filled

def Suggestions.toList (b : Suggestions) : List String := b.slots.take b.filled

def Suggestions.get? (b : Suggestions) (index : Nat) : Option String := b.toList[index]?

def Suggestions.clear (b : Suggestions) : Suggestions := { b with filled := 0 }

/-- Begins a path with a text. -/
def Suggestions.start (b : Suggestions) (text : List Char) : Suggestions :=
  { b with path := text.reverse }

def Suggestions.descend (b : Suggestions) (c : Char) : Suggestions := { b with path := c :: b.path }

def Suggestions.ascend (b : Suggestions) : Suggestions := { b with path := b.path.tail }

/-- Fills the next slot with the path, which replaces an old text or opens a new slot. A full
buffer stays as it is. -/
def Suggestions.pushPath (b : Suggestions) : Suggestions :=
  if b.isFull then b
  else if b.filled < b.slots.length then
    { b with slots := b.slots.set b.filled (String.ofList b.path.reverse), filled := b.filled + 1 }
  else { b with slots := b.slots ++ [String.ofList b.path.reverse], filled := b.filled + 1 }

/-- Pushes the words below the path until the buffer is full. -/
def Suggestions.pushWords : Branches → Suggestions → Suggestions
  | .nil, b => b
  | .branch c e below rest, b =>
    if b.isFull then b
    else
      let entered := b.descend c
      let here := if e then entered.pushPath else entered
      pushWords rest (pushWords below here).ascend

/-- Refills the buffer with the words that start with a text, as many as it holds. -/
def Suggestions.fill (b : Suggestions) (t : Trie) (start : String) (exact : Bool) : Suggestions :=
  if start.toList = [] then b.clear
  else match t.find? start.toList with
    | none => b.clear
    | some (e, below) =>
      let entered := b.clear.start start.toList
      pushWords below (if e && exact then entered.pushPath else entered)

/-- Orders the filled slots by their number of characters. Equal lengths keep their order, and
the slots behind stay where they are. -/
def Suggestions.sortByLength (b : Suggestions) : Suggestions :=
  { b with slots := (b.toList.mergeSort fun x y => x.length ≤ y.length) ++ b.slots.drop b.filled }

end CommandConsole
