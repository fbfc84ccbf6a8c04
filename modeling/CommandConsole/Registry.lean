import CommandConsole.Signature
import CommandConsole.Suggestions
import CommandConsole.Text.Blank
set_option autoImplicit false

/-!
The registry of command overloads, and how a call picks one of them. The overloads of a name are
tried in the order of their registration, and the first one that can take all the tokens is
chosen.
-/

namespace CommandConsole

structure Overload (α : Type) where
  signature : Signature
  action : α

/-- The overload chosen for a call, its place among those of its name, and one value for each of
its parameters. -/
structure Resolution (α : Type) where
  overload : Overload α
  index : Nat
  arguments : List Value

/-- The first of the overloads that can take the tokens, where the first one has the number
`index`. -/
def firstViable? {α : Type} (parsers : ParserTable) (tokens : List String) (index : Nat) :
    List (Overload α) → Option (Resolution α)
  | [] => none
  | o :: os =>
    match o.signature.bind parsers tokens with
    | some values => some ⟨o, index, values⟩
    | none => firstViable? parsers tokens (index + 1) os

def viabilityDiagnostics {α : Type} (parsers : ParserTable) (tokens : List String) (index : Nat) :
    List (Overload α) → List Diagnostic
  | [] => []
  | o :: os =>
    o.signature.bindDiagnostics parsers tokens ++
      match o.signature.bind parsers tokens with
      | some _ => [.overloadChosen o.signature.name index]
      | none => viabilityDiagnostics parsers tokens (index + 1) os

/-- All overloads in the order of their registration, the set of their names, and the parsers. -/
structure Registry (α : Type) where
  overloads : List (Overload α)
  names : Trie
  parsers : ParserTable

def Registry.empty {α : Type} (parsers : ParserTable) : Registry α := ⟨[], .empty, parsers⟩

/-- A name that a line can begin with. -/
def isTypeable (name : String) : Bool := name.toList != [] && !name.toList.any isBlank

/-- Adds an overload, unless its name could never be typed. -/
def Registry.register {α : Type} (r : Registry α) (o : Overload α) : Registry α :=
  if isTypeable o.signature.name then
    { r with overloads := r.overloads ++ [o], names := (r.names.insert o.signature.name).1 }
  else r

def registerDiagnostic (s : Signature) : Diagnostic :=
  if isTypeable s.name then .overloadRegistered s.name s.params.length
  else .untypeableNameSkipped s.name

/-- Adds a parser and tells whether it did. -/
def Registry.registerParser {α : Type} (r : Registry α) (p : ValueParser) : Registry α × Bool :=
  ({ r with parsers := (r.parsers.register p).1 }, (r.parsers.register p).2)

def Registry.named {α : Type} (r : Registry α) (name : String) : List (Overload α) :=
  r.overloads.filter (·.signature.name == name)

def Registry.contains {α : Type} (r : Registry α) (name : String) : Bool :=
  !(r.named name).isEmpty

/-- The overloads of a name, where it has any. -/
def Registry.overloads? {α : Type} (r : Registry α) (name : String) : Option (List (Overload α)) :=
  if r.contains name then some (r.named name) else none

/-- The names that overloads are kept under, in the order of their first registration. -/
def Registry.keys {α : Type} (r : Registry α) : List String :=
  (r.overloads.map (·.signature.name)).eraseDups

/-- How many names have overloads. -/
def Registry.size {α : Type} (r : Registry α) : Nat := r.keys.length

def Registry.isEmpty {α : Type} (r : Registry α) : Bool := r.overloads.isEmpty

def Registry.resolve {α : Type} (r : Registry α) (name : String) (tokens : List String) :
    Except ConsoleError (Resolution α) :=
  match r.named name with
  | [] => .error (.unknownCommand name)
  | o :: os =>
    match firstViable? r.parsers tokens 0 (o :: os) with
    | some resolution => .ok resolution
    | none => .error (.noMatchingOverload name)

def Registry.resolveDiagnostics {α : Type} (r : Registry α) (name : String)
    (tokens : List String) : List Diagnostic :=
  viabilityDiagnostics r.parsers tokens 0 (r.named name)

/-- The overloads in the order of their names. Those of one name keep their order. -/
def sortByName {α : Type} (os : List (Overload α)) : List (Overload α) :=
  os.mergeSort fun a b => decide (a.signature.name ≤ b.signature.name)

/-- The registry without what its overloads do. Nothing tells in which order different names or
different types were registered, since no answer of a registry does. -/
def Registry.signatures {α : Type} (r : Registry α) : Registry Unit where
  overloads := (sortByName r.overloads).map fun o => ⟨o.signature, ()⟩
  names := r.names
  parsers := r.parsers.sorted

theorem Registry.named_register {α : Type} (r : Registry α) (o : Overload α) (name : String) :
    (r.register o).named name =
      r.named name ++
        if isTypeable o.signature.name ∧ o.signature.name = name then [o] else [] := by
  unfold register named
  split
  · next h =>
    by_cases hn : o.signature.name = name
    · subst hn; simp [List.filter_append, h]
    · simp [List.filter_append, hn]
  · next h => simp [h]

end CommandConsole
