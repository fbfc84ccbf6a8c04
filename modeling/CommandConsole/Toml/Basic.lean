import CommandConsole.Binary64
set_option autoImplicit false

/-!
TOML values, and how statements build a table. A table remembers what brought it about, because
that decides which later statements may still add to it.
-/

namespace CommandConsole

/-- Written out as a value, opened by a header, implied by the path of a header, or implied by a
dotted key. -/
inductive TableOrigin where
  | inline | header | path | dotted
  deriving DecidableEq, Repr

/-- Dates and times are checked while they are read and not kept. -/
inductive Toml where
  | string (s : String)
  | integer (i : Int64)
  | float (x : Binary64)
  | boolean (b : Bool)
  | moment
  | array (elements : List Toml)
  | table (origin : TableOrigin) (entries : List (String × Toml))
  | tables (elements : List (List (String × Toml)))

abbrev Entries := List (String × Toml)

/-- Replaces the value of a key in its place, or adds the key at the end. -/
def Entries.put (key : String) (v : Toml) : Entries → Entries
  | [] => [(key, v)]
  | e :: es => if e.1 = key then (key, v) :: es else e :: put key v es

/-- Changes the table at the end of a path. Missing tables on the way are made. A path leads
through the last element of an array of tables; it never enters a value, and the path of a dotted
key enters no table that has a header. -/
def Entries.within (isDotted : Bool) (f : TableOrigin → Entries → Option Entries) :
    List String → TableOrigin → Entries → Option Entries
  | [], origin, es => f origin es
  | key :: path, _, es =>
    match es.lookup key with
    | none =>
      let origin := if isDotted then .dotted else .path
      (within isDotted f path origin []).map fun sub => es ++ [(key, .table origin sub)]
    | some (.table origin sub) =>
      if origin = .inline ∨ (isDotted ∧ origin = .header) then none
      else (within isDotted f path origin sub).map fun sub => put key (.table origin sub) es
    | some (.tables elements) =>
      match elements.getLast? with
      | none => none
      | some last =>
        (within isDotted f path .header last).map fun sub =>
          put key (.tables (elements.dropLast ++ [sub])) es
    | some _ => none

/-- Gives a new key its value. The table of a dotted key must have come about by dotted keys, and
that of a plain key must not. -/
def Entries.define (path : List String) (key : String) (v : Toml) (origin : TableOrigin)
    (es : Entries) : Option Entries :=
  within true (fun origin es =>
    if (origin = .dotted) ↔ path = [] then none
    else if (es.lookup key).isSome then none
    else some (es ++ [(key, v)])) path origin es

/-- A statement: a key with its value, or a header that opens a table or one more table of an
array. The path leads to the table that holds the key. -/
inductive Statement where
  | pair (path : List String) (key : String) (v : Toml)
  | header (path : List String) (key : String)
  | element (path : List String) (key : String)

/-- Opens a table, which must be new or so far only implied by headers. -/
def Entries.openTable (key : String) (es : Entries) : Option Entries :=
  match es.lookup key with
  | none => some (es ++ [(key, .table .header [])])
  | some (.table .path sub) => some (put key (.table .header sub) es)
  | some _ => none

/-- Adds a table to an array of tables, which may be new. -/
def Entries.openElement (key : String) (es : Entries) : Option Entries :=
  match es.lookup key with
  | none => some (es ++ [(key, .tables [[]])])
  | some (.tables elements) => some (put key (.tables (elements ++ [[]])) es)
  | some _ => none

/-- A document so far: its entries and the path of the table that is open. -/
structure Draft where
  root : Entries
  current : List String

def Draft.add (d : Draft) : Statement → Option Draft
  | .pair path key v =>
    (Entries.within false (Entries.define path key v) d.current .header d.root).map fun root =>
      { d with root := root }
  | .header path key =>
    (Entries.within false (fun _ => Entries.openTable key) path .header d.root).map fun root =>
      ⟨root, path ++ [key]⟩
  | .element path key =>
    (Entries.within false (fun _ => Entries.openElement key) path .header d.root).map fun root =>
      ⟨root, path ++ [key]⟩

/-- The table that the statements describe, unless one contradicts an earlier one. -/
def Entries.ofStatements? (statements : List Statement) : Option Entries :=
  (statements.foldlM Draft.add ⟨[], []⟩).map (·.root)

def Entries.ofPairs? (pairs : List (List String × String × Toml)) : Option Entries :=
  pairs.foldlM (fun es p => define p.1 p.2.1 p.2.2 .header es) []

end CommandConsole
