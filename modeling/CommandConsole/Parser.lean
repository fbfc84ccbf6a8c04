import CommandConsole.Event
set_option autoImplicit false

/-!
Parsers that turn tokens into values of one type each, and the table of them. The first parser
registered for a type stays.
-/

namespace CommandConsole

/-- A parser probes a token, and reads it with an error where the probe only refuses. -/
structure ValueParser where
  type : ValueType
  probe : String → Option Value
  read : String → Except ConsoleError Value

/-- The parser whose errors all say that the token is no value of the type. -/
def ValueParser.ofProbe (type : ValueType) (probe : String → Option Value) : ValueParser where
  type := type
  probe := probe
  read token := match probe token with
    | some v => .ok v
    | none => .error (.unreadable type token)

structure ParserTable where
  parsers : List ValueParser

def ParserTable.empty : ParserTable := ⟨[]⟩

def ParserTable.find? (t : ParserTable) (type : ValueType) : Option ValueParser :=
  t.parsers.find? (·.type == type)

def ParserTable.contains (t : ParserTable) (type : ValueType) : Bool := (t.find? type).isSome

/-- Adds a parser and tells whether it did: not for the context type, nor for a type that has
one. -/
def ParserTable.register (t : ParserTable) (p : ValueParser) : ParserTable × Bool :=
  if p.type = .context ∨ t.contains p.type then (t, false) else (⟨t.parsers ++ [p]⟩, true)

def ParserTable.registerDiagnostic (t : ParserTable) (p : ValueParser) : Diagnostic :=
  if p.type = .context then .contextParserIgnored
  else if t.contains p.type then .duplicateParserIgnored p.type
  else .parserRegistered p.type

/-- A value counts only if it has the type that its parser is registered for. -/
def checkType (type : ValueType) (v : Value) : Option Value :=
  if v.type = type then some v else none

def ParserTable.tryConvert (t : ParserTable) (type : ValueType) (token : String) : Option Value :=
  (t.find? type).bind fun p => (p.probe token).bind (checkType type)

def ParserTable.convert (t : ParserTable) (type : ValueType) (token : String) :
    Except ConsoleError Value :=
  match t.find? type with
  | none => .error (.unknownType type)
  | some p =>
    match p.read token with
    | .error e => .error e
    | .ok v =>
      match checkType type v with
      | some v => .ok v
      | none => .error (.unreadable type token)

/-- The parsers in the order of their types, which is all that the answers of a table show. -/
def ParserTable.sorted (t : ParserTable) : ParserTable :=
  ⟨t.parsers.mergeSort fun p q => p.type.le q.type⟩

def checkDiagnostics (type : ValueType) (v : Value) : List Diagnostic :=
  if v.type = type then [] else [.mistypedValueRejected type v.type]

def ParserTable.tryConvertDiagnostics (t : ParserTable) (type : ValueType) (token : String) :
    List Diagnostic :=
  match t.find? type with
  | none => []
  | some p =>
    match p.probe token with
    | none => []
    | some v => checkDiagnostics type v

def ParserTable.convertDiagnostics (t : ParserTable) (type : ValueType) (token : String) :
    List Diagnostic :=
  match t.find? type with
  | none => []
  | some p =>
    match p.read token with
    | .error _ => []
    | .ok v => checkDiagnostics type v

theorem type_eq_of_checkType {type : ValueType} {v w : Value} (h : checkType type v = some w) :
    w = v ∧ w.type = type := by
  unfold checkType at h
  split at h
  · next hv => cases h; exact ⟨rfl, hv⟩
  · cases h

theorem ParserTable.type_of_tryConvert {t : ParserTable} {type : ValueType} {token : String}
    {v : Value} (h : t.tryConvert type token = some v) : v.type = type := by
  simp only [tryConvert, Option.bind_eq_some_iff] at h
  obtain ⟨_, _, _, _, h⟩ := h
  exact (type_eq_of_checkType h).2

end CommandConsole
