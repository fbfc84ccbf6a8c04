import CommandConsole.Parser
set_option autoImplicit false

/-!
Signatures of commands: their parameters, and how tokens are bound to them from left to right.
-/

namespace CommandConsole

/-- A parameter of the context type stands for the console and takes no token. A default makes a
parameter optional. -/
structure Param where
  name : String
  type : ValueType
  default? : Option Value
  deriving DecidableEq, Repr

def Param.required (name : String) (type : ValueType) : Param := ⟨name, type, none⟩

def Param.optional (name : String) (type : ValueType) (value : Value) : Param :=
  ⟨name, type, some value⟩

def Param.context (name : String) : Param := ⟨name, .context, none⟩

def Param.isContext (p : Param) : Bool := p.type == .context

def Param.isOptional (p : Param) : Bool := p.default?.isSome

/-- What is declared about an overload. An empty description or usage means none. -/
structure Signature where
  name : String
  params : List Param
  description : String
  usage : String
  deriving DecidableEq, Repr

def nonEmpty? (s : String) : Option String := if s = "" then none else some s

def Signature.description? (s : Signature) : Option String := nonEmpty? s.description

def Signature.usage? (s : Signature) : Option String := nonEmpty? s.usage

def Signature.accepted (s : Signature) : Nat := s.params.countP (!·.isContext)

def Signature.required (s : Signature) : Nat :=
  s.params.countP fun p => !p.isContext && !p.isOptional

/-- Binds the parameters from left to right: the console to a context parameter, the next token to
another one, and the default where no token is left. -/
def bindParams (parsers : ParserTable) : List Param → List String → Option (List Value)
  | [], _ => some []
  | p :: ps, tokens =>
    if p.isContext then (bindParams parsers ps tokens).map (.context :: ·)
    else match tokens with
      | [] => p.default?.bind fun v => (bindParams parsers ps []).map (v :: ·)
      | token :: rest =>
        (parsers.tryConvert p.type token).bind fun v =>
          (bindParams parsers ps rest).map (v :: ·)

/-- One value for each parameter, if the number of tokens and every token fits. -/
def Signature.bind (s : Signature) (parsers : ParserTable) (tokens : List String) :
    Option (List Value) :=
  if s.required ≤ tokens.length ∧ tokens.length ≤ s.accepted then
    bindParams parsers s.params tokens
  else none

def bindParamsDiagnostics (parsers : ParserTable) : List Param → List String → List Diagnostic
  | [], _ => []
  | p :: ps, tokens =>
    if p.isContext then bindParamsDiagnostics parsers ps tokens
    else match tokens with
      | [] => if p.isOptional then bindParamsDiagnostics parsers ps [] else []
      | token :: rest =>
        parsers.tryConvertDiagnostics p.type token ++
          if (parsers.tryConvert p.type token).isSome then bindParamsDiagnostics parsers ps rest
          else []

def Signature.bindDiagnostics (s : Signature) (parsers : ParserTable) (tokens : List String) :
    List Diagnostic :=
  if s.required ≤ tokens.length ∧ tokens.length ≤ s.accepted then
    bindParamsDiagnostics parsers s.params tokens
  else []

theorem length_of_bindParams {parsers : ParserTable} {params : List Param} {tokens : List String}
    {values : List Value} (h : bindParams parsers params tokens = some values) :
    values.length = params.length := by
  induction params generalizing tokens values with
  | nil => simp only [bindParams, Option.some.injEq] at h; simp [← h]
  | cons p ps ih =>
    simp only [bindParams] at h
    split at h
    · obtain ⟨w, hw, rfl⟩ := Option.map_eq_some_iff.1 h
      simp [ih hw]
    · split at h
      · obtain ⟨_, _, h⟩ := Option.bind_eq_some_iff.1 h
        obtain ⟨w, hw, rfl⟩ := Option.map_eq_some_iff.1 h
        simp [ih hw]
      · obtain ⟨_, _, h⟩ := Option.bind_eq_some_iff.1 h
        obtain ⟨w, hw, rfl⟩ := Option.map_eq_some_iff.1 h
        simp [ih hw]

end CommandConsole
