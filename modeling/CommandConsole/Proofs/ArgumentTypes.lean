import CommandConsole.Invocation
import CommandConsole.Parser.Builtin
import CommandConsole.Proofs.Resolution
import Mathlib.Data.List.Induction
set_option autoImplicit false

/-!
The types of bound arguments. Whatever the registered parsers produce, an argument has the type of
its parameter unless it is a default, and an accessor gives back the payload of exactly the values
of its type.
-/

namespace CommandConsole

/-- The types that have an accessor of their own. -/
inductive BuiltinType where
  | bool | int | float | string | vec2 | vec3
  deriving DecidableEq, Repr

namespace BuiltinType

def Carrier : BuiltinType → Type
  | .bool => Bool
  | .int => Int64
  | .float => Binary64
  | .string => String
  | .vec2 => Binary64 × Binary64
  | .vec3 => Binary64 × Binary64 × Binary64

def type : BuiltinType → ValueType
  | .bool => .bool
  | .int => .int
  | .float => .float
  | .string => .string
  | .vec2 => .vec2
  | .vec3 => .vec3

def value : (t : BuiltinType) → t.Carrier → Value
  | .bool, b => .bool b
  | .int, i => .int i
  | .float, x => .float x
  | .string, s => .string s
  | .vec2, v => .vec2 v.1 v.2
  | .vec3, v => .vec3 v.1 v.2.1 v.2.2

/-- The payload of a value of the type. -/
def payload? : (t : BuiltinType) → Value → Option t.Carrier
  | .bool, .bool b => some b
  | .int, .int i => some i
  | .float, .float x => some x
  | .string, .string s => some s
  | .vec2, .vec2 x y => some (x, y)
  | .vec3, .vec3 x y z => some (x, y, z)
  | _, _ => none

/-- The accessor of a type. -/
def read : (t : BuiltinType) → Invocation → Nat → Except ConsoleError t.Carrier
  | .bool => Invocation.bool
  | .int => Invocation.int
  | .float => Invocation.float
  | .string => Invocation.string
  | .vec2 => Invocation.vec2
  | .vec3 => Invocation.vec3

theorem payload?_value (t : BuiltinType) (x : t.Carrier) : t.payload? (t.value x) = some x := by
  cases t <;> rfl

theorem payload?_of_type_ne {t : BuiltinType} {v : Value} (h : v.type ≠ t.type) :
    t.payload? v = none := by
  cases t <;> cases v <;> first | rfl | exact (h rfl).elim

/-- A value of the type is made by its constructor. -/
theorem exists_value {t : BuiltinType} {v : Value} (h : v.type = t.type) :
    ∃ x, v = t.value x := by
  cases t <;> cases v <;> cases h <;> first
    | exact ⟨_, rfl⟩
    | exact ⟨(_, _), rfl⟩
    | exact ⟨(_, _, _), rfl⟩

section read

variable (t : BuiltinType) {call : Invocation} {index : Nat}

/-- All accessors are alike: they take the argument and look for the payload of their type. -/
theorem read_eq (call : Invocation) (index : Nat) :
    t.read call index = (call.value index).bind fun v =>
      match t.payload? v with
      | some x => .ok x
      | none => call.mistyped index t.type v := by
  cases t <;> refine congrArg (Except.bind (call.value index)) (funext fun v => ?_) <;>
    cases v <;> rfl

theorem read_value {x : t.Carrier} (h : call.arguments[index]? = some (t.value x)) :
    t.read call index = .ok x := by
  have hvalue : call.value index = .ok (t.value x) := by rw [Invocation.value, h]
  simp only [read_eq, hvalue, Except.bind, payload?_value]

theorem read_mistyped {v : Value} (h : call.arguments[index]? = some v) (hv : v.type ≠ t.type) :
    t.read call index = .error (.argument (.mistyped call.command index t.type v.type)) := by
  have hvalue : call.value index = .ok v := by rw [Invocation.value, h]
  simp only [read_eq, hvalue, Except.bind, payload?_of_type_ne hv, Invocation.mistyped]

theorem read_missing (h : call.arguments[index]? = none) :
    t.read call index =
      .error (.argument (.missing call.command index call.arguments.length)) := by
  have hvalue : call.value index =
      .error (.argument (.missing call.command index call.arguments.length)) := by
    rw [Invocation.value, h]
  simp only [read_eq, hvalue, Except.bind]

theorem read_ok_iff :
    (∃ x, t.read call index = .ok x) ↔
      ∃ v, call.arguments[index]? = some v ∧ v.type = t.type := by
  constructor
  · intro h
    obtain ⟨x, hx⟩ := h
    cases hv : call.arguments[index]? with
    | none => rw [t.read_missing hv] at hx; cases hx
    | some v =>
      refine ⟨v, rfl, ?_⟩
      by_contra hne
      rw [t.read_mistyped hv hne] at hx
      cases hx
  · intro h
    obtain ⟨v, hv, htype⟩ := h
    obtain ⟨x, rfl⟩ := exists_value htype
    exact ⟨x, t.read_value hv⟩

theorem read_ok_or_argument (call : Invocation) (index : Nat) :
    (∃ x, t.read call index = .ok x) ∨ ∃ fault, t.read call index = .error (.argument fault) := by
  cases hv : call.arguments[index]? with
  | none => exact .inr ⟨_, t.read_missing hv⟩
  | some v =>
    by_cases htype : v.type = t.type
    · exact .inl (t.read_ok_iff.2 ⟨v, hv, htype⟩)
    · exact .inr ⟨_, t.read_mistyped hv htype⟩

end read

end BuiltinType

/-- The parser of each type is the first one registered for it, and the context type has none. -/
def ParserTable.ofList (ps : List ValueParser) : ParserTable :=
  ps.foldl (fun t p => (t.register p).1) .empty

theorem ParserTable.find?_context_register {t : ParserTable} (h : t.find? .context = none)
    (p : ValueParser) : (t.register p).1.find? .context = none := by
  unfold register
  split
  · exact h
  · next hp =>
    have hne : p.type ≠ .context := fun hcontext => hp (.inl hcontext)
    simp only [find?] at h ⊢
    rw [List.find?_append, h]
    simp [hne]

theorem ParserTable.find?_context_ofList (ps : List ValueParser) :
    (ofList ps).find? .context = none := by
  induction ps using List.reverseRecOn with
  | nil => rfl
  | append_singleton ps p ih =>
    have hlast : ofList (ps ++ [p]) = ((ofList ps).register p).1 := by simp [ofList]
    rw [hlast]
    exact find?_context_register ih p

theorem ParserTable.type_of_convert {t : ParserTable} {type : ValueType} {token : String}
    {v : Value} (h : t.convert type token = .ok v) : v.type = type := by
  unfold convert at h
  split at h
  · cases h
  · split at h
    · cases h
    · split at h
      · next hcheck =>
        cases h
        exact (type_eq_of_checkType hcheck).2
      · cases h

/-- No token is read as the console. -/
theorem ParserTable.not_context {t : ParserTable} (h : t.find? .context = none)
    (type : ValueType) (token : String) :
    t.tryConvert type token ≠ some .context ∧ t.convert type token ≠ .ok .context := by
  constructor
  · intro hv
    have htype : ValueType.context = type := type_of_tryConvert hv
    subst htype
    simp [tryConvert, h] at hv
  · intro hv
    have htype : ValueType.context = type := type_of_convert hv
    subst htype
    simp [convert, h] at hv

theorem Registry.find?_context_enterAll {α : Type} {r : Registry α}
    (h : r.parsers.find? .context = none) (history : List (Registration α)) :
    (r.enterAll history).parsers.find? .context = none := by
  induction history generalizing r with
  | nil => exact h
  | cons x history ih =>
    refine ih (r := r.enter x) ?_
    cases x with
    | command o =>
      simp only [enter, register]
      split <;> exact h
    | parser p => exact ParserTable.find?_context_register h p

/-- The parameter at a place takes a token, none is left for it, and its default stands in. -/
structure FilledByDefault (params : List Param) (tokens : List String) (place : Nat)
    (v : Value) : Prop where
  default_eq : ∃ p, params[place]? = some p ∧ p.isContext = false ∧ p.default? = some v
  none_left : tokens.length ≤ (slots (params.take place)).length

theorem boundValue?_typed {parsers : ParserTable} {params : List Param} {tokens : List String}
    {place : Nat} {p : Param} {v : Value} (hp : params[place]? = some p)
    (hv : boundValue? parsers params tokens place = some v) :
    v.type = p.type ∨ FilledByDefault params tokens place v := by
  simp only [boundValue?, hp, Option.bind_some] at hv
  cases hcontext : p.isContext with
  | true =>
    rw [if_pos hcontext, Option.some.injEq] at hv
    have htype : p.type = .context := by simpa [Param.isContext] using hcontext
    exact .inl (by rw [← hv, htype]; rfl)
  | false =>
    rw [if_neg (by simp [hcontext])] at hv
    cases htoken : tokens[(slots (params.take place)).length]? with
    | some token =>
      rw [htoken] at hv
      exact .inl (ParserTable.type_of_tryConvert hv)
    | none =>
      rw [htoken] at hv
      exact .inr ⟨⟨p, hp, hcontext, hv⟩, List.getElem?_eq_none_iff.1 htoken⟩

/-- A token is never bound as the console. -/
theorem ne_context_of_token {params : List Param} {tokens : List String} {place : Nat} {p : Param}
    {v : Value} (hv : v.type = p.type ∨ FilledByDefault params tokens place v)
    (hp : p.isContext = false) (htoken : (slots (params.take place)).length < tokens.length) :
    v ≠ .context := by
  intro hcontext
  rcases hv with htype | hdefault
  · rw [hcontext] at htype
    simp [Param.isContext, ← htype, Value.type] at hp
  · have hleft := hdefault.none_left
    omega

/-- A call that resolves has one argument for each parameter of its overload, of the type of the
parameter or else its default where no token was left, whatever the parsers are. An accessor gives
back the argument where its type is that of the parameter, up to a default of another type; it
succeeds exactly on arguments of its type, and fails as an argument error elsewhere. Only a
context parameter has the console, which no parser of a registry reads from a token. -/
theorem arguments_typed {α : Type} :
    (∀ (r : Registry α) (name : String) (tokens : List String) (res : Resolution α),
      r.resolve name tokens = .ok res →
      let params := res.overload.signature.params
      let call : Invocation := ⟨name, res.arguments⟩
      res.arguments.length = params.length ∧
      (∀ (place : Nat) (p : Param), params[place]? = some p →
        ∃ v, res.arguments[place]? = some v ∧
          (v.type = p.type ∨ FilledByDefault params tokens place v) ∧
          (p.isContext = false → (slots (params.take place)).length < tokens.length →
            v ≠ .context) ∧
          ∀ t : BuiltinType, p.type = t.type →
            (∃ x, v = t.value x ∧ t.read call place = .ok x) ∨
              v.type ≠ t.type ∧ FilledByDefault params tokens place v) ∧
      ∀ (t : BuiltinType) (place : Nat),
        ((∃ x, t.read call place = .ok x) ↔
          place < params.length ∧ (res.arguments[place]?).map Value.type = some t.type) ∧
        ((∃ x, t.read call place = .ok x) ∨
          ∃ fault, t.read call place = .error (.argument fault))) ∧
    ∀ (ps : List ValueParser) (history : List (Registration α)) (type : ValueType)
      (token : String),
      let r := (Registry.empty (.ofList ps)).enterAll history
      r.parsers.tryConvert type token ≠ some .context ∧
        r.parsers.convert type token ≠ .ok .context := by
  refine ⟨?_, fun ps history => ParserTable.not_context
    (Registry.find?_context_enterAll (ParserTable.find?_context_ofList ps) history)⟩
  intro r name tokens res hres params call
  obtain ⟨i, -, -, hbind, -⟩ := firstViable?_eq_some (Registry.resolve_eq_ok_iff.1 hres)
  have hparams := Signature.bindParams_of_bind hbind
  have hlength : res.arguments.length = params.length := length_of_bindParams hparams
  refine ⟨hlength, ?_, ?_⟩
  · intro place p hp
    obtain ⟨hlt, -⟩ := List.getElem?_eq_some_iff.1 hp
    have hv : res.arguments[place]? = some res.arguments[place] :=
      List.getElem?_eq_getElem (hlength ▸ hlt)
    have htyped := boundValue?_typed hp ((bindParams_value hparams place).symm.trans hv)
    refine ⟨_, hv, htyped, fun hcontext htoken => ne_context_of_token htyped hcontext htoken, ?_⟩
    intro t ht
    by_cases htype : (res.arguments[place]).type = t.type
    · obtain ⟨x, hx⟩ := BuiltinType.exists_value htype
      exact .inl ⟨x, hx, t.read_value (hx ▸ hv)⟩
    · exact .inr ⟨htype, htyped.resolve_left (ht ▸ htype)⟩
  · intro t place
    refine ⟨?_, t.read_ok_or_argument call place⟩
    rw [t.read_ok_iff]
    constructor
    · intro h
      obtain ⟨v, hv, htype⟩ := h
      obtain ⟨hlt, -⟩ := List.getElem?_eq_some_iff.1 hv
      exact ⟨hlength ▸ hlt, by rw [hv, Option.map_some, htype]⟩
    · intro h
      exact Option.map_eq_some_iff.1 h.2

/-- A parser that gives other types too, and a default that has not the type of its parameter. -/
theorem arguments_typed_default :
    let switch : Value := .custom ⟨"switch", .flag true, 0⟩
    let parser : ValueParser := .ofProbe (.custom "switch") fun token =>
      some (if token = "on" then switch else .bool true)
    let signature : Signature := ⟨"power", [.context "console", .required "state" parser.type,
      .optional "level" .int (.string "full")], "", ""⟩
    let r : Registry Unit := (Registry.empty (.ofList [parser])).register ⟨signature, ()⟩
    let bound := [.context, switch, .string "full"]
    r.resolve "power" ["on"] = .ok ⟨⟨signature, ()⟩, 0, bound⟩ ∧
      (∃ text, Invocation.string ⟨"power", bound⟩ 2 = .ok text) ∧
      ∃ fault, Invocation.int ⟨"power", bound⟩ 2 = .error (.argument fault) := by
  intro switch parser signature r bound
  have hregister : r = ⟨[⟨signature, ()⟩], (Trie.empty.insert "power").1, .ofList [parser]⟩ :=
    if_pos (by decide +kernel)
  have hres : r.resolve "power" ["on"] = .ok ⟨⟨signature, ()⟩, 0, bound⟩ := by
    rw [hregister]
    rfl
  obtain ⟨-, -, haccess⟩ := arguments_typed.1 r "power" ["on"] _ hres
  refine ⟨hres, (haccess .string 2).1.2 (by decide), (haccess .int 2).2.resolve_left ?_⟩
  exact mt (haccess .int 2).1.1 (by decide)

end CommandConsole
