import CommandConsole.Signature
set_option autoImplicit false

/-!
When a signature can take a list of tokens, said without walking over its parameters: the
parameters that take a token are numbered from left to right, and each token is read by the one
with its number. The walk that binds the parameters succeeds exactly then.
-/

namespace CommandConsole

/-- The parameters that take a token, from left to right. -/
def slots (params : List Param) : List Param := params.filter (!·.isContext)

/-- Tokens that the parameters can take. The required parameters are not counted: what has no
token needs a default, wherever it stands. -/
structure Viable (parsers : ParserTable) (params : List Param) (tokens : List String) : Prop where
  fits : tokens.length ≤ (slots params).length
  converts : ∀ x ∈ (slots params).zip tokens, (parsers.tryConvert x.1.type x.2).isSome
  defaults : ∀ p ∈ (slots params).drop tokens.length, p.isOptional

instance (parsers : ParserTable) (params : List Param) (tokens : List String) :
    Decidable (Viable parsers params tokens) :=
  decidable_of_iff
    (tokens.length ≤ (slots params).length ∧
      (∀ x ∈ (slots params).zip tokens, (parsers.tryConvert x.1.type x.2).isSome) ∧
      ∀ p ∈ (slots params).drop tokens.length, p.isOptional)
    ⟨fun ⟨h₁, h₂, h₃⟩ => ⟨h₁, h₂, h₃⟩, fun h => ⟨h.fits, h.converts, h.defaults⟩⟩

/-- The value for the parameter at a place: the console for a context parameter, whether it has a
default or not, the converted token with the number of the parameter, or else the default. -/
def boundValue? (parsers : ParserTable) (params : List Param) (tokens : List String)
    (place : Nat) : Option Value :=
  params[place]?.bind fun p =>
    if p.isContext then some .context
    else match tokens[(slots (params.take place)).length]? with
      | some token => parsers.tryConvert p.type token
      | none => p.default?

/-- The tokens that a parameter leaves for those after it. -/
def tokensAfter (p : Param) (tokens : List String) : List String :=
  if p.isContext then tokens else tokens.drop 1

@[simp] theorem slots_nil : slots [] = [] := rfl

theorem slots_cons_context {p : Param} {ps : List Param} (h : p.isContext = true) :
    slots (p :: ps) = slots ps := by simp [slots, h]

theorem slots_cons_slot {p : Param} {ps : List Param} (h : p.isContext = false) :
    slots (p :: ps) = p :: slots ps := by simp [slots, h]

theorem Signature.accepted_eq (s : Signature) : s.accepted = (slots s.params).length :=
  List.countP_eq_length_filter

theorem Signature.required_eq (s : Signature) :
    s.required = (slots s.params).countP (!·.isOptional) := by
  simp only [required, slots, List.countP_filter, Bool.and_comm]

/-- Counting the required parameters refuses nothing more. -/
theorem Viable.required_le {parsers : ParserTable} {s : Signature} {tokens : List String}
    (h : Viable parsers s.params tokens) : s.required ≤ tokens.length := by
  have hrest : ((slots s.params).drop tokens.length).countP (!·.isOptional) = 0 := by
    rw [List.countP_eq_zero]
    intro p hp
    simp [h.defaults p hp]
  calc
    s.required = ((slots s.params).take tokens.length ++
        (slots s.params).drop tokens.length).countP (!·.isOptional) := by
      rw [s.required_eq, List.take_append_drop]
    _ = ((slots s.params).take tokens.length).countP (!·.isOptional) := by
      rw [List.countP_append, hrest, Nat.add_zero]
    _ ≤ ((slots s.params).take tokens.length).length := List.countP_le_length
    _ ≤ tokens.length := List.length_take_le _ _

theorem bindParams_cons (parsers : ParserTable) (p : Param) (ps : List Param)
    (tokens : List String) :
    bindParams parsers (p :: ps) tokens =
      (boundValue? parsers (p :: ps) tokens 0).bind fun v =>
        (bindParams parsers ps (tokensAfter p tokens)).map (v :: ·) := by
  cases hp : p.isContext with
  | true => simp [bindParams, boundValue?, tokensAfter, hp]
  | false => cases tokens <;> simp [bindParams, boundValue?, tokensAfter, hp]

theorem boundValue?_succ (parsers : ParserTable) (p : Param) (ps : List Param)
    (tokens : List String) (place : Nat) :
    boundValue? parsers (p :: ps) tokens (place + 1) =
      boundValue? parsers ps (tokensAfter p tokens) place := by
  cases hp : p.isContext with
  | true => simp [boundValue?, tokensAfter, hp, slots_cons_context hp]
  | false =>
    simp [boundValue?, tokensAfter, hp, slots_cons_slot hp]

theorem bindParams_value {parsers : ParserTable} {params : List Param} {tokens : List String}
    {values : List Value} (h : bindParams parsers params tokens = some values) (place : Nat) :
    values[place]? = boundValue? parsers params tokens place := by
  induction params generalizing tokens values place with
  | nil =>
    simp only [bindParams, Option.some.injEq] at h
    simp [← h, boundValue?]
  | cons p ps ih =>
    rw [bindParams_cons] at h
    obtain ⟨v, hv, h⟩ := Option.bind_eq_some_iff.1 h
    obtain ⟨w, hw, rfl⟩ := Option.map_eq_some_iff.1 h
    cases place with
    | zero => simp [hv]
    | succ i => simpa [boundValue?_succ] using ih hw i

/-- The walk over the parameters does not look at tokens that are left over. -/
theorem bindParams_isSome_iff (parsers : ParserTable) (params : List Param)
    (tokens : List String) :
    (bindParams parsers params tokens).isSome ↔
      (∀ x ∈ (slots params).zip tokens, (parsers.tryConvert x.1.type x.2).isSome) ∧
        ∀ p ∈ (slots params).drop tokens.length, p.isOptional := by
  induction params generalizing tokens with
  | nil => simp [bindParams]
  | cons p ps ih =>
    have hstep : (bindParams parsers (p :: ps) tokens).isSome ↔
        (boundValue? parsers (p :: ps) tokens 0).isSome ∧
          (bindParams parsers ps (tokensAfter p tokens)).isSome := by
      rw [bindParams_cons]
      cases boundValue? parsers (p :: ps) tokens 0 <;> simp
    rw [hstep, ih]
    cases hp : p.isContext with
    | true => simp [slots_cons_context hp, tokensAfter, boundValue?, hp]
    | false =>
      cases tokens with
      | nil => simp [slots_cons_slot hp, tokensAfter, boundValue?, hp, Param.isOptional]
      | cons token rest =>
        simp [slots_cons_slot hp, tokensAfter, boundValue?, hp, and_assoc]

theorem Signature.bind_isSome_iff (s : Signature) (parsers : ParserTable)
    (tokens : List String) :
    (s.bind parsers tokens).isSome ↔ Viable parsers s.params tokens := by
  constructor
  · intro h
    unfold bind at h
    split at h
    · next hcount =>
      obtain ⟨hconv, hdef⟩ := (bindParams_isSome_iff _ _ _).1 h
      exact ⟨s.accepted_eq ▸ hcount.2, hconv, hdef⟩
    · cases h
  · intro h
    have hcount : s.required ≤ tokens.length ∧ tokens.length ≤ s.accepted :=
      ⟨h.required_le, s.accepted_eq ▸ h.fits⟩
    rw [bind, if_pos hcount]
    exact (bindParams_isSome_iff _ _ _).2 ⟨h.converts, h.defaults⟩

theorem Signature.bind_eq_none_iff (s : Signature) (parsers : ParserTable)
    (tokens : List String) :
    s.bind parsers tokens = none ↔ ¬Viable parsers s.params tokens := by
  rw [← s.bind_isSome_iff, Option.not_isSome_iff_eq_none]

theorem Signature.bindParams_of_bind {s : Signature} {parsers : ParserTable}
    {tokens : List String} {values : List Value} (h : s.bind parsers tokens = some values) :
    bindParams parsers s.params tokens = some values := by
  unfold bind at h
  split at h
  · exact h
  · cases h

end CommandConsole
