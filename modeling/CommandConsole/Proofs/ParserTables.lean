import CommandConsole.Registry
set_option autoImplicit false

/-!
Parser tables by what they answer. Every answer about a type, and with it the binding of tokens and
the choice of an overload, comes from the first parser of the type, wherever it stands.
-/

namespace CommandConsole

/-- The parsers of one type, in order. -/
def ParserTable.of (t : ParserTable) (type : ValueType) : List ValueParser :=
  t.parsers.filter (·.type == type)

theorem ParserTable.find?_eq_head? (t : ParserTable) (type : ValueType) :
    t.find? type = (t.of type).head? := by
  rw [of, List.head?_filter, find?]

theorem ParserTable.contains_iff {t : ParserTable} {type : ValueType} :
    t.contains type = true ↔ t.of type ≠ [] := by
  rw [contains, find?_eq_head?, List.isSome_head?]

/-- The first parser of a type stays, and the context type gets none. -/
theorem ParserTable.of_register (t : ParserTable) (p : ValueParser) (type : ValueType) :
    (t.register p).1.of type =
      if p.type = type ∧ type ≠ .context ∧ t.of type = [] then [p] else t.of type := by
  simp only [register, contains_iff]
  by_cases hp : p.type = type
  · subst hp
    by_cases hnew : p.type ≠ .context ∧ t.of p.type = []
    · have hlast : (ParserTable.mk (t.parsers ++ [p])).of p.type = t.of p.type ++ [p] := by
        simp [of, List.filter_append]
      simp [hnew, hlast]
    · have hold : p.type = .context ∨ t.of p.type ≠ [] := by
        by_cases hcontext : p.type = .context
        · exact .inl hcontext
        · exact .inr fun hof => hnew ⟨hcontext, hof⟩
      rw [if_pos hold, if_neg (fun h => hnew h.2)]
  · have hother : (ParserTable.mk (t.parsers ++ [p])).of type = t.of type := by
      simp [of, List.filter_append, hp]
    have hnot : ¬(p.type = type ∧ type ≠ .context ∧ t.of type = []) := fun h => hp h.1
    rw [if_neg hnot]
    split
    · rfl
    · exact hother

/-- The table `t'` reads whatever `t` reads, and as the same value. -/
def ParserTable.Extends (t t' : ParserTable) : Prop :=
  ∀ type token v, t.tryConvert type token = some v → t'.tryConvert type token = some v

theorem ParserTable.Extends.bindParams_of_some {t t' : ParserTable} (h : Extends t t')
    {params : List Param} {tokens : List String} {values : List Value}
    (hv : bindParams t params tokens = some values) :
    bindParams t' params tokens = some values := by
  induction params generalizing tokens values with
  | nil => exact hv
  | cons p ps ih =>
    simp only [bindParams] at hv ⊢
    split at hv
    · next hcontext =>
      obtain ⟨w, hw, rfl⟩ := Option.map_eq_some_iff.1 hv
      rw [if_pos hcontext, ih hw, Option.map_some]
    · next hcontext =>
      rw [if_neg hcontext]
      cases tokens with
      | nil =>
        obtain ⟨v, hdefault, hv⟩ := Option.bind_eq_some_iff.1 hv
        obtain ⟨w, hw, rfl⟩ := Option.map_eq_some_iff.1 hv
        simp only [hdefault, Option.bind_some, ih hw, Option.map_some]
      | cons token rest =>
        obtain ⟨v, htoken, hv⟩ := Option.bind_eq_some_iff.1 hv
        obtain ⟨w, hw, rfl⟩ := Option.map_eq_some_iff.1 hv
        simp only [h _ _ _ htoken, Option.bind_some, ih hw, Option.map_some]

theorem ParserTable.Extends.bind_of_some {t t' : ParserTable} (h : Extends t t') {s : Signature}
    {tokens : List String} {values : List Value} (hv : s.bind t tokens = some values) :
    s.bind t' tokens = some values := by
  unfold Signature.bind at hv ⊢
  split at hv
  · next hcount => rw [if_pos hcount, h.bindParams_of_some hv]
  · cases hv

/-- The tables have the same parser for every type. -/
def ParserTable.Alike (t t' : ParserTable) : Prop := ∀ type, t.find? type = t'.find? type

namespace ParserTable.Alike

variable {t t' : ParserTable}

theorem symm (h : Alike t t') : Alike t' t := fun type => (h type).symm

theorem contains_eq (h : Alike t t') (type : ValueType) : t.contains type = t'.contains type := by
  rw [contains, contains, h]

theorem tryConvert_eq (h : Alike t t') (type : ValueType) (token : String) :
    t.tryConvert type token = t'.tryConvert type token := by
  rw [tryConvert, tryConvert, h]

theorem convert_eq (h : Alike t t') (type : ValueType) (token : String) :
    t.convert type token = t'.convert type token := by
  rw [convert, convert, h]

theorem tryConvertDiagnostics_eq (h : Alike t t') (type : ValueType) (token : String) :
    t.tryConvertDiagnostics type token = t'.tryConvertDiagnostics type token := by
  rw [tryConvertDiagnostics, tryConvertDiagnostics, h]

theorem to_extends (h : Alike t t') : Extends t t' := by
  intro type token v hv
  rw [← h.tryConvert_eq, hv]

theorem bind_eq (h : Alike t t') (s : Signature) (tokens : List String) :
    s.bind t tokens = s.bind t' tokens :=
  Option.ext fun _ => ⟨h.to_extends.bind_of_some, h.symm.to_extends.bind_of_some⟩

theorem bindDiagnostics_eq (h : Alike t t') (s : Signature) (tokens : List String) :
    s.bindDiagnostics t tokens = s.bindDiagnostics t' tokens := by
  have hparams : ∀ params tokens,
      bindParamsDiagnostics t params tokens = bindParamsDiagnostics t' params tokens := by
    intro params
    induction params with
    | nil => exact fun _ => rfl
    | cons p ps ih =>
      intro tokens
      simp only [bindParamsDiagnostics, ih, h.tryConvertDiagnostics_eq, h.tryConvert_eq]
  unfold Signature.bindDiagnostics
  rw [hparams]

variable {α : Type}

theorem firstViable?_eq (h : Alike t t') (tokens : List String) (n : Nat)
    (os : List (Overload α)) :
    firstViable? t tokens n os = firstViable? t' tokens n os := by
  induction os generalizing n with
  | nil => rfl
  | cons o os ih => simp only [firstViable?, h.bind_eq, ih]

theorem viabilityDiagnostics_eq (h : Alike t t') (tokens : List String) (n : Nat)
    (os : List (Overload α)) :
    viabilityDiagnostics t tokens n os = viabilityDiagnostics t' tokens n os := by
  induction os generalizing n with
  | nil => rfl
  | cons o os ih => simp only [viabilityDiagnostics, h.bindDiagnostics_eq, h.bind_eq, ih]

end ParserTable.Alike

end CommandConsole
