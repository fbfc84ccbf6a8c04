import CommandConsole.Proofs.CommandNames
import Mathlib.Data.List.Sort
set_option autoImplicit false

/-!
What a further command changes. It is tried behind the overloads its name has had, so a call that
resolved resolves as before; only its own name is added to those that are listed and suggested.
-/

namespace CommandConsole

/-- Overloads behind others are tried only where no earlier one is viable, and are numbered on. -/
theorem firstViable?_append {α : Type} (parsers : ParserTable) (tokens : List String) (n : Nat)
    (os os' : List (Overload α)) :
    firstViable? parsers tokens n (os ++ os') =
      (firstViable? parsers tokens n os).or (firstViable? parsers tokens (n + os.length) os') := by
  induction os generalizing n with
  | nil => simp [firstViable?]
  | cons o os ih =>
    cases hb : o.signature.bind parsers tokens with
    | some values => simp [firstViable?, hb]
    | none => simp [firstViable?, hb, ih, Nat.add_assoc, Nat.add_comm 1]

/-- Ordered lists with the same members but for one are the same list without it. -/
theorem filter_bne_eq {a : String} {l l' : List String} (h : l.Pairwise (· < ·))
    (h' : l'.Pairwise (· < ·)) (hmem : ∀ x, x ≠ a → (x ∈ l ↔ x ∈ l')) :
    l.filter (· != a) = l'.filter (· != a) := by
  refine (h.filter _).eq_of_mem_iff (h'.filter _) ?_
  intro x
  simp only [List.mem_filter, bne_iff_ne, ne_eq]
  exact and_congr_left (hmem x)

namespace Registry

variable {α : Type} {r : Registry α} {o : Overload α} {name : String} {tokens : List String}

theorem parsers_register (r : Registry α) (o : Overload α) :
    (r.register o).parsers = r.parsers := by
  simp only [register, apply_ite Registry.parsers, ite_self]

theorem named_register_other (h : name ≠ o.signature.name ∨ isTypeable o.signature.name = false) :
    (r.register o).named name = r.named name := by
  have hnot : ¬(isTypeable o.signature.name = true ∧ o.signature.name = name) := by
    rintro ⟨htypeable, rfl⟩
    rcases h with hne | hskipped
    · exact hne rfl
    · simp [hskipped] at htypeable
  rw [named_register, if_neg hnot, List.append_nil]

theorem named_register_self (h : isTypeable o.signature.name = true) :
    (r.register o).named o.signature.name = r.named o.signature.name ++ [o] := by
  rw [named_register, if_pos ⟨h, rfl⟩]

theorem resolve_register_other
    (h : name ≠ o.signature.name ∨ isTypeable o.signature.name = false) (tokens : List String) :
    (r.register o).resolve name tokens = r.resolve name tokens := by
  unfold resolve
  rw [named_register_other h, parsers_register]

/-- A call that resolves stays as it is. -/
theorem resolve_register_of_ok {res : Resolution α} (h : r.resolve name tokens = .ok res) :
    (r.register o).resolve name tokens = .ok res := by
  rw [resolve_eq_ok_iff] at h ⊢
  rw [named_register, parsers_register, firstViable?_append, h, Option.some_or]

/-- A call of the name that has failed picks the new overload or matches none. -/
theorem resolve_register_of_error (htypeable : isTypeable o.signature.name = true)
    {e : ConsoleError} (h : r.resolve o.signature.name tokens = .error e) :
    (r.register o).resolve o.signature.name tokens =
      match o.signature.bind r.parsers tokens with
      | some values => .ok ⟨o, (r.named o.signature.name).length, values⟩
      | none => .error (.noMatchingOverload o.signature.name) := by
  have hnone : firstViable? r.parsers tokens 0 (r.named o.signature.name) = none := by
    cases hf : firstViable? r.parsers tokens 0 (r.named o.signature.name) with
    | none => rfl
    | some res =>
      rw [resolve_eq_ok_iff.2 hf] at h
      cases h
  have hfirst := firstViable?_append r.parsers tokens 0 (r.named o.signature.name) [o]
  rw [hnone, Option.none_or, Nat.zero_add] at hfirst
  cases hb : o.signature.bind r.parsers tokens with
  | some values =>
    rw [resolve_eq_ok_iff, named_register_self htypeable, parsers_register, hfirst]
    simp only [firstViable?, hb]
  | none =>
    rw [resolve_eq_noMatching_iff, viableIndices_eq_empty_iff, ← firstViable?_eq_none_iff (n := 0),
      named_register_self htypeable, parsers_register, hfirst]
    simp only [firstViable?, hb, and_true]
    simp

theorem overloads?_register_other
    (h : name ≠ o.signature.name ∨ isTypeable o.signature.name = false) :
    (r.register o).overloads? name = r.overloads? name := by
  unfold overloads? contains
  rw [named_register_other h]

namespace InStep

theorem enterAll (h : r.InStep) (history : List (Registration α)) :
    (r.enterAll history).InStep := by
  induction history generalizing r with
  | nil => exact h
  | cons x history ih =>
    cases x with
    | command o => exact ih (h.register o)
    | parser p => exact ih (h.registerParser p)

theorem mem_names_register (h : r.InStep) (o : Overload α) (name : String) :
    name ∈ (r.register o).names.words ↔
      name ∈ r.names.words ∨ isTypeable o.signature.name = true ∧ o.signature.name = name := by
  rw [(h.register o).mem_words, h.mem_words, mem_keys_register]

/-- The other names stay where they are in the list. -/
theorem filter_names_register (h : r.InStep) (o : Overload α) :
    (r.register o).names.words.filter (· != o.signature.name) =
      r.names.words.filter (· != o.signature.name) := by
  refine filter_bne_eq (h.register o).holds.words_pairwise h.holds.words_pairwise ?_
  intro name hne
  simp [h.mem_names_register, Ne.symm hne]

theorem filter_suggest_register (h : r.InStep) (o : Overload α) (start : String) (exact : Bool) :
    ((r.register o).names.suggest start exact).filter (· != o.signature.name) =
      (r.names.suggest start exact).filter (· != o.signature.name) := by
  refine filter_bne_eq ((h.register o).holds.suggest_pairwise start exact)
    (h.holds.suggest_pairwise start exact) ?_
  intro name hne
  simp [(h.register o).holds.mem_suggest, h.holds.mem_suggest, mem_keys_register, Ne.symm hne]

end InStep

end Registry

/-- A further command changes no call that resolves, and no error of a call of another name. A call
of its name that failed picks it behind the overloads there were, or matches none. Of the names
that are listed and suggested only its own may be new. -/
theorem command_keeps_resolving {α : Type} (parsers : ParserTable)
    (history : List (Registration α)) (o : Overload α) :
    let r := (Registry.empty parsers).enterAll history
    let r' := r.register o
    let added := o.signature.name
    (∀ name tokens,
      (∀ res, r.resolve name tokens = .ok res → r'.resolve name tokens = .ok res) ∧
      ∀ e, r.resolve name tokens = .error e →
        (name ≠ added ∨ isTypeable added = false → r'.resolve name tokens = .error e) ∧
        (name = added → isTypeable added = true →
          (∃ values, r'.resolve name tokens = .ok ⟨o, (r.named name).length, values⟩) ∨
            r'.resolve name tokens = .error (.noMatchingOverload name))) ∧
    (∀ name, name ≠ added ∨ isTypeable added = false →
      r'.overloads? name = r.overloads? name) ∧
    (∀ name, name ∈ r'.names.words ↔
      name ∈ r.names.words ∨ isTypeable added = true ∧ added = name) ∧
    r'.names.words.filter (· != added) = r.names.words.filter (· != added) ∧
    ∀ start exact, (r'.names.suggest start exact).filter (· != added) =
      (r.names.suggest start exact).filter (· != added) := by
  intro r r' added
  have hstep : r.InStep := (Registry.InStep.empty parsers).enterAll history
  refine ⟨fun name tokens => ⟨fun res => Registry.resolve_register_of_ok,
    fun e he => ⟨fun hother => ?_, ?_⟩⟩, fun name => Registry.overloads?_register_other,
    hstep.mem_names_register o, hstep.filter_names_register o, hstep.filter_suggest_register o⟩
  · rw [← he]
    exact Registry.resolve_register_other hother tokens
  · rintro rfl htypeable
    have hresolve := Registry.resolve_register_of_error htypeable he
    cases hb : o.signature.bind r.parsers tokens with
    | some values =>
      rw [hb] at hresolve
      exact .inl ⟨values, hresolve⟩
    | none =>
      rw [hb] at hresolve
      exact .inr hresolve

def sayWords (count : Nat) : Overload Unit :=
  ⟨⟨"say", .replicate count (.required "word" .string), "", ""⟩, ()⟩

def oneWord : Registry Unit := (Registry.empty .builtin).enterAll [.command (sayWords 1)]

/-- A second overload takes the two words that are too many for the first one, and leaves it one. -/
theorem command_keeps_resolving_words :
    oneWord.resolve "say" ["hi"] = .ok ⟨sayWords 1, 0, [.string "hi"]⟩ ∧
      (oneWord.register (sayWords 2)).resolve "say" ["hi"] =
        .ok ⟨sayWords 1, 0, [.string "hi"]⟩ ∧
      oneWord.resolve "say" ["hi", "you"] = .error (.noMatchingOverload "say") ∧
      (∃ values, (oneWord.register (sayWords 2)).resolve "say" ["hi", "you"] =
        .ok ⟨sayWords 2, (oneWord.named "say").length, values⟩) ∧
      oneWord.resolve "ask" ["you"] = .error (.unknownCommand "ask") ∧
      (oneWord.register (sayWords 2)).resolve "ask" ["you"] =
        .error (.unknownCommand "ask") := by
  obtain ⟨hcalls, -⟩ := command_keeps_resolving .builtin [.command (sayWords 1)] (sayWords 2)
  have hone : oneWord.resolve "say" ["hi"] = .ok ⟨sayWords 1, 0, [.string "hi"]⟩ := by cbv
  have htwo : oneWord.resolve "say" ["hi", "you"] = .error (.noMatchingOverload "say") := by cbv
  have hask : oneWord.resolve "ask" ["you"] = .error (.unknownCommand "ask") := by cbv
  have htwo' : (oneWord.register (sayWords 2)).resolve "say" ["hi", "you"] =
      .ok ⟨sayWords 2, 1, [.string "hi", .string "you"]⟩ := by cbv
  refine ⟨hone, (hcalls "say" ["hi"]).1 _ hone, htwo, ?_, hask,
    ((hcalls "ask" ["you"]).2 _ hask).1 (.inl (by decide))⟩
  refine (((hcalls "say" ["hi", "you"]).2 _ htwo).2 rfl (by decide)).resolve_right ?_
  intro hnone
  cases htwo'.symm.trans hnone

end CommandConsole
