import CommandConsole.Registry
import CommandConsole.Proofs.Viability
import Mathlib.Order.Bounds.Basic
set_option autoImplicit false

/-!
What a registry answers, in terms of the registrations that made it: the overloads of a name are
those that were registered under it, and a call picks the least number of one that is viable.
-/

namespace CommandConsole

/-- One entry in the history of a registry. -/
inductive Registration (α : Type) where
  | command (o : Overload α)
  | parser (p : ValueParser)

def Registry.enter {α : Type} (r : Registry α) : Registration α → Registry α
  | .command o => r.register o
  | .parser p => (r.registerParser p).1

def Registry.enterAll {α : Type} (r : Registry α) (history : List (Registration α)) :
    Registry α :=
  history.foldl Registry.enter r

/-- The overloads registered under a name, in order. A name that cannot be typed has none. -/
def registeredUnder {α : Type} (name : String) (history : List (Registration α)) :
    List (Overload α) :=
  history.filterMap fun
    | .command o => if isTypeable o.signature.name ∧ o.signature.name = name then some o else none
    | .parser _ => none

theorem Registry.named_enter {α : Type} (r : Registry α) (x : Registration α) (name : String) :
    (r.enter x).named name = r.named name ++ registeredUnder name [x] := by
  cases x with
  | command o =>
    rw [enter, named_register]
    by_cases h : isTypeable o.signature.name ∧ o.signature.name = name
    · simp [registeredUnder, if_pos h]
    · simp [registeredUnder, if_neg h]
  | parser p => simp [enter, registerParser, named, registeredUnder]

theorem registeredUnder_append {α : Type} (name : String) (a b : List (Registration α)) :
    registeredUnder name (a ++ b) = registeredUnder name a ++ registeredUnder name b :=
  List.filterMap_append

theorem Registry.named_enterAll {α : Type} (r : Registry α) (history : List (Registration α))
    (name : String) :
    (r.enterAll history).named name = r.named name ++ registeredUnder name history := by
  induction history generalizing r with
  | nil => simp [enterAll, registeredUnder]
  | cons x history ih =>
    have hstep := ih (r.enter x)
    rw [named_enter, List.append_assoc, ← registeredUnder_append] at hstep
    exact hstep

@[simp] theorem Registry.named_empty {α : Type} (parsers : ParserTable) (name : String) :
    (empty (α := α) parsers).named name = [] := rfl

section firstViable

variable {α : Type} {parsers : ParserTable} {tokens : List String}

theorem firstViable?_eq_none_iff {n : Nat} {os : List (Overload α)} :
    firstViable? parsers tokens n os = none ↔
      ∀ o ∈ os, ¬Viable parsers o.signature.params tokens := by
  induction os generalizing n with
  | nil => simp [firstViable?]
  | cons o os ih =>
    rw [List.forall_mem_cons, ← Signature.bind_eq_none_iff]
    cases hb : o.signature.bind parsers tokens with
    | none => simp [firstViable?, hb, ih]
    | some values => simp [firstViable?, hb]

/-- The overload found is viable, is numbered from the start, and none before it is viable. -/
theorem firstViable?_eq_some {n : Nat} {os : List (Overload α)} {res : Resolution α}
    (h : firstViable? parsers tokens n os = some res) :
    ∃ i, res.index = n + i ∧ os[i]? = some res.overload ∧
      res.overload.signature.bind parsers tokens = some res.arguments ∧
      ∀ j < i, ∀ o, os[j]? = some o → ¬Viable parsers o.signature.params tokens := by
  induction os generalizing n with
  | nil => cases h
  | cons o os ih =>
    cases hb : o.signature.bind parsers tokens with
    | some values =>
      simp only [firstViable?, hb, Option.some.injEq] at h
      subst h
      exact ⟨0, rfl, rfl, hb, by omega⟩
    | none =>
      simp only [firstViable?, hb] at h
      obtain ⟨i, hindex, hoverload, hbind, hbefore⟩ := ih h
      refine ⟨i + 1, by omega, by simpa using hoverload, hbind, ?_⟩
      intro j hj o' ho'
      cases j with
      | zero =>
        simp only [List.getElem?_cons_zero, Option.some.injEq] at ho'
        exact ho' ▸ (Signature.bind_eq_none_iff _ _ _).1 hb
      | succ j => exact hbefore j (by omega) o' (by simpa using ho')

end firstViable

/-- The numbers of the overloads that can take the tokens. -/
def viableIndices {α : Type} (parsers : ParserTable) (tokens : List String)
    (os : List (Overload α)) : Set Nat :=
  {i | ∃ o, os[i]? = some o ∧ Viable parsers o.signature.params tokens}

theorem viableIndices_eq_empty_iff {α : Type} {parsers : ParserTable} {tokens : List String}
    {os : List (Overload α)} :
    viableIndices parsers tokens os = ∅ ↔
      ∀ o ∈ os, ¬Viable parsers o.signature.params tokens := by
  constructor
  · intro h o ho hv
    obtain ⟨i, hi⟩ := List.getElem?_of_mem ho
    have hmem : i ∈ viableIndices parsers tokens os := ⟨o, hi, hv⟩
    rw [h] at hmem
    exact hmem
  · intro h
    ext i
    constructor
    · intro hi
      obtain ⟨o, ho, hv⟩ := hi
      exact h o (List.mem_of_getElem? ho) hv
    · exact False.elim

theorem firstViable?_isLeast {α : Type} {parsers : ParserTable} {tokens : List String}
    {os : List (Overload α)} {res : Resolution α}
    (h : firstViable? parsers tokens 0 os = some res) :
    IsLeast (viableIndices parsers tokens os) res.index := by
  obtain ⟨i, hindex, hoverload, hbind, hbefore⟩ := firstViable?_eq_some h
  rw [Nat.zero_add] at hindex
  subst hindex
  constructor
  · exact ⟨_, hoverload, (Signature.bind_isSome_iff _ _ _).1 (by simp [hbind])⟩
  · intro j hj
    obtain ⟨o, ho, hv⟩ := hj
    refine Nat.le_of_not_lt ?_
    intro hlt
    exact hbefore j hlt o ho hv

theorem Registry.resolve_cases {α : Type} (r : Registry α) (name : String)
    (tokens : List String) :
    (r.named name = [] ∧ r.resolve name tokens = .error (.unknownCommand name)) ∨
    (r.named name ≠ [] ∧ firstViable? r.parsers tokens 0 (r.named name) = none ∧
      r.resolve name tokens = .error (.noMatchingOverload name)) ∨
    ∃ res, firstViable? r.parsers tokens 0 (r.named name) = some res ∧
      r.resolve name tokens = .ok res := by
  unfold resolve
  cases hos : r.named name with
  | nil => exact .inl ⟨rfl, rfl⟩
  | cons o os =>
    cases hf : firstViable? r.parsers tokens 0 (o :: os) with
    | none => exact .inr (.inl ⟨by simp, by simp, by simp [hf]⟩)
    | some res => exact .inr (.inr ⟨res, by simp, by simp [hf]⟩)

theorem Registry.resolve_eq_unknown_iff {α : Type} {r : Registry α} {name : String}
    {tokens : List String} :
    r.resolve name tokens = .error (.unknownCommand name) ↔ r.named name = [] := by
  rcases r.resolve_cases name tokens with ⟨hn, he⟩ | ⟨hn, -, he⟩ | ⟨res, hf, he⟩
  · simp [he, hn]
  · simp [he, hn]
  · have hn : r.named name ≠ [] := by
      intro hn
      simp [hn, firstViable?] at hf
    simp [he, hn]

theorem Registry.resolve_eq_noMatching_iff {α : Type} {r : Registry α} {name : String}
    {tokens : List String} :
    r.resolve name tokens = .error (.noMatchingOverload name) ↔
      r.named name ≠ [] ∧ viableIndices r.parsers tokens (r.named name) = ∅ := by
  rw [viableIndices_eq_empty_iff, ← firstViable?_eq_none_iff (n := 0)]
  rcases r.resolve_cases name tokens with ⟨hn, he⟩ | ⟨hn, hf, he⟩ | ⟨res, hf, he⟩
  · simp [he, hn]
  · simp [he, hn, hf]
  · simp [he, hf]

theorem Registry.resolve_eq_ok_iff {α : Type} {r : Registry α} {name : String}
    {tokens : List String} {res : Resolution α} :
    r.resolve name tokens = .ok res ↔
      firstViable? r.parsers tokens 0 (r.named name) = some res := by
  rcases r.resolve_cases name tokens with ⟨hn, he⟩ | ⟨-, hf, he⟩ | ⟨res', hf, he⟩
  · simp [he, hn, firstViable?]
  · simp [he, hf]
  · simp [he, hf]

theorem Registry.resolve_index_iff {α : Type} {r : Registry α} {name : String}
    {tokens : List String} {i : Nat} :
    (∃ res, r.resolve name tokens = .ok res ∧ res.index = i) ↔
      IsLeast (viableIndices r.parsers tokens (r.named name)) i := by
  constructor
  · intro ⟨res, hres, hi⟩
    exact hi ▸ firstViable?_isLeast (resolve_eq_ok_iff.1 hres)
  · intro hi
    cases hf : firstViable? r.parsers tokens 0 (r.named name) with
    | none =>
      have hempty := viableIndices_eq_empty_iff.2 (firstViable?_eq_none_iff.1 hf)
      have hmem := hi.1
      rw [hempty] at hmem
      exact hmem.elim
    | some res => exact ⟨res, resolve_eq_ok_iff.2 hf, (firstViable?_isLeast hf).unique hi⟩

/-- A name is unknown if nothing was registered under it, the overload chosen is the first viable
one, and without a viable one none matches. Each parameter of the overload chosen has its value. -/
theorem resolve_least_viable {α : Type} (parsers : ParserTable)
    (history : List (Registration α)) (name : String) (tokens : List String) :
    let r := (Registry.empty parsers).enterAll history
    let os := registeredUnder name history
    (r.resolve name tokens = .error (.unknownCommand name) ↔ os = []) ∧
    (r.resolve name tokens = .error (.noMatchingOverload name) ↔
      os ≠ [] ∧ viableIndices r.parsers tokens os = ∅) ∧
    (∀ i, (∃ res, r.resolve name tokens = .ok res ∧ res.index = i) ↔
      IsLeast (viableIndices r.parsers tokens os) i) ∧
    (∀ o ∈ os, Viable r.parsers o.signature.params tokens →
      o.signature.required ≤ tokens.length ∧ tokens.length ≤ o.signature.accepted) ∧
    ∀ res, r.resolve name tokens = .ok res →
      os[res.index]? = some res.overload ∧
      res.arguments.length = res.overload.signature.params.length ∧
      ∀ place, res.arguments[place]? =
        boundValue? r.parsers res.overload.signature.params tokens place := by
  intro r os
  have hnamed : r.named name = os := by
    simpa using (Registry.empty parsers).named_enterAll history name
  rw [← hnamed]
  refine ⟨Registry.resolve_eq_unknown_iff, Registry.resolve_eq_noMatching_iff,
    fun i => Registry.resolve_index_iff, ?_, ?_⟩
  · intro o _ hv
    exact ⟨hv.required_le, o.signature.accepted_eq ▸ hv.fits⟩
  · intro res hres
    obtain ⟨i, hindex, hchosen, hbind, -⟩ := firstViable?_eq_some (Registry.resolve_eq_ok_iff.1 hres)
    rw [Nat.zero_add] at hindex
    have hbound := Signature.bindParams_of_bind hbind
    exact ⟨hindex ▸ hchosen, length_of_bindParams hbound, bindParams_value hbound⟩

end CommandConsole
