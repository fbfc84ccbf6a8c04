import CommandConsole.Text.Fields
import CommandConsole.Proofs.Quoting
import CommandConsole.Proofs.Runs
set_option autoImplicit false

/-!
Tokens that are typed and split again. A list of tokens comes back from what was typed exactly if no
token holds a quote, and splitting gives no other lists, whatever the text leaves open.
-/

namespace CommandConsole

/-- Tokens as they have to be typed, with one space between them. -/
def typedTokens (tokens : List String) : String := joinStrings ' ' (tokens.map quoteToken)

/-- Behind a name the same tokens are typed, with one space in front of them. -/
theorem typedArguments_cons (token : String) (tokens : List String) :
    typedArguments (token :: tokens) = ' ' :: (typedTokens (token :: tokens)).toList := by
  induction tokens generalizing token with
  | nil => simp [typedArguments, typedTokens, joinStrings, joinFields]
  | cons u tokens ih =>
    have hfirst : typedArguments (token :: u :: tokens) =
        ' ' :: (quoteToken token).toList ++ typedArguments (u :: tokens) := rfl
    rw [hfirst, ih u]
    simp [typedTokens, joinStrings, joinFields]

theorem splitArguments_typedTokens {tokens : List String} (h : ∀ t ∈ tokens, '"' ∉ t.toList) :
    splitArguments (typedTokens tokens) = tokens := by
  cases tokens with
  | nil => rfl
  | cons token tokens =>
    have hsplit := splitFrom_typedArguments h none
    rw [typedArguments_cons, splitFrom_space] at hsplit
    simp only [Option.toList_none, List.map_nil, List.nil_append] at hsplit
    simp [splitArguments, hsplit, Function.comp_def]

/-- Every quote of a text is spent on its tokens, also one that is never closed. -/
theorem quote_not_mem_splitArguments (s : String) : ∀ t ∈ splitArguments s, '"' ∉ t.toList := by
  intro t ht
  rw [splitArguments_eq_runs, tokensByRuns] at ht
  obtain ⟨r, -, rfl⟩ := List.mem_map.1 ht
  simp [runText]

/-- A list of tokens is got back from what is typed for it exactly if no token holds a quote. These
are the lists that splitting gives, and each of them is split from what is typed for it. -/
theorem splitting_inverts_typing :
    (∀ ts, splitArguments (typedTokens ts) = ts ↔ ∀ t ∈ ts, '"' ∉ t.toList) ∧
    (∀ ts, (∃ s, splitArguments s = ts) ↔ ∀ t ∈ ts, '"' ∉ t.toList) ∧
    ∀ s, splitArguments (typedTokens (splitArguments s)) = splitArguments s := by
  have himage : ∀ ts, (∃ s, splitArguments s = ts) → ∀ t ∈ ts, '"' ∉ t.toList := by
    intro ts h
    obtain ⟨s, rfl⟩ := h
    exact quote_not_mem_splitArguments s
  refine ⟨fun ts => ⟨fun h => himage ts ⟨_, h⟩, splitArguments_typedTokens⟩,
    fun ts => ⟨himage ts, fun h => ⟨_, splitArguments_typedTokens h⟩⟩, fun s => ?_⟩
  exact splitArguments_typedTokens (quote_not_mem_splitArguments s)

end CommandConsole
