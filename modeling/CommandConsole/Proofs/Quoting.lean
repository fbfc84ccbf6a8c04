import CommandConsole.Line
set_option autoImplicit false

/-!
Tokens as they have to be typed: a scanner at rest reads each typed token back and is at rest again
behind it, whatever blanks and parentheses the token holds, as long as it holds no quote.
-/

namespace CommandConsole

/-- A character that the scanner adds to a token without a change of its state. -/
def isPlain (c : Char) : Bool := !isBlank c && c != '(' && c != ')' && c != '"'

theorem isBlank_of_isPlain {c : Char} (h : isPlain c = true) : isBlank c = false := by
  simp only [isPlain, Bool.and_eq_true, Bool.not_eq_true'] at h
  exact h.1.1.1

/-- Inside quotes everything but a quote is text. -/
theorem splitFrom_quoted {u : List Char} (hu : '"' ∉ u) (depth : Nat) (word r : List Char) :
    splitFrom ⟨true, depth⟩ (some word) (u ++ r) =
      splitFrom ⟨true, depth⟩ (some (u.reverse ++ word)) r := by
  induction u generalizing word with
  | nil => rfl
  | cons c u ih =>
    have hc : c ≠ '"' := by
      intro hc
      exact hu (hc ▸ List.mem_cons_self)
    have hu : '"' ∉ u := fun hmem => hu (List.mem_cons_of_mem c hmem)
    simp [splitFrom, Nesting.separates, Nesting.isOpen, Nesting.next, hc, ih hu]

theorem splitFrom_plain {c : Char} (hc : isPlain c = true) (word : Option (List Char))
    (r : List Char) :
    splitFrom .closed word (c :: r) = splitFrom .closed (some (c :: word.getD [])) r := by
  simp only [isPlain, Bool.and_eq_true, Bool.not_eq_true', bne_iff_ne, ne_eq] at hc
  obtain ⟨⟨⟨hblank, hopen⟩, hclose⟩, hquote⟩ := hc
  simp [splitFrom, Nesting.separates, Nesting.next, Nesting.closed, hblank, hopen, hclose, hquote]

theorem splitFrom_plainText {u : List Char} (hu : ∀ c ∈ u, isPlain c = true)
    (word r : List Char) :
    splitFrom .closed (some word) (u ++ r) =
      splitFrom .closed (some (u.reverse ++ word)) r := by
  induction u generalizing word with
  | nil => rfl
  | cons c u ih =>
    obtain ⟨hc, hu⟩ := List.forall_mem_cons.1 hu
    rw [List.cons_append, splitFrom_plain hc, ih hu]
    simp

theorem splitFrom_space (word : Option (List Char)) (r : List Char) :
    splitFrom .closed word (' ' :: r) =
      word.toList.map List.reverse ++ splitFrom .closed none r := by
  rw [splitFrom, if_pos (by decide)]

def needsQuotes (t : List Char) : Bool :=
  t.isEmpty || t.any fun c => isBlank c || c == '(' || c == ')'

theorem toList_quoteToken (token : String) :
    (quoteToken token).toList =
      if needsQuotes token.toList then '"' :: token.toList ++ ['"'] else token.toList := by
  have hiff : needsQuotes token.toList = true ↔ token.toList = [] ∨
      token.toList.any (fun c => isBlank c || c == '(' || c == ')') = true := by
    simp [needsQuotes]
  unfold quoteToken
  by_cases h : needsQuotes token.toList = true
  · rw [if_pos h, if_pos (hiff.1 h)]
    simp [String.toList_append]
  · rw [if_neg h, if_neg (mt hiff.2 h)]

theorem isPlain_of_not_needsQuotes {t : List Char} (h : needsQuotes t = false)
    (hquote : '"' ∉ t) {c : Char} (hc : c ∈ t) : isPlain c = true := by
  simp only [needsQuotes, Bool.or_eq_false_iff, List.any_eq_false] at h
  have hcharacter := h.2 c hc
  have hne : c ≠ '"' := by
    intro hne
    exact hquote (hne ▸ hc)
  simp only [Bool.or_eq_true, not_or, Bool.not_eq_true, beq_iff_eq] at hcharacter
  simp [isPlain, hcharacter, hne]

theorem quoteToken_of_isPlain {token : String} (hne : token ≠ "")
    (h : ∀ c ∈ token.toList, isPlain c = true) : quoteToken token = token := by
  have hplain : needsQuotes token.toList = false := by
    simp only [isPlain, Bool.and_eq_true, Bool.not_eq_true', bne_iff_ne, ne_eq] at h
    simp only [needsQuotes, Bool.or_eq_false_iff, List.any_eq_false]
    refine ⟨by simp [hne], fun c hc => ?_⟩
    obtain ⟨⟨⟨hblank, hopen⟩, hclose⟩, -⟩ := h c hc
    simp [hblank, hopen, hclose]
  rw [← String.toList_inj, toList_quoteToken, hplain, if_neg Bool.false_ne_true]

/-- The scanner at rest takes a typed token for the token itself. -/
theorem splitFrom_quoteToken {token : String} (h : '"' ∉ token.toList) (r : List Char) :
    splitFrom .closed none ((quoteToken token).toList ++ r) =
      splitFrom .closed (some token.toList.reverse) r := by
  rw [toList_quoteToken]
  cases hq : needsQuotes token.toList with
  | true =>
    have hbegin : ∀ t, splitFrom .closed none ('"' :: t) = splitFrom ⟨true, 0⟩ (some []) t := by
      intro t
      simp [splitFrom, Nesting.separates, Nesting.next, Nesting.closed, isBlank]
    have hend : ∀ word t, splitFrom ⟨true, 0⟩ (some word) ('"' :: t) =
        splitFrom .closed (some word) t := by
      intro word t
      simp [splitFrom, Nesting.separates, Nesting.next, Nesting.closed, isBlank]
    simp only [if_true, List.cons_append, List.append_assoc, List.nil_append, hbegin,
      splitFrom_quoted h, hend, List.append_nil]
  | false =>
    rw [if_neg (by simp)]
    have hplain : ∀ c ∈ token.toList, isPlain c = true :=
      fun c hc => isPlain_of_not_needsQuotes hq h hc
    cases ht : token.toList with
    | nil => simp [ht, needsQuotes] at hq
    | cons c u =>
      rw [ht] at hplain
      obtain ⟨hc, hu⟩ := List.forall_mem_cons.1 hplain
      rw [List.cons_append, splitFrom_plain hc, splitFrom_plainText hu]
      simp

/-- Arguments as they are typed behind a name: each after a space. -/
def typedArguments (args : List String) : List Char :=
  args.flatMap fun a => ' ' :: (quoteToken a).toList

theorem splitFrom_typedArguments {args : List String} (h : ∀ a ∈ args, '"' ∉ a.toList)
    (word : Option (List Char)) :
    splitFrom .closed word (typedArguments args) =
      word.toList.map List.reverse ++ args.map String.toList := by
  induction args generalizing word with
  | nil => simp [typedArguments, splitFrom]
  | cons a args ih =>
    obtain ⟨ha, hargs⟩ := List.forall_mem_cons.1 h
    have hcons : typedArguments (a :: args) =
        ' ' :: ((quoteToken a).toList ++ typedArguments args) := by simp [typedArguments]
    rw [hcons, splitFrom_space, splitFrom_quoteToken ha, ih hargs]
    simp

theorem quoteToken_ends (token : String) :
    ∃ u c, (quoteToken token).toList = u ++ [c] ∧ isBlank c = false := by
  rw [toList_quoteToken]
  cases hq : needsQuotes token.toList with
  | true => exact ⟨'"' :: token.toList, '"', by simp, by decide⟩
  | false =>
    simp only [needsQuotes, Bool.or_eq_false_iff, List.any_eq_false, List.isEmpty_eq_false_iff] at hq
    refine ⟨token.toList.dropLast, token.toList.getLast hq.1, ?_, ?_⟩
    · rw [if_neg (by simp), List.dropLast_concat_getLast]
    · have hlast := hq.2 _ (List.getLast_mem hq.1)
      simp only [Bool.or_eq_true, not_or, Bool.not_eq_true] at hlast
      exact hlast.1.1

end CommandConsole
