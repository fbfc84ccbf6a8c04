import CommandConsole.Proofs.Runs
import Mathlib.Data.Nat.Find
set_option autoImplicit false

/-!
Texts that are split in parts. Behind a text that leaves nothing open a blank begins anew, so the
tokens of the whole are those of its parts. What is opened and never closed is one piece, which
belongs to the token that was begun in front of it.
-/

namespace CommandConsole

/-- The scanner is outside quotes and at depth zero behind the text. -/
def IsBalanced (t : List Char) : Prop := Nesting.closed.after t = .closed

instance : DecidablePred IsBalanced := fun t =>
  inferInstanceAs (Decidable (Nesting.closed.after t = .closed))

/-- The length of the longest beginning of a text that is balanced. -/
def balancedLength (t : List Char) : Nat :=
  Nat.findGreatest (fun i => IsBalanced (t.take i)) t.length

def balancedPart (t : List Char) : List Char := t.take (balancedLength t)

/-- What follows the longest balanced beginning. -/
def openPart (t : List Char) : List Char := t.drop (balancedLength t)

/-- The text is empty or ends with a blank, so that no token is begun behind it. -/
def EndsTokens (t : List Char) : Prop := ∀ c, t.getLast? = some c → isBlank c = true

@[simp] theorem Nesting.after_nil (s : Nesting) : s.after [] = s := rfl

@[simp] theorem Nesting.after_cons (s : Nesting) (c : Char) (t : List Char) :
    s.after (c :: t) = (s.next c).after t := rfl

@[simp] theorem Nesting.after_append (s : Nesting) (t r : List Char) :
    s.after (t ++ r) = (s.after t).after r := by simp [after]

theorem Nesting.isOpen_eq_false_iff (s : Nesting) : s.isOpen = false ↔ s = .closed := by
  obtain ⟨quoted, depth⟩ := s
  simp [isOpen, closed]

/-- The same of the text itself: every quote has its partner, and no range that ends with the text
leaves a parenthesis open. -/
theorem isBalanced_iff (t : List Char) :
    IsBalanced t ↔ quotedAt t t.length = false ∧ depthAt t t.length = 0 := by
  have hquoted := quoted_after t t.length
  have hdepth := depth_after t t.length
  rw [List.take_length] at hquoted hdepth
  rw [← hquoted, ← hdepth, IsBalanced, ← Nesting.isOpen_eq_false_iff]
  simp [Nesting.isOpen]

section scanner

variable {s : Nesting}

/-- The scanner forgets everything at a blank behind a balanced text. -/
theorem splitFrom_append_blank {a : List Char} {w : Char} (hw : isBlank w = true)
    (ha : s.after a = .closed) (word : Option (List Char)) (b : List Char) :
    splitFrom s word (a ++ w :: b) = splitFrom s word a ++ splitFrom .closed none b := by
  induction a generalizing s word with
  | nil =>
    rw [Nesting.after_nil] at ha
    simp [ha, splitFrom, Nesting.separates, Nesting.isOpen, Nesting.closed, hw]
  | cons c a ih =>
    rw [Nesting.after_cons] at ha
    cases hc : s.separates c with
    | true =>
      rw [Nesting.next_of_separates hc] at ha
      simp [splitFrom, hc, ih ha]
    | false => simp [splitFrom, hc, ih ha]

/-- What the scanner has kept of a text does not depend on what follows. -/
theorem exists_splitFrom_append (s : Nesting) (word : Option (List Char)) (u : List Char) :
    ∃ kept word', ∀ v, splitFrom s word (u ++ v) = kept ++ splitFrom (s.after u) word' v := by
  induction u generalizing s word with
  | nil => exact ⟨[], word, fun v => rfl⟩
  | cons c u ih =>
    cases hc : s.separates c with
    | true =>
      obtain ⟨kept, word', hrest⟩ := ih s none
      refine ⟨word.toList.map List.reverse ++ kept, word', fun v => ?_⟩
      simp [splitFrom, hc, hrest, Nesting.next_of_separates hc]
    | false =>
      obtain ⟨kept, word', hrest⟩ :=
        ih (s.next c) (some ((if c = '"' then [] else [c]) ++ word.getD []))
      refine ⟨kept, word', fun v => ?_⟩
      simp [splitFrom, hc, hrest]

/-- A text without separators is added to the token that was begun. -/
theorem splitFrom_of_not_separates {v w : List Char}
    (h : ∀ p c q, v = p ++ c :: q → (s.after p).separates c = false) :
    splitFrom s (some w) v = [w.reverse ++ v.filter (· != '"')] := by
  induction v generalizing s w with
  | nil => simp [splitFrom]
  | cons c v ih =>
    have hc : s.separates c = false := h [] c v rfl
    have hrest : ∀ p d q, v = p ++ d :: q → ((s.next c).after p).separates d = false := by
      intro p d q hv
      exact h (c :: p) d q (by simp [hv])
    rw [splitFrom, hc, if_neg Bool.false_ne_true, ih hrest]
    by_cases hquote : c = '"'
    · simp [hquote]
    · simp [hquote]

/-- Without a token begun, it begins one. -/
theorem splitFrom_none_of_not_separates {v : List Char} (hne : v ≠ [])
    (h : ∀ p c q, v = p ++ c :: q → (s.after p).separates c = false) :
    splitFrom s none v = [v.filter (· != '"')] := by
  have hbegun : splitFrom s none v = splitFrom s (some []) v := by
    cases v with
    | nil => exact absurd rfl hne
    | cons c v =>
      have hc : s.separates c = false := h [] c v rfl
      simp [splitFrom, hc]
  rw [hbegun, splitFrom_of_not_separates h, List.reverse_nil, List.nil_append]

end scanner

section parts

variable {t : List Char}

theorem balancedPart_append_openPart (t : List Char) : balancedPart t ++ openPart t = t :=
  List.take_append_drop _ _

theorem isBalanced_balancedPart (t : List Char) : IsBalanced (balancedPart t) :=
  Nat.findGreatest_spec (P := fun i => IsBalanced (t.take i)) (Nat.zero_le _) rfl

/-- A balanced beginning of the text ends within its balanced part. -/
theorem eq_nil_of_isBalanced {p q : List Char} (h : openPart t = p ++ q)
    (hp : IsBalanced (balancedPart t ++ p)) : p = [] := by
  have hlength : (balancedPart t).length = balancedLength t := by
    have hle : balancedLength t ≤ t.length := Nat.findGreatest_le _
    simp [balancedPart, hle]
  have hprefix : balancedPart t ++ p <+: t :=
    ⟨q, by rw [List.append_assoc, ← h, balancedPart_append_openPart]⟩
  have hgreatest : (balancedPart t ++ p).length ≤ balancedLength t :=
    Nat.le_findGreatest hprefix.length_le (by rwa [← List.prefix_iff_eq_take.1 hprefix])
  rw [List.length_append, hlength] at hgreatest
  exact List.eq_nil_of_length_eq_zero (by omega)

theorem openPart_ne_nil (h : ¬IsBalanced t) : openPart t ≠ [] := by
  intro hnil
  have hall := balancedPart_append_openPart t
  rw [hnil, List.append_nil] at hall
  exact h (hall ▸ isBalanced_balancedPart t)

/-- A separator in the open part would be balanced, and so is no part of it. -/
theorem not_separates_openPart {p q : List Char} {c : Char} (h : openPart t = p ++ c :: q) :
    (Nesting.closed.after p).separates c = false := by
  have hpart : Nesting.closed.after (balancedPart t) = .closed := isBalanced_balancedPart t
  by_contra hsep
  rw [Bool.not_eq_false] at hsep
  have hnext := Nesting.next_of_separates hsep
  simp only [Nesting.separates, Bool.and_eq_true, Bool.not_eq_true'] at hsep
  have hclosed := (Nesting.isOpen_eq_false_iff _).1 hsep.2
  rw [hclosed] at hnext
  have hbalanced : IsBalanced (balancedPart t ++ (p ++ [c])) := by
    simp [IsBalanced, hpart, hnext, hclosed]
  have hnil := eq_nil_of_isBalanced (p := p ++ [c]) (q := q) (by simp [h]) hbalanced
  simp at hnil

/-- Behind a blank the open part is a token of its own. -/
theorem splitFrom_of_endsTokens (h : ¬IsBalanced t) (hends : EndsTokens (balancedPart t)) :
    splitFrom .closed none t =
      splitFrom .closed none (balancedPart t) ++ [(openPart t).filter (· != '"')] := by
  have hopen : splitFrom .closed none (openPart t) = [(openPart t).filter (· != '"')] :=
    splitFrom_none_of_not_separates (openPart_ne_nil h) fun p c q => not_separates_openPart
  have hbalanced := isBalanced_balancedPart t
  have hsplit : ∀ v, splitFrom .closed none (balancedPart t ++ v) =
      splitFrom .closed none (balancedPart t) ++ splitFrom .closed none v := by
    intro v
    rcases List.eq_nil_or_concat' (balancedPart t) with hnil | ⟨u, w, hlast⟩
    · simp [hnil, splitFrom]
    · have hw : isBlank w = true := hends w (by simp [hlast])
      have hu : Nesting.closed.after u = .closed := by
        simpa [IsBalanced, hlast, Nesting.next_of_isBlank _ hw] using hbalanced
      have hend := splitFrom_append_blank hw hu none []
      have hmore := splitFrom_append_blank hw hu none v
      simp [hlast, hend, hmore, splitFrom]
  have hall := hsplit (openPart t)
  rwa [balancedPart_append_openPart, hopen] at hall

/-- Behind another character the open part goes on with the token begun. -/
theorem splitFrom_of_not_endsTokens (hends : ¬EndsTokens (balancedPart t)) :
    ∃ kept last, splitFrom .closed none (balancedPart t) = kept ++ [last] ∧
      splitFrom .closed none t = kept ++ [last ++ (openPart t).filter (· != '"')] := by
  have hbalanced : Nesting.closed.after (balancedPart t) = .closed := isBalanced_balancedPart t
  have hlast : ∃ c, (balancedPart t).getLast? = some c ∧ isBlank c = false := by
    simpa [EndsTokens] using hends
  obtain ⟨c, hc, hblank⟩ := hlast
  obtain ⟨u, hu⟩ := List.getLast?_eq_some_iff.1 hc
  obtain ⟨kept, word, hkept⟩ := exists_splitFrom_append .closed none u
  rw [hu, Nesting.after_append, Nesting.after_cons, Nesting.after_nil] at hbalanced
  have hstep : ∀ v, splitFrom .closed none (balancedPart t ++ v) =
      kept ++ splitFrom .closed (some ((if c = '"' then [] else [c]) ++ word.getD [])) v := by
    intro v
    simp [hu, hkept, splitFrom, Nesting.separates, hblank, hbalanced]
  refine ⟨kept, ((if c = '"' then [] else [c]) ++ word.getD []).reverse, ?_, ?_⟩
  · have hnone := hstep []
    rw [List.append_nil] at hnone
    rw [hnone]
    simp [splitFrom]
  · have hall := hstep (openPart t)
    rw [balancedPart_append_openPart] at hall
    rw [hall, splitFrom_of_not_separates fun p c q => not_separates_openPart]

end parts

/-- A blank behind a balanced text makes its tokens and those of what follows the tokens of the
whole. Where a text ends with something open, the part behind its longest balanced beginning is one
piece without its quotes: a token of its own behind a blank, else the end of the last token. Such a
text is recorded, and no other is. -/
theorem splitting_composes :
    (∀ t : List Char, IsBalanced t ↔ quotedAt t t.length = false ∧ depthAt t t.length = 0) ∧
    (∀ (a b : String) (w : Char), IsBalanced a.toList → isBlank w = true →
      splitArguments (a ++ String.singleton w ++ b) = splitArguments a ++ splitArguments b) ∧
    (∀ s : String, ¬IsBalanced s.toList →
      let front := String.ofList (balancedPart s.toList)
      let tail := String.ofList ((openPart s.toList).filter (· != '"'))
      (EndsTokens front.toList → splitArguments s = splitArguments front ++ [tail]) ∧
      (¬EndsTokens front.toList → ∃ tokens last, splitArguments front = tokens ++ [last] ∧
        splitArguments s = tokens ++ [last ++ tail])) ∧
    ∀ s : String, records ((splitDiagnostics s).map .diagnostic) =
      if IsBalanced s.toList then []
      else [(.debug, "unbalanced argument string kept as trailing token: " ++ escaped s)] := by
  refine ⟨isBalanced_iff, ?_, ?_, ?_⟩
  · intro a b w ha hw
    have hsplit := splitFrom_append_blank hw ha none b.toList
    simp [splitArguments, String.toList_append, hsplit]
  · intro s hs front tail
    constructor
    · intro hends
      have hsplit := splitFrom_of_endsTokens hs (by simpa [front] using hends)
      simp [splitArguments, front, tail, hsplit]
    · intro hends
      obtain ⟨kept, last, hfront, hall⟩ := splitFrom_of_not_endsTokens (t := s.toList)
        (by simpa [front] using hends)
      exact ⟨kept.map String.ofList, String.ofList last, by simp [splitArguments, front, hfront],
        by simp [splitArguments, tail, hall]⟩
  · intro s
    by_cases hs : IsBalanced s.toList
    · have hclosed := (Nesting.isOpen_eq_false_iff _).2 hs
      rw [splitDiagnostics, hclosed, if_pos hs]
      rfl
    · have hopen := mt (Nesting.isOpen_eq_false_iff _).1 hs
      rw [Bool.not_eq_false] at hopen
      rw [splitDiagnostics, hopen, if_neg hs]
      rfl

/-- A closing parenthesis without a partner before a wide blank, a quote that is opened behind a
blank, and one inside parentheses behind a letter. -/
theorem splitting_composes_open :
    splitArguments ("a) \"b c\"" ++ String.singleton '\u3000' ++ "d") =
        splitArguments "a) \"b c\"" ++ splitArguments "d" ∧
      splitArguments "say \"a b" = splitArguments "say " ++ ["a b"] ∧
      ∃ tokens last, splitArguments "x f" = tokens ++ [last] ∧
        splitArguments "x f(1 \"2) 3" = tokens ++ [last ++ "(1 2) 3"] := by
  obtain ⟨-, hblank, hopen, -⟩ := splitting_composes
  have hparts : String.ofList (balancedPart "say \"a b".toList) = "say " ∧
      String.ofList ((openPart "say \"a b".toList).filter (· != '"')) = "a b" ∧
      String.ofList (balancedPart "x f(1 \"2) 3".toList) = "x f" ∧
      String.ofList ((openPart "x f(1 \"2) 3".toList).filter (· != '"')) = "(1 2) 3" := by
    decide +kernel
  obtain ⟨hsay, hquote, hf, hparen⟩ := hparts
  have hbehindBlank := (hopen "say \"a b" (by decide +kernel)).1
  have hbehindLetter := (hopen "x f(1 \"2) 3" (by decide +kernel)).2
  rw [hsay, hquote] at hbehindBlank
  rw [hf, hparen] at hbehindLetter
  exact ⟨hblank _ _ _ (by decide +kernel) (by decide),
    hbehindBlank (by simp [EndsTokens, isBlank]), hbehindLetter (by simp [EndsTokens, isBlank])⟩

end CommandConsole
