import CommandConsole.Line
import Mathlib.Algebra.Order.Interval.Finset.SuccPred
import Mathlib.Data.Finset.Lattice.Fold
import Mathlib.Data.Nat.SuccPred
import Mathlib.Order.Interval.Finset.Nat
set_option autoImplicit false

/-!
Where an argument text is cut, said of each position by itself: it depends on how many quotes stand
before the position and on the most that any range ending there leaves open. The scanner, which
carries a flag and a counter, separates at exactly these positions.
-/

namespace CommandConsole

/-- An odd number of quotes stands before the position. -/
def quotedAt (t : List Char) (i : Nat) : Bool := (t.take i).count '"' % 2 == 1

/-- How many of the positions from `j` up to `i` hold a character outside quotes. -/
def unquoted (t : List Char) (c : Char) (j i : Nat) : Nat :=
  ((Finset.Ico j i).filter fun k => t[k]? = some c ∧ quotedAt t k = false).card

/-- How many more parentheses are opened than closed from `j` up to `i`. -/
def balance (t : List Char) (j i : Nat) : Int :=
  (unquoted t '(' j i : Int) - unquoted t ')' j i

/-- The greatest balance of a range that ends at the position. The empty range is one of them. -/
def depthAt (t : List Char) (i : Nat) : Int :=
  (Finset.range (i + 1)).sup' Finset.nonempty_range_add_one fun j => balance t j i

/-- A blank character outside quotes and at depth zero. -/
def isSeparator (t : List Char) (i : Nat) : Bool :=
  t[i]?.any isBlank && !quotedAt t i && depthAt t i == 0

theorem Nesting.after_take_succ (s : Nesting) {t : List Char} {i : Nat} {c : Char}
    (h : t[i]? = some c) : s.after (t.take (i + 1)) = (s.after (t.take i)).next c := by
  simp [after, List.take_add_one, h]

theorem Nesting.after_take_of_none (s : Nesting) {t : List Char} {i : Nat} (h : t[i]? = none) :
    s.after (t.take (i + 1)) = s.after (t.take i) := by
  simp [List.take_add_one, h]

theorem Nesting.quoted_next (s : Nesting) (c : Char) :
    (s.next c).quoted = if c = '"' then !s.quoted else s.quoted := by
  unfold next
  split
  · rfl
  · simp only [apply_ite Nesting.quoted, ite_self]

theorem quotedAt_succ {t : List Char} {i : Nat} {c : Char} (h : t[i]? = some c) :
    quotedAt t (i + 1) = if c = '"' then !quotedAt t i else quotedAt t i := by
  simp only [quotedAt, List.take_add_one, h, Option.toList_some, List.count_append,
    List.count_singleton]
  by_cases hc : c = '"'
  · simp only [hc, beq_self_eq_true, if_true]
    rcases Nat.mod_two_eq_zero_or_one ((t.take i).count '"') with hm | hm
    · simp [Nat.add_mod, hm]
    · simp [Nat.add_mod, hm]
  · simp [hc]

theorem quoted_after (t : List Char) (i : Nat) :
    (Nesting.closed.after (t.take i)).quoted = quotedAt t i := by
  induction i with
  | zero => rfl
  | succ i ih =>
    cases h : t[i]? with
    | none => simpa [quotedAt, List.take_add_one, h] using ih
    | some c => rw [Nesting.after_take_succ _ h, Nesting.quoted_next, quotedAt_succ h, ih]

theorem unquoted_self (t : List Char) (c : Char) (i : Nat) : unquoted t c i i = 0 := by
  simp [unquoted]

theorem unquoted_succ (t : List Char) (c : Char) {j i : Nat} (h : j ≤ i) :
    unquoted t c j (i + 1) =
      unquoted t c j i + if t[i]? = some c ∧ quotedAt t i = false then 1 else 0 := by
  simp only [unquoted]
  rw [← Finset.insert_Ico_right_eq_Ico_add_one h, Finset.filter_insert]
  split
  · rw [Finset.card_insert_of_notMem (by simp)]
  · rfl

def depthStep (quoted : Bool) (c : Char) : Int :=
  if quoted then 0 else if c = '(' then 1 else if c = ')' then -1 else 0

/-- What a position adds to the balance of the ranges that go on through it. -/
def balanceStep (t : List Char) (i : Nat) : Int := t[i]?.elim 0 (depthStep (quotedAt t i))

theorem balance_self (t : List Char) (i : Nat) : balance t i i = 0 := by
  simp [balance, unquoted_self]

theorem balance_succ (t : List Char) {j i : Nat} (h : j ≤ i) :
    balance t j (i + 1) = balance t j i + balanceStep t i := by
  simp only [balance, unquoted_succ t _ h, balanceStep]
  cases hc : t[i]? with
  | none => simp
  | some c =>
    cases hq : quotedAt t i with
    | true => simp [depthStep]
    | false =>
      by_cases hopen : c = '('
      · simp [depthStep, hopen]
        omega
      · by_cases hclose : c = ')'
        · simp [depthStep, hclose]
          omega
        · simp [depthStep, hopen, hclose]

theorem balance_le_depthAt {t : List Char} {j i : Nat} (h : j ≤ i) :
    balance t j i ≤ depthAt t i :=
  Finset.le_sup' (fun j => balance t j i) (Finset.mem_range.2 (Nat.lt_succ_of_le h))

theorem depthAt_le {t : List Char} {i : Nat} {d : Int} (h : ∀ j ≤ i, balance t j i ≤ d) :
    depthAt t i ≤ d :=
  Finset.sup'_le _ _ fun j hj => h j (Nat.le_of_lt_succ (Finset.mem_range.1 hj))

/-- The greatest balance moves like a counter that stops at zero. -/
theorem depthAt_succ (t : List Char) (i : Nat) :
    depthAt t (i + 1) = max 0 (depthAt t i + balanceStep t i) := by
  -- a range that ends behind `i` goes through `i`, or it is empty and has the balance zero
  apply le_antisymm
  · apply depthAt_le
    intro j hj
    rcases Nat.lt_or_eq_of_le hj with hlt | rfl
    · rw [balance_succ t (Nat.le_of_lt_succ hlt)]
      have := balance_le_depthAt (t := t) (Nat.le_of_lt_succ hlt)
      omega
    · rw [balance_self]
      omega
  · apply max_le
    · rw [← balance_self t (i + 1)]
      exact balance_le_depthAt (Nat.le_refl _)
    · have h : depthAt t i ≤ depthAt t (i + 1) - balanceStep t i := by
        apply depthAt_le
        intro j hj
        have hle : balance t j (i + 1) ≤ depthAt t (i + 1) :=
          balance_le_depthAt (Nat.le_succ_of_le hj)
        rw [balance_succ t hj] at hle
        omega
      omega

theorem Nesting.depth_next (s : Nesting) (c : Char) :
    ((s.next c).depth : Int) = max 0 (s.depth + depthStep s.quoted c) := by
  obtain ⟨quoted, depth⟩ := s
  cases quoted with
  | true => by_cases hc : c = '"' <;> simp [next, depthStep, hc]
  | false =>
    by_cases hquote : c = '"'
    · simp [next, depthStep, hquote]
    · by_cases hopen : c = '('
      · simp [next, depthStep, hopen]
        omega
      · by_cases hclose : c = ')'
        · simp [next, depthStep, hclose]
          omega
        · simp [next, depthStep, hquote, hopen, hclose]

theorem depth_after (t : List Char) (i : Nat) :
    ((Nesting.closed.after (t.take i)).depth : Int) = depthAt t i := by
  induction i with
  | zero => simp [depthAt, balance_self, Nesting.after, Nesting.closed]
  | succ i ih =>
    rw [depthAt_succ, ← ih]
    cases h : t[i]? with
    | none => simp [Nesting.after_take_of_none _ h, balanceStep, h]
    | some c => simp [Nesting.after_take_succ _ h, Nesting.depth_next, balanceStep, h, quoted_after]

theorem separates_after {t : List Char} {i : Nat} {c : Char} (h : t[i]? = some c) :
    (Nesting.closed.after (t.take i)).separates c = isSeparator t i := by
  have hd := depth_after t i
  have hzero : (depthAt t i == 0) =
      !decide (0 < (Nesting.closed.after (t.take i)).depth) := by
    rw [Bool.eq_iff_iff]
    simp only [beq_iff_eq, Bool.not_eq_true', decide_eq_false_iff_not]
    omega
  simp [Nesting.separates, Nesting.isOpen, isSeparator, h, quoted_after, hzero, Bool.and_assoc]

end CommandConsole
