import CommandConsole.Numeral
import CommandConsole.Text.Blank
import Mathlib.Tactic.IntervalCases
set_option autoImplicit false

/-!
Whole numbers that are written and read again. The digits of a number are read as the number, and a
signed 64-bit integer comes back from its text.
-/

namespace CommandConsole

section Characters

variable {c : Char}

/-- The characters that numbers are written with. -/
def isNumeral (c : Char) : Bool := c.isAlphanum || c == '.' || c == '-'

theorem isNumeral_of_isDigit (h : c.isDigit = true) : isNumeral c = true := by
  simp [isNumeral, Char.isAlphanum, h]

theorem toNat_of_isDigit (h : c.isDigit = true) : 48 ≤ c.toNat ∧ c.toNat ≤ 57 := by
  simp only [Char.isDigit, Bool.and_eq_true, decide_eq_true_eq] at h
  exact ⟨UInt32.le_iff_toNat_le.1 h.1, UInt32.le_iff_toNat_le.1 h.2⟩

theorem toNat_of_isUpper (h : c.isUpper = true) : 65 ≤ c.toNat ∧ c.toNat ≤ 90 := by
  have hrange : c.val ≥ 'A'.val ∧ c.val ≤ 'Z'.val := of_decide_eq_true h
  exact ⟨UInt32.le_iff_toNat_le.1 hrange.1, UInt32.le_iff_toNat_le.1 hrange.2⟩

theorem toNat_of_isAlpha (h : c.isAlpha = true) :
    (65 ≤ c.toNat ∧ c.toNat ≤ 90) ∨ (97 ≤ c.toNat ∧ c.toNat ≤ 122) := by
  rcases Bool.or_eq_true_iff.1 (show (c.isUpper || c.isLower) = true from h) with hupper | hlower
  · exact Or.inl (toNat_of_isUpper hupper)
  · have hrange := Bool.and_eq_true_iff.1 hlower
    exact Or.inr ⟨UInt32.le_iff_toNat_le.1 (of_decide_eq_true hrange.1),
      UInt32.le_iff_toNat_le.1 (of_decide_eq_true hrange.2)⟩

theorem isBlank_of_isNumeral (h : isNumeral c = true) : isBlank c = false := by
  rw [Bool.eq_false_iff]
  intro hblank
  simp only [isBlank, Bool.or_eq_true, Bool.and_eq_true, decide_eq_true_eq, beq_iff_eq] at hblank
  simp only [isNumeral, Char.isAlphanum, Bool.or_eq_true, beq_iff_eq] at h
  rcases h with ((h | h) | rfl) | rfl
  · have hrange := toNat_of_isAlpha h
    omega
  · have hrange := toNat_of_isDigit h
    omega
  · exact absurd hblank (by decide)
  · exact absurd hblank (by decide)

theorem toLower_of_not_isUpper (h : c.isUpper = false) : c.toLower = c :=
  dif_neg (of_decide_eq_false h)

theorem toLower_of_isDigit (h : c.isDigit = true) : c.toLower = c := by
  refine toLower_of_not_isUpper (Bool.eq_false_iff.2 fun hupper => ?_)
  have hrange := toNat_of_isDigit h
  have hrange' := toNat_of_isUpper hupper
  omega

end Characters

theorem digitValue?_digitChar {base d : Nat} (hbase : base ≤ 16) (hd : d < base) :
    digitValue? base (Nat.digitChar d) = some d := by
  have hd16 : d < 16 := by omega
  interval_cases d <;> simp [digitValue?, Nat.digitChar, hd]

theorem readDigits?_singleton {base d : Nat} (hbase : base ≤ 16) (hd : d < base) (v : Nat) :
    readDigits? base v [Nat.digitChar d] = some (v * base + d) := by
  rw [readDigits?, digitValue?_digitChar hbase hd]
  rfl

theorem writeNat_ne_nil (base n : Nat) : writeNat base n ≠ [] := Nat.toDigits_ne_nil

/-- By induction on the number without its last digit. -/
theorem readDigits?_writeNat {base : Nat} (hone : 1 < base) (hbase : base ≤ 16) (n : Nat) :
    readDigits? base 0 (writeNat base n) = some n := by
  induction n using Nat.strongRecOn with
  | ind n ih =>
    rw [writeNat]
    by_cases hn : n < base
    · rw [Nat.toDigits_of_lt_base hn, readDigits?_singleton hbase hn, Nat.zero_mul, Nat.zero_add]
    · have hlast : n % base < base := Nat.mod_lt _ (by omega)
      have hrest := ih (n / base) (Nat.div_lt_self (by omega) hone)
      rw [writeNat] at hrest
      rw [Nat.toDigits_of_base_le hone (by omega), readDigits?_append, hrest, Option.bind_some,
        readDigits?_singleton hbase hlast, Nat.div_add_mod']

theorem readNat?_of_ne_nil {t : List Char} (base : Nat) (h : t ≠ []) :
    readNat? base t = readDigits? base 0 t := by
  cases t with
  | nil => exact absurd rfl h
  | cons c r => rfl

theorem readNat?_writeNat {base : Nat} (hone : 1 < base) (hbase : base ≤ 16) (n : Nat) :
    readNat? base (writeNat base n) = some n := by
  rw [readNat?_of_ne_nil base (writeNat_ne_nil base n), readDigits?_writeNat hone hbase]

/-- Zeros behind the digits multiply the number. -/
theorem readDigits?_zeros {base : Nat} (hbase : 0 < base) (v k : Nat) :
    readDigits? base v (List.replicate k '0') = some (v * Nat.pow base k) := by
  induction k generalizing v with
  | zero => exact congrArg some (Nat.mul_one v).symm
  | succ k ih =>
    have hzero : digitValue? base '0' = some 0 := if_pos hbase
    rw [List.replicate_succ, readDigits?, hzero, Option.bind_some, ih, Nat.add_zero, Nat.mul_assoc,
      Nat.mul_comm base]
    rfl

/-- Zeros in front of the digits add nothing. -/
theorem readNat?_zeros_writeNat {base : Nat} (hone : 1 < base) (hbase : base ≤ 16) (k n : Nat) :
    readNat? base (List.replicate k '0' ++ writeNat base n) = some n := by
  have hne : List.replicate k '0' ++ writeNat base n ≠ [] :=
    List.append_ne_nil_of_right_ne_nil _ (writeNat_ne_nil base n)
  rw [readNat?_of_ne_nil base hne, readDigits?_append, readDigits?_zeros (by omega), Nat.zero_mul,
    Option.bind_some, readDigits?_writeNat hone hbase]

theorem isDigit_of_mem_writeNat {n : Nat} {c : Char} (h : c ∈ writeNat 10 n) :
    c.isDigit = true :=
  Nat.isDigit_of_mem_toDigits (by decide) (by decide) h

/-- Where no sign stands in front, the digits are the number. -/
theorem readInt?_of_digits {t : List Char} (h : ∀ c ∈ t, c.isDigit = true) :
    readInt? t = (readNat? 10 t).map fun n => (n : Int) := by
  unfold readInt?
  split
  · exact absurd (h _ List.mem_cons_self) (by decide)
  · exact absurd (h _ List.mem_cons_self) (by decide)
  · rfl

theorem readInt?_writeInt (i : Int) : readInt? (writeInt i) = some i := by
  have hdigits : readNat? 10 (writeNat 10 i.natAbs) = some i.natAbs :=
    readNat?_writeNat (by decide) (by decide) i.natAbs
  rw [writeInt]
  split
  · rw [readInt?, hdigits]
    show some (-(i.natAbs : Int)) = some i
    rw [Option.some.injEq]
    omega
  · rw [readInt?_of_digits fun c hc => isDigit_of_mem_writeNat hc, hdigits]
    show some (i.natAbs : Int) = some i
    rw [Option.some.injEq]
    omega

theorem isNumeral_of_mem_writeInt {i : Int} {c : Char} (h : c ∈ writeInt i) :
    isNumeral c = true := by
  rw [writeInt] at h
  split at h
  · rcases List.mem_cons.1 h with rfl | h
    · decide
    · exact isNumeral_of_isDigit (isDigit_of_mem_writeNat h)
  · exact isNumeral_of_isDigit (isDigit_of_mem_writeNat h)

theorem int64?_toInt (i : Int64) : int64? i.toInt = some i := by
  have hmin := Int64.le_toInt i
  have hmax := Int64.toInt_lt i
  rw [int64?, if_pos (by omega), Int64.ofInt_toInt]

end CommandConsole
