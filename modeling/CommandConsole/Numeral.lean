set_option autoImplicit false

/-!
Whole numbers in a base up to sixteen: reading digits of either case, writing lower-case digits,
and signed 64-bit integers in base ten.
-/

namespace CommandConsole

def digitValue? (base : Nat) (c : Char) : Option Nat :=
  let v :=
    if '0' ≤ c ∧ c ≤ '9' then c.toNat - 48
    else if 'a' ≤ c ∧ c ≤ 'f' then c.toNat - 87
    else if 'A' ≤ c ∧ c ≤ 'F' then c.toNat - 55
    else base
  if v < base then some v else none

/-- Continues a number whose digits so far have the value `v`. -/
def readDigits? (base : Nat) (v : Nat) : List Char → Option Nat
  | [] => some v
  | c :: r => (digitValue? base c).bind fun d => readDigits? base (v * base + d) r

/-- A number is one digit or more and nothing else. -/
def readNat? (base : Nat) : List Char → Option Nat
  | [] => none
  | t => readDigits? base 0 t

def writeNat (base n : Nat) : List Char := Nat.toDigits base n

def writeInt (i : Int) : List Char :=
  if i < 0 then '-' :: writeNat 10 i.natAbs else writeNat 10 i.natAbs

/-- One sign may stand before the digits. -/
def readInt? : List Char → Option Int
  | '-' :: r => (readNat? 10 r).map fun n => -(n : Int)
  | '+' :: r => (readNat? 10 r).map fun n => (n : Int)
  | t => (readNat? 10 t).map fun n => (n : Int)

def int64? (i : Int) : Option Int64 :=
  if -9223372036854775808 ≤ i ∧ i ≤ 9223372036854775807 then some (Int64.ofInt i) else none

def writeInt64 (i : Int64) : List Char := writeInt i.toInt

theorem readDigits?_append (base v : Nat) (x y : List Char) :
    readDigits? base v (x ++ y) = (readDigits? base v x).bind fun w => readDigits? base w y := by
  induction x generalizing v with
  | nil => rfl
  | cons c r ih =>
    simp only [List.cons_append, readDigits?]
    cases digitValue? base c <;> simp [ih]

theorem toInt_of_int64? {i : Int} {w : Int64} (h : int64? i = some w) : w.toInt = i := by
  unfold int64? at h
  split at h
  · cases h
    exact Int64.toInt_ofInt_of_le (by omega) (by omega)
  · cases h

example : readInt? "+007".toList = some 7 := by decide +kernel
example : (readInt? "9223372036854775808".toList).bind int64? = none := by decide +kernel
example : writeInt64 (-9223372036854775808) = "-9223372036854775808".toList := by decide +kernel

end CommandConsole
