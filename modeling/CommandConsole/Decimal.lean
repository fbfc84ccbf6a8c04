import CommandConsole.Numeral
set_option autoImplicit false

/-!
Decimal numbers: a whole coefficient times a power of ten, read from text with an optional point
and exponent, and written positionally without an exponent.
-/

namespace CommandConsole

structure Decimal where
  coefficient : Nat
  exponent : Int
  deriving DecidableEq, Repr

/-- What may follow the digits: nothing, or the letter `e` in either case and a whole number. -/
def Decimal.readExponent? : List Char → Option Int
  | [] => some 0
  | c :: r => if c = 'e' ∨ c = 'E' then readInt? r else none

/-- Digits with at most one point, at least one of them, then an optional exponent. -/
def Decimal.read? (t : List Char) : Option Decimal :=
  let whole := t.takeWhile Char.isDigit
  let rest := t.dropWhile Char.isDigit
  let pointed := match rest with
    | '.' :: r => (r.takeWhile Char.isDigit, r.dropWhile Char.isDigit)
    | r => ([], r)
  (readNat? 10 (whole ++ pointed.1)).bind fun n =>
    (Decimal.readExponent? pointed.2).map fun e => ⟨n, e - pointed.1.length⟩

/-- Drops factors of ten from the coefficient while the exponent is negative. -/
def Decimal.reduce (n : Nat) : Nat → Decimal
  | 0 => ⟨n, 0⟩
  | k + 1 => if n % 10 = 0 then Decimal.reduce (n / 10) k else ⟨n, -(k + 1 : Nat)⟩

/-- The digits of the coefficient, followed by zeros for a positive exponent; for a negative one
the point stands that many places from the right, after zeros where digits are missing. -/
def Decimal.write (d : Decimal) : List Char :=
  match d.exponent with
  | .ofNat k => writeNat 10 d.coefficient ++ List.replicate k '0'
  | .negSucc k =>
    let digits := writeNat 10 d.coefficient
    let places := k + 1
    let padded := List.replicate (places + 1 - digits.length) '0' ++ digits
    padded.take (padded.length - places) ++ '.' :: padded.drop (padded.length - places)

example : Decimal.read? "12.50e-1".toList = some ⟨1250, -3⟩ := by decide +kernel
example : Decimal.read? ".".toList = none ∧ Decimal.read? "1e".toList = none := by decide +kernel
example : Decimal.write ⟨5, -3⟩ = "0.005".toList := by decide +kernel
example : Decimal.write ⟨125, -1⟩ = "12.5".toList := by decide +kernel

end CommandConsole
