import CommandConsole.Decimal
set_option autoImplicit false

/-!
Double precision numbers. The finite magnitudes are numbered in increasing order from zero, so a
number has one representation; each magnitude is a whole multiple of the least positive one, and
a ratio of whole numbers is rounded to the nearest magnitude, a tie to the even one.
-/

namespace CommandConsole

/-- How many magnitudes there are from one power of two to the next: `2 ^ 52`. -/
def binade : Nat := 4503599627370496

def magnitudeCount : Nat := 2047 * binade

inductive Binary64 where
  | nan
  | infinite (negative : Bool)
  | finite (negative : Bool) (rank : Fin magnitudeCount)
  deriving DecidableEq, Repr

/-- The number one in units of the least positive magnitude. -/
def Binary64.unitsInOne : Nat := Nat.pow 2 1074

/-- The magnitude with the given rank, in units of the least positive one. The ranks of the first
two binades count the units one by one; after that the step doubles with every binade. -/
def Binary64.units (rank : Nat) : Nat :=
  let doublings := rank / binade - 1
  (rank - doublings * binade) * Nat.pow 2 doublings

/-- The rank nearest to `n / d`, where a tie goes to the even rank. The quotient in units is cut
to its first 53 binary digits and the rest decides the rounding. -/
def Binary64.nearestRank (n d : Nat) : Nat :=
  let doublings := Nat.log2 (n * unitsInOne / d) - 52
  let step := d * Nat.pow 2 doublings
  let kept := n * unitsInOne / step
  let rest := n * unitsInOne % step
  doublings * binade + kept + if 2 * rest > step ∨ (2 * rest = step ∧ kept % 2 = 1) then 1 else 0

/-- A rank past the finite ones stands for infinity. -/
def Binary64.ofRank (negative : Bool) (rank : Nat) : Binary64 :=
  if h : rank < magnitudeCount then .finite negative ⟨rank, h⟩ else .infinite negative

/-- Rounds a decimal. The first three cases keep the powers of ten within the size of the
coefficient: beyond them every number rounds to zero or to infinity. -/
def Binary64.ofDecimal (negative : Bool) (d : Decimal) : Binary64 :=
  if d.coefficient = 0 then .ofRank negative 0
  else if 400 < d.exponent then .infinite negative
  else if d.exponent + Nat.log2 d.coefficient + 1 < -400 then .ofRank negative 0
  else .ofRank negative (nearestRank (d.coefficient * Nat.pow 10 d.exponent.toNat)
    (Nat.pow 10 (-d.exponent).toNat))

/-- A number without its sign: the words for infinity and for not a number in any case, or a
decimal. -/
def Binary64.readMagnitude? (negative : Bool) (t : List Char) : Option Binary64 :=
  let word := t.map Char.toLower
  if word = ['i', 'n', 'f'] ∨ word = ['i', 'n', 'f', 'i', 'n', 'i', 't', 'y'] then
    some (.infinite negative)
  else if word = ['n', 'a', 'n'] then some .nan
  else (Decimal.read? t).map (.ofDecimal negative)

def Binary64.read? : List Char → Option Binary64
  | '-' :: r => readMagnitude? true r
  | '+' :: r => readMagnitude? false r
  | t => readMagnitude? false t

/-- Equality of numbers: not a number differs from itself and the two zeros are the same. -/
def Binary64.agrees : Binary64 → Binary64 → Bool
  | .nan, _ => false
  | _, .nan => false
  | .infinite s, .infinite s' => s == s'
  | .finite s r, .finite s' r' => r == r' && (s == s' || r.val == 0)
  | _, _ => false

example : Binary64.read? "1".toList = some (.ofRank false (1023 * binade)) := by decide +kernel
example : Binary64.read? "-5e-324".toList = some (.ofRank true 1) := by decide +kernel
example : Binary64.read? "1e400".toList = some (.infinite false) := by decide +kernel
example : Binary64.read? "9007199254740993".toList =
    Binary64.read? "9007199254740992".toList := by decide +kernel

end CommandConsole
