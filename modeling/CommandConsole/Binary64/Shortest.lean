import CommandConsole.Binary64
set_option autoImplicit false

/-!
The text of a double precision number: the fewest digits that read back, and of those the
nearest, written positionally.
-/

namespace CommandConsole

/-- The number of decimal digits before the point, negative where zeros follow the point. The
offset makes the least positive magnitude greater than one. -/
def Binary64.decimalPosition (rank : Nat) : Int :=
  (writeNat 10 (units rank * Nat.pow 10 324 / unitsInOne)).length - 324

def Binary64.readsBack (rank : Nat) (d : Decimal) : Bool :=
  ofDecimal false d == ofRank false rank

/-- Of the two neighbours of the magnitude on the grid of multiples of `10 ^ exponent`, the one
that reads back; of two, the nearer one, and the upper one at a tie. -/
def Binary64.onGrid? (rank : Nat) (exponent : Int) : Option Decimal :=
  let n := units rank * Nat.pow 10 (-exponent).toNat
  let d := unitsInOne * Nat.pow 10 exponent.toNat
  let below : Decimal := ⟨n / d, exponent⟩
  let above : Decimal := ⟨n / d + 1, exponent⟩
  if readsBack rank below && (2 * (n % d) < d || !readsBack rank above) then some below
  else if readsBack rank above then some above
  else none

/-- The exact value, which a decimal always has. -/
def Binary64.exactDecimal (rank : Nat) : Decimal := ⟨units rank * Nat.pow 5 1074, -1074⟩

/-- The first grid with a decimal that reads back, from one digit to seventeen. -/
def Binary64.shortest (rank : Nat) : Decimal :=
  let position := decimalPosition rank
  ((List.range 17).findSome? fun k => onGrid? rank (position - (k + 1 : Nat))).getD
    (exactDecimal rank)

def Binary64.writeMagnitude (rank : Nat) : List Char :=
  if rank = 0 then ['0']
  else
    let d := shortest rank
    (if d.exponent < 0 then Decimal.reduce d.coefficient (-d.exponent).toNat else d).write

/-- A minus sign stands before every negative number, zero included. -/
def Binary64.write : Binary64 → List Char
  | .nan => ['N', 'a', 'N']
  | .infinite s => (if s then ['-'] else []) ++ ['i', 'n', 'f']
  | .finite s r => (if s then ['-'] else []) ++ writeMagnitude r

end CommandConsole
