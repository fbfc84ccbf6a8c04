import CommandConsole.Binary64.Shortest
set_option autoImplicit false

/-!
Rounding a decimal to the nearest magnitude. The outcome depends on the value of the decimal alone,
each magnitude is the nearest one to itself, and the decimal that is written for a magnitude is
rounded to that magnitude.
-/

namespace CommandConsole

section Units

open Binary64

/-- The rank nearest to the quotient `x / d` of units. -/
def roundUnits (x d : Nat) : Nat :=
  let doublings := Nat.log2 (x / d) - 52
  let step := d * Nat.pow 2 doublings
  let kept := x / step
  let rest := x % step
  doublings * binade + kept + if 2 * rest > step ∨ (2 * rest = step ∧ kept % 2 = 1) then 1 else 0

theorem nearestRank_eq_roundUnits (n d : Nat) :
    nearestRank n d = roundUnits (n * unitsInOne) d := rfl

theorem roundUnits_scale {k : Nat} (hk : 0 < k) (x d : Nat) :
    roundUnits (x * k) (d * k) = roundUnits x d := by
  have hquotient : x * k / (d * k) = x / d := Nat.mul_div_mul_right x d hk
  have hstep : ∀ m, d * k * m = d * m * k := fun m => Nat.mul_right_comm d k m
  have hkept : ∀ m, x * k / (d * m * k) = x / (d * m) := fun m => Nat.mul_div_mul_right x _ hk
  have hrest : ∀ m, x * k % (d * m * k) = x % (d * m) * k := fun m => Nat.mul_mod_mul_right k x _
  have hover : ∀ a b : Nat, 2 * (a * k) > b * k ↔ 2 * a > b := by
    intro a b
    rw [← Nat.mul_assoc]
    exact Nat.mul_lt_mul_right hk
  have htie : ∀ a b : Nat, 2 * (a * k) = b * k ↔ 2 * a = b := by
    intro a b
    rw [← Nat.mul_assoc]
    exact Nat.mul_left_inj (Nat.ne_of_gt hk)
  simp only [roundUnits, hquotient, hstep, hkept, hrest, hover, htie]

/-- The nearest rank depends on the quotient alone. -/
theorem roundUnits_congr {x d x' d' : Nat} (hd : 0 < d) (hd' : 0 < d')
    (h : x * d' = x' * d) : roundUnits x d = roundUnits x' d' := by
  rw [← roundUnits_scale hd' x d, h, Nat.mul_comm d d', roundUnits_scale hd]

theorem roundUnits_eq_zero {x d : Nat} (h : 2 * x < d) : roundUnits x d = 0 := by
  have hquotient : x / d = 0 := Nat.div_eq_of_lt (by omega)
  have hrest : x % d = x := Nat.mod_eq_of_lt (by omega)
  have hone : d * Nat.pow 2 0 = d := Nat.mul_one d
  simp only [roundUnits, hquotient, Nat.log2_zero, Nat.zero_sub, hone, hrest, Nat.zero_mul]
  rw [if_neg (by omega)]

theorem mul_binade_le_roundUnits {x d k : Nat} (hd : 0 < d) (h : d * Nat.pow 2 (k + 52) ≤ x) :
    k * binade ≤ roundUnits x d := by
  have hquotient : Nat.pow 2 (k + 52) ≤ x / d :=
    (Nat.le_div_iff_mul_le hd).2 (by rwa [Nat.mul_comm])
  have hpos : 0 < x / d := Nat.lt_of_lt_of_le (Nat.two_pow_pos (k + 52)) hquotient
  have hlog : k + 52 ≤ Nat.log2 (x / d) := (Nat.le_log2 (Nat.ne_of_gt hpos)).2 hquotient
  have hdoublings : k * binade ≤ (Nat.log2 (x / d) - 52) * binade :=
    Nat.mul_le_mul_right _ (by omega)
  exact Nat.le_trans hdoublings (Nat.le_trans (Nat.le_add_right _ _) (Nat.le_add_right _ _))

/-- A rank past the first two binades is its number of doublings and the first 53 digits of its
magnitude. -/
theorem exists_doublings (rank : Nat) : ∃ doublings kept, rank = doublings * binade + kept ∧
    units rank = kept * Nat.pow 2 doublings ∧ kept < 2 * binade ∧
    (doublings = 0 ∨ binade ≤ kept) := by
  have hrest : rank % binade < binade := Nat.mod_lt rank (by decide)
  have hrank := Nat.div_add_mod' rank binade
  refine ⟨rank / binade - 1, rank - (rank / binade - 1) * binade, ?_, rfl, ?_, ?_⟩
  all_goals
    cases hq : rank / binade with
    | zero =>
      rw [hq] at hrank
      omega
    | succ q =>
      rw [hq, Nat.succ_mul] at hrank
      rw [Nat.add_sub_cancel]
      omega

theorem log2_units {doublings kept : Nat} (hlt : kept < 2 * binade)
    (hle : doublings = 0 ∨ binade ≤ kept) :
    Nat.log2 (kept * Nat.pow 2 doublings) - 52 = doublings := by
  have hpos : 0 < Nat.pow 2 doublings := Nat.two_pow_pos doublings
  by_cases hkept : kept = 0
  · have hdoublings : doublings = 0 := by
      rcases hle with h | h
      · exact h
      · exact absurd h (by rw [hkept]; decide)
    rw [hkept, Nat.zero_mul, hdoublings, Nat.log2_zero]
  have hne : kept * Nat.pow 2 doublings ≠ 0 := Nat.mul_ne_zero hkept (Nat.ne_of_gt hpos)
  have hupper : Nat.log2 (kept * Nat.pow 2 doublings) < 53 + doublings := by
    rw [Nat.log2_lt hne, Nat.pow_add]
    exact Nat.mul_lt_mul_of_pos_right hlt hpos
  rcases hle with hdoublings | hle
  · -- the difference is cut off at zero, so an upper bound is enough here
    omega
  · have hlower : 52 + doublings ≤ Nat.log2 (kept * Nat.pow 2 doublings) := by
      rw [Nat.le_log2 hne, Nat.pow_add]
      exact Nat.mul_le_mul_right _ hle
    omega

/-- Every magnitude is the nearest one to itself. -/
theorem roundUnits_units (rank : Nat) : roundUnits (units rank) 1 = rank := by
  obtain ⟨doublings, kept, hrank, hunits, hlt, hle⟩ := exists_doublings rank
  have hpos : 0 < Nat.pow 2 doublings := Nat.two_pow_pos doublings
  have hlog : Nat.log2 (units rank) - 52 = doublings := by rw [hunits, log2_units hlt hle]
  have hkept : units rank / Nat.pow 2 doublings = kept := by
    rw [hunits, Nat.mul_div_cancel _ hpos]
  have hrest : units rank % Nat.pow 2 doublings = 0 := by rw [hunits, Nat.mul_mod_left]
  simp only [roundUnits, Nat.div_one, hlog, Nat.one_mul, hkept, hrest]
  rw [if_neg (by omega), Nat.add_zero, hrank]

end Units

/-- The rank of the magnitude nearest to a decimal, were there no bound on magnitudes. -/
def Decimal.rank (d : Decimal) : Nat :=
  Binary64.nearestRank (d.coefficient * Nat.pow 10 d.exponent.toNat)
    (Nat.pow 10 (-d.exponent).toNat)

section Decimals

open Binary64

/-- The exponent is named apart from its value, which keeps the power from being computed. -/
theorem exists_unitsInOne : ∃ e, e = 1074 ∧ unitsInOne = Nat.pow 2 e :=
  ⟨1074, rfl, by decide +kernel⟩

theorem pow_two_le_pow_ten (k : Nat) : Nat.pow 2 (3 * k) ≤ Nat.pow 10 k := by
  show 2 ^ (3 * k) ≤ 10 ^ k
  rw [Nat.pow_mul]
  exact Nat.pow_le_pow_left (by decide) k

theorem Decimal.rank_of_natCast (n k : Nat) :
    Decimal.rank ⟨n, k⟩ = roundUnits (n * Nat.pow 10 k * unitsInOne) 1 := by
  have hneg : (-(k : Int)).toNat = 0 := by omega
  simp only [rank, hneg, Int.toNat_natCast]
  rfl

theorem Decimal.rank_of_neg (n k : Nat) :
    Decimal.rank ⟨n, -(k : Int)⟩ = roundUnits (n * unitsInOne) (Nat.pow 10 k) := by
  have hneg : (-(k : Int)).toNat = 0 := by omega
  have hpos : (- -(k : Int)).toNat = k := by omega
  simp only [rank, hneg, hpos]
  rw [nearestRank_eq_roundUnits]
  congr 2
  exact Nat.mul_one n

/-- A large decimal is rounded past the finite magnitudes. -/
theorem Decimal.magnitudeCount_le_rank {n k : Nat} (hn : n ≠ 0) (hk : 400 < k) :
    magnitudeCount ≤ Decimal.rank ⟨n, k⟩ := by
  obtain ⟨e, he, hunits⟩ := exists_unitsInOne
  obtain ⟨j, hj⟩ : ∃ j, j = 2047 + 52 := ⟨_, rfl⟩
  have hpositive : Nat.pow 10 k ≤ n * Nat.pow 10 k := Nat.le_mul_of_pos_left _ (by omega)
  have hlarge : 1 * Nat.pow 2 j ≤ n * Nat.pow 10 k * unitsInOne :=
    calc 1 * Nat.pow 2 j
      _ = Nat.pow 2 j := Nat.one_mul _
      _ ≤ Nat.pow 2 (3 * k + e) := Nat.pow_le_pow_right (by decide) (by omega)
      _ = Nat.pow 2 (3 * k) * unitsInOne := by rw [hunits]; exact Nat.pow_add 2 (3 * k) e
      _ ≤ n * Nat.pow 10 k * unitsInOne :=
        Nat.mul_le_mul_right _ (Nat.le_trans (pow_two_le_pow_ten k) hpositive)
  rw [hj] at hlarge
  rw [rank_of_natCast]
  exact mul_binade_le_roundUnits (by decide) hlarge

/-- A small one is rounded to zero. -/
theorem Decimal.rank_eq_zero {n k : Nat} (hk : Nat.log2 n + 401 < k) :
    Decimal.rank ⟨n, -(k : Int)⟩ = 0 := by
  obtain ⟨e, he, hunits⟩ := exists_unitsInOne
  have hn : 2 * n < Nat.pow 2 (Nat.log2 n + 2) := by
    have hlog : n < Nat.pow 2 (Nat.log2 n + 1) := Nat.lt_log2_self
    have hsucc : Nat.pow 2 (Nat.log2 n + 2) = Nat.pow 2 (Nat.log2 n + 1) * 2 := rfl
    omega
  have hsmall : 2 * (n * unitsInOne) < Nat.pow 10 k :=
    calc 2 * (n * unitsInOne)
      _ = 2 * n * unitsInOne := (Nat.mul_assoc 2 n _).symm
      _ < Nat.pow 2 (Nat.log2 n + 2) * unitsInOne :=
        Nat.mul_lt_mul_of_pos_right hn (hunits ▸ Nat.two_pow_pos e)
      _ = Nat.pow 2 (Nat.log2 n + 2 + e) := by rw [hunits]; exact (Nat.pow_add 2 _ e).symm
      _ ≤ Nat.pow 2 (3 * k) := Nat.pow_le_pow_right (by decide) (by omega)
      _ ≤ Nat.pow 10 k := pow_two_le_pow_ten k
  rw [rank_of_neg]
  exact roundUnits_eq_zero hsmall

theorem Decimal.rank_zero (e : Int) : Decimal.rank ⟨0, e⟩ = 0 := by
  rw [rank, nearestRank_eq_roundUnits, Nat.zero_mul, Nat.zero_mul]
  exact roundUnits_eq_zero (Nat.pow_pos (by decide))

theorem ofRank_of_lt {rank : Nat} (negative : Bool) (h : rank < magnitudeCount) :
    ofRank negative rank = .finite negative ⟨rank, h⟩ := dif_pos h

theorem ofRank_of_le {rank : Nat} (negative : Bool) (h : magnitudeCount ≤ rank) :
    ofRank negative rank = .infinite negative := dif_neg (Nat.not_lt.2 h)

/-- The cases that rounding sets apart change nothing. -/
theorem ofDecimal_eq_ofRank (negative : Bool) (d : Decimal) :
    ofDecimal negative d = ofRank negative d.rank := by
  obtain ⟨n, e⟩ := d
  rw [ofDecimal]
  split
  · next hn =>
    dsimp only at hn
    rw [hn, Decimal.rank_zero]
  · next hn =>
    split
    · next he =>
      dsimp only at he
      obtain ⟨k, rfl⟩ := Int.eq_ofNat_of_zero_le (show 0 ≤ e by omega)
      rw [ofRank_of_le negative (Decimal.magnitudeCount_le_rank hn (by omega))]
    · split
      · next he =>
        dsimp only at he
        obtain ⟨k, rfl⟩ := Int.exists_eq_neg_ofNat (show e ≤ 0 by omega)
        rw [Decimal.rank_eq_zero (by omega)]
      · rfl

theorem readsBack_iff {rank : Nat} (h : rank < magnitudeCount) (d : Decimal) :
    readsBack rank d = true ↔ d.rank = rank := by
  rw [readsBack, beq_iff_eq, ofDecimal_eq_ofRank, ofRank_of_lt false h]
  by_cases hd : d.rank < magnitudeCount
  · simp [ofRank_of_lt false hd]
  · have hne : d.rank ≠ rank := fun heq => hd (heq ▸ h)
    simp [ofRank_of_le false (Nat.not_lt.1 hd), hne]

/-- A factor of ten may move from the coefficient to the exponent. -/
theorem Decimal.rank_mul_ten (n : Nat) (e : Int) :
    Decimal.rank ⟨10 * n, e⟩ = Decimal.rank ⟨n, e + 1⟩ := by
  -- the power of ten stands above the fraction line or below it
  by_cases he : 0 ≤ e
  · obtain ⟨k, rfl⟩ := Int.eq_ofNat_of_zero_le he
    have hpow : 10 * n * Nat.pow 10 k = n * Nat.pow 10 (k + 1) := by
      rw [Nat.mul_comm 10, Nat.mul_assoc, Nat.mul_comm 10]
      rfl
    rw [rank_of_natCast, hpow, ← rank_of_natCast]
    rfl
  · obtain ⟨k, hk⟩ := Int.exists_eq_neg_ofNat (show e + 1 ≤ 0 by omega)
    obtain rfl : e = -((k + 1 : Nat) : Int) := by omega
    rw [hk, rank_of_neg, rank_of_neg, Nat.mul_comm 10, Nat.mul_right_comm]
    exact roundUnits_scale (by decide) _ _

theorem Decimal.rank_reduce (n k : Nat) :
    (Decimal.reduce n k).rank = Decimal.rank ⟨n, -(k : Int)⟩ := by
  induction k generalizing n with
  | zero => rfl
  | succ k ih =>
    rw [reduce]
    split
    · next h =>
      have hten : n = 10 * (n / 10) := by omega
      have hexponent : -((k + 1 : Nat) : Int) + 1 = -(k : Int) := by omega
      rw [ih, ← hexponent, ← rank_mul_ten, ← hten]
    · rfl

theorem pow_five_mul_pow_two (k : Nat) : Nat.pow 5 k * Nat.pow 2 k = Nat.pow 10 k :=
  (Nat.mul_pow 5 2 k).symm

/-- A whole number of units is a decimal, since a power of two divides a power of ten. -/
theorem Decimal.rank_of_units {e : Nat} (he : unitsInOne = Nat.pow 2 e) (m : Nat) :
    Decimal.rank ⟨m * Nat.pow 5 e, -(e : Int)⟩ = roundUnits m 1 := by
  have hvalue : m * Nat.pow 5 e * unitsInOne * 1 = m * Nat.pow 10 e := by
    rw [Nat.mul_one, Nat.mul_assoc, he, pow_five_mul_pow_two]
  rw [rank_of_neg]
  exact roundUnits_congr (Nat.pow_pos (by decide)) (by decide) hvalue

theorem Decimal.rank_exactDecimal (rank : Nat) : (exactDecimal rank).rank = rank := by
  obtain ⟨e, he, hunits⟩ := exists_unitsInOne
  have hexponent : (-1074 : Int) = -(e : Int) := by omega
  rw [exactDecimal, hexponent, ← he, rank_of_units hunits, roundUnits_units]

theorem readsBack_of_onGrid? {rank : Nat} {e : Int} {d : Decimal} (h : onGrid? rank e = some d) :
    readsBack rank d = true := by
  simp only [onGrid?] at h
  split at h
  · next hbelow =>
    cases h
    exact (Bool.and_eq_true_iff.1 hbelow).1
  · split at h
    · next habove =>
      cases h
      exact habove
    · cases h

/-- Whatever decimal is written for a magnitude, it is rounded to that magnitude. -/
theorem rank_shortest {rank : Nat} (h : rank < magnitudeCount) : (shortest rank).rank = rank := by
  simp only [shortest]
  cases hgrid : (List.range 17).findSome? fun k =>
      onGrid? rank (decimalPosition rank - (k + 1 : Nat)) with
  | none => exact Decimal.rank_exactDecimal rank
  | some d =>
    obtain ⟨k, -, hd⟩ := List.exists_of_findSome?_eq_some hgrid
    exact (readsBack_iff h d).1 (readsBack_of_onGrid? hd)

end Decimals

end CommandConsole
