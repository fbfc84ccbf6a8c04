import CommandConsole.Proofs.Lines
import CommandConsole.Proofs.Numerals
import CommandConsole.Proofs.Rounding
set_option autoImplicit false

/-!
The text of a double precision number. A decimal is read from its text with its value, so every
number, zeros with their signs, the infinities and not a number included, is read from its text.
-/

namespace CommandConsole

section Decimals

/-- Text without a point is a whole number. -/
theorem Decimal.read?_of_digits {t : List Char} (h : ∀ c ∈ t, c.isDigit = true) :
    Decimal.read? t = (readNat? 10 t).map fun n => ⟨n, 0⟩ := by
  have htake : t.takeWhile Char.isDigit = t := List.takeWhile_eq_self_iff.2 h
  have hdrop : t.dropWhile Char.isDigit = [] := List.dropWhile_eq_nil_iff.2 h
  simp only [read?, htake, hdrop, List.append_nil, readExponent?]
  cases readNat? 10 t <;> rfl

/-- The digits behind a point are counted by the exponent. -/
theorem Decimal.read?_of_point {x y : List Char} (hx : ∀ c ∈ x, c.isDigit = true)
    (hy : ∀ c ∈ y, c.isDigit = true) :
    Decimal.read? (x ++ '.' :: y) =
      (readNat? 10 (x ++ y)).map fun n => ⟨n, -(y.length : Int)⟩ := by
  have hpoint : ∀ c, ('.' :: y).head? = some c → c.isDigit = false := by
    intro c hc
    cases hc
    decide
  obtain ⟨hwhole, hrest⟩ := cut_of_boundary hx hpoint
  have htake : y.takeWhile Char.isDigit = y := List.takeWhile_eq_self_iff.2 hy
  have hdrop : y.dropWhile Char.isDigit = [] := List.dropWhile_eq_nil_iff.2 hy
  simp only [read?, hwhole, hrest, htake, hdrop, readExponent?]
  cases readNat? 10 (x ++ y) <;> simp

/-- The digits of a decimal with zeros in front, so that one of them stands before the point. -/
def paddedDigits (n places : Nat) : List Char :=
  List.replicate (places + 1 - (writeNat 10 n).length) '0' ++ writeNat 10 n

theorem isDigit_of_mem_paddedDigits {n places : Nat} {c : Char} (h : c ∈ paddedDigits n places) :
    c.isDigit = true := by
  rw [paddedDigits, List.mem_append] at h
  rcases h with h | h
  · rw [List.eq_of_mem_replicate h]
    decide
  · exact isDigit_of_mem_writeNat h

theorem lt_length_paddedDigits (n places : Nat) : places < (paddedDigits n places).length := by
  rw [paddedDigits, List.length_append, List.length_replicate]
  omega

theorem readNat?_paddedDigits (n places : Nat) : readNat? 10 (paddedDigits n places) = some n :=
  readNat?_zeros_writeNat (by decide) (by decide) _ n

theorem Decimal.isDigit_of_mem_write {n k : Nat} {c : Char}
    (h : c ∈ Decimal.write ⟨n, Int.ofNat k⟩) : c.isDigit = true := by
  rcases List.mem_append.1 h with h | h
  · exact isDigit_of_mem_writeNat h
  · rw [List.eq_of_mem_replicate h]
    decide

/-- The digits before and behind the point. -/
theorem Decimal.write_negSucc (n k : Nat) : ∃ x y,
    Decimal.write ⟨n, Int.negSucc k⟩ = x ++ '.' :: y ∧ x ++ y = paddedDigits n (k + 1) ∧
    x ≠ [] ∧ y.length = k + 1 ∧ (∀ c ∈ x, c.isDigit = true) ∧ ∀ c ∈ y, c.isDigit = true := by
  have hlt := lt_length_paddedDigits n (k + 1)
  refine ⟨(paddedDigits n (k + 1)).take ((paddedDigits n (k + 1)).length - (k + 1)),
    (paddedDigits n (k + 1)).drop ((paddedDigits n (k + 1)).length - (k + 1)), rfl,
    List.take_append_drop _ _, ?_, ?_, fun c hc => ?_, fun c hc => ?_⟩
  · rw [ne_eq, List.take_eq_nil_iff, not_or]
    exact ⟨by omega, List.ne_nil_of_length_pos (by omega)⟩
  · rw [List.length_drop]
    omega
  · exact isDigit_of_mem_paddedDigits (List.mem_of_mem_take hc)
  · exact isDigit_of_mem_paddedDigits (List.mem_of_mem_drop hc)

/-- A decimal is read from its text with its value. -/
theorem Decimal.exists_read?_write (d : Decimal) :
    ∃ d', Decimal.read? d.write = some d' ∧ d'.rank = d.rank := by
  obtain ⟨n, k | k⟩ := d
  · have hne : Decimal.write ⟨n, Int.ofNat k⟩ ≠ [] :=
      List.append_ne_nil_of_left_ne_nil (writeNat_ne_nil 10 n) _
    have hdigits : readDigits? 10 0 (Decimal.write ⟨n, Int.ofNat k⟩) = some (n * Nat.pow 10 k) := by
      rw [write, readDigits?_append, readDigits?_writeNat (by decide) (by decide), Option.bind_some,
        readDigits?_zeros (by decide)]
    have hrank : Decimal.rank ⟨n * Nat.pow 10 k, (0 : Nat)⟩ = Decimal.rank ⟨n, (k : Nat)⟩ := by
      rw [rank_of_natCast, rank_of_natCast]
      congr 2
      exact Nat.mul_one _
    refine ⟨⟨n * Nat.pow 10 k, 0⟩, ?_, hrank⟩
    rw [read?_of_digits fun c hc => isDigit_of_mem_write hc, readNat?_of_ne_nil 10 hne, hdigits]
    rfl
  · obtain ⟨x, y, hwrite, hxy, -, hlength, hx, hy⟩ := write_negSucc n k
    refine ⟨⟨n, Int.negSucc k⟩, ?_, rfl⟩
    rw [hwrite, read?_of_point hx hy, hxy, readNat?_paddedDigits, hlength]
    rfl

theorem Decimal.write_eq_cons (d : Decimal) : ∃ c r, d.write = c :: r ∧ c.isDigit = true ∧
    ∀ b ∈ r, b.isDigit = true ∨ b = '.' := by
  obtain ⟨n, k | k⟩ := d
  · have hne : Decimal.write ⟨n, Int.ofNat k⟩ ≠ [] :=
      List.append_ne_nil_of_left_ne_nil (writeNat_ne_nil 10 n) _
    obtain ⟨c, r, hwrite⟩ := List.exists_cons_of_ne_nil hne
    have hdigits : ∀ b ∈ c :: r, b.isDigit = true := by
      rw [← hwrite]
      exact fun b hb => isDigit_of_mem_write hb
    exact ⟨c, r, hwrite, hdigits c List.mem_cons_self,
      fun b hb => Or.inl (hdigits b (List.mem_cons_of_mem c hb))⟩
  · obtain ⟨x, y, hwrite, -, hne, -, hx, hy⟩ := write_negSucc n k
    obtain ⟨c, r, rfl⟩ := List.exists_cons_of_ne_nil hne
    obtain ⟨hc, hr⟩ := List.forall_mem_cons.1 hx
    refine ⟨c, r ++ '.' :: y, hwrite, hc, fun b hb => ?_⟩
    rcases List.mem_append.1 hb with hb | hb
    · exact Or.inl (hr b hb)
    · rcases List.mem_cons.1 hb with hb | hb
      · exact Or.inr hb
      · exact Or.inl (hy b hb)

end Decimals

section Numbers

open Binary64

theorem Decimal.rank_reduceFraction (d : Decimal) :
    (if d.exponent < 0 then Decimal.reduce d.coefficient (-d.exponent).toNat else d).rank =
      d.rank := by
  split
  · have hexponent : -((-d.exponent).toNat : Int) = d.exponent := by omega
    rw [rank_reduce, hexponent]
  · rfl

/-- The text of a magnitude is the text of a decimal that is rounded to it. -/
theorem exists_writeMagnitude {rank : Nat} (h : rank < magnitudeCount) :
    ∃ d : Decimal, writeMagnitude rank = d.write ∧ d.rank = rank := by
  by_cases hzero : rank = 0
  · have hwrite : writeMagnitude rank = ['0'] := if_pos hzero
    exact ⟨⟨0, 0⟩, hwrite, (Decimal.rank_zero 0).trans hzero.symm⟩
  · exact ⟨_, if_neg hzero, (Decimal.rank_reduceFraction _).trans (rank_shortest h)⟩

/-- Text that begins with a digit is no word. -/
theorem readMagnitude?_of_digit {c : Char} (hc : c.isDigit = true) (negative : Bool)
    (r : List Char) : readMagnitude? negative (c :: r) =
      (Decimal.read? (c :: r)).map (ofDecimal negative) := by
  have hword : ∀ a w, a.isDigit = false → (c :: r).map Char.toLower ≠ a :: w := by
    intro a w ha hword
    rw [List.map_cons, toLower_of_isDigit hc, List.cons.injEq] at hword
    rw [hword.1, ha] at hc
    cases hc
  simp only [readMagnitude?]
  rw [if_neg (not_or.2 ⟨hword _ _ (by decide), hword _ _ (by decide)⟩),
    if_neg (hword _ _ (by decide))]

theorem read?_of_digit {c : Char} (hc : c.isDigit = true) (r : List Char) :
    Binary64.read? (c :: r) = readMagnitude? false (c :: r) := by
  unfold Binary64.read?
  split
  · exact absurd hc (by simp_all)
  · exact absurd hc (by simp_all)
  · rfl

theorem readMagnitude?_writeMagnitude (negative : Bool) (rank : Fin magnitudeCount) :
    readMagnitude? negative (writeMagnitude rank) = some (.finite negative rank) := by
  obtain ⟨d, hwrite, hrank⟩ := exists_writeMagnitude rank.isLt
  obtain ⟨c, r, hcons, hc, -⟩ := d.write_eq_cons
  obtain ⟨d', hread, hrank'⟩ := d.exists_read?_write
  rw [hwrite, hcons, readMagnitude?_of_digit hc, ← hcons, hread, Option.map_some,
    ofDecimal_eq_ofRank, hrank', hrank, ofRank_of_lt negative rank.isLt]

/-- Every number is read from its text. -/
theorem Binary64.read?_write (x : Binary64) : Binary64.read? x.write = some x := by
  cases x with
  | nan => decide +kernel
  | infinite negative => cases negative <;> decide +kernel
  | finite negative rank =>
    cases negative with
    | true => exact readMagnitude?_writeMagnitude true rank
    | false =>
      obtain ⟨d, hwrite, -⟩ := exists_writeMagnitude rank.isLt
      obtain ⟨c, r, hcons, hc, -⟩ := d.write_eq_cons
      have hread := readMagnitude?_writeMagnitude false rank
      rw [hwrite, hcons] at hread
      show Binary64.read? (writeMagnitude rank) = _
      rw [hwrite, hcons, read?_of_digit hc, hread]

theorem isNumeral_of_mem_writeMagnitude {rank : Nat} (h : rank < magnitudeCount) {c : Char}
    (hc : c ∈ writeMagnitude rank) : isNumeral c = true := by
  obtain ⟨d, hwrite, -⟩ := exists_writeMagnitude h
  obtain ⟨b, r, hcons, hb, hr⟩ := d.write_eq_cons
  rw [hwrite, hcons, List.mem_cons] at hc
  rcases hc with rfl | hc
  · exact isNumeral_of_isDigit hb
  · rcases hr c hc with hdigit | rfl
    · exact isNumeral_of_isDigit hdigit
    · decide

theorem isNumeral_of_mem_sign {negative : Bool} {c : Char}
    (h : c ∈ if negative then ['-'] else []) : isNumeral c = true := by
  cases negative with
  | true =>
    rw [List.mem_singleton.1 h]
    decide
  | false => cases h

theorem Binary64.isNumeral_of_mem_write {x : Binary64} {c : Char} (h : c ∈ x.write) :
    isNumeral c = true := by
  cases x with
  | nan =>
    have hword : ∀ c ∈ ['N', 'a', 'N'], isNumeral c = true := List.all_eq_true.1 rfl
    exact hword c h
  | infinite negative =>
    have hword : ∀ c ∈ ['i', 'n', 'f'], isNumeral c = true := List.all_eq_true.1 rfl
    exact (List.mem_append.1 h).elim isNumeral_of_mem_sign (hword c)
  | finite negative rank =>
    exact (List.mem_append.1 h).elim isNumeral_of_mem_sign
      (isNumeral_of_mem_writeMagnitude rank.isLt)

end Numbers

end CommandConsole
