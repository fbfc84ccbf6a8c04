import CommandConsole.Proofs.NumberText
set_option autoImplicit false

/-!
The characters of texts that are read as numbers. Such a text is not empty and holds letters,
digits, points and signs only, so neither commas nor parentheses; the text of an integer is the text
of a number too.
-/

namespace CommandConsole

section Characters

variable {c : Char}

/-- The characters that numbers are read from. -/
def isNumberChar (c : Char) : Bool := isNumeral c || c == '+'

/-- The characters of decimals, which are no words. -/
def isDecimalChar (c : Char) : Bool :=
  c.isDigit || c == '.' || c == '+' || c == '-' || c == 'e' || c == 'E'

theorem isDecimalChar_of_isDigit (h : c.isDigit = true) : isDecimalChar c = true := by
  simp [isDecimalChar, h]

theorem isDecimalChar_cases (h : isDecimalChar c = true) :
    c.isDigit = true ∨ c = '.' ∨ c = '+' ∨ c = '-' ∨ c = 'e' ∨ c = 'E' := by
  simpa [isDecimalChar, or_assoc] using h

theorem isNumberChar_of_isDecimalChar (h : isDecimalChar c = true) : isNumberChar c = true := by
  rcases isDecimalChar_cases h with h | rfl | rfl | rfl | rfl | rfl
  · simp [isNumberChar, isNumeral_of_isDigit h]
  all_goals decide

theorem isDecimalChar_toLower (h : isDecimalChar c = true) : isDecimalChar c.toLower = true := by
  rcases isDecimalChar_cases h with h | rfl | rfl | rfl | rfl | rfl
  · rw [toLower_of_isDigit h]
    exact isDecimalChar_of_isDigit h
  all_goals decide

/-- Only letters have letters for their lower case. -/
theorem isAlpha_of_toLower (h : c.toLower.isAlpha = true) : c.isAlpha = true := by
  cases hupper : c.isUpper with
  | true => exact Bool.or_eq_true_iff.2 (.inl hupper)
  | false => rwa [toLower_of_not_isUpper hupper] at h

end Characters

section Integers

theorem isDigit_of_digitValue? {c : Char} {d : Nat} (h : digitValue? 10 c = some d) :
    c.isDigit = true := by
  have hle : ∀ b : Char, b ≤ c → b.toNat ≤ c.toNat := fun b hb => UInt32.le_iff_toNat_le.1 hb
  unfold digitValue? at h
  by_cases hdigit : '0' ≤ c ∧ c ≤ '9'
  · simp only [Char.isDigit, Bool.and_eq_true, decide_eq_true_eq]
    exact hdigit
  · by_cases hlower : 'a' ≤ c ∧ c ≤ 'f'
    · have hbound : 97 ≤ c.toNat := hle 'a' hlower.1
      have hbig : ¬c.toNat - 87 < 10 := by omega
      simp [hdigit, hlower, hbig] at h
    · by_cases hupper : 'A' ≤ c ∧ c ≤ 'F'
      · have hbound : 65 ≤ c.toNat := hle 'A' hupper.1
        have hbig : ¬c.toNat - 55 < 10 := by omega
        simp [hdigit, hlower, hupper, hbig] at h
      · simp [hdigit, hlower, hupper] at h

theorem isDigit_of_readDigits? {t : List Char} {v n : Nat} (h : readDigits? 10 v t = some n) :
    ∀ c ∈ t, c.isDigit = true := by
  induction t generalizing v with
  | nil => simp
  | cons c t ih =>
    obtain ⟨d, hd, hrest⟩ := Option.bind_eq_some_iff.1 h
    exact List.forall_mem_cons.2 ⟨isDigit_of_digitValue? hd, ih hrest⟩

theorem isDigit_of_readNat? {t : List Char} {n : Nat} (h : readNat? 10 t = some n) :
    t ≠ [] ∧ ∀ c ∈ t, c.isDigit = true := by
  cases t with
  | nil => cases h
  | cons c t => exact ⟨by simp, isDigit_of_readDigits? h⟩

/-- An integer is a sign or none, and then digits. -/
theorem exists_digits_of_readInt? {t : List Char} {i : Int} (h : readInt? t = some i) :
    ∃ r n, readNat? 10 r = some n ∧ (t = '-' :: r ∨ t = '+' :: r ∨ t = r) := by
  unfold readInt? at h
  split at h
  · next r =>
    cases hn : readNat? 10 r with
    | none => simp [hn] at h
    | some n => exact ⟨r, n, hn, .inl rfl⟩
  · next r =>
    cases hn : readNat? 10 r with
    | none => simp [hn] at h
    | some n => exact ⟨r, n, hn, .inr (.inl rfl)⟩
  · cases hn : readNat? 10 t with
    | none => simp [hn] at h
    | some n => exact ⟨t, n, hn, .inr (.inr rfl)⟩

theorem isDecimalChar_of_readInt? {t : List Char} {i : Int} (h : readInt? t = some i) :
    ∀ c ∈ t, isDecimalChar c = true := by
  obtain ⟨r, n, hn, hsign⟩ := exists_digits_of_readInt? h
  have hr : ∀ c ∈ r, isDecimalChar c = true :=
    fun c hc => isDecimalChar_of_isDigit ((isDigit_of_readNat? hn).2 c hc)
  rcases hsign with rfl | rfl | rfl
  · exact List.forall_mem_cons.2 ⟨by decide, hr⟩
  · exact List.forall_mem_cons.2 ⟨by decide, hr⟩
  · exact hr

end Integers

section Numbers

open Binary64

theorem Decimal.isDecimalChar_of_readExponent? {t : List Char} {e : Int}
    (h : Decimal.readExponent? t = some e) : ∀ c ∈ t, isDecimalChar c = true := by
  cases t with
  | nil => simp
  | cons c r =>
    rw [readExponent?] at h
    split at h
    · next hc =>
      refine List.forall_mem_cons.2 ⟨?_, isDecimalChar_of_readInt? h⟩
      rcases hc with rfl | rfl <;> decide
    · cases h

/-- The parts of a decimal: digits, a point and further digits or none, and an exponent. -/
theorem Decimal.exists_parts_of_read? {t : List Char} {d : Decimal} (h : Decimal.read? t = some d) :
    ∃ whole point fraction exponent, t = whole ++ (point ++ (fraction ++ exponent)) ∧
      (whole ++ fraction ≠ [] ∧ ∀ c ∈ whole ++ fraction, c.isDigit = true) ∧
      (∀ c ∈ point, c = '.') ∧ ∃ e, Decimal.readExponent? exponent = some e := by
  have hcut : ∀ r : List Char, r.takeWhile Char.isDigit ++ r.dropWhile Char.isDigit = r :=
    fun r => List.takeWhile_append_dropWhile
  unfold read? at h
  obtain ⟨n, hn, h⟩ := Option.bind_eq_some_iff.1 h
  obtain ⟨e, he, -⟩ := Option.map_eq_some_iff.1 h
  split at hn
  · next r hrest =>
    rw [hrest] at he
    refine ⟨t.takeWhile Char.isDigit, ['.'], r.takeWhile Char.isDigit, r.dropWhile Char.isDigit,
      ?_, isDigit_of_readNat? hn, by simp, e, he⟩
    rw [hcut r, List.singleton_append, ← hrest, hcut]
  · next hpoint =>
    refine ⟨t.takeWhile Char.isDigit, [], [], t.dropWhile Char.isDigit, ?_,
      isDigit_of_readNat? hn, by simp, e, ?_⟩
    · rw [List.nil_append, List.nil_append, hcut]
    · split at he
      · next r hrest => exact absurd hrest (hpoint r)
      · exact he

theorem Decimal.isDecimalChar_of_read? {t : List Char} {d : Decimal}
    (h : Decimal.read? t = some d) : t ≠ [] ∧ ∀ c ∈ t, isDecimalChar c = true := by
  obtain ⟨whole, point, fraction, exponent, rfl, ⟨hne, hdigits⟩, hpoint, e, he⟩ :=
    exists_parts_of_read? h
  constructor
  · intro hnil
    simp only [List.append_eq_nil_iff] at hnil
    exact hne (by simp [hnil])
  · simp only [List.forall_mem_append] at hdigits ⊢
    refine ⟨fun c hc => isDecimalChar_of_isDigit (hdigits.1 c hc), fun c hc => ?_,
      fun c hc => isDecimalChar_of_isDigit (hdigits.2 c hc), isDecimalChar_of_readExponent? he⟩
    rw [hpoint c hc]
    decide

/-- The words for numbers that have no digits, in lower case. -/
def numberWords : List (List Char) :=
  [['i', 'n', 'f'], ['i', 'n', 'f', 'i', 'n', 'i', 't', 'y'], ['n', 'a', 'n']]

theorem readMagnitude?_cases {negative : Bool} {t : List Char} {x : Binary64}
    (h : readMagnitude? negative t = some x) :
    t.map Char.toLower ∈ numberWords ∨ ∃ d, Decimal.read? t = some d := by
  simp only [readMagnitude?] at h
  split at h
  · next hword =>
    rcases hword with hword | hword
    · exact .inl (by simp [numberWords, hword])
    · exact .inl (by simp [numberWords, hword])
  · split at h
    · next hword => exact .inl (by simp [numberWords, hword])
    · obtain ⟨d, hd, -⟩ := Option.map_eq_some_iff.1 h
      exact .inr ⟨d, hd⟩

theorem Binary64.read?_cases {t : List Char} {x : Binary64} (h : Binary64.read? t = some x) :
    (∃ negative sign r, t = sign :: r ∧ (sign = '-' ∨ sign = '+') ∧
      readMagnitude? negative r = some x) ∨ readMagnitude? false t = some x := by
  unfold Binary64.read? at h
  split at h
  · exact .inl ⟨true, '-', _, rfl, .inl rfl, h⟩
  · exact .inl ⟨false, '+', _, rfl, .inr rfl, h⟩
  · exact .inr h

theorem isNumberChar_of_word {t : List Char} (h : t.map Char.toLower ∈ numberWords) :
    t ≠ [] ∧ ∀ c ∈ t, isNumberChar c = true := by
  have hne : ∀ w ∈ numberWords, (!w.isEmpty) = true := List.all_eq_true.1 rfl
  have hletters : ∀ w ∈ numberWords, w.all Char.isAlpha = true := List.all_eq_true.1 rfl
  refine ⟨by simpa using hne _ h, fun c hc => ?_⟩
  have halpha : c.isAlpha = true :=
    isAlpha_of_toLower (List.all_eq_true.1 (hletters _ h) _ (List.mem_map_of_mem hc))
  simp [isNumberChar, isNumeral, Char.isAlphanum, halpha]

theorem isNumberChar_of_readMagnitude? {negative : Bool} {t : List Char} {x : Binary64}
    (h : readMagnitude? negative t = some x) : t ≠ [] ∧ ∀ c ∈ t, isNumberChar c = true := by
  rcases readMagnitude?_cases h with hword | ⟨d, hd⟩
  · exact isNumberChar_of_word hword
  · obtain ⟨hne, hchars⟩ := Decimal.isDecimalChar_of_read? hd
    exact ⟨hne, fun c hc => isNumberChar_of_isDecimalChar (hchars c hc)⟩

theorem Binary64.isNumberChar_of_read? {t : List Char} {x : Binary64}
    (h : Binary64.read? t = some x) : t ≠ [] ∧ ∀ c ∈ t, isNumberChar c = true := by
  rcases Binary64.read?_cases h with ⟨negative, sign, r, rfl, hsign, hr⟩ | ht
  · refine ⟨by simp, List.forall_mem_cons.2 ⟨?_, (isNumberChar_of_readMagnitude? hr).2⟩⟩
    rcases hsign with rfl | rfl <;> decide
  · exact isNumberChar_of_readMagnitude? ht

/-- Digits are read as a number of either sign. -/
theorem readMagnitude?_of_readNat? {t : List Char} {n : Nat} (h : readNat? 10 t = some n)
    (negative : Bool) : ∃ x, readMagnitude? negative t = some x := by
  obtain ⟨hne, hdigits⟩ := isDigit_of_readNat? h
  obtain ⟨c, r, rfl⟩ := List.exists_cons_of_ne_nil hne
  rw [readMagnitude?_of_digit (hdigits c List.mem_cons_self), Decimal.read?_of_digits hdigits, h]
  exact ⟨_, rfl⟩

theorem Binary64.exists_read?_of_readInt? {t : List Char} {i : Int} (h : readInt? t = some i) :
    ∃ x, Binary64.read? t = some x := by
  obtain ⟨r, n, hn, rfl | rfl | rfl⟩ := exists_digits_of_readInt? h
  · exact readMagnitude?_of_readNat? hn true
  · exact readMagnitude?_of_readNat? hn false
  · obtain ⟨hne, hdigits⟩ := isDigit_of_readNat? hn
    obtain ⟨c, r, rfl⟩ := List.exists_cons_of_ne_nil hne
    rw [read?_of_digit (hdigits c List.mem_cons_self)]
    exact readMagnitude?_of_readNat? hn false

end Numbers

end CommandConsole
