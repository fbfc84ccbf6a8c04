import CommandConsole.Session.Color
import CommandConsole.Proofs.Numerals
import Mathlib.Tactic.Ring
set_option autoImplicit false

/-!
The texts that are read as colours. The documented ones are five names and a number sign with six
hexadecimal digits; they are read as documented, but a number sign with any digits of a 32-bit word
is read as well, also with a plus sign before them.
-/

namespace CommandConsole

section characters

variable {c : Char}

theorem forall_ascii {p : Char → Prop} (h : ∀ n, n < 128 → p (Char.ofNat n))
    (hc : c.toNat < 128) : p c := by
  have hp := h c.toNat hc
  rwa [Char.ofNat_toNat] at hp

theorem forall_isUpper {p : Char → Prop} (h : ∀ n, n < 128 → p (Char.ofNat n))
    (hc : c.isUpper = true) : p c :=
  forall_ascii h (Nat.lt_of_le_of_lt (toNat_of_isUpper hc).2 (by decide))

theorem toLower_toLower (c : Char) : c.toLower.toLower = c.toLower := by
  cases hupper : c.isUpper with
  | true => exact forall_isUpper (p := fun c => c.toLower.toLower = c.toLower) (by decide) hupper
  | false => rw [toLower_of_not_isUpper hupper, toLower_of_not_isUpper hupper]

/-- Letters have letters for their lower case, and nothing else has another one. -/
theorem toLower_eq_iff {d : Char} (h : d.isAlpha = false) : c.toLower = d ↔ c = d := by
  constructor
  · rintro rfl
    cases hupper : c.isUpper with
    | true =>
      have halpha : c.toLower.isAlpha = true :=
        forall_isUpper (p := fun c => c.isUpper = true → c.toLower.isAlpha = true) (by decide)
          hupper hupper
      rw [halpha] at h
      cases h
    | false => exact (toLower_of_not_isUpper hupper).symm
  · rintro rfl
    exact toLower_of_not_isUpper (Bool.or_eq_false_iff.1 h).1

/-- The hexadecimal digits in the order of their values. -/
def hexDigits : List Char :=
  ['0', '1', '2', '3', '4', '5', '6', '7', '8', '9', 'a', 'b', 'c', 'd', 'e', 'f']

/-- Letters count in either case. -/
def isHexDigit (c : Char) : Bool := hexDigits.contains c.toLower

theorem isHexDigit_iff : isHexDigit c = true ↔ c.toLower ∈ hexDigits := List.contains_iff_mem

/-- Among the first characters this is checked one by one; there are no digits beyond. -/
theorem digitValue?_hex (c : Char) :
    digitValue? 16 c = if isHexDigit c then some (hexDigits.idxOf c.toLower) else none := by
  by_cases hc : c.toNat < 128
  · exact forall_ascii (p := fun c => digitValue? 16 c =
      if isHexDigit c then some (hexDigits.idxOf c.toLower) else none) (by decide +kernel) hc
  · have hbeyond : ∀ d : Char, d.toNat < 128 → ¬c ≤ d := by
      intro d hd hle
      have hle' : c.toNat ≤ d.toNat := UInt32.le_iff_toNat_le.1 hle
      omega
    have hlower : c.toLower = c := by
      refine toLower_of_not_isUpper (Bool.eq_false_iff.2 fun hupper => ?_)
      have hrange := toNat_of_isUpper hupper
      omega
    have hnot : isHexDigit c = false := by
      rw [Bool.eq_false_iff, ne_eq, isHexDigit_iff, hlower]
      intro hmem
      have hsmall : ∀ d ∈ hexDigits, d.toNat < 128 := by simp [hexDigits]
      exact hc (hsmall c hmem)
    simp [hnot, digitValue?, hbeyond '9' (by decide), hbeyond 'f' (by decide),
      hbeyond 'F' (by decide)]

theorem isHexDigit_toLower : isHexDigit c.toLower = isHexDigit c := by
  rw [isHexDigit, isHexDigit, toLower_toLower]

end characters

section numbers

/-- The value of hexadecimal digits behind digits with the value `v`. -/
def hexValueFrom (v : Nat) (t : List Char) : Nat :=
  t.foldl (fun v c => v * 16 + hexDigits.idxOf c.toLower) v

def hexValue (t : List Char) : Nat := hexValueFrom 0 t

theorem hexValueFrom_cons (v : Nat) (c : Char) (t : List Char) :
    hexValueFrom v (c :: t) = hexValueFrom (v * 16 + hexDigits.idxOf c.toLower) t := rfl

theorem readDigits?_hex (v : Nat) (t : List Char) :
    readDigits? 16 v t = if t.all isHexDigit then some (hexValueFrom v t) else none := by
  induction t generalizing v with
  | nil => rfl
  | cons c t ih =>
    rw [readDigits?, digitValue?_hex, List.all_cons]
    cases hc : isHexDigit c with
    | true => rw [if_pos rfl, Option.bind_some, ih, Bool.true_and, hexValueFrom_cons]
    | false => rfl

theorem readNat?_hex_iff {t : List Char} {n : Nat} :
    readNat? 16 t = some n ↔ t ≠ [] ∧ t.all isHexDigit = true ∧ hexValue t = n := by
  cases t with
  | nil => simp [readNat?]
  | cons c t =>
    rw [readNat?_of_ne_nil 16 (List.cons_ne_nil c t), readDigits?_hex]
    cases (c :: t).all isHexDigit <;> simp [hexValue]

theorem all_isHexDigit_map_toLower (t : List Char) :
    (t.map Char.toLower).all isHexDigit = t.all isHexDigit := by
  rw [List.all_map]
  congr 1
  funext c
  exact isHexDigit_toLower

theorem hexValue_map_toLower (t : List Char) : hexValue (t.map Char.toLower) = hexValue t := by
  rw [hexValue, hexValue, hexValueFrom, hexValueFrom, List.foldl_map]
  simp only [toLower_toLower]

theorem hexValueFrom_lt {t : List Char} (h : t.all isHexDigit = true) (v : Nat) :
    hexValueFrom v t < (v + 1) * 16 ^ t.length := by
  induction t generalizing v with
  | nil => simp [hexValueFrom]
  | cons c t ih =>
    simp only [List.all_cons, Bool.and_eq_true] at h
    have hdigit : hexDigits.idxOf c.toLower < 16 :=
      List.idxOf_lt_length_of_mem (isHexDigit_iff.1 h.1)
    calc hexValueFrom v (c :: t)
        = hexValueFrom (v * 16 + hexDigits.idxOf c.toLower) t := hexValueFrom_cons v c t
      _ < (v * 16 + hexDigits.idxOf c.toLower + 1) * 16 ^ t.length := ih h.2 _
      _ ≤ ((v + 1) * 16) * 16 ^ t.length := Nat.mul_le_mul_right _ (by omega)
      _ = (v + 1) * 16 ^ (c :: t).length := by rw [List.length_cons, pow_succ']; ring

end numbers

section colors

/-- One hexadecimal digit or more, and the word that they stand for. -/
structure IsWordText (t : List Char) (rgb : UInt32) : Prop where
  ne_nil : t ≠ []
  digits : t.all isHexDigit = true
  value : hexValue t = rgb.toNat

theorem isWordText_iff {t : List Char} {rgb : UInt32} :
    IsWordText t rgb ↔ readNat? 16 t = some rgb.toNat := by
  rw [readNat?_hex_iff]
  exact ⟨fun h => ⟨h.ne_nil, h.digits, h.value⟩, fun h => ⟨h.1, h.2.1, h.2.2⟩⟩

theorem isWordText_map_toLower {t : List Char} {rgb : UInt32} :
    IsWordText (t.map Char.toLower) rgb ↔ IsWordText t rgb := by
  rw [isWordText_iff, isWordText_iff, readNat?_hex_iff, readNat?_hex_iff,
    all_isHexDigit_map_toLower, hexValue_map_toLower, ne_eq, List.map_eq_nil_iff]

theorem IsWordText.not_mem {t : List Char} {rgb : UInt32} (h : IsWordText t rgb) {c : Char}
    (hc : isHexDigit c = false) : c ∉ t := by
  intro hmem
  rw [List.all_eq_true.1 h.digits c hmem] at hc
  cases hc

/-- A word of at most six digits has no more than 24 bits. -/
theorem IsWordText.le_of_length {t : List Char} {rgb : UInt32} (h : IsWordText t rgb)
    (hlength : t.length = 6) : rgb.toNat ≤ 0xffffff := by
  have hlt := hexValueFrom_lt h.digits 0
  rw [hlength, ← hexValue, h.value] at hlt
  omega

/-- The digits of the words are those of the numbers that fit into 32 bits. -/
theorem bind_readNat?_eq_some_iff {digits : List Char} {rgb : UInt32} :
    ((readNat? 16 digits).bind fun n =>
      if n < UInt32.size then some (UInt32.ofNat n) else none) = some rgb ↔
        IsWordText digits rgb := by
  rw [isWordText_iff, Option.bind_eq_some_iff]
  constructor
  · rintro ⟨n, hn, hrgb⟩
    split at hrgb
    · next hlt =>
      rw [hn, ← Option.some.inj hrgb, UInt32.toNat_ofNat_of_lt' hlt]
    · cases hrgb
  · intro hn
    refine ⟨rgb.toNat, hn, ?_⟩
    rw [if_pos rgb.toNat_lt_size, UInt32.ofNat_toNat]

theorem readWord?_eq_some_iff {t : List Char} {rgb : UInt32} :
    readWord? t = some rgb ↔ ∃ digits, (t = digits ∨ t = '+' :: digits) ∧ IsWordText digits rgb := by
  cases t with
  | nil => simp [readWord?, readNat?, isWordText_iff]
  | cons c r =>
    by_cases hc : c = '+'
    · subst hc
      have hplus : ¬IsWordText ('+' :: r) rgb :=
        fun h => h.not_mem (c := '+') (by decide) List.mem_cons_self
      rw [readWord?, bind_readNat?_eq_some_iff]
      simp [hplus]
    · have hread : readWord? (c :: r) = (readNat? 16 (c :: r)).bind fun n =>
          if n < UInt32.size then some (UInt32.ofNat n) else none := by
        unfold readWord?
        split
        · next heq => cases heq; exact absurd rfl hc
        · rfl
      rw [hread, bind_readNat?_eq_some_iff]
      simp [hc]

theorem readColor?_hash (r : List Char) : readColor? ('#' :: r) = readWord? (r.map Char.toLower) :=
  rfl

theorem readColor?_of_not_hash {t : List Char} (h : t.head? ≠ some '#') :
    readColor? t = namedColors.lookup (t.map Char.toLower) := by
  unfold readColor?
  cases hname : namedColors.lookup (t.map Char.toLower) with
  | some rgb => simp [hname]
  | none =>
    dsimp only
    rw [hname]
    dsimp only
    split
    · next r hr =>
      obtain ⟨c, u, rfl, hc, -⟩ := List.map_eq_cons_iff.1 hr
      rw [toLower_eq_iff (by decide)] at hc
      exact absurd (congrArg some hc) h
    · rfl

/-- The text is a name in the table, with letters of either case. -/
def IsColorName (t : List Char) (rgb : UInt32) : Prop := (t.map Char.toLower, rgb) ∈ namedColors

theorem isColorName_iff {t : List Char} {rgb : UInt32} :
    IsColorName t rgb ↔ namedColors.lookup (t.map Char.toLower) = some rgb := by
  constructor
  · intro h
    simp only [IsColorName, namedColors, List.mem_cons, Prod.mk.injEq, List.not_mem_nil,
      or_false] at h
    rcases h with ⟨h, rfl⟩ | ⟨h, rfl⟩ | ⟨h, rfl⟩ | ⟨h, rfl⟩ | ⟨h, rfl⟩ <;> rw [h] <;> rfl
  · intro h
    obtain ⟨before, behind, hsplit, -⟩ := List.lookup_eq_some_iff.1 h
    rw [IsColorName, hsplit]
    simp

theorem IsColorName.head_ne {t : List Char} {rgb : UInt32} (h : IsColorName t rgb) :
    t.head? ≠ some '#' := by
  intro hhead
  obtain ⟨r, rfl⟩ := List.head?_eq_some_iff.1 hhead
  rw [isColorName_iff] at h
  cases h

/-- A text is read as a colour if it is a name, or a number sign and the digits of a word, before
which a plus sign may stand. -/
theorem readColor?_eq_some_iff {t : List Char} {rgb : UInt32} :
    readColor? t = some rgb ↔ IsColorName t rgb ∨
      ∃ digits, (t = '#' :: digits ∨ t = '#' :: '+' :: digits) ∧ IsWordText digits rgb := by
  by_cases hhead : t.head? = some '#'
  · obtain ⟨r, rfl⟩ := List.head?_eq_some_iff.1 hhead
    have hname : ¬IsColorName ('#' :: r) rgb := fun h => h.head_ne hhead
    rw [readColor?_hash, readWord?_eq_some_iff]
    simp only [hname, false_or, List.cons.injEq, true_and]
    constructor
    · rintro ⟨digits, rfl | hplus, hword⟩
      · exact ⟨r, .inl rfl, isWordText_map_toLower.1 hword⟩
      · obtain ⟨c, u, rfl, hc, rfl⟩ := List.map_eq_cons_iff.1 hplus
        rw [toLower_eq_iff (by decide)] at hc
        exact ⟨u, .inr (hc ▸ rfl), isWordText_map_toLower.1 hword⟩
    · rintro ⟨digits, rfl | rfl, hword⟩
      · exact ⟨_, .inl rfl, isWordText_map_toLower.2 hword⟩
      · exact ⟨_, .inr rfl, isWordText_map_toLower.2 hword⟩
  · rw [readColor?_of_not_hash hhead, ← isColorName_iff]
    refine (or_iff_left ?_).symm
    rintro ⟨digits, rfl | rfl, -⟩ <;> exact hhead rfl

/-- The documented forms: a name, or a number sign and six hexadecimal digits. -/
def IsDocumentedColor (t : List Char) (rgb : UInt32) : Prop :=
  IsColorName t rgb ∨ ∃ digits, t = '#' :: digits ∧ digits.length = 6 ∧ IsWordText digits rgb

/-- A text that is read has a documented form if it is a name, or has as many characters as the
documented form and no plus sign among them. -/
theorem isDocumentedColor_iff {t : List Char} {rgb : UInt32} :
    IsDocumentedColor t rgb ↔
      readColor? t = some rgb ∧ (t.head? = some '#' → t.length = 7 ∧ '+' ∉ t) := by
  rw [readColor?_eq_some_iff]
  constructor
  · rintro (hname | ⟨digits, rfl, hlength, hword⟩)
    · exact ⟨.inl hname, fun hhead => absurd hhead hname.head_ne⟩
    · refine ⟨.inr ⟨digits, .inl rfl, hword⟩, fun _ => ⟨by simp [hlength], ?_⟩⟩
      simpa using hword.not_mem (c := '+') (by decide)
  · rintro ⟨hname | ⟨digits, rfl | rfl, hword⟩, hform⟩
    · exact .inl hname
    · exact .inr ⟨digits, rfl, by simpa using (hform rfl).1, hword⟩
    · exact absurd (by simp) (hform rfl).2

theorem IsDocumentedColor.le {t : List Char} {rgb : UInt32} (h : IsDocumentedColor t rgb) :
    rgb.toNat ≤ 0xffffff := by
  rcases h with hname | ⟨digits, -, hlength, hword⟩
  · have hnames : ∀ x ∈ namedColors, x.2.toNat ≤ 0xffffff := by simp [namedColors]
    exact hnames _ hname
  · exact hword.le_of_length hlength

theorem length_writeColor (rgb : UInt32) :
    (writeColor rgb).length = max 6 (writeNat 16 rgb.toNat).length + 1 := by
  simp only [writeColor, List.length_append, List.length_cons, List.length_replicate]
  omega

theorem length_writeColor_eq_iff (rgb : UInt32) :
    (writeColor rgb).length = 7 ↔ rgb.toNat ≤ 0xffffff := by
  have hdigits : (writeNat 16 rgb.toNat).length ≤ 6 ↔ rgb.toNat < 16 ^ 6 :=
    Nat.length_toDigits_le_iff (by decide) (by decide)
  rw [length_writeColor]
  omega

/-- Every documented colour is read with the value that is documented, which has no more than 24
bits and is written with six digits. Read is also what has a number sign and another number of
digits or a plus sign, and nothing else; of it exactly the values of more than 24 bits are written
with more digits. -/
theorem colors_are_read (t : List Char) (rgb : UInt32) :
    (readColor? t = some rgb ↔ IsColorName t rgb ∨
      ∃ digits, (t = '#' :: digits ∨ t = '#' :: '+' :: digits) ∧ IsWordText digits rgb) ∧
    (IsDocumentedColor t rgb ↔
      readColor? t = some rgb ∧ (t.head? = some '#' → t.length = 7 ∧ '+' ∉ t)) ∧
    (IsDocumentedColor t rgb → rgb.toNat ≤ 0xffffff) ∧
    ((writeColor rgb).length = 7 ↔ rgb.toNat ≤ 0xffffff) :=
  ⟨readColor?_eq_some_iff, isDocumentedColor_iff, IsDocumentedColor.le,
    length_writeColor_eq_iff rgb⟩

/-- Eight digits, few digits and a plus sign are read, and none of these is documented. -/
theorem undocumented_colors_are_read :
    (readColor? ['#', 'f', 'f', 'f', 'f', 'f', 'f', 'f', 'f'] = some 0xffffffff ∧
      ∀ rgb, ¬IsDocumentedColor ['#', 'f', 'f', 'f', 'f', 'f', 'f', 'f', 'f'] rgb) ∧
    (readColor? ['#', 'f', 'f', 'f'] = some 0xfff ∧
      ∀ rgb, ¬IsDocumentedColor ['#', 'f', 'f', 'f'] rgb) ∧
    readColor? ['#', '+', '0', '0', '0', 'f', 'f'] = some 0xff ∧
      ∀ rgb, ¬IsDocumentedColor ['#', '+', '0', '0', '0', 'f', 'f'] rgb := by
  refine ⟨⟨by decide +kernel, ?_⟩, ⟨by decide +kernel, ?_⟩, by decide +kernel, ?_⟩
  · intro rgb h
    exact absurd ((isDocumentedColor_iff.1 h).2 rfl).1 (by decide)
  · intro rgb h
    exact absurd ((isDocumentedColor_iff.1 h).2 rfl).1 (by decide)
  · intro rgb h
    exact absurd (by decide) ((isDocumentedColor_iff.1 h).2 rfl).2

end colors

end CommandConsole
