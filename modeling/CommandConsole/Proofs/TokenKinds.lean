import CommandConsole.Proofs.VectorGrammar
set_option autoImplicit false

/-!
The kinds of tokens that the built-in parsers take. A token is a truth value, a number, a pair or a
triple, or none of these, but never two of them; whatever is an integer is a number, and everything
is a text.
-/

namespace CommandConsole

inductive TokenKind where
  | truth | number | pair | triple
  deriving DecidableEq, Repr

/-- The kind of the tokens that a type takes. Text takes tokens of every kind, and nothing is known
of the types that a host adds. -/
def ValueType.kind? : ValueType → Option TokenKind
  | .bool => some .truth
  | .int | .float => some .number
  | .vec2 => some .pair
  | .vec3 => some .triple
  | .string | .context | .custom _ => none

/-- The text is read as something of the kind. -/
def TokenKind.Reads : TokenKind → List Char → Prop
  | .truth, t => (readBool? t).isSome
  | .number, t => (readFloat? t).isSome
  | .pair, t => ∃ xs, readComponents? t = some xs ∧ xs.length = 2
  | .triple, t => ∃ xs, readComponents? t = some xs ∧ xs.length = 3

/-- The commas in a token of the kind. -/
def TokenKind.commas : TokenKind → Nat
  | .truth | .number => 0
  | .pair => 1
  | .triple => 2

section Words

/-- The words for truth values, in lower case. -/
def truthWords : List (List Char) := [['t', 'r', 'u', 'e'], ['f', 'a', 'l', 's', 'e']]

theorem readBool?_word {t : List Char} (h : (readBool? t).isSome) :
    (trim t).map Char.toLower ∈ truthWords := by
  simp only [readBool?] at h
  split at h
  · next hword => simp [truthWords, hword]
  · split at h
    · next hword => simp [truthWords, hword]
    · cases h

theorem comma_not_mem_of_word {t : List Char} (h : (trim t).map Char.toLower ∈ truthWords) :
    ',' ∉ t := by
  have hwords : ∀ w ∈ truthWords, (!w.contains ',') = true := List.all_eq_true.1 rfl
  intro hmem
  have hlower : ',' ∈ (trim t).map Char.toLower :=
    List.mem_map_of_mem (f := Char.toLower) ((mem_trim_iff (by decide)).2 hmem)
  simpa [hlower] using hwords _ h

/-- A word for a truth value is no word for a number, and holds a letter that no decimal has. -/
theorem Binary64.read?_eq_none_of_word {t : List Char} (h : t.map Char.toLower ∈ truthWords) :
    Binary64.read? t = none := by
  have hnumber : ∀ w ∈ truthWords, (!numberWords.contains w) = true := List.all_eq_true.1 rfl
  have hdecimal : ∀ w ∈ truthWords, (!w.all isDecimalChar) = true := List.all_eq_true.1 rfl
  rw [Option.eq_none_iff_forall_ne_some]
  intro x hx
  rcases Binary64.read?_cases hx with ⟨-, sign, r, rfl, hsign, -⟩ | hmagnitude
  · rcases hsign with rfl | rfl <;> simp [truthWords] at h
  · rcases readMagnitude?_cases hmagnitude with hword | ⟨d, hd⟩
    · simpa [hword] using hnumber _ h
    · have hchars : (t.map Char.toLower).all isDecimalChar = true := by
        rw [List.all_map, List.all_eq_true]
        exact fun c hc => isDecimalChar_toLower ((Decimal.isDecimalChar_of_read? hd).2 c hc)
      simpa [hchars] using hdecimal _ h

end Words

section Kinds

theorem TokenKind.Reads.count_comma {k : TokenKind} {t : List Char} (h : k.Reads t) :
    t.count ',' = k.commas := by
  cases k with
  | truth => exact List.count_eq_zero_of_not_mem (comma_not_mem_of_word (readBool?_word h))
  | number =>
    obtain ⟨x, hx⟩ := Option.isSome_iff_exists.1 h
    have hnumber : IsNumberText t x := hx
    exact List.count_eq_zero_of_not_mem (hnumber.not_mem (by decide) (by decide))
  | pair =>
    obtain ⟨xs, hxs, hlength⟩ := h
    have hcommas := length_of_readComponents? hxs
    show t.count ',' = 1
    omega
  | triple =>
    obtain ⟨xs, hxs, hlength⟩ := h
    have hcommas := length_of_readComponents? hxs
    show t.count ',' = 2
    omega

theorem not_number_of_truth {t : List Char} (h : TokenKind.truth.Reads t) :
    ¬TokenKind.number.Reads t := by
  intro hnumber
  obtain ⟨x, hx⟩ := Option.isSome_iff_exists.1 hnumber
  rw [readFloat?, Binary64.read?_eq_none_of_word (readBool?_word h)] at hx
  cases hx

/-- The commas tell all kinds apart but truth values and numbers. -/
theorem TokenKind.Reads.unique {k l : TokenKind} {t : List Char} (hk : k.Reads t)
    (hl : l.Reads t) : k = l := by
  have hcommas : k.commas = l.commas := hk.count_comma.symm.trans hl.count_comma
  cases k <;> cases l <;> first
    | rfl
    | exact absurd hl (not_number_of_truth hk)
    | exact absurd hk (not_number_of_truth hl)
    | cases hcommas

theorem isSome_readFloat?_of_readInt64? {t : List Char} (h : (readInt64? t).isSome) :
    (readFloat? t).isSome := by
  obtain ⟨i, hi⟩ := Option.isSome_iff_exists.1 h
  obtain ⟨j, hj, -⟩ := Option.bind_eq_some_iff.1 hi
  obtain ⟨x, hx⟩ := Binary64.exists_read?_of_readInt? hj
  rw [readFloat?, hx]
  rfl

end Kinds

section Tables

variable {t : ParserTable}

namespace ParserTable.HasBuiltins

theorem exists_components (h : t.HasBuiltins) {d : VectorType} {token : String}
    (htoken : (t.tryConvert d.type token).isSome) :
    ∃ xs, readComponents? token.toList = some xs ∧ xs.length = d.size := by
  obtain ⟨v, hv⟩ := Option.isSome_iff_exists.1 htoken
  rw [h.tryConvert_vector] at hv
  obtain ⟨xs, hxs, hvalue⟩ := Option.bind_eq_some_iff.1 hv
  exact ⟨xs, hxs, VectorType.length_of_value? hvalue⟩

theorem float_of_int (h : t.HasBuiltins) {token : String}
    (hint : (t.tryConvert .int token).isSome) : (t.tryConvert .float token).isSome := by
  rw [h.tryConvert_int, Option.isSome_map] at hint
  rw [h.tryConvert_float, Option.isSome_map]
  exact isSome_readFloat?_of_readInt64? hint

/-- A type takes only tokens of its kind. -/
theorem reads_kind (h : t.HasBuiltins) {type : ValueType} {k : TokenKind}
    (hkind : type.kind? = some k) {token : String} (htoken : (t.tryConvert type token).isSome) :
    k.Reads token.toList := by
  cases type <;> cases hkind
  case bool =>
    rw [h.tryConvert_bool, Option.isSome_map] at htoken
    exact htoken
  case int =>
    have hfloat := h.float_of_int htoken
    rw [h.tryConvert_float, Option.isSome_map] at hfloat
    exact hfloat
  case float =>
    rw [h.tryConvert_float, Option.isSome_map] at htoken
    exact htoken
  case vec2 => exact h.exists_components (d := .vec2) htoken
  case vec3 => exact h.exists_components (d := .vec3) htoken

theorem kind_unique (h : t.HasBuiltins) {type type' : ValueType} {k k' : TokenKind}
    (hk : type.kind? = some k) (hk' : type'.kind? = some k') {token : String}
    (htoken : (t.tryConvert type token).isSome) (htoken' : (t.tryConvert type' token).isSome) :
    k = k' :=
  (h.reads_kind hk htoken).unique (h.reads_kind hk' htoken')

end ParserTable.HasBuiltins

end Tables

end CommandConsole
