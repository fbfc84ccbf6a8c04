import CommandConsole.Proofs.BuiltinParsers
import CommandConsole.Proofs.Fields
import CommandConsole.Proofs.NumberText
import CommandConsole.Proofs.Quoting
set_option autoImplicit false

/-!
Values that are shown and typed again. The text of a value is a token that the parser of its type
reads as the value, and the text of a vector needs no quotes to be one token.
-/

namespace CommandConsole

section Trimming

/-- Blanks inside a text are kept. -/
theorem trim_of_ends {t : List Char} (hhead : ∀ c, t.head? = some c → isBlank c = false)
    (hlast : ∀ c, t.getLast? = some c → isBlank c = false) : trim t = t := by
  have hdrop : t.dropWhile isBlank = t := by
    cases t with
    | nil => rfl
    | cons c r => simp [hhead c rfl]
  rw [trim_eq, hdrop, List.rdropWhile_eq_self_iff]
  intro hne
  rw [hlast _ (List.getLast?_eq_some_getLast hne)]
  exact Bool.false_ne_true

theorem trim_of_not_blank {t : List Char} (h : ∀ c ∈ t, isBlank c = false) : trim t = t :=
  trim_of_ends (fun c hc => h c (List.mem_of_mem_head? hc))
    fun c hc => h c (List.mem_of_getLast? hc)

theorem trim_of_numeral {t : List Char} (h : ∀ c ∈ t, isNumeral c = true) : trim t = t :=
  trim_of_not_blank fun c hc => isBlank_of_isNumeral (h c hc)

theorem trim_space (t : List Char) : trim (' ' :: t) = trim t := by
  rw [trim_eq, trim_eq, List.dropWhile_cons_of_pos (by decide)]

end Trimming

theorem readBool?_text (b : Bool) : readBool? (Value.bool b).text.toList = some b := by
  cases b <;> decide +kernel

theorem readInt64?_writeInt64 (i : Int64) : readInt64? (writeInt64 i) = some i := by
  rw [readInt64?, writeInt64, trim_of_numeral fun c hc => isNumeral_of_mem_writeInt hc,
    readInt?_writeInt, Option.bind_some, int64?_toInt]

theorem readFloat?_write (x : Binary64) : readFloat? x.write = some x := by
  rw [readFloat?, trim_of_numeral fun c hc => Binary64.isNumeral_of_mem_write hc,
    Binary64.read?_write]

section Vectors

/-- The components of a vector with the comma and the space between them. -/
def writeComponents (xs : List Binary64) : List Char :=
  [',', ' '].intercalate (xs.map Binary64.write)

theorem writeVector_eq (xs : List Binary64) :
    writeVector xs = '(' :: (writeComponents xs ++ [')']) := rfl

theorem trim_writeVector (xs : List Binary64) : trim (writeVector xs) = writeVector xs := by
  rw [writeVector_eq]
  apply trim_of_ends
  · intro c hc
    cases hc
    decide
  · intro c hc
    rw [← List.cons_append, List.getLast?_concat, Option.some.injEq] at hc
    subst hc
    decide

theorem unwrapParens_writeVector (xs : List Binary64) :
    unwrapParens (writeVector xs) = writeComponents xs := by
  rw [writeVector_eq, unwrapParens, List.getLast?_concat, if_pos rfl, List.dropLast_concat]

theorem comma_not_mem_write (x : Binary64) : ',' ∉ x.write := by
  intro h
  exact absurd (Binary64.isNumeral_of_mem_write h) (by decide)

theorem readFloat?_space (x : Binary64) : readFloat? (' ' :: x.write) = some x := by
  rw [readFloat?, trim_space, ← readFloat?, readFloat?_write]

theorem mapM_readFloat?_spaced (xs : List Binary64) :
    (xs.map fun x => ' ' :: x.write).mapM readFloat? = some xs := by
  induction xs with
  | nil => rfl
  | cons x xs ih =>
    rw [List.map_cons, List.mapM_cons, readFloat?_space, ih]
    rfl

/-- The components of a vector are read in their order. -/
theorem readComponents?_writeVector (x : Binary64) (xs : List Binary64) :
    readComponents? (writeVector (x :: xs)) = some (x :: xs) := by
  have hcommas : ∀ u ∈ x.write :: xs.map Binary64.write, ',' ∉ u := by
    intro u hu
    rw [← List.map_cons, List.mem_map] at hu
    obtain ⟨y, -, rfl⟩ := hu
    exact comma_not_mem_write y
  have hfields : splitFields ',' (writeComponents (x :: xs)) =
      x.write :: xs.map fun y => ' ' :: y.write := by
    rw [writeComponents, List.map_cons, splitFields_intercalate (by decide) hcommas, List.map_map]
    rfl
  rw [readComponents?, trim_writeVector, unwrapParens_writeVector, hfields, List.mapM_cons,
    readFloat?_write, mapM_readFloat?_spaced]
  rfl

/-- A character that does not change what is open. -/
def isInert (c : Char) : Bool := c != '"' && c != '(' && c != ')'

theorem isInert_of_isNumeral {c : Char} (h : isNumeral c = true) : isInert c = true := by
  simp only [isInert, Bool.and_eq_true, bne_iff_ne]
  refine ⟨⟨?_, ?_⟩, ?_⟩
  all_goals
    rintro rfl
    exact absurd h (by decide)

theorem isPlain_of_isNumeral {c : Char} (h : isNumeral c = true) : isPlain c = true := by
  have hinert := isInert_of_isNumeral h
  simp only [isInert, Bool.and_eq_true] at hinert
  simp [isPlain, isBlank_of_isNumeral h, hinert]

theorem isInert_of_mem_writeComponents {xs : List Binary64} {c : Char}
    (h : c ∈ writeComponents xs) : isInert c = true := by
  have hseparator : ∀ c ∈ [',', ' '], isInert c = true := List.all_eq_true.1 rfl
  have hwrite : ∀ x : Binary64, ∀ c ∈ x.write, isInert c = true :=
    fun x c hc => isInert_of_isNumeral (Binary64.isNumeral_of_mem_write hc)
  rw [writeComponents] at h
  induction xs with
  | nil => cases h
  | cons x xs ih =>
    cases xs with
    | nil => exact hwrite x c (by rwa [List.map_singleton, List.intercalate_singleton] at h)
    | cons y ys =>
      rw [List.map_cons, List.map_cons, List.intercalate_cons_cons, List.mem_append,
        List.mem_append] at h
      rcases h with (h | h) | h
      · exact hwrite x c h
      · exact hseparator c h
      · exact ih h

/-- Inside parentheses everything but a quote or another parenthesis is text. -/
theorem splitFrom_parenthesized {u : List Char} (hu : ∀ c ∈ u, isInert c = true) (depth : Nat)
    (word r : List Char) :
    splitFrom ⟨false, depth + 1⟩ (some word) (u ++ r) =
      splitFrom ⟨false, depth + 1⟩ (some (u.reverse ++ word)) r := by
  induction u generalizing word with
  | nil => rfl
  | cons c u ih =>
    obtain ⟨hc, hu⟩ := List.forall_mem_cons.1 hu
    simp only [isInert, Bool.and_eq_true, bne_iff_ne] at hc
    obtain ⟨⟨hquote, hopen⟩, hclose⟩ := hc
    simp [splitFrom, Nesting.separates, Nesting.isOpen, Nesting.next, hquote, hopen, hclose, ih hu]

theorem splitArguments_writeVector (xs : List Binary64) :
    splitArguments (String.ofList (writeVector xs)) = [String.ofList (writeVector xs)] := by
  have hopen : ∀ t, splitFrom .closed none ('(' :: t) = splitFrom ⟨false, 1⟩ (some ['(']) t := by
    intro t
    simp [splitFrom, Nesting.separates, Nesting.next, Nesting.closed, isBlank]
  have hclose : ∀ word, splitFrom ⟨false, 1⟩ (some word) [')'] = [(')' :: word).reverse] := by
    intro word
    simp [splitFrom, Nesting.separates, isBlank]
  rw [splitArguments, String.toList_ofList, writeVector_eq, hopen,
    splitFrom_parenthesized fun c hc => isInert_of_mem_writeComponents hc, hclose]
  simp

end Vectors

/-- The values that are read from tokens: neither the console itself nor a custom value. -/
def Value.IsBuiltin (v : Value) : Prop := v.type ≠ .context ∧ ∀ name, v.type ≠ .custom name

/-- A table with the built-in parsers reads every such value from its text. -/
theorem ParserTable.HasBuiltins.converts_text {t : ParserTable} (h : t.HasBuiltins) {v : Value}
    (hv : v.IsBuiltin) :
    t.tryConvert v.type v.text = some v ∧ t.convert v.type v.text = .ok v := by
  cases v with
  | bool b =>
    have hread : (readBool? (Value.bool b).text.toList).map Value.bool = some (.bool b) := by
      rw [readBool?_text, Option.map_some]
    exact h.converts .bool (fun s => (readBool? s.toList).map .bool) (by simp [builtinParsers])
      hread rfl
  | int i =>
    have hread : (readInt64? (Value.int i).text.toList).map Value.int = some (.int i) := by
      rw [Value.text, String.toList_ofList, readInt64?_writeInt64, Option.map_some]
    exact h.converts .int (fun s => (readInt64? s.toList).map .int) (by simp [builtinParsers])
      hread rfl
  | float x =>
    have hread : (readFloat? (Value.float x).text.toList).map Value.float = some (.float x) := by
      rw [Value.text, String.toList_ofList, readFloat?_write, Option.map_some]
    exact h.converts .float (fun s => (readFloat? s.toList).map .float) (by simp [builtinParsers])
      hread rfl
  | string s => exact h.converts_string s
  | vec2 x y =>
    have hread : readVec2? (Value.vec2 x y).text.toList = some (.vec2 x y) := by
      rw [Value.text, String.toList_ofList, readVec2?, readComponents?_writeVector]
    exact h.converts .vec2 (fun s => readVec2? s.toList) (by simp [builtinParsers]) hread rfl
  | vec3 x y z =>
    have hread : readVec3? (Value.vec3 x y z).text.toList = some (.vec3 x y z) := by
      rw [Value.text, String.toList_ofList, readVec3?, readComponents?_writeVector]
    exact h.converts .vec3 (fun s => readVec3? s.toList) (by simp [builtinParsers]) hread rfl
  | context => exact absurd rfl hv.1
  | custom c => exact absurd rfl (hv.2 c.typeName)

theorem splitArguments_text {v : Value} (h : v.type = .vec2 ∨ v.type = .vec3) :
    splitArguments v.text = [v.text] := by
  cases v with
  | vec2 x y => exact splitArguments_writeVector [x, y]
  | vec3 x y z => exact splitArguments_writeVector [x, y, z]
  | _ => rcases h with h | h <;> cases h

/-- Whatever was registered since, a registry that began with the built-in parsers reads every
value of a built-in type from its text, and as the same value. The text of a vector is one token. -/
theorem values_survive_typing {α : Type} (history : List (Registration α)) (v : Value)
    (hv : v.IsBuiltin) :
    ((Registry.empty .builtin).enterAll history).parsers.tryConvert v.type v.text = some v ∧
    ((Registry.empty .builtin).enterAll history).parsers.convert v.type v.text = .ok v ∧
    (v.type = .vec2 ∨ v.type = .vec3 → splitArguments v.text = [v.text]) := by
  obtain ⟨htry, hconvert⟩ := (Registry.hasBuiltins_enterAll history).converts_text hv
  exact ⟨htry, hconvert, splitArguments_text⟩

/-- A vector with a negative zero and an infinity, after a try to replace its parser. -/
theorem values_survive_typing_vector :
    (Value.vec3 (.ofRank true 0) (.infinite false) (.ofRank false (1022 * binade))).text =
      "(-0, inf, 0.5)" ∧
    ((Registry.empty .builtin : Registry Unit).enterAll
      [.parser (.ofProbe .vec3 fun _ => none)]).parsers.convert .vec3 "(-0, inf, 0.5)" =
      .ok (.vec3 (.ofRank true 0) (.infinite false) (.ofRank false (1022 * binade))) ∧
    splitArguments "(-0, inf, 0.5)" = ["(-0, inf, 0.5)"] := by
  have htext : (Value.vec3 (.ofRank true 0) (.infinite false)
      (.ofRank false (1022 * binade))).text = "(-0, inf, 0.5)" := by decide +kernel
  have hbuiltin : (Value.vec3 (.ofRank true 0) (.infinite false)
      (.ofRank false (1022 * binade))).IsBuiltin := ⟨by decide, by simp [Value.type]⟩
  obtain ⟨-, hconvert, hsplit⟩ := values_survive_typing (α := Unit)
    [.parser (.ofProbe .vec3 fun _ => none)] _ hbuiltin
  rw [htext] at hconvert hsplit
  exact ⟨htext, hconvert, hsplit (Or.inr rfl)⟩

end CommandConsole
