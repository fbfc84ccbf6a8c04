import CommandConsole.Proofs.NumberCharacters
import CommandConsole.Proofs.ValueText
import Mathlib.Data.List.Forall2
set_option autoImplicit false

/-!
The grammar of vectors. A token is read as a vector exactly if it is made of the texts of its
components with commas between them, in one pair of parentheses or in none; no token has two
readings, since the text of a number has neither commas nor parentheses.
-/

namespace CommandConsole

/-- A text for a number, with blanks around it or not. -/
def IsNumberText (p : List Char) (x : Binary64) : Prop := Binary64.read? (trim p) = some x

/-- Texts without commas that make up a token: with commas between them, in one pair of parentheses
or in none, and blanks around the whole. -/
structure IsVectorText (t : List Char) (parts : List (List Char)) : Prop where
  no_comma : ∀ p ∈ parts, ',' ∉ p
  whole : trim t = joinFields ',' parts ∨ trim t = '(' :: (joinFields ',' parts ++ [')'])

section Trimming

variable {c : Char}

theorem count_dropWhile_isBlank (h : isBlank c = false) (t : List Char) :
    (t.dropWhile isBlank).count c = t.count c := by
  have hnone : c ∉ t.takeWhile isBlank := by
    intro hmem
    rw [List.mem_takeWhile_imp hmem] at h
    cases h
  have hcut := congrArg (List.count c) (List.takeWhile_append_dropWhile (p := isBlank) (l := t))
  rwa [List.count_append, List.count_eq_zero_of_not_mem hnone, Nat.zero_add] at hcut

/-- Only blanks are trimmed. -/
theorem count_trim (h : isBlank c = false) (t : List Char) : (trim t).count c = t.count c := by
  rw [trim, List.count_reverse, count_dropWhile_isBlank h, List.count_reverse,
    count_dropWhile_isBlank h]

theorem mem_trim_iff (h : isBlank c = false) {t : List Char} : c ∈ trim t ↔ c ∈ t := by
  rw [← List.count_pos_iff, ← List.count_pos_iff, count_trim h]

end Trimming

section Readings

theorem IsNumberText.trim_ne_nil {p : List Char} {x : Binary64} (h : IsNumberText p x) :
    trim p ≠ [] :=
  (Binary64.isNumberChar_of_read? h).1

/-- What is neither a blank nor a character of numbers is in no text for a number. -/
theorem IsNumberText.not_mem {p : List Char} {x : Binary64} (h : IsNumberText p x) {c : Char}
    (hblank : isBlank c = false) (hc : isNumberChar c = false) : c ∉ p := by
  intro hmem
  have htrue := (Binary64.isNumberChar_of_read? h).2 c ((mem_trim_iff hblank).2 hmem)
  rw [hc] at htrue
  cases htrue

theorem mapM_readFloat?_eq_some_iff {ps : List (List Char)} {xs : List Binary64} :
    ps.mapM readFloat? = some xs ↔ List.Forall₂ IsNumberText ps xs := by
  induction ps generalizing xs with
  | nil =>
    cases xs with
    | nil => exact iff_of_true rfl .nil
    | cons x xs => exact iff_of_false (fun h => by cases h) (fun h => by cases h)
  | cons p ps ih =>
    rw [List.mapM_cons]
    cases xs with
    | nil =>
      refine iff_of_false (fun h => ?_) (fun h => by cases h)
      obtain ⟨x, -, h⟩ := Option.bind_eq_some_iff.1 h
      obtain ⟨ys, -, h⟩ := Option.bind_eq_some_iff.1 h
      cases h
    | cons x xs =>
      rw [List.forall₂_cons, ← ih]
      constructor
      · intro h
        obtain ⟨y, hy, h⟩ := Option.bind_eq_some_iff.1 h
        obtain ⟨ys, hys, h⟩ := Option.bind_eq_some_iff.1 h
        cases h
        exact ⟨hy, hys⟩
      · rintro ⟨hx, hxs⟩
        have hread : readFloat? p = some x := hx
        rw [hread, hxs]
        rfl

/-- One pair of parentheses is taken off, if there is one. -/
theorem unwrapParens_cases (t : List Char) :
    t = '(' :: (unwrapParens t ++ [')']) ∨ t = unwrapParens t := by
  unfold unwrapParens
  split
  · next r =>
    split
    · next hlast =>
      obtain ⟨s, rfl⟩ := List.getLast?_eq_some_iff.1 hlast
      rw [List.dropLast_concat]
      exact .inl rfl
    · exact .inr rfl
  · exact .inr rfl

theorem unwrapParens_wrapped (t : List Char) : unwrapParens ('(' :: (t ++ [')'])) = t := by
  rw [unwrapParens, List.getLast?_concat, if_pos rfl, List.dropLast_concat]

theorem unwrapParens_of_not_mem {t : List Char} (h : '(' ∉ t) : unwrapParens t = t := by
  unfold unwrapParens
  split
  · exact absurd List.mem_cons_self h
  · rfl

theorem exists_number_of_mem {ps : List (List Char)} {xs : List Binary64}
    (h : List.Forall₂ IsNumberText ps xs) {p : List Char} (hp : p ∈ ps) :
    ∃ x, IsNumberText p x := by
  induction h with
  | nil => cases hp
  | cons hx _ ih =>
    rcases List.mem_cons.1 hp with rfl | hp
    · exact ⟨_, hx⟩
    · exact ih hp

theorem not_mem_joinFields {ps : List (List Char)} {xs : List Binary64}
    (h : List.Forall₂ IsNumberText ps xs) {c : Char} (hcomma : c ≠ ',')
    (hblank : isBlank c = false) (hc : isNumberChar c = false) : c ∉ joinFields ',' ps := by
  intro hmem
  rcases mem_joinFields hmem with hsep | ⟨p, hp, hcp⟩
  · exact hcomma hsep
  · obtain ⟨x, hx⟩ := exists_number_of_mem h hp
    exact hx.not_mem hblank hc hcp

/-- The parts that a token is read by are its only ones. -/
theorem readComponents?_parts {t : List Char} {xs : List Binary64}
    (h : readComponents? t = some xs) :
    IsVectorText t (splitFields ',' (unwrapParens (trim t))) ∧
      List.Forall₂ IsNumberText (splitFields ',' (unwrapParens (trim t))) xs := by
  refine ⟨⟨fun p hp => not_mem_of_mem_splitFields hp, ?_⟩, mapM_readFloat?_eq_some_iff.1 h⟩
  rw [joinFields_splitFields]
  exact (unwrapParens_cases (trim t)).symm

theorem readComponents?_of_parts {t : List Char} {ps : List (List Char)} {x : Binary64}
    {xs : List Binary64} (hps : IsVectorText t ps)
    (hxs : List.Forall₂ IsNumberText ps (x :: xs)) : readComponents? t = some (x :: xs) := by
  have hopen : '(' ∉ joinFields ',' ps :=
    not_mem_joinFields hxs (by decide) (by decide) (by decide)
  have hne : ps ≠ [] := by
    rintro rfl
    cases hxs
  have hbody : unwrapParens (trim t) = joinFields ',' ps := by
    rcases hps.whole with hwhole | hwhole
    · rw [hwhole, unwrapParens_of_not_mem hopen]
    · rw [hwhole, unwrapParens_wrapped]
  rw [readComponents?, hbody, splitFields_joinFields hne hps.no_comma,
    mapM_readFloat?_eq_some_iff.2 hxs]

/-- In a token that is read, each part is the text of a number, or it was cut without taking off the
parentheses and holds one. -/
theorem IsVectorText.number_of_mem {t : List Char} {ps : List (List Char)} {xs : List Binary64}
    (hps : IsVectorText t ps) (h : readComponents? t = some xs) {p : List Char} (hp : p ∈ ps) :
    (∃ x, IsNumberText p x) ∨ '(' ∈ p ∨ ')' ∈ p := by
  have hnumbers := (readComponents?_parts h).2
  have hne : ps ≠ [] := List.ne_nil_of_mem hp
  have hfields : splitFields ',' (joinFields ',' ps) = ps := splitFields_joinFields hne hps.no_comma
  rcases hps.whole with hwhole | hwhole
  · rw [← hfields, ← hwhole] at hp
    rcases unwrapParens_cases (trim t) with hwrapped | hbare
    · rw [hwrapped] at hp
      rcases mem_splitFields_cons (by decide) hp with hp | hopen
      · rcases mem_splitFields_concat (by decide) hp with hp | hclose
        · exact .inl (exists_number_of_mem hnumbers hp)
        · exact .inr (.inr hclose)
      · exact .inr (.inl hopen)
    · rw [hbare] at hp
      exact .inl (exists_number_of_mem hnumbers hp)
  · rw [hwhole, unwrapParens_wrapped, hfields] at hnumbers
    exact .inl (exists_number_of_mem hnumbers hp)

theorem IsVectorText.count_comma {t : List Char} {ps : List (List Char)} (h : IsVectorText t ps) :
    t.count ',' = ps.length - 1 := by
  rw [← count_trim (by decide), ← count_joinFields h.no_comma]
  rcases h.whole with hwhole | hwhole
  · rw [hwhole]
  · simp [hwhole]

theorem length_of_readComponents? {t : List Char} {xs : List Binary64}
    (h : readComponents? t = some xs) : xs.length = t.count ',' + 1 := by
  obtain ⟨hparts, hnumbers⟩ := readComponents?_parts h
  have hpos := List.length_pos_iff.2 (splitFields_ne_nil ',' (unwrapParens (trim t)))
  have hlength := hnumbers.length_eq
  rw [hparts.count_comma]
  omega

theorem readComponents?_eq_none_of_blank {t : List Char} {ps : List (List Char)}
    (hps : IsVectorText t ps) {p : List Char} (hp : p ∈ ps) (hblank : trim p = []) :
    readComponents? t = none := by
  have hnone : ∀ c, isBlank c = false → c ∉ p := by
    intro c hc hmem
    have htrim := (mem_trim_iff hc).2 hmem
    rw [hblank] at htrim
    cases htrim
  cases h : readComponents? t with
  | none => rfl
  | some xs =>
    rcases hps.number_of_mem h hp with ⟨x, hx⟩ | hopen | hclose
    · exact absurd hblank hx.trim_ne_nil
    · exact absurd hopen (hnone _ (by decide))
    · exact absurd hclose (hnone _ (by decide))

/-- A token that is read has no parentheses, or one of each. -/
theorem count_parens_of_readComponents? {t : List Char} {xs : List Binary64}
    (h : readComponents? t = some xs) : t.count '(' = t.count ')' ∧ t.count '(' ≤ 1 := by
  obtain ⟨hparts, hnumbers⟩ := readComponents?_parts h
  have hopen := List.count_eq_zero_of_not_mem
    (not_mem_joinFields hnumbers (c := '(') (by decide) (by decide) (by decide))
  have hclose := List.count_eq_zero_of_not_mem
    (not_mem_joinFields hnumbers (c := ')') (by decide) (by decide) (by decide))
  rw [← count_trim (c := '(') (by decide), ← count_trim (c := ')') (by decide)]
  rcases hparts.whole with hwhole | hwhole
  · rw [hwhole, hopen, hclose]
    exact ⟨rfl, Nat.zero_le 1⟩
  · rw [hwhole]
    simp [hopen, hclose]

end Readings

/-- The types of vectors. -/
inductive VectorType where
  | vec2 | vec3
  deriving DecidableEq, Repr

namespace VectorType

def type : VectorType → ValueType
  | .vec2 => .vec2
  | .vec3 => .vec3

def size : VectorType → Nat
  | .vec2 => 2
  | .vec3 => 3

/-- The vector with the given components, if they are as many as it has. -/
def value? : VectorType → List Binary64 → Option Value
  | .vec2, [x, y] => some (.vec2 x y)
  | .vec3, [x, y, z] => some (.vec3 x y z)
  | _, _ => none

theorem length_of_value? {d : VectorType} {xs : List Binary64} {v : Value}
    (h : d.value? xs = some v) : xs.length = d.size := by
  unfold value? at h
  split at h
  · rfl
  · rfl
  · cases h

theorem type_of_value? {d : VectorType} {xs : List Binary64} {v : Value}
    (h : d.value? xs = some v) : v.type = d.type := by
  unfold value? at h
  split at h
  · cases h
    rfl
  · cases h
    rfl
  · cases h

theorem two_le_size (d : VectorType) : 2 ≤ d.size := by cases d <;> decide

end VectorType

theorem readVec2?_eq (t : List Char) :
    readVec2? t = (readComponents? t).bind VectorType.vec2.value? := by
  rw [readVec2?]
  cases readComponents? t with
  | none => rfl
  | some xs => rcases xs with _ | ⟨x, _ | ⟨y, _ | ⟨z, xs⟩⟩⟩ <;> rfl

theorem readVec3?_eq (t : List Char) :
    readVec3? t = (readComponents? t).bind VectorType.vec3.value? := by
  rw [readVec3?]
  cases readComponents? t with
  | none => rfl
  | some xs => rcases xs with _ | ⟨x, _ | ⟨y, _ | ⟨z, _ | ⟨w, xs⟩⟩⟩⟩ <;> rfl

theorem ParserTable.HasBuiltins.tryConvert_vector {t : ParserTable} (h : t.HasBuiltins)
    (d : VectorType) (token : String) :
    t.tryConvert d.type token = (readComponents? token.toList).bind d.value? := by
  have htype : ∀ v, (readComponents? token.toList).bind d.value? = some v → v.type = d.type := by
    intro v hv
    obtain ⟨xs, -, hxs⟩ := Option.bind_eq_some_iff.1 hv
    exact VectorType.type_of_value? hxs
  cases d with
  | vec2 =>
    rw [← readVec2?_eq] at htype ⊢
    exact h.tryConvert_eq .vec2 (fun s => readVec2? s.toList) (by simp [builtinParsers]) htype
  | vec3 =>
    rw [← readVec3?_eq] at htype ⊢
    exact h.tryConvert_eq .vec3 (fun s => readVec3? s.toList) (by simp [builtinParsers]) htype

/-- Whatever was registered since, a registry that began with the built-in parsers reads a token as
a vector exactly if the token has as many parts as the vector has components, each the text of its
component. With a part too few or too many or a blank one, with a parenthesis that is not matched or
with more than one pair, it is refused. -/
theorem vectors_have_grammar {α : Type} (history : List (Registration α)) (d : VectorType)
    (token : String) :
    let t := ((Registry.empty .builtin).enterAll history).parsers
    (∀ v, t.tryConvert d.type token = some v ↔
      ∃ parts xs, IsVectorText token.toList parts ∧ List.Forall₂ IsNumberText parts xs ∧
        d.value? xs = some v) ∧
    (∀ parts, IsVectorText token.toList parts →
      (parts.length ≠ d.size ∨ ∃ p ∈ parts, trim p = []) → t.tryConvert d.type token = none) ∧
    (token.toList.count '(' ≠ token.toList.count ')' ∨ 1 < token.toList.count '(' →
      t.tryConvert d.type token = none) := by
  intro t
  have hread : t.tryConvert d.type token = (readComponents? token.toList).bind d.value? :=
    (Registry.hasBuiltins_enterAll history).tryConvert_vector d token
  rw [hread]
  refine ⟨fun v => ⟨fun h => ?_, ?_⟩, fun parts hparts h => ?_, fun h => ?_⟩
  · obtain ⟨xs, hxs, hv⟩ := Option.bind_eq_some_iff.1 h
    obtain ⟨hparts, hnumbers⟩ := readComponents?_parts hxs
    exact ⟨_, xs, hparts, hnumbers, hv⟩
  · rintro ⟨parts, xs, hparts, hnumbers, hv⟩
    have hsize := VectorType.length_of_value? hv
    cases xs with
    | nil => exact absurd d.two_le_size (by rw [← hsize]; decide)
    | cons x xs => rw [readComponents?_of_parts hparts hnumbers, Option.bind_some, hv]
  · refine Option.bind_eq_none_iff.2 fun xs hxs => ?_
    rcases h with hlength | ⟨p, hp, hblank⟩
    · rw [Option.eq_none_iff_forall_ne_some]
      intro v hv
      have hsize := VectorType.length_of_value? hv
      have htwo := d.two_le_size
      have hcommas := hparts.count_comma
      have hread := length_of_readComponents? hxs
      omega
    · rw [readComponents?_eq_none_of_blank hparts hp hblank] at hxs
      cases hxs
  · refine Option.bind_eq_none_iff.2 fun xs hxs => ?_
    obtain ⟨hsame, hone⟩ := count_parens_of_readComponents? hxs
    omega

/-- A vector with blanks around everything, and tokens with a component too many, with a blank one,
with one parenthesis and with two pairs. -/
theorem vectors_have_grammar_spaced :
    let t := ((Registry.empty .builtin : Registry Unit).enterAll []).parsers
    t.tryConvert .vec2 " ( 1 ,-2.5 ) " = some (.vec2 (.ofRank false (1023 * binade))
        (.ofRank true (1024 * binade + binade / 4))) ∧
      t.tryConvert .vec2 "1,2,3" = none ∧ t.tryConvert .vec3 "1, ,3" = none ∧
      t.tryConvert .vec2 "(1,2" = none ∧ t.tryConvert .vec2 "((1,2))" = none := by
  intro t
  have hgrammar := vectors_have_grammar ([] : List (Registration Unit))
  have hone : IsNumberText [' ', '1', ' '] (.ofRank false (1023 * binade)) := by
    unfold IsNumberText
    decide +kernel
  have htwo : IsNumberText ['-', '2', '.', '5', ' ']
      (.ofRank true (1024 * binade + binade / 4)) := by
    unfold IsNumberText
    decide +kernel
  have hspaced : IsVectorText " ( 1 ,-2.5 ) ".toList
      [[' ', '1', ' '], ['-', '2', '.', '5', ' ']] := ⟨by decide, .inr (by decide)⟩
  have hlong : IsVectorText "1,2,3".toList [['1'], ['2'], ['3']] := ⟨by decide, .inl (by decide)⟩
  have hblank : IsVectorText "1, ,3".toList [['1'], [' '], ['3']] := ⟨by decide, .inl (by decide)⟩
  exact ⟨((hgrammar .vec2 _).1 _).2 ⟨_, _, hspaced, .cons hone (.cons htwo .nil), rfl⟩,
    (hgrammar .vec2 _).2.1 _ hlong (.inl (by decide)),
    (hgrammar .vec3 _).2.1 _ hblank (.inr ⟨[' '], by decide, by decide⟩),
    (hgrammar .vec2 _).2.2 (.inl (by decide)),
    (hgrammar .vec2 _).2.2 (.inr (by decide))⟩

end CommandConsole
