import CommandConsole.Parser.Builtin
import CommandConsole.Proofs.ParserTables
import CommandConsole.Proofs.Resolution
set_option autoImplicit false

/-!
What a further parser changes. Whatever could be read before is read as before, so every overload
that was viable stays viable with the same values; an overload becomes viable only through a token
for a parameter of the new type, and may then come before the one chosen so far.
-/

namespace CommandConsole

/-- The table `t'` has a parser for a type that had none, and is `t` for every other type. -/
structure ParserTable.Gains (type : ValueType) (t t' : ParserTable) : Prop where
  lacking : t.find? type = none
  kept : ∀ other, other ≠ type → t'.find? other = t.find? other

/-- A parameter of the type has a token of its own. -/
def TakesToken (type : ValueType) (params : List Param) (tokens : List String) : Prop :=
  ∃ x ∈ (slots params).zip tokens, x.1.type = type

instance (type : ValueType) (params : List Param) (tokens : List String) :
    Decidable (TakesToken type params tokens) :=
  inferInstanceAs (Decidable (∃ x ∈ (slots params).zip tokens, x.1.type = type))

theorem ParserTable.register_refused {t : ParserTable} {p : ValueParser}
    (h : (t.register p).2 = false) : (t.register p).1 = t := by
  unfold register at h ⊢
  split
  · rfl
  · next hnew => simp [if_neg hnew] at h

theorem ParserTable.gains_register {t : ParserTable} {p : ValueParser}
    (h : (t.register p).2 = true) : Gains p.type t (t.register p).1 := by
  unfold register at h ⊢
  split
  · next hold => simp [if_pos hold] at h
  · next hnew =>
    constructor
    · simpa [contains] using fun hcontains => hnew (.inr hcontains)
    · intro other hother
      simp only [find?, List.find?_append]
      cases t.parsers.find? (·.type == other) <;> simp [Ne.symm hother]

namespace ParserTable.Gains

variable {type : ValueType} {t t' : ParserTable}

theorem tryConvert_of_ne (h : Gains type t t') {other : ValueType} (hne : other ≠ type)
    (token : String) : t'.tryConvert other token = t.tryConvert other token := by
  rw [tryConvert, tryConvert, h.kept other hne]

theorem to_extends (h : Gains type t t') : Extends t t' := by
  intro other token v hv
  by_cases hother : other = type
  · simp [tryConvert, hother, h.lacking] at hv
  · rw [h.tryConvert_of_ne hother, hv]

/-- Tokens that could not be taken before need the new parser for one of them. -/
theorem takesToken (h : Gains type t t') {params : List Param} {tokens : List String}
    (hviable : Viable t' params tokens) (hnot : ¬Viable t params tokens) :
    TakesToken type params tokens := by
  by_contra htakes
  refine hnot ⟨hviable.fits, ?_, hviable.defaults⟩
  intro x hx
  have hother : x.1.type ≠ type := fun htype => htakes ⟨x, hx, htype⟩
  rw [← h.tryConvert_of_ne hother]
  exact hviable.converts x hx

theorem takesToken_of_bind (h : Gains type t t') {s : Signature} {tokens : List String}
    {values : List Value} (hv : s.bind t' tokens = some values) (hnone : s.bind t tokens = none) :
    TakesToken type s.params tokens :=
  h.takesToken ((s.bind_isSome_iff t' tokens).1 (by simp [hv]))
    ((s.bind_eq_none_iff t tokens).1 hnone)

/-- The first viable overload stays, or one before it takes a token of the new type. -/
theorem firstViable?_of_some {α : Type} (h : Gains type t t') {tokens : List String} {n : Nat}
    {os : List (Overload α)} {res : Resolution α} (hres : firstViable? t tokens n os = some res) :
    ∃ res', firstViable? t' tokens n os = some res' ∧
      (res' = res ∨ res'.index < res.index ∧
        TakesToken type res'.overload.signature.params tokens) := by
  induction os generalizing n with
  | nil => cases hres
  | cons o os ih =>
    cases hb : o.signature.bind t tokens with
    | some values =>
      simp only [firstViable?, hb, Option.some.injEq] at hres
      exact ⟨res, by simp only [firstViable?, h.to_extends.bind_of_some hb, hres], .inl rfl⟩
    | none =>
      simp only [firstViable?, hb] at hres
      cases hb' : o.signature.bind t' tokens with
      | some values =>
        obtain ⟨i, hindex, -⟩ := firstViable?_eq_some hres
        have hlater : n < res.index := by omega
        exact ⟨⟨o, n, values⟩, by simp only [firstViable?, hb'],
          .inr ⟨hlater, h.takesToken_of_bind hb' hb⟩⟩
      | none =>
        simp only [firstViable?, hb']
        exact ih hres

theorem firstViable?_of_none {α : Type} (h : Gains type t t') {tokens : List String} {n : Nat}
    {os : List (Overload α)} (hnone : firstViable? t tokens n os = none) :
    firstViable? t' tokens n os = none ∨
      ∃ res', firstViable? t' tokens n os = some res' ∧
        TakesToken type res'.overload.signature.params tokens := by
  cases hres : firstViable? t' tokens n os with
  | none => exact .inl rfl
  | some res' =>
    obtain ⟨i, -, hoverload, hbind, -⟩ := firstViable?_eq_some hres
    have hnot := firstViable?_eq_none_iff.1 hnone _ (List.mem_of_getElem? hoverload)
    exact .inr ⟨res', rfl, h.takesToken_of_bind hbind ((Signature.bind_eq_none_iff _ _ _).2 hnot)⟩

end ParserTable.Gains

namespace Registry

variable {α : Type} {r : Registry α} {p : ValueParser}

theorem registerParser_refused (h : (r.registerParser p).2 = false) :
    (r.registerParser p).1 = r := by
  simp only [registerParser, ParserTable.register_refused h]

theorem resolve_of_ok_registerParser (h : (r.registerParser p).2 = true) {name : String}
    {tokens : List String} {res : Resolution α} (hres : r.resolve name tokens = .ok res) :
    ∃ res', (r.registerParser p).1.resolve name tokens = .ok res' ∧
      (res' = res ∨ res'.index < res.index ∧
        TakesToken p.type res'.overload.signature.params tokens) := by
  obtain ⟨res', hfirst, hcases⟩ :=
    (ParserTable.gains_register h).firstViable?_of_some (resolve_eq_ok_iff.1 hres)
  exact ⟨res', resolve_eq_ok_iff.2 hfirst, hcases⟩

theorem resolve_of_unknown_registerParser (p : ValueParser) {name m : String}
    {tokens : List String} (h : r.resolve name tokens = .error (.unknownCommand m)) :
    (r.registerParser p).1.resolve name tokens = .error (.unknownCommand m) := by
  rcases r.resolve_cases name tokens with ⟨hn, he⟩ | ⟨-, -, he⟩ | ⟨res, -, he⟩
  · rw [he] at h
    cases h
    exact resolve_eq_unknown_iff.2 hn
  · rw [he] at h
    cases h
  · rw [he] at h
    cases h

theorem resolve_of_noMatching_registerParser (h : (r.registerParser p).2 = true)
    {name m : String} {tokens : List String}
    (hres : r.resolve name tokens = .error (.noMatchingOverload m)) :
    (r.registerParser p).1.resolve name tokens = .error (.noMatchingOverload m) ∨
      ∃ res', (r.registerParser p).1.resolve name tokens = .ok res' ∧
        TakesToken p.type res'.overload.signature.params tokens := by
  rcases r.resolve_cases name tokens with ⟨-, he⟩ | ⟨hn, hnone, he⟩ | ⟨res, -, he⟩
  · rw [he] at hres
    cases hres
  · rw [he] at hres
    cases hres
    rcases (ParserTable.gains_register h).firstViable?_of_none hnone with
      hnone' | ⟨res', hfirst, htakes⟩
    · exact .inl (resolve_eq_noMatching_iff.2
        ⟨hn, viableIndices_eq_empty_iff.2 (firstViable?_eq_none_iff.1 hnone')⟩)
    · exact .inr ⟨res', resolve_eq_ok_iff.2 hfirst, htakes⟩
  · rw [he] at hres
    cases hres

end Registry

/-- A parser that is refused changes nothing. One that is taken keeps every call that resolves: the
call picks the same overload with the same arguments, or an earlier one that takes a token of the
new type. A call that matched no overload may find one of this kind, and an unknown name stays
unknown. -/
theorem parser_keeps_resolving {α : Type} (r : Registry α) (p : ValueParser) :
    let r' := (r.registerParser p).1
    ((r.registerParser p).2 = false →
      (∀ type token, r'.parsers.tryConvert type token = r.parsers.tryConvert type token ∧
        r'.parsers.convert type token = r.parsers.convert type token) ∧
      ∀ name tokens, r'.resolve name tokens = r.resolve name tokens) ∧
    ((r.registerParser p).2 = true → ∀ name tokens,
      (∀ res, r.resolve name tokens = .ok res → ∃ res', r'.resolve name tokens = .ok res' ∧
        res'.index ≤ res.index ∧ (res'.index = res.index → res'.arguments = res.arguments) ∧
        (res'.index < res.index →
          TakesToken p.type res'.overload.signature.params tokens)) ∧
      (∀ m, r.resolve name tokens = .error (.unknownCommand m) →
        r'.resolve name tokens = .error (.unknownCommand m)) ∧
      ∀ m, r.resolve name tokens = .error (.noMatchingOverload m) →
        r'.resolve name tokens = .error (.noMatchingOverload m) ∨
          ∃ res', r'.resolve name tokens = .ok res' ∧
            TakesToken p.type res'.overload.signature.params tokens) ∧
    ∀ name tokens, (∃ res, r.resolve name tokens = .ok res) →
      ∃ res', r'.resolve name tokens = .ok res' := by
  intro r'
  refine ⟨fun hrefused => ?_, fun htaken name tokens => ⟨fun res hres => ?_,
    fun m => Registry.resolve_of_unknown_registerParser p,
    fun m => Registry.resolve_of_noMatching_registerParser htaken⟩, ?_⟩
  · have hsame : r' = r := Registry.registerParser_refused hrefused
    rw [hsame]
    exact ⟨fun _ _ => ⟨rfl, rfl⟩, fun _ _ => rfl⟩
  · obtain ⟨res', hres', rfl | ⟨hlt, htakes⟩⟩ := Registry.resolve_of_ok_registerParser htaken hres
    · exact ⟨res', hres', Nat.le_refl _, fun _ => rfl, fun hlt => (Nat.lt_irrefl _ hlt).elim⟩
    · exact ⟨res', hres', Nat.le_of_lt hlt, fun heq => (Nat.ne_of_lt hlt heq).elim, fun _ => htakes⟩
  · intro name tokens hok
    obtain ⟨res, hres⟩ := hok
    cases htaken : (r.registerParser p).2 with
    | false =>
      have hsame : r' = r := Registry.registerParser_refused htaken
      exact ⟨res, by rw [hsame, hres]⟩
    | true =>
      obtain ⟨res', hres', -⟩ := Registry.resolve_of_ok_registerParser htaken hres
      exact ⟨res', hres'⟩

/-- With a parser of colors `paint red` goes from the second overload to the first, and `tint red`
is no longer without one. A further parser of integers is refused. -/
theorem parser_keeps_resolving_color :
    let red : Value := .custom ⟨"color", .word 0xff0000, 0⟩
    let color : ValueParser := .ofProbe (.custom "color") fun token =>
      if token = "red" then some red else none
    let overload (name : String) (type : ValueType) : Overload Unit :=
      ⟨⟨name, [.context "console", .required "value" type], "", ""⟩, ()⟩
    let r : Registry Unit := ⟨[overload "paint" color.type, overload "paint" .string,
      overload "tint" color.type], .ofList ["paint", "tint"], .builtin⟩
    let r' := (r.registerParser color).1
    r.resolve "paint" ["red"] = .ok ⟨overload "paint" .string, 1, [.context, .string "red"]⟩ ∧
      (∃ res, r'.resolve "paint" ["red"] = .ok res ∧ res.index < 1 ∧
        TakesToken color.type res.overload.signature.params ["red"]) ∧
      r.resolve "tint" ["red"] = .error (.noMatchingOverload "tint") ∧
      (∃ res, r'.resolve "tint" ["red"] = .ok res ∧
        TakesToken color.type res.overload.signature.params ["red"]) ∧
      r'.resolve "mix" ["red"] = .error (.unknownCommand "mix") ∧
      (r.registerParser (.ofProbe .int fun _ => none)).2 = false ∧
      (r.registerParser (.ofProbe .int fun _ => none)).1.resolve "paint" ["red"] =
        r.resolve "paint" ["red"] := by
  intro red color overload r r'
  have hpaint : r.resolve "paint" ["red"] =
      .ok ⟨overload "paint" .string, 1, [.context, .string "red"]⟩ := rfl
  have htint : r.resolve "tint" ["red"] = .error (.noMatchingOverload "tint") := rfl
  have htaken := (parser_keeps_resolving r color).2.1 rfl
  have hpaint' : r'.resolve "paint" ["red"] =
      .ok ⟨overload "paint" color.type, 0, [.context, red]⟩ := rfl
  have htint' : r'.resolve "tint" ["red"] =
      .ok ⟨overload "tint" color.type, 0, [.context, red]⟩ := rfl
  obtain ⟨res, hres, -, -, hearlier⟩ := (htaken "paint" ["red"]).1 _ hpaint
  have hindex : res.index < 1 := by
    cases hpaint'.symm.trans hres
    decide
  refine ⟨hpaint, ⟨res, hres, hindex, hearlier hindex⟩, htint, ?_,
    (htaken "mix" ["red"]).2.1 "mix" rfl, rfl,
    ((parser_keeps_resolving r (.ofProbe .int fun _ => none)).1 rfl).2 "paint" ["red"]⟩
  refine ((htaken "tint" ["red"]).2.2 "tint" htint).resolve_left ?_
  intro hnone
  cases htint'.symm.trans hnone

end CommandConsole
