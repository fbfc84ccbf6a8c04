import CommandConsole.Proofs.RegistrationOrder
import CommandConsole.Proofs.TokenKinds
set_option autoImplicit false

/-!
Overloads that are told apart by their tokens. Where any two overloads of a name differ in the
number of their tokens or in the kind of one, at most one can take the tokens of a call, so the
order in which they were registered makes no difference to it.
-/

namespace CommandConsole

/-- Every parameter needs a token, or is the console. -/
def OnlyRequired (params : List Param) : Prop := ∀ p ∈ slots params, p.isOptional = false

/-- The parameters take different numbers of tokens, or tokens of different kinds at one place. -/
def ToldApart (params params' : List Param) : Prop :=
  (slots params).length ≠ (slots params').length ∨
    ∃ (i : Nat) (p p' : Param) (k k' : TokenKind), (slots params)[i]? = some p ∧
      (slots params')[i]? = some p' ∧ p.type.kind? = some k ∧ p'.type.kind? = some k' ∧ k ≠ k'

/-- The overload of a resolution and the values that it gets, without its number. -/
def Resolution.choice {α : Type} (res : Resolution α) : Overload α × List Value :=
  (res.overload, res.arguments)

/-- The viable overloads with the values that they would get, in order. -/
def choices {α : Type} (parsers : ParserTable) (tokens : List String) (os : List (Overload α)) :
    List (Overload α × List Value) :=
  os.filterMap fun o => (o.signature.bind parsers tokens).map (Prod.mk o)

/-- No two of the overloads can take the tokens. -/
def OneViable {α : Type} (parsers : ParserTable) (tokens : List String)
    (os : List (Overload α)) : Prop :=
  os.Pairwise fun o o' =>
    Viable parsers o.signature.params tokens → ¬Viable parsers o'.signature.params tokens

section viability

variable {t : ParserTable} {tokens : List String} {params params' : List Param}

theorem Viable.length_eq (h : Viable t params tokens) (hrequired : OnlyRequired params) :
    tokens.length = (slots params).length := by
  refine Nat.le_antisymm h.fits (Nat.le_of_not_lt fun hlt => ?_)
  have hmem : (slots params)[tokens.length] ∈ (slots params).drop tokens.length := by
    rw [List.drop_eq_getElem_cons hlt]
    exact List.mem_cons_self
  have hdefault := h.defaults _ hmem
  rw [hrequired _ (List.mem_of_mem_drop hmem)] at hdefault
  cases hdefault

/-- The token with the number of a parameter is converted to its type. -/
theorem Viable.converts_at (h : Viable t params tokens) {i : Nat} {p : Param} {token : String}
    (hp : (slots params)[i]? = some p) (htoken : tokens[i]? = some token) :
    (t.tryConvert p.type token).isSome :=
  h.converts (p, token) (List.mem_of_getElem? (List.getElem?_zip_eq_some.2 ⟨hp, htoken⟩))

theorem ToldApart.not_both (hapart : ToldApart params params') (ht : t.HasBuiltins)
    (hrequired : OnlyRequired params) (hrequired' : OnlyRequired params')
    (h : Viable t params tokens) : ¬Viable t params' tokens := by
  intro h'
  have hlength := h.length_eq hrequired
  have hlength' := h'.length_eq hrequired'
  rcases hapart with hcount | ⟨i, p, p', k, k', hp, hp', hk, hk', hne⟩
  · exact hcount (hlength.symm.trans hlength')
  · obtain ⟨hi, -⟩ := List.getElem?_eq_some_iff.1 hp
    have htoken := List.getElem?_eq_getElem (hlength ▸ hi : i < tokens.length)
    exact hne (ht.kind_unique hk hk' (h.converts_at hp htoken) (h'.converts_at hp' htoken))

end viability

section choice

variable {α : Type} {parsers : ParserTable} {tokens : List String} {os os' : List (Overload α)}

theorem choice_firstViable? (n : Nat) :
    (firstViable? parsers tokens n os).map Resolution.choice =
      (choices parsers tokens os).head? := by
  induction os generalizing n with
  | nil => rfl
  | cons o os ih =>
    cases hb : o.signature.bind parsers tokens with
    | none => simpa [firstViable?, choices, hb] using ih (n + 1)
    | some values => simp [firstViable?, choices, hb, Resolution.choice]

theorem OneViable.length_choices (h : OneViable parsers tokens os) :
    (choices parsers tokens os).length ≤ 1 := by
  induction os with
  | nil => exact Nat.zero_le 1
  | cons o os ih =>
    obtain ⟨hfirst, hrest⟩ := List.pairwise_cons.1 h
    cases hb : o.signature.bind parsers tokens with
    | none => simpa [choices, hb] using ih hrest
    | some values =>
      have hviable : Viable parsers o.signature.params tokens :=
        (o.signature.bind_isSome_iff parsers tokens).1 (by rw [hb]; rfl)
      have hnone : choices parsers tokens os = [] := by
        rw [choices, List.filterMap_eq_nil_iff]
        intro o' ho'
        rw [(o'.signature.bind_eq_none_iff parsers tokens).2 (hfirst o' ho' hviable)]
        rfl
      have hcons : choices parsers tokens (o :: os) = (o, values) :: choices parsers tokens os := by
        simp [choices, hb]
      rw [hcons, hnone]
      exact Nat.le_refl 1

/-- Lists of at most one element have no order. -/
theorem eq_of_perm_of_length_le_one {β : Type} {xs ys : List β} (h : xs.Perm ys)
    (hlength : xs.length ≤ 1) : xs = ys := by
  cases xs with
  | nil => exact (List.nil_perm.1 h).symm
  | cons x xs =>
    obtain rfl : xs = [] := List.eq_nil_of_length_eq_zero (by simpa using hlength)
    exact List.singleton_perm.1 h

theorem OneViable.choice_firstViable?_of_perm (h : OneViable parsers tokens os)
    (hperm : os.Perm os') :
    (firstViable? parsers tokens 0 os).map Resolution.choice =
      (firstViable? parsers tokens 0 os').map Resolution.choice := by
  have hchoices : choices parsers tokens os = choices parsers tokens os' :=
    eq_of_perm_of_length_le_one (hperm.filterMap _) h.length_choices
  rw [choice_firstViable?, choice_firstViable?, hchoices]

/-- A call is answered by the choice among the overloads of its name, or by the lack of one. -/
theorem Registry.choice_resolve (r : Registry α) (name : String) (tokens : List String) :
    (r.resolve name tokens).map Resolution.choice =
      if r.named name = [] then .error (.unknownCommand name)
      else ((firstViable? r.parsers tokens 0 (r.named name)).map Resolution.choice).elim
        (.error (.noMatchingOverload name)) .ok := by
  rcases r.resolve_cases name tokens with ⟨hn, he⟩ | ⟨hn, hf, he⟩ | ⟨res, hf, he⟩
  · rw [he, if_pos hn]
    rfl
  · rw [he, if_neg hn, hf]
    rfl
  · have hn : r.named name ≠ [] := by
      intro hn
      rw [hn] at hf
      cases hf
    rw [he, if_neg hn, hf]
    rfl

theorem OneViable.viableIndices_subsingleton (h : OneViable parsers tokens os) :
    (viableIndices parsers tokens os).Subsingleton := by
  have hlater : ∀ i j, i < j → i ∈ viableIndices parsers tokens os →
      j ∉ viableIndices parsers tokens os := by
    intro i j hlt hi hj
    obtain ⟨o, ho, hviable⟩ := hi
    obtain ⟨o', ho', hviable'⟩ := hj
    obtain ⟨hi, rfl⟩ := List.getElem?_eq_some_iff.1 ho
    obtain ⟨hj, rfl⟩ := List.getElem?_eq_some_iff.1 ho'
    exact List.pairwise_iff_getElem.1 h i j hi hj hlt hviable hviable'
  intro i hi j hj
  rcases Nat.lt_trichotomy i j with hlt | heq | hgt
  · exact absurd hj (hlater i j hlt hi)
  · exact heq
  · exact absurd hi (hlater j i hgt hj)

end choice

theorem Registry.alike_parsers_enterAll {α : Type} {history history' : List (Registration α)}
    (h : ∀ type, parsersFor type history = parsersFor type history') (parsers : ParserTable) :
    ((Registry.empty parsers).enterAll history).parsers.Alike
      ((Registry.empty parsers).enterAll history').parsers := by
  intro type
  rw [ParserTable.find?_eq_head?, ParserTable.find?_eq_head?, Registry.of_enterAll,
    Registry.of_enterAll, h]

/-- The types of which at most one takes a token. -/
def exclusiveTypes : List ValueType := [.bool, .float, .vec2, .vec3]

theorem ParserTable.HasBuiltins.exclusive {t : ParserTable} (h : t.HasBuiltins) {token : String}
    {a b : ValueType} (ha : a ∈ exclusiveTypes) (hb : b ∈ exclusiveTypes)
    (htoken : (t.tryConvert a token).isSome) (htoken' : (t.tryConvert b token).isSome) : a = b := by
  have hkinds : ∀ a ∈ exclusiveTypes, ∀ b ∈ exclusiveTypes, a.kind?.isSome ∧
      (a.kind? = b.kind? → a = b) := by decide
  obtain ⟨hsome, hsame⟩ := hkinds a ha b hb
  obtain ⟨k, hk⟩ := Option.isSome_iff_exists.1 hsome
  obtain ⟨k', hk'⟩ := Option.isSome_iff_exists.1 (hkinds b hb a ha).1
  exact hsame (by rw [hk, hk', h.kind_unique hk hk' htoken htoken'])

/-- A token is at most one of a truth value, a number, a pair and a triple; an integer is a number
and everything is a text. So where any two overloads of a name, which need all their tokens, differ
in their number or in the kind of one, no call has two viable overloads, and the order in which they
were registered changes neither the overload chosen nor its arguments. -/
theorem types_tell_overloads_apart {α : Type} {history history' : List (Registration α)}
    {name : String} (hparsers : ∀ type, parsersFor type history = parsersFor type history')
    (hperm : (registeredUnder name history).Perm (registeredUnder name history'))
    (hrequired : ∀ o ∈ registeredUnder name history, OnlyRequired o.signature.params)
    (hapart : (registeredUnder name history).Pairwise fun o o' =>
      ToldApart o.signature.params o'.signature.params) :
    let r := (Registry.empty .builtin).enterAll history
    let r' := (Registry.empty .builtin).enterAll history'
    (∀ token,
      (∀ a ∈ exclusiveTypes, ∀ b ∈ exclusiveTypes, (r.parsers.tryConvert a token).isSome →
        (r.parsers.tryConvert b token).isSome → a = b) ∧
      ((r.parsers.tryConvert .int token).isSome → (r.parsers.tryConvert .float token).isSome) ∧
      (r.parsers.tryConvert .string token).isSome) ∧
    ∀ tokens, (viableIndices r.parsers tokens (registeredUnder name history)).Subsingleton ∧
      (r.resolve name tokens).map Resolution.choice =
        (r'.resolve name tokens).map Resolution.choice := by
  intro r r'
  have hbuiltins : r.parsers.HasBuiltins := Registry.hasBuiltins_enterAll history
  have hnamed : ∀ history : List (Registration α),
      ((Registry.empty .builtin).enterAll history).named name = registeredUnder name history := by
    intro history
    simpa using (Registry.empty .builtin).named_enterAll history name
  refine ⟨fun token => ⟨fun a ha b hb => hbuiltins.exclusive ha hb, hbuiltins.float_of_int, ?_⟩,
    fun tokens => ?_⟩
  · rw [(hbuiltins.converts_string token).1]
    rfl
  · have hone : OneViable r.parsers tokens (registeredUnder name history) := by
      refine hapart.imp_of_mem fun ho ho' h => ?_
      exact h.not_both hbuiltins (hrequired _ ho) (hrequired _ ho')
    have hempty : registeredUnder name history = [] ↔ registeredUnder name history' = [] :=
      ⟨fun h => List.nil_perm.1 (h ▸ hperm), fun h => List.perm_nil.1 (h ▸ hperm)⟩
    refine ⟨hone.viableIndices_subsingleton, ?_⟩
    rw [Registry.choice_resolve, Registry.choice_resolve, hnamed, hnamed,
      ← (Registry.alike_parsers_enterAll hparsers .builtin).firstViable?_eq,
      hone.choice_firstViable?_of_perm hperm]
    simp only [hempty]
    rfl

def moveBy (type : ValueType) : Overload Unit :=
  ⟨⟨"move", [.context "console", .required "by" type], "", ""⟩, ()⟩

/-- Three overloads, of which the last one comes first in another history. -/
theorem types_tell_overloads_apart_move :
    let history : List (Registration Unit) :=
      [.command (moveBy .bool), .command (moveBy .int), .command (moveBy .vec2)]
    let history' : List (Registration Unit) :=
      [.command (moveBy .vec2), .command (moveBy .bool), .command (moveBy .int)]
    let r := (Registry.empty .builtin).enterAll history
    let r' := (Registry.empty .builtin).enterAll history'
    (registeredUnder "move" history).Perm (registeredUnder "move" history') ∧
      r.resolve "move" ["true"] = .ok ⟨moveBy .bool, 0, [.context, .bool true]⟩ ∧
      (r'.resolve "move" ["true"]).map Resolution.choice =
        .ok (moveBy .bool, [.context, .bool true]) := by
  intro history history' r r'
  have hperm : (registeredUnder "move" history).Perm (registeredUnder "move" history') :=
    @List.perm_append_comm _ [moveBy .bool, moveBy .int] [moveBy .vec2]
  have hrequired : ∀ o ∈ [moveBy .bool, moveBy .int, moveBy .vec2],
      OnlyRequired o.signature.params := by
    simp only [List.forall_mem_cons, List.not_mem_nil, false_implies, implies_true, and_true]
    unfold OnlyRequired
    decide
  have hapart : [moveBy .bool, moveBy .int, moveBy .vec2].Pairwise fun o o' =>
      ToldApart o.signature.params o'.signature.params := by
    simp only [List.pairwise_cons, List.forall_mem_cons, List.not_mem_nil, false_implies,
      implies_true, and_true, List.Pairwise.nil]
    exact ⟨⟨.inr ⟨0, _, _, .truth, .number, rfl, rfl, rfl, rfl, by decide⟩,
      .inr ⟨0, _, _, .truth, .pair, rfl, rfl, rfl, rfl, by decide⟩⟩,
      .inr ⟨0, _, _, .number, .pair, rfl, rfl, rfl, rfl, by decide⟩⟩
  have hparsers : ∀ type, parsersFor type history = parsersFor type history' := fun _ => rfl
  have hsame := (types_tell_overloads_apart hparsers hperm hrequired hapart).2 ["true"]
  have hfirst : r.resolve "move" ["true"] = .ok ⟨moveBy .bool, 0, [.context, .bool true]⟩ :=
    rfl
  refine ⟨hperm, hfirst, ?_⟩
  rw [← hsame.2, hfirst]
  rfl

end CommandConsole
