import CommandConsole.Proofs.BuiltinParsers
import CommandConsole.Proofs.Conversions
import CommandConsole.Proofs.Viability
import Mathlib.Data.List.DropRight
set_option autoImplicit false

/-!
How many tokens a signature takes. It tells the number of its required parameters as the least
one, but tokens go to the parameters from left to right: all parameters up to the last required one
need a token, whether they have a default or not. The two numbers are the same exactly if the
parameters with a default come last.
-/

namespace CommandConsole

/-- How many parameters need a token: those up to the last required one. -/
def needed (params : List Param) : Nat := ((slots params).rdropWhile (·.isOptional)).length

/-- No parameter with a default comes before a required one. -/
def OptionalsLast (params : List Param) : Prop :=
  (slots params).Pairwise fun p q => p.isOptional → q.isOptional

/-- Some tokens of this number can be bound. -/
def Signature.Takes (s : Signature) (parsers : ParserTable) (n : Nat) : Prop :=
  ∃ tokens : List String, tokens.length = n ∧ (s.bind parsers tokens).isSome

/-- For each parameter that takes a token there is one that its type accepts. -/
def ParserTable.Supplies (t : ParserTable) (params : List Param) : Prop :=
  ∀ p ∈ slots params, ∃ token, (t.tryConvert p.type token).isSome

section counting

variable {α : Type} {p : α → Bool} {xs : List α}

theorem length_rdropWhile_le_iff (n : Nat) :
    (xs.rdropWhile p).length ≤ n ↔ ∀ x ∈ xs.drop n, p x = true := by
  have hsplit : xs.drop n =
      (xs.rdropWhile p).drop n ++ (xs.rtakeWhile p).drop (n - (xs.rdropWhile p).length) := by
    rw [← List.drop_append, List.rdropWhile_append_rtakeWhile]
  rw [hsplit]
  constructor
  · intro hle x hx
    rw [List.drop_eq_nil_of_le hle, List.nil_append] at hx
    exact List.mem_rtakeWhile_imp (List.mem_of_mem_drop hx)
  · -- If more were kept, the last one kept would be among those that must be dropped.
    intro h
    refine Nat.le_of_not_lt fun hlt => ?_
    have hrest : (xs.rdropWhile p).drop n ≠ [] := by
      rw [ne_eq, List.drop_eq_nil_iff]
      omega
    have hlast := h _ (List.mem_append_left _ (List.getLast_mem hrest))
    rw [List.getLast_drop] at hlast
    exact List.rdropWhile_last_not p xs _ hlast

/-- No element before the tail satisfies the predicate exactly if all elements after one that does
satisfy it too. -/
theorem forall_rdropWhile_iff_pairwise :
    (∀ x ∈ xs.rdropWhile p, p x = false) ↔ xs.Pairwise fun x y => p x → p y := by
  constructor
  · intro hfront
    have hvacuous : ∀ x ∈ xs.rdropWhile p, ∀ y, p x = true → p y = true := by
      intro x hx y hp
      rw [hfront x hx] at hp
      cases hp
    rw [← List.rdropWhile_append_rtakeWhile (p := p) (l := xs), List.pairwise_append]
    exact ⟨List.pairwise_of_forall_mem_list fun x hx y _ => hvacuous x hx y,
      List.pairwise_of_forall_mem_list fun _ _ y hy _ => List.mem_rtakeWhile_imp hy,
      fun x hx y _ => hvacuous x hx y⟩
  · intro h x hx
    have : Std.Refl fun x y => p x = true → p y = true := ⟨fun _ hp => hp⟩
    have hkept := h.sublist (List.rdropWhile_prefix p xs).sublist
    rw [Bool.eq_false_iff]
    exact fun hp => List.rdropWhile_last_not p xs _ (hkept.rel_getLast hx hp)

theorem countP_not_rdropWhile :
    xs.countP (!p ·) = (xs.rdropWhile p).countP (!p ·) := by
  have htail : (xs.rtakeWhile p).countP (!p ·) = 0 := by
    rw [List.countP_eq_zero]
    intro x hx
    simp [List.mem_rtakeWhile_imp hx]
  conv_lhs => rw [← List.rdropWhile_append_rtakeWhile (p := p) (l := xs)]
  rw [List.countP_append, htail, Nat.add_zero]

end counting

section bounds

variable (s : Signature)

theorem Signature.required_le_needed : s.required ≤ needed s.params := by
  rw [s.required_eq, countP_not_rdropWhile]
  exact List.countP_le_length

theorem Signature.needed_le_accepted : needed s.params ≤ s.accepted := by
  rw [s.accepted_eq]
  exact (List.rdropWhile_prefix _ _).length_le

theorem Signature.required_eq_needed_iff :
    s.required = needed s.params ↔ OptionalsLast s.params := by
  rw [s.required_eq, countP_not_rdropWhile, needed, List.countP_eq_length, OptionalsLast,
    ← forall_rdropWhile_iff_pairwise]
  simp only [Bool.not_eq_true']

end bounds

section binding

variable {parsers : ParserTable} {s : Signature}

theorem viable_iff_needed {params : List Param} {tokens : List String} :
    Viable parsers params tokens ↔
      needed params ≤ tokens.length ∧ tokens.length ≤ (slots params).length ∧
        ∀ x ∈ (slots params).zip tokens, (parsers.tryConvert x.1.type x.2).isSome := by
  rw [needed, length_rdropWhile_le_iff]
  exact ⟨fun h => ⟨h.defaults, h.fits, h.converts⟩, fun h => ⟨h.2.1, h.2.2, h.1⟩⟩

theorem Signature.bind_isSome_iff_needed {tokens : List String} :
    (s.bind parsers tokens).isSome ↔
      needed s.params ≤ tokens.length ∧ tokens.length ≤ s.accepted ∧
        ∀ x ∈ (slots s.params).zip tokens, (parsers.tryConvert x.1.type x.2).isSome := by
  rw [s.bind_isSome_iff, viable_iff_needed, s.accepted_eq]

theorem Signature.Takes.within {n : Nat} (h : s.Takes parsers n) :
    needed s.params ≤ n ∧ n ≤ s.accepted := by
  obtain ⟨tokens, rfl, hbind⟩ := h
  obtain ⟨hneeded, hfits, -⟩ := Signature.bind_isSome_iff_needed.1 hbind
  exact ⟨hneeded, hfits⟩

/-- Where there is a token for each parameter, only their number counts. -/
theorem ParserTable.Supplies.takes_iff (h : parsers.Supplies s.params) (n : Nat) :
    s.Takes parsers n ↔ needed s.params ≤ n ∧ n ≤ s.accepted := by
  refine ⟨Signature.Takes.within, fun ⟨hneeded, hfits⟩ => ?_⟩
  choose! token htoken using h
  have hlength : (((slots s.params).map token).take n).length = n := by
    rw [List.length_take, List.length_map, ← s.accepted_eq, Nat.min_eq_left hfits]
  refine ⟨((slots s.params).map token).take n, hlength, Signature.bind_isSome_iff_needed.2 ?_⟩
  rw [hlength]
  refine ⟨hneeded, hfits, fun x hx => ?_⟩
  obtain ⟨i, hi⟩ := List.mem_iff_getElem?.1 hx
  obtain ⟨hslot, hx⟩ := List.getElem?_zip_eq_some.1 hi
  -- A token goes to the parameter that it was chosen for.
  have hsecond : x.2 = token x.1 := by
    rw [List.getElem?_take] at hx
    split at hx
    · rw [List.getElem?_map, hslot] at hx
      exact (Option.some.inj hx).symm
    · cases hx
  rw [hsecond]
  exact htoken x.1 (List.mem_of_getElem? hslot)

end binding

section supplies

/-- Some value of the type. -/
def ValueType.sample : ValueType → Value
  | .bool => .bool true
  | .int => .int 0
  | .float => .float (.ofRank false 0)
  | .string => .string ""
  | .vec2 => .vec2 (.ofRank false 0) (.ofRank false 0)
  | .vec3 => .vec3 (.ofRank false 0) (.ofRank false 0) (.ofRank false 0)
  | .context => .context
  | .custom name => .custom ⟨name, .flag true, 0⟩

@[simp] theorem ValueType.type_sample (type : ValueType) : type.sample.type = type := by
  cases type <;> rfl

/-- Takes every token for the same value. -/
def ValueParser.constant (type : ValueType) : ValueParser := .ofProbe type fun _ => some type.sample

/-- A host can add parsers for all types that a signature asks for. -/
theorem ParserTable.exists_supplies (params : List Param) :
    ∃ parsers : ParserTable, parsers.Supplies params := by
  let added := (slots params).map fun p => ValueParser.constant p.type
  refine ⟨ParserTable.empty.registerAll added, fun p hp => ⟨"", ?_⟩⟩
  have hcontext : p.type ≠ .context := by
    simpa [Param.isContext] using (List.mem_filter.1 hp).2
  have hfirst : firstFor? p.type added = some (.constant p.type) := by
    have hsome : ((slots params).find? fun q => q.type == p.type).isSome :=
      List.find?_isSome.2 ⟨p, hp, beq_self_eq_true _⟩
    obtain ⟨q, hq⟩ := Option.isSome_iff_exists.1 hsome
    have htype : q.type = p.type :=
      beq_iff_eq.1 (List.find?_some (p := fun q : Param => q.type == p.type) hq)
    rw [firstFor?, if_neg hcontext, List.find?_map, Option.map_eq_some_iff]
    exact ⟨q, hq, by rw [htype]⟩
  have hfind : (ParserTable.empty.registerAll added).find? p.type = some (.constant p.type) := by
    rw [ParserTable.IsStart.find?_registerAll (.inl rfl)]
    exact hfirst
  rw [((ParserTable.convertsBy hfind "").probed p.type.sample).2 ⟨rfl, p.type.type_sample⟩]
  rfl

end supplies

/-- The least number of tokens that a signature tells is right exactly if its parameters with a
default come last. Otherwise the numbers from there up to the last required parameter are told, but
no tokens of such a number can ever be bound; all others up to the greatest one are right. -/
theorem arity_exact_with_optionals_last {α : Type} (s : Signature) :
    (s.required ≤ needed s.params ∧ needed s.params ≤ s.accepted ∧
      s.accepted ≤ s.params.length) ∧
    (∀ parsers tokens, (s.bind parsers tokens).isSome →
      needed s.params ≤ tokens.length ∧ tokens.length ≤ s.accepted) ∧
    ((∀ p ∈ slots s.params, p.type = .string) → ∀ (history : List (Registration α)) tokens,
      needed s.params ≤ tokens.length → tokens.length ≤ s.accepted →
        (s.bind ((Registry.empty .builtin).enterAll history).parsers tokens).isSome) ∧
    (s.required = needed s.params ↔ OptionalsLast s.params) ∧
    (∀ n, (∀ parsers, ¬s.Takes parsers n) ↔ n < needed s.params ∨ s.accepted < n) ∧
    ∀ parsers : ParserTable, parsers.Supplies s.params → ∀ n,
      s.Takes parsers n ↔ needed s.params ≤ n ∧ n ≤ s.accepted := by
  refine ⟨⟨s.required_le_needed, s.needed_le_accepted, List.countP_le_length⟩,
    fun parsers tokens h => Signature.Takes.within ⟨tokens, rfl, h⟩,
    fun hstring history tokens hneeded hfits => ?_, s.required_eq_needed_iff, fun n => ?_,
    fun parsers h => h.takes_iff⟩
  · refine Signature.bind_isSome_iff_needed.2 ⟨hneeded, hfits, fun x hx => ?_⟩
    rw [hstring x.1 (List.of_mem_zip hx).1,
      ((Registry.hasBuiltins_enterAll history).converts_string x.2).1]
    rfl
  · obtain ⟨parsers, hsupplies⟩ := ParserTable.exists_supplies s.params
    constructor
    · intro hnever
      have hcount := hnever parsers
      rw [hsupplies.takes_iff] at hcount
      omega
    · intro hcount parsers htakes
      have hwithin := htakes.within
      omega

/-- A default before a required parameter is of no use, nor is that of the console: one token is
never enough. -/
theorem arity_exact_with_optionals_last_odd :
    let s : Signature := ⟨"odd",
      [.optional "a" .int (.int 1), ⟨"console", .context, some .context⟩, .required "b" .int],
      "", ""⟩
    s.required = 1 ∧ needed s.params = 2 ∧ s.accepted = 2 ∧ (∀ parsers, ¬s.Takes parsers 1) ∧
      s.Takes .builtin 2 ∧ ¬OptionalsLast s.params := by
  intro s
  have hneeded : needed s.params = 2 := by rfl
  have hsupplies : ParserTable.builtin.Supplies s.params := by
    have hint : ∀ p ∈ slots s.params, p.type = .int := by decide
    intro p hp
    refine ⟨"4", ?_⟩
    rw [hint p hp]
    decide
  obtain ⟨-, -, -, hexact, hnever, hsupplied⟩ := @arity_exact_with_optionals_last Unit s
  refine ⟨rfl, hneeded, rfl, (hnever 1).2 ?_, (hsupplied _ hsupplies 2).2 ?_, ?_⟩
  · rw [hneeded]
    exact .inl (by decide)
  · rw [hneeded]
    exact ⟨Nat.le_refl 2, Nat.le_refl 2⟩
  · rw [← hexact, hneeded]
    decide

end CommandConsole
