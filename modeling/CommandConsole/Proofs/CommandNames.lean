import CommandConsole.Builtins
import CommandConsole.Proofs.Resolution
import CommandConsole.Proofs.Running
import CommandConsole.Proofs.WordSet
import Mathlib.Tactic.TFAE
set_option autoImplicit false

/-!
The names that are suggested and the names that can be called. A registry keeps them apart, and
they are the same names after any registrations and submissions.
-/

namespace CommandConsole

theorem nodup_eraseDups (xs : List String) : xs.eraseDups.Nodup := by
  induction xs using List.reverseRecOn with
  | nil => exact .nil
  | append_singleton xs a ih =>
    rw [List.eraseDups_append, List.nodup_append]
    by_cases ha : a ∈ xs
    · simp [List.removeAll, ha, ih]
    · have hlast : ([a].removeAll xs).eraseDups = [a] := by
        simp [List.removeAll, ha, List.eraseDups_cons]
      rw [hlast]
      refine ⟨ih, List.nodup_singleton a, ?_⟩
      intro b hb d hd hbd
      rw [List.mem_singleton.1 hd] at hbd
      exact ha (List.mem_eraseDups.1 (hbd ▸ hb))

section registry

variable {α : Type} {r : Registry α}

theorem Registry.mem_keys {name : String} : name ∈ r.keys ↔ r.named name ≠ [] := by
  rw [keys, List.mem_eraseDups, List.mem_map, named, ne_eq, List.filter_eq_nil_iff]
  simp

theorem Registry.mem_keys_register {o : Overload α} {name : String} :
    name ∈ (r.register o).keys ↔
      name ∈ r.keys ∨ isTypeable o.signature.name = true ∧ o.signature.name = name := by
  rw [mem_keys, mem_keys, named_register, ne_eq, List.append_eq_nil_iff, not_and_or]
  by_cases h : isTypeable o.signature.name = true ∧ o.signature.name = name <;> simp [h]

/-- The set of names and the overloads tell of the same names, and all of these can be typed. -/
structure Registry.InStep (r : Registry α) : Prop where
  holds : r.names.Holds r.keys.toFinset
  typeable : ∀ name ∈ r.keys, isTypeable name = true

namespace Registry.InStep

theorem empty (parsers : ParserTable) : (Registry.empty (α := α) parsers).InStep where
  holds := Trie.holds_empty
  typeable := by simp [Registry.empty, keys]

theorem register (h : r.InStep) (o : Overload α) : (r.register o).InStep := by
  by_cases ht : isTypeable o.signature.name = true
  · have hkeys : (r.register o).keys.toFinset = insert o.signature.name r.keys.toFinset := by
      ext name
      rw [List.mem_toFinset, mem_keys_register, Finset.mem_insert, List.mem_toFinset, or_comm,
        and_iff_right ht, eq_comm]
    have hnames : (r.register o).names = (r.names.insert o.signature.name).1 := by
      rw [Registry.register, if_pos ht]
    have hinsert := (h.holds.insert o.signature.name).1
    rw [if_neg (isTypeable_iff.1 ht).1, ← hnames, ← hkeys] at hinsert
    refine ⟨hinsert, ?_⟩
    intro name hname
    rcases mem_keys_register.1 hname with hold | ⟨-, rfl⟩
    · exact h.typeable name hold
    · exact ht
  · have hself : r.register o = r := by rw [Registry.register, if_neg ht]
    rwa [hself]

theorem registerParser (h : r.InStep) (p : ValueParser) : (r.registerParser p).1.InStep :=
  ⟨h.holds, h.typeable⟩

theorem size_eq (h : r.InStep) : r.size = r.names.size := by
  rw [h.holds.size_eq]
  exact (List.toFinset_card_of_nodup (nodup_eraseDups _)).symm

theorem mem_words (h : r.InStep) {name : String} : name ∈ r.names.words ↔ name ∈ r.keys := by
  rw [h.holds.mem_words, List.mem_toFinset]

end Registry.InStep

theorem Registry.contains_iff {name : String} : r.contains name = true ↔ name ∈ r.keys := by
  simp [contains, mem_keys]

theorem Registry.overloads?_iff {name : String} :
    (∃ os, r.overloads? name = some os ∧ os ≠ [] ∧ ∀ o ∈ os, o.signature.name = name) ↔
      name ∈ r.keys := by
  constructor
  · intro h
    obtain ⟨os, hos, -⟩ := h
    by_contra hnot
    simp [overloads?, mt contains_iff.1 hnot] at hos
  · intro h
    refine ⟨r.named name, by rw [overloads?, if_pos (contains_iff.2 h)], mem_keys.1 h, ?_⟩
    intro o ho
    simpa using (List.mem_filter.1 ho).2

theorem Registry.resolve_ne_unknown_iff {name : String} {tokens : List String} :
    (∀ m, r.resolve name tokens ≠ .error (.unknownCommand m)) ↔ name ∈ r.keys := by
  rw [mem_keys]
  rcases r.resolve_cases name tokens with ⟨hn, he⟩ | ⟨hn, -, he⟩ | ⟨res, hf, he⟩
  · simp [he, hn]
  · simp [he, hn]
  · have hn : r.named name ≠ [] := by
      intro hn
      simp [hn, firstViable?] at hf
    simp [he, hn]

end registry

/-- The consoles in use, each with a state of its host: a new one, and what registrations,
submissions and executions leave behind, in any order and whether they succeed or fail. -/
inductive Reached {σ : Type} : Console (Handler σ) → σ → Prop where
  | new (config : Config) (s : σ) : Reached (.new config) s
  | register {c : Console (Handler σ)} {s : σ} (o : Overload (Handler σ)) :
    Reached c s → Reached (c.register o) s
  | registerParser {c : Console (Handler σ)} {s : σ} (p : ValueParser) :
    Reached c s → Reached (c.registerParser p).1 s
  | submit {c : Console (Handler σ)} {s : σ} {depth : Nat} {line : String}
    {o : Outcome σ Submission} :
    Reached c s → c.submit depth line s = some o → Reached c o.state
  | execute {c : Console (Handler σ)} {s : σ} {depth : Nat} {name : String}
    {tokens : List String} {o : Outcome σ Nat} :
    Reached c s → c.execute depth name tokens s = some o → Reached c o.state

section console

variable {σ : Type} {c : Console (Handler σ)} {s : σ}

theorem Reached.inStep (h : Reached c s) : c.registry.InStep := by
  induction h with
  | new config s => exact .empty .builtin
  | register o _ ih => exact ih.register o
  | registerParser p _ ih => exact ih.registerParser p
  | submit _ _ ih => exact ih
  | execute _ _ ih => exact ih

/-- A line that begins with a name and a space is a call of that name. -/
theorem read?_name_space {name : String} (h : isTypeable name = true) (text : String) :
    ∃ args, CommandLine.read? (name ++ " " ++ text) = some ⟨name, args⟩ := by
  obtain ⟨hne, hname⟩ := isTypeable_iff.1 h
  have hshape : LineShape (name ++ " " ++ text).toList [] name.toList (' ' :: text.toList) := by
    refine ⟨by simp [String.toList_append], by simp, mt String.toList_eq_nil_iff.1 hne, hname, ?_⟩
    intro c hc
    rw [List.head?_cons, Option.some.injEq] at hc
    subst hc
    decide
  exact ⟨_, by rw [hshape.read?, String.ofList_toList]⟩

theorem Registry.InStep.submit_ne_unknown (h : c.registry.InStep) {name : String}
    (hname : name ∈ c.registry.keys) (text : String) {depth : Nat} {o : Outcome σ Submission}
    (ho : c.submit depth (name ++ " " ++ text) s = some o) (m : String) :
    o.result ≠ .error (.unknownCommand m) := by
  obtain ⟨args, hread⟩ := read?_name_space (h.typeable name hname) text
  intro he
  have hrel := submit_reports c hread depth s
  rw [ho] at hrel
  cases hexec : c.execute depth name args s with
  | none => rw [hexec] at hrel; cases hrel
  | some executed =>
    rw [hexec] at hrel
    cases hrel with
    | some hreports =>
      have herror := (hreports.error_iff _).1 he
      have hresolve := c.resolve_of_execute_error hexec herror (by simp)
      exact Registry.resolve_ne_unknown_iff.2 hname m hresolve

/-- Whatever was registered and submitted, the names listed are those that have overloads and that a
call knows, and all of them can be typed. A suggested name begins with the text asked for and is
known with any text behind it, and every name is suggested for what it begins with. -/
theorem names_agree_with_calls (h : Reached c s) :
    (c.names.Pairwise (· < ·) ∧ (∀ n, n ∈ c.names ↔ n ∈ c.registry.keys) ∧
      c.registry.size = c.names.length) ∧
    (∀ n tokens, List.TFAE
      [n ∈ c.names,
       c.registry.contains n = true,
       ∃ os, c.registry.overloads? n = some os ∧ os ≠ [] ∧ ∀ o ∈ os, o.signature.name = n,
       ∀ m, c.registry.resolve n tokens ≠ .error (.unknownCommand m)]) ∧
    (∀ n ∈ c.names, n ≠ "" ∧ ∀ ch ∈ n.toList, isBlank ch = false) ∧
    (∀ start, ∀ n ∈ c.suggest start, start.toList <+: n.toList ∧
      ∀ text depth t o, c.submit depth (n ++ " " ++ text) t = some o →
        ∀ m, o.result ≠ .error (.unknownCommand m)) ∧
    ∀ n ∈ c.names,
      (∀ start, start ≠ "" → start ≠ n → start.toList <+: n.toList → n ∈ c.suggest start) ∧
      (n ∈ c.suggest n ↔ c.config.includeExactSuggestion = true) := by
  have hstep := h.inStep
  have hkeys : ∀ n, n ∈ c.names ↔ n ∈ c.registry.keys := fun n => hstep.mem_words
  have hsuggest : ∀ start n, n ∈ c.suggest start ↔ start ≠ "" ∧ n ∈ c.registry.keys ∧
      start.toList <+: n.toList ∧ (n = start → c.config.includeExactSuggestion = true) := by
    intro start n
    rw [Console.suggest, hstep.holds.mem_suggest, List.mem_toFinset]
  refine ⟨⟨hstep.holds.words_pairwise, hkeys, ?_⟩, ?_, ?_, ?_, ?_⟩
  · rw [hstep.size_eq, Console.names, hstep.holds.length_words]
  · intro n tokens
    rw [hkeys, Registry.contains_iff, Registry.overloads?_iff, Registry.resolve_ne_unknown_iff]
    tfae_finish
  · intro n hn
    exact isTypeable_iff.1 (hstep.typeable n ((hkeys n).1 hn))
  · intro start n hn
    obtain ⟨-, hkey, hstart, -⟩ := (hsuggest start n).1 hn
    refine ⟨hstart, ?_⟩
    intro text depth t o ho
    exact hstep.submit_ne_unknown hkey text ho
  · intro n hn
    have hkey := (hkeys n).1 hn
    have hne := (isTypeable_iff.1 (hstep.typeable n hkey)).1
    constructor
    · intro start hstart hdiff hprefix
      exact (hsuggest start n).2 ⟨hstart, hkey, hprefix, fun heq => (hdiff heq.symm).elim⟩
    · rw [hsuggest]
      simp [hne, hkey]

end console

/-- A console with a command whose name was skipped, after a failed call of its beginning. -/
theorem names_agree_with_calls_skipped :
    let skipped : Overload (Handler Unit) := ⟨⟨"my list", [], "", ""⟩, fun _ => .done ()⟩
    let c := ((Console.new .default).register listCommands).register skipped
    Reached c () ∧ (c.names.Pairwise (· < ·) ∧ c.registry.size = c.names.length) ∧
      (∀ tokens m, c.registry.resolve "list" tokens ≠ .error (.unknownCommand m)) ∧
      "list" ∈ c.suggest "li" := by
  intro skipped c
  have hnew : Reached c () := .register skipped (.register listCommands (.new .default ()))
  have hunknown : c.registry.resolve "my" ["list"] = .error (.unknownCommand "my") :=
    Registry.resolve_eq_unknown_iff.2 (by decide +kernel)
  have hreached : Reached c () := .execute hnew (c.execute_of_error hunknown 0 ())
  have hlist : "list" ∈ c.names := by decide +kernel
  obtain ⟨⟨horder, -, hsize⟩, hequiv, -, -, hfound⟩ := names_agree_with_calls hreached
  refine ⟨hreached, ⟨horder, hsize⟩, ?_, ?_⟩
  · intro tokens
    exact ((hequiv "list" tokens).out 0 3).1 hlist
  · exact (hfound "list" hlist).1 "li" (by decide) (by decide) (by decide)

end CommandConsole
