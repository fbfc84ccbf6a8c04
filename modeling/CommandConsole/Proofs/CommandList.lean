import CommandConsole.Proofs.BuiltinCommands
import CommandConsole.Proofs.Fields
set_option autoImplicit false

/-!
The list of commands as text. No name holds a line feed, so the one message that the list command
shows can be taken apart again, and its lines are the registered names.
-/

namespace CommandConsole

section names

variable {α : Type} {r : Registry α}

theorem mem_commandsNamed {name : String} {history : List (Registration α)} {o : Overload α} :
    o ∈ commandsNamed name history ↔ .command o ∈ history ∧ o.signature.name = name := by
  rw [commandsNamed, List.mem_filterMap]
  constructor
  · intro h
    obtain ⟨x, hx, hfound⟩ := h
    cases x with
    | command o' => grind
    | parser p => simp at hfound
  · intro h
    exact ⟨.command o, h.1, by simp [h.2]⟩

/-- A name that can be typed is a key of the registry from the first command of that name on. -/
theorem Registry.mem_keys_enterAll (parsers : ParserTable) (history : List (Registration α))
    (name : String) :
    name ∈ ((Registry.empty parsers).enterAll history).keys ↔
      isTypeable name = true ∧ ∃ o, .command o ∈ history ∧ o.signature.name = name := by
  rw [mem_keys, named_enterAll, named_empty, List.nil_append, registeredUnder_eq]
  by_cases htypeable : isTypeable name = true
  · rw [if_pos htypeable, and_iff_right htypeable, ne_eq, List.eq_nil_iff_forall_not_mem]
    simp [mem_commandsNamed]
  · simp [htypeable]

theorem Registry.InStep.newline_not_mem (h : r.InStep) {name : String} (hname : name ∈ r.keys) :
    '\n' ∉ name.toList := by
  intro hmem
  have hblank := (isTypeable_iff.1 (h.typeable name hname)).2 _ hmem
  exact absurd hblank (by decide)

end names

section console

variable {σ : Type} (config : Config) (history : List (Registration (Handler σ)))

theorem inStep_builtinThen : (Console.builtinThen config history).registry.InStep := by
  rw [registry_builtinThen]
  exact (Registry.InStep.empty .builtin).enterAll _

theorem named_list :
    (Console.builtinThen config history).registry.named "list" =
      listCommands :: registeredUnder "list" history :=
  named_builtinThen_eq config history (by decide +kernel)

/-- Later overloads of the command do not take it over, since it takes no token. -/
theorem shows_list :
    (Console.builtinThen config history).Shows "list" "list" 0
      (.message, joinStrings '\n' (Console.builtinThen config history).names) := by
  have hread : CommandLine.read? "list" = some ⟨"list", []⟩ := by decide +kernel
  have hbind : (listCommands (σ := σ)).signature.bind
      (Console.builtinThen config history).registry.parsers [] = some [.context] := rfl
  have hresolve := Registry.resolve_first (named_list config history) hbind
  exact Console.shows_of_resolve hread hresolve fun _ _ _ => rfl

end console

/-- Whatever was registered since, the list command shows one message, and its lines are the
registered names, each once and in increasing order. -/
theorem listing_is_lossless {σ : Type} (config : Config)
    (history : List (Registration (Handler σ))) :
    let c := Console.builtinThen config history
    ∃ text, c.Shows "list" "list" 0 (.message, text) ∧
      (splitFields '\n' text.toList).map String.ofList = c.names ∧
      c.names.Pairwise (· < ·) ∧
      ∀ name, name ∈ c.names ↔
        isTypeable name = true ∧
          ∃ o, .command o ∈ builtinsThen history ∧ o.signature.name = name := by
  intro c
  have hstep : c.registry.InStep := inStep_builtinThen config history
  have hkeys : ∀ name, name ∈ c.names ↔
      isTypeable name = true ∧
        ∃ o, .command o ∈ builtinsThen history ∧ o.signature.name = name := by
    intro name
    rw [Console.names, hstep.mem_words, registry_builtinThen, Registry.mem_keys_enterAll]
  have hlist : "list" ∈ c.names := by
    refine (hkeys "list").2 ⟨by decide +kernel, listCommands, ?_, rfl⟩
    simp [builtinsThen, builtinCommands]
  have hsplit : splitFields '\n' (joinStrings '\n' c.names).toList = c.names.map String.toList := by
    apply splitFields_joinStrings (List.ne_nil_of_mem hlist)
    intro name hname
    exact hstep.newline_not_mem (hstep.mem_words.1 hname)
  refine ⟨_, shows_list config history, ?_, hstep.holds.words_pairwise, hkeys⟩
  rw [hsplit, List.map_map]
  simp [Function.comp_def]

end CommandConsole
