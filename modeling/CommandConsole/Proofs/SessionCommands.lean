import CommandConsole.Proofs.CleanLines
import CommandConsole.Proofs.CommandNames
set_option autoImplicit false

/-!
The commands of a session. A command without parameters is called by its bare name alone. No
command runs another one or touches the history, and all but the history command answer alike in
every state.
-/

namespace CommandConsole

section registry

variable {α : Type}

theorem Registry.overloads_register {r : Registry α} {o : Overload α}
    (h : isTypeable o.signature.name = true) :
    (r.register o).overloads = r.overloads ++ [o] := by
  rw [register, if_pos h]

theorem Console.overloads_registerAll {os : List (Overload α)}
    (h : ∀ o ∈ os, isTypeable o.signature.name = true) (c : Console α) :
    (c.registerAll os).registry.overloads = c.registry.overloads ++ os := by
  induction os generalizing c with
  | nil => simp [registerAll]
  | cons o os ih =>
    obtain ⟨ho, hos⟩ := List.forall_mem_cons.1 h
    have hregister : (c.register o).registry.overloads = c.registry.overloads ++ [o] :=
      Registry.overloads_register ho
    have hrest := ih hos (c.register o)
    rw [hregister, List.append_assoc, List.singleton_append] at hrest
    exact hrest

theorem Console.config_registerAll (c : Console α) (os : List (Overload α)) :
    (c.registerAll os).config = c.config := by
  induction os generalizing c with
  | nil => rfl
  | cons o os ih => exact ih (c.register o)

theorem Console.inStep_registerAll {c : Console α} (h : c.registry.InStep)
    (os : List (Overload α)) : (c.registerAll os).registry.InStep := by
  induction os generalizing c with
  | nil => exact h
  | cons o os ih => exact ih (h.register o)

/-- The overload chosen for a call is registered under its name and takes its tokens. -/
theorem Registry.chosen_of_resolve {r : Registry α} {name : String} {tokens : List String}
    {res : Resolution α} (h : r.resolve name tokens = .ok res) :
    res.overload ∈ r.overloads ∧ res.overload.signature.name = name ∧
      tokens.length ≤ res.overload.signature.accepted := by
  obtain ⟨i, -, hchosen, hbind, -⟩ := firstViable?_eq_some (resolve_eq_ok_iff.1 h)
  have hmem := List.mem_of_getElem? hchosen
  rw [named, List.mem_filter, beq_iff_eq] at hmem
  refine ⟨hmem.1, hmem.2, ?_⟩
  by_contra hmany
  rw [Signature.bind, if_neg (fun hboth => hmany hboth.2)] at hbind
  cases hbind

theorem Registry.resolve_single {r : Registry α} {o : Overload α} {values : List Value}
    {tokens : List String} (hnamed : r.named o.signature.name = [o])
    (hbind : o.signature.bind r.parsers tokens = some values) :
    r.resolve o.signature.name tokens = .ok ⟨o, 0, values⟩ := by
  rw [resolve_eq_ok_iff, hnamed, firstViable?, hbind]

theorem Registry.resolve_single_of_none {r : Registry α} {o : Overload α} {tokens : List String}
    (hnamed : r.named o.signature.name = [o])
    (hbind : o.signature.bind r.parsers tokens = none) :
    r.resolve o.signature.name tokens = .error (.noMatchingOverload o.signature.name) := by
  rw [resolve_eq_noMatching_iff, viableIndices_eq_empty_iff, hnamed]
  simpa using (Signature.bind_eq_none_iff _ _ _).1 hbind

end registry

theorem isTypeable_commands :
    ∀ o ∈ (builtinCommands ++ sessionCommands : List SessionCommand),
      isTypeable o.signature.name = true := by
  decide +kernel

theorem overloads_sessionConsole (config : Config) :
    (sessionConsole config).registry.overloads = builtinCommands ++ sessionCommands := by
  obtain ⟨hbuiltin, hsession⟩ := List.forall_mem_append.1 isTypeable_commands
  rw [sessionConsole, Console.overloads_registerAll hsession]
  exact congrArg (· ++ sessionCommands) (Console.overloads_registerAll hbuiltin (.new config))

theorem config_sessionConsole (config : Config) : (sessionConsole config).config = config := by
  rw [sessionConsole, Console.config_registerAll]
  exact Console.config_registerAll _ _

theorem inStep_sessionConsole (config : Config) : (sessionConsole config).registry.InStep := by
  have hbuiltin : (Console.new (α := Handler SessionState) config).registerBuiltins.registry.InStep :=
    Console.inStep_registerAll (.empty .builtin) _
  exact Console.inStep_registerAll (hbuiltin.registerParser colorParser) _

/-- A line that is recorded and submitted once it is cleaned: it is not blank and asks for no
suggestions. -/
def isSubmitted (cleaned : String) : Bool :=
  cleaned.toList != [] && cleaned.toList.head? != some '?'

/-- The line is a call that the command answers. -/
def Console.Invokes (c : Console (Handler SessionState)) (line : String) (o : SessionCommand) :
    Prop :=
  isSubmitted (cleanLine c.config line) = true ∧ ∃ l r,
    CommandLine.read? (cleanLine c.config line) = some l ∧
      c.registry.resolve l.name l.arguments = .ok r ∧ r.overload = o

/-- A command that takes no tokens and shares its name with no other is called by its bare name and
by nothing else. -/
theorem Console.invokes_iff {c : Console (Handler SessionState)} {o : SessionCommand}
    {values : List Value} (hnamed : c.registry.named o.signature.name = [o])
    (haccepted : o.signature.accepted = 0)
    (hbind : o.signature.bind c.registry.parsers [] = some values)
    (htypeable : isTypeable o.signature.name = true)
    (hsubmitted : isSubmitted o.signature.name = true) (line : String) :
    c.Invokes line o ↔ cleanLine c.config line = o.signature.name := by
  constructor
  · intro h
    obtain ⟨-, l, r, hread, hresolve, rfl⟩ := h
    obtain ⟨-, hname, hlength⟩ := Registry.chosen_of_resolve hresolve
    rw [haccepted, Nat.le_zero_eq, List.length_eq_zero_iff] at hlength
    have hbare : CommandLine.read? (cleanLine c.config line) = some ⟨l.name, []⟩ := by
      rw [hread, ← hlength]
    rw [hname, ← trimmed_eq_name hbare, trimmed_cleanLine]
  · intro h
    refine ⟨h ▸ hsubmitted, ⟨o.signature.name, []⟩, ⟨o, 0, values⟩, ?_, ?_, rfl⟩
    · rw [h]
      exact read?_name htypeable
    · exact Registry.resolve_single hnamed hbind

theorem named_history (config : Config) :
    (sessionConsole config).registry.named "history" = [historyCommand] := by
  rw [Registry.named, overloads_sessionConsole]
  rfl

theorem named_quit (config : Config) :
    (sessionConsole config).registry.named "quit" = [quitCommand] := by
  rw [Registry.named, overloads_sessionConsole]
  rfl

theorem invokes_history_iff (config : Config) (line : String) :
    (sessionConsole config).Invokes line historyCommand ↔ cleanLine config line = "history" := by
  have hbind : historyCommand.signature.bind (sessionConsole config).registry.parsers [] =
      some [.context] := rfl
  have h := Console.invokes_iff (o := historyCommand) (named_history config) rfl hbind
    (by decide +kernel) (by decide +kernel) line
  rwa [config_sessionConsole] at h

theorem invokes_quit_iff (config : Config) (line : String) :
    (sessionConsole config).Invokes line quitCommand ↔ cleanLine config line = "quit" := by
  have hbind : quitCommand.signature.bind (sessionConsole config).registry.parsers [] = some [] :=
    rfl
  have h := Console.invokes_iff (o := quitCommand) (named_quit config) rfl hbind
    (by decide +kernel) (by decide +kernel) line
  rwa [config_sessionConsole] at h

end CommandConsole
