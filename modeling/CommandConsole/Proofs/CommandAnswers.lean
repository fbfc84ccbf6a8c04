import CommandConsole.Proofs.SessionCommands
set_option autoImplicit false

/-!
What the commands of a session answer. No command runs another one, so a submission always has an
outcome. None touches the history, and its answer depends on the history for the history command
alone; only the quit command ends the session, and only the clear command, which shows no lines,
writes on the terminal by itself.
-/

namespace CommandConsole

/-- A script that looks at the console and shows lines, and does nothing else. -/
inductive Script.Stateless {σ α : Type} : Script σ α → Prop where
  | done (a : α) : Stateless (.done a)
  | fail (e : ConsoleError) : Stateless (.fail e)
  | log {severity : Severity} {text : String} {next : Script σ α} :
    next.Stateless → Stateless (.log severity text next)
  | consult {next : Console Unit → Script σ α} :
    (∀ c, (next c).Stateless) → Stateless (.consult next)

namespace Script.Stateless

variable {σ α β : Type}

theorem say (severity : Severity) (text : String) :
    (Script.say (σ := σ) severity text).Stateless :=
  .log (.done ())

theorem console_bind {f : Console Unit → Script σ β} (h : ∀ c, (f c).Stateless) :
    (Script.console >>= f).Stateless :=
  .consult h

theorem ofExcept_bind {f : α → Script σ β} (x : Except ConsoleError α)
    (h : ∀ a, (f a).Stateless) : (Script.ofExcept x >>= f).Stateless := by
  cases x with
  | ok a => exact h a
  | error e => exact .fail e

/-- It ends in the same way in every state and leaves the state as it is. -/
theorem run_eq {x : Script σ α} (h : x.Stateless) (view : Console Unit)
    (submit : String → σ → Option (Outcome σ Submission))
    (execute : String → List String → σ → Option (Outcome σ Nat)) :
    ∃ result events, ∀ s, x.run view submit execute s = some ⟨result, s, events⟩ := by
  induction h with
  | done a => exact ⟨.ok a, [], fun _ => rfl⟩
  | fail e => exact ⟨.error e, [], fun _ => rfl⟩
  | @log severity text next _ ih =>
    obtain ⟨result, events, hrun⟩ := ih
    refine ⟨result, .line severity text :: events, fun s => ?_⟩
    rw [Script.run, hrun]
    rfl
  | consult _ ih => exact ih view

end Script.Stateless

section stateless

variable {σ : Type}

theorem stateless_showHelp (name : String) : (showHelp (σ := σ) name).Stateless := by
  refine .console_bind fun c => ?_
  cases c.helpText? name with
  | none => exact .say _ _
  | some text => exact .say _ _

theorem stateless_logCommand (name description : String) (severity : Severity)
    (call : Invocation) :
    ((logCommand (σ := σ) name description severity).action call).Stateless :=
  .ofExcept_bind _ fun _ => .say _ _

theorem stateless_builtin {o : Overload (Handler σ)} (ho : o ∈ builtinCommands)
    (call : Invocation) : (o.action call).Stateless := by
  simp only [builtinCommands, List.mem_cons, List.not_mem_nil, or_false] at ho
  rcases ho with rfl | rfl | rfl | rfl | rfl | rfl
  · exact .ofExcept_bind _ fun name => stateless_showHelp name
  · exact stateless_showHelp "help"
  · exact .console_bind fun c => .say _ _
  · exact stateless_logCommand _ _ _ call
  · exact stateless_logCommand _ _ _ call
  · exact stateless_logCommand _ _ _ call

theorem stateless_addCommand (call : Invocation) : (addCommand.action call).Stateless := by
  refine .ofExcept_bind _ fun a => .ofExcept_bind _ fun b => ?_
  cases addInt64? a b with
  | none => exact .fail _
  | some sum => exact .say _ _

end stateless

/-- What a command leaves of a state: it keeps the history and goes on unless it quits, and what it
has written by itself depends on nothing but the kind of the output. -/
structure SessionState.Follows (s : SessionState) (quits : Prop) (drawn : Bool → String)
    (t : SessionState) : Prop where
  history_eq : t.history = s.history
  running_iff : t.running = true ↔ s.running = true ∧ ¬quits
  terminal_eq : t.transcript.terminal = s.transcript.terminal
  written_eq : t.transcript.written = s.transcript.written ++ drawn s.transcript.terminal

theorem SessionState.follows_self (s : SessionState) {quits : Prop} (hquits : ¬quits) :
    s.Follows quits (fun _ => "") s where
  history_eq := rfl
  running_iff := (and_iff_left hquits).symm
  terminal_eq := rfl
  written_eq := String.append_empty.symm

/-- A run in states with a property: it ends in the same way in all of them, emits the same and
leaves states that follow them in the same way. -/
def AnswersAlike {α : Type} (P : SessionState → Prop) (quits : Prop)
    (run : SessionState → Option (Outcome SessionState α)) : Prop :=
  ∃ result events drawn, ∀ s, P s → ∃ t, run s = some ⟨result, t, events⟩ ∧
    s.Follows quits drawn t

namespace AnswersAlike

variable {α β : Type} {P : SessionState → Prop} {quits : Prop}
  {run : SessionState → Option (Outcome SessionState α)}

theorem mono {P' : SessionState → Prop} {quits' : Prop} (h : AnswersAlike P quits run)
    (hP : ∀ s, P' s → P s) (hquits : quits ↔ quits') : AnswersAlike P' quits' run := by
  obtain ⟨result, events, drawn, hrun⟩ := h
  refine ⟨result, events, drawn, fun s hs => ?_⟩
  rw [← propext hquits]
  exact hrun s (hP s hs)

theorem congr {run' : SessionState → Option (Outcome SessionState α)}
    (h : AnswersAlike P quits run) (heq : ∀ s, run' s = run s) : AnswersAlike P quits run' := by
  rwa [funext heq]

/-- The result and the events may be rewritten, each by both. -/
theorem map (h : AnswersAlike P quits run)
    (f : Except ConsoleError α → List Event → Except ConsoleError β × List Event) :
    AnswersAlike P quits fun s =>
      (run s).map fun o => ⟨(f o.result o.events).1, o.state, (f o.result o.events).2⟩ := by
  obtain ⟨result, events, drawn, hrun⟩ := h
  refine ⟨(f result events).1, (f result events).2, drawn, fun s hs => ?_⟩
  obtain ⟨t, ht, hfollows⟩ := hrun s hs
  exact ⟨t, congrArg (Option.map _) ht, hfollows⟩

theorem of_state_eq {result : Except ConsoleError α} {events : List Event} (hquits : ¬quits)
    (h : ∀ s, run s = some ⟨result, s, events⟩) : AnswersAlike P quits run :=
  ⟨result, events, fun _ => "", fun s _ => ⟨s, h s, s.follows_self hquits⟩⟩

end AnswersAlike

/-- The history command needs to know the history and the quit command ends the session; all others
answer by themselves. -/
theorem answersAlike_command {o : SessionCommand} (ho : o ∈ builtinCommands ++ sessionCommands)
    (call : Invocation) (h : History) (view : Console Unit)
    (submit : String → SessionState → Option (Outcome SessionState Submission))
    (execute : String → List String → SessionState → Option (Outcome SessionState Nat)) :
    AnswersAlike (fun s => o.signature.name = "history" → s.history = h)
      (o.signature.name = "quit") ((o.action call).run view submit execute) := by
  have hstateless : o.signature.name ≠ "quit" → (o.action call).Stateless →
      AnswersAlike (fun s => o.signature.name = "history" → s.history = h)
        (o.signature.name = "quit") ((o.action call).run view submit execute) := by
    intro hname hx
    obtain ⟨result, events, hrun⟩ := hx.run_eq view submit execute
    exact .of_state_eq hname hrun
  rcases List.mem_append.1 ho with ho | ho
  · refine hstateless ?_ (stateless_builtin ho call)
    simp only [builtinCommands, List.mem_cons, List.not_mem_nil, or_false] at ho
    rcases ho with rfl | rfl | rfl | rfl | rfl | rfl <;> decide
  · simp only [sessionCommands, List.mem_cons, List.not_mem_nil, or_false] at ho
    rcases ho with rfl | rfl | rfl | rfl | rfl | rfl | rfl | rfl
    · refine ⟨.ok (), [], fun terminal => if terminal then screenClear else "", fun s _ => ?_⟩
      exact ⟨{ s with transcript := s.transcript.clear }, rfl, rfl, by simp [clearCommand], rfl, rfl⟩
    · refine ⟨.ok (), [.line .message (historyText h)], fun _ => "", fun s hs => ⟨s, ?_, ?_⟩⟩
      · rw [← hs rfl]
        rfl
      · exact s.follows_self (by decide)
    · refine ⟨.ok (), [], fun _ => "", fun s _ => ⟨{ s with running := false }, rfl, ?_⟩⟩
      exact ⟨rfl, by simp [quitCommand], rfl, String.append_empty.symm⟩
    · exact hstateless (by decide) (stateless_addCommand call)
    · exact hstateless (by decide) (.ofExcept_bind _ fun _ => .say _ _)
    · exact hstateless (by decide) (.ofExcept_bind _ fun _ => .say _ _)
    · exact hstateless (by decide) (.ofExcept_bind _ fun _ => .ofExcept_bind _ fun _ => .say _ _)
    · exact hstateless (by decide) (.ofExcept_bind _ fun _ => .say _ _)

section submission

variable {config : Config} {line : String}

/-- A call is answered by an overload named like a bare command only if the line is that name. -/
theorem overload_name_iff {o : SessionCommand} {l : CommandLine}
    {r : Resolution (Handler SessionState)}
    (hnamed : (sessionConsole config).registry.named o.signature.name = [o])
    (hinvokes : (sessionConsole config).Invokes line o ↔
      cleanLine config line = o.signature.name)
    (hsubmitted : isSubmitted (cleanLine config line) = true)
    (hread : CommandLine.read? (cleanLine config line) = some l)
    (hresolve : (sessionConsole config).registry.resolve l.name l.arguments = .ok r) :
    r.overload.signature.name = o.signature.name ↔ cleanLine config line = o.signature.name := by
  rw [← hinvokes]
  rw [← config_sessionConsole config] at hsubmitted hread
  constructor
  · intro hname
    have hmem : r.overload ∈ (sessionConsole config).registry.named o.signature.name :=
      List.mem_filter.2 ⟨(Registry.chosen_of_resolve hresolve).1, beq_iff_eq.2 hname⟩
    rw [hnamed, List.mem_singleton] at hmem
    exact ⟨hsubmitted, l, r, hread, hresolve, hmem⟩
  · intro h
    obtain ⟨-, l', r', hread', hresolve', rfl⟩ := h
    rw [hread, Option.some.injEq] at hread'
    subst hread'
    rw [hresolve, Except.ok.injEq] at hresolve'
    rw [hresolve']

/-- Executing the call of a line answers alike in all states, but for the history where it is asked
for. -/
theorem answersAlike_execute {l : CommandLine}
    (hsubmitted : isSubmitted (cleanLine config line) = true)
    (hread : CommandLine.read? (cleanLine config line) = some l) (h : History) :
    AnswersAlike (fun s => cleanLine config line = "history" → s.history = h)
      (cleanLine config line = "quit")
      ((sessionConsole config).execute 1 l.name l.arguments) := by
  cases hresolve : (sessionConsole config).registry.resolve l.name l.arguments with
  | error e =>
    have hquits : cleanLine config line ≠ "quit" := by
      intro hquit
      obtain ⟨-, l', r, hread', hok, -⟩ := (invokes_quit_iff config line).2 hquit
      rw [config_sessionConsole, hread, Option.some.injEq] at hread'
      rw [← hread', hresolve] at hok
      cases hok
    exact .of_state_eq hquits fun s => Console.execute_of_error _ hresolve 1 s
  | ok r =>
    have hmem := (Registry.chosen_of_resolve hresolve).1
    rw [overloads_sessionConsole] at hmem
    have hhistory := overload_name_iff (o := historyCommand) (named_history config)
      (invokes_history_iff config line) hsubmitted hread hresolve
    have hquit := overload_name_iff (o := quitCommand) (named_quit config)
      (invokes_quit_iff config line) hsubmitted hread hresolve
    have hrun : AnswersAlike (fun s => cleanLine config line = "history" → s.history = h)
        (cleanLine config line = "quit") ((sessionConsole config).runHandler 0 l.name r) :=
      (answersAlike_command hmem ⟨l.name, r.arguments⟩ h _ _ _).mono
        (fun s hs hname => hs (hhistory.1 hname)) hquit
    have hmap := hrun.map fun result events =>
      (handled l.name r.index result, (sessionConsole config).notes l.name l.arguments ++ events)
    refine hmap.congr fun s => ?_
    rw [Console.execute_succ _ hresolve]

/-- A submission answers alike in all states, but for the history where it is asked for. -/
theorem answersAlike_submit (hsubmitted : isSubmitted (cleanLine config line) = true)
    (h : History) :
    AnswersAlike (fun s => cleanLine config line = "history" → s.history = h)
      (cleanLine config line = "quit")
      ((sessionConsole config).submit 1 (cleanLine config line)) := by
  cases hread : CommandLine.read? (cleanLine config line) with
  | none =>
    have hquits : cleanLine config line ≠ "quit" := by
      intro hquit
      rw [hquit, read?_name (by decide +kernel)] at hread
      cases hread
    have hblank : ∀ s, (sessionConsole config).submit 1 (cleanLine config line) s =
        some ⟨.ok .noOp, s, []⟩ := by
      intro s
      rw [Console.submit, submitBy, hread]
    exact .of_state_eq hquits hblank
  | some l =>
    have hmap := (answersAlike_execute hsubmitted hread h).map
      (submitted (cleanLine config line) l)
    exact hmap.congr (Console.submit_eq_map _ hread 1)

end submission

/-- The history command shows the history that it finds. -/
theorem submit_history (config : Config) (s : SessionState) :
    ∃ o, (sessionConsole config).submit 1 "history" s = some o ∧ o.state = s ∧
      hostLines o.events = [(.message, historyText s.history)] := by
  have hbind : historyCommand.signature.bind (sessionConsole config).registry.parsers [] =
      some [.context] := rfl
  have hresolve : (sessionConsole config).registry.resolve "history" [] =
      .ok ⟨historyCommand, 0, [.context]⟩ :=
    Registry.resolve_single (o := historyCommand) (named_history config) hbind
  have hrun : (sessionConsole config).runHandler 0 "history" ⟨historyCommand, 0, [.context]⟩ s =
      some ⟨.ok (), s, [.line .message (historyText s.history)]⟩ := rfl
  have hread : CommandLine.read? "history" = some ⟨"history", []⟩ := read?_name (by decide +kernel)
  have hsubmit := (sessionConsole config).submit_eq_map hread 1 s
  rw [Console.execute_succ _ hresolve, hrun] at hsubmit
  refine ⟨_, hsubmit, rfl, ?_⟩
  simp only [submitted, handled, hostLines_append, hostLines_diagnostics, Console.notes,
    List.nil_append]
  rfl

end CommandConsole
