import CommandConsole.Dispatch
import CommandConsole.Proofs.Lines
import CommandConsole.Proofs.Quoting
set_option autoImplicit false

/-!
Calls and the lines that type them. Every call can be typed, and to submit its line is to execute
the call and to report its error. The names that can be registered are those of such lines.
-/

namespace CommandConsole

/-- A call as it is typed: the name, then every argument after a space, quoted if it has to be. -/
def typedLine (name : String) (args : List String) : String :=
  args.foldl (fun line a => line ++ " " ++ quoteToken a) name

theorem toList_typedLine (name : String) (args : List String) :
    (typedLine name args).toList = name.toList ++ typedArguments args := by
  induction args generalizing name with
  | nil => simp [typedLine, typedArguments]
  | cons a args ih =>
    have hcons : typedLine name (a :: args) = typedLine (name ++ " " ++ quoteToken a) args := rfl
    rw [hcons, ih]
    simp [typedArguments, String.toList_append]

theorem rdropWhile_typedArguments (args : List String) :
    (typedArguments args).rdropWhile isBlank = typedArguments args := by
  induction args using List.reverseRecOn with
  | nil => rfl
  | append_singleton args a _ =>
    obtain ⟨u, c, hu, hc⟩ := quoteToken_ends a
    have hlast : typedArguments (args ++ [a]) = (typedArguments args ++ ' ' :: u) ++ [c] := by
      simp [typedArguments, hu]
    rw [hlast, List.rdropWhile_concat_neg _ _ _ (by simp [hc])]

theorem lineShape_typedLine {name : String} (hne : name ≠ "")
    (hname : ∀ c ∈ name.toList, isBlank c = false) (args : List String) :
    LineShape (typedLine name args).toList [] name.toList (typedArguments args) where
  whole := by simp [toList_typedLine]
  lead_blank := by simp
  name_ne_nil := mt String.toList_eq_nil_iff.1 hne
  name_typeable := hname
  rest_begins := by
    intro c hc
    cases args with
    | nil => simp [typedArguments] at hc
    | cons a args =>
      simp only [typedArguments, List.flatMap_cons, List.cons_append, List.head?_cons,
        Option.some.injEq] at hc
      subst hc
      decide

theorem read?_typedLine {name : String} {args : List String} (hne : name ≠ "")
    (hname : ∀ c ∈ name.toList, isBlank c = false) (hargs : ∀ a ∈ args, '"' ∉ a.toList) :
    CommandLine.read? (typedLine name args) = some ⟨name, args⟩ := by
  have hsplit : tokensByRuns (typedArguments args) = args := by
    have hruns := splitArguments_eq_runs (String.ofList (typedArguments args))
    rw [String.toList_ofList] at hruns
    rw [← hruns, splitArguments, String.toList_ofList, splitFrom_typedArguments hargs]
    simp [Function.comp_def]
  rw [(lineShape_typedLine hne hname args).read?, rdropWhile_typedArguments, hsplit,
    String.ofList_toList]

/-- How a submission reports the execution of a command: the same result under its name and the
same state, and an error is shown behind the lines of the execution. -/
structure Reports {σ : Type} (name : String) (executed : Outcome σ Nat)
    (submitted : Outcome σ Submission) : Prop where
  ok_iff : ∀ i, submitted.result = .ok (.invoked name i) ↔ executed.result = .ok i
  error_iff : ∀ e, submitted.result = .error e ↔ executed.result = .error e
  state_eq : submitted.state = executed.state
  lines_of_ok : ∀ i, executed.result = .ok i →
    hostLines submitted.events = hostLines executed.events
  lines_of_error : ∀ e, executed.result = .error e →
    hostLines submitted.events = hostLines executed.events ++ [(.error, e.message)]

@[simp] theorem hostLines_diagnostics (ds : List Diagnostic) :
    hostLines (ds.map .diagnostic) = [] := by
  simp [hostLines]

theorem submit_reports {σ : Type} (c : Console (Handler σ)) {line : String} {l : CommandLine}
    (h : CommandLine.read? line = some l) (depth : Nat) (s : σ) :
    Option.Rel (Reports l.name) (c.execute depth l.name l.arguments s) (c.submit depth line s) := by
  simp only [Console.submit, submitBy, h]
  cases c.execute depth l.name l.arguments s with
  | none => exact .none
  | some o =>
    obtain ⟨result, state, events⟩ := o
    cases result with
    | ok i => exact .some ⟨by simp, by simp, rfl, by simp, by simp⟩
    | error e => exact .some ⟨by simp, by simp, rfl, by simp, by simp [hostLines]⟩

theorem isTypeable_iff {name : String} :
    isTypeable name = true ↔ name ≠ "" ∧ ∀ c ∈ name.toList, isBlank c = false := by
  simp [isTypeable, String.toList_eq_nil_iff]

theorem isTypeable_iff_read? {name : String} :
    isTypeable name = true ↔ ∃ line args, CommandLine.read? line = some ⟨name, args⟩ := by
  constructor
  · intro h
    obtain ⟨hne, hname⟩ := isTypeable_iff.1 h
    exact ⟨typedLine name [], [], read?_typedLine hne hname (by simp)⟩
  · intro h
    obtain ⟨line, args, hread⟩ := h
    obtain ⟨lead, rest, hshape, -⟩ := CommandLine.read?_eq_some_iff.1 hread
    exact isTypeable_iff.2 ⟨mt String.toList_eq_nil_iff.2 hshape.name_ne_nil, hshape.name_typeable⟩

theorem Registry.register_overloads_iff {α : Type} (r : Registry α) (o : Overload α) :
    (r.register o).overloads = r.overloads ++ [o] ↔ isTypeable o.signature.name = true := by
  unfold register
  split
  · next h => simp [h]
  · next h => simp [h]

theorem Registry.register_eq_self_iff {α : Type} (r : Registry α) (o : Overload α) :
    r.register o = r ↔ isTypeable o.signature.name = false := by
  constructor
  · intro h
    by_contra htypeable
    have hadded := (r.register_overloads_iff o).2 (by simpa using htypeable)
    rw [h] at hadded
    simp at hadded
  · intro h
    simp [register, h]

/-- A call with a name that can be typed and arguments without quotes has a line, and to submit
the line is to execute the call and to show its error. A registry takes exactly the names that
some line begins with. -/
theorem typing_is_executing {σ : Type} (c : Console (Handler σ)) :
    (∀ name args, name ≠ "" → (∀ ch ∈ name.toList, isBlank ch = false) →
      (∀ a ∈ args, '"' ∉ a.toList) →
      CommandLine.read? (typedLine name args) = some ⟨name, args⟩ ∧
      ∀ depth s, Option.Rel (Reports name) (c.execute depth name args s)
        (c.submit depth (typedLine name args) s)) ∧
    ∀ o : Overload (Handler σ),
      ((c.registry.register o).overloads = c.registry.overloads ++ [o] ↔
        ∃ line args, CommandLine.read? line = some ⟨o.signature.name, args⟩) ∧
      (c.registry.register o = c.registry ↔
        ¬∃ line args, CommandLine.read? line = some ⟨o.signature.name, args⟩) := by
  constructor
  · intro name args hne hname hargs
    have hread := read?_typedLine hne hname hargs
    exact ⟨hread, submit_reports c hread⟩
  · intro o
    rw [c.registry.register_overloads_iff, c.registry.register_eq_self_iff,
      ← isTypeable_iff_read?, Bool.not_eq_true]
    exact ⟨Iff.rfl, Iff.rfl⟩

theorem typing_is_executing_unbalanced :
    CommandLine.read? (typedLine "say(\"" ["a b ", "", ")("]) =
      some ⟨"say(\"", ["a b ", "", ")("]⟩ ∧
    ∀ depth s, Option.Rel (Reports "say(\"")
      ((Console.new (α := Handler Unit) .default).execute depth "say(\"" ["a b ", "", ")("] s)
      ((Console.new .default).submit depth (typedLine "say(\"" ["a b ", "", ")("]) s) :=
  (typing_is_executing (Console.new .default)).1 "say(\"" ["a b ", "", ")("]
    (by decide) (by simp [isBlank]) (by simp)

end CommandConsole
