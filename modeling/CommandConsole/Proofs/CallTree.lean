import CommandConsole.Proofs.Running
set_option autoImplicit false

/-!
The calls that handlers make of the console while they run, as a tree. A tree holds the lines that
handlers show and what each call answered; what reaches the host can be read off it.
-/

namespace CommandConsole

/-- What a handler does one after another: it shows a line, or it submits a line or executes a
command, with the calls made within that call. -/
inductive Calls where
  | done
  | log (severity : Severity) (text : String) (next : Calls)
  | submit (line : String) (answer : Except ConsoleError Submission) (inner next : Calls)
  | execute (name : String) (tokens : List String) (answer : Except ConsoleError Nat)
    (inner next : Calls)

/-- How a run ended, the state it left, and the calls made within it. -/
structure Traced (σ α : Type) where
  result : Except ConsoleError α
  state : σ
  calls : Calls

def Traced.under {σ α : Type} (node : Calls → Calls) (t : Traced σ α) : Traced σ α :=
  { t with calls := node t.calls }

section trace

variable {σ : Type}

/-- The calls that a script makes, given those that its calls make. -/
def Script.trace {α : Type} (view : Console Unit)
    (submit : String → σ → Option (Traced σ Submission))
    (execute : String → List String → σ → Option (Traced σ Nat)) :
    Script σ α → σ → Option (Traced σ α)
  | .done a, s => some ⟨.ok a, s, .done⟩
  | .fail e, s => some ⟨.error e, s, .done⟩
  | .log severity text next, s =>
    (trace view submit execute next s).map (.under (.log severity text))
  | .submit line next, s =>
    (submit line s).bind fun t =>
      (trace view submit execute (next t.result) t.state).map
        (.under (.submit line t.result t.calls))
  | .execute name tokens next, s =>
    (execute name tokens s).bind fun t =>
      (trace view submit execute (next t.result) t.state).map
        (.under (.execute name tokens t.result t.calls))
  | .consult next, s => trace view submit execute (next view) s
  | .get next, s => trace view submit execute (next s) s
  | .set s next, _ => trace view submit execute next s

def traceSubmitBy (execute : String → List String → σ → Option (Traced σ Nat)) (line : String)
    (s : σ) : Option (Traced σ Submission) :=
  match CommandLine.read? line with
  | none => some ⟨.ok .noOp, s, .done⟩
  | some l =>
    (execute l.name l.arguments s).map fun t =>
      ⟨t.result.map (.invoked l.name), t.state, t.calls⟩

/-- The calls made within an execution, with at most `depth` handlers active inside each other. -/
def Console.traceExecute (c : Console (Handler σ)) (depth : Nat) (name : String)
    (tokens : List String) (s : σ) : Option (Traced σ Nat) :=
  match c.registry.resolve name tokens with
  | .error e => some ⟨.error e, s, .done⟩
  | .ok r =>
    match depth with
    | 0 => none
    | d + 1 =>
      ((r.overload.action ⟨name, r.arguments⟩).trace c.view (traceSubmitBy (c.traceExecute d))
        (c.traceExecute d) s).map fun t => ⟨handled name r.index t.result, t.state, t.calls⟩

def Console.traceSubmit (c : Console (Handler σ)) (depth : Nat) (line : String) (s : σ) :
    Option (Traced σ Submission) :=
  traceSubmitBy (c.traceExecute depth) line s

end trace

/-- Who shows a line: a handler, or the console that reports a failed submission. -/
inductive Author where
  | handler | console
  deriving DecidableEq, Repr

def report : Except ConsoleError Submission → List (Author × Severity × String)
  | .ok _ => []
  | .error e => [(.console, .error, e.message)]

namespace Calls

/-- The lines that reach the host: those of the handlers, and the report of each failed submission
right behind the lines shown within it. -/
def lines : Calls → List (Author × Severity × String)
  | .done => []
  | .log severity text next => (.handler, severity, text) :: next.lines
  | .submit _ answer inner next => inner.lines ++ report answer ++ next.lines
  | .execute _ _ _ inner next => inner.lines ++ next.lines

/-- Every submission with its answer, after those within it. -/
def submissions : Calls → List (String × Except ConsoleError Submission)
  | .done => []
  | .log _ _ next => next.submissions
  | .submit line answer inner next => inner.submissions ++ (line, answer) :: next.submissions
  | .execute _ _ _ inner next => inner.submissions ++ next.submissions

/-- The answers to the submissions that the handler makes itself, with the calls within each. -/
def direct : Calls → List (Except ConsoleError Submission × Calls)
  | .done => []
  | .log _ _ next => next.direct
  | .submit _ answer inner next => (answer, inner) :: next.direct
  | .execute _ _ _ _ next => next.direct

end Calls

def failures (submissions : List (String × Except ConsoleError Submission)) : List ConsoleError :=
  submissions.filterMap fun
    | (_, .ok _) => none
    | (_, .error e) => some e

theorem length_failures (submissions : List (String × Except ConsoleError Submission)) :
    (failures submissions).length = submissions.countP (!·.2.isOk) := by
  rw [failures, List.length_filterMap_eq_countP]
  refine List.countP_congr fun p _ => ?_
  rcases p with ⟨line, _ | _⟩ <;> simp [Except.isOk, Except.toBool]

/-- What the console itself shows. -/
def consoleLines (lines : List (Author × Severity × String)) : List (Severity × String) :=
  (lines.filter (·.1 == .console)).map Prod.snd

def errorLines (errors : List ConsoleError) : List (Severity × String) :=
  errors.map fun e => (.error, e.message)

@[simp] theorem consoleLines_append (a b : List (Author × Severity × String)) :
    consoleLines (a ++ b) = consoleLines a ++ consoleLines b := by simp [consoleLines]

@[simp] theorem consoleLines_handler (severity : Severity) (text : String)
    (lines : List (Author × Severity × String)) :
    consoleLines ((.handler, severity, text) :: lines) = consoleLines lines := by
  simp [consoleLines]

@[simp] theorem failures_append (a b : List (String × Except ConsoleError Submission)) :
    failures (a ++ b) = failures a ++ failures b := by simp [failures]

@[simp] theorem errorLines_append (a b : List ConsoleError) :
    errorLines (a ++ b) = errorLines a ++ errorLines b := by simp [errorLines]

theorem consoleLines_report (line : String) (answer : Except ConsoleError Submission) :
    consoleLines (report answer) = errorLines (failures [(line, answer)]) := by
  cases answer <;> rfl

/-- The console shows the errors of the failed submissions, one line each, and nothing else. -/
theorem Calls.consoleLines_lines (t : Calls) :
    consoleLines t.lines = errorLines (failures t.submissions) := by
  induction t with
  | done => rfl
  | log severity text next ih => rw [lines, submissions, consoleLines_handler, ih]
  | submit line answer inner next ihi ihn =>
    have hcons : (line, answer) :: next.submissions = [(line, answer)] ++ next.submissions := rfl
    rw [lines, submissions, hcons]
    simp only [consoleLines_append, failures_append, errorLines_append, ihi, ihn,
      consoleLines_report line, List.append_assoc]
  | execute name tokens answer inner next ihi ihn =>
    simp only [lines, submissions, consoleLines_append, failures_append, errorLines_append, ihi,
      ihn]

/-- Handlers that fail one because of the other, the outermost first: each has for its result the
error of a submission it made, down to one that failed with `e`. -/
inductive Chain (e : ConsoleError) :
    List String → Except ConsoleError Submission → Calls → Prop where
  | cause (calls : Calls) : Chain e [] (.error e) calls
  | handler (name : String) {names : List String} {cause : ConsoleError} {inner calls : Calls} :
    Chain e names (.error cause) inner → (.error cause, inner) ∈ calls.direct →
    Chain e (name :: names) (.error (.handler name cause)) calls

/-- An error wrapped by handlers, the outermost first. -/
def wrapped (e : ConsoleError) (names : List String) : ConsoleError :=
  names.foldr ConsoleError.handler e

theorem wrapped_cons (e : ConsoleError) (name : String) (names : List String) :
    wrapped e (name :: names) = .handler name (wrapped e names) := rfl

theorem message_wrapped (e : ConsoleError) (names : List String) :
    (wrapped e names).message =
      names.foldr (fun name text => "command '" ++ name ++ "' failed: " ++ text) e.message := by
  induction names with
  | nil => rfl
  | cons name names ih => rw [wrapped_cons, ConsoleError.message_handler, ih, List.foldr_cons]

/-- The errors of a chain, the innermost first. -/
def layers (e : ConsoleError) : List String → List ConsoleError
  | [] => [e]
  | name :: names => layers e names ++ [wrapped e (name :: names)]

theorem length_layers (e : ConsoleError) (names : List String) :
    (layers e names).length = names.length + 1 := by
  induction names with
  | nil => rfl
  | cons name names ih => simp [layers, ih]

theorem Chain.answer_eq {e : ConsoleError} {names : List String}
    {answer : Except ConsoleError Submission} {calls : Calls} (h : Chain e names answer calls) :
    answer = .error (wrapped e names) := by
  induction h with
  | cause calls => rfl
  | handler name _ _ ih => rw [wrapped_cons, ← Except.error.inj ih]

theorem Calls.sublist_of_direct {t inner : Calls} {answer : Except ConsoleError Submission}
    (h : (answer, inner) ∈ t.direct) : (inner.lines ++ report answer).Sublist t.lines := by
  induction t with
  | done => cases h
  | log severity text next ih => exact (ih h).cons _
  | submit line answer' inner' next _ ih =>
    rcases List.mem_cons.1 h with heq | h
    · cases heq
      exact List.sublist_append_left _ _
    · exact (ih h).trans (List.sublist_append_right _ _)
  | execute name tokens answer' inner' next _ ih =>
    exact (ih h).trans (List.sublist_append_right _ _)

/-- Each error of a chain is reported, the innermost first. -/
theorem Chain.reports_sublist {e : ConsoleError} {names : List String}
    {answer : Except ConsoleError Submission} {calls : Calls} (h : Chain e names answer calls) :
    (errorLines (layers e names)).Sublist (consoleLines (calls.lines ++ report answer)) := by
  induction h with
  | cause calls =>
    rw [consoleLines_append]
    exact List.sublist_append_right _ _
  | @handler name names cause inner calls hinner hdirect ih =>
    have hreport : consoleLines (report (.error (.handler name cause))) =
        errorLines [wrapped e (name :: names)] := by
      rw [wrapped_cons, ← Except.error.inj hinner.answer_eq]
      rfl
    rw [layers, errorLines_append, consoleLines_append, hreport]
    have hsub := (Calls.sublist_of_direct hdirect).filter (·.1 == .console)
    exact (ih.trans (hsub.map Prod.snd)).append (List.Sublist.refl _)

end CommandConsole
