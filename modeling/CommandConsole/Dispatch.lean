import CommandConsole.Line
import CommandConsole.Script
set_option autoImplicit false

/-!
Running commands. Executing a name with tokens picks an overload and runs its handler; submitting
a line splits it first and shows the error of a failure to the host. A handler may do both again,
so running is bounded by how many handlers may be active inside each other.
-/

namespace CommandConsole

/-- How a run ended, the state it left, and what it emitted in order. -/
structure Outcome (σ α : Type) where
  result : Except ConsoleError α
  state : σ
  events : List Event

def Outcome.after {σ α : Type} (events : List Event) (o : Outcome σ α) : Outcome σ α :=
  { o with events := events ++ o.events }

/-- Runs a script, given how lines are submitted and commands are executed from within it. -/
def Script.run {σ α : Type} (view : Console Unit)
    (submit : String → σ → Option (Outcome σ Submission))
    (execute : String → List String → σ → Option (Outcome σ Nat)) :
    Script σ α → σ → Option (Outcome σ α)
  | .done a, s => some ⟨.ok a, s, []⟩
  | .fail e, s => some ⟨.error e, s, []⟩
  | .log severity text next, s =>
    (run view submit execute next s).map (.after [.line severity text])
  | .submit line next, s =>
    (submit line s).bind fun o =>
      (run view submit execute (next o.result) o.state).map (.after o.events)
  | .execute name tokens next, s =>
    (execute name tokens s).bind fun o =>
      (run view submit execute (next o.result) o.state).map (.after o.events)
  | .consult next, s => run view submit execute (next view) s
  | .get next, s => run view submit execute (next s) s
  | .set s next, _ => run view submit execute next s

/-- Submits a line by way of `execute`. A blank line does nothing; an error is reported to the host
once and returned. -/
def submitBy {σ : Type} (execute : String → List String → σ → Option (Outcome σ Nat))
    (line : String) (s : σ) : Option (Outcome σ Submission) :=
  match CommandLine.read? line with
  | none => some ⟨.ok .noOp, s, []⟩
  | some l =>
    (execute l.name l.arguments s).map fun o =>
      let events := (lineDiagnostics line).map .diagnostic ++ o.events
      match o.result with
      | .ok index => ⟨.ok (.invoked l.name index), o.state, events⟩
      | .error e =>
        ⟨.error e, o.state,
          events ++ [.diagnostic (.submissionFailed line e), .line .error e.message]⟩

/-- Executes a command with at most `depth` handlers active inside each other, and answers with the
number of the overload. An error of the handler is wrapped with the name of the command. There is
no outcome if a further handler would be needed. -/
def Console.execute {σ : Type} (c : Console (Handler σ)) (depth : Nat) (name : String)
    (tokens : List String) (s : σ) : Option (Outcome σ Nat) :=
  let notes := (c.registry.resolveDiagnostics name tokens).map Event.diagnostic
  match c.registry.resolve name tokens with
  | .error e => some ⟨.error e, s, notes⟩
  | .ok r =>
    match depth with
    | 0 => none
    | d + 1 =>
      ((r.overload.action ⟨name, r.arguments⟩).run c.view (submitBy (c.execute d)) (c.execute d)
        s).map fun o =>
        match o.result with
        | .ok () => ⟨.ok r.index, o.state, notes ++ o.events⟩
        | .error e => ⟨.error (.handler name e), o.state, notes ++ o.events⟩

/-- Submits a line with at most `depth` handlers active inside each other. -/
def Console.submit {σ : Type} (c : Console (Handler σ)) (depth : Nat) (line : String) (s : σ) :
    Option (Outcome σ Submission) :=
  submitBy (c.execute depth) line s

end CommandConsole
