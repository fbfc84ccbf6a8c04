import CommandConsole.Console
import CommandConsole.Invocation
set_option autoImplicit false

/-!
Scripts: what a command handler does, step by step, as data. A script may show lines, submit or
execute further commands, look at the console, and read or replace the state of the host.
-/

namespace CommandConsole

/-- What a successful submission did: nothing for a blank line, otherwise it ran an overload. -/
inductive Submission where
  | noOp
  | invoked (name : String) (overload : Nat)
  deriving DecidableEq, Repr

/-- A script over host states `σ` with a result in `α`. Where a step has an answer, the rest of the
script depends on it. -/
inductive Script (σ α : Type) where
  | done (a : α)
  | fail (e : ConsoleError)
  | log (severity : Severity) (text : String) (next : Script σ α)
  | submit (line : String) (next : Except ConsoleError Submission → Script σ α)
  | execute (name : String) (tokens : List String) (next : Except ConsoleError Nat → Script σ α)
  | consult (next : Console Unit → Script σ α)
  | get (next : σ → Script σ α)
  | set (s : σ) (next : Script σ α)

/-- Goes on with `f` where the script is done. -/
def Script.bind {σ α β : Type} (x : Script σ α) (f : α → Script σ β) : Script σ β :=
  match x with
  | .done a => f a
  | .fail e => .fail e
  | .log severity text next => .log severity text (next.bind f)
  | .submit line next => .submit line fun r => (next r).bind f
  | .execute name tokens next => .execute name tokens fun r => (next r).bind f
  | .consult next => .consult fun c => (next c).bind f
  | .get next => .get fun s => (next s).bind f
  | .set s next => .set s (next.bind f)

instance {σ : Type} : Monad (Script σ) where
  pure := .done
  bind := .bind

def Script.ofExcept {σ α : Type} : Except ConsoleError α → Script σ α
  | .ok a => .done a
  | .error e => .fail e

def Script.say {σ : Type} (severity : Severity) (text : String) : Script σ Unit :=
  .log severity text (.done ())

def Script.console {σ : Type} : Script σ (Console Unit) := .consult .done

def Script.state {σ : Type} : Script σ σ := .get .done

def Script.setState {σ : Type} (s : σ) : Script σ Unit := .set s (.done ())

abbrev Handler (σ : Type) := Invocation → Script σ Unit

end CommandConsole
