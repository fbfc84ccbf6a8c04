import CommandConsole.Proofs.TypedLine
set_option autoImplicit false

/-!
What a run does, step by step: the cases of an execution and of a submission. The bound on active
handlers decides whether there is an outcome, and never which.
-/

namespace CommandConsole

section cases

variable {σ : Type} (c : Console (Handler σ)) {name : String} {tokens : List String}

/-- The handler that a call resolves to, run with at most `depth` further ones inside it. -/
def Console.runHandler (depth : Nat) (name : String) (r : Resolution (Handler σ)) (s : σ) :
    Option (Outcome σ Unit) :=
  (r.overload.action ⟨name, r.arguments⟩).run c.view (c.submit depth) (c.execute depth) s

/-- What an execution answers when its handler has ended. -/
def handled (name : String) (index : Nat) : Except ConsoleError Unit → Except ConsoleError Nat
  | .ok () => .ok index
  | .error e => .error (.handler name e)

/-- The diagnostics before a handler runs. -/
def Console.notes (name : String) (tokens : List String) : List Event :=
  (c.registry.resolveDiagnostics name tokens).map .diagnostic

theorem Console.execute_of_error {e : ConsoleError}
    (h : c.registry.resolve name tokens = .error e) (depth : Nat) (s : σ) :
    c.execute depth name tokens s = some ⟨.error e, s, c.notes name tokens⟩ := by
  unfold execute
  rw [h]
  rfl

theorem Console.execute_zero {r : Resolution (Handler σ)}
    (h : c.registry.resolve name tokens = .ok r) (s : σ) :
    c.execute 0 name tokens s = none := by
  unfold execute
  rw [h]

theorem Console.execute_succ {r : Resolution (Handler σ)}
    (h : c.registry.resolve name tokens = .ok r) (depth : Nat) (s : σ) :
    c.execute (depth + 1) name tokens s =
      (c.runHandler depth name r s).map fun o =>
        ⟨handled name r.index o.result, o.state, c.notes name tokens ++ o.events⟩ := by
  unfold execute
  rw [h]
  simp only [runHandler, notes]
  congr 1
  funext o
  rcases o with ⟨_ | _, state, events⟩ <;> rfl

/-- An error that is not of a handler comes from the resolution. -/
theorem Console.resolve_of_execute_error {depth : Nat} {s : σ} {o : Outcome σ Nat}
    {e : ConsoleError} (h : c.execute depth name tokens s = some o) (he : o.result = .error e)
    (hne : ∀ cause, e ≠ .handler name cause) : c.registry.resolve name tokens = .error e := by
  cases hr : c.registry.resolve name tokens with
  | error e' =>
    rw [c.execute_of_error hr, Option.some.injEq] at h
    subst h
    simp only [Except.error.injEq] at he
    rw [he]
  | ok r =>
    cases depth with
    | zero => rw [c.execute_zero hr] at h; cases h
    | succ depth =>
      rw [c.execute_succ hr] at h
      obtain ⟨a, -, rfl⟩ := Option.map_eq_some_iff.1 h
      cases ha : a.result with
      | ok u => simp [ha, handled] at he
      | error cause =>
        simp only [ha, handled, Except.error.injEq] at he
        exact (hne cause he.symm).elim

end cases

/-- What a submission answers to the execution of its call. -/
def submitted (line : String) (l : CommandLine) (result : Except ConsoleError Nat)
    (events : List Event) : Except ConsoleError Submission × List Event :=
  match result with
  | .ok index => (.ok (.invoked l.name index), (lineDiagnostics line).map .diagnostic ++ events)
  | .error e => (.error e, (lineDiagnostics line).map .diagnostic ++ events ++
      [.diagnostic (.submissionFailed line e), .line .error e.message])

theorem Console.submit_eq_map {σ : Type} (c : Console (Handler σ)) {line : String}
    {l : CommandLine} (h : CommandLine.read? line = some l) (depth : Nat) (s : σ) :
    c.submit depth line s = (c.execute depth l.name l.arguments s).map fun o =>
      let answer := submitted line l o.result o.events
      ⟨answer.1, o.state, answer.2⟩ := by
  rw [submit, submitBy, h]
  dsimp only
  congr 1
  funext o
  rcases o with ⟨_ | _, state, events⟩ <;> rfl

section answers

variable {σ : Type} {c : Console (Handler σ)} {line : String} {l : CommandLine}

/-- The line has the same result and shows the host the same lines in every state, which it leaves
as it is. -/
def Console.Answers (c : Console (Handler σ)) (line : String)
    (result : Except ConsoleError Submission) (shown : List (Severity × String)) : Prop :=
  ∀ (depth : Nat) (s : σ), ∃ o, c.submit (depth + 1) line s = some o ∧ o.result = result ∧
    o.state = s ∧ hostLines o.events = shown

/-- A call that resolves to nothing shows the error alone. -/
theorem Console.answers_of_error {e : ConsoleError} (hread : CommandLine.read? line = some l)
    (hresolve : c.registry.resolve l.name l.arguments = .error e) :
    c.Answers line (.error e) [(.error, e.message)] := by
  intro depth s
  refine ⟨_, by rw [c.submit_eq_map hread, c.execute_of_error hresolve]; rfl, rfl, rfl, ?_⟩
  simp [submitted, Console.notes, hostLines]

theorem Console.submit_succ {r : Resolution (Handler σ)} {depth : Nat} {s : σ} {o : Outcome σ Unit}
    (hread : CommandLine.read? line = some l)
    (hresolve : c.registry.resolve l.name l.arguments = .ok r)
    (hrun : c.runHandler depth l.name r s = some o) :
    let answer := submitted line l (handled l.name r.index o.result)
      (c.notes l.name l.arguments ++ o.events)
    c.submit (depth + 1) line s = some ⟨answer.1, o.state, answer.2⟩ := by
  rw [c.submit_eq_map hread, c.execute_succ hresolve, hrun]
  rfl

section handler

variable {r : Resolution (Handler σ)} {events : List Event}
  (hread : CommandLine.read? line = some l) (hresolve : c.registry.resolve l.name l.arguments = .ok r)

include hread hresolve

/-- A handler that succeeds and leaves the state as it is answers with its lines. -/
theorem Console.answers_of_ok
    (hrun : ∀ depth s, c.runHandler depth l.name r s = some ⟨.ok (), s, events⟩) :
    c.Answers line (.ok (.invoked l.name r.index)) (hostLines events) := by
  intro depth s
  refine ⟨_, c.submit_succ hread hresolve (hrun depth s), rfl, rfl, ?_⟩
  simp [submitted, handled, Console.notes]

/-- A handler that fails has the error behind its lines. -/
theorem Console.answers_of_fail {e : ConsoleError}
    (hrun : ∀ depth s, c.runHandler depth l.name r s = some ⟨.error e, s, events⟩) :
    c.Answers line (.error (.handler l.name e))
      (hostLines events ++ [(.error, (ConsoleError.handler l.name e).message)]) := by
  intro depth s
  refine ⟨_, c.submit_succ hread hresolve (hrun depth s), rfl, rfl, ?_⟩
  simp [submitted, handled, Console.notes, hostLines]

end handler

end answers

section depth

variable {σ α : Type} {view : Console Unit}
  {submit submit' : String → σ → Option (Outcome σ Submission)}
  {execute execute' : String → List String → σ → Option (Outcome σ Nat)}

/-- A script ends in the same way where more of the calls in it do. -/
theorem Script.run_mono (hsubmit : ∀ line s o, submit line s = some o → submit' line s = some o)
    (hexecute : ∀ name tokens s o, execute name tokens s = some o →
      execute' name tokens s = some o) (x : Script σ α) (s : σ) {o : Outcome σ α}
    (h : x.run view submit execute s = some o) : x.run view submit' execute' s = some o := by
  induction x generalizing s o with
  | done a => exact h
  | fail e => exact h
  | log severity text next ih =>
    obtain ⟨a, ha, rfl⟩ := Option.map_eq_some_iff.1 h
    exact Option.map_eq_some_iff.2 ⟨a, ih s ha, rfl⟩
  | submit line next ih =>
    obtain ⟨a, ha, h⟩ := Option.bind_eq_some_iff.1 h
    obtain ⟨b, hb, rfl⟩ := Option.map_eq_some_iff.1 h
    exact Option.bind_eq_some_iff.2
      ⟨a, hsubmit line s a ha, Option.map_eq_some_iff.2 ⟨b, ih _ _ hb, rfl⟩⟩
  | execute name tokens next ih =>
    obtain ⟨a, ha, h⟩ := Option.bind_eq_some_iff.1 h
    obtain ⟨b, hb, rfl⟩ := Option.map_eq_some_iff.1 h
    exact Option.bind_eq_some_iff.2
      ⟨a, hexecute name tokens s a ha, Option.map_eq_some_iff.2 ⟨b, ih _ _ hb, rfl⟩⟩
  | consult next ih => exact ih _ s h
  | get next ih => exact ih s s h
  | set t next ih => exact ih t h

theorem submitBy_mono (hexecute : ∀ name tokens s o, execute name tokens s = some o →
      execute' name tokens s = some o) (line : String) (s : σ) {o : Outcome σ Submission}
    (h : submitBy execute line s = some o) : submitBy execute' line s = some o := by
  unfold submitBy at h ⊢
  cases hread : CommandLine.read? line with
  | none =>
    rw [hread] at h
    exact h
  | some l =>
    rw [hread] at h
    obtain ⟨a, ha, rfl⟩ := Option.map_eq_some_iff.1 h
    exact Option.map_eq_some_iff.2 ⟨a, hexecute _ _ s a ha, rfl⟩

theorem Console.execute_succ_of_execute (c : Console (Handler σ)) (depth : Nat) (name : String)
    (tokens : List String) (s : σ) {o : Outcome σ Nat}
    (h : c.execute depth name tokens s = some o) :
    c.execute (depth + 1) name tokens s = some o := by
  -- with the bound 0 there is an outcome only where nothing is resolved
  induction depth generalizing name tokens s o with
  | zero =>
    cases hr : c.registry.resolve name tokens with
    | error e => rw [c.execute_of_error hr] at h ⊢; exact h
    | ok r => rw [c.execute_zero hr] at h; cases h
  | succ depth ih =>
    cases hr : c.registry.resolve name tokens with
    | error e => rw [c.execute_of_error hr] at h ⊢; exact h
    | ok r =>
      rw [c.execute_succ hr] at h ⊢
      obtain ⟨a, ha, rfl⟩ := Option.map_eq_some_iff.1 h
      refine Option.map_eq_some_iff.2 ⟨a, ?_, rfl⟩
      exact Script.run_mono (fun line s _ => submitBy_mono ih line s) ih _ s ha

theorem Console.execute_mono (c : Console (Handler σ)) {depth depth' : Nat}
    (hle : depth ≤ depth') (name : String) (tokens : List String) (s : σ) {o : Outcome σ Nat}
    (h : c.execute depth name tokens s = some o) : c.execute depth' name tokens s = some o := by
  induction hle with
  | refl => exact h
  | step _ ih => exact c.execute_succ_of_execute _ name tokens s ih

/-- A higher bound changes no outcome. -/
theorem Console.submit_mono (c : Console (Handler σ)) {depth depth' : Nat}
    (hle : depth ≤ depth') (line : String) (s : σ) {o : Outcome σ Submission}
    (h : c.submit depth line s = some o) : c.submit depth' line s = some o :=
  submitBy_mono (fun name tokens s _ => c.execute_mono hle name tokens s) line s h

end depth

end CommandConsole
