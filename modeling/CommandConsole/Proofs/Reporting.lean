import CommandConsole.Proofs.CallTree
set_option autoImplicit false

/-!
Which lines of a run the console itself shows. They are the errors of the submissions that failed,
through any nesting of handlers.
-/

namespace CommandConsole

/-- The lines of a run with their authors. A line is the console's own if it stands right behind
the diagnostic of a failed submission: handlers emit no diagnostics. -/
def authored : List Event → List (Author × Severity × String)
  | .diagnostic (.submissionFailed _ _) :: .line severity text :: rest =>
    (.console, severity, text) :: authored rest
  | .diagnostic _ :: rest => authored rest
  | .line severity text :: rest => (.handler, severity, text) :: authored rest
  | [] => []

theorem hostLines_eq_authored (events : List Event) :
    hostLines events = (authored events).map Prod.snd := by
  induction events using authored.induct with
  | case1 line e severity text rest ih => simpa [hostLines, authored] using ih
  | case2 d rest hd ih =>
    rw [authored.eq_2 d rest hd]
    simpa [hostLines] using ih
  | case3 severity text rest ih => simpa [hostLines, authored] using ih
  | case4 => rfl

def Diagnostic.isReport : Diagnostic → Bool
  | .submissionFailed _ _ => true
  | _ => false

theorem authored_diagnostics {ds : List Diagnostic} (h : ∀ d ∈ ds, d.isReport = false)
    (rest : List Event) : authored (ds.map .diagnostic ++ rest) = authored rest := by
  induction ds with
  | nil => rfl
  | cons d ds ih =>
    have hd : d.isReport = false := h d List.mem_cons_self
    rw [List.map_cons, List.cons_append, authored.eq_2, ih]
    · exact fun d hd => h d (List.mem_cons_of_mem _ hd)
    · intro line e severity text rest _ hfailed
      rw [hfailed] at hd
      cases hd

section diagnostics

variable {parsers : ParserTable} {tokens : List String}

theorem not_isReport_of_tryConvert {type : ValueType} {token : String} {d : Diagnostic}
    (h : d ∈ parsers.tryConvertDiagnostics type token) : d.isReport = false := by
  unfold ParserTable.tryConvertDiagnostics at h
  split at h
  · cases h
  · split at h
    · cases h
    · unfold checkDiagnostics at h
      split at h
      · cases h
      · rw [List.mem_singleton.1 h]
        rfl

theorem not_isReport_of_bindParams {params : List Param} {d : Diagnostic}
    (h : d ∈ bindParamsDiagnostics parsers params tokens) : d.isReport = false := by
  induction params generalizing tokens with
  | nil => cases h
  | cons p ps ih =>
    simp only [bindParamsDiagnostics] at h
    split at h
    · exact ih h
    · cases tokens with
      | nil =>
        simp only at h
        split at h
        · exact ih h
        · cases h
      | cons token rest =>
        rcases List.mem_append.1 h with h | h
        · exact not_isReport_of_tryConvert h
        · split at h
          · exact ih h
          · cases h

theorem not_isReport_of_viability {α : Type} {os : List (Overload α)} {index : Nat} {d : Diagnostic}
    (h : d ∈ viabilityDiagnostics parsers tokens index os) : d.isReport = false := by
  induction os generalizing index with
  | nil => cases h
  | cons o os ih =>
    rcases List.mem_append.1 h with h | h
    · unfold Signature.bindDiagnostics at h
      split at h
      · exact not_isReport_of_bindParams h
      · cases h
    · split at h
      · rw [List.mem_singleton.1 h]
        rfl
      · exact ih h

theorem not_isReport_of_line {line : String} {d : Diagnostic} (h : d ∈ lineDiagnostics line) :
    d.isReport = false := by
  unfold lineDiagnostics at h
  split at h
  · cases h
  · unfold splitDiagnostics at h
    split at h
    · rw [List.mem_singleton.1 h]
      rfl
    · cases h

end diagnostics

section rel

variable {α β α' β' γ : Type} {R : α → β → Prop} {R' : α' → β' → Prop} {x : Option α}
  {y : Option β} {z : Option γ}

theorem rel_map {f : α → α'} {g : β → β'} (hfg : ∀ a b, R a b → R' (f a) (g b))
    (h : Option.Rel R x y) : Option.Rel R' (x.map f) (y.map g) := by
  cases h with
  | none => exact .none
  | some hab => exact .some (hfg _ _ hab)

theorem rel_bind {f : α → Option α'} {g : β → Option β'}
    (hfg : ∀ a b, R a b → Option.Rel R' (f a) (g b)) (h : Option.Rel R x y) :
    Option.Rel R' (x.bind f) (y.bind g) := by
  cases h with
  | none => exact .none
  | some hab => exact hfg _ _ hab

theorem rel_imp {S : α → β → Prop} (hRS : ∀ a b, R a b → S a b) (h : Option.Rel R x y) :
    Option.Rel S x y := by
  cases h with
  | none => exact .none
  | some hab => exact .some (hRS _ _ hab)

theorem rel_comp {S : β → γ → Prop} {T : α → γ → Prop} (hcomp : ∀ a b c, R a b → S b c → T a c)
    (h : Option.Rel R x y) (h' : Option.Rel S y z) : Option.Rel T x z := by
  cases h with
  | none =>
    cases h'
    exact .none
  | some hab =>
    cases h' with
    | some hbc => exact .some (hcomp _ _ _ hab hbc)

theorem exists_of_rel_some {a : α} (h : Option.Rel R (some a) y) : ∃ b, y = some b ∧ R a b := by
  cases h with
  | some hab => exact ⟨_, rfl, hab⟩

end rel

/-- An outcome as it is read off the calls, which show `lines`. -/
structure Agrees {σ α : Type} (lines : List (Author × Severity × String)) (t : Traced σ α)
    (o : Outcome σ α) : Prop where
  result_eq : o.result = t.result
  state_eq : o.state = t.state
  -- no event is left whose author the next ones would decide
  settled : ∀ rest, authored (o.events ++ rest) = lines ++ authored rest

section runs

variable {σ : Type}

theorem Agrees.authored_eq {α : Type} {lines : List (Author × Severity × String)}
    {t : Traced σ α} {o : Outcome σ α} (h : Agrees lines t o) : authored o.events = lines := by
  have hnil := h.settled []
  rwa [List.append_nil, authored, List.append_nil] at hnil

theorem Agrees.after {α β : Type} {lines lines' : List (Author × Severity × String)}
    {t : Traced σ α} {t' : Traced σ β} {o : Outcome σ α} {o' : Outcome σ β}
    (h : Agrees lines t o) (h' : Agrees lines' t' o') (node : Calls → Calls) :
    Agrees (lines ++ lines') (t'.under node) (o'.after o.events) where
  result_eq := h'.result_eq
  state_eq := h'.state_eq
  settled rest := by
    rw [Outcome.after, List.append_assoc, h.settled, h'.settled, List.append_assoc]

/-- A run agrees with its calls, and a submission adds its report. -/
def AgreesRun {α : Type} (t : Traced σ α) (o : Outcome σ α) : Prop := Agrees t.calls.lines t o

def AgreesSubmit (t : Traced σ Submission) (o : Outcome σ Submission) : Prop :=
  Agrees (t.calls.lines ++ report t.result) t o

theorem Script.trace_agrees {α : Type} {view : Console Unit}
    {tsubmit : String → σ → Option (Traced σ Submission)}
    {texecute : String → List String → σ → Option (Traced σ Nat)}
    {submit : String → σ → Option (Outcome σ Submission)}
    {execute : String → List String → σ → Option (Outcome σ Nat)}
    (hsubmit : ∀ line s, Option.Rel AgreesSubmit (tsubmit line s) (submit line s))
    (hexecute : ∀ name tokens s,
      Option.Rel AgreesRun (texecute name tokens s) (execute name tokens s))
    (x : Script σ α) (s : σ) :
    Option.Rel AgreesRun (x.trace view tsubmit texecute s) (x.run view submit execute s) := by
  -- the answers agree, so both go on with the same rest of the script
  induction x generalizing s with
  | done a => exact .some ⟨rfl, rfl, fun _ => rfl⟩
  | fail e => exact .some ⟨rfl, rfl, fun _ => rfl⟩
  | log severity text next ih =>
    refine rel_map (fun t o h => ?_) (ih s)
    exact ⟨h.result_eq, h.state_eq, fun rest => congrArg (List.cons _) (h.settled rest)⟩
  | submit line next ih =>
    refine rel_bind (fun t o h => ?_) (hsubmit line s)
    rw [h.result_eq, h.state_eq]
    exact rel_map (fun t' o' h' => h.after h' _) (ih _ _)
  | execute name tokens next ih =>
    refine rel_bind (fun t o h => ?_) (hexecute name tokens s)
    rw [h.result_eq, h.state_eq]
    exact rel_map (fun t' o' h' => h.after h' _) (ih _ _)
  | consult next ih => exact ih _ s
  | get next ih => exact ih s s
  | set t next ih => exact ih t

theorem traceSubmitBy_agrees {texecute : String → List String → σ → Option (Traced σ Nat)}
    {execute : String → List String → σ → Option (Outcome σ Nat)}
    (hexecute : ∀ name tokens s,
      Option.Rel AgreesRun (texecute name tokens s) (execute name tokens s))
    (line : String) (s : σ) :
    Option.Rel AgreesSubmit (traceSubmitBy texecute line s) (submitBy execute line s) := by
  have hnotes := authored_diagnostics fun d (hd : d ∈ lineDiagnostics line) =>
    not_isReport_of_line hd
  unfold traceSubmitBy submitBy
  cases CommandLine.read? line with
  | none => exact .some ⟨rfl, rfl, fun _ => rfl⟩
  | some l =>
    refine rel_map (fun t o h => ?_) (hexecute l.name l.arguments s)
    have hresult := h.result_eq
    cases hr : o.result with
    | ok index =>
      rw [hr] at hresult
      refine ⟨?_, h.state_eq, fun rest => ?_⟩
      · simp [← hresult, Except.map]
      · simp [← hresult, Except.map, report, hnotes, h.settled]
    | error e =>
      rw [hr] at hresult
      refine ⟨?_, h.state_eq, fun rest => ?_⟩
      · simp [← hresult, Except.map]
      · simp [← hresult, Except.map, report, hnotes, h.settled, authored]

theorem Console.authored_notes (c : Console (Handler σ)) (name : String) (tokens : List String)
    (rest : List Event) : authored (c.notes name tokens ++ rest) = authored rest :=
  authored_diagnostics (fun _ hd => not_isReport_of_viability hd) rest

theorem Console.traceExecute_agrees (c : Console (Handler σ)) (depth : Nat) (name : String)
    (tokens : List String) (s : σ) :
    Option.Rel AgreesRun (c.traceExecute depth name tokens s) (c.execute depth name tokens s) := by
  induction depth generalizing name tokens s with
  | zero =>
    unfold traceExecute
    cases hr : c.registry.resolve name tokens with
    | error e =>
      rw [c.execute_of_error hr]
      exact .some ⟨rfl, rfl, c.authored_notes name tokens⟩
    | ok r =>
      rw [c.execute_zero hr]
      exact .none
  | succ depth ih =>
    unfold traceExecute
    cases hr : c.registry.resolve name tokens with
    | error e =>
      rw [c.execute_of_error hr]
      exact .some ⟨rfl, rfl, c.authored_notes name tokens⟩
    | ok r =>
      rw [c.execute_succ hr]
      refine rel_map (fun t o h => ?_) (Script.trace_agrees (traceSubmitBy_agrees ih) ih _ s)
      refine ⟨congrArg (handled name r.index) h.result_eq, h.state_eq, fun rest => ?_⟩
      rw [List.append_assoc, c.authored_notes, h.settled]

/-- What an execution adds to the run of its handler: it shows no line. -/
structure Executes (name : String) (index : Nat) (ran : Outcome σ Unit) (o : Outcome σ Nat) :
    Prop where
  result_eq : o.result = handled name index ran.result
  state_eq : o.state = ran.state
  lines_eq : hostLines o.events = hostLines ran.events

/-- What a submission adds to the run of its handler: it shows one line if the handler fails. -/
structure Submits (name : String) (index : Nat) (ran : Outcome σ Unit)
    (o : Outcome σ Submission) : Prop where
  state_eq : o.state = ran.state
  of_ok : ran.result = .ok () →
    o.result = .ok (.invoked name index) ∧ hostLines o.events = hostLines ran.events
  of_error : ∀ e, ran.result = .error e → o.result = .error (.handler name e) ∧
    hostLines o.events =
      hostLines ran.events ++ [(.error, "command '" ++ name ++ "' failed: " ++ e.message)]

theorem Console.executes (c : Console (Handler σ)) {name : String} {tokens : List String}
    {r : Resolution (Handler σ)} (hr : c.registry.resolve name tokens = .ok r) (depth : Nat)
    (s : σ) : Option.Rel (Executes name r.index) (c.runHandler depth name r s)
      (c.execute (depth + 1) name tokens s) := by
  rw [c.execute_succ hr]
  cases c.runHandler depth name r s with
  | none => exact .none
  | some ran => exact .some ⟨rfl, rfl, by simp [notes]⟩

theorem Submits.of_reports {name : String} {index : Nat} {ran : Outcome σ Unit}
    {executed : Outcome σ Nat} {o : Outcome σ Submission} (hran : Executes name index ran executed)
    (hreports : Reports name executed o) : Submits name index ran o where
  state_eq := hreports.state_eq.trans hran.state_eq
  of_ok hok := by
    have hexecuted : executed.result = .ok index := by rw [hran.result_eq, hok, handled]
    exact ⟨(hreports.ok_iff index).2 hexecuted,
      (hreports.lines_of_ok index hexecuted).trans hran.lines_eq⟩
  of_error e he := by
    have hexecuted : executed.result = .error (.handler name e) := by
      rw [hran.result_eq, he, handled]
    refine ⟨(hreports.error_iff _).2 hexecuted, ?_⟩
    rw [hreports.lines_of_error _ hexecuted, hran.lines_eq, ConsoleError.message_handler]

/-- What the calls made within a submission tell of its run. -/
structure Reported (line : String) (t : Traced σ Submission) (o : Outcome σ Submission) :
    Prop where
  result_eq : o.result = t.result
  state_eq : o.state = t.state
  authored_eq : authored o.events = t.calls.lines ++ report t.result
  host_lines : hostLines o.events = (t.calls.lines ++ report t.result).map Prod.snd
  console_lines : consoleLines (authored o.events) =
    errorLines (failures (t.calls.submissions ++ [(line, t.result)]))
  console_count : (consoleLines (authored o.events)).length =
    (t.calls.submissions ++ [(line, t.result)]).countP (!·.2.isOk)
  chained : ∀ e names, Chain e names t.result t.calls →
    o.result = .error (wrapped e names) ∧
    (errorLines (layers e names)).Sublist (consoleLines (authored o.events)) ∧
    ((t.calls.submissions ++ [(line, t.result)]).countP (!·.2.isOk) = names.length + 1 →
      consoleLines (authored o.events) = errorLines (layers e names))

theorem AgreesSubmit.reported {t : Traced σ Submission} {o : Outcome σ Submission}
    (h : AgreesSubmit t o) (line : String) : Reported line t o := by
  have hauthored : authored o.events = t.calls.lines ++ report t.result := h.authored_eq
  have hconsole : consoleLines (authored o.events) =
      errorLines (failures (t.calls.submissions ++ [(line, t.result)])) := by
    rw [hauthored, consoleLines_append, t.calls.consoleLines_lines, consoleLines_report line,
      failures_append, errorLines_append]
  have hcount : (consoleLines (authored o.events)).length =
      (t.calls.submissions ++ [(line, t.result)]).countP (!·.2.isOk) := by
    rw [hconsole, errorLines, List.length_map, length_failures]
  refine ⟨h.result_eq, h.state_eq, hauthored, ?_, hconsole, hcount, fun e names hchain => ?_⟩
  · rw [hostLines_eq_authored, hauthored]
  · have hsub : (errorLines (layers e names)).Sublist (consoleLines (authored o.events)) := by
      rw [hauthored]
      exact hchain.reports_sublist
    refine ⟨h.result_eq.trans hchain.answer_eq, hsub, fun hlength => ?_⟩
    refine (hsub.eq_of_length ?_).symm
    rw [hcount, hlength, errorLines, List.length_map, length_layers]

/-- Every submission that fails is reported by one line, behind the lines shown within it, and the
console shows nothing else. An execution that fails is not reported. -/
theorem failures_reported_once (c : Console (Handler σ)) (depth : Nat) (s : σ) :
    (∀ name tokens,
      (∀ e, c.registry.resolve name tokens = .error e →
        ∃ o, c.execute depth name tokens s = some o ∧ o.result = .error e ∧ o.state = s ∧
          hostLines o.events = []) ∧
      ∀ r, c.registry.resolve name tokens = .ok r →
        Option.Rel (Executes name r.index) (c.runHandler depth name r s)
          (c.execute (depth + 1) name tokens s)) ∧
    (∀ line,
      ((∀ ch ∈ line.toList, isBlank ch = true) →
        c.submit depth line s = some ⟨.ok .noOp, s, []⟩) ∧
      (∀ l, CommandLine.read? line = some l →
        (∀ e, c.registry.resolve l.name l.arguments = .error e →
          ∃ o, c.submit depth line s = some o ∧ o.result = .error e ∧ o.state = s ∧
            hostLines o.events = [(.error, e.message)]) ∧
        ∀ r, c.registry.resolve l.name l.arguments = .ok r →
          c.submit 0 line s = none ∧
          Option.Rel (Submits l.name r.index) (c.runHandler depth l.name r s)
            (c.submit (depth + 1) line s)) ∧
      Option.Rel (Reported line) (c.traceSubmit depth line s) (c.submit depth line s) ∧
      ∀ depth' o, depth ≤ depth' → c.submit depth line s = some o →
        c.submit depth' line s = some o) ∧
    ∀ e names, (wrapped e names).message =
      names.foldr (fun name text => "command '" ++ name ++ "' failed: " ++ text) e.message := by
  refine ⟨fun name tokens => ⟨fun e he => ?_, fun r hr => c.executes hr depth s⟩,
    fun line => ⟨fun hblank => ?_, fun l hl => ⟨fun e he => ?_, fun r hr => ⟨?_, ?_⟩⟩, ?_,
      fun depth' o hle => c.submit_mono hle line s⟩, message_wrapped⟩
  · exact ⟨_, c.execute_of_error he depth s, rfl, rfl, hostLines_diagnostics _⟩
  · rw [Console.submit, submitBy, CommandLine.read?_eq_none_iff.2 hblank]
  · have hrel := submit_reports c hl depth s
    rw [c.execute_of_error he] at hrel
    obtain ⟨o, ho, hreports⟩ := exists_of_rel_some hrel
    refine ⟨o, ho, (hreports.error_iff e).2 rfl, hreports.state_eq, ?_⟩
    rw [hreports.lines_of_error e rfl, Console.notes, hostLines_diagnostics]
    rfl
  · rw [Console.submit, submitBy, hl]
    simp only [c.execute_zero hr, Option.map_none]
  · refine rel_comp ?_ (c.executes hr depth s) (submit_reports c hl (depth + 1) s)
    exact fun ran executed o hran hreports => .of_reports hran hreports
  · exact rel_imp (fun _ _ h => h.reported line)
      (traceSubmitBy_agrees (c.traceExecute_agrees depth) line s)

end runs

/-- A handler that submits a line and has the error of the submission, if it fails. -/
def relay (line : String) : Handler Unit := fun _ =>
  .submit line fun
    | .ok _ => .done ()
    | .error e => .fail e

def relays : Console (Handler Unit) :=
  (Console.new .default).registerAll
    [⟨⟨"outer", [], "", ""⟩, relay "inner"⟩, ⟨⟨"inner", [], "", ""⟩, relay "missing"⟩]

theorem failures_reported_once_relayed :
    relays.submit 2 " \t" () = some ⟨.ok .noOp, (), []⟩ ∧
    (∃ o, relays.execute 2 "missing" [] () = some o ∧ hostLines o.events = []) ∧
    (∃ o, relays.submit 2 "missing" () = some o ∧
      hostLines o.events = [(.error, "Unknown command 'missing'")]) ∧
    (∃ r, relays.registry.resolve "inner" [] = .ok r ∧
      Option.Rel (Executes "inner" r.index) (relays.runHandler 2 "inner" r ())
        (relays.execute 3 "inner" [] ()) ∧
      Option.Rel (Submits "inner" r.index) (relays.runHandler 2 "inner" r ())
        (relays.submit 3 "inner" ())) ∧
    ∃ o, relays.submit 2 "outer" () = some o ∧ relays.submit 7 "outer" () = some o ∧
      o.result = .error (wrapped (.unknownCommand "missing") ["outer", "inner"]) ∧
      consoleLines (authored o.events) =
        errorLines (layers (.unknownCommand "missing") ["outer", "inner"]) := by
  obtain ⟨hexecute, hsubmit, -⟩ := failures_reported_once relays 2 ()
  have htrace : relays.traceSubmit 2 "outer" () =
      some ⟨.error (wrapped (.unknownCommand "missing") ["outer", "inner"]), (),
        .submit "inner" (.error (wrapped (.unknownCommand "missing") ["inner"]))
          (.submit "missing" (.error (.unknownCommand "missing")) .done .done) .done⟩ := rfl
  refine ⟨(hsubmit _).1 (List.all_eq_true.1 rfl), ?_, ?_, ⟨_, rfl, ?_, ?_⟩, ?_⟩
  · obtain ⟨o, ho, -, -, hlines⟩ := (hexecute "missing" []).1 _ rfl
    exact ⟨o, ho, hlines⟩
  · obtain ⟨o, ho, -, -, hlines⟩ := ((hsubmit "missing").2.1 ⟨"missing", []⟩ rfl).1 _ rfl
    exact ⟨o, ho, hlines⟩
  · exact (hexecute "inner" []).2 _ rfl
  · exact (((hsubmit "inner").2.1 ⟨"inner", []⟩ rfl).2 _ rfl).2
  · obtain ⟨-, -, hrel, hmono⟩ := hsubmit "outer"
    rw [htrace] at hrel
    obtain ⟨o, ho, hreported⟩ := exists_of_rel_some hrel
    obtain ⟨hresult, -, hlines⟩ := hreported.chained (.unknownCommand "missing")
      ["outer", "inner"] (.handler "outer" (.handler "inner" (.cause _) (.head _)) (.head _))
    exact ⟨o, ho, hmono 7 o (by decide) ho, hresult, hlines rfl⟩

end CommandConsole
