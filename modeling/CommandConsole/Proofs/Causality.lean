import CommandConsole.Proofs.Conversation
set_option autoImplicit false

/-!
How sessions end, and what the input behind that point can change: nothing. Input that is added
behind a line feed only adds to the output.
-/

namespace CommandConsole

/-- The ways a session ends: a line calls the command that quits, a line is not text, or there are
no more lines. -/
inductive Ending
  | quit
  | notText
  | inputOver
  deriving DecidableEq, Repr

/-- The session reads its input up to that ending. -/
inductive Session.Ends : Session → List (List UInt8) → Ending → Prop
  | inputOver {s : Session} : s.Ends [] .inputOver
  | notText {s : Session} {bytes : List UInt8} {rest : List (List UInt8)} :
      decodeText? bytes = none → s.Ends (bytes :: rest) .notText
  | quit {s : Session} {bytes : List UInt8} {rest : List (List UInt8)} {line : String} :
      decodeText? bytes = some line → s.console.Invokes line quitCommand →
        s.Ends (bytes :: rest) .quit
  | next {s : Session} {bytes : List UInt8} {rest : List (List UInt8)} {line : String}
      {ending : Ending} :
      decodeText? bytes = some line → ¬ s.console.Invokes line quitCommand →
        (s.enter line).1.Ends rest ending → s.Ends (bytes :: rest) ending

theorem Session.exists_ends (s : Session) (input : List (List UInt8)) :
    ∃ ending, s.Ends input ending := by
  induction input generalizing s with
  | nil => exact ⟨_, .inputOver⟩
  | cons bytes rest ih =>
    cases hdecode : decodeText? bytes with
    | none => exact ⟨_, .notText hdecode⟩
    | some line =>
      by_cases hquit : s.console.Invokes line quitCommand
      · exact ⟨_, .quit hdecode hquit⟩
      · obtain ⟨ending, hends⟩ := ih (s.enter line).1
        exact ⟨ending, .next hdecode hquit hends⟩

theorem Session.Ends.unique {s : Session} {input : List (List UInt8)} {e e' : Ending}
    (h : s.Ends input e) (h' : s.Ends input e') : e = e' := by
  induction h with
  | inputOver => cases h'; rfl
  | notText hdecode =>
    cases h' with
    | notText => rfl
    | quit hdecode' => cases hdecode.symm.trans hdecode'
    | next hdecode' => cases hdecode.symm.trans hdecode'
  | quit hdecode hquit =>
    cases h' with
    | notText hdecode' => cases hdecode.symm.trans hdecode'
    | quit => rfl
    | next hdecode' hgoes =>
      cases hdecode.symm.trans hdecode'
      exact absurd hquit hgoes
  | next hdecode hgoes _ ih =>
    cases h' with
    | notText hdecode' => cases hdecode.symm.trans hdecode'
    | quit hdecode' hquit =>
      cases hdecode.symm.trans hdecode'
      exact absurd hquit hgoes
    | next hdecode' _ hends =>
      cases hdecode.symm.trans hdecode'
      exact ih hends

theorem Session.output_run_eq_prompt (s : Session) (input : List (List UInt8)) :
    ∃ more, (s.run input).output = s.console.config.prompt ++ more := by
  rw [output_run]
  cases s.exchanges input with
  | nil => exact ⟨"", by simp [printed]⟩
  | cons x xs => exact ⟨_, by rw [printed_cons, String.append_assoc]⟩

/-- What a session printed is not taken back, whatever lines follow. -/
theorem Session.output_run_append (s : Session) (a b : List (List UInt8)) :
    ∃ more, (s.run (a ++ b)).output = (s.run a).output ++ more := by
  induction a generalizing s with
  | nil => exact s.output_run_eq_prompt b
  | cons bytes rest ih =>
    rw [List.cons_append]
    cases hdecode : decodeText? bytes with
    | none =>
      refine ⟨"", ?_⟩
      rw [s.run_none _ hdecode, s.run_none _ hdecode, String.append_empty]
    | some line =>
      cases hrunning : (s.enter line).1.state.running with
      | false =>
        refine ⟨"", ?_⟩
        rw [s.run_ended _ hdecode hrunning, s.run_ended _ hdecode hrunning, String.append_empty]
      | true =>
        obtain ⟨more, hmore⟩ := ih (s.enter line).1
        refine ⟨more, ?_⟩
        rw [s.run_running _ hdecode hrunning, s.run_running _ hdecode hrunning, hmore]
        simp only [String.append_assoc]

section ready

variable {terminal : Bool} {config : Config} {s : Session}

theorem Session.Ready.running_enter_iff (hs : s.Ready terminal config) (line : String) :
    (s.enter line).1.state.running = true ↔ ¬ s.console.Invokes line quitCommand := by
  rw [(hs.moves line).running_iff, hs.console_eq, invokes_quit_iff]

theorem Session.Ready.running_enter_of_quit {line : String} (hs : s.Ready terminal config)
    (hquit : s.console.Invokes line quitCommand) : (s.enter line).1.state.running = false :=
  Bool.eq_false_iff.2 fun hrunning => (hs.running_enter_iff line).1 hrunning hquit

/-- Nothing behind the end of a session is looked at. -/
theorem Session.Ready.run_append (hs : s.Ready terminal config) {a : List (List UInt8)}
    {ending : Ending} (h : s.Ends a ending) (hending : ending ≠ .inputOver) (b : List (List UInt8)) :
    s.run (a ++ b) = s.run a := by
  induction h with
  | inputOver => exact absurd rfl hending
  | notText hdecode => rw [List.cons_append, run_none _ _ hdecode, run_none _ _ hdecode]
  | quit hdecode hquit =>
    have hended := hs.running_enter_of_quit hquit
    rw [List.cons_append, run_ended _ _ hdecode hended, run_ended _ _ hdecode hended]
  | @next s bytes rest line ending hdecode hgoes hends ih =>
    have hrunning := (hs.running_enter_iff line).2 hgoes
    have hnext := (hs.moves line).ready hrunning
    rw [List.cons_append, run_running _ _ hdecode hrunning, run_running _ _ hdecode hrunning,
      ih hnext hending]

theorem Session.Ready.succeeded_iff (hs : s.Ready terminal config) {input : List (List UInt8)}
    {ending : Ending} (h : s.Ends input ending) :
    (s.run input).succeeded = true ↔ ending ≠ .notText := by
  induction h with
  | inputOver => simp [run]
  | notText hdecode => simp [run_none _ _ hdecode]
  | quit hdecode hquit => simp [run_ended _ _ hdecode (hs.running_enter_of_quit hquit)]
  | @next s bytes rest line ending hdecode hgoes hends ih =>
    have hrunning := (hs.running_enter_iff line).2 hgoes
    rw [run_running _ _ hdecode hrunning]
    exact ih ((hs.moves line).ready hrunning)

end ready

theorem splitLines_ne_nil {input : List UInt8} (h : input ≠ []) : splitLines input ≠ [] := by
  intro hnil
  have hflatten := flatten_splitLines input
  rw [hnil] at hflatten
  exact h hflatten.symm

/-- Input up to a line feed is cut into the same lines, whatever follows. -/
theorem splitLines_append {a : List UInt8} (h : a = [] ∨ a.getLast? = some 10) (b : List UInt8) :
    splitLines (a ++ b) = splitLines a ++ splitLines b := by
  induction a with
  | nil => rfl
  | cons c r ih =>
    rw [List.cons_append, splitLines, splitLines]
    -- a byte at the end of `a` is the line feed, any other one joins a line that is begun behind it
    cases r with
    | nil =>
      have hc : c = 10 := by simpa using h
      rw [if_pos hc, if_pos hc]
      rfl
    | cons c' r =>
      have hlast : (c' :: r).getLast? = some 10 := by simpa [List.getLast?_cons_cons] using h
      rw [ih (.inr hlast)]
      split
      · rfl
      · cases hlines : splitLines (c' :: r) with
        | nil => exact absurd hlines (splitLines_ne_nil (List.cons_ne_nil _ _))
        | cons l ls => rfl

/-- The output is causal: input behind a line feed adds to it, and not even that once the session
ended. The program succeeds unless its configuration is bad or the session ends at a line that is
not text. -/
theorem output_is_causal (decode : ConfigDecoder) (terminal : Bool)
    (argument environment : Option ConfigFile) :
    let program := runProgram decode terminal argument environment
    (∀ a b : List UInt8, (a = [] ∨ a.getLast? = some 10) →
      (∃ more, (program (a ++ b)).output = (program a).output ++ more) ∧
      ∀ config ending, startupConfig decode argument environment = .ok config →
        (Session.start terminal config).Ends (splitLines a) ending → ending ≠ .inputOver →
        program (a ++ b) = program a) ∧
    (∀ e, startupConfig decode argument environment = .error e → ∀ a b : List UInt8,
      program (a ++ b) = program a) ∧
    (∀ input : List UInt8, (program input).succeeded = true ↔
      ∃ config, startupConfig decode argument environment = .ok config ∧
        ¬ (Session.start terminal config).Ends (splitLines input) .notText) ∧
    ∀ (config : Config) (input : List UInt8),
      ∃! ending, (Session.start terminal config).Ends (splitLines input) ending := by
  intro program
  have hrejected : ∀ e, startupConfig decode argument environment = .error e →
      ∀ input, program input = ⟨"", false⟩ :=
    fun e he => runProgram_error terminal he
  have haccepted : ∀ config, startupConfig decode argument environment = .ok config →
      ∀ input, program input = (Session.start terminal config).run (splitLines input) :=
    fun config hconfig => runProgram_ok terminal hconfig
  refine ⟨fun a b ha => ⟨?_, fun config ending hconfig hends hending => ?_⟩, fun e he a b => ?_,
    fun input => ?_, fun config input => ?_⟩
  · cases hconfig : startupConfig decode argument environment with
    | error e =>
      refine ⟨"", ?_⟩
      rw [hrejected e hconfig, hrejected e hconfig, String.append_empty]
    | ok config =>
      rw [haccepted config hconfig, haccepted config hconfig, splitLines_append ha]
      exact Session.output_run_append _ _ _
  · have hstart := Session.ready_start terminal config
    rw [haccepted config hconfig, haccepted config hconfig, splitLines_append ha]
    exact hstart.run_append hends hending _
  · rw [hrejected e he, hrejected e he]
  · cases hconfig : startupConfig decode argument environment with
    | error e => simp [hrejected e hconfig]
    | ok config =>
      have hstart := Session.ready_start terminal config
      obtain ⟨ending, hends⟩ := (Session.start terminal config).exists_ends (splitLines input)
      rw [haccepted config hconfig, hstart.succeeded_iff hends]
      constructor
      · exact fun hending => ⟨config, rfl, fun hnot => hending (hends.unique hnot)⟩
      · rintro ⟨_, ⟨⟩, hnot⟩ rfl
        exact hnot hends
  · obtain ⟨ending, hends⟩ := (Session.start terminal config).exists_ends (splitLines input)
    exact ⟨ending, hends, fun ending' hends' => hends'.unique hends⟩

/-- The sum behind `quit` is not read, and nothing is where the configuration cannot be. -/
theorem output_is_causal_quit :
    let quit := "quit\n".toUTF8.data.toList
    let more := "add 1 2\n".toUTF8.data.toList
    let file : ConfigFile := .unreadable "Is a directory (os error 21)"
    let decode : ConfigDecoder := fun _ => .ok .default
    runProgram decode true none none (quit ++ more) = runProgram decode true none none quit ∧
    startupConfig decode (some file) none = .error (.file "Is a directory (os error 21)") ∧
    runProgram decode true (some file) none (quit ++ more) =
      runProgram decode true (some file) none quit := by
  intro quit more file decode
  have hlines : splitLines quit = [quit] := by decide +kernel
  have hdecode : decodeText? quit = some "quit\n" := by decide +kernel
  have hinvokes : (sessionConsole .default).Invokes "quit\n" quitCommand :=
    (invokes_quit_iff .default "quit\n").2 (by decide +kernel)
  have hends : (Session.start true .default).Ends (splitLines quit) .quit := by
    rw [hlines]
    exact .quit hdecode hinvokes
  have hbad : startupConfig decode (some file) none =
      .error (.file "Is a directory (os error 21)") := rfl
  have hcausal := output_is_causal decode true none none
  have hrejected := output_is_causal decode true (some file) none
  exact ⟨(hcausal.1 quit more (.inr (by decide +kernel))).2 .default .quit rfl hends (by decide),
    hbad, hrejected.2.1 _ hbad quit more⟩

end CommandConsole
