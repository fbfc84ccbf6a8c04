import CommandConsole.Proofs.CommandAnswers
import CommandConsole.Proofs.HistoryEntries
import CommandConsole.Proofs.SortedSuggestions
set_option autoImplicit false

/-!
Sessions as conversations: the lines they read, each with the text printed for it and whether the
session goes on. What a session says to a line is told by the cleaned line and, for one command, by
the lines recorded before it.
-/

namespace CommandConsole

/-- One line of a conversation: the text that was read, what was printed for it before the next
prompt, and whether the session went on. -/
structure Exchange where
  line : String
  answer : String
  goesOn : Bool
  deriving DecidableEq, Repr

/-- The conversation of a session, as far as its input is text and no line ends it. -/
def Session.exchanges (s : Session) : List (List UInt8) → List Exchange
  | [] => []
  | bytes :: rest =>
    match decodeText? bytes with
    | none => []
    | some line =>
      ⟨line, (s.enter line).2, (s.enter line).1.state.running⟩ ::
        if (s.enter line).1.state.running then (s.enter line).1.exchanges rest else []

section steps

variable (s : Session) {bytes : List UInt8} {line : String} (rest : List (List UInt8))

theorem Session.exchanges_none (h : decodeText? bytes = none) :
    s.exchanges (bytes :: rest) = [] := by
  rw [exchanges, h]

theorem Session.exchanges_some (h : decodeText? bytes = some line) :
    s.exchanges (bytes :: rest) =
      ⟨line, (s.enter line).2, (s.enter line).1.state.running⟩ ::
        if (s.enter line).1.state.running then (s.enter line).1.exchanges rest else [] := by
  rw [exchanges, h]

theorem Session.turn_none (h : decodeText? bytes = none) : s.turn bytes = .ended "" false := by
  rw [turn, h]

theorem Session.turn_ended (h : decodeText? bytes = some line)
    (hended : (s.enter line).1.state.running = false) :
    s.turn bytes = .ended (s.enter line).2 true := by
  rw [turn, h]
  dsimp only
  rw [hended, if_neg Bool.false_ne_true]

theorem Session.turn_running (h : decodeText? bytes = some line)
    (hrunning : (s.enter line).1.state.running = true) :
    s.turn bytes = .next (s.enter line).2 (s.enter line).1 := by
  rw [turn, h]
  dsimp only
  rw [hrunning, if_pos rfl]

theorem Session.run_none (h : decodeText? bytes = none) :
    s.run (bytes :: rest) = ⟨s.console.config.prompt, false⟩ := by
  rw [run, s.turn_none h]
  simp

theorem Session.run_ended (h : decodeText? bytes = some line)
    (hended : (s.enter line).1.state.running = false) :
    s.run (bytes :: rest) = ⟨s.console.config.prompt ++ (s.enter line).2, true⟩ := by
  rw [run, s.turn_ended h hended]

theorem Session.run_running (h : decodeText? bytes = some line)
    (hrunning : (s.enter line).1.state.running = true) :
    s.run (bytes :: rest) =
      ⟨s.console.config.prompt ++ (s.enter line).2 ++ ((s.enter line).1.run rest).output,
        ((s.enter line).1.run rest).succeeded⟩ := by
  rw [run, s.turn_running h hrunning]

end steps

/-- The lines of a conversation are the texts of its input, as far as they are read. -/
theorem Session.lines_exchanges (s : Session) (input : List (List UInt8)) :
    (s.exchanges input).map (fun x => some x.line) <+: input.map decodeText? := by
  induction input generalizing s with
  | nil => exact List.prefix_rfl
  | cons bytes rest ih =>
    cases hdecode : decodeText? bytes with
    | none =>
      rw [s.exchanges_none rest hdecode]
      exact List.nil_prefix
    | some line =>
      rw [s.exchanges_some rest hdecode, List.map_cons, List.map_cons, hdecode]
      split
      · exact List.cons_prefix_cons.2 ⟨rfl, ih _⟩
      · exact List.cons_prefix_cons.2 ⟨rfl, List.nil_prefix⟩

/-- What a conversation prints: a prompt before each line, and one more unless a line ended it. -/
def printed (prompt : String) (xs : List Exchange) : String :=
  String.join (xs.map fun x => prompt ++ x.answer) ++ if xs.all (·.goesOn) then prompt else ""

/-- The cleaned lines of a conversation that were submitted. -/
def submittedLines (config : Config) (xs : List Exchange) : List String :=
  (xs.map fun x => cleanLine config x.line).filter isSubmitted

theorem submittedLines_cons (config : Config) (x : Exchange) (xs : List Exchange) :
    submittedLines config (x :: xs) =
      [cleanLine config x.line].filter isSubmitted ++ submittedLines config xs := by
  rw [submittedLines, submittedLines, ← List.filter_append, List.map_cons, List.singleton_append]

theorem Session.console_enter (s : Session) (line : String) :
    (s.enter line).1.console = s.console := by
  rw [enter]
  split
  · rfl
  · rfl
  · rw [submit]
    split <;> rfl

theorem printed_cons (prompt : String) (x : Exchange) (xs : List Exchange) :
    printed prompt (x :: xs) =
      prompt ++ x.answer ++ if x.goesOn then printed prompt xs
        else String.join (xs.map fun x => prompt ++ x.answer) := by
  rw [printed, printed, List.map_cons, String.join_cons, List.all_cons]
  cases x.goesOn <;> simp [String.append_assoc]

/-- A run prints its conversation. -/
theorem Session.output_run (s : Session) (input : List (List UInt8)) :
    (s.run input).output = printed s.console.config.prompt (s.exchanges input) := by
  induction input generalizing s with
  | nil => rfl
  | cons bytes rest ih =>
    cases hdecode : decodeText? bytes with
    | none =>
      rw [s.run_none rest hdecode, s.exchanges_none rest hdecode]
      rfl
    | some line =>
      rw [s.exchanges_some rest hdecode, printed_cons]
      cases hrunning : (s.enter line).1.state.running with
      | true =>
        rw [s.run_running rest hdecode hrunning, ih, s.console_enter, if_pos rfl, if_pos rfl]
      | false => simp [s.run_ended rest hdecode hrunning]

section program

variable {decode : ConfigDecoder} {argument environment : Option ConfigFile} (terminal : Bool)

theorem runProgram_error {e : ConsoleError}
    (h : startupConfig decode argument environment = .error e) (input : List UInt8) :
    runProgram decode terminal argument environment input = ⟨"", false⟩ := by
  rw [runProgram, h]

theorem runProgram_ok {config : Config}
    (h : startupConfig decode argument environment = .ok config) (input : List UInt8) :
    runProgram decode terminal argument environment input =
      (Session.start terminal config).run (splitLines input) := by
  rw [runProgram, h]

end program

theorem printLines_cons (x : String) (xs : List String) :
    printLines (x :: xs) = x ++ "\n" ++ printLines xs := by
  rw [printLines, List.map_cons, String.join_cons, printLines]

/-- What stays the same in a session of the program. -/
structure Session.Kept (terminal : Bool) (config : Config) (s : Session) : Prop where
  console_eq : s.console = sessionConsole config
  sound : s.suggestions.Sound
  capacity_eq : s.suggestions.capacity = config.maxSuggestions
  terminal_eq : s.state.transcript.terminal = terminal

/-- A session of the program that waits for a line. -/
structure Session.Ready (terminal : Bool) (config : Config) (s : Session) : Prop extends
    s.Kept terminal config where
  running : s.state.running = true

theorem Session.ready_start (terminal : Bool) (config : Config) :
    (Session.start terminal config).Ready terminal config where
  console_eq := rfl
  sound := .empty _
  capacity_eq := rfl
  terminal_eq := rfl
  running := rfl

/-- What a cleaned line makes of a session: it is recorded if it is submitted, and the session goes
on unless it quits. -/
structure Session.Moves (terminal : Bool) (config : Config) (cleaned : String) (s next : Session) :
    Prop extends next.Kept terminal config where
  history_eq : next.state.history = s.state.history.pushAll ([cleaned].filter isSubmitted)
  running_iff : next.state.running = true ↔ cleaned ≠ "quit"

/-- The names that are shown for the beginning of one: the first ones that the configuration leaves
room for, the shortest in front. -/
def shownNames (config : Config) (start : String) : List String :=
  (((sessionConsole config).suggest start).take config.maxSuggestions).mergeSort fun x y =>
    x.length ≤ y.length

section enter

variable {terminal : Bool} {config : Config} {s : Session} {line : String}

theorem Session.Kept.config_eq (h : s.Kept terminal config) : s.console.config = config := by
  rw [h.console_eq, config_sessionConsole]

theorem cleaned_cases (cleaned : String) :
    cleaned = "" ∨ (∃ text, cleaned = "?" ++ text) ∨ isSubmitted cleaned = true := by
  cases h : cleaned.toList with
  | nil => exact .inl (String.toList_eq_nil_iff.1 h)
  | cons c r =>
    by_cases hc : c = '?'
    · subst hc
      refine .inr (.inl ⟨String.ofList r, ?_⟩)
      rw [← String.toList_inj, h]
      simp [String.toList_append]
    · exact .inr (.inr (by simp [isSubmitted, h, hc]))

theorem Session.enter_blank (h : cleanLine s.console.config line = "") :
    s.enter line = (s, "") := by
  simp [enter, h]

theorem Session.enter_query {text : String} (h : cleanLine s.console.config line = "?" ++ text) :
    s.enter line = s.suggest (trimmed text) := by
  have hlist : (cleanLine s.console.config line).toList = '?' :: text.toList := by
    rw [h, String.toList_append]
    rfl
  rw [enter, hlist]
  rfl

theorem Session.enter_submitted
    (h : isSubmitted (cleanLine s.console.config line) = true) :
    s.enter line = s.submit (cleanLine s.console.config line) := by
  rw [enter]
  split
  · next hnil => simp [isSubmitted, hnil] at h
  · next hquery => simp [isSubmitted, hquery] at h
  · rfl

theorem isSubmitted_query (text : String) : isSubmitted ("?" ++ text) = false := by
  simp [isSubmitted, String.toList_append]

/-- A question is answered from the names alone, whatever the buffer held. -/
theorem Session.Kept.suggest (h : s.Kept terminal config) (start : String) :
    (s.suggest start).2 = printLines ((shownNames config start).map ("  " ++ ·)) ∧
      (s.suggest start).1.Kept terminal config ∧ (s.suggest start).1.state = s.state := by
  obtain ⟨hsound, hcapacity, hlist⟩ := s.suggestions.fill_spec h.sound s.console.registry.names
    start s.console.config.includeExactSuggestion
  have hfound : (s.console.suggestInto start s.suggestions).sortByLength.toList =
      shownNames config start := by
    rw [Console.suggestInto, hsound.toList_sortByLength, hlist, h.capacity_eq, h.console_eq]
    rfl
  refine ⟨?_, ?_, rfl⟩
  · rw [← hfound]
    rfl
  · exact ⟨h.console_eq, hsound.sortByLength, hcapacity.trans h.capacity_eq, h.terminal_eq⟩

/-- A submitted line is answered alike in all sessions, but for the history where it is asked
for. -/
theorem submit_spec (terminal : Bool) (hsubmitted : isSubmitted (cleanLine config line) = true)
    (h : History) :
    ∃ answer, ∀ s : Session, s.Ready terminal config →
      (cleanLine config line = "history" → s.state.history = h) →
      (s.submit (cleanLine config line)).2 = answer ∧
        s.Moves terminal config (cleanLine config line) (s.submit (cleanLine config line)).1 := by
  obtain ⟨result, events, drawn, hrun⟩ :=
    answersAlike_submit hsubmitted (h.push (cleanLine config line)).1
  refine ⟨drawn terminal ++ writtenLines terminal (hostLines events), fun s hs hhistory => ?_⟩
  obtain ⟨t, ht, hfollows⟩ := hrun (s.state.record (cleanLine config line))
    fun hline => by rw [SessionState.history_record, hhistory hline]
  rw [← hs.console_eq] at ht
  have hsubmit : s.submit (cleanLine config line) =
      ({ s with state := t.display (hostLines events) },
        (t.display (hostLines events)).transcript.written) := by
    rw [Session.submit]
    dsimp only
    rw [ht]
  have hterminal : t.transcript.terminal = terminal := hfollows.terminal_eq.trans hs.terminal_eq
  rw [hsubmit]
  refine ⟨?_, ⟨hs.console_eq, hs.sound, hs.capacity_eq, ?_⟩, ?_, ?_⟩
  · rw [SessionState.display, Transcript.written_logAll, hterminal, hfollows.written_eq,
      SessionState.terminal_record, hs.terminal_eq, SessionState.written_record,
      String.empty_append]
  · rw [SessionState.display, Transcript.terminal_logAll, hterminal]
  · rw [List.filter_cons_of_pos hsubmitted, SessionState.history_display, hfollows.history_eq,
      SessionState.history_record]
    rfl
  · rw [SessionState.running_display, hfollows.running_iff, SessionState.running_record]
    exact and_iff_right hs.running

theorem enter_spec (terminal : Bool) (config : Config) (line : String) (h : History) :
    ∃ answer, ∀ s : Session, s.Ready terminal config →
      (cleanLine config line = "history" → s.state.history = h) →
      (s.enter line).2 = answer ∧
        s.Moves terminal config (cleanLine config line) (s.enter line).1 := by
  rcases cleaned_cases (cleanLine config line) with hline | ⟨text, hline⟩ | hline
  · refine ⟨"", fun s hs _ => ?_⟩
    rw [Session.enter_blank (by rw [hs.config_eq, hline])]
    refine ⟨rfl, hs.toKept, ?_, ?_⟩
    · simp [hline, isSubmitted, History.pushAll]
    · simp [hline, hs.running]
  · refine ⟨printLines ((shownNames config (trimmed text)).map ("  " ++ ·)), fun s hs _ => ?_⟩
    obtain ⟨hanswer, hkept, hstate⟩ := hs.suggest (trimmed text)
    rw [Session.enter_query (by rw [hs.config_eq, hline])]
    refine ⟨hanswer, hkept, ?_, ?_⟩
    · simp [hline, isSubmitted_query, History.pushAll, hstate]
    · have hne : "?" ++ text ≠ "quit" := by
        intro heq
        have hsubmitted := isSubmitted_query text
        rw [heq] at hsubmitted
        exact absurd hsubmitted (by decide +kernel)
      simp [hline, hstate, hs.running, hne]
  · obtain ⟨answer, hanswer⟩ := submit_spec terminal hline h
    refine ⟨answer, fun s hs hhistory => ?_⟩
    rw [Session.enter_submitted (by rw [hs.config_eq, hline]), hs.config_eq]
    exact hanswer s hs hhistory

theorem Session.Moves.ready {cleaned : String} {next : Session}
    (h : s.Moves terminal config cleaned next) (hrunning : next.state.running = true) :
    next.Ready terminal config :=
  ⟨h.toKept, hrunning⟩

theorem Session.Ready.moves (h : s.Ready terminal config) (line : String) :
    s.Moves terminal config (cleanLine config line) (s.enter line).1 := by
  obtain ⟨answer, hanswer⟩ := enter_spec terminal config line s.state.history
  exact (hanswer s h fun _ => rfl).2

/-- Two sessions say the same to a line, unless it asks for histories that differ. -/
theorem Session.Ready.answer_eq {t : Session} {line' : String} (hs : s.Ready terminal config)
    (ht : t.Ready terminal config) (hline : cleanLine config line = cleanLine config line')
    (hhistory : cleanLine config line = "history" → s.state.history = t.state.history) :
    (s.enter line).2 = (t.enter line').2 := by
  have hsame : t.enter line' = t.enter line := by
    rw [Session.enter, Session.enter, ht.config_eq, hline]
  obtain ⟨answer, hanswer⟩ := enter_spec terminal config line t.state.history
  rw [hsame, (hanswer s hs hhistory).1, (hanswer t ht fun _ => rfl).1]

/-- Every line of a conversation is read by a session that has recorded the lines before it. -/
theorem exchange_spec (hs : s.Ready terminal config) {input : List (List UInt8)} {i : Nat}
    {x : Exchange} (hx : (s.exchanges input)[i]? = some x) :
    ∃ t : Session, t.Ready terminal config ∧
      t.state.history =
        s.state.history.pushAll (submittedLines config ((s.exchanges input).take i)) ∧
      x.answer = (t.enter x.line).2 ∧ (x.goesOn = true ↔ cleanLine config x.line ≠ "quit") := by
  -- what the first line records stands in front of what the rest records
  induction input generalizing s i with
  | nil => simp [Session.exchanges] at hx
  | cons bytes rest ih =>
    cases hdecode : decodeText? bytes with
    | none => simp [s.exchanges_none rest hdecode] at hx
    | some line =>
      rw [s.exchanges_some rest hdecode] at hx ⊢
      have hmoves := hs.moves line
      cases i with
      | zero =>
        rw [List.getElem?_cons_zero, Option.some.injEq] at hx
        subst hx
        dsimp only
        exact ⟨s, hs, rfl, rfl, hmoves.running_iff⟩
      | succ i =>
        rw [List.getElem?_cons_succ] at hx
        cases hrunning : (s.enter line).1.state.running with
        | false => simp [hrunning] at hx
        | true =>
          rw [hrunning, if_pos rfl] at hx
          obtain ⟨t, ht, hhistory, hanswer⟩ := ih (hmoves.ready hrunning) hx
          refine ⟨t, ht, ?_, hanswer⟩
          rw [hhistory, hmoves.history_eq, if_pos rfl, List.take_succ_cons, submittedLines_cons,
            History.pushAll_append]

end enter

end CommandConsole
