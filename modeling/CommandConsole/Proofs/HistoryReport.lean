import CommandConsole.Proofs.Conversation
set_option autoImplicit false

/-!
What the history command shows: the newest submitted lines of the session so far, itself among
them, each with its number.
-/

namespace CommandConsole

/-- A line behind its number, which is right-aligned in four places. -/
def numberedLine (number : Nat) (line : String) : String :=
  "  " ++ String.ofList (List.leftpad 4 ' ' (Nat.toDigits 10 number)) ++ "  " ++ line

/-- The submitted lines of a conversation as a history of that size should show them. -/
def recentLines (config : Config) (xs : List Exchange) : List String :=
  ((submittedLines config xs).reverse.destutter (· ≠ ·)).take config.historySize

theorem historyLine_eq (number : Nat) (entry : String) :
    historyLine number entry = numberedLine number entry := by
  rw [historyLine, numberedLine, ← String.toList_inj]
  simp [writeNat, List.leftpad]

theorem joinStrings_cons_cons (sep : Char) (x y : String) (xs : List String) :
    joinStrings sep (x :: y :: xs) = x ++ String.singleton sep ++ joinStrings sep (y :: xs) := by
  rw [← String.toList_inj]
  simp [joinStrings, joinFields]

/-- Several lines shown as one text. -/
theorem printLines_joinStrings {xs : List String} (h : xs ≠ []) :
    printLines [joinStrings '\n' xs] = printLines xs := by
  induction xs with
  | nil => exact absurd rfl h
  | cons x xs ih =>
    cases xs with
    | nil => simp [joinStrings, joinFields]
    | cons y xs =>
      have hrest := ih (List.cons_ne_nil y xs)
      rw [printLines_cons] at hrest ⊢
      rw [joinStrings_cons_cons, printLines_cons, ← hrest]
      simp only [String.append_assoc]
      rfl

/-- Messages are written alike everywhere. -/
theorem writtenLines_message (terminal : Bool) (text : String) :
    writtenLines terminal [(.message, text)] = printLines [text] := by
  cases terminal <;> rfl

theorem isSubmitted_ne_empty {cleaned : String} (h : isSubmitted cleaned = true) :
    cleaned ≠ "" := by
  rintro rfl
  exact absurd h (by decide)

/-- Submitted lines are cleaned and not blank, so the history has nothing to trim or refuse. -/
theorem keptLines_submittedLines (config : Config) (xs : List Exchange) :
    keptLines (submittedLines config xs) =
      (submittedLines config xs).reverse.destutter (· ≠ ·) := by
  have htrimmed : (submittedLines config xs).map trimmed = submittedLines config xs := by
    conv_rhs => rw [← List.map_id (submittedLines config xs)]
    refine List.map_congr_left fun line hline => ?_
    obtain ⟨x, -, rfl⟩ := List.mem_map.1 (List.mem_filter.1 hline).1
    exact trimmed_cleanLine config x.line
  have hfull : (submittedLines config xs).filter (· ≠ "") = submittedLines config xs := by
    rw [List.filter_eq_self]
    exact fun line hline =>
      decide_eq_true (isSubmitted_ne_empty (List.mem_filter.1 hline).2)
  rw [keptLines, htrimmed, hfull]

theorem isSubmitted_history : isSubmitted "history" = true := by decide +kernel

section conversation

variable {terminal : Bool} {config : Config}

theorem submittedLines_take_succ {xs : List Exchange} {i : Nat} {x : Exchange}
    (hx : xs[i]? = some x) (hsubmitted : isSubmitted (cleanLine config x.line) = true) :
    submittedLines config (xs.take (i + 1)) =
      submittedLines config (xs.take i) ++ [cleanLine config x.line] := by
  rw [List.take_add_one, hx, submittedLines, List.map_append, List.filter_append]
  simp [submittedLines, hsubmitted]

theorem head?_recentLines {xs : List Exchange} {i : Nat} {x : Exchange} (hx : xs[i]? = some x)
    (hsubmitted : isSubmitted (cleanLine config x.line) = true) (hsize : config.historySize ≠ 0) :
    (recentLines config (xs.take (i + 1))).head? = some (cleanLine config x.line) := by
  rw [recentLines, List.head?_take, if_neg hsize, head?_destutter_ne,
    submittedLines_take_succ hx hsubmitted]
  simp

theorem entries_recentLines (config : Config) (xs : List Exchange) :
    ((History.empty config.historySize).pushAll (submittedLines config xs)).entries =
      recentLines config xs := by
  rw [History.entries_pushAll, keptLines_submittedLines, recentLines]

/-- The line records itself before it is answered. -/
theorem Session.Ready.answer_history {s : Session} {line : String}
    (hs : s.Ready terminal config) (hline : cleanLine config line = "history") :
    (s.enter line).2 = printLines [historyText (s.state.history.pushAll ["history"])] := by
  have hsubmitted : isSubmitted (cleanLine s.console.config line) = true := by
    rw [hs.config_eq, hline]
    exact isSubmitted_history
  obtain ⟨o, ho, hstate, hlines⟩ := submit_history config (s.state.record "history")
  rw [Session.enter_submitted hsubmitted, hs.config_eq, hline, submit]
  dsimp only
  rw [hs.console_eq, ho]
  dsimp only
  rw [hlines, hstate, SessionState.display, Transcript.written_logAll,
    SessionState.written_record, String.empty_append, writtenLines_message,
    SessionState.history_record]
  rfl

/-- The history that is shown holds the recent lines up to the one that asks for it. -/
theorem exists_shown_history {input : List (List UInt8)} {i : Nat} {x : Exchange}
    (hx : ((Session.start terminal config).exchanges input)[i]? = some x)
    (hline : cleanLine config x.line = "history") :
    ∃ h : History, x.answer = printLines [historyText h] ∧
      h.entries =
        recentLines config (((Session.start terminal config).exchanges input).take (i + 1)) := by
  have hsubmitted : isSubmitted (cleanLine config x.line) = true := hline ▸ isSubmitted_history
  obtain ⟨s, hs, hhistory, hanswer, -⟩ := exchange_spec (Session.ready_start terminal config) hx
  refine ⟨_, hanswer.trans (hs.answer_history hline), ?_⟩
  rw [← entries_recentLines, submittedLines_take_succ hx hsubmitted, hline, hhistory,
    History.pushAll_append]
  rfl

theorem printLines_historyText_nil {h : History} (hnil : h.entries = []) :
    printLines [historyText h] = "(no history)\n" := by
  rw [historyText, History.isEmpty, hnil, List.isEmpty_nil, if_pos rfl]
  rfl

theorem printLines_historyText {h : History} (hne : h.entries ≠ []) :
    printLines [historyText h] =
      printLines (h.entries.mapIdx fun k entry => numberedLine (k + 1) entry) := by
  have hlines : h.entries.mapIdx (fun k entry => historyLine (k + 1) entry) ≠ [] := by
    rwa [Ne, List.mapIdx_eq_nil_iff]
  have hempty : h.isEmpty = false := by
    rw [History.isEmpty, List.isEmpty_eq_false_iff]
    exact hne
  rw [historyText, hempty, if_neg Bool.false_ne_true, printLines_joinStrings hlines]
  simp only [historyLine_eq]

theorem printLines_numberedLine_ne {entries : List String} (hne : entries ≠ []) :
    printLines (entries.mapIdx fun k entry => numberedLine (k + 1) entry) ≠ "(no history)\n" := by
  cases entries with
  | nil => exact absurd rfl hne
  | cons entry entries =>
    intro h
    -- a report begins with a blank, the notice with a bracket
    rw [List.mapIdx_cons, printLines_cons] at h
    have hhead := congrArg (·.toList.head?) h
    simp [numberedLine] at hhead

end conversation

/-- The history command is called by the line `history` and by no other. It shows the newest lines
that were submitted up to and with this one, without repeats, unless nothing is to be kept. -/
theorem history_is_truthful (terminal : Bool) (config : Config) (input : List (List UInt8)) :
    ((Session.start terminal config).run input).output =
      printed config.prompt ((Session.start terminal config).exchanges input) ∧
    ∀ (i : Nat) (x : Exchange), ((Session.start terminal config).exchanges input)[i]? = some x →
      ((Session.start terminal config).console.Invokes x.line historyCommand ↔
        cleanLine config x.line = "history") ∧
      ((Session.start terminal config).console.Invokes x.line historyCommand →
        (x.answer = "(no history)\n" ↔ config.historySize = 0) ∧
        (config.historySize ≠ 0 →
          x.answer = printLines ((recentLines config
            (((Session.start terminal config).exchanges input).take (i + 1))).mapIdx
              fun k line => numberedLine (k + 1) line) ∧
          (recentLines config
            (((Session.start terminal config).exchanges input).take (i + 1))).head? =
              some "history")) := by
  have hstart := Session.ready_start terminal config
  refine ⟨by rw [Session.output_run, hstart.config_eq], fun i x hx => ?_⟩
  have hinvokes : (Session.start terminal config).console.Invokes x.line historyCommand ↔
      cleanLine config x.line = "history" := invokes_history_iff config x.line
  refine ⟨hinvokes, fun hcall => ?_⟩
  have hline := hinvokes.1 hcall
  obtain ⟨h, hanswer, hentries⟩ := exists_shown_history hx hline
  by_cases hsize : config.historySize = 0
  · have hnil : h.entries = [] := by
      rw [hentries, recentLines, hsize, List.take_zero]
    exact ⟨iff_of_true (hanswer.trans (printLines_historyText_nil hnil)) hsize,
      fun hne => absurd hsize hne⟩
  · have hhead := head?_recentLines hx (hline ▸ isSubmitted_history) hsize
    rw [hline, ← hentries] at hhead
    have hne : h.entries ≠ [] := by
      intro hnil
      rw [hnil] at hhead
      cases hhead
    rw [printLines_historyText hne] at hanswer
    refine ⟨iff_of_false ?_ hsize, fun _ => ?_⟩
    · rw [hanswer]
      exact printLines_numberedLine_ne hne
    · rw [← hentries]
      exact ⟨hanswer, hhead⟩

/-- A failed line that was repeated is shown once, and a question is not. -/
theorem history_is_truthful_repeated :
    ∃ x : Exchange, ((Session.start true .default).exchanges ["nope\n".toUTF8.data.toList,
        "?h\n".toUTF8.data.toList, "nope \n".toUTF8.data.toList,
        "history\n".toUTF8.data.toList])[3]? = some x ∧
      x.answer = "     1  history\n     2  nope\n" := by
  have hx : ((Session.start true .default).exchanges ["nope\n".toUTF8.data.toList,
      "?h\n".toUTF8.data.toList, "nope \n".toUTF8.data.toList,
      "history\n".toUTF8.data.toList])[3]? =
        some ⟨"history\n", "     1  history\n     2  nope\n", true⟩ := by
    decide +kernel
  have htruth := (history_is_truthful true .default _).2 3 _ hx
  have hanswer := (htruth.2 (htruth.1.2 (by decide +kernel))).2 (by decide)
  exact ⟨_, hx, hanswer.1.trans (by decide +kernel)⟩

end CommandConsole
