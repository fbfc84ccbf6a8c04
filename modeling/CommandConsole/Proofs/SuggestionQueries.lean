import CommandConsole.Config.Document
import CommandConsole.Proofs.Conversation
set_option autoImplicit false

/-!
Questions for suggestions in a session, and the configuration that bounds their answers.
-/

namespace CommandConsole

section configuration

variable {decode : ConfigDecoder} {config : Config}

theorem Config.maxSuggestions_pos_of_ofDocument {text : String}
    (h : Config.ofDocument decode text = .ok config) : 0 < config.maxSuggestions := by
  unfold ofDocument at h
  split at h
  · cases h
  · next c hread =>
    split at h
    · cases h
    · next hpos =>
      cases h
      exact Nat.pos_of_ne_zero hpos

theorem Config.maxSuggestions_pos_of_load {file : ConfigFile}
    (h : Config.load decode file = .ok config) : 0 < config.maxSuggestions := by
  cases file with
  | missing reason => cases h
  | unreadable reason => cases h
  | contents bytes =>
    rw [Config.load] at h
    cases hdecode : decodeText? bytes with
    | none => rw [hdecode] at h; cases h
    | some text =>
      rw [hdecode] at h
      exact maxSuggestions_pos_of_ofDocument h

/-- Wherever a configuration comes from, it leaves room for a suggestion. -/
theorem maxSuggestions_pos {argument environment : Option ConfigFile}
    (h : startupConfig decode argument environment = .ok config) : 0 < config.maxSuggestions := by
  rw [startupConfig] at h
  split at h
  · cases h
    decide
  · cases h
    decide
  · exact Config.maxSuggestions_pos_of_load h

end configuration

/-- The names that start with a text, in increasing order, those of them that are shown, and what is
printed: the first ones that there is room for, the shortest in front. The text itself counts only
where the configuration asks for it, and the empty text has no matches. -/
structure QueryAnswer (config : Config) (start answer : String) (found shown : List String) :
    Prop where
  found_pairwise : found.Pairwise (· < ·)
  mem_found : ∀ n, n ∈ found ↔ start ≠ "" ∧ n ∈ (sessionConsole config).registry.keys ∧
    start.toList <+: n.toList ∧ (n = start → config.includeExactSuggestion = true)
  shown_perm : shown.Perm (found.take config.maxSuggestions)
  shown_pairwise : shown.Pairwise Shorter
  answer_eq : answer = printLines (shown.map ("  " ++ ·))

theorem count_printLines {xs : List String} (h : ∀ x ∈ xs, '\n' ∉ x.toList) :
    (printLines xs).toList.count '\n' = xs.length := by
  induction xs with
  | nil => rfl
  | cons x xs ih =>
    obtain ⟨hx, hxs⟩ := List.forall_mem_cons.1 h
    rw [printLines_cons, String.toList_append, String.toList_append, List.count_append,
      List.count_append, ih hxs, List.count_eq_zero_of_not_mem hx, List.length_cons, Nat.add_comm]
    rfl

namespace QueryAnswer

variable {config : Config} {start answer : String} {found shown : List String}

theorem length_shown (h : QueryAnswer config start answer found shown) :
    shown.length = min config.maxSuggestions found.length := by
  rw [h.shown_perm.length_eq, List.length_take]

/-- A name can be typed, so it stays on its line. -/
theorem newline_not_mem (h : QueryAnswer config start answer found shown) {n : String}
    (hn : n ∈ shown) : '\n' ∉ n.toList := by
  have hfound : n ∈ found := List.mem_of_mem_take (h.shown_perm.mem_iff.1 hn)
  obtain ⟨-, hkey, -, -⟩ := (h.mem_found n).1 hfound
  have htypeable := (isTypeable_iff.1 ((inStep_sessionConsole config).typeable n hkey)).2
  intro hmem
  exact absurd (htypeable '\n' hmem) (by decide)

theorem count_newlines (h : QueryAnswer config start answer found shown) :
    answer.toList.count '\n' = min config.maxSuggestions found.length := by
  rw [h.answer_eq, count_printLines, List.length_map, h.length_shown]
  intro x hx
  obtain ⟨n, hn, rfl⟩ := List.mem_map.1 hx
  simpa [String.toList_append] using h.newline_not_mem hn

theorem eq_empty_iff (h : QueryAnswer config start answer found shown)
    (hpos : 0 < config.maxSuggestions) : answer = "" ↔ found = [] := by
  constructor
  · intro hanswer
    have hcount := h.count_newlines
    rw [hanswer] at hcount
    have hzero : min config.maxSuggestions found.length = 0 := hcount.symm
    exact List.length_eq_zero_iff.1 (by omega)
  · intro hfound
    have hshown : shown = [] := by
      rw [← List.length_eq_zero_iff, h.length_shown, hfound, List.length_nil, Nat.min_zero]
    rw [h.answer_eq, hshown]
    rfl

end QueryAnswer

theorem shownNames_perm (config : Config) (start : String) :
    (shownNames config start).Perm
      (((sessionConsole config).suggest start).take config.maxSuggestions) :=
  List.mergeSort_perm _ _

theorem Session.Ready.queryAnswer {terminal : Bool} {config : Config} {s : Session}
    (hs : s.Ready terminal config)
    {line text : String} (hline : cleanLine config line = "?" ++ text) :
    QueryAnswer config (trimmed text) (s.enter line).2
      ((sessionConsole config).suggest (trimmed text)) (shownNames config (trimmed text)) where
  found_pairwise := (inStep_sessionConsole config).holds.suggest_pairwise _ _
  mem_found n := by
    rw [Console.suggest, (inStep_sessionConsole config).holds.mem_suggest, List.mem_toFinset,
      config_sessionConsole]
  shown_perm := shownNames_perm config _
  shown_pairwise := by
    have hfound := (inStep_sessionConsole config).holds.suggest_pairwise (trimmed text)
      (sessionConsole config).config.includeExactSuggestion
    exact pairwise_shorter_mergeSort (hfound.sublist (List.take_sublist _ _))
  answer_eq := by
    rw [Session.enter_query (by rw [hs.config_eq, hline])]
    exact (hs.suggest (trimmed text)).1

/-- A program prints nothing without a valid configuration. With one, every question is answered by
the names that match, as many as there is room for, whatever was asked before. -/
theorem queries_are_complete (decode : ConfigDecoder) (terminal : Bool)
    (argument environment : Option ConfigFile) :
    let program := runProgram decode terminal argument environment
    (∀ e, startupConfig decode argument environment = .error e →
      ∀ input : List UInt8, program input = ⟨"", false⟩) ∧
    ∀ config, startupConfig decode argument environment = .ok config →
      0 < config.maxSuggestions ∧
      ∀ input : List UInt8,
        (program input).output =
          printed config.prompt ((Session.start terminal config).exchanges (splitLines input)) ∧
        ∀ x ∈ (Session.start terminal config).exchanges (splitLines input),
          ∀ text, cleanLine config x.line = "?" ++ text →
            ∃ found shown, QueryAnswer config (trimmed text) x.answer found shown ∧
              x.answer.toList.count '\n' = min config.maxSuggestions found.length ∧
              (x.answer = "" ↔ found = []) := by
  intro program
  refine ⟨fun e he input => runProgram_error terminal he input, fun config hconfig => ?_⟩
  have hpos := maxSuggestions_pos hconfig
  have hstart := Session.ready_start terminal config
  refine ⟨hpos, fun input => ⟨?_, fun x hx text hline => ?_⟩⟩
  · have hrun : program input = (Session.start terminal config).run (splitLines input) :=
      runProgram_ok terminal hconfig input
    rw [hrun, Session.output_run, hstart.config_eq]
  · obtain ⟨i, hi⟩ := List.mem_iff_getElem?.1 hx
    obtain ⟨s, hs, -, hanswer, -⟩ := exchange_spec hstart hi
    have hquery := hs.queryAnswer hline
    rw [← hanswer] at hquery
    exact ⟨_, _, hquery, hquery.count_newlines, hquery.eq_empty_iff hpos⟩

/-- Two names start with the text asked for, and the file leaves room for one. A file that leaves no
room and one that cannot be read make no session. -/
theorem queries_are_complete_bounded :
    (∃ found shown : List String,
      QueryAnswer { Config.default with maxSuggestions := 1 } "t" "  teleport\n" found shown) ∧
    runProgram Config.readToml true (some (.contents "max_suggestions = 0".toUTF8.data.toList)) none
      "?t\n".toUTF8.data.toList = ⟨"", false⟩ ∧
    runProgram Config.readToml true (some (.unreadable "Is a directory (os error 21)")) none
      "?t\n".toUTF8.data.toList = ⟨"", false⟩ := by
  have hconfig : startupConfig Config.readToml
      (some (.contents "max_suggestions = 1".toUTF8.data.toList)) none =
        .ok { Config.default with maxSuggestions := 1 } := by
    decide +kernel
  have hasked : ((Session.start true { Config.default with maxSuggestions := 1 }).exchanges
      (splitLines "add 1\n? t\n".toUTF8.data.toList))[1]? =
        some ⟨"? t\n", "  teleport\n", true⟩ := by
    decide +kernel
  have hline : cleanLine { Config.default with maxSuggestions := 1 } "? t\n" = "?" ++ " t" := by
    decide +kernel
  have hnone : startupConfig Config.readToml
      (some (.contents "max_suggestions = 0".toUTF8.data.toList)) none =
        .error (.config "max_suggestions must be at least 1") := by
    decide +kernel
  obtain ⟨-, hall⟩ := (queries_are_complete Config.readToml true _ _).2 _ hconfig
  obtain ⟨found, shown, hquery, -⟩ :=
    (hall "add 1\n? t\n".toUTF8.data.toList).2 _ (List.mem_of_getElem? hasked) " t" hline
  exact ⟨⟨found, shown, hquery⟩, (queries_are_complete Config.readToml true _ _).1 _ hnone _,
    (queries_are_complete Config.readToml true _ _).1 _ rfl _⟩

end CommandConsole
