import CommandConsole.Config.Document
import CommandConsole.Proofs.InsertedCharacters
set_option autoImplicit false

/-!
Prohibited characters are invisible. A session sees its lines without them only, so they change
neither the output nor anything that is kept, whatever they would mean to it.
-/

namespace CommandConsole

section runs

variable {s : Session} {line line' : String}

theorem Session.enter_congr (h : s.console.config.strip line = s.console.config.strip line') :
    s.enter line = s.enter line' := by
  rw [enter, enter, cleanLine, h, cleanLine]

theorem strippedText?_none_iff {config : Config} {l : List UInt8} :
    strippedText? config l = none ↔ decodeText? l = none :=
  Option.map_eq_none_iff

theorem strippedText?_some_iff {config : Config} {l : List UInt8} {t : String} :
    strippedText? config l = some t ↔ ∃ line, decodeText? l = some line ∧ config.strip line = t :=
  Option.map_eq_some_iff

/-- Lines in pairs that are both no text, or texts that only prohibited characters tell apart. -/
theorem strippedText?_cases {config : Config} {l l' : List UInt8}
    (h : strippedText? config l' = strippedText? config l) :
    (decodeText? l' = none ∧ decodeText? l = none) ∨
    ∃ line line', decodeText? l' = some line' ∧ decodeText? l = some line ∧
      config.strip line' = config.strip line := by
  cases ht : strippedText? config l with
  | none => exact .inl ⟨strippedText?_none_iff.1 (h.trans ht), strippedText?_none_iff.1 ht⟩
  | some t =>
    obtain ⟨line, hline, hstrip⟩ := strippedText?_some_iff.1 ht
    obtain ⟨line', hline', hstrip'⟩ := strippedText?_some_iff.1 (h.trans ht)
    exact .inr ⟨line, line', hline', hline, hstrip'.trans hstrip.symm⟩

/-- The exchange as it would be without prohibited characters in its line. -/
def Exchange.stripped (config : Config) (x : Exchange) : Exchange :=
  { x with line := config.strip x.line }

/-- A session on lines that only prohibited characters tell apart: the same report, and a
conversation that differs in those characters alone. -/
theorem Session.run_congr {config : Config} (hs : s.console.config = config)
    {input input' : List (List UInt8)}
    (h : input'.map (strippedText? config) = input.map (strippedText? config)) :
    s.run input' = s.run input ∧
      (s.exchanges input').map (Exchange.stripped config) =
        (s.exchanges input).map (Exchange.stripped config) := by
  induction input' generalizing s input with
  | nil =>
    rw [List.map_nil, eq_comm, List.map_eq_nil_iff] at h
    rw [h]
    exact ⟨rfl, rfl⟩
  | cons l' rest' ih =>
    obtain ⟨l, rest, rfl⟩ : ∃ l rest, input = l :: rest := by
      cases input with
      | nil => cases h
      | cons l rest => exact ⟨l, rest, rfl⟩
    rw [List.map_cons, List.map_cons, List.cons.injEq] at h
    rcases strippedText?_cases h.1 with ⟨hl', hl⟩ | ⟨line, line', hl', hl, hstrip⟩
    · rw [s.run_none rest' hl', s.run_none rest hl, s.exchanges_none rest' hl',
        s.exchanges_none rest hl]
      exact ⟨rfl, rfl⟩
    · have henter : s.enter line' = s.enter line := enter_congr (by rw [hs, hstrip])
      obtain ⟨hrun, hexchanges⟩ := ih (s := (s.enter line).1) (by rw [s.console_enter, hs]) h.2
      rw [s.exchanges_some rest' hl', s.exchanges_some rest hl, henter, List.map_cons,
        List.map_cons, Exchange.stripped, Exchange.stripped, hstrip]
      cases hrunning : (s.enter line).1.state.running with
      | false =>
        rw [s.run_ended rest hl hrunning, s.run_ended rest' hl' (by rw [henter, hrunning]), henter]
        exact ⟨rfl, rfl⟩
      | true =>
        rw [s.run_running rest hl hrunning, s.run_running rest' hl' (by rw [henter, hrunning]),
          henter, hrun, if_pos rfl, if_pos rfl, hexchanges]
        exact ⟨rfl, rfl⟩

end runs

/-- The session after exchanges of its conversation. -/
def Session.after (s : Session) (xs : List Exchange) : Session :=
  xs.foldl (fun s x => (s.enter x.line).1) s

theorem Session.after_cons (s : Session) (x : Exchange) (xs : List Exchange) :
    s.after (x :: xs) = (s.enter x.line).1.after xs :=
  List.foldl_cons

theorem Session.after_stripped {config : Config} {s : Session} (hs : s.console.config = config)
    (xs : List Exchange) : s.after (xs.map (Exchange.stripped config)) = s.after xs := by
  induction xs generalizing s with
  | nil => rfl
  | cons x xs ih =>
    have henter : s.enter (config.strip x.line) = s.enter x.line :=
      enter_congr (by rw [hs, Config.strip_strip])
    have hconsole : (s.enter x.line).1.console.config = config := by rw [s.console_enter, hs]
    rw [List.map_cons, after_cons, after_cons, ← ih hconsole, ← henter]
    rfl

theorem Session.history_after_nil (config : Config) (s : Session) :
    (s.after []).state.history = s.state.history.pushAll (submittedLines config []) := rfl

/-- A session remembers the lines that its conversation submitted. -/
theorem Session.Ready.history_after {terminal : Bool} {config : Config} {s : Session}
    (hs : s.Ready terminal config)    (input : List (List UInt8)) (i : Nat) :
    (s.after ((s.exchanges input).take i)).state.history =
      s.state.history.pushAll (submittedLines config ((s.exchanges input).take i)) := by
  induction input generalizing s i with
  | nil =>
    rw [exchanges, List.take_nil]
    exact history_after_nil config s
  | cons bytes rest ih =>
    cases i with
    | zero => exact history_after_nil config s
    | succ i =>
      cases hdecode : decodeText? bytes with
      | none =>
        rw [s.exchanges_none rest hdecode, List.take_nil]
        exact history_after_nil config s
      | some line =>
        have hmoves := hs.moves line
        rw [s.exchanges_some rest hdecode, List.take_succ_cons, submittedLines_cons,
          History.pushAll_append, ← hmoves.history_eq, after_cons]
        dsimp only
        split
        · next hrunning => exact ih (hmoves.ready hrunning) i
        · rw [List.take_nil]
          exact history_after_nil config (s.enter line).1

section absence

variable {config : Config} {c : Char}

theorem mem_of_mem_trim {t : List Char} (h : c ∈ trim t) : c ∈ t := by
  rw [trim_eq] at h
  exact (List.dropWhile_suffix _).subset ((List.rdropWhile_prefix _ _).subset h)

theorem not_mem_cleanLine (hc : c ∈ config.prohibitedChars) (line : String) :
    c ∉ (cleanLine config line).toList := by
  intro h
  rw [cleanLine, toList_trimmed] at h
  have hstrip := mem_of_mem_trim h
  simp [Config.strip, hc] at hstrip

theorem mem_of_mem_splitArguments {text a : String} (ha : a ∈ splitArguments text)
    (h : c ∈ a.toList) : c ∈ text.toList := by
  have hkept := List.mem_flatMap_of_mem ha h
  rw [flatMap_splitArguments, keptFrom, List.drop_zero, List.mem_map] at hkept
  obtain ⟨⟨d, i⟩, hd, rfl⟩ := hkept
  exact (List.mem_zipIdx' (List.mem_filter.1 hd).1).2 ▸ List.getElem_mem _

/-- The name and the arguments of a line are made of its characters. -/
theorem mem_of_read? {line : String} {l : CommandLine} (h : CommandLine.read? line = some l) :
    (c ∈ l.name.toList → c ∈ line.toList) ∧
      ∀ a ∈ l.arguments, c ∈ a.toList → c ∈ line.toList := by
  rw [CommandLine.read?, lineParts?] at h
  split at h
  · cases h
  · rw [Option.map_some, Option.some.injEq] at h
    subst h
    dsimp only
    constructor
    · intro hname
      rw [String.toList_ofList] at hname
      exact mem_of_mem_trim ((List.takeWhile_prefix _).subset hname)
    · intro a ha hmem
      have htext := mem_of_mem_splitArguments ha hmem
      rw [String.toList_ofList] at htext
      exact mem_of_mem_trim ((List.dropWhile_suffix _).subset (List.mem_of_mem_drop htext))

theorem not_mem_entries (hc : c ∈ config.prohibitedChars) {lines : List String}
    (hlines : ∀ line ∈ lines, ∃ x, line = cleanLine config x) {entry : String}
    (h : entry ∈ ((History.empty config.historySize).pushAll lines).entries) :
    c ∉ entry.toList := by
  rw [History.entries_pushAll, keptLines] at h
  have hkept := (List.destutter_sublist _ _).subset (List.mem_of_mem_take h)
  rw [List.mem_reverse, List.mem_filter, List.mem_map] at hkept
  obtain ⟨⟨line, hline, rfl⟩, -⟩ := hkept
  obtain ⟨x, rfl⟩ := hlines line hline
  rw [trimmed_cleanLine]
  exact not_mem_cleanLine hc x

/-- What a session makes of a line: nothing, a question, or a call. It is told nothing else of the
line than what is named here. -/
theorem Session.enter_cases {s : Session} (hs : s.console.config = config)
    (hc : c ∈ config.prohibitedChars) (line : String) :
    s.enter line = (s, "") ∨
    (∃ start, c ∉ start.toList ∧ s.enter line = s.suggest start) ∨
    ∃ cleaned l, c ∉ cleaned.toList ∧ CommandLine.read? cleaned = some l ∧ c ∉ l.name.toList ∧
      (∀ a ∈ l.arguments, c ∉ a.toList) ∧ s.enter line = s.submit cleaned := by
  have hclean := not_mem_cleanLine hc line
  rw [← hs] at hclean
  rcases cleaned_cases (cleanLine s.console.config line) with hline | ⟨text, hline⟩ | hline
  · exact .inl (enter_blank hline)
  · refine .inr (.inl ⟨trimmed text, fun hmem => hclean ?_, enter_query hline⟩)
    rw [toList_trimmed] at hmem
    rw [hline, String.toList_append]
    exact List.mem_append_right _ (mem_of_mem_trim hmem)
  · refine .inr (.inr ?_)
    cases hread : CommandLine.read? (cleanLine s.console.config line) with
    | none =>
      have hblank := trim_of_blank (CommandLine.read?_eq_none_iff.1 hread)
      rw [← toList_trimmed, trimmed_cleanLine] at hblank
      simp [isSubmitted, hblank] at hline
    | some l =>
      obtain ⟨hname, hargs⟩ := mem_of_read? (c := c) hread
      exact ⟨_, l, hclean, hread, fun h => hclean (hname h), fun a ha h => hclean (hargs a ha h),
        enter_submitted hline⟩

end absence

/-- Characters that are prohibited can be inserted in the lines of an input without any effect on
what the program prints and how it ends, nor on what its session holds at any point. None of them
gets into the history, a question, or the name or an argument of a call. -/
theorem prohibited_characters_invisible (terminal : Bool) (config : Config) :
    (∀ input input' : List UInt8, ProhibitedInserted config input input' →
      (∀ decode argument environment, startupConfig decode argument environment = .ok config →
        runProgram decode terminal argument environment input' =
          runProgram decode terminal argument environment input) ∧
      (Session.start terminal config).run (splitLines input') =
        (Session.start terminal config).run (splitLines input) ∧
      ∀ i, (Session.start terminal config).after
          (((Session.start terminal config).exchanges (splitLines input')).take i) =
        (Session.start terminal config).after
          (((Session.start terminal config).exchanges (splitLines input)).take i)) ∧
    ∀ c ∈ config.prohibitedChars,
      (∀ (input : List (List UInt8)) (i : Nat), ∀ entry ∈ ((Session.start terminal config).after
          (((Session.start terminal config).exchanges input).take i)).state.history.entries,
        c ∉ entry.toList) ∧
      ∀ (s : Session) (line : String), s.console.config = config →
        s.enter line = (s, "") ∨
        (∃ start, c ∉ start.toList ∧ s.enter line = s.suggest start) ∨
        ∃ cleaned l, c ∉ cleaned.toList ∧ CommandLine.read? cleaned = some l ∧
          c ∉ l.name.toList ∧ (∀ a ∈ l.arguments, c ∉ a.toList) ∧
          s.enter line = s.submit cleaned := by
  have hstart := Session.ready_start terminal config
  refine ⟨fun input input' hinserted => ?_, fun c hc => ⟨fun input i entry hentry => ?_,
    fun s line hs => Session.enter_cases hs hc line⟩⟩
  · obtain ⟨hrun, hexchanges⟩ := Session.run_congr hstart.config_eq hinserted.strippedText?_eq
    refine ⟨fun decode argument environment hconfig => ?_, hrun, fun i => ?_⟩
    · rw [runProgram_ok terminal hconfig, runProgram_ok terminal hconfig, hrun]
    · rw [← Session.after_stripped hstart.config_eq, List.map_take, hexchanges, ← List.map_take,
        Session.after_stripped hstart.config_eq]
  · rw [hstart.history_after] at hentry
    refine not_mem_entries hc (fun line hline => ?_) hentry
    obtain ⟨x, -, rfl⟩ := List.mem_map.1 (List.mem_filter.1 hline).1
    exact ⟨x.line, rfl⟩

/-- A question mark in front of a call and a quote in a line without a line feed. -/
theorem prohibited_characters_invisible_marks :
    let file : ConfigFile := .contents "prohibited_chars = ['?', '\"']".toUTF8.data.toList
    let config : Config := { Config.default with prohibitedChars := ['?', '"'] }
    let input := encodeText "echo hi\nadd 1 2".toList
    let input' := encodeText "?echo hi\nadd 1\" 2".toList
    startupConfig Config.readToml (some file) none = .ok config ∧
      ProhibitedInserted config input input' ∧
      runProgram Config.readToml true (some file) none input' =
        runProgram Config.readToml true (some file) none input ∧
      ∀ entry ∈ ((Session.start true config).after
        (((Session.start true config).exchanges (splitLines input')).take 2)).state.history.entries,
        '?' ∉ entry.toList := by
  intro file config input input'
  have hconfig : startupConfig Config.readToml (some file) none = .ok config := by decide +kernel
  have hquestion : CharInserted '?' input (encodeText "?echo hi\nadd 1 2".toList) := by
    have hlines : splitLines input = [] ++ ([] ++ encodeText "echo hi\n".toList) ::
        [encodeText "add 1 2".toList] := by
      decide +kernel
    exact CharInserted.intro hlines (by simp) fun _ => by decide +kernel
  have hquote : CharInserted '"' (encodeText "?echo hi\nadd 1 2".toList) input' := by
    have hlines : splitLines (encodeText "?echo hi\nadd 1 2".toList) =
        [encodeText "?echo hi\n".toList] ++
          (encodeText "add 1".toList ++ encodeText " 2".toList) :: [] := by
      decide +kernel
    exact CharInserted.intro hlines (by decide +kernel) fun _ => by decide +kernel
  have hinserted : ProhibitedInserted config input input' :=
    .tail (.single ⟨'?', by decide, by decide, hquestion⟩) ⟨'"', by decide, by decide, hquote⟩
  obtain ⟨hsame, habsent⟩ := prohibited_characters_invisible true config
  exact ⟨hconfig, hinserted, (hsame input input' hinserted).1 Config.readToml _ _ hconfig,
    (habsent '?' (by decide)).1 _ 2⟩

end CommandConsole
