import CommandConsole.Proofs.Conversation
set_option autoImplicit false

/-!
What a session remembers. Its buffer of suggestions and the lines on display never reach the output,
and the recorded lines do so through one command only.
-/

namespace CommandConsole

/-- A line that is text, but blank or a question. -/
def IsQuiet (config : Config) (bytes : List UInt8) : Prop :=
  ∃ line, decodeText? bytes = some line ∧ isSubmitted (cleanLine config line) = false

/-- What is left without the marked elements. -/
def unmarked {α : Type} (ps : List (α × Bool)) : List α :=
  (ps.filter fun p => !p.2).map Prod.fst

@[simp] theorem unmarked_nil {α : Type} : unmarked ([] : List (α × Bool)) = [] := rfl

@[simp] theorem unmarked_cons_true {α : Type} (a : α) (ps : List (α × Bool)) :
    unmarked ((a, true) :: ps) = unmarked ps := rfl

@[simp] theorem unmarked_cons_false {α : Type} (a : α) (ps : List (α × Bool)) :
    unmarked ((a, false) :: ps) = a :: unmarked ps := rfl

section conversation

variable {terminal : Bool} {config : Config} {s t : Session} {line : String}

theorem Session.Moves.of_quiet {next : Session}
    (h : s.Moves terminal config (cleanLine config line) next)
    (hquiet : isSubmitted (cleanLine config line) = false) :
    next.state.running = true ∧ next.state.history = s.state.history := by
  constructor
  · refine h.running_iff.2 fun hquit => ?_
    rw [hquit] at hquiet
    exact absurd hquiet (by decide +kernel)
  · rw [h.history_eq, List.filter_cons_of_neg (by simp [hquiet])]
    rfl

theorem Session.Moves.history_congr {cleaned : String} {s' t' : Session}
    (hs : s.Moves terminal config cleaned s') (ht : t.Moves terminal config cleaned t')
    (hhistory : s.state.history = t.state.history) :
    s'.state.history = t'.state.history := by
  rw [hs.history_eq, ht.history_eq, hhistory]

theorem Session.Moves.running_congr {cleaned : String} {s' t' : Session}
    (hs : s.Moves terminal config cleaned s') (ht : t.Moves terminal config cleaned t') :
    s'.state.running = t'.state.running := by
  rw [Bool.eq_iff_iff, hs.running_iff, ht.running_iff]

/-- A session from which blank lines and questions are left out has the same conversation but for
those lines. -/
theorem Session.Ready.exchanges_unmarked (hs : s.Ready terminal config)
    (ht : t.Ready terminal config) (hhistory : s.state.history = t.state.history) {marked : List (List UInt8 × Bool)}
    (hquiet : ∀ m ∈ marked, m.2 = true → IsQuiet config m.1) :
    t.exchanges (unmarked marked) =
      unmarked ((s.exchanges (marked.map Prod.fst)).zip (marked.map Prod.snd)) := by
  -- `s` reads every line and `t` those that are kept; their histories stay equal on the way
  induction marked generalizing s t with
  | nil => rfl
  | cons m rest ih =>
    obtain ⟨bytes, mark⟩ := m
    obtain ⟨hfirst, hrest⟩ := List.forall_mem_cons.1 hquiet
    rw [List.map_cons, List.map_cons]
    cases mark with
    | true =>
      obtain ⟨line, hdecode, hline⟩ := hfirst rfl
      have hmoves := hs.moves line
      obtain ⟨hrunning, hsame⟩ := hmoves.of_quiet hline
      rw [s.exchanges_some _ hdecode, hrunning, if_pos rfl, List.zip_cons_cons,
        unmarked_cons_true, unmarked_cons_true]
      exact ih (hmoves.ready hrunning) ht (hsame.trans hhistory) hrest
    | false =>
      rw [unmarked_cons_false]
      cases hdecode : decodeText? bytes with
      | none =>
        rw [s.exchanges_none _ hdecode, t.exchanges_none _ hdecode, List.zip_nil_left,
          unmarked_nil]
      | some line =>
        have hmoves := hs.moves line
        have hmoves' := ht.moves line
        rw [s.exchanges_some _ hdecode, t.exchanges_some _ hdecode, List.zip_cons_cons,
          unmarked_cons_false, hs.answer_eq ht rfl fun _ => hhistory,
          hmoves.running_congr hmoves']
        cases hrunning : (t.enter line).1.state.running with
        | false => rfl
        | true =>
          have hrunning' : (s.enter line).1.state.running = true :=
            (hmoves.running_congr hmoves').trans hrunning
          rw [if_pos rfl, if_pos rfl, ih (hmoves.ready hrunning') (hmoves'.ready hrunning)
            (hmoves.history_congr hmoves' hhistory) hrest]

end conversation

/-- What a session says to a line is told by the cleaned line, and for `history` also by the lines
submitted before it. Blank lines and questions can be left out. -/
theorem only_history_remembers (terminal : Bool) (config : Config) :
    (∀ input : List (List UInt8),
      ((Session.start terminal config).exchanges input).map (fun x => some x.line) <+:
        input.map decodeText? ∧
      ((Session.start terminal config).run input).output =
        printed config.prompt ((Session.start terminal config).exchanges input)) ∧
    (∀ (input input' : List (List UInt8)) (i j : Nat) (x y : Exchange),
      ((Session.start terminal config).exchanges input)[i]? = some x →
      ((Session.start terminal config).exchanges input')[j]? = some y →
      cleanLine config x.line = cleanLine config y.line →
      (cleanLine config x.line = "history" →
        submittedLines config (((Session.start terminal config).exchanges input).take i) =
          submittedLines config (((Session.start terminal config).exchanges input').take j)) →
      x.answer = y.answer ∧ x.goesOn = y.goesOn) ∧
    ∀ marked : List (List UInt8 × Bool), (∀ m ∈ marked, m.2 = true → IsQuiet config m.1) →
      (Session.start terminal config).exchanges (unmarked marked) =
        unmarked (((Session.start terminal config).exchanges (marked.map Prod.fst)).zip
          (marked.map Prod.snd)) := by
  have hstart := Session.ready_start terminal config
  refine ⟨fun input => ⟨Session.lines_exchanges _ _, ?_⟩,
    fun input input' i j x y hx hy hline hrecorded => ?_,
    fun marked hquiet => hstart.exchanges_unmarked hstart rfl hquiet⟩
  · rw [Session.output_run, hstart.config_eq]
  · obtain ⟨s, hs, hhistory, hanswer, hgoes⟩ := exchange_spec hstart hx
    obtain ⟨t, ht, hhistory', hanswer', hgoes'⟩ := exchange_spec hstart hy
    constructor
    · rw [hanswer, hanswer']
      refine hs.answer_eq ht hline fun hcleaned => ?_
      rw [hhistory, hhistory', hrecorded hcleaned]
    · rw [Bool.eq_iff_iff, hgoes, hgoes', hline]

/-- A sum is the same at the start of a session and after a failure, a question and a cleared
screen. -/
theorem only_history_remembers_add :
    ∃ x y : Exchange,
      ((Session.start true .default).exchanges ["add 1 2\n".toUTF8.data.toList])[0]? = some x ∧
      ((Session.start true .default).exchanges ["nope\n".toUTF8.data.toList,
        "?h\n".toUTF8.data.toList, "clear\n".toUTF8.data.toList,
        " add 1 2\n".toUTF8.data.toList])[3]? = some y ∧
      x.answer = y.answer ∧ x.goesOn = y.goesOn := by
  have hx : ((Session.start true .default).exchanges ["add 1 2\n".toUTF8.data.toList])[0]? =
      some ⟨"add 1 2\n", "\x1b[32m3\x1b[0m\n", true⟩ := by
    decide +kernel
  have hy : ((Session.start true .default).exchanges ["nope\n".toUTF8.data.toList,
      "?h\n".toUTF8.data.toList, "clear\n".toUTF8.data.toList,
      " add 1 2\n".toUTF8.data.toList])[3]? = some ⟨" add 1 2\n", "\x1b[32m3\x1b[0m\n", true⟩ := by
    decide +kernel
  have hline : cleanLine .default "add 1 2\n" = cleanLine .default " add 1 2\n" := by decide +kernel
  have hother : cleanLine .default "add 1 2\n" ≠ "history" := by decide +kernel
  exact ⟨_, _, hx, hy, (only_history_remembers true .default).2.1 _ _ _ _ _ _ hx hy hline
    fun h => absurd h hother⟩

end CommandConsole
