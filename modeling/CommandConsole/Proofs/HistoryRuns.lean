import CommandConsole.Proofs.CleanLines
import CommandConsole.Proofs.HistoryEntries
set_option autoImplicit false

/-!
Histories in use: lines are pushed and now and then all entries are cleared. Whatever was evicted,
the entries and the answers are those of the full list of lines since the last clearing.
-/

namespace CommandConsole

/-- Something that changes a history. -/
inductive HistoryCall where
  | push (line : String)
  | clear
  deriving DecidableEq, Repr

/-- The lines pushed since the last clearing, in order. -/
def linesSinceClear (calls : List HistoryCall) : List String :=
  calls.foldl (fun lines => fun
    | .push line => lines ++ [line]
    | .clear => []) []

/-- What remains of pushed lines where there is room for all of them: no blanks around a line, no
blank line, and equal neighbours made one. -/
def collapsedLines (lines : List String) : List String :=
  ((lines.map trimmed).filter (· ≠ "")).destutter (· ≠ ·)

/-- A history beside the lines that it answered to have recorded since it was last cleared, in
order. -/
structure Recording where
  history : History
  recorded : List String
  deriving DecidableEq, Repr

def Recording.call (r : Recording) : HistoryCall → Recording
  | .push line =>
    ⟨(r.history.push line).1,
      if (r.history.push line).2 then r.recorded ++ [trimmed line] else r.recorded⟩
  | .clear => ⟨r.history.clear, []⟩

/-- A new history after a number of calls. -/
def Recording.after (capacity : Nat) (calls : List HistoryCall) : Recording :=
  calls.foldl Recording.call ⟨.empty capacity, []⟩

section append

variable (calls : List HistoryCall)

theorem linesSinceClear_push (line : String) :
    linesSinceClear (calls ++ [.push line]) = linesSinceClear calls ++ [line] := by
  rw [linesSinceClear, List.foldl_append]
  rfl

theorem linesSinceClear_clear : linesSinceClear (calls ++ [.clear]) = [] := by
  rw [linesSinceClear, List.foldl_append]
  rfl

theorem Recording.after_append (capacity : Nat) (call : HistoryCall) :
    after capacity (calls ++ [call]) = (after capacity calls).call call := by
  rw [after, List.foldl_append]
  rfl

end append

theorem destutter_ne_append {α : Type} [DecidableEq α] (l : List α) (a : α) :
    (l ++ [a]).destutter (· ≠ ·) =
      if l.getLast? = some a then l.destutter (· ≠ ·) else l.destutter (· ≠ ·) ++ [a] := by
  induction l with
  | nil => simp
  | cons b l ih =>
    cases l with
    | nil =>
      rw [List.singleton_append, List.destutter_pair]
      by_cases h : b = a <;> simp [h]
    | cons c l =>
      have hhead : (c :: l ++ [a]).head? = (c :: l).head? := rfl
      rw [List.cons_append, destutter_ne_cons, destutter_ne_cons b (c :: l), hhead, ih,
        List.getLast?_cons_cons]
      split_ifs <;> rfl

/-- To make equal neighbours one is the same from either end. -/
theorem reverse_destutter_ne {α : Type} [DecidableEq α] (l : List α) :
    (l.destutter (· ≠ ·)).reverse = l.reverse.destutter (· ≠ ·) := by
  induction l with
  | nil => rfl
  | cons a l ih =>
    rw [List.reverse_cons, destutter_ne_append, destutter_ne_cons, List.getLast?_reverse, ← ih]
    split
    · rfl
    · exact List.reverse_cons

theorem keptLines_eq_reverse (lines : List String) :
    keptLines lines = (collapsedLines lines).reverse := by
  rw [keptLines, collapsedLines, reverse_destutter_ne]

theorem collapsedLines_append (lines : List String) (line : String) :
    collapsedLines (lines ++ [line]) =
      if trimmed line = "" ∨ (collapsedLines lines).getLast? = some (trimmed line) then
        collapsedLines lines
      else collapsedLines lines ++ [trimmed line] := by
  have hkept := keptLines_append lines line
  rw [keptLines_eq_reverse, keptLines_eq_reverse, List.head?_reverse] at hkept
  rw [← List.reverse_inj, hkept]
  split
  · rfl
  · rw [List.reverse_append, List.reverse_singleton, List.singleton_append]

theorem History.push_eq_false_iff (h : History) (line : String) :
    (h.push line).2 = false ↔
      trimmed line = "" ∨ h.capacity = 0 ∨ h.entries.head? = some (trimmed line) := by
  rw [push]
  split
  · next hrefused => exact iff_of_true rfl hrefused
  · next htaken => exact iff_of_false (by simp) htaken

namespace Recording

variable (capacity : Nat) (calls : List HistoryCall)

/-- Clearing leaves nothing behind, so only the lines since then count. -/
theorem history_after :
    (after capacity calls).history =
      (History.empty capacity).pushAll (linesSinceClear calls) := by
  induction calls using List.reverseRecOn with
  | nil => rfl
  | append_singleton calls call ih =>
    rw [after_append]
    cases call with
    | push line =>
      rw [linesSinceClear_push, History.pushAll_append, ← ih]
      rfl
    | clear =>
      have hcapacity := History.capacity_pushAll (.empty capacity) (linesSinceClear calls)
      rw [linesSinceClear_clear, call, ih, History.clear, hcapacity]
      rfl

theorem capacity_after : (after capacity calls).history.capacity = capacity := by
  rw [history_after, History.capacity_pushAll]
  rfl

theorem entries_after :
    (after capacity calls).history.entries =
      (collapsedLines (linesSinceClear calls)).reverse.take capacity := by
  rw [history_after, History.entries_pushAll, keptLines_eq_reverse]

/-- The newest line is never evicted while there is room for one. -/
theorem head?_entries_after (hroom : 0 < capacity) :
    (after capacity calls).history.entries.head? =
      (collapsedLines (linesSinceClear calls)).getLast? := by
  obtain ⟨n, rfl⟩ : ∃ n, capacity = n + 1 := ⟨capacity - 1, by omega⟩
  rw [entries_after, ← List.head?_reverse]
  cases (collapsedLines (linesSinceClear calls)).reverse <;> rfl

theorem push_after_iff_collapsed (line : String) :
    ((after capacity calls).history.push line).2 = true ↔
      0 < capacity ∧ trimmed line ≠ "" ∧
        (collapsedLines (linesSinceClear calls)).getLast? ≠ some (trimmed line) := by
  rw [← Bool.not_eq_false, History.push_eq_false_iff, capacity_after]
  by_cases hroom : 0 < capacity
  · have hne : capacity ≠ 0 := by omega
    rw [head?_entries_after capacity calls hroom]
    simp [hroom, hne]
  · have hzero : capacity = 0 := by omega
    simp [hzero]

/-- The lines that were answered to be recorded are the collapsed ones, unless there is no room. -/
theorem recorded_after (hroom : 0 < capacity) :
    (after capacity calls).recorded = collapsedLines (linesSinceClear calls) := by
  induction calls using List.reverseRecOn with
  | nil => rfl
  | append_singleton calls call ih =>
    rw [after_append]
    cases call with
    | push line =>
      have hpush := push_after_iff_collapsed capacity calls line
      rw [linesSinceClear_push, collapsedLines_append, Recording.call]
      dsimp only
      rw [ih]
      by_cases htaken : ((after capacity calls).history.push line).2 = true
      · obtain ⟨-, hline, hlast⟩ := hpush.1 htaken
        rw [if_pos htaken, if_neg (not_or.2 ⟨hline, hlast⟩)]
      · have hkept : trimmed line = "" ∨
            (collapsedLines (linesSinceClear calls)).getLast? = some (trimmed line) := by
          by_contra hnot
          exact htaken (hpush.2 ⟨hroom, not_or.1 hnot⟩)
        rw [if_neg htaken, if_pos hkept]
    | clear =>
      rw [linesSinceClear_clear]
      rfl

theorem push_after_iff (line : String) :
    ((after capacity calls).history.push line).2 = true ↔
      0 < capacity ∧ trimmed line ≠ "" ∧
        (after capacity calls).recorded.getLast? ≠ some (trimmed line) := by
  rw [push_after_iff_collapsed]
  refine and_congr_right fun hroom => ?_
  rw [recorded_after capacity calls hroom]

end Recording

theorem trimmed_of_mem_collapsedLines {lines : List String} {entry : String}
    (h : entry ∈ collapsedLines lines) : entry ≠ "" ∧ trimmed entry = entry := by
  have hkept := (List.destutter_sublist _ _).subset h
  rw [List.mem_filter, List.mem_map, decide_eq_true_eq] at hkept
  obtain ⟨⟨line, -, rfl⟩, hne⟩ := hkept
  exact ⟨hne, trimmed_trimmed line⟩

theorem exists_not_blank {line : String} (h : trimmed line ≠ "") :
    ∃ c ∈ line.toList, isBlank c = false := by
  by_contra hblank
  have htrim : trim line.toList = [] := trim_of_blank (by simpa using hblank)
  exact h (by rw [trimmed, htrim, String.ofList_nil])

/-- The entries are the newest of the collapsed lines since the last clearing, as many as there is
room for. A line is recorded if there is room, it is not blank and it is not the last one recorded,
so a repeat of the newest line never is. No entry is blank, padded or equal to its neighbour. -/
theorem newest_lines_kept (capacity : Nat) (calls : List HistoryCall) :
    let r := Recording.after capacity calls
    let newest := (collapsedLines (linesSinceClear calls)).reverse.take capacity
    r.history.entries = newest ∧
    r.history.size = newest.length ∧ (r.history.isEmpty = true ↔ newest = []) ∧
    (∀ i, r.history.get? i = newest[i]?) ∧
    (∀ line, (r.history.push line).2 = true ↔
      0 < capacity ∧ trimmed line ≠ "" ∧ r.recorded.getLast? ≠ some (trimmed line)) ∧
    (∀ line line', (r.history.push line).2 = true → trimmed line' = trimmed line →
      ((r.history.push line).1.push line').2 = false) ∧
    (∀ entry ∈ r.history.entries,
      (∃ c ∈ entry.toList, isBlank c = false) ∧ trimmed entry = entry) ∧
    r.history.entries.IsChain (· ≠ ·) := by
  intro r newest
  have hentries : r.history.entries = newest := Recording.entries_after capacity calls
  refine ⟨hentries, congrArg List.length hentries, ?_, fun i => congrArg (·[i]?) hentries,
    Recording.push_after_iff capacity calls, ?_, ?_, ?_⟩
  · rw [History.isEmpty, hentries, List.isEmpty_iff]
  · intro line line' htaken hsame
    have hpushed : (r.history.push line).1 =
        (Recording.after capacity (calls ++ [.push line])).history := by
      rw [Recording.after_append]
      rfl
    have hlast : (Recording.after capacity (calls ++ [.push line])).recorded.getLast? =
        some (trimmed line) := by
      rw [Recording.after_append, Recording.call]
      dsimp only
      rw [if_pos htaken, List.getLast?_concat]
    rw [hpushed, Bool.eq_false_iff, ne_eq, Recording.push_after_iff, hsame, hlast]
    exact fun hrepeated => hrepeated.2.2 rfl
  · intro entry hentry
    rw [hentries] at hentry
    have hmem := List.mem_reverse.1 (List.mem_of_mem_take hentry)
    obtain ⟨hne, htrimmed⟩ := trimmed_of_mem_collapsedLines hmem
    exact ⟨exists_not_blank (htrimmed.symm ▸ hne), htrimmed⟩
  · rw [hentries]
    have hchain : (collapsedLines (linesSinceClear calls)).reverse.IsChain (· ≠ ·) := by
      rw [collapsedLines, reverse_destutter_ne]
      exact List.isChain_destutter _ _
    exact hchain.take capacity

/-- With room for one line the second one evicts the first, and is refused when it is repeated. -/
theorem newest_lines_kept_evicted :
    let r := Recording.after 1 [.push "list", .clear, .push " help ", .push "quit"]
    r.history.entries = ["quit"] ∧ (r.history.push "help").2 = true ∧
      ((r.history.push "help").1.push " help").2 = false := by
  intro r
  have htaken : (r.history.push "help").2 = true := by decide +kernel
  have hsame : trimmed " help" = trimmed "help" := by decide +kernel
  obtain ⟨hentries, -, -, -, -, hrepeat, -, -⟩ :=
    newest_lines_kept 1 [.push "list", .clear, .push " help ", .push "quit"]
  exact ⟨hentries.trans (by decide +kernel), htaken, hrepeat "help" " help" htaken hsame⟩

end CommandConsole
