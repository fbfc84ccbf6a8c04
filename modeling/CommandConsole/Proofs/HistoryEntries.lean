import CommandConsole.History
import Mathlib.Data.List.Destutter
import Mathlib.Data.List.Induction
set_option autoImplicit false

/-!
The entries of a history as a list: the lines pushed, newest first, without blank ones and without
repeats of the line before, as far as there is room.
-/

namespace CommandConsole

/-- Pushes lines one after another. -/
def History.pushAll (h : History) (lines : List String) : History :=
  lines.foldl (fun h line => (h.push line).1) h

theorem History.pushAll_append (h : History) (a b : List String) :
    h.pushAll (a ++ b) = (h.pushAll a).pushAll b :=
  List.foldl_append

/-- What is left of pushed lines, newest first, where nothing is ever evicted. -/
def keptLines (lines : List String) : List String :=
  ((lines.map trimmed).filter (· ≠ "")).reverse.destutter (· ≠ ·)

theorem destutter_ne_cons {α : Type} [DecidableEq α] (a : α) (l : List α) :
    (a :: l).destutter (· ≠ ·) =
      if l.head? = some a then l.destutter (· ≠ ·) else a :: l.destutter (· ≠ ·) := by
  cases l with
  | nil => simp
  | cons b l =>
    rw [List.destutter_cons_cons, List.destutter_cons']
    by_cases h : a = b
    · simp [h]
    · simp [h, Ne.symm h]

theorem head?_destutter_ne {α : Type} [DecidableEq α] (l : List α) :
    (l.destutter (· ≠ ·)).head? = l.head? := by
  induction l with
  | nil => rfl
  | cons a l ih =>
    rw [destutter_ne_cons]
    split
    · next h => rw [ih, h, List.head?_cons]
    · rfl

theorem keptLines_append (lines : List String) (line : String) :
    keptLines (lines ++ [line]) =
      if trimmed line = "" ∨ (keptLines lines).head? = some (trimmed line) then keptLines lines
      else trimmed line :: keptLines lines := by
  rw [keptLines, keptLines, List.map_append, List.filter_append, List.reverse_append,
    head?_destutter_ne]
  by_cases hempty : trimmed line = ""
  · simp [hempty]
  · simp [hempty, destutter_ne_cons]

theorem History.capacity_pushAll (h : History) (lines : List String) :
    (h.pushAll lines).capacity = h.capacity := by
  induction lines using List.reverseRecOn with
  | nil => rfl
  | append_singleton lines line ih =>
    rw [pushAll_append, pushAll, List.foldl_cons, List.foldl_nil, capacity_push]
    exact ih

/-- Eviction only cuts the list short, since the newest line is never evicted. -/
theorem History.entries_pushAll (capacity : Nat) (lines : List String) :
    ((empty capacity).pushAll lines).entries = (keptLines lines).take capacity := by
  induction lines using List.reverseRecOn with
  | nil => simp [pushAll, empty, keptLines]
  | append_singleton lines line ih =>
    have hlast : (empty capacity).pushAll (lines ++ [line]) =
        (((empty capacity).pushAll lines).push line).1 :=
      pushAll_append _ _ _
    have hcapacity : ((empty capacity).pushAll lines).capacity = capacity := capacity_pushAll _ _
    rw [hlast, push, hcapacity, ih, keptLines_append]
    cases capacity with
    | zero => simpa using ih
    | succ n =>
      have hhead : ((keptLines lines).take (n + 1)).head? = (keptLines lines).head? := by
        cases keptLines lines <;> rfl
      simp only [hhead, Nat.add_one_ne_zero, false_or]
      split
      · exact ih
      · simp [List.take_take]

end CommandConsole
