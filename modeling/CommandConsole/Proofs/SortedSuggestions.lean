import CommandConsole.Proofs.BoundedQuery
import CommandConsole.Proofs.View
import CommandConsole.Proofs.WordSet
set_option autoImplicit false

/-!
Suggestions in the order of their lengths. Sorting is stable, so names that a query found in
increasing order stay so among those of the same length.
-/

namespace CommandConsole

/-- The order by length, and among equal lengths by the characters. -/
def Shorter (x y : String) : Prop := x.length < y.length ∨ x.length = y.length ∧ x < y

theorem KeyOrder.nat : KeyOrder fun a b : Nat => decide (a ≤ b) where
  trans a b c hab hbc := by
    rw [decide_eq_true_eq] at hab hbc ⊢
    exact Nat.le_trans hab hbc
  total a b := by
    rw [Bool.or_eq_true, decide_eq_true_eq, decide_eq_true_eq]
    exact Nat.le_total a b
  antisymm a b hab hba := by
    rw [decide_eq_true_eq] at hab hba
    exact Nat.le_antisymm hab hba

/-- A list that is ordered by a key, and by a relation among the elements with the same key. -/
theorem pairwise_lex {α : Type} {key : α → Nat} {r : α → α → Prop} {xs : List α}
    (hkey : xs.Pairwise fun a b => key a ≤ key b)
    (hsame : ∀ k, (xs.filter (key · == k)).Pairwise r) :
    xs.Pairwise fun a b => key a < key b ∨ key a = key b ∧ r a b := by
  induction xs with
  | nil => exact .nil
  | cons x xs ih =>
    have htail : ∀ k, (xs.filter (key · == k)).Pairwise r := fun k =>
      (hsame k).sublist ((List.sublist_cons_self x xs).filter _)
    refine List.pairwise_cons.2 ⟨fun y hy => ?_, ih hkey.of_cons htail⟩
    have hle : key x ≤ key y := List.rel_of_pairwise_cons hkey hy
    by_cases heq : key x = key y
    · have hfirst := hsame (key x)
      rw [List.filter_cons_of_pos (by simp)] at hfirst
      have hmem : y ∈ xs.filter (key · == key x) := List.mem_filter.2 ⟨hy, by simp [heq]⟩
      exact .inr ⟨heq, List.rel_of_pairwise_cons hfirst hmem⟩
    · exact .inl (by omega)

theorem pairwise_length_mergeSort (xs : List String) :
    (xs.mergeSort fun x y => x.length ≤ y.length).Pairwise fun x y => x.length ≤ y.length := by
  refine (List.pairwise_mergeSort ?_ ?_ xs).imp fun hxy => of_decide_eq_true hxy
  · exact fun x y z => KeyOrder.nat.trans x.length y.length z.length
  · exact fun x y => KeyOrder.nat.total x.length y.length

/-- Strings in increasing order, sorted by their lengths. -/
theorem pairwise_shorter_mergeSort {xs : List String} (h : xs.Pairwise (· < ·)) :
    (xs.mergeSort fun x y => x.length ≤ y.length).Pairwise Shorter := by
  refine pairwise_lex (pairwise_length_mergeSort xs) fun k => ?_
  rw [KeyOrder.nat.filter_mergeSort String.length]
  exact h.filter _

/-- What can be seen of a buffer: the capacity, the number of filled slots, and what they hold. -/
def Suggestions.shown (b : Suggestions) : Nat × Nat × List String :=
  (b.capacity, b.filled, b.toList)

namespace Suggestions.Sound

variable {b : Suggestions}

theorem length_mergeSort_toList (h : b.Sound) :
    (b.toList.mergeSort fun x y => x.length ≤ y.length).length = b.filled := by
  rw [List.length_mergeSort, h.length_toList]

theorem toList_sortByLength (h : b.Sound) :
    b.sortByLength.toList = b.toList.mergeSort fun x y => x.length ≤ y.length :=
  List.take_left' h.length_mergeSort_toList

/-- The slots behind the filled ones stay where they are. -/
theorem drop_sortByLength (h : b.Sound) :
    b.sortByLength.slots.drop b.filled = b.slots.drop b.filled :=
  List.drop_left' h.length_mergeSort_toList

theorem sortByLength_sortByLength (h : b.Sound) :
    b.sortByLength.sortByLength = b.sortByLength := by
  have hsorted := pairwise_length_mergeSort b.toList
  have htwice : (b.sortByLength.toList.mergeSort fun x y => x.length ≤ y.length) =
      b.toList.mergeSort fun x y => x.length ≤ y.length := by
    rw [h.toList_sortByLength]
    exact List.mergeSort_of_pairwise (hsorted.imp fun hxy => decide_eq_true hxy)
  have hbehind : b.sortByLength.slots.drop b.sortByLength.filled = b.slots.drop b.filled :=
    h.drop_sortByLength
  rw [Suggestions.sortByLength, htwice, hbehind]
  rfl

/-- Sorting what a query found in a trie. -/
theorem pairwise_shorter_fill (h : b.Sound) (words : List String) (start : String)
    (exact : Bool) : (b.fill (.ofList words) start exact).sortByLength.toList.Pairwise Shorter := by
  obtain ⟨hsound, -, hfound⟩ := b.fill_spec h (.ofList words) start exact
  have hordered := (Trie.holds_ofList words).suggest_pairwise start exact
  rw [hsound.toList_sortByLength, hfound]
  exact pairwise_shorter_mergeSort (hordered.sublist (List.take_sublist _ _))

/-- A query shows the same in all buffers of one capacity. -/
theorem shown_fill (h : b.Sound) (t : Trie) (start : String) (exact : Bool) :
    (b.fill t start exact).shown = (b.capacity, min b.capacity (t.suggest start exact).length,
      (t.suggest start exact).take b.capacity) := by
  obtain ⟨hcapacity, -, hfilled, -⟩ := Suggestions.fill_toList h t start exact
  rw [shown, hcapacity, hfilled, (b.fill_spec h t start exact).2.2]

end Suggestions.Sound

/-- What a step does to the capacities of the buffers. -/
def BufferStep.capacities (cs : List Nat) : BufferStep → List Nat
  | .make capacity => cs ++ [capacity]
  | .copy i => cs ++ cs[i]?.toList
  | .fill _ _ _ _ | .clear _ | .sort _ => cs

theorem map_capacity_modify {bs : List Suggestions} {f : Suggestions → Suggestions}
    (h : ∀ b ∈ bs, (f b).capacity = b.capacity) (i : Nat) :
    (bs.modify i f).map Suggestions.capacity = bs.map Suggestions.capacity := by
  induction bs generalizing i with
  | nil => simp
  | cons b bs ih =>
    obtain ⟨hb, hbs⟩ := List.forall_mem_cons.1 h
    cases i with
    | zero => simp [hb]
    | succ i => simp [ih hbs]

theorem BufferStep.map_capacity_apply {bs : List Suggestions} (h : ∀ b ∈ bs, b.Sound)
    (step : BufferStep) :
    (step.apply bs).map Suggestions.capacity = step.capacities (bs.map Suggestions.capacity) := by
  cases step with
  | make capacity => simp [apply, capacities, Suggestions.empty]
  | copy i => cases hi : bs[i]? <;> simp [apply, capacities, hi]
  | fill i t start exact =>
    exact map_capacity_modify (fun b hb => (b.fill_spec (h b hb) t start exact).2.1) i
  | clear i => exact map_capacity_modify (f := Suggestions.clear) (fun b hb => rfl) i
  | sort i => exact map_capacity_modify (f := Suggestions.sortByLength) (fun b hb => rfl) i

theorem map_capacity_buffersAfter (steps : List BufferStep) :
    (buffersAfter steps).map Suggestions.capacity = steps.foldl BufferStep.capacities [] := by
  induction steps using List.reverseRecOn with
  | nil => rfl
  | append_singleton steps step ih =>
    have hlast : buffersAfter (steps ++ [step]) = step.apply (buffersAfter steps) := by
      simp [buffersAfter]
    simp [hlast, step.map_capacity_apply (sound_buffersAfter steps), ih]

/-- What a query shows in a buffer in use is decided by the capacities alone. -/
theorem shown_fill_buffersAfter (steps : List BufferStep) (j : Nat) (t : Trie) (start : String)
    (exact : Bool) :
    (buffersAfter steps)[j]?.map (fun b => (b.fill t start exact).shown) =
      (steps.foldl BufferStep.capacities [])[j]?.map fun n =>
        (n, min n (t.suggest start exact).length, (t.suggest start exact).take n) := by
  rw [← map_capacity_buffersAfter, List.getElem?_map, Option.map_map]
  cases hb : (buffersAfter steps)[j]? with
  | none => rfl
  | some b =>
    have hsound := sound_buffersAfter steps b (List.mem_of_getElem? hb)
    simp [hsound.shown_fill]

/-- Sorting a buffer in use orders the filled slots by their numbers of characters, keeps the order
of equal ones, and changes nothing else; sorting again changes nothing at all. What a query found
stands in the order of length and characters then, and no later query shows whether there was a
sort. -/
theorem sorting_is_stable (steps : List BufferStep) :
    (∀ b ∈ buffersAfter steps,
      let sorted := b.sortByLength
      (sorted.filled = b.filled ∧ sorted.capacity = b.capacity ∧
        sorted.slots.drop b.filled = b.slots.drop b.filled) ∧
      sorted.toList.Perm b.toList ∧
      sorted.toList.Pairwise (fun x y => x.length ≤ y.length) ∧
      (∀ n, sorted.toList.filter (·.length == n) = b.toList.filter (·.length == n)) ∧
      sorted.sortByLength = sorted ∧
      ∀ words start exact,
        (b.fill (.ofList words) start exact).sortByLength.toList.Pairwise Shorter) ∧
    ∀ (later : List BufferStep) (i j : Nat) (t : Trie) (start : String) (exact : Bool),
      (buffersAfter (steps ++ .sort i :: later))[j]?.map (fun b => (b.fill t start exact).shown) =
        (buffersAfter (steps ++ later))[j]?.map fun b => (b.fill t start exact).shown := by
  constructor
  · intro b hb sorted
    have hsound := sound_buffersAfter steps b hb
    have hlist : sorted.toList = b.toList.mergeSort fun x y => x.length ≤ y.length :=
      hsound.toList_sortByLength
    refine ⟨⟨rfl, rfl, hsound.drop_sortByLength⟩, ?_, ?_, ?_, hsound.sortByLength_sortByLength,
      hsound.pairwise_shorter_fill⟩
    · rw [hlist]
      exact List.mergeSort_perm _ _
    · rw [hlist]
      exact pairwise_length_mergeSort _
    · intro n
      rw [hlist, KeyOrder.nat.filter_mergeSort String.length]
  · intro later i j t start exact
    simp [shown_fill_buffersAfter, BufferStep.capacities]

/-- Three characters in six bytes go before four in four bytes, and the slot of an earlier query
stays behind them. -/
theorem sorting_is_stable_characters :
    let t := Trie.ofList ["big", "bird", "box", "hall", "hé€"]
    let steps : List BufferStep := [.make 3, .fill 0 t "b" true, .fill 0 t "h" true]
    let b : Suggestions := ⟨["hall", "hé€", "box"], 3, 2, ['h']⟩
    b ∈ buffersAfter steps ∧ b.sortByLength.slots.drop 2 = ["box"] ∧
      b.sortByLength.toList.Perm ["hall", "hé€"] ∧
      b.sortByLength.toList.Pairwise (fun x y => x.length ≤ y.length) ∧
      (buffersAfter (steps ++ [.sort 0]))[0]?.map (fun b => (b.fill t "b" true).shown) =
        some (3, 3, ["big", "bird", "box"]) := by
  intro t steps b
  have hb : b ∈ buffersAfter steps := by decide +kernel
  obtain ⟨hsort, hlater⟩ := sorting_is_stable steps
  obtain ⟨⟨-, -, hbehind⟩, hperm, horder, -⟩ := hsort b hb
  exact ⟨hb, hbehind, hperm, horder, (hlater [] 0 0 t "b" true).trans (by decide +kernel)⟩

end CommandConsole
