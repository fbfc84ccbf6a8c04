import CommandConsole.Console
import Mathlib.Data.List.Induction
set_option autoImplicit false

/-!
Queries that fill a buffer. Whatever was done with a buffer before, a query leaves in it the first
suggestions of the plain query, as many as it holds, and nothing of what it held.
-/

namespace CommandConsole

/-- The filled slots exist, and no slot was opened beyond the capacity. -/
structure Suggestions.Sound (b : Suggestions) : Prop where
  filled_le : b.filled ≤ b.slots.length
  slots_le : b.slots.length ≤ b.capacity

namespace Suggestions.Sound

variable {b : Suggestions}

theorem length_toList (h : b.Sound) : b.toList.length = b.filled := by
  rw [toList, List.length_take, Nat.min_eq_left h.filled_le]

theorem filled_le_capacity (h : b.Sound) : b.filled ≤ b.capacity :=
  Nat.le_trans h.filled_le h.slots_le

theorem empty (capacity : Nat) : (Suggestions.empty capacity).Sound where
  filled_le := Nat.le_refl 0
  slots_le := Nat.zero_le capacity

theorem clear (h : b.Sound) : b.clear.Sound where
  filled_le := Nat.zero_le _
  slots_le := h.slots_le

theorem length_slots_sortByLength (h : b.Sound) :
    b.sortByLength.slots.length = b.slots.length := by
  have hfilled := h.filled_le
  simp only [Suggestions.sortByLength, List.length_append, List.length_mergeSort,
    h.length_toList, List.length_drop]
  omega

theorem sortByLength (h : b.Sound) : b.sortByLength.Sound := by
  have hslots := h.length_slots_sortByLength
  exact ⟨hslots ▸ h.filled_le, hslots ▸ h.slots_le⟩

end Suggestions.Sound

/-- The buffer `b'` is `b` with words put behind the filled slots as far as there is room. The path
is the one before, and slots are opened only where the old ones are all filled. -/
structure Suggestions.Adds (b : Suggestions) (words : List String) (b' : Suggestions) : Prop where
  sound : b'.Sound
  capacity_eq : b'.capacity = b.capacity
  path_eq : b'.path = b.path
  toList_eq : b'.toList = (b.toList ++ words).take b.capacity
  length_slots : b'.slots.length = max b.slots.length b'.filled

theorem take_take_append {α : Type} (n : Nat) (xs ys : List α) :
    (xs.take n ++ ys).take n = (xs ++ ys).take n := by
  have hroom : n - min n xs.length = n - xs.length := by omega
  rw [List.take_append, List.take_append, List.take_take, Nat.min_self, List.length_take, hroom]

namespace Suggestions

variable {b b' b'' : Suggestions} {u v : List String}

theorem Adds.nil (h : b.Sound) : Adds b [] b where
  sound := h
  capacity_eq := rfl
  path_eq := rfl
  toList_eq := by
    rw [List.append_nil, List.take_of_length_le (h.length_toList ▸ h.filled_le_capacity)]
  length_slots := (Nat.max_eq_left h.filled_le).symm

theorem Adds.of_isFull (h : b.Sound) (hfull : b.isFull = true) (words : List String) :
    Adds b words b where
  sound := h
  capacity_eq := rfl
  path_eq := rfl
  toList_eq := by
    have hlength : b.toList.length = b.capacity := by
      have hle := h.filled_le_capacity
      simp only [isFull, decide_eq_true_eq] at hfull
      rw [h.length_toList]
      omega
    rw [List.take_append_of_le_length (Nat.le_of_eq hlength.symm),
      List.take_of_length_le (Nat.le_of_eq hlength)]
  length_slots := (Nat.max_eq_left h.filled_le).symm

theorem Adds.filled_le (h : b.Sound) (hadds : Adds b u b') : b.filled ≤ b'.filled := by
  have hroom := h.filled_le_capacity
  rw [← hadds.sound.length_toList, hadds.toList_eq, List.length_take, List.length_append,
    h.length_toList]
  omega

theorem Adds.append (h : Adds b u b') (h' : Adds b' v b'') : Adds b (u ++ v) b'' where
  sound := h'.sound
  capacity_eq := h'.capacity_eq.trans h.capacity_eq
  path_eq := h'.path_eq.trans h.path_eq
  toList_eq := by
    rw [h'.toList_eq, h.toList_eq, h.capacity_eq, take_take_append, List.append_assoc]
  length_slots := by
    have hfilled := h'.filled_le h.sound
    rw [h'.length_slots, h.length_slots]
    omega

theorem Adds.ascend {c : Char} (h : Adds (b.descend c) u b') : Adds b u b'.ascend where
  sound := ⟨h.sound.filled_le, h.sound.slots_le⟩
  capacity_eq := h.capacity_eq
  path_eq := by simp [Suggestions.ascend, h.path_eq, descend]
  toList_eq := h.toList_eq
  length_slots := h.length_slots

theorem Sound.descend (h : b.Sound) (c : Char) : (b.descend c).Sound := ⟨h.filled_le, h.slots_le⟩

theorem adds_pushPath (h : b.Sound) : Adds b [String.ofList b.path.reverse] b.pushPath := by
  have hfilled := h.filled_le
  have hslots := h.slots_le
  cases hfull : b.isFull with
  | true =>
    rw [pushPath, if_pos hfull]
    exact .of_isFull h hfull _
  | false =>
    have hroom : b.filled < b.capacity := by simpa [isFull] using hfull
    have htake : (b.toList ++ [String.ofList b.path.reverse]).take b.capacity =
        b.toList ++ [String.ofList b.path.reverse] := by
      refine List.take_of_length_le ?_
      rw [List.length_append, h.length_toList]
      exact hroom
    rw [pushPath, if_neg (by simp [hfull])]
    split
    · next hlt =>
      have hset : (b.slots.set b.filled (String.ofList b.path.reverse)).take (b.filled + 1) =
          b.toList ++ [String.ofList b.path.reverse] := by
        rw [List.take_add_one, List.take_set_of_le (Nat.le_refl _), List.getElem?_set_self hlt]
        rfl
      refine ⟨⟨by simpa using Nat.succ_le_of_lt hlt, by simpa using hslots⟩, rfl, rfl,
        hset.trans htake.symm, ?_⟩
      rw [List.length_set, Nat.max_eq_left hlt]
    · next hge =>
      have heq : b.filled = b.slots.length := by omega
      have hopen : (b.slots ++ [String.ofList b.path.reverse]).take (b.filled + 1) =
          b.toList ++ [String.ofList b.path.reverse] := by
        rw [toList, heq, List.take_length, List.take_of_length_le (by simp)]
      refine ⟨⟨?_, ?_⟩, rfl, rfl, hopen.trans htake.symm, ?_⟩
      · simp [heq]
      · rw [List.length_append, ← heq]
        exact hroom
      · simp [heq]

theorem adds_pushWords (t : Branches) (h : b.Sound) :
    Adds b (t.words.map fun w => String.ofList (b.path.reverse ++ w)) (pushWords t b) := by
  induction t generalizing b with
  | nil => exact .nil h
  | branch c e below rest ihb ihr =>
    cases hfull : b.isFull with
    | true =>
      rw [pushWords, if_pos hfull]
      exact .of_isFull h hfull _
    | false =>
      rw [pushWords, if_neg (by simp [hfull])]
      have hhere : Adds (b.descend c)
          (if e then [String.ofList (b.path.reverse ++ [c])] else [])
          (if e then (b.descend c).pushPath else b.descend c) := by
        cases e with
        | true => simpa [descend] using adds_pushPath (h.descend c)
        | false => exact .nil (h.descend c)
      -- the way back restores the path, so the words behind are told by the path of `b`
      have hbelow := (hhere.append (ihb hhere.sound)).ascend
      have hall := hbelow.append (ihr hbelow.sound)
      have hwords : (Branches.branch c e below rest).words.map
            (fun w => String.ofList (b.path.reverse ++ w)) =
          (if e then [String.ofList (b.path.reverse ++ [c])] else []) ++
            below.words.map (fun w => String.ofList ((b.descend c).path.reverse ++ w)) ++
            rest.words.map (fun w => String.ofList (b.path.reverse ++ w)) := by
        cases e <;> simp [Branches.words, descend, Function.comp_def]
      rw [hhere.path_eq, hbelow.path_eq, ← hwords] at hall
      exact hall

/-- A query adds its suggestions to the cleared buffer, with the path that it leaves behind. -/
theorem exists_adds_fill (h : b.Sound) (t : Trie) (start : String) (exact : Bool) :
    ∃ path, Adds (b.clear.start path) (t.suggest start exact) (b.fill t start exact) := by
  have hnone : Adds (b.clear.start b.path.reverse) [] b.clear := by
    have hsame : b.clear.start b.path.reverse = b.clear := by simp [Suggestions.start, clear]
    rw [hsame]
    exact .nil h.clear
  unfold fill Trie.suggest
  split
  · exact ⟨_, hnone⟩
  · cases t.find? start.toList with
    | none => exact ⟨_, hnone⟩
    | some x =>
      obtain ⟨e, below⟩ := x
      have hstart : (b.clear.start start.toList).Sound := ⟨Nat.zero_le _, h.slots_le⟩
      have hhere : Adds (b.clear.start start.toList) (if e && exact then [start] else [])
          (if e && exact then (b.clear.start start.toList).pushPath
            else b.clear.start start.toList) := by
        cases e && exact with
        | true => simpa [Suggestions.start] using adds_pushPath hstart
        | false => exact .nil hstart
      have hall := hhere.append (adds_pushWords below hhere.sound)
      rw [hhere.path_eq] at hall
      exact ⟨start.toList, by simpa [Suggestions.start] using hall⟩

/-- A query needs nothing of the buffer but its capacity. -/
theorem fill_spec (h : b.Sound) (t : Trie) (start : String) (exact : Bool) :
    (b.fill t start exact).Sound ∧ (b.fill t start exact).capacity = b.capacity ∧
      (b.fill t start exact).toList = (t.suggest start exact).take b.capacity := by
  obtain ⟨path, hadds⟩ := exists_adds_fill h t start exact
  refine ⟨hadds.sound, hadds.capacity_eq, ?_⟩
  simpa [Suggestions.start, toList, clear] using hadds.toList_eq

end Suggestions

/-- What is done with buffers, which are numbered in the order in which they were made. A copy is a
buffer of its own, and what is done with a number that no buffer has changes nothing. -/
inductive BufferStep where
  | make (capacity : Nat)
  | copy (i : Nat)
  | fill (i : Nat) (t : Trie) (start : String) (exact : Bool)
  | clear (i : Nat)
  | sort (i : Nat)

def BufferStep.apply (bs : List Suggestions) : BufferStep → List Suggestions
  | .make capacity => bs ++ [.empty capacity]
  | .copy i => bs ++ bs[i]?.toList
  | .fill i t start exact => bs.modify i fun b => b.fill t start exact
  | .clear i => bs.modify i Suggestions.clear
  | .sort i => bs.modify i Suggestions.sortByLength

/-- The buffers there are after some steps. -/
def buffersAfter (steps : List BufferStep) : List Suggestions := steps.foldl BufferStep.apply []

theorem forall_mem_modify {α : Type} {p : α → Prop} {f : α → α} (hf : ∀ a, p a → p (f a))
    {xs : List α} (h : ∀ a ∈ xs, p a) (i : Nat) : ∀ a ∈ xs.modify i f, p a := by
  intro a ha
  obtain ⟨j, hj⟩ := List.getElem?_of_mem ha
  rw [List.getElem?_modify] at hj
  obtain ⟨b, hb, rfl⟩ := Option.map_eq_some_iff.1 hj
  have hmem := h b (List.mem_of_getElem? hb)
  split
  · exact hf b hmem
  · exact hmem

theorem forall_mem_append_copy {α : Type} {p : α → Prop} {xs : List α} (h : ∀ a ∈ xs, p a)
    (i : Nat) : ∀ a ∈ xs ++ xs[i]?.toList, p a := by
  intro a ha
  rcases List.mem_append.1 ha with ha | ha
  · exact h a ha
  · exact h a (List.mem_of_getElem? (Option.mem_toList.1 ha))

theorem BufferStep.sound_apply {bs : List Suggestions} (h : ∀ b ∈ bs, b.Sound)
    (step : BufferStep) : ∀ b ∈ step.apply bs, b.Sound := by
  cases step with
  | make capacity =>
    exact List.forall_mem_append.2 ⟨h, List.forall_mem_singleton.2 (.empty capacity)⟩
  | copy i => exact forall_mem_append_copy h i
  | fill i t start exact =>
    exact forall_mem_modify (fun b hb => (b.fill_spec hb t start exact).1) h i
  | clear i => exact forall_mem_modify (fun b hb => hb.clear) h i
  | sort i => exact forall_mem_modify (fun b hb => hb.sortByLength) h i

theorem sound_buffersAfter (steps : List BufferStep) : ∀ b ∈ buffersAfter steps, b.Sound := by
  induction steps using List.reverseRecOn with
  | nil => simp [buffersAfter]
  | append_singleton steps step ih =>
    have hlast : buffersAfter (steps ++ [step]) = step.apply (buffersAfter steps) := by
      simp [buffersAfter]
    exact hlast ▸ step.sound_apply ih

theorem Suggestions.fill_toList {b : Suggestions} (h : b.Sound) (t : Trie) (start : String)
    (exact : Bool) :
    let found := b.fill t start exact
    found.capacity = b.capacity ∧ found.filled ≤ found.slots.length ∧
      found.filled = min b.capacity (t.suggest start exact).length ∧
      found.toList = (t.suggest start exact).take found.filled := by
  intro found
  obtain ⟨hsound, hcapacity, hlist⟩ := b.fill_spec h t start exact
  have hfilled : found.filled = min b.capacity (t.suggest start exact).length := by
    rw [← hsound.length_toList, hlist, List.length_take]
  refine ⟨hcapacity, hsound.filled_le, hfilled, ?_⟩
  rw [hfilled, ← List.take_eq_take_min]
  exact hlist

/-- A query through any buffer in use fills as many slots as it holds or as there are suggestions,
and with the first of the plain query. A console answers a bounded query with the first
suggestions, and the same through any buffer. -/
theorem bounded_query_agrees (steps : List BufferStep) :
    (∀ b ∈ buffersAfter steps, ∀ (t : Trie) (start : String) (exact : Bool),
      let found := b.fill t start exact
      found.capacity = b.capacity ∧ found.filled ≤ found.slots.length ∧
        found.filled = min b.capacity (t.suggest start exact).length ∧
        found.toList = (t.suggest start exact).take found.filled) ∧
    ∀ {α : Type} (c : Console α) (start : String),
      (∀ max, c.suggestBounded start max = (c.suggest start).take max) ∧
      ∀ b ∈ buffersAfter steps,
        (c.suggestInto start b).filled = min b.capacity (c.suggest start).length ∧
        (c.suggestInto start b).toList = c.suggestBounded start b.capacity := by
  have hsound := sound_buffersAfter steps
  refine ⟨fun b hb t start exact => b.fill_toList (hsound b hb) t start exact, ?_⟩
  intro α c start
  have hbounded : ∀ max, c.suggestBounded start max = (c.suggest start).take max :=
    fun max => (Suggestions.fill_spec (.empty max) _ _ _).2.2
  refine ⟨hbounded, fun b hb => ⟨?_, ?_⟩⟩
  · exact (b.fill_toList (hsound b hb) _ _ _).2.2.1
  · rw [hbounded]
    exact (b.fill_spec (hsound b hb) _ _ _).2.2

/-- A copy stays full of other names while the buffer it was made from is cleared. -/
theorem bounded_query_agrees_copied :
    let t := Trie.ofList ["help", "hide", "history", "hi"]
    let steps : List BufferStep := [.make 2, .fill 0 t "h" true, .copy 0, .clear 0]
    let b : Suggestions := ⟨["help", "hi"], 2, 2, ['h']⟩
    b ∈ buffersAfter steps ∧ (b.fill t "hi" true).toList = ["hi", "hide"] := by
  intro t steps b
  have hb : b ∈ buffersAfter steps := by decide +kernel
  have hquery := ((bounded_query_agrees steps).1 b hb t "hi" true).2.2.2
  exact ⟨hb, hquery.trans (by decide +kernel)⟩

end CommandConsole
