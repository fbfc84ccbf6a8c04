import CommandConsole.Proofs.BoundedQuery
set_option autoImplicit false

/-!
The slots of a buffer. A query opens new ones only when the old ones are all filled, so there are as
many as the largest query of the buffer has filled, and never more than its capacity. What stands
behind the filled ones cannot be seen.
-/

namespace CommandConsole

/-- A buffer, and how many slots each query of it has filled, the last query first. A copy takes
these counts over from its original. -/
structure CountedBuffer where
  buffer : Suggestions
  counts : List Nat
  deriving DecidableEq, Repr

namespace CountedBuffer

def empty (capacity : Nat) : CountedBuffer := ⟨.empty capacity, []⟩

def fill (b : CountedBuffer) (t : Trie) (start : String) (exact : Bool) : CountedBuffer :=
  let found := b.buffer.fill t start exact
  ⟨found, found.filled :: b.counts⟩

def clear (b : CountedBuffer) : CountedBuffer := { b with buffer := b.buffer.clear }

def sortByLength (b : CountedBuffer) : CountedBuffer :=
  { b with buffer := b.buffer.sortByLength }

/-- The largest of the counts, and zero if there was no query. -/
def peak (b : CountedBuffer) : Nat := b.counts.foldr max 0

/-- There are as many slots as the largest query has filled. -/
structure Sound (b : CountedBuffer) : Prop where
  buffer : b.buffer.Sound
  length_slots : b.buffer.slots.length = b.peak

namespace Sound

variable {b : CountedBuffer}

theorem empty (capacity : Nat) : (CountedBuffer.empty capacity).Sound where
  buffer := .empty capacity
  length_slots := rfl

theorem fill (h : b.Sound) (t : Trie) (start : String) (exact : Bool) :
    (b.fill t start exact).Sound where
  buffer := (b.buffer.fill_spec h.buffer t start exact).1
  length_slots := by
    obtain ⟨path, hadds⟩ := Suggestions.exists_adds_fill h.buffer t start exact
    have hslots : (b.buffer.fill t start exact).slots.length =
        max b.buffer.slots.length (b.buffer.fill t start exact).filled := hadds.length_slots
    show (b.buffer.fill t start exact).slots.length = max (b.buffer.fill t start exact).filled b.peak
    rw [hslots, h.length_slots, Nat.max_comm]

theorem clear (h : b.Sound) : b.clear.Sound where
  buffer := h.buffer.clear
  length_slots := h.length_slots

theorem sortByLength (h : b.Sound) : b.sortByLength.Sound where
  buffer := h.buffer.sortByLength
  length_slots := h.buffer.length_slots_sortByLength.trans h.length_slots

end Sound

end CountedBuffer

def BufferStep.applyCounted (bs : List CountedBuffer) : BufferStep → List CountedBuffer
  | .make capacity => bs ++ [.empty capacity]
  | .copy i => bs ++ bs[i]?.toList
  | .fill i t start exact => bs.modify i fun b => b.fill t start exact
  | .clear i => bs.modify i CountedBuffer.clear
  | .sort i => bs.modify i CountedBuffer.sortByLength

/-- The buffers there are after some steps, with their counts. -/
def countedAfter (steps : List BufferStep) : List CountedBuffer :=
  steps.foldl BufferStep.applyCounted []

theorem countedAfter_append (steps : List BufferStep) (step : BufferStep) :
    countedAfter (steps ++ [step]) = step.applyCounted (countedAfter steps) := by
  simp [countedAfter]

theorem map_buffer_modify {f : CountedBuffer → CountedBuffer} {g : Suggestions → Suggestions}
    (h : ∀ b, (f b).buffer = g b.buffer) (bs : List CountedBuffer) (i : Nat) :
    (bs.modify i f).map CountedBuffer.buffer = (bs.map CountedBuffer.buffer).modify i g := by
  refine List.ext_getElem? fun j => ?_
  simp only [List.getElem?_map, List.getElem?_modify, Option.map_eq_map, Option.map_map]
  congr 1
  funext b
  by_cases hij : i = j <;> simp [hij, h]

theorem BufferStep.map_buffer_applyCounted (bs : List CountedBuffer) (step : BufferStep) :
    (step.applyCounted bs).map CountedBuffer.buffer = step.apply (bs.map CountedBuffer.buffer) := by
  cases step with
  | make capacity => simp [applyCounted, apply, CountedBuffer.empty]
  | copy i => cases hi : bs[i]? <;> simp [applyCounted, apply, hi]
  | fill i t start exact => exact map_buffer_modify (by intro b; rfl) bs i
  | clear i => exact map_buffer_modify (by intro b; rfl) bs i
  | sort i => exact map_buffer_modify (by intro b; rfl) bs i

/-- Counting changes nothing in the buffers. -/
theorem map_buffer_countedAfter (steps : List BufferStep) :
    (countedAfter steps).map CountedBuffer.buffer = buffersAfter steps := by
  induction steps using List.reverseRecOn with
  | nil => rfl
  | append_singleton steps step ih =>
    have hlast : buffersAfter (steps ++ [step]) = step.apply (buffersAfter steps) := by
      simp [buffersAfter]
    rw [countedAfter_append, step.map_buffer_applyCounted, ih, hlast]

theorem BufferStep.sound_applyCounted {bs : List CountedBuffer} (h : ∀ b ∈ bs, b.Sound)
    (step : BufferStep) : ∀ b ∈ step.applyCounted bs, b.Sound := by
  cases step with
  | make capacity =>
    exact List.forall_mem_append.2 ⟨h, List.forall_mem_singleton.2 (.empty capacity)⟩
  | copy i => exact forall_mem_append_copy h i
  | fill i t start exact => exact forall_mem_modify (fun b hb => hb.fill t start exact) h i
  | clear i => exact forall_mem_modify (fun b hb => hb.clear) h i
  | sort i => exact forall_mem_modify (fun b hb => hb.sortByLength) h i

theorem sound_countedAfter (steps : List BufferStep) : ∀ b ∈ countedAfter steps, b.Sound := by
  induction steps using List.reverseRecOn with
  | nil => simp [countedAfter]
  | append_singleton steps step ih =>
    rw [countedAfter_append]
    exact step.sound_applyCounted ih

namespace Suggestions.Sound

variable {b : Suggestions}

theorem isFull_iff (h : b.Sound) : b.isFull = true ↔ b.filled = b.capacity := by
  have hle := h.filled_le_capacity
  simp only [isFull, decide_eq_true_eq]
  omega

/-- A filled slot exists and is what can be read. -/
theorem exists_get? (h : b.Sound) {i : Nat} (hi : i < b.filled) :
    ∃ text, b.slots[i]? = some text ∧ b.get? i = some text := by
  have hslot : b.slots[i]? = some (b.slots.get ⟨i, Nat.lt_of_lt_of_le hi h.filled_le⟩) :=
    List.getElem?_eq_getElem _
  exact ⟨_, hslot, (List.getElem?_take_of_lt hi).trans hslot⟩

theorem get?_of_le (h : b.Sound) {i : Nat} (hi : b.filled ≤ i) : b.get? i = none :=
  List.getElem?_eq_none (h.length_toList ▸ hi)

end Suggestions.Sound

/-- Whatever was done with a buffer, the filled slots exist, and as many slots were opened as the
largest query has filled, at most as many as the capacity. The buffer is full if as many are filled,
and only filled slots can be read, also where others hold an old text. -/
theorem slots_stay_in_bounds (steps : List BufferStep) :
    (countedAfter steps).map CountedBuffer.buffer = buffersAfter steps ∧
    ∀ x ∈ countedAfter steps,
      let b := x.buffer
      (b.filled ≤ b.slots.length ∧ b.slots.length ≤ b.capacity) ∧
      b.slots.length = x.peak ∧
      (b.isFull = true ↔ b.filled = b.capacity) ∧
      (∀ i, i < b.filled → ∃ text, b.slots[i]? = some text ∧ b.get? i = some text) ∧
      ∀ i, b.filled ≤ i → b.get? i = none := by
  refine ⟨map_buffer_countedAfter steps, ?_⟩
  intro x hx b
  have hcounted := sound_countedAfter steps x hx
  have hsound : b.Sound := hcounted.buffer
  exact ⟨⟨hsound.filled_le, hsound.slots_le⟩, hcounted.length_slots, hsound.isFull_iff,
    fun i hi => hsound.exists_get? hi, fun i hi => hsound.get?_of_le hi⟩

/-- A copy of a buffer that three slots were opened in: one is filled now, the old texts of the
others cannot be read, and a new query opens no slot. -/
theorem slots_stay_in_bounds_stale :
    let t := Trie.ofList ["big", "bird", "box", "hall"]
    let steps : List BufferStep :=
      [.make 18446744073709551615, .fill 0 t "b" true, .copy 0, .fill 1 t "h" true]
    let x : CountedBuffer :=
      ⟨⟨["hall", "bird", "box"], 18446744073709551615, 1, ['h']⟩, [1, 3]⟩
    x ∈ countedAfter steps ∧ x.buffer.slots.length = x.peak ∧ x.peak = 3 ∧
      (∃ text, x.buffer.slots[0]? = some text ∧ x.buffer.get? 0 = some text) ∧
      x.buffer.slots[1]? = some "bird" ∧ x.buffer.get? 1 = none := by
  intro t steps x
  have hx : x ∈ countedAfter steps := by decide +kernel
  obtain ⟨-, hpeak, -, hfilled, hbehind⟩ := (slots_stay_in_bounds steps).2 x hx
  exact ⟨hx, hpeak, rfl, hfilled 0 (by decide), rfl, hbehind 1 (by decide)⟩

end CommandConsole
