import CommandConsole.Trie
set_option autoImplicit false

/-!
The words of a prefix tree. Siblings stand in increasing order of their characters, insertion keeps
it so, and depth-first order is then the order of the words themselves.
-/

namespace CommandConsole

def Branches.heads : Branches → List Char
  | .nil => []
  | .branch c _ _ rest => c :: rest.heads

/-- At every node the characters increase. -/
def Branches.Ordered : Branches → Prop
  | .nil => True
  | .branch c _ below rest => (∀ d ∈ rest.heads, c < d) ∧ below.Ordered ∧ rest.Ordered

theorem Branches.Ordered.heads_lt {c : Char} {e : Bool} {below rest : Branches}
    (h : (branch c e below rest).Ordered) : ∀ d ∈ rest.heads, c < d := h.1

theorem Branches.Ordered.below {c : Char} {e : Bool} {below rest : Branches}
    (h : (branch c e below rest).Ordered) : below.Ordered := h.2.1

theorem Branches.Ordered.rest {c : Char} {e : Bool} {below rest : Branches}
    (h : (branch c e below rest).Ordered) : rest.Ordered := h.2.2

@[simp] theorem Branches.insert_nil (t : Branches) : t.insert [] = t := by
  cases t <;> rfl

theorem Branches.mem_heads_insert (t : Branches) (c : Char) (w : List Char) (d : Char) :
    d ∈ (t.insert (c :: w)).heads ↔ d = c ∨ d ∈ t.heads := by
  induction t with
  | nil => simp [insert, single, heads]
  | branch x e below rest _ ih =>
    simp only [insert]
    split
    · simp [heads]
    · split
      · next h =>
        subst h
        simp [heads]
      · simp only [heads, List.mem_cons, ih]
        exact or_left_comm

theorem Branches.ordered_single (w : List Char) : (single w).Ordered := by
  induction w with
  | nil => trivial
  | cons c w ih => exact ⟨by simp [heads], ih, trivial⟩

theorem Branches.Ordered.insert {t : Branches} (h : t.Ordered) (w : List Char) :
    (t.insert w).Ordered := by
  induction t generalizing w with
  | nil =>
    cases w with
    | nil => trivial
    | cons c w => exact ordered_single (c :: w)
  | branch d e below rest ihb ihr =>
    cases w with
    | nil => exact h
    | cons c w =>
      simp only [Branches.insert]
      split
      · next hlt =>
        refine ⟨?_, ordered_single w, h⟩
        intro x hx
        rcases List.mem_cons.1 hx with rfl | hx
        · exact hlt
        · exact Char.lt_trans hlt (h.heads_lt x hx)
      · next hnlt =>
        split
        · exact ⟨h.heads_lt, ihb h.below w, h.rest⟩
        · next hne =>
          refine ⟨?_, h.below, ihr h.rest (c :: w)⟩
          intro x hx
          rcases (mem_heads_insert rest c w x).1 hx with rfl | hx
          · refine Char.not_le.1 ?_
            intro hle
            exact hne (Char.le_antisymm hle (Char.not_lt.1 hnlt))
          · exact h.heads_lt x hx

theorem Branches.nil_not_mem_words (t : Branches) : [] ∉ t.words := by
  induction t with
  | nil => simp [words]
  | branch c e below rest _ ih => cases e <;> simp [words, ih]

theorem Branches.head_mem_of_mem_words {t : Branches} {c : Char} {w : List Char}
    (h : c :: w ∈ t.words) : c ∈ t.heads := by
  induction t with
  | nil => cases h
  | branch d e below rest _ ih =>
    simp only [words, List.mem_append] at h
    rcases h with (h | h) | h
    · cases e with
      | false => cases h
      | true =>
        simp only [if_true, List.mem_singleton, List.cons.injEq] at h
        simp [heads, h.1]
    · obtain ⟨u, _, hu⟩ := List.mem_map.1 h
      simp only [List.cons.injEq] at hu
      simp [heads, hu.1]
    · exact List.mem_cons_of_mem d (ih h)

theorem Branches.mem_words_branch {c d : Char} {e : Bool} {below rest : Branches}
    {w : List Char} (h : (branch d e below rest).Ordered) :
    c :: w ∈ (branch d e below rest).words ↔
      if c = d then (w = [] ∧ e = true) ∨ w ∈ below.words else c :: w ∈ rest.words := by
  by_cases hc : c = d
  · subst hc
    have hrest : c :: w ∉ rest.words := by
      intro hmem
      exact Char.lt_irrefl c (h.heads_lt c (head_mem_of_mem_words hmem))
    cases e <;> simp [words, hrest]
  · have hne : d ≠ c := Ne.symm hc
    cases e <;> simp [words, hc, hne]

theorem Branches.words_pairwise {t : Branches} (h : t.Ordered) : t.words.Pairwise (· < ·) := by
  induction t with
  | nil => exact .nil
  | branch c e below rest ihb ihr =>
    have hbelow : (below.words.map (c :: ·)).Pairwise (· < ·) := by
      rw [List.pairwise_map]
      exact (ihb h.below).imp List.cons_lt_cons_self.2
    have hrest : ∀ u, ∀ v ∈ rest.words, c :: u < v := by
      intro u v hv
      cases v with
      | nil => exact (nil_not_mem_words rest hv).elim
      | cons d v =>
        exact List.cons_lt_cons_iff.2 (.inl (h.heads_lt d (head_mem_of_mem_words hv)))
    have hword : ∀ u ∈ below.words, [c] < c :: u := by
      intro u hu
      cases u with
      | nil => exact (nil_not_mem_words below hu).elim
      | cons d u => simp
    -- the word of a branch comes before those below it, and these before the branches after it
    simp only [words, List.pairwise_append, List.mem_append]
    refine ⟨⟨by cases e <;> simp, hbelow, ?_⟩, ihr h.rest, ?_⟩
    · intro u hu v hv
      obtain ⟨v', hv', rfl⟩ := List.mem_map.1 hv
      cases e with
      | false => cases hu
      | true =>
        rw [List.mem_singleton.1 hu]
        exact hword v' hv'
    · intro u hu v hv
      rcases hu with hu | hu
      · cases e with
        | false => cases hu
        | true =>
          rw [List.mem_singleton.1 hu]
          exact hrest [] v hv
      · obtain ⟨u, _, rfl⟩ := List.mem_map.1 hu
        exact hrest u v hv

theorem Branches.words_single (c : Char) (w : List Char) :
    (single (c :: w)).words = [c :: w] := by
  induction w generalizing c with
  | nil => simp [single, words]
  | cons d w ih =>
    rw [single, words, ih d]
    simp [words]

theorem Branches.words_branch_single (c : Char) (w : List Char) (t : Branches) :
    (branch c w.isEmpty (single w) t).words = (c :: w) :: t.words := by
  cases w with
  | nil => simp [words, single]
  | cons d w =>
    rw [words, words_single]
    simp

theorem Branches.insert_words_perm {t : Branches} {w : List Char} (hw : w ≠ [])
    (h : w ∉ t.words) : (t.insert w).words.Perm (w :: t.words) := by
  obtain ⟨c, w, rfl⟩ := List.exists_cons_of_ne_nil hw
  induction t generalizing c w with
  | nil => rw [insert, words_single, words]
  | branch d e below rest ihb ihr =>
    simp only [insert]
    split
    · rw [words_branch_single]
    · split
      · next hc =>
        subst hc
        cases w with
        | nil =>
          cases e with
          | true => simp [words] at h
          | false => simp [words]
        | cons x w =>
          have hbelow : x :: w ∉ below.words := by
            intro hmem
            exact h (by simp [words, hmem])
          have hperm := (ihb x w (by simp) hbelow).map (c :: ·)
          simp only [words, List.isEmpty_cons, Bool.or_false, List.append_assoc]
          exact ((hperm.append_right rest.words).append_left _).trans List.perm_middle
      · have hrest : c :: w ∉ rest.words := by
          intro hmem
          exact h (by simp [words, hmem])
        simp only [words]
        exact ((ihr c w (by simp) hrest).append_left _).trans List.perm_middle

/-- The node at the end of a path: it ends a word if the path is one, and the words below go on
from there. -/
theorem Branches.find?_eq_some {t below : Branches} {p : List Char} {e : Bool}
    (h : t.Ordered) (hf : t.find? p = some (e, below)) :
    below.Ordered ∧ (p ∈ t.words ↔ e = true) ∧
      ∀ u, u ≠ [] → (p ++ u ∈ t.words ↔ u ∈ below.words) := by
  induction t generalizing p with
  | nil => cases p <;> cases hf
  | branch d e' below' rest ihb ihr =>
    cases p with
    | nil => cases hf
    | cons c p =>
      simp only [find?] at hf
      by_cases hc : c = d
      · subst hc
        rw [if_pos rfl] at hf
        cases p with
        | nil =>
          simp only [List.isEmpty_nil, if_true, Option.some.injEq, Prod.mk.injEq] at hf
          obtain ⟨rfl, rfl⟩ := hf
          refine ⟨h.below, ?_, ?_⟩
          · rw [mem_words_branch h]
            simp [nil_not_mem_words]
          · intro u hu
            rw [List.cons_append, List.nil_append, mem_words_branch h]
            simp [hu]
        | cons x p =>
          simp only [List.isEmpty_cons, Bool.false_eq_true, if_false] at hf
          obtain ⟨hord, hword, hbelow⟩ := ihb h.below hf
          refine ⟨hord, ?_, ?_⟩
          · rw [mem_words_branch h]
            simpa using hword
          · intro u hu
            rw [List.cons_append, mem_words_branch h]
            simpa using hbelow u hu
      · rw [if_neg hc] at hf
        obtain ⟨hord, hword, hbelow⟩ := ihr h.rest hf
        refine ⟨hord, ?_, ?_⟩
        · rw [mem_words_branch h, if_neg hc]
          exact hword
        · intro u hu
          rw [List.cons_append, mem_words_branch h, if_neg hc]
          exact hbelow u hu

theorem Branches.not_mem_words_of_find?_eq_none {t : Branches} {p : List Char} (hp : p ≠ [])
    (h : t.Ordered) (hf : t.find? p = none) (u : List Char) : p ++ u ∉ t.words := by
  obtain ⟨c, p, rfl⟩ := List.exists_cons_of_ne_nil hp
  induction t generalizing c p with
  | nil => simp [words]
  | branch d e below rest ihb ihr =>
    simp only [find?] at hf
    rw [List.cons_append, mem_words_branch h]
    by_cases hc : c = d
    · rw [if_pos hc] at hf ⊢
      cases p with
      | nil => simp at hf
      | cons x p =>
        simp only [List.isEmpty_cons, Bool.false_eq_true, if_false] at hf
        simpa using ihb h.below x p (by simp) hf
    · rw [if_neg hc] at hf ⊢
      exact ihr h.rest c p (by simp) hf

theorem Branches.contains_iff {t : Branches} (h : t.Ordered) (w : List Char) :
    t.contains w = true ↔ w ∈ t.words := by
  unfold contains
  cases hf : t.find? w with
  | none =>
    by_cases hw : w = []
    · simp [hw, nil_not_mem_words]
    · have hnot := not_mem_words_of_find?_eq_none hw h hf []
      simpa using hnot
  | some x =>
    obtain ⟨e, below⟩ := x
    simp [(find?_eq_some h hf).2.1]

end CommandConsole
