import CommandConsole.Text.Fields
import Mathlib.Data.List.Basic
set_option autoImplicit false

/-!
Fields that are joined and split again. Splitting undoes joining where no field holds the separator,
and any other character stays in the field that it was written to.
-/

namespace CommandConsole

variable {sep : Char}

theorem splitFields_of_not_mem {t : List Char} (h : sep ∉ t) : splitFields sep t = [t] := by
  induction t with
  | nil => rfl
  | cons c t ih =>
    rw [List.mem_cons, not_or] at h
    obtain ⟨hc, ht⟩ := h
    rw [splitFields, if_neg (Ne.symm hc), ih ht]

theorem splitFields_append {t : List Char} (h : sep ∉ t) (r : List Char) :
    splitFields sep (t ++ sep :: r) = t :: splitFields sep r := by
  induction t with
  | nil => rw [List.nil_append, splitFields, if_pos rfl]
  | cons c t ih =>
    rw [List.mem_cons, not_or] at h
    obtain ⟨hc, ht⟩ := h
    rw [List.cons_append, splitFields, if_neg (Ne.symm hc), ih ht]

/-- Every field but the first begins with what follows the separator. -/
theorem splitFields_intercalate {d : Char} (hd : d ≠ sep) {w : List Char} {ws : List (List Char)}
    (h : ∀ u ∈ w :: ws, sep ∉ u) :
    splitFields sep ([sep, d].intercalate (w :: ws)) = w :: ws.map (d :: ·) := by
  induction ws generalizing w with
  | nil =>
    rw [List.intercalate_singleton, splitFields_of_not_mem (h w List.mem_cons_self), List.map_nil]
  | cons u ws ih =>
    obtain ⟨hw, hws⟩ := List.forall_mem_cons.1 h
    rw [List.intercalate_cons_cons, List.append_assoc, List.cons_append, splitFields_append hw,
      List.cons_append, List.nil_append, splitFields, if_neg hd, ih hws, List.map_cons]

theorem splitFields_joinFields {ws : List (List Char)} (hne : ws ≠ []) (h : ∀ w ∈ ws, sep ∉ w) :
    splitFields sep (joinFields sep ws) = ws := by
  induction ws with
  | nil => exact absurd rfl hne
  | cons w ws ih =>
    obtain ⟨hw, hws⟩ := List.forall_mem_cons.1 h
    cases ws with
    | nil => exact splitFields_of_not_mem hw
    | cons u us =>
      have hcons : u :: us ≠ [] := List.cons_ne_nil u us
      rw [joinFields_cons_ne_nil sep w hcons, splitFields_append hw, ih hcons hws]

theorem not_mem_of_mem_splitFields {t w : List Char} (h : w ∈ splitFields sep t) : sep ∉ w := by
  induction t generalizing w with
  | nil =>
    rw [List.mem_singleton.1 h]
    exact List.not_mem_nil
  | cons c t ih =>
    rw [splitFields] at h
    split at h
    · rcases List.mem_cons.1 h with rfl | h
      · exact List.not_mem_nil
      · exact ih h
    · next hc =>
      split at h
      · next hnil => exact absurd hnil (splitFields_ne_nil sep t)
      · next u us hsplit =>
        rcases List.mem_cons.1 h with rfl | h
        · have hu : sep ∉ u := ih (by rw [hsplit]; exact List.mem_cons_self)
          rw [List.mem_cons, not_or]
          exact ⟨Ne.symm hc, hu⟩
        · exact ih (by rw [hsplit]; exact List.mem_cons_of_mem u h)

theorem mem_joinFields {ws : List (List Char)} {c : Char} (h : c ∈ joinFields sep ws) :
    c = sep ∨ ∃ w ∈ ws, c ∈ w := by
  induction ws with
  | nil => cases h
  | cons w ws ih =>
    cases ws with
    | nil => exact .inr ⟨w, List.mem_cons_self, h⟩
    | cons u us =>
      rw [joinFields_cons_ne_nil sep w (List.cons_ne_nil u us), List.mem_append, List.mem_cons] at h
      rcases h with h | h | h
      · exact .inr ⟨w, List.mem_cons_self, h⟩
      · exact .inl h
      · rcases ih h with h | ⟨v, hv, hc⟩
        · exact .inl h
        · exact .inr ⟨v, List.mem_cons_of_mem w hv, hc⟩

/-- There is a separator between any two fields. -/
theorem count_joinFields {ws : List (List Char)} (h : ∀ w ∈ ws, sep ∉ w) :
    (joinFields sep ws).count sep = ws.length - 1 := by
  induction ws with
  | nil => rfl
  | cons w ws ih =>
    obtain ⟨hw, hws⟩ := List.forall_mem_cons.1 h
    cases ws with
    | nil => exact List.count_eq_zero_of_not_mem hw
    | cons u us =>
      rw [joinFields_cons_ne_nil sep w (List.cons_ne_nil u us), List.count_append,
        List.count_cons_self, List.count_eq_zero_of_not_mem hw, Nat.zero_add, ih hws]
      rfl

/-- A character in front of a text, other than the separator, is added to a field. -/
theorem mem_splitFields_cons {c : Char} (hc : c ≠ sep) {t p : List Char}
    (h : p ∈ splitFields sep (c :: t)) : p ∈ splitFields sep t ∨ c ∈ p := by
  rw [splitFields, if_neg hc] at h
  split at h
  · next hnil => exact absurd hnil (splitFields_ne_nil sep t)
  · next u us hsplit =>
    rcases List.mem_cons.1 h with rfl | h
    · exact .inr List.mem_cons_self
    · exact .inl (by rw [hsplit]; exact List.mem_cons_of_mem u h)

theorem joinFields_concat_append (ws : List (List Char)) (w x : List Char) :
    joinFields sep (ws ++ [w ++ x]) = joinFields sep (ws ++ [w]) ++ x := by
  induction ws with
  | nil => rfl
  | cons u ws ih =>
    rw [List.cons_append, List.cons_append, joinFields_cons_ne_nil sep u (by simp),
      joinFields_cons_ne_nil sep u (by simp), ih, List.append_assoc, List.cons_append]

/-- A character behind a text, other than the separator, is added to a field. -/
theorem mem_splitFields_concat {c : Char} (hc : c ≠ sep) {t p : List Char}
    (h : p ∈ splitFields sep (t ++ [c])) : p ∈ splitFields sep t ∨ c ∈ p := by
  obtain ⟨ws, w, hws⟩ :=
    (List.eq_nil_or_concat' (splitFields sep t)).resolve_left (splitFields_ne_nil sep t)
  have hclean : ∀ u ∈ ws ++ [w ++ [c]], sep ∉ u := by
    have hold : ∀ u ∈ ws ++ [w], sep ∉ u := by
      intro u hu
      exact not_mem_of_mem_splitFields (hws ▸ hu)
    simp only [List.forall_mem_append, List.forall_mem_singleton] at hold ⊢
    simpa [Ne.symm hc] using hold
  have hjoin : joinFields sep (ws ++ [w ++ [c]]) = t ++ [c] := by
    rw [joinFields_concat_append, ← hws, joinFields_splitFields]
  rw [← hjoin, splitFields_joinFields (by simp) hclean, List.mem_append, List.mem_singleton] at h
  rcases h with h | rfl
  · exact .inl (by rw [hws]; exact List.mem_append_left [w] h)
  · exact .inr (List.mem_append_right w List.mem_cons_self)

theorem splitFields_joinStrings {xs : List String} (hne : xs ≠ [])
    (h : ∀ x ∈ xs, sep ∉ x.toList) :
    splitFields sep (joinStrings sep xs).toList = xs.map String.toList := by
  rw [joinStrings, String.toList_ofList, splitFields_joinFields (by simp [hne])]
  simpa using h

end CommandConsole
