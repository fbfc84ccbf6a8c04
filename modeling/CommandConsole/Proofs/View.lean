import CommandConsole.Console
import CommandConsole.Proofs.ParserTables
import Mathlib.Data.List.Basic
set_option autoImplicit false

/-!
What a handler sees of the console. The view keeps apart the overloads of each name and the parsers
of each type, and nothing else of the order in which they were registered: it gives the same help as
the console, and it is the same for consoles that agree on each name and each type.
-/

namespace CommandConsole

/-- A total order of keys, as a test. -/
structure KeyOrder {κ : Type} (le : κ → κ → Bool) : Prop where
  trans : ∀ a b c, le a b = true → le b c = true → le a c = true
  total : ∀ a b, (le a b || le b a) = true
  antisymm : ∀ a b, le a b = true → le b a = true → a = b

theorem KeyOrder.string : KeyOrder fun a b : String => decide (a ≤ b) where
  trans a b c hab hbc := by
    rw [decide_eq_true_eq] at hab hbc ⊢
    exact String.le_trans hab hbc
  total a b := by
    rw [Bool.or_eq_true, decide_eq_true_eq, decide_eq_true_eq]
    exact String.le_total a b
  antisymm a b hab hba := by
    rw [decide_eq_true_eq] at hab hba
    exact String.le_antisymm hab hba

/-- Types of the same rank differ in their names if at all. -/
theorem ValueType.le_iff (a b : ValueType) :
    a.le b = true ↔ a.rank < b.rank ∨ a.rank = b.rank ∧ a.label ≤ b.label := by
  cases a <;> cases b <;> simp [le, rank, label]

theorem ValueType.eq_of_label {a b : ValueType} (hrank : a.rank = b.rank)
    (hlabel : a.label = b.label) : a = b := by
  cases a <;> cases b <;> first | rfl | exact congrArg custom hlabel | cases hrank

theorem KeyOrder.valueType : KeyOrder ValueType.le where
  trans a b c hab hbc := by
    rw [ValueType.le_iff] at hab hbc ⊢
    rcases hab with hab | ⟨hab, hlabel⟩
    · exact .inl (by omega)
    · rcases hbc with hbc | ⟨hbc, hlabel'⟩
      · exact .inl (by omega)
      · exact .inr ⟨hab.trans hbc, String.le_trans hlabel hlabel'⟩
  total a b := by
    rw [Bool.or_eq_true, ValueType.le_iff, ValueType.le_iff]
    rcases Nat.lt_trichotomy a.rank b.rank with hlt | heq | hgt
    · exact .inl (.inl hlt)
    · rcases String.le_total a.label b.label with hle | hge
      · exact .inl (.inr ⟨heq, hle⟩)
      · exact .inr (.inr ⟨heq.symm, hge⟩)
    · exact .inr (.inl hgt)
  antisymm a b hab hba := by
    rw [ValueType.le_iff] at hab hba
    have hrank : a.rank = b.rank := by omega
    have hle := (hab.resolve_left (by omega)).2
    have hge := (hba.resolve_left (by omega)).2
    exact ValueType.eq_of_label hrank (String.le_antisymm hle hge)

namespace KeyOrder

variable {α κ : Type} [DecidableEq κ] {le : κ → κ → Bool}

/-- Sorting by a key leaves the elements with the same key in their order. -/
theorem filter_mergeSort (h : KeyOrder le) (key : α → κ) (xs : List α) (k : κ) :
    (xs.mergeSort fun a b => le (key a) (key b)).filter (key · == k) =
      xs.filter (key · == k) := by
  have hsame : (xs.filter (key · == k)).Pairwise fun a b => le (key a) (key b) = true := by
    refine List.pairwise_of_forall_mem_list ?_
    intro a ha b hb
    have hrefl : le k k = true := by simpa using h.total k k
    rw [beq_iff_eq.1 (List.mem_filter.1 ha).2, beq_iff_eq.1 (List.mem_filter.1 hb).2, hrefl]
  have hsub := (List.sublist_mergeSort (fun a b c => h.trans (key a) (key b) (key c))
    (fun a b => h.total (key a) (key b)) hsame List.filter_sublist).filter (key · == k)
  rw [List.filter_filter] at hsub
  simp only [Bool.and_self] at hsub
  refine (hsub.eq_of_length ?_).symm
  exact ((List.mergeSort_perm xs _).filter _).length_eq.symm

theorem mem_iff_of_filter {key : α → κ} {xs ys : List α}
    (h : ∀ k, xs.filter (key · == k) = ys.filter (key · == k)) (a : α) : a ∈ xs ↔ a ∈ ys := by
  have hkey : ∀ zs : List α, a ∈ zs ↔ a ∈ zs.filter (key · == key a) := by simp
  rw [hkey xs, hkey ys, h]

/-- Lists in the order of a key are the same if they are the same for each key. -/
theorem eq_of_filter (h : KeyOrder le) {key : α → κ} {xs ys : List α}
    (hxs : xs.Pairwise fun a b => le (key a) (key b) = true)
    (hys : ys.Pairwise fun a b => le (key a) (key b) = true)
    (heq : ∀ k, xs.filter (key · == k) = ys.filter (key · == k)) : xs = ys := by
  have hmem := mem_iff_of_filter heq
  have hrefl : ∀ k, le k k = true := fun k => by simpa using h.total k k
  induction xs generalizing ys with
  | nil =>
    cases ys with
    | nil => rfl
    | cons y ys => cases (hmem y).2 List.mem_cons_self
  | cons x xs ih =>
    cases ys with
    | nil => cases (hmem x).1 List.mem_cons_self
    | cons y ys =>
      -- each first element has the least key of the same elements
      have hleast : le (key x) (key y) = true := by
        rcases List.mem_cons.1 ((hmem y).2 List.mem_cons_self) with rfl | hy
        · exact hrefl _
        · exact List.rel_of_pairwise_cons hxs hy
      have hleast' : le (key y) (key x) = true := by
        rcases List.mem_cons.1 ((hmem x).1 List.mem_cons_self) with rfl | hx
        · exact hrefl _
        · exact List.rel_of_pairwise_cons hys hx
      have hkey : key x = key y := h.antisymm _ _ hleast hleast'
      have hhead := heq (key x)
      rw [List.filter_cons_of_pos (by simp), List.filter_cons_of_pos (by simp [hkey])] at hhead
      obtain ⟨rfl, -⟩ := List.cons.inj hhead
      have hrest : ∀ k, xs.filter (key · == k) = ys.filter (key · == k) := by
        intro k
        have hk := heq k
        simp only [List.filter_cons] at hk
        split at hk
        · exact (List.cons.inj hk).2
        · exact hk
      rw [ih hxs.of_cons hys.of_cons hrest (mem_iff_of_filter hrest)]

/-- Sorting by a key forgets everything but the order of the elements with the same key. -/
theorem mergeSort_eq_of_filter (h : KeyOrder le) (key : α → κ) {xs ys : List α}
    (heq : ∀ k, xs.filter (key · == k) = ys.filter (key · == k)) :
    (xs.mergeSort fun a b => le (key a) (key b)) = ys.mergeSort fun a b => le (key a) (key b) := by
  have hsorted := List.pairwise_mergeSort (fun a b c : α => h.trans (key a) (key b) (key c))
    (fun a b => h.total (key a) (key b))
  refine h.eq_of_filter (hsorted xs) (hsorted ys) fun k => ?_
  rw [h.filter_mergeSort key, h.filter_mergeSort key, heq]

end KeyOrder

theorem ParserTable.sorted_eq {t t' : ParserTable} (h : ∀ type, t.of type = t'.of type) :
    t.sorted = t'.sorted :=
  congrArg ParserTable.mk (KeyOrder.valueType.mergeSort_eq_of_filter ValueParser.type h)

/-- The registries have the same overloads of every name, the same names and the same parsers of
every type. -/
structure Registry.Alike {α : Type} (r r' : Registry α) : Prop where
  named_eq : ∀ name, r.named name = r'.named name
  names_eq : r.names = r'.names
  parsers_eq : ∀ type, r.parsers.of type = r'.parsers.of type

section view

variable {α : Type}

theorem Registry.named_signatures (r : Registry α) (name : String) :
    r.signatures.named name = (r.named name).map fun o => ⟨o.signature, ()⟩ := by
  have hsorted := KeyOrder.string.filter_mergeSort (fun o : Overload α => o.signature.name)
    r.overloads name
  rw [named, named, signatures, List.filter_map, ← hsorted]
  rfl

theorem Registry.Alike.sortByName_eq {r r' : Registry α} (h : r.Alike r') :
    sortByName r.overloads = sortByName r'.overloads :=
  KeyOrder.string.mergeSort_eq_of_filter (fun o : Overload α => o.signature.name) h.named_eq

theorem Registry.Alike.signatures_eq {r r' : Registry α} (h : r.Alike r') :
    r.signatures = r'.signatures := by
  rw [signatures, signatures, h.sortByName_eq, h.names_eq, ParserTable.sorted_eq h.parsers_eq]

/-- Help tells the same of the view as of the console. -/
theorem Console.helpText?_view (c : Console α) (name : String) :
    c.view.helpText? name = c.helpText? name := by
  have hnamed : c.view.registry.named name =
      (c.registry.named name).map fun o => ⟨o.signature, ()⟩ := c.registry.named_signatures name
  unfold helpText?
  rw [hnamed]
  cases c.registry.named name with
  | nil => rfl
  | cons o os => simp only [List.map_cons, List.filterMap_cons, List.filterMap_map]; rfl

end view

end CommandConsole
