import CommandConsole.Proofs.Branches
import Mathlib.Data.Finset.Card
import Mathlib.Data.Finset.Dedup
set_option autoImplicit false

/-!
A trie as a finite set of words: after any insertions it answers every question as the set of the
non-empty words inserted would, and lists words in increasing order.
-/

namespace CommandConsole

/-- The words that a sequence of insertions stores. -/
def wordSet (words : List String) : Finset String := words.toFinset.erase ""

theorem mem_wordSet {words : List String} {w : String} :
    w ∈ wordSet words ↔ w ≠ "" ∧ w ∈ words := by simp [wordSet]

/-- The trie stands for a set of words. -/
structure Trie.Holds (t : Trie) (W : Finset String) : Prop where
  rootIsWord_eq : t.rootIsWord = false
  ordered : t.root.Ordered
  mem_root : ∀ w : String, w.toList ∈ t.root.words ↔ w ∈ W
  size_eq : t.size = W.card

theorem Trie.holds_empty : Trie.empty.Holds ∅ where
  rootIsWord_eq := rfl
  ordered := trivial
  mem_root := by simp [empty, Branches.words]
  size_eq := rfl

namespace Trie.Holds

variable {t : Trie} {W : Finset String}

theorem contains_iff (h : t.Holds W) (w : String) : t.contains w = true ↔ w ∈ W := by
  rw [Trie.contains_eq, Branches.contains_iff h.ordered, h.mem_root]

theorem isEmpty_iff (h : t.Holds W) : t.isEmpty = true ↔ W = ∅ := by
  rw [Trie.isEmpty, h.size_eq, beq_iff_eq, Finset.card_eq_zero]

theorem insert (h : t.Holds W) (w : String) :
    (t.insert w).1.Holds (if w = "" then W else Insert.insert w W) ∧
      ((t.insert w).2 = true ↔ w ≠ "" ∧ w ∉ W) := by
  by_cases hempty : w = ""
  · simp [Trie.insert, hempty, h]
  · have hne : w.toList ≠ [] := mt String.toList_eq_nil_iff.1 hempty
    by_cases hw : w ∈ W
    · have hcontains := (h.contains_iff w).2 hw
      simp [Trie.insert, hempty, hcontains, Finset.insert_eq_of_mem hw, hw, h]
    · have hcontains : t.contains w = false := by
        rw [← Bool.not_eq_true, h.contains_iff]
        exact hw
      have hroot : w.toList ∉ t.root.words := mt (h.mem_root w).1 hw
      have hperm := Branches.insert_words_perm hne hroot
      have hinsert : t.insert w =
          (⟨t.rootIsWord, t.root.insert w.toList, t.size + 1⟩, true) := by
        simp [Trie.insert, hempty, hcontains, Trie.mark_of_ne_nil t hne]
      rw [hinsert, if_neg hempty]
      refine ⟨⟨h.rootIsWord_eq, h.ordered.insert w.toList, ?_, ?_⟩, by simp [hempty, hw]⟩
      · intro v
        rw [hperm.mem_iff, List.mem_cons, String.toList_inj, h.mem_root, Finset.mem_insert]
      · rw [Finset.card_insert_of_notMem hw, h.size_eq]

theorem words_eq (h : t.Holds W) : t.words = t.root.words.map String.ofList := by
  simp [Trie.words, h.rootIsWord_eq]

theorem mem_words (h : t.Holds W) (w : String) : w ∈ t.words ↔ w ∈ W := by
  rw [← h.mem_root, h.words_eq, List.mem_map]
  constructor
  · intro hw
    obtain ⟨u, hu, rfl⟩ := hw
    rwa [String.toList_ofList]
  · intro hw
    exact ⟨w.toList, hw, String.ofList_toList⟩

theorem words_pairwise (h : t.Holds W) : t.words.Pairwise (· < ·) := by
  rw [h.words_eq, List.pairwise_map]
  refine (Branches.words_pairwise h.ordered).imp ?_
  intro u v huv
  rwa [String.lt_iff, String.toList_ofList, String.toList_ofList]

theorem length_words (h : t.Holds W) : t.words.length = t.size := by
  have hnodup : t.words.Nodup := by
    refine h.words_pairwise.imp ?_
    intro u v huv heq
    exact String.lt_irrefl v (heq ▸ huv)
  have hset : t.words.toFinset = W := by
    ext w
    rw [List.mem_toFinset, h.mem_words]
  rw [h.size_eq, ← hset, List.toFinset_card_of_nodup hnodup]

theorem mem_suggest (h : t.Holds W) (start : String) (exact : Bool) (w : String) :
    w ∈ t.suggest start exact ↔
      start ≠ "" ∧ w ∈ W ∧ start.toList <+: w.toList ∧ (w = start → exact = true) := by
  by_cases hstart : start = ""
  · simp [hstart, Trie.suggest_empty]
  have hne : start.toList ≠ [] := mt String.toList_eq_nil_iff.1 hstart
  rw [← h.mem_root w, Trie.suggest, if_neg hne, Trie.find?_of_ne_nil t hne]
  cases hf : t.root.find? start.toList with
  | none =>
    refine iff_of_false (by simp) ?_
    intro hmem
    obtain ⟨-, hw, ⟨u, hu⟩, -⟩ := hmem
    rw [← hu] at hw
    exact Branches.not_mem_words_of_find?_eq_none hne h.ordered hf u hw
  | some x =>
    obtain ⟨e, below⟩ := x
    obtain ⟨-, hword, hbelow⟩ := Branches.find?_eq_some h.ordered hf
    simp only [List.mem_append, List.mem_map]
    constructor
    · intro hw
      rcases hw with hw | ⟨u, hu, rfl⟩
      · have hboth : (e && exact) = true ∧ w = start := by
          cases hflag : e && exact with
          | false => simp [hflag] at hw
          | true => exact ⟨rfl, by simpa [hflag] using hw⟩
        obtain ⟨hflag, rfl⟩ := hboth
        obtain ⟨he, hexact⟩ := Bool.and_eq_true_iff.1 hflag
        exact ⟨hstart, hword.2 he, List.prefix_rfl, fun _ => hexact⟩
      · have hune : u ≠ [] := by
          intro hnil
          exact Branches.nil_not_mem_words below (hnil ▸ hu)
        rw [String.toList_ofList]
        refine ⟨hstart, (hbelow u hune).2 hu, List.prefix_append _ _, ?_⟩
        intro heq
        have hlist := congrArg String.toList heq
        rw [String.toList_ofList, List.append_right_eq_self] at hlist
        exact (hune hlist).elim
    · intro hmem
      obtain ⟨-, hw, ⟨u, hu⟩, hexact⟩ := hmem
      by_cases hune : u = []
      · rw [hune, List.append_nil, String.toList_inj] at hu
        subst hu
        simp [hword.1 hw, hexact rfl]
      · rw [← hu, hbelow u hune] at hw
        exact .inr ⟨u, hw, by rw [hu, String.ofList_toList]⟩

theorem suggest_pairwise (h : t.Holds W) (start : String) (exact : Bool) :
    (t.suggest start exact).Pairwise (· < ·) := by
  by_cases hstart : start.toList = []
  · rw [Trie.suggest, if_pos hstart]
    exact .nil
  rw [Trie.suggest, if_neg hstart, Trie.find?_of_ne_nil t hstart]
  cases hf : t.root.find? start.toList with
  | none => exact .nil
  | some x =>
    obtain ⟨e, below⟩ := x
    obtain ⟨hord, -, -⟩ := Branches.find?_eq_some h.ordered hf
    have hlonger : ∀ u ∈ below.words, start < String.ofList (start.toList ++ u) := by
      intro u hu
      cases u with
      | nil => exact (Branches.nil_not_mem_words below hu).elim
      | cons c u =>
        have happend : start.toList ++ [] < start.toList ++ c :: u :=
          List.append_left_lt (List.nil_lt_cons c u)
        rw [List.append_nil] at happend
        rwa [String.lt_iff, String.toList_ofList]
    simp only [List.pairwise_append, List.pairwise_map]
    refine ⟨by split <;> simp, (Branches.words_pairwise hord).imp ?_, ?_⟩
    · intro u v huv
      rw [String.lt_iff, String.toList_ofList, String.toList_ofList]
      exact List.append_left_lt huv
    · intro a ha b hb
      obtain ⟨u, hu, rfl⟩ := List.mem_map.1 hb
      split at ha
      · rw [List.mem_singleton.1 ha]
        exact hlonger u hu
      · cases ha

end Trie.Holds

theorem Trie.ofList_append (words : List String) (w : String) :
    ofList (words ++ [w]) = ((ofList words).insert w).1 := by
  simp [ofList, List.foldl_append]

theorem wordSet_append (words : List String) (w : String) :
    wordSet (words ++ [w]) = if w = "" then wordSet words else insert w (wordSet words) := by
  by_cases hw : w = ""
  · rw [if_pos hw]
    ext v
    simp only [mem_wordSet, List.mem_append, List.mem_singleton, hw]
    grind
  · rw [if_neg hw]
    ext v
    simp only [mem_wordSet, List.mem_append, List.mem_singleton, Finset.mem_insert]
    grind

theorem Trie.holds_ofList (words : List String) : (ofList words).Holds (wordSet words) := by
  induction words using List.reverseRecOn with
  | nil => exact holds_empty
  | append_singleton words w ih =>
    rw [ofList_append, wordSet_append]
    exact (ih.insert w).1

/-- After any insertions the trie answers as the set of the non-empty words inserted: a further
insertion tells whether its word is new, and words and suggestions are those of the set, each once
and in increasing order. -/
theorem trie_refines_set (words : List String) :
    let t := Trie.ofList words
    let W := wordSet words
    (∀ w, (t.insert w).1 = Trie.ofList (words ++ [w]) ∧
      ((t.insert w).2 = true ↔ w ≠ "" ∧ w ∉ W)) ∧
    (∀ w, t.contains w = true ↔ w ∈ W) ∧
    t.size = W.card ∧
    (t.isEmpty = true ↔ W = ∅) ∧
    (t.words.Pairwise (· < ·) ∧ ∀ w, w ∈ t.words ↔ w ∈ W) ∧
    ∀ start exact, (t.suggest start exact).Pairwise (· < ·) ∧
      ∀ w, w ∈ t.suggest start exact ↔
        start ≠ "" ∧ w ∈ W ∧ start.toList <+: w.toList ∧ (w = start → exact = true) := by
  intro t W
  have h : t.Holds W := Trie.holds_ofList words
  refine ⟨fun w => ⟨(Trie.ofList_append words w).symm, (h.insert w).2⟩, h.contains_iff, h.size_eq,
    h.isEmpty_iff, ⟨h.words_pairwise, h.mem_words⟩, ?_⟩
  intro start exact
  exact ⟨h.suggest_pairwise start exact, h.mem_suggest start exact⟩

end CommandConsole
