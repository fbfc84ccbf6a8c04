import CommandConsole.Proofs.WordSet
set_option autoImplicit false

/-!
The shape of a trie. No branch of it is dead, so the shape is decided by the set of the words: the
order of the insertions and their repetitions leave no trace.
-/

namespace CommandConsole

/-- Every branch ends a word or goes on to one. -/
def Branches.Live : Branches → Prop
  | .nil => True
  | .branch _ e below rest => (e = true ∨ below ≠ .nil) ∧ below.Live ∧ rest.Live

theorem Branches.Live.below {c : Char} {e : Bool} {below rest : Branches}
    (h : (branch c e below rest).Live) : below.Live := h.2.1

theorem Branches.Live.rest {c : Char} {e : Bool} {below rest : Branches}
    (h : (branch c e below rest).Live) : rest.Live := h.2.2

theorem Branches.insert_ne_nil {t : Branches} {w : List Char} (h : t ≠ .nil ∨ w ≠ []) :
    t.insert w ≠ .nil := by
  cases w with
  | nil => simpa using h
  | cons c w =>
    cases t with
    | nil => simp [insert, single]
    | branch d e below rest =>
      simp only [insert]
      split
      · exact Branches.noConfusion
      · split <;> exact Branches.noConfusion

theorem Branches.live_single (w : List Char) : (single w).Live := by
  induction w with
  | nil => trivial
  | cons c w ih =>
    refine ⟨?_, ih, trivial⟩
    cases w with
    | nil => exact .inl rfl
    | cons d w => exact .inr Branches.noConfusion

theorem Branches.Live.insert {t : Branches} (h : t.Live) (w : List Char) : (t.insert w).Live := by
  induction t generalizing w with
  | nil =>
    cases w with
    | nil => trivial
    | cons c w => exact live_single (c :: w)
  | branch d e below rest ihb ihr =>
    cases w with
    | nil => exact h
    | cons c w =>
      obtain ⟨halive, hbelow, hrest⟩ := h
      simp only [Branches.insert]
      split
      · exact ⟨(live_single (c :: w)).1, live_single w, halive, hbelow, hrest⟩
      · split
        · refine ⟨?_, ihb hbelow w, hrest⟩
          cases w with
          | nil => exact .inl (by simp)
          | cons x w => exact .inr (insert_ne_nil (.inr (by simp)))
        · exact ⟨halive, hbelow, ihr hrest (c :: w)⟩

/-- Every branch is on the way to a word. -/
theorem Branches.Live.exists_word {t : Branches} (h : t.Live) {c : Char} (hc : c ∈ t.heads) :
    ∃ w, c :: w ∈ t.words := by
  induction t generalizing c with
  | nil => cases hc
  | branch d e below rest ihb ihr =>
    obtain ⟨halive, hbelow, hrest⟩ := h
    rcases List.mem_cons.1 hc with rfl | hc
    · rcases halive with rfl | hne
      · exact ⟨[], by simp [words]⟩
      · obtain ⟨x, hx⟩ : ∃ x, x ∈ below.heads := by
          cases below with
          | nil => exact (hne rfl).elim
          | branch x e' below' rest' => exact ⟨x, List.mem_cons_self⟩
        obtain ⟨w, hw⟩ := ihb hbelow hx
        exact ⟨x :: w, by simp [words, hw]⟩
    · obtain ⟨w, hw⟩ := ihr hrest hc
      exact ⟨w, by simp [words, hw]⟩

/-- The first branch of a tree comes no later than that of another tree with its words. -/
theorem Branches.head_le_of_words {c d : Char} {e e' : Bool} {below below' rest rest' : Branches}
    (ho : (branch c e below rest).Ordered) (hl : (branch d e' below' rest').Live)
    (h : ∀ w, w ∈ (branch d e' below' rest').words → w ∈ (branch c e below rest).words) :
    c ≤ d := by
  obtain ⟨w, hw⟩ := hl.exists_word (c := d) List.mem_cons_self
  rcases List.mem_cons.1 (head_mem_of_mem_words (h _ hw)) with rfl | hlater
  · exact Char.le_refl d
  · exact Char.not_lt.1 (Char.lt_asymm (ho.heads_lt d hlater))

/-- Live trees with the same words are the same. -/
theorem Branches.eq_of_words {t t' : Branches} (ho : t.Ordered) (ho' : t'.Ordered) (hl : t.Live)
    (hl' : t'.Live) (h : ∀ w, w ∈ t.words ↔ w ∈ t'.words) : t = t' := by
  induction t generalizing t' with
  | nil =>
    cases t' with
    | nil => rfl
    | branch d e below rest =>
      obtain ⟨w, hw⟩ := hl'.exists_word (c := d) List.mem_cons_self
      cases (h _).2 hw
  | branch c e below rest ihb ihr =>
    cases t' with
    | nil =>
      obtain ⟨w, hw⟩ := hl.exists_word (c := c) List.mem_cons_self
      cases (h _).1 hw
    | branch d e' below' rest' =>
      obtain rfl : c = d := Char.le_antisymm (head_le_of_words ho hl' fun w => (h w).2)
        (head_le_of_words ho' hl fun w => (h w).1)
      have hword := h [c]
      simp only [mem_words_branch ho, mem_words_branch ho', if_true, nil_not_mem_words, true_and,
        or_false] at hword
      have hbelow : ∀ w, w ∈ below.words ↔ w ∈ below'.words := by
        intro w
        cases w with
        | nil => simp [nil_not_mem_words]
        | cons x w =>
          have hcons := h (c :: x :: w)
          simpa [mem_words_branch ho, mem_words_branch ho'] using hcons
      have hrest : ∀ w, w ∈ rest.words ↔ w ∈ rest'.words := by
        intro w
        cases w with
        | nil => simp [nil_not_mem_words]
        | cons x w =>
          by_cases hx : x = c
          · subst hx
            have hnot : ∀ r : Branches, (∀ y ∈ r.heads, x < y) → x :: w ∉ r.words :=
              fun r hr hmem => Char.lt_irrefl x (hr x (head_mem_of_mem_words hmem))
            simp only [hnot rest ho.heads_lt, hnot rest' ho'.heads_lt]
          · have hcons := h (x :: w)
            rwa [mem_words_branch ho, mem_words_branch ho', if_neg hx, if_neg hx] at hcons
      rw [Bool.eq_iff_iff.2 hword, ihb ho.below ho'.below hl.below hl'.below hbelow,
        ihr ho.rest ho'.rest hl.rest hl'.rest hrest]

theorem Trie.live_insert {t : Trie} (h : t.root.Live) (word : String) :
    (t.insert word).1.root.Live := by
  unfold insert
  split
  · exact h
  · next hne =>
    split
    · exact h
    · rw [mark_of_ne_nil t hne]
      exact h.insert word.toList

/-- A trie is decided by its set of words. -/
theorem Trie.Holds.eq_of_live {t t' : Trie} {W : Finset String} (h : t.Holds W) (h' : t'.Holds W)
    (hl : t.root.Live) (hl' : t'.root.Live) : t = t' := by
  have hroot : t.root = t'.root := by
    refine Branches.eq_of_words h.ordered h'.ordered hl hl' fun w => ?_
    have hword := (h.mem_root (String.ofList w)).trans (h'.mem_root (String.ofList w)).symm
    simpa using hword
  have hflag : t.rootIsWord = t'.rootIsWord := h.rootIsWord_eq.trans h'.rootIsWord_eq.symm
  have hsize : t.size = t'.size := h.size_eq.trans h'.size_eq.symm
  obtain ⟨flag, root, size⟩ := t
  obtain ⟨flag', root', size'⟩ := t'
  cases hroot
  cases hflag
  cases hsize
  rfl

section nodes

/-- Every node below the root, by its path from there, and whether a word ends at it. -/
def Branches.nodes : Branches → List (List Char × Bool)
  | .nil => []
  | .branch c e below rest =>
    ([c], e) :: below.nodes.map (fun n => (c :: n.1, n.2)) ++ rest.nodes

/-- Every node, the root first. -/
def Trie.nodes (t : Trie) : List (List Char × Bool) := ([], t.rootIsWord) :: t.root.nodes

variable {t : Branches} {p : List Char} {e : Bool}

theorem Branches.mem_nodes_branch {c : Char} {f : Bool} {below rest : Branches} :
    (p, e) ∈ (branch c f below rest).nodes ↔
      (p = [c] ∧ e = f) ∨ (∃ q, (q, e) ∈ below.nodes ∧ p = c :: q) ∨ (p, e) ∈ rest.nodes := by
  simp only [nodes, List.mem_append, List.mem_cons, List.mem_map, Prod.mk.injEq, Prod.exists,
    or_assoc]
  refine or_congr_right (or_congr_left ?_)
  constructor
  · rintro ⟨q, _, hq, rfl, rfl⟩
    exact ⟨q, hq, rfl⟩
  · rintro ⟨q, hq, rfl⟩
    exact ⟨q, e, hq, rfl, rfl⟩

theorem Branches.exists_head_of_mem_nodes (h : (p, e) ∈ t.nodes) :
    ∃ c q, p = c :: q ∧ c ∈ t.heads := by
  induction t generalizing p with
  | nil => cases h
  | branch c f below rest _ ih =>
    rcases mem_nodes_branch.1 h with ⟨rfl, -⟩ | ⟨q, -, rfl⟩ | h
    · exact ⟨c, [], rfl, List.mem_cons_self⟩
    · exact ⟨c, q, rfl, List.mem_cons_self⟩
    · obtain ⟨d, q, hp, hd⟩ := ih h
      exact ⟨d, q, hp, List.mem_cons_of_mem c hd⟩

/-- The nodes are those that a search along their paths ends at. -/
theorem Branches.mem_nodes_iff (h : t.Ordered) :
    (p, e) ∈ t.nodes ↔ ∃ below, t.find? p = some (e, below) := by
  induction t generalizing p with
  | nil => cases p <;> simp [nodes, find?]
  | branch d f below rest ihb ihr =>
    cases p with
    | nil =>
      have hpath : ([], e) ∉ (branch d f below rest).nodes := by
        intro hnode
        obtain ⟨c, q, hnil, -⟩ := exists_head_of_mem_nodes hnode
        cases hnil
      simp [hpath]
    | cons c p =>
      rw [mem_nodes_branch, find?]
      by_cases hc : c = d
      · subst hc
        have hrest : (c :: p, e) ∉ rest.nodes := by
          intro hnode
          obtain ⟨x, q, hx, hmem⟩ := exists_head_of_mem_nodes hnode
          cases hx
          exact Char.lt_irrefl c (h.heads_lt c hmem)
        cases p with
        | nil =>
          have hbelow : ([], e) ∉ below.nodes := by
            intro hnode
            obtain ⟨x, q, hx, -⟩ := exists_head_of_mem_nodes hnode
            cases hx
          simp [hrest, hbelow, eq_comm]
        | cons x p => simp [hrest, ← ihb h.below]
      · simp [hc, ← ihr h.rest]

/-- The words end at the marked nodes. -/
theorem Branches.words_eq_nodes (t : Branches) :
    t.words = (t.nodes.filter (·.2)).map (·.1) := by
  induction t with
  | nil => rfl
  | branch c e below rest ihb ihr =>
    have hmarked : ((below.nodes.map fun n => (c :: n.1, n.2)).filter (·.2)).map (·.1) =
        below.words.map (c :: ·) := by
      rw [ihb, List.filter_map, List.map_map, List.map_map]
      rfl
    cases e <;> simp [words, nodes, hmarked, ihr]

/-- Every node of a live tree lies on the path of a word. -/
theorem Branches.Live.exists_word_of_mem_nodes (h : t.Live) (hp : (p, e) ∈ t.nodes) :
    ∃ w ∈ t.words, p <+: w := by
  induction t generalizing p with
  | nil => cases hp
  | branch c f below rest ihb ihr =>
    rcases mem_nodes_branch.1 hp with ⟨rfl, -⟩ | ⟨q, hq, rfl⟩ | hp
    · obtain ⟨w, hw⟩ := h.exists_word (c := c) List.mem_cons_self
      exact ⟨c :: w, hw, w, rfl⟩
    · obtain ⟨w, hw, hprefix⟩ := ihb h.below hq
      exact ⟨c :: w, by simp [words, hw], (List.prefix_cons_inj c).2 hprefix⟩
    · obtain ⟨w, hw, hprefix⟩ := ihr h.rest hp
      exact ⟨w, by simp [words, hw], hprefix⟩

end nodes

theorem Trie.live_ofList (words : List String) : (ofList words).root.Live := by
  induction words using List.reverseRecOn with
  | nil => trivial
  | append_singleton words w ih =>
    rw [ofList_append]
    exact live_insert ih w

namespace Trie.Holds

variable {t : Trie} {W : Finset String}

theorem unique (h : t.Holds W) {W' : Finset String} (h' : t.Holds W') : W = W' := by
  ext w
  rw [← h.mem_root, h'.mem_root]

theorem size_eq_countP (h : t.Holds W) : t.size = t.nodes.countP (·.2) := by
  rw [← h.length_words, h.words_eq, Branches.words_eq_nodes, nodes, h.rootIsWord_eq,
    List.countP_cons_of_neg (by simp), List.length_map, List.length_map,
    List.countP_eq_length_filter]

theorem mem_nodes_iff (h : t.Holds W) (p : List Char) (e : Bool) :
    (p, e) ∈ t.nodes ↔ ∃ below, t.find? p = some (e, below) := by
  cases p with
  | nil =>
    have hpath : ([], e) ∉ t.root.nodes := by
      intro hnode
      obtain ⟨c, q, hnil, -⟩ := Branches.exists_head_of_mem_nodes hnode
      cases hnil
    simp [nodes, find?, hpath, eq_comm]
  | cons c p =>
    rw [find?_of_ne_nil t (List.cons_ne_nil c p), ← Branches.mem_nodes_iff h.ordered]
    simp [nodes]

theorem exists_word_of_mem_nodes (h : t.Holds W) (hl : t.root.Live) {p : List Char} {e : Bool}
    (hp : p ≠ []) (hnode : (p, e) ∈ t.nodes) : ∃ w ∈ W, p <+: w.toList := by
  have hroot : (p, e) ∈ t.root.nodes := by simpa [nodes, hp] using hnode
  obtain ⟨w, hw, hprefix⟩ := hl.exists_word_of_mem_nodes hroot
  refine ⟨String.ofList w, (h.mem_root _).1 ?_, ?_⟩ <;> rwa [String.toList_ofList]

/-- A search follows a text as long as a word goes on with it. -/
theorem find?_isSome_iff (h : t.Holds W) (hl : t.root.Live) {p : List Char} (hp : p ≠ []) :
    (t.find? p).isSome = true ↔ ∃ w ∈ W, p <+: w.toList := by
  constructor
  · intro hfound
    obtain ⟨⟨e, below⟩, hfind⟩ := Option.isSome_iff_exists.1 hfound
    exact h.exists_word_of_mem_nodes hl hp ((h.mem_nodes_iff p e).2 ⟨below, hfind⟩)
  · intro hword
    obtain ⟨w, hw, ⟨u, hu⟩⟩ := hword
    by_contra hnone
    rw [find?_of_ne_nil t hp, Bool.not_eq_true, Option.isSome_eq_false_iff,
      Option.isNone_iff_eq_none] at hnone
    refine Branches.not_mem_words_of_find?_eq_none hp h.ordered hnone u ?_
    rwa [hu, h.mem_root]

end Trie.Holds

/-- The words alone decide the trie, whatever order and repetitions they were inserted in. It has no
dead nodes: all but the root lead to words, as many are marked as there are words, and the root is
not. So a search along a text comes to its end exactly if a word starts with the text. -/
theorem trie_is_canonical (words : List String) :
    let t := Trie.ofList words
    let W := wordSet words
    (∀ words', t = Trie.ofList words' ↔ W = wordSet words') ∧
    (∀ p e, (p, e) ∈ t.nodes ↔ ∃ below, t.find? p = some (e, below)) ∧
    (∀ p e, (p, e) ∈ t.nodes → p ≠ [] → ∃ w ∈ W, p <+: w.toList) ∧
    t.size = t.nodes.countP (·.2) ∧
    t.rootIsWord = false ∧
    ∀ p, p ≠ [] → ((t.find? p).isSome = true ↔ ∃ w ∈ W, p <+: w.toList) := by
  intro t W
  have h : t.Holds W := Trie.holds_ofList words
  have hl : t.root.Live := Trie.live_ofList words
  refine ⟨fun words' => ⟨?_, ?_⟩, h.mem_nodes_iff, ?_, h.size_eq_countP, h.rootIsWord_eq, ?_⟩
  · intro heq
    exact h.unique (heq ▸ Trie.holds_ofList words')
  · intro heq
    exact h.eq_of_live (heq ▸ Trie.holds_ofList words') hl (Trie.live_ofList words')
  · exact fun p e hnode hp => h.exists_word_of_mem_nodes hl hp hnode
  · exact fun p hp => h.find?_isSome_iff hl hp

/-- The shorter word is marked on the path of the longer one, before it or after it. -/
theorem trie_is_canonical_nested :
    let t := Trie.ofList ["help", "he", "", "help"]
    t = Trie.ofList ["he", "help"] ∧ t ≠ Trie.ofList ["help"] ∧
      t.nodes = [([], false), (['h'], false), (['h', 'e'], true), (['h', 'e', 'l'], false),
        (['h', 'e', 'l', 'p'], true)] ∧
      (∃ w ∈ wordSet ["help", "he", "", "help"], ['h', 'e', 'l'] <+: w.toList) ∧
      (t.find? ['h', 'e', 'l']).isSome = true := by
  intro t
  obtain ⟨hsame, -, hnode, -, -, hfound⟩ := trie_is_canonical ["help", "he", "", "help"]
  have hnodes : t.nodes = [([], false), (['h'], false), (['h', 'e'], true),
      (['h', 'e', 'l'], false), (['h', 'e', 'l', 'p'], true)] := by decide +kernel
  have hword := hnode ['h', 'e', 'l'] false (hnodes ▸ by simp) (by simp)
  refine ⟨(hsame _).2 (by decide +kernel), ?_, hnodes, hword, (hfound _ (by simp)).2 hword⟩
  exact fun heq => absurd ((hsame _).1 heq) (by decide +kernel)

end CommandConsole
