import CommandConsole.Proofs.Separators
import Mathlib.Data.List.ProdSigma
set_option autoImplicit false

/-!
The tokens of an argument text are the maximal runs between its separators, without their quotes.
Main statement: `splitArguments_eq_runs`, for the scanner that reads the text once.
-/

namespace CommandConsole

/-- A range without separators that cannot be made longer at either end. -/
structure IsRun (t : List Char) (first last : Nat) : Prop where
  nonempty : first < last
  within : last ≤ t.length
  inside : ∀ k < last, first ≤ k → isSeparator t k = false
  left : first = 0 ∨ isSeparator t (first - 1) = true
  right : last = t.length ∨ isSeparator t last = true

instance (t : List Char) (first last : Nat) : Decidable (IsRun t first last) :=
  decidable_of_iff
    (first < last ∧ last ≤ t.length ∧ (∀ k < last, first ≤ k → isSeparator t k = false) ∧
      (first = 0 ∨ isSeparator t (first - 1) = true) ∧
      (last = t.length ∨ isSeparator t last = true))
    ⟨fun ⟨h₁, h₂, h₃, h₄, h₅⟩ => ⟨h₁, h₂, h₃, h₄, h₅⟩,
      fun h => ⟨h.nonempty, h.within, h.inside, h.left, h.right⟩⟩

/-- The maximal runs in order, each as its first position and the position after its last. -/
def runs (t : List Char) : List (Nat × Nat) :=
  (List.range (t.length + 1) ×ˢ List.range (t.length + 1)).filter fun r => IsRun t r.1 r.2

/-- The characters of a run without its quotes. -/
def runText (t : List Char) (r : Nat × Nat) : List Char :=
  ((t.take r.2).drop r.1).filter (· != '"')

def tokensByRuns (t : List Char) : List String :=
  (runs t).map fun r => String.ofList (runText t r)

theorem mem_runs {t : List Char} {first last : Nat} :
    (first, last) ∈ runs t ↔ IsRun t first last := by
  simp only [runs, List.mem_filter, List.mem_product, List.mem_range, decide_eq_true_eq,
    and_iff_right_iff_imp]
  intro h
  have h₁ := h.nonempty
  have h₂ := h.within
  omega

theorem IsRun.last_unique {t : List Char} {first last last' : Nat} (h : IsRun t first last)
    (h' : IsRun t first last') : last = last' := by
  have hle : ∀ {a b : Nat}, IsRun t first a → IsRun t first b → b ≤ a := by
    intro a b ha hb
    refine Nat.le_of_not_lt ?_
    intro hlt
    rcases ha.right with hr | hr
    · have := hb.within
      omega
    · have hn := hb.inside a hlt (Nat.le_of_lt ha.nonempty)
      simp [hr] at hn
  exact Nat.le_antisymm (hle h' h) (hle h h')

theorem runs_pairwise (t : List Char) : (runs t).Pairwise fun r q => r.1 < q.1 := by
  have hlex : (List.range (t.length + 1) ×ˢ List.range (t.length + 1)).Pairwise
      fun r q => r.1 < q.1 ∨ r.1 = q.1 ∧ r.2 < q.2 := by
    change (List.flatMap _ _).Pairwise _
    rw [List.pairwise_flatMap]
    constructor
    · intro a _
      rw [List.pairwise_map]
      exact List.pairwise_lt_range.imp fun h => .inr ⟨rfl, h⟩
    · refine List.pairwise_lt_range.imp ?_
      intro a b hab x hx y hy
      obtain ⟨_, _, rfl⟩ := List.mem_map.1 hx
      obtain ⟨_, _, rfl⟩ := List.mem_map.1 hy
      exact .inl hab
  have hfilter := hlex.filter (fun r => decide (IsRun t r.1 r.2))
  refine hfilter.imp_of_mem ?_
  intro r q hr hq hlt
  rcases hlt with hlt | ⟨heq, hlt⟩
  · exact hlt
  · have hrun : IsRun t r.1 r.2 := mem_runs.1 hr
    have hrun' : IsRun t r.1 q.2 := heq ▸ mem_runs.1 hq
    have hsame := hrun.last_unique hrun'
    omega

/-- The runs that begin at a position or behind it. -/
def runsFrom (t : List Char) (i : Nat) : List (Nat × Nat) := (runs t).filter (i ≤ ·.1)

theorem runsFrom_zero (t : List Char) : runsFrom t 0 = runs t := by simp [runsFrom]

theorem runsFrom_eq_nil {t : List Char} {i : Nat} (h : t.length ≤ i) : runsFrom t i = [] := by
  rw [runsFrom, List.filter_eq_nil_iff]
  intro r hr
  have hrun : IsRun t r.1 r.2 := mem_runs.1 hr
  have h₁ := hrun.nonempty
  have h₂ := hrun.within
  simp only [decide_eq_true_eq]
  omega

theorem runsFrom_eq_of_no_start {t : List Char} {i j : Nat} (hij : i ≤ j)
    (h : ∀ first last, i ≤ first → first < j → ¬IsRun t first last) :
    runsFrom t i = runsFrom t j := by
  apply List.filter_congr
  intro r hr
  have hrun : IsRun t r.1 r.2 := mem_runs.1 hr
  rw [decide_eq_decide]
  constructor
  · intro hi
    refine Nat.le_of_not_lt ?_
    intro hj
    exact h r.1 r.2 hi hj hrun
  · intro hj
    exact Nat.le_trans hij hj

theorem filter_le_of_mem {l : List (Nat × Nat)} (h : l.Pairwise fun r q => r.1 < q.1)
    {x : Nat × Nat} (hx : x ∈ l) :
    l.filter (x.1 ≤ ·.1) = x :: l.filter (x.1 + 1 ≤ ·.1) := by
  induction l with
  | nil => cases hx
  | cons y l ih =>
    obtain ⟨hy, hl⟩ := List.pairwise_cons.1 h
    rcases List.mem_cons.1 hx with rfl | hx
    · have hle : l.filter (fun z => decide (x.1 ≤ z.1)) = l :=
        List.filter_eq_self.2 fun z hz => decide_eq_true (Nat.le_of_lt (hy z hz))
      have hlt : l.filter (fun z => decide (x.1 + 1 ≤ z.1)) = l :=
        List.filter_eq_self.2 fun z hz => decide_eq_true (hy z hz)
      rw [List.filter_cons_of_pos (by simp), hle, List.filter_cons_of_neg (by simp), hlt]
    · have hlt := hy x hx
      rw [List.filter_cons_of_neg (by simpa using hlt),
        List.filter_cons_of_neg (by simp; omega), ih hl hx]

theorem runsFrom_of_isRun {t : List Char} {first last : Nat} (h : IsRun t first last) :
    runsFrom t first = (first, last) :: runsFrom t (first + 1) :=
  filter_le_of_mem (runs_pairwise t) (mem_runs.2 h)

/-- What the scanner has kept at position `i` of a token that began at position `a`. -/
def pending (t : List Char) (a i : Nat) : Option (List Char) :=
  if a < i then some (runText t (a, i)).reverse else none

/-- Where a token may end, the runs from its beginning on are the token and the runs behind. -/
theorem runsFrom_flush {t : List Char} {a i : Nat} (hai : a ≤ i) (hlen : i ≤ t.length)
    (hleft : a = 0 ∨ isSeparator t (a - 1) = true)
    (hin : ∀ k < i, a ≤ k → isSeparator t k = false)
    (hend : i = t.length ∨ isSeparator t i = true) :
    (runsFrom t a).map (runText t) =
      (pending t a i).toList.map List.reverse ++ (runsFrom t (i + 1)).map (runText t) := by
  rcases Nat.lt_or_eq_of_le hai with hlt | rfl
  · have hrun : IsRun t a i := ⟨hlt, hlen, hin, hleft, hend⟩
    have hnext : runsFrom t (a + 1) = runsFrom t (i + 1) := by
      apply runsFrom_eq_of_no_start (by omega)
      intro first last h₁ h₂ hr
      rcases hr.left with hz | hs
      · omega
      · rw [hin (first - 1) (by omega) (by omega)] at hs
        cases hs
    rw [runsFrom_of_isRun hrun, hnext]
    simp [pending, hlt]
  · have hnext : runsFrom t a = runsFrom t (a + 1) := by
      apply runsFrom_eq_of_no_start (by omega)
      intro first last h₁ h₂ hr
      obtain rfl : first = a := by omega
      have hne := hr.nonempty
      have hwithin := hr.within
      rcases hend with he | hs
      · omega
      · rw [hr.inside first hne (Nat.le_refl _)] at hs
        cases hs
    simp [pending, hnext]

theorem Nesting.next_of_isBlank (s : Nesting) {c : Char} (h : isBlank c = true) :
    s.next c = s := by
  have hne : ∀ d, isBlank d = false → c ≠ d := by
    intro d hd hc
    rw [← hc, h] at hd
    cases hd
  have hquote : c ≠ '"' := hne _ (by decide)
  have hopen : c ≠ '(' := hne _ (by decide)
  have hclose : c ≠ ')' := hne _ (by decide)
  simp [next, hquote, hopen, hclose]

theorem Nesting.next_of_separates {s : Nesting} {c : Char} (h : s.separates c = true) :
    s.next c = s := by
  simp only [separates, Bool.and_eq_true] at h
  exact s.next_of_isBlank h.1

theorem runText_succ {t : List Char} {a i : Nat} {c : Char} (hai : a ≤ i)
    (h : t[i]? = some c) :
    runText t (a, i + 1) = runText t (a, i) ++ if c = '"' then [] else [c] := by
  have hlen : a - (t.take i).length = 0 := by
    have := (List.getElem?_eq_some_iff.1 h).1
    simp only [List.length_take]
    omega
  simp only [runText, List.take_add_one, h, Option.toList_some, List.drop_append, hlen,
    List.drop_zero, List.filter_append]
  by_cases hc : c = '"' <;> simp [hc]

/-- The scanner between two characters: the token begun stands for the run from `a`. -/
theorem splitFrom_eq_runs {t : List Char} {a i : Nat} (hai : a ≤ i) (hlen : i ≤ t.length)
    (hleft : a = 0 ∨ isSeparator t (a - 1) = true)
    (hin : ∀ k < i, a ≤ k → isSeparator t k = false) :
    splitFrom (Nesting.closed.after (t.take i)) (pending t a i) (t.drop i) =
      (runsFrom t a).map (runText t) := by
  -- on the number of characters left; the run from `a` is closed by a separator, else goes on
  induction hn : t.length - i generalizing a i with
  | zero =>
    have hi : i = t.length := by omega
    rw [runsFrom_flush hai hlen hleft hin (.inl hi), runsFrom_eq_nil (by omega),
      List.drop_eq_nil_of_le (by omega)]
    simp [splitFrom]
  | succ n ih =>
    have hi : i < t.length := by omega
    have hget : t[i]? = some t[i] := List.getElem?_eq_getElem hi
    have hsep := separates_after hget
    rw [List.drop_eq_getElem_cons hi, splitFrom, hsep]
    cases hs : isSeparator t i with
    | true =>
      rw [hs] at hsep
      have hrest := ih (a := i + 1) (i := i + 1) (Nat.le_refl _) hi (.inr hs)
        (by intro k h₁ h₂; omega) (by omega)
      rw [Nesting.after_take_succ _ hget, Nesting.next_of_separates hsep] at hrest
      rw [runsFrom_flush hai hlen hleft hin (.inr hs), ← hrest]
      simp [pending]
    | false =>
      have hrest := ih (a := a) (i := i + 1) (by omega) hi hleft (by
        intro k h₁ h₂
        rcases Nat.lt_or_eq_of_le (Nat.le_of_lt_succ h₁) with hlt | rfl
        · exact hin k hlt h₂
        · exact hs) (by omega)
      rw [Nesting.after_take_succ _ hget] at hrest
      rw [← hrest]
      have hword : pending t a (i + 1) =
          some ((if t[i] = '"' then [] else [t[i]]) ++ (pending t a i).getD []) := by
        rw [pending, if_pos (by omega), runText_succ hai hget, pending]
        rcases Nat.lt_or_eq_of_le hai with hlt | rfl
        · by_cases hc : t[i] = '"' <;> simp [hlt, hc]
        · by_cases hc : t[a] = '"' <;> simp [hc, runText]
      simp [hword]

theorem splitArguments_eq_runs (s : String) : splitArguments s = tokensByRuns s.toList := by
  have h := splitFrom_eq_runs (t := s.toList) (a := 0) (i := 0) (Nat.le_refl _)
    (Nat.zero_le _) (.inl rfl) (by intro k h₁; omega)
  rw [runsFrom_zero] at h
  have hmap := congrArg (List.map String.ofList) h
  rw [List.map_map] at hmap
  exact hmap

example : tokensByRuns "a) \"\" (b\" )\"".toList = ["a)", "", "(b )"] := by decide +kernel

/-- The characters behind a position that are kept: neither a separator nor a quote. -/
def keptFrom (t : List Char) (i : Nat) : List Char :=
  ((t.zipIdx.drop i).filter fun x => !isSeparator t x.2 && x.1 != '"').map Prod.fst

theorem keptFrom_eq {t : List Char} {i : Nat} (h : i < t.length) :
    keptFrom t i =
      (if isSeparator t i = true ∨ t[i] = '"' then [] else [t[i]]) ++ keptFrom t (i + 1) := by
  have hdrop : t.zipIdx.drop i = (t[i], i) :: t.zipIdx.drop (i + 1) := by
    rw [List.drop_eq_getElem_cons (by simpa using h)]
    simp
  rw [keptFrom, hdrop, keptFrom]
  by_cases hs : isSeparator t i = true
  · simp [hs]
  · by_cases hc : t[i] = '"' <;> simp [hs, hc]

theorem flatten_splitFrom {t : List Char} {i : Nat} (hlen : i ≤ t.length)
    (word : Option (List Char)) :
    (splitFrom (Nesting.closed.after (t.take i)) word (t.drop i)).flatten =
      (word.getD []).reverse ++ keptFrom t i := by
  induction hn : t.length - i generalizing i word with
  | zero =>
    have hi : i = t.length := by omega
    subst hi
    cases word <;> simp [splitFrom, keptFrom, List.drop_eq_nil_of_le]
  | succ n ih =>
    have hi : i < t.length := by omega
    have hget : t[i]? = some t[i] := List.getElem?_eq_getElem hi
    have hsep := separates_after hget
    have hrest := ih (i := i + 1) hi
    rw [Nesting.after_take_succ _ hget] at hrest
    rw [List.drop_eq_getElem_cons hi, splitFrom, hsep, keptFrom_eq hi]
    cases hs : isSeparator t i with
    | true =>
      rw [hs] at hsep
      rw [Nesting.next_of_separates hsep] at hrest
      cases word <;> simp [hrest none (by omega)]
    | false =>
      simp only [Bool.false_eq_true, if_false, hrest _ (by omega : t.length - (i + 1) = n)]
      by_cases hc : t[i] = '"' <;> simp [hc]

/-- Only separators and quotes are lost, and nothing else changes its place. -/
theorem flatMap_splitArguments (s : String) :
    (splitArguments s).flatMap String.toList = keptFrom s.toList 0 := by
  have h := flatten_splitFrom (t := s.toList) (i := 0) (Nat.zero_le _) none
  simp only [List.take_zero, List.drop_zero, Option.getD_none, List.reverse_nil,
    List.nil_append] at h
  rw [← h, splitArguments, List.flatMap_map]
  simp [Nesting.after, List.flatMap_id']

end CommandConsole
