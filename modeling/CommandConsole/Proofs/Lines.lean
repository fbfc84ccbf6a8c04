import CommandConsole.Proofs.Runs
import Mathlib.Data.List.DropRight
set_option autoImplicit false

/-!
A command line by its parts: blanks, the name, and the text behind it. Quotes and parentheses mean
nothing in the name, and blanks at the end of the line belong to no argument.
-/

namespace CommandConsole

theorem trim_eq (t : List Char) : trim t = (t.dropWhile isBlank).rdropWhile isBlank := rfl

theorem cut_of_boundary {p : Char → Bool} {u v : List Char} (hu : ∀ c ∈ u, p c = true)
    (hv : ∀ c, v.head? = some c → p c = false) :
    (u ++ v).takeWhile p = u ∧ (u ++ v).dropWhile p = v := by
  rw [List.takeWhile_append_of_pos hu, List.dropWhile_append_of_pos hu]
  cases v with
  | nil => simp
  | cons c v =>
    have hc := hv c rfl
    simp [hc]

/-- Dropping at the end stops at a word that holds no such character. -/
theorem rdropWhile_append_of_neg {p : Char → Bool} {u v : List Char}
    (hu : ∀ c ∈ u, p c = false) : (u ++ v).rdropWhile p = u ++ v.rdropWhile p := by
  induction v using List.reverseRecOn with
  | nil =>
    rw [List.append_nil, List.rdropWhile_nil, List.append_nil, List.rdropWhile_eq_self_iff]
    intro hl
    simp [hu _ (List.getLast_mem hl)]
  | append_singleton v c ih =>
    rw [← List.append_assoc]
    cases hc : p c with
    | true => rw [List.rdropWhile_concat_pos _ _ _ hc, List.rdropWhile_concat_pos _ _ _ hc, ih]
    | false =>
      rw [List.rdropWhile_concat_neg _ _ _ (by simp [hc]),
        List.rdropWhile_concat_neg _ _ _ (by simp [hc]), List.append_assoc]

theorem head?_rdropWhile {p : Char → Bool} {u : List Char} {c : Char}
    (h : (u.rdropWhile p).head? = some c) : u.head? = some c := by
  obtain ⟨v, hv⟩ := List.rdropWhile_prefix p u
  rw [← hv, List.head?_append, h]
  rfl

/-- How a line is made up: blanks, a name without blanks, and a text that begins with a blank. -/
structure LineShape (line lead name rest : List Char) : Prop where
  whole : line = lead ++ name ++ rest
  lead_blank : ∀ c ∈ lead, isBlank c = true
  name_ne_nil : name ≠ []
  name_typeable : ∀ c ∈ name, isBlank c = false
  rest_begins : ∀ c, rest.head? = some c → isBlank c = true

theorem exists_lineShape {line : List Char} (h : ¬∀ c ∈ line, isBlank c = true) :
    ∃ lead name rest, LineShape line lead name rest := by
  have hbody : line.dropWhile isBlank ≠ [] := by
    rw [ne_eq, List.dropWhile_eq_nil_iff]
    exact h
  obtain ⟨c, r, hcr⟩ := List.exists_cons_of_ne_nil hbody
  have hc : isBlank c = false := by
    have hhead := List.head?_dropWhile_not isBlank line
    simpa [hcr] using hhead
  refine ⟨line.takeWhile isBlank, (c :: r).takeWhile (!isBlank ·),
    (c :: r).dropWhile (!isBlank ·), ⟨?_, ?_, ?_, ?_, ?_⟩⟩
  · rw [List.append_assoc, List.takeWhile_append_dropWhile, ← hcr,
      List.takeWhile_append_dropWhile]
  · intro d hd
    exact List.mem_takeWhile_imp hd
  · simp [hc]
  · intro d hd
    simpa using List.mem_takeWhile_imp hd
  · intro d hd
    have hhead := List.head?_dropWhile_not (!isBlank ·) (c :: r)
    rw [hd] at hhead
    simpa using hhead

theorem LineShape.trim_eq {line lead name rest : List Char} (h : LineShape line lead name rest) :
    trim line = name ++ rest.rdropWhile isBlank := by
  have hhead : ∀ c, (name ++ rest).head? = some c → isBlank c = false := by
    intro c hc
    obtain ⟨d, name', rfl⟩ := List.exists_cons_of_ne_nil h.name_ne_nil
    rw [List.cons_append, List.head?_cons, Option.some.injEq] at hc
    exact hc ▸ h.name_typeable d List.mem_cons_self
  rw [CommandConsole.trim_eq, h.whole, List.append_assoc,
    (cut_of_boundary h.lead_blank hhead).2, rdropWhile_append_of_neg h.name_typeable]

theorem LineShape.lineParts {line : String} {lead name rest : List Char}
    (h : LineShape line.toList lead name rest) :
    lineParts? line =
      some (String.ofList name, String.ofList ((rest.rdropWhile isBlank).drop 1)) := by
  have hname : ∀ c ∈ name, (!isBlank c) = true := by
    intro c hc
    simp [h.name_typeable c hc]
  have hrest : ∀ c, (rest.rdropWhile isBlank).head? = some c → (!isBlank c) = false := by
    intro c hc
    simp [h.rest_begins c (head?_rdropWhile hc)]
  obtain ⟨htake, hdrop⟩ := cut_of_boundary hname hrest
  have hne : name ++ rest.rdropWhile isBlank ≠ [] := by simp [h.name_ne_nil]
  simp only [lineParts?, h.trim_eq, if_neg hne, htake, hdrop]

/-- One blank at the beginning of a text makes no difference to its tokens. -/
theorem splitFrom_drop_blank {t : List Char} (h : ∀ c, t.head? = some c → isBlank c = true) :
    splitFrom .closed none (t.drop 1) = splitFrom .closed none t := by
  cases t with
  | nil => rfl
  | cons c t =>
    have hc := h c rfl
    simp [splitFrom, Nesting.separates, Nesting.isOpen, Nesting.closed, hc]

theorem LineShape.read? {line : String} {lead name rest : List Char}
    (h : LineShape line.toList lead name rest) :
    CommandLine.read? line =
      some ⟨String.ofList name, tokensByRuns (rest.rdropWhile isBlank)⟩ := by
  have hrest : ∀ c, (rest.rdropWhile isBlank).head? = some c → isBlank c = true :=
    fun c hc => h.rest_begins c (head?_rdropWhile hc)
  have hargs : splitArguments (String.ofList ((rest.rdropWhile isBlank).drop 1)) =
      tokensByRuns (rest.rdropWhile isBlank) := by
    have hruns := splitArguments_eq_runs (String.ofList (rest.rdropWhile isBlank))
    rw [String.toList_ofList] at hruns
    rw [← hruns]
    simp only [splitArguments, String.toList_ofList, splitFrom_drop_blank hrest]
  rw [CommandLine.read?, h.lineParts, Option.map_some, hargs]

theorem lineParts?_eq_none_iff {line : String} :
    lineParts? line = none ↔ ∀ c ∈ line.toList, isBlank c = true := by
  constructor
  · intro hnone
    by_contra h
    obtain ⟨lead, name, rest, hshape⟩ := exists_lineShape h
    rw [hshape.lineParts] at hnone
    cases hnone
  · intro h
    have htrim : trim line.toList = [] := by
      rw [trim_eq, List.dropWhile_eq_nil_iff.2 h]
      rfl
    simp [lineParts?, htrim]

theorem CommandLine.read?_eq_none_iff {line : String} :
    read? line = none ↔ ∀ c ∈ line.toList, isBlank c = true := by
  rw [read?, Option.map_eq_none_iff, lineParts?_eq_none_iff]

theorem CommandLine.read?_eq_some_iff {line : String} {l : CommandLine} :
    read? line = some l ↔
      ∃ lead rest, LineShape line.toList lead l.name.toList rest ∧
        l.arguments = tokensByRuns (rest.rdropWhile isBlank) := by
  constructor
  · intro h
    have hline : ¬∀ c ∈ line.toList, isBlank c = true := by
      intro hblank
      rw [read?_eq_none_iff.2 hblank] at h
      cases h
    obtain ⟨lead, name, rest, hshape⟩ := exists_lineShape hline
    rw [hshape.read?] at h
    cases h
    exact ⟨lead, rest, by simpa using hshape, rfl⟩
  · intro h
    obtain ⟨lead, rest, hshape, hargs⟩ := h
    rw [hshape.read?, String.ofList_toList, ← hargs]

/-- The scanner against positions: an argument text has the tokens of its maximal runs and keeps all
but separators and quotes; a line has a name, which ends at the first blank, unless it is blank,
and its arguments are the tokens of what follows up to the blanks at its end. -/
theorem tokens_are_maximal_runs :
    (∀ s : String, splitArguments s = tokensByRuns s.toList) ∧
    (∀ s : String, (splitArguments s).flatMap String.toList =
      (s.toList.zipIdx.filter fun x => !isSeparator s.toList x.2 && x.1 != '"').map Prod.fst) ∧
    (∀ line : String, CommandLine.read? line = none ↔ ∀ c ∈ line.toList, isBlank c = true) ∧
    ∀ (line : String) (l : CommandLine), CommandLine.read? line = some l ↔
      ∃ lead rest, LineShape line.toList lead l.name.toList rest ∧
        l.arguments = tokensByRuns (rest.rdropWhile isBlank) :=
  ⟨splitArguments_eq_runs, flatMap_splitArguments, fun _ => CommandLine.read?_eq_none_iff,
    fun _ _ => CommandLine.read?_eq_some_iff⟩

end CommandConsole
