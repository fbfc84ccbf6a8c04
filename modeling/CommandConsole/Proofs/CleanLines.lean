import CommandConsole.Session
import CommandConsole.Proofs.TypedLine
set_option autoImplicit false

/-!
Cleaned lines, and the calls without arguments among them. A cleaned line is its own trimmed form,
so a call that takes no token is typed by the bare name and by no other cleaned line.
-/

namespace CommandConsole

theorem LineShape.trimmed_shape {line lead name rest : List Char}
    (h : LineShape line lead name rest) :
    LineShape (trim line) [] name (rest.rdropWhile isBlank) where
  whole := by rw [h.trim_eq, List.nil_append]
  lead_blank := by simp
  name_ne_nil := h.name_ne_nil
  name_typeable := h.name_typeable
  rest_begins := fun c hc => h.rest_begins c (head?_rdropWhile hc)

theorem trim_of_blank {t : List Char} (h : ∀ c ∈ t, isBlank c = true) : trim t = [] := by
  rw [trim_eq, List.dropWhile_eq_nil_iff.2 h, List.rdropWhile_nil]

theorem trim_trim (t : List Char) : trim (trim t) = trim t := by
  by_cases h : ∀ c ∈ t, isBlank c = true
  · rw [trim_of_blank h, trim_nil]
  · obtain ⟨lead, name, rest, hshape⟩ := exists_lineShape h
    rw [hshape.trimmed_shape.trim_eq, hshape.trim_eq, List.rdropWhile_idempotent]

theorem trimmed_trimmed (s : String) : trimmed (trimmed s) = trimmed s := by
  rw [trimmed, toList_trimmed, trim_trim, trimmed]

theorem trimmed_cleanLine (config : Config) (line : String) :
    trimmed (cleanLine config line) = cleanLine config line :=
  trimmed_trimmed _

/-- A token that was begun is kept. -/
theorem splitFrom_word_ne_nil (s : Nesting) (word t : List Char) :
    splitFrom s (some word) t ≠ [] := by
  induction t generalizing s word with
  | nil => simp [splitFrom]
  | cons c t ih =>
    rw [splitFrom]
    split
    · simp
    · exact ih _ _

theorem blank_of_splitFrom_eq_nil {t : List Char} (h : splitFrom .closed none t = []) :
    ∀ c ∈ t, isBlank c = true := by
  induction t with
  | nil => simp
  | cons c t ih =>
    rw [splitFrom] at h
    split at h
    · next hc =>
      have hblank : isBlank c = true := (Bool.and_eq_true_iff.1 hc).1
      exact List.forall_mem_cons.2 ⟨hblank, ih h⟩
    · exact (splitFrom_word_ne_nil _ _ _ h).elim

/-- A call without arguments is the whole line. -/
theorem trimmed_eq_name {line name : String} (h : CommandLine.read? line = some ⟨name, []⟩) :
    trimmed line = name := by
  obtain ⟨lead, rest, hshape, hargs⟩ := CommandLine.read?_eq_some_iff.1 h
  have hsplit := splitArguments_eq_runs (String.ofList (rest.rdropWhile isBlank))
  rw [String.toList_ofList, ← hargs, splitArguments, String.toList_ofList, List.map_eq_nil_iff]
    at hsplit
  have hrest : rest.rdropWhile isBlank = [] := by
    rw [← List.rdropWhile_idempotent, List.rdropWhile_eq_nil_iff]
    exact blank_of_splitFrom_eq_nil hsplit
  rw [trimmed, hshape.trim_eq, hrest, List.append_nil, String.ofList_toList]

theorem read?_name {name : String} (h : isTypeable name = true) :
    CommandLine.read? name = some ⟨name, []⟩ := by
  obtain ⟨hne, hname⟩ := isTypeable_iff.1 h
  have hargs : ∀ a ∈ ([] : List String), '"' ∉ a.toList := by simp
  have hread := read?_typedLine hne hname hargs
  rwa [typedLine, List.foldl_nil] at hread

end CommandConsole
