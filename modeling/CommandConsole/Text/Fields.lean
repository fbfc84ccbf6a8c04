set_option autoImplicit false

/-!
Texts made of fields with a separator between them. Main statement: joining undoes splitting.
-/

namespace CommandConsole

/-- The fields between the separators. There is always one field more than separators. -/
def splitFields (sep : Char) : List Char → List (List Char)
  | [] => [[]]
  | c :: r =>
    if c = sep then [] :: splitFields sep r
    else match splitFields sep r with
      | [] => [[c]]
      | w :: ws => (c :: w) :: ws

def joinFields (sep : Char) : List (List Char) → List Char
  | [] => []
  | [w] => w
  | w :: ws => w ++ sep :: joinFields sep ws

/-- Strings one after another with a separator between them. -/
def joinStrings (sep : Char) (xs : List String) : String :=
  String.ofList (joinFields sep (xs.map String.toList))

theorem splitFields_ne_nil (sep : Char) (t : List Char) : splitFields sep t ≠ [] := by
  cases t with
  | nil => simp [splitFields]
  | cons c r =>
    simp only [splitFields]
    split
    · simp
    · split <;> simp

theorem joinFields_cons_ne_nil (sep : Char) (w : List Char) {ws : List (List Char)} (h : ws ≠ []) :
    joinFields sep (w :: ws) = w ++ sep :: joinFields sep ws := by
  cases ws with
  | nil => exact absurd rfl h
  | cons => rfl

theorem joinFields_splitFields (sep : Char) (t : List Char) :
    joinFields sep (splitFields sep t) = t := by
  induction t with
  | nil => rfl
  | cons c r ih =>
    have hne := splitFields_ne_nil sep r
    simp only [splitFields]
    split
    · next h => rw [joinFields_cons_ne_nil sep [] hne, ih, h]; rfl
    · split
      · next h => exact absurd h hne
      · next w ws h =>
        rw [h] at ih
        rw [← ih]
        cases ws <;> rfl

end CommandConsole
