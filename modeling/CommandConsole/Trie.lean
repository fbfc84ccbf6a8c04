set_option autoImplicit false

/-!
Prefix trees over words. A tree is the list of branches at a node, in increasing order of their
characters; the root is a node above the first branches, where only the empty word could end.
-/

namespace CommandConsole

/-- The branches at a node: the first one, what lies below it, and the branches after it. -/
inductive Branches where
  | nil
  | branch (c : Char) (isWord : Bool) (below rest : Branches)
  deriving DecidableEq, Repr

def Branches.single : List Char → Branches
  | [] => .nil
  | c :: w => .branch c w.isEmpty (single w) .nil

def Branches.insert : Branches → List Char → Branches
  | t, [] => t
  | .nil, c :: w => single (c :: w)
  | .branch d e below rest, c :: w =>
    if c < d then .branch c w.isEmpty (single w) (.branch d e below rest)
    else if c = d then .branch d (e || w.isEmpty) (below.insert w) rest
    else .branch d e below (rest.insert (c :: w))

/-- The end of a path of characters: whether a word ends there, and the branches below. -/
def Branches.find? : Branches → List Char → Option (Bool × Branches)
  | _, [] => none
  | .nil, _ :: _ => none
  | .branch d e below rest, c :: w =>
    if c = d then if w.isEmpty then some (e, below) else below.find? w
    else rest.find? (c :: w)

def Branches.contains (t : Branches) (w : List Char) : Bool := (t.find? w).any (·.1)

/-- Every word, in depth-first order. -/
def Branches.words : Branches → List (List Char)
  | .nil => []
  | .branch c e below rest =>
    (if e then [[c]] else []) ++ below.words.map (c :: ·) ++ rest.words

/-- The root, as whether a word ends there and the branches below, and the number of words. -/
structure Trie where
  rootIsWord : Bool
  root : Branches
  size : Nat
  deriving DecidableEq, Repr

def Trie.empty : Trie := ⟨false, .nil, 0⟩

/-- The node at the end of a path of characters. The empty path ends at the root. -/
def Trie.find? (t : Trie) : List Char → Option (Bool × Branches)
  | [] => some (t.rootIsWord, t.root)
  | w => t.root.find? w

def Trie.contains (t : Trie) (word : String) : Bool :=
  word.toList != [] && (t.find? word.toList).any (·.1)

def Trie.isEmpty (t : Trie) : Bool := t.size == 0

/-- Adds the nodes of a path and marks the last one. -/
def Trie.mark (t : Trie) : List Char → Trie
  | [] => { t with rootIsWord := true }
  | w => { t with root := t.root.insert w }

/-- Adds a word and tells whether it is new. The empty word is never added. -/
def Trie.insert (t : Trie) (word : String) : Trie × Bool :=
  if word.toList = [] then (t, false)
  else if t.contains word then (t, false)
  else ({ t.mark word.toList with size := t.size + 1 }, true)

def Trie.ofList (words : List String) : Trie :=
  words.foldl (fun t w => (t.insert w).1) .empty

def Trie.words (t : Trie) : List String :=
  (if t.rootIsWord then [""] else []) ++ t.root.words.map String.ofList

/-- The words that start with a text. The text itself counts only on request, and the empty text
has no suggestions. -/
def Trie.suggest (t : Trie) (start : String) (exact : Bool) : List String :=
  if start.toList = [] then []
  else match t.find? start.toList with
    | none => []
    | some (e, below) =>
      (if e && exact then [start] else []) ++
        below.words.map fun w => String.ofList (start.toList ++ w)

@[simp] theorem Branches.find?_nil_right (t : Branches) : t.find? [] = none := by
  cases t <;> rfl

theorem Trie.find?_of_ne_nil (t : Trie) {w : List Char} (h : w ≠ []) :
    t.find? w = t.root.find? w := by
  cases w with
  | nil => exact absurd rfl h
  | cons c w => rfl

theorem Trie.mark_of_ne_nil (t : Trie) {w : List Char} (h : w ≠ []) :
    t.mark w = { t with root := t.root.insert w } := by
  cases w with
  | nil => exact absurd rfl h
  | cons c w => rfl

theorem Trie.contains_eq (t : Trie) (word : String) :
    t.contains word = t.root.contains word.toList := by
  unfold contains Branches.contains
  cases word.toList <;> simp [find?]

theorem Trie.suggest_empty (t : Trie) (exact : Bool) : t.suggest "" exact = [] := by
  simp [suggest]

end CommandConsole
