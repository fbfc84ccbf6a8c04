import CommandConsole.Proofs.Causality
import CommandConsole.Proofs.EncodedText
import Mathlib.Logic.Relation
set_option autoImplicit false

/-!
Inputs with further characters in their lines. A character inserted in front of a line feed leaves
all other lines as they are, and its own line is text exactly if it was text before.
-/

namespace CommandConsole

/-- Lines as they are cut: none is empty, every one but the last ends with a line feed, and a line
feed is nowhere else. -/
def AreLines : List (List UInt8) → Prop
  | [] => True
  | l :: ls => l ≠ [] ∧ 10 ∉ l.dropLast ∧ (ls ≠ [] → l.getLast? = some 10) ∧ AreLines ls

theorem areLines_splitLines (input : List UInt8) : AreLines (splitLines input) := by
  induction input with
  | nil => trivial
  | cons b r ih =>
    rw [splitLines]
    split
    · next hb => exact ⟨by simp, by simp, fun _ => by rw [hb, List.getLast?_singleton], ih⟩
    · next hb =>
      cases hlines : splitLines r with
      | nil => exact ⟨by simp, by simp, by simp, trivial⟩
      | cons l ls =>
        rw [hlines] at ih
        obtain ⟨hne, hinner, hlast, hrest⟩ := ih
        refine ⟨by simp, ?_, fun hls => ?_, hrest⟩
        · rw [List.dropLast_cons_of_ne_nil hne, List.mem_cons, not_or]
          exact ⟨fun h => hb h.symm, hinner⟩
        · rw [List.getLast?_cons, hlast hls]
          rfl

/-- A line without a line feed in front of its end is not cut further. -/
theorem splitLines_singleton {l : List UInt8} (hne : l ≠ []) (hinner : 10 ∉ l.dropLast) :
    splitLines l = [l] := by
  induction l with
  | nil => exact absurd rfl hne
  | cons b r ih =>
    rw [splitLines]
    cases r with
    | nil => split <;> rfl
    | cons b' r =>
      rw [List.dropLast_cons_cons, List.mem_cons, not_or] at hinner
      rw [if_neg fun h => hinner.1 h.symm, ih (List.cons_ne_nil _ _) hinner.2]

theorem AreLines.splitLines_flatten {ls : List (List UInt8)} (h : AreLines ls) :
    splitLines ls.flatten = ls := by
  induction ls with
  | nil => rfl
  | cons l ls ih =>
    obtain ⟨hne, hinner, hlast, hrest⟩ := h
    rw [List.flatten_cons]
    cases ls with
    | nil => rw [List.flatten_nil, List.append_nil, splitLines_singleton hne hinner]
    | cons l' ls =>
      rw [splitLines_append (.inr (hlast (List.cons_ne_nil _ _))), ih hrest,
        splitLines_singleton hne hinner, List.singleton_append]

theorem AreLines.mid {before after : List (List UInt8)} {l : List UInt8}
    (h : AreLines (before ++ l :: after)) : AreLines (l :: after) := by
  induction before with
  | nil => exact h
  | cons _ before ih => exact ih h.2.2.2

/-- A line may be replaced by another one that ends alike. -/
theorem AreLines.replace {before after : List (List UInt8)} {l l' : List UInt8}
    (h : AreLines (before ++ l :: after)) (h' : AreLines (l' :: after)) :
    AreLines (before ++ l' :: after) := by
  induction before with
  | nil => exact h'
  | cons first before ih =>
    obtain ⟨hne, hinner, hlast, hrest⟩ := h
    exact ⟨hne, hinner, fun _ => hlast (by simp), ih hrest⟩

/-- A character more in a line of an input, in front of the line feed. Where the line is text, the
place does not cut a character of it. -/
inductive CharInserted (c : Char) : List UInt8 → List UInt8 → Prop
  | intro {input p q : List UInt8} {before after : List (List UInt8)} :
    splitLines input = before ++ (p ++ q) :: after → 10 ∉ p →
    ((decodeText? (p ++ q)).isSome = true → (decodeText? p).isSome = true) →
    CharInserted c input (before ++ (p ++ (String.utf8EncodeChar c ++ q)) :: after).flatten

/-- The byte of the line feed stands for nothing else. -/
theorem newline_not_mem_encodeChar {c : Char} (hc : c ≠ '\n') : 10 ∉ String.utf8EncodeChar c := by
  intro hmem
  obtain ⟨p, r, hsplit⟩ := List.append_of_mem hmem
  by_cases hp : p = []
  · have hnewline : encodeText ['\n'] ++ r = encodeText [c] := by
      rw [hp] at hsplit
      rw [encodeText_cons c, hsplit]
      simp [encodeText, String.utf8EncodeChar]
    obtain ⟨v, hv, -⟩ := exists_rest_of_encodeText hnewline
    rw [List.singleton_append, List.cons.injEq] at hv
    exact hc hv.1
  · exact not_firstByte_inside hsplit hp (by decide)

/-- With the character the line is cut like the one without. -/
theorem AreLines.insert {c : Char} {p q : List UInt8} {after : List (List UInt8)} (hc : c ≠ '\n')
    (hp : 10 ∉ p) (h : AreLines ((p ++ q) :: after)) :
    AreLines ((p ++ (String.utf8EncodeChar c ++ q)) :: after) := by
  obtain ⟨-, hinner, hlast, hrest⟩ := h
  have hchar := newline_not_mem_encodeChar hc
  have hne : String.utf8EncodeChar c ≠ [] := String.utf8EncodeChar_ne_nil
  refine ⟨by simp [hne], ?_, fun hafter => ?_, hrest⟩
  · by_cases hq : q = []
    · intro hmem
      have hmem := List.mem_of_mem_dropLast hmem
      simp [hq, hp, hchar] at hmem
    · rw [List.dropLast_append_of_ne_nil hq] at hinner
      rw [← List.append_assoc, List.dropLast_append_of_ne_nil hq]
      simp only [List.mem_append, not_or] at hinner ⊢
      exact ⟨⟨hp, hchar⟩, hinner.2⟩
  · have hend := hlast hafter
    cases hq : q.getLast? with
    | none =>
      rw [List.getLast?_eq_none_iff.1 hq, List.append_nil] at hend
      exact absurd (List.mem_of_getLast? hend) hp
    | some b =>
      rw [List.getLast?_append, hq, Option.some_or] at hend
      rw [List.getLast?_append, List.getLast?_append, hq, Option.some_or, Option.some_or]
      exact hend

theorem splitLines_insert {c : Char} {input p q : List UInt8} {before after : List (List UInt8)}
    (hc : c ≠ '\n') (hp : 10 ∉ p) (h : splitLines input = before ++ (p ++ q) :: after) :
    splitLines (before ++ (p ++ (String.utf8EncodeChar c ++ q)) :: after).flatten =
      before ++ (p ++ (String.utf8EncodeChar c ++ q)) :: after := by
  have hlines := areLines_splitLines input
  rw [h] at hlines
  exact (hlines.replace (hlines.mid.insert hc hp)).splitLines_flatten

/-- With the character in it a line is text exactly if the parts before and behind it are. -/
theorem decodeText?_insert_isSome_iff {c : Char} {p q : List UInt8} :
    (decodeText? (p ++ (String.utf8EncodeChar c ++ q))).isSome = true ↔
      ∃ t u, p = encodeText t ∧ q = encodeText u := by
  rw [decodeText?_isSome_iff]
  constructor
  · intro h
    obtain ⟨s, hs⟩ := h
    obtain ⟨t, rfl⟩ := exists_start_of_encodeText hs
    obtain ⟨v, -, hv⟩ := exists_rest_of_encodeText hs
    have hchar : encodeText [c] ++ q = encodeText v := by
      rw [← hv, encodeText_cons, encodeText, List.flatMap_nil, List.append_nil]
    obtain ⟨u, -, rfl⟩ := exists_rest_of_encodeText hchar
    exact ⟨t, u, rfl, rfl⟩
  · intro h
    obtain ⟨t, u, rfl, rfl⟩ := h
    exact ⟨t ++ c :: u, by rw [encodeText_append, encodeText_cons]⟩

/-- The text of a line without prohibited characters, if the line is text. -/
def strippedText? (config : Config) (l : List UInt8) : Option String :=
  (decodeText? l).map config.strip

theorem Config.strip_insert {config : Config} {c : Char} (hc : c ∈ config.prohibitedChars)
    (t u : List Char) :
    config.strip (String.ofList (t ++ c :: u)) = config.strip (String.ofList (t ++ u)) := by
  simp [strip, hc]

theorem strippedText?_insert {config : Config} {c : Char} {p q : List UInt8}
    (hc : c ∈ config.prohibitedChars)
    (htext : (decodeText? (p ++ q)).isSome = true → (decodeText? p).isSome = true) :
    strippedText? config (p ++ (String.utf8EncodeChar c ++ q)) = strippedText? config (p ++ q) := by
  by_cases hparts : ∃ t u, p = encodeText t ∧ q = encodeText u
  · obtain ⟨t, u, rfl, rfl⟩ := hparts
    rw [strippedText?, strippedText?, ← encodeText_cons, ← encodeText_append, ← encodeText_append,
      decodeText?_encodeText, decodeText?_encodeText, Option.map_some, Option.map_some,
      Config.strip_insert hc]
  · -- without the character the line is no text either, since its text would be cut in two
    have hnone : decodeText? (p ++ q) = none := by
      rw [← Option.not_isSome_iff_eq_none]
      intro hsome
      obtain ⟨t, rfl⟩ := decodeText?_isSome_iff.1 (htext hsome)
      obtain ⟨s, hs⟩ := decodeText?_isSome_iff.1 hsome
      obtain ⟨u, -, hu⟩ := exists_rest_of_encodeText hs
      exact hparts ⟨t, u, rfl, hu⟩
    have hnone' : decodeText? (p ++ (String.utf8EncodeChar c ++ q)) = none := by
      rw [← Option.not_isSome_iff_eq_none, decodeText?_insert_isSome_iff]
      exact hparts
    rw [strippedText?, strippedText?, hnone, hnone']

/-- Prohibited characters more in the lines of an input, one after another. -/
def ProhibitedInserted (config : Config) : List UInt8 → List UInt8 → Prop :=
  Relation.ReflTransGen fun input input' =>
    ∃ c ∈ config.prohibitedChars, c ≠ '\n' ∧ CharInserted c input input'

/-- Line by line nothing but prohibited characters has changed. -/
theorem ProhibitedInserted.strippedText?_eq {config : Config} {input input' : List UInt8}
    (h : ProhibitedInserted config input input') :
    (splitLines input').map (strippedText? config) =
      (splitLines input).map (strippedText? config) := by
  induction h with
  | refl => rfl
  | tail _ hstep ih =>
    obtain ⟨c, hc, hnewline, hinserted⟩ := hstep
    obtain ⟨hlines, hp, htext⟩ := hinserted
    rw [← ih, hlines, splitLines_insert hnewline hp hlines, List.map_append, List.map_append,
      List.map_cons, List.map_cons, strippedText?_insert hc htext]

end CommandConsole
