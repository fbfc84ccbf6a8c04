import CommandConsole.Session
set_option autoImplicit false

/-!
Text as bytes. No encoding of a character is the beginning of another one or begins inside another
one, so encoded characters can be told apart wherever they stand among other bytes.
-/

namespace CommandConsole

/-- The bytes of a text in UTF-8. -/
def encodeText (t : List Char) : List UInt8 := t.flatMap String.utf8EncodeChar

theorem encodeText_append (t u : List Char) :
    encodeText (t ++ u) = encodeText t ++ encodeText u :=
  List.flatMap_append

theorem encodeText_cons (c : Char) (t : List Char) :
    encodeText (c :: t) = String.utf8EncodeChar c ++ encodeText t :=
  List.flatMap_cons

theorem utf8Encode_eq (t : List Char) : t.utf8Encode = (encodeText t).toByteArray := rfl

theorem decodeText?_eq_some_iff {bytes : List UInt8} {s : String} :
    decodeText? bytes = some s ↔ bytes = encodeText s.toList := by
  have hbytes : bytes = encodeText s.toList ↔ bytes.toByteArray = s.toByteArray := by
    rw [← String.utf8Encode_toList, utf8Encode_eq, List.toByteArray_inj]
  rw [hbytes, decodeText?, String.fromUTF8?]
  split
  · rw [Option.some.injEq, ← String.toByteArray_inj]
    rfl
  · next hinvalid =>
    refine iff_of_false (by simp) fun h => hinvalid ?_
    rw [h]
    exact s.isValidUTF8

theorem decodeText?_isSome_iff {bytes : List UInt8} :
    (decodeText? bytes).isSome = true ↔ ∃ t, bytes = encodeText t := by
  rw [Option.isSome_iff_exists]
  constructor
  · intro h
    obtain ⟨s, hs⟩ := h
    exact ⟨s.toList, decodeText?_eq_some_iff.1 hs⟩
  · intro h
    obtain ⟨t, ht⟩ := h
    exact ⟨String.ofList t, decodeText?_eq_some_iff.2 (by rw [ht, String.toList_ofList])⟩

theorem decodeText?_encodeText (t : List Char) :
    decodeText? (encodeText t) = some (String.ofList t) :=
  decodeText?_eq_some_iff.2 (by rw [String.toList_ofList])

/-- Bytes behind a text that are text together with it are text. -/
theorem exists_rest_of_encodeText {t u : List Char} {q : List UInt8}
    (h : encodeText t ++ q = encodeText u) : ∃ v, u = t ++ v ∧ q = encodeText v := by
  have hencoded : t.utf8Encode ++ q.toByteArray = u.utf8Encode := by
    rw [utf8Encode_eq, utf8Encode_eq, ← List.toByteArray_append, h]
  obtain ⟨v, rfl⟩ := List.isPrefix_of_utf8Encode_append_eq_utf8Encode _ hencoded
  rw [encodeText_append] at h
  exact ⟨v, rfl, List.append_cancel_left h⟩

theorem exists_firstByte (c : Char) :
    ∃ b r, String.utf8EncodeChar c = b :: r ∧ b.IsUTF8FirstByte := by
  obtain ⟨b, r, hbytes⟩ := List.exists_cons_of_ne_nil (String.utf8EncodeChar_ne_nil (c := c))
  refine ⟨b, r, hbytes, ?_⟩
  have hfirst := UInt8.isUTF8FirstByte_getElem_zero_utf8EncodeChar (c := c)
  simpa only [hbytes, List.getElem_cons_zero] using hfirst

/-- Only the first byte of a character can be the first byte of one. -/
theorem not_firstByte_inside {c : Char} {p r : List UInt8} {b : UInt8}
    (h : String.utf8EncodeChar c = p ++ b :: r) (hp : p ≠ []) : ¬ b.IsUTF8FirstByte := by
  intro hfirst
  have hlength : p.length < (String.utf8EncodeChar c).length := by simp [h]
  have hplace : (String.utf8EncodeChar c)[p.length].IsUTF8FirstByte := by
    simpa [h, List.getElem_append_right] using hfirst
  rw [UInt8.isUTF8FirstByte_getElem_utf8EncodeChar] at hplace
  exact hp (List.length_eq_zero_iff.1 hplace)

/-- Where an encoded character stands among bytes that are text, the bytes before it are text. -/
theorem exists_start_of_encodeText {c : Char} {p q : List UInt8} {t : List Char}
    (h : p ++ (String.utf8EncodeChar c ++ q) = encodeText t) : ∃ u, p = encodeText u := by
  -- the bytes of `p` are used up character by character, and `c` begins inside none of these
  obtain ⟨b, r, hbytes, hfirst⟩ := exists_firstByte c
  induction t generalizing p with
  | nil => exact ⟨[], (List.append_eq_nil_iff.1 h).1⟩
  | cons d t ih =>
    rw [encodeText_cons, List.append_eq_append_iff] at h
    rcases h with ⟨inside, hd, hrest⟩ | ⟨p', rfl, hrest⟩
    · cases inside with
      | nil => exact ⟨[d], by rw [encodeText_cons, hd, List.append_nil]; simp [encodeText]⟩
      | cons b' r' =>
        rw [hbytes, List.cons_append, List.cons_append, List.cons.injEq] at hrest
        by_cases hp : p = []
        · exact ⟨[], hp⟩
        · exact absurd (hrest.1 ▸ hfirst) (not_firstByte_inside hd hp)
    · obtain ⟨u, rfl⟩ := ih hrest.symm
      exact ⟨d :: u, by rw [encodeText_cons]⟩

end CommandConsole
