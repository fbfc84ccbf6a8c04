import CommandConsole.Parser.Builtin
import CommandConsole.Proofs.RegistrationOrder
set_option autoImplicit false

/-!
Tables that know the built-in parsers. No registration replaces one of them, so whatever they read
stays read, and as the same value.
-/

namespace CommandConsole

theorem Registry.find?_enterAll {α : Type} {r : Registry α} {type : ValueType} {p : ValueParser}
    (h : r.parsers.find? type = some p) (history : List (Registration α)) :
    (r.enterAll history).parsers.find? type = some p := by
  rw [ParserTable.find?_eq_head?] at h
  have hne : r.parsers.of type ≠ [] := by
    intro hnil
    rw [hnil] at h
    cases h
  rw [ParserTable.find?_eq_head?, of_enterAll, if_neg fun hnew => hne hnew.2, h]

/-- The built-in parsers are the ones that answer for their types. -/
def ParserTable.HasBuiltins (t : ParserTable) : Prop :=
  ∀ p ∈ builtinParsers, t.find? p.type = some p

theorem ParserTable.hasBuiltins_builtin : ParserTable.builtin.HasBuiltins := by
  intro p hp
  simp only [builtinParsers, List.mem_cons, List.not_mem_nil, or_false] at hp
  rcases hp with rfl | rfl | rfl | rfl | rfl | rfl <;> rfl

/-- A registry that starts with the built-in parsers keeps them through every registration. -/
theorem Registry.hasBuiltins_enterAll {α : Type} (history : List (Registration α)) :
    ((Registry.empty .builtin).enterAll history).parsers.HasBuiltins :=
  fun p hp => find?_enterAll (ParserTable.hasBuiltins_builtin p hp) history

/-- A table with the built-in parsers reads what one of them reads, by either conversion. -/
theorem ParserTable.HasBuiltins.converts {t : ParserTable} (h : t.HasBuiltins) (type : ValueType)
    (probe : String → Option Value) (hp : .ofProbe type probe ∈ builtinParsers) {token : String}
    {v : Value} (hv : probe token = some v) (htype : v.type = type) :
    t.tryConvert type token = some v ∧ t.convert type token = .ok v := by
  have hfind : t.find? type = some (.ofProbe type probe) := h _ hp
  have hcheck : checkType type v = some v := by rw [checkType, if_pos htype]
  have hread : (ValueParser.ofProbe type probe).read token = .ok v := by
    rw [ValueParser.ofProbe]
    dsimp only
    rw [hv]
  constructor
  · rw [tryConvert, hfind, Option.bind_some]
    exact Option.bind_eq_some_iff.2 ⟨v, hv, hcheck⟩
  · rw [convert, hfind]
    dsimp only
    rw [hread]
    dsimp only
    rw [hcheck]

/-- The probe of a built-in parser is the conversion to its type. -/
theorem ParserTable.HasBuiltins.tryConvert_eq {t : ParserTable} (h : t.HasBuiltins)
    (type : ValueType) (probe : String → Option Value) (hp : .ofProbe type probe ∈ builtinParsers)
    {token : String} (htype : ∀ v, probe token = some v → v.type = type) :
    t.tryConvert type token = probe token := by
  cases hprobe : probe token with
  | some v => exact (h.converts type probe hp hprobe (htype v hprobe)).1
  | none =>
    have hfind : t.find? type = some (.ofProbe type probe) := h _ hp
    rw [tryConvert, hfind, Option.bind_some]
    exact Option.bind_eq_none_iff.2 fun v hv => by cases hprobe.symm.trans hv

/-- A built-in parser that reads the characters of a token gives what it reads. -/
theorem ParserTable.HasBuiltins.tryConvert_map {t : ParserTable} (h : t.HasBuiltins) {β : Type}
    {type : ValueType} (read : List Char → Option β) (value : β → Value)
    (hp : .ofProbe type (fun s => (read s.toList).map value) ∈ builtinParsers)
    (htype : ∀ x, (value x).type = type) (token : String) :
    t.tryConvert type token = (read token.toList).map value := by
  refine h.tryConvert_eq type (fun s => (read s.toList).map value) hp fun v hv => ?_
  obtain ⟨x, -, rfl⟩ := Option.map_eq_some_iff.1 hv
  exact htype x

theorem ParserTable.HasBuiltins.tryConvert_bool {t : ParserTable} (h : t.HasBuiltins)
    (token : String) :
    t.tryConvert .bool token = (readBool? token.toList).map .bool :=
  h.tryConvert_map readBool? .bool (by simp [builtinParsers]) (fun _ => rfl) token

theorem ParserTable.HasBuiltins.tryConvert_int {t : ParserTable} (h : t.HasBuiltins)
    (token : String) :
    t.tryConvert .int token = (readInt64? token.toList).map .int :=
  h.tryConvert_map readInt64? .int (by simp [builtinParsers]) (fun _ => rfl) token

theorem ParserTable.HasBuiltins.tryConvert_float {t : ParserTable} (h : t.HasBuiltins)
    (token : String) :
    t.tryConvert .float token = (readFloat? token.toList).map .float :=
  h.tryConvert_map readFloat? .float (by simp [builtinParsers]) (fun _ => rfl) token

/-- Every token is a text. -/
theorem ParserTable.HasBuiltins.converts_string {t : ParserTable} (h : t.HasBuiltins)
    (token : String) :
    t.tryConvert .string token = some (.string token) ∧
      t.convert .string token = .ok (.string token) :=
  h.converts .string (fun s => some (.string s)) (by simp [builtinParsers]) rfl rfl

end CommandConsole
