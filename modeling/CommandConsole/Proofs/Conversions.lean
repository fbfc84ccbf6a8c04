import CommandConsole.Parser.Builtin
import CommandConsole.Proofs.ParserTables
set_option autoImplicit false

/-!
Conversions by a table that parsers were offered to. Both conversions ask the first parser offered
for a type. Where the reader of a parser is made from its probe they agree on every token, and where
a parser has a reader of its own its errors are passed on, whatever they are.
-/

namespace CommandConsole

/-- The table after some parsers were offered to it in turn. -/
def ParserTable.registerAll (t : ParserTable) (ps : List ValueParser) : ParserTable :=
  ps.foldl (fun t p => (t.register p).1) t

/-- The first parser of a type. The console itself is read by none. -/
def firstFor? (type : ValueType) (ps : List ValueParser) : Option ValueParser :=
  if type = .context then none else ps.find? (·.type == type)

/-- No parser of the type was offered that a table takes. -/
def NoneFor (type : ValueType) (ps : List ValueParser) : Prop :=
  type = .context ∨ ∀ p ∈ ps, p.type ≠ type

/-- The reader is made from the probe, so that it fails where the probe does. -/
def ValueParser.ReadsByProbe (p : ValueParser) : Prop := p = .ofProbe p.type p.probe

/-- What both conversions to a type make of a token, in terms of one parser. -/
structure ParserTable.ConvertsBy (t : ParserTable) (p : ValueParser) (type : ValueType)
    (token : String) : Prop where
  probed : ∀ v, t.tryConvert type token = some v ↔ p.probe token = some v ∧ v.type = type
  read : ∀ v, t.convert type token = .ok v ↔ p.read token = .ok v ∧ v.type = type
  mistyped : ∀ v, p.read token = .ok v → v.type ≠ type →
    t.convert type token = .error (.unreadable type token)
  failed : ∀ e, p.read token = .error e → t.convert type token = .error e

/-- The conversion that tells an error succeeds with the value of the other one, and its only error
names the type and the token. -/
structure ParserTable.ConversionsAgree (t : ParserTable) (type : ValueType) (token : String) :
    Prop where
  values : ∀ v, t.convert type token = .ok v ↔ t.tryConvert type token = some v
  errors : t.tryConvert type token = none → t.convert type token = .error (.unreadable type token)

section registration

theorem firstFor?_eq_none_iff {type : ValueType} {ps : List ValueParser} :
    firstFor? type ps = none ↔ NoneFor type ps := by
  unfold firstFor? NoneFor
  by_cases h : type = .context
  · simp [h]
  · simp [h, List.find?_eq_none]

theorem type_of_firstFor? {type : ValueType} {ps : List ValueParser} {p : ValueParser}
    (h : firstFor? type ps = some p) : p.type = type := by
  unfold firstFor? at h
  split at h
  · cases h
  · exact beq_iff_eq.1 (List.find?_some (p := fun p : ValueParser => p.type == type) h)

namespace ParserTable

variable {t : ParserTable}

theorem find?_register (t : ParserTable) (p : ValueParser) (type : ValueType) :
    (t.register p).1.find? type =
      if p.type = type ∧ type ≠ .context ∧ t.find? type = none then some p else t.find? type := by
  simp only [find?_eq_head?, of_register, List.head?_eq_none_iff]
  split <;> rfl

theorem find?_registerAll (t : ParserTable) (ps : List ValueParser) (type : ValueType) :
    (t.registerAll ps).find? type = (t.find? type).or (firstFor? type ps) := by
  induction ps generalizing t with
  | nil => simp [registerAll, firstFor?]
  | cons p ps ih =>
    have hstep : t.registerAll (p :: ps) = (t.register p).1.registerAll ps := rfl
    rw [hstep, ih, find?_register]
    by_cases hcontext : type = .context
    · simp [firstFor?, hcontext]
    · by_cases hp : p.type = type
      · cases hfind : t.find? type <;> simp [firstFor?, hcontext, hp]
      · simp [firstFor?, hcontext, hp]

/-- A parser is taken if it is the first one for its type, and its type is not that of the
console. -/
theorem register_taken_iff (t : ParserTable) (p : ValueParser) :
    (t.register p).2 = true ↔ p.type ≠ .context ∧ t.find? p.type = none := by
  unfold register contains
  split
  · next h =>
    have hnot : ¬(p.type ≠ .context ∧ t.find? p.type = none) := by
      rintro ⟨hcontext, hnone⟩
      rcases h with h | h
      · exact hcontext h
      · rw [hnone] at h
        cases h
    simp only [Bool.false_eq_true, hnot]
  · next h =>
    rw [not_or, Bool.not_eq_true, Option.isSome_eq_false_iff, Option.isNone_iff_eq_none] at h
    simp only [true_iff]
    exact h

end ParserTable

/-- A table that begins without parsers or with the built-in ones. -/
def ParserTable.IsStart (t : ParserTable) : Prop := t = .empty ∨ t = .builtin

/-- What a table begins with counts as offered first. -/
theorem ParserTable.IsStart.find?_registerAll {t : ParserTable} (h : t.IsStart)
    (ps : List ValueParser) (type : ValueType) :
    (t.registerAll ps).find? type = firstFor? type (t.parsers ++ ps) := by
  have hcontext : t.find? .context = none := by rcases h with rfl | rfl <;> rfl
  rw [t.find?_registerAll]
  unfold firstFor?
  split
  · next hc => rw [hc, hcontext, Option.none_or]
  · rw [List.find?_append, find?]

end registration

section conversion

theorem checkType_eq_some_iff {type : ValueType} {v w : Value} :
    checkType type v = some w ↔ v = w ∧ w.type = type := by
  unfold checkType
  split
  · next h =>
    rw [Option.some.injEq]
    exact ⟨fun heq => ⟨heq, heq ▸ h⟩, fun heq => heq.1⟩
  · next h =>
    constructor
    · intro hnone
      cases hnone
    · rintro ⟨rfl, hw⟩
      exact absurd hw h

namespace ParserTable

variable {t : ParserTable} {type : ValueType} {p : ValueParser}

theorem tryConvert_of_none (h : t.find? type = none) (token : String) :
    t.tryConvert type token = none := by
  rw [tryConvert, h, Option.bind_none]

theorem convert_of_none (h : t.find? type = none) (token : String) :
    t.convert type token = .error (.unknownType type) := by
  rw [convert, h]

theorem convert_of_error (h : t.find? type = some p) {token : String} {e : ConsoleError}
    (he : p.read token = .error e) : t.convert type token = .error e := by
  simp only [convert, h, he]

theorem convert_of_mistyped (h : t.find? type = some p) {token : String} {v : Value}
    (hv : p.read token = .ok v) (htype : v.type ≠ type) :
    t.convert type token = .error (.unreadable type token) := by
  simp only [convert, h, hv, checkType, if_neg htype]

theorem convert_of_ok (h : t.find? type = some p) {token : String} {v : Value}
    (hv : p.read token = .ok v) (htype : v.type = type) : t.convert type token = .ok v := by
  simp only [convert, h, hv, checkType, if_pos htype]

theorem convertsBy (h : t.find? type = some p) (token : String) : t.ConvertsBy p type token where
  probed v := by
    rw [tryConvert, h, Option.bind_some, Option.bind_eq_some_iff]
    simp only [checkType_eq_some_iff]
    constructor
    · rintro ⟨w, hw, rfl, htype⟩
      exact ⟨hw, htype⟩
    · rintro ⟨hv, htype⟩
      exact ⟨v, hv, rfl, htype⟩
  read v := by
    constructor
    · intro hv
      cases hr : p.read token with
      | error e =>
        rw [convert_of_error h hr] at hv
        cases hv
      | ok w =>
        by_cases htype : w.type = type
        · rw [convert_of_ok h hr htype] at hv
          cases hv
          exact ⟨rfl, htype⟩
        · rw [convert_of_mistyped h hr htype] at hv
          cases hv
    · rintro ⟨hv, htype⟩
      exact convert_of_ok h hv htype
  mistyped v := convert_of_mistyped h
  failed e := convert_of_error h

end ParserTable

theorem ValueParser.ReadsByProbe.read_eq {p : ValueParser} (h : p.ReadsByProbe) (token : String) :
    p.read token = match p.probe token with
      | some v => .ok v
      | none => .error (.unreadable p.type token) := by
  rw [h]
  rfl

theorem ValueParser.ReadsByProbe.read_ne_unknownType {p : ValueParser} (h : p.ReadsByProbe)
    (type : ValueType) (token : String) : p.read token ≠ .error (.unknownType type) := by
  rw [h.read_eq]
  split <;> simp

theorem ParserTable.ConvertsBy.eq_unknownType_iff {t : ParserTable} {p : ValueParser}
    {type : ValueType} {token : String} (h : t.ConvertsBy p type token) :
    t.convert type token = .error (.unknownType type) ↔
      p.read token = .error (.unknownType type) := by
  refine ⟨fun herror => ?_, h.failed _⟩
  cases hread : p.read token with
  | error e => rw [← herror, h.failed e hread]
  | ok v =>
    by_cases htype : v.type = type
    · cases herror.symm.trans ((h.read v).2 ⟨hread, htype⟩)
    · cases herror.symm.trans (h.mistyped v hread htype)

theorem ParserTable.ConvertsBy.agree {t : ParserTable} {p : ValueParser} {token : String}
    (h : t.ConvertsBy p p.type token) (hp : p.ReadsByProbe) :
    t.ConversionsAgree p.type token := by
  have hread := hp.read_eq token
  cases hprobe : p.probe token with
  | none =>
    rw [hprobe] at hread
    constructor
    · intro v
      rw [h.probed, h.read, hread, hprobe]
      simp
    · exact fun _ => h.failed _ hread
  | some w =>
    rw [hprobe] at hread
    constructor
    · intro v
      rw [h.probed, h.read, hread, hprobe, Except.ok.injEq, Option.some.injEq]
    · intro hnone
      refine h.mistyped w hread fun htype => ?_
      rw [(h.probed w).2 ⟨hprobe, htype⟩] at hnone
      cases hnone

end conversion

/-- A parser is taken exactly if its type has none yet and is not that of the console. Of the
parsers for a type the first one decides both conversions, which agree where it has no reader of
its own. A type without a parser is unknown; it is also called so where the reader of its parser
does. -/
theorem first_parser_converts {start : ParserTable} (hstart : start.IsStart)
    (offered : List ValueParser) :
    let t := start.registerAll offered
    let all := start.parsers ++ offered
    (∀ p, (t.register p).2 = true ↔ p.type ≠ .context ∧ ∀ q ∈ all, q.type ≠ p.type) ∧
    (∀ type token, NoneFor type all →
      t.convert type token = .error (.unknownType type) ∧ t.tryConvert type token = none) ∧
    (∀ type token p, firstFor? type all = some p →
      t.ConvertsBy p type token ∧ (p.ReadsByProbe → t.ConversionsAgree type token)) ∧
    ∀ type token, t.convert type token = .error (.unknownType type) ↔
      NoneFor type all ∨ ∃ p, firstFor? type all = some p ∧ ¬p.ReadsByProbe ∧
        p.read token = .error (.unknownType type) := by
  intro t all
  have hfind : ∀ type, t.find? type = firstFor? type all := hstart.find?_registerAll offered
  have hnone : ∀ type token, NoneFor type all →
      t.convert type token = .error (.unknownType type) ∧ t.tryConvert type token = none := by
    intro type token h
    have hlacks : t.find? type = none := (hfind type).trans (firstFor?_eq_none_iff.2 h)
    exact ⟨ParserTable.convert_of_none hlacks token, ParserTable.tryConvert_of_none hlacks token⟩
  have hfirst : ∀ type token p, firstFor? type all = some p → t.ConvertsBy p type token :=
    fun type token p h => ParserTable.convertsBy ((hfind type).trans h) token
  have hagree : ∀ type token p, firstFor? type all = some p → p.ReadsByProbe →
      t.ConversionsAgree type token := by
    intro type token p h hp
    cases type_of_firstFor? h
    exact (hfirst p.type token p h).agree hp
  refine ⟨fun p => ?_, hnone, fun type token p h => ⟨hfirst type token p h, hagree type token p h⟩,
    fun type token => ?_⟩
  · rw [t.register_taken_iff, hfind, firstFor?_eq_none_iff]
    exact and_congr_right fun hcontext => or_iff_right hcontext
  · cases hp : firstFor? type all with
    | none =>
      have hlacks := firstFor?_eq_none_iff.1 hp
      exact iff_of_true (hnone type token hlacks).1 (.inl hlacks)
    | some p =>
      have hoffered : ¬NoneFor type all := by
        rw [← firstFor?_eq_none_iff, hp]
        exact Option.some_ne_none p
      have hconvert := hfirst type token p hp
      rw [or_iff_right hoffered, (hfirst type token p hp).eq_unknownType_iff]
      constructor
      · intro hread
        exact ⟨p, rfl, fun hderived => hderived.read_ne_unknownType type token hread, hread⟩
      · rintro ⟨q, hq, -, hread⟩
        cases hq
        exact hread

/-- A parser of colors that gives a flag for blue, a second one, and one more for integers: these
two are refused. -/
theorem first_parser_converts_color :
    let red : Value := .custom ⟨"color", .word 0xff0000, 0⟩
    let color : ValueParser := .ofProbe (.custom "color") fun token =>
      some (if token = "red" then red else .bool true)
    let offered : List ValueParser := [color, .ofProbe (.custom "color") fun _ => none]
    let t := ParserTable.builtin.registerAll offered
    ParserTable.builtin.IsStart ∧
      (t.register (.ofProbe .int fun _ => none)).2 = false ∧
      t.convert (.custom "color") "red" = .ok red ∧
      t.convert (.custom "color") "blue" = .error (.unreadable (.custom "color") "blue") ∧
      t.convert (.custom "size") "red" = .error (.unknownType (.custom "size")) := by
  intro red color offered t
  have hstart : ParserTable.builtin.IsStart := .inr rfl
  obtain ⟨htaken, hnone, hfirst, -⟩ := first_parser_converts hstart offered
  have hcolor := fun token => hfirst (.custom "color") token color rfl
  have hred : t.tryConvert (.custom "color") "red" = some red :=
    ((hcolor "red").1.probed red).2 ⟨rfl, rfl⟩
  refine ⟨hstart, ?_, (((hcolor "red").2 rfl).values red).2 hred,
    (hcolor "blue").1.mistyped (.bool true) rfl (by decide),
    (hnone (.custom "size") "red" (.inr (by decide))).1⟩
  rw [Bool.eq_false_iff, ne_eq, htaken]
  exact fun h => h.2 _ (List.mem_cons_of_mem _ List.mem_cons_self) rfl

/-- A reader of its own may call the type unknown that it was registered for. -/
theorem offered_type_called_unknown :
    let unsure : ValueParser :=
      ⟨.custom "color", fun _ => none, fun _ => .error (.unknownType (.custom "color"))⟩
    ¬((ParserTable.empty.registerAll [unsure]).convert (.custom "color") "red" =
      .error (.unknownType (.custom "color")) ↔ NoneFor (.custom "color") [unsure]) := by
  intro unsure h
  rcases h.1 rfl with hcontext | hnone
  · cases hcontext
  · exact hnone unsure List.mem_cons_self rfl

end CommandConsole
