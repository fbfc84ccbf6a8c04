import CommandConsole.Proofs.SessionConsole
import CommandConsole.Proofs.ValueText
set_option autoImplicit false

/-!
The sum of two integers as it is asked for and shown. Integers may be written with a sign and with
zeros in front; the sum is exact, and where an operand or the sum does not fit into 64 bits the call
fails.
-/

namespace CommandConsole

/-- What may stand in front of the digits. -/
inductive WrittenSign where
  | absent | plus | minus
  deriving DecidableEq, Repr

def WrittenSign.text : WrittenSign → List Char
  | .absent => []
  | .plus => ['+']
  | .minus => ['-']

/-- An integer as it is written: a sign or none, zeros that add nothing, and a magnitude. -/
structure WrittenInteger where
  sign : WrittenSign
  zeros : Nat
  magnitude : Nat
  deriving DecidableEq, Repr

def WrittenInteger.value (x : WrittenInteger) : Int :=
  if x.sign = .minus then -x.magnitude else x.magnitude

def WrittenInteger.digits (x : WrittenInteger) : List Char :=
  List.replicate x.zeros '0' ++ Nat.toDigits 10 x.magnitude

def WrittenInteger.text (x : WrittenInteger) : String := String.ofList (x.sign.text ++ x.digits)

theorem WrittenInteger.toList_text (x : WrittenInteger) :
    x.text.toList = x.sign.text ++ x.digits := String.toList_ofList

/-- The integers of 64 bits. -/
def FitsInt64 (i : Int) : Prop := Int64.minValue.toInt ≤ i ∧ i ≤ Int64.maxValue.toInt

instance : DecidablePred FitsInt64 := fun i =>
  inferInstanceAs (Decidable (Int64.minValue.toInt ≤ i ∧ i ≤ Int64.maxValue.toInt))

/-- How the addition of two integers should end, and what it should show. -/
def additionAnswer (a b : Int) : Except ConsoleError Submission × List (Severity × String) :=
  if FitsInt64 a ∧ FitsInt64 b then
    if FitsInt64 (a + b) then (.ok (.invoked "add" 0), [(.success, toString (a + b))])
    else (.error (.handler "add" (.command "integer overflow")),
      [(.error, "command 'add' failed: integer overflow")])
  else (.error (.noMatchingOverload "add"),
    [(.error, "No overload for command 'add' matches given parameters.")])

section integers

theorem int64?_of_fits {i : Int} (h : FitsInt64 i) : ∃ v, int64? i = some v ∧ v.toInt = i := by
  have hrange : -9223372036854775808 ≤ i ∧ i ≤ 9223372036854775807 := h
  have hread : int64? i = some (Int64.ofInt i) := if_pos hrange
  exact ⟨_, hread, toInt_of_int64? hread⟩

theorem int64?_of_not_fits {i : Int} (h : ¬FitsInt64 i) : int64? i = none := if_neg h

theorem ofList_writeInt (i : Int) : String.ofList (writeInt i) = toString i := by
  cases i with
  | ofNat n => rfl
  | negSucc n =>
    have hwritten : writeInt (Int.negSucc n) = '-' :: Nat.toDigits 10 (n + 1) :=
      if_pos (Int.negSucc_lt_zero n)
    have hshown : toString (Int.negSucc n) = "-" ++ String.ofList (Nat.toDigits 10 (n + 1)) := rfl
    rw [hwritten, hshown, ← String.toList_inj]
    simp

theorem readNat?_digits (x : WrittenInteger) : readNat? 10 x.digits = some x.magnitude :=
  readNat?_zeros_writeNat (by decide) (by decide) x.zeros x.magnitude

theorem isDigit_of_mem_digits {x : WrittenInteger} {c : Char} (h : c ∈ x.digits) :
    c.isDigit = true := by
  rcases List.mem_append.1 h with h | h
  · rw [List.eq_of_mem_replicate h]
    decide
  · exact isDigit_of_mem_writeNat h

theorem readInt?_written (x : WrittenInteger) :
    readInt? (x.sign.text ++ x.digits) = some x.value := by
  have hdigits := readNat?_digits x
  cases hsign : x.sign with
  | absent =>
    simp [WrittenSign.text, readInt?_of_digits fun c hc => isDigit_of_mem_digits hc, hdigits,
      WrittenInteger.value, hsign]
  | plus => simp [WrittenSign.text, readInt?, hdigits, WrittenInteger.value, hsign]
  | minus => simp [WrittenSign.text, readInt?, hdigits, WrittenInteger.value, hsign]

/-- The text of an integer needs no quotes. -/
theorem isPlain_of_mem_written {x : WrittenInteger} {c : Char} (h : c ∈ x.text.toList) :
    isPlain c = true := by
  rw [x.toList_text, List.mem_append] at h
  rcases h with h | h
  · cases hsign : x.sign <;> simp [hsign, WrittenSign.text] at h <;> subst h <;> decide
  · exact isPlain_of_isNumeral (isNumeral_of_isDigit (isDigit_of_mem_digits h))

theorem quoteToken_written (x : WrittenInteger) : quoteToken x.text = x.text := by
  have hne : x.text ≠ "" := by
    simp [WrittenInteger.text, WrittenInteger.digits, Nat.toDigits_ne_nil]
  exact quoteToken_of_isPlain hne fun c hc => isPlain_of_mem_written hc

theorem quote_not_mem_written (x : WrittenInteger) : '"' ∉ x.text.toList := by
  intro h
  exact absurd (isPlain_of_mem_written h) (by decide)

end integers

section calls

variable {parsers : ParserTable}

theorem tryConvert_written (h : parsers.HasBuiltins) (x : WrittenInteger) :
    parsers.tryConvert .int x.text = (int64? x.value).map .int := by
  have htrim : trim x.text.toList = x.text.toList :=
    trim_of_not_blank fun c hc => isBlank_of_isPlain (isPlain_of_mem_written hc)
  rw [h.tryConvert_int, readInt64?, htrim, x.toList_text, readInt?_written, Option.bind_some]

/-- Both operands are read, or there is no call. -/
def operands (a b : Int) : Option (List Value) :=
  (int64? a).bind fun v => (int64? b).map fun w => [.int v, .int w]

theorem operands_of_not_fits {a b : Int} (h : ¬(FitsInt64 a ∧ FitsInt64 b)) :
    operands a b = none := by
  rcases not_and_or.1 h with ha | hb
  · rw [operands, int64?_of_not_fits ha]
    rfl
  · rw [operands, int64?_of_not_fits hb]
    cases int64? a <;> rfl

theorem bind_add (h : parsers.HasBuiltins) (x y : WrittenInteger) :
    addCommand.signature.bind parsers [x.text, y.text] = operands x.value y.value := by
  have hbind : addCommand.signature.bind parsers [x.text, y.text] =
      (parsers.tryConvert .int x.text).bind fun v =>
        ((parsers.tryConvert .int y.text).bind fun w => some [w]).map (v :: ·) := rfl
  rw [hbind, tryConvert_written h, tryConvert_written h, operands]
  cases int64? x.value <;> cases int64? y.value <;> rfl

theorem bind_add_default (h : parsers.HasBuiltins) (x : WrittenInteger) :
    addCommand.signature.bind parsers [x.text] = operands x.value 0 := by
  have hbind : addCommand.signature.bind parsers [x.text] =
      (parsers.tryConvert .int x.text).bind fun v => some [v, .int 0] := rfl
  rw [hbind, tryConvert_written h, operands]
  cases int64? x.value <;> rfl

end calls

section answers

variable {c : Console (Handler SessionState)} {a b : Int}

theorem runHandler_add_of_some {v w sum : Int64} (h : addInt64? v w = some sum) (depth : Nat)
    (s : SessionState) :
    c.runHandler depth "add" ⟨addCommand, 0, [.int v, .int w]⟩ s =
      some ⟨.ok (), s, [.line .success (String.ofList (writeInt64 sum))]⟩ := by
  simp [Console.runHandler, addCommand, Invocation.int, Invocation.value, Except.bind,
    Script.ofExcept, bind, Script.bind, h, Script.say, Script.run, Outcome.after]

theorem runHandler_add_of_none {v w : Int64} (h : addInt64? v w = none) (depth : Nat)
    (s : SessionState) :
    c.runHandler depth "add" ⟨addCommand, 0, [.int v, .int w]⟩ s =
      some ⟨.error (.command "integer overflow"), s, []⟩ := by
  simp [Console.runHandler, addCommand, Invocation.int, Invocation.value, Except.bind,
    Script.ofExcept, bind, Script.bind, h, Script.run]

/-- A call whose tokens are bound to two integers. -/
theorem answers_add (hnamed : c.registry.named "add" = [addCommand]) (xs : List WrittenInteger)
    (hbind : addCommand.signature.bind c.registry.parsers (xs.map WrittenInteger.text) =
      operands a b) :
    c.Answers (typedLine "add" (xs.map WrittenInteger.text)) (additionAnswer a b).1
      (additionAnswer a b).2 := by
  have hread : CommandLine.read? (typedLine "add" (xs.map WrittenInteger.text)) =
      some ⟨"add", xs.map WrittenInteger.text⟩ :=
    read?_typedLine (by decide) (by simp [isBlank]) (by simp [quote_not_mem_written])
  rw [additionAnswer]
  by_cases hfits : FitsInt64 a ∧ FitsInt64 b
  · rw [if_pos hfits]
    obtain ⟨v, hv, rfl⟩ := int64?_of_fits hfits.1
    obtain ⟨w, hw, rfl⟩ := int64?_of_fits hfits.2
    rw [operands, hv, hw] at hbind
    have hresolve : c.registry.resolve "add" (xs.map WrittenInteger.text) =
        .ok ⟨addCommand, 0, [.int v, .int w]⟩ := Registry.resolve_single hnamed hbind
    by_cases hsum : FitsInt64 (v.toInt + w.toInt)
    · obtain ⟨sum, hadd, heq⟩ := int64?_of_fits hsum
      have hanswers := Console.answers_of_ok hread hresolve (runHandler_add_of_some hadd)
      rw [writeInt64, heq, ofList_writeInt] at hanswers
      rwa [if_pos hsum]
    · have hadd : addInt64? v w = none := int64?_of_not_fits hsum
      rw [if_neg hsum]
      exact Console.answers_of_fail hread hresolve (runHandler_add_of_none hadd)
  · rw [if_neg hfits]
    rw [operands_of_not_fits hfits] at hbind
    exact Console.answers_of_error hread (Registry.resolve_single_of_none hnamed hbind)

end answers

theorem typedLine_add (x : WrittenInteger) : typedLine "add" [x.text] = "add " ++ x.text := by
  have hline : typedLine "add" [x.text] = "add " ++ quoteToken x.text := rfl
  rw [hline, quoteToken_written]

theorem typedLine_add_pair (x y : WrittenInteger) :
    typedLine "add" [x.text, y.text] = "add " ++ x.text ++ " " ++ y.text := by
  have hline : typedLine "add" [x.text, y.text] =
      typedLine "add" [x.text] ++ " " ++ quoteToken y.text := rfl
  rw [hline, typedLine_add, quoteToken_written]

section session

variable (config : Config) {history : List (Registration (Handler SessionState))}

/-- The addition of a session stays the only command of its name until another one is registered. -/
theorem named_add_enterAll (h : commandsNamed "add" history = []) :
    ((sessionConsole config).enterAll history).registry.named "add" = [addCommand] := by
  rw [named_session_enterAll config h]
  rfl

/-- Adding two integers shows their exact sum and nothing else, or fails. It fails with an overflow
where only the sum does not fit into 64 bits, and matches no overload where an operand does not. A
missing second operand is zero. -/
theorem addition_is_exact (h : commandsNamed "add" history = []) :
    let c := (sessionConsole config).enterAll history
    (∀ x y : WrittenInteger,
      c.Answers ("add " ++ x.text ++ " " ++ y.text)
        (additionAnswer x.value y.value).1 (additionAnswer x.value y.value).2) ∧
    ∀ x : WrittenInteger,
      c.Answers ("add " ++ x.text) (additionAnswer x.value 0).1 (additionAnswer x.value 0).2 ∧
      c.Answers ("add " ++ x.text ++ " 0") (additionAnswer x.value 0).1
        (additionAnswer x.value 0).2 := by
  intro c
  have hnamed := named_add_enterAll config h
  have hparsers : c.registry.parsers.HasBuiltins := hasBuiltins_session_enterAll config
  have hpair : ∀ x y : WrittenInteger, c.Answers ("add " ++ x.text ++ " " ++ y.text)
      (additionAnswer x.value y.value).1 (additionAnswer x.value y.value).2 := by
    intro x y
    rw [← typedLine_add_pair]
    exact answers_add hnamed [x, y] (bind_add hparsers x y)
  refine ⟨hpair, fun x => ⟨?_, ?_⟩⟩
  · rw [← typedLine_add]
    exact answers_add hnamed [x] (bind_add_default hparsers x)
  · have hzero : " 0" = " " ++ (⟨.absent, 0, 0⟩ : WrittenInteger).text := by decide
    rw [hzero, ← String.append_assoc]
    exact hpair x ⟨.absent, 0, 0⟩

theorem addition_is_exact_at_limits :
    let history : List (Registration (Handler SessionState)) := [.command echoCommand]
    let c := (sessionConsole .default).enterAll history
    commandsNamed "add" history = [] ∧
    c.Answers "add +009223372036854775807 -0" (.ok (.invoked "add" 0))
      [(.success, "9223372036854775807")] ∧
    c.Answers "add -9223372036854775808 -1" (.error (.handler "add" (.command "integer overflow")))
      [(.error, "command 'add' failed: integer overflow")] ∧
    c.Answers "add 9223372036854775808" (.error (.noMatchingOverload "add"))
      [(.error, "No overload for command 'add' matches given parameters.")] := by
  intro history c
  have hunnamed : commandsNamed "add" history = [] := rfl
  have hexact := addition_is_exact .default hunnamed
  refine ⟨hunnamed, ?_, ?_, ?_⟩
  · exact hexact.1 ⟨.plus, 2, 9223372036854775807⟩ ⟨.minus, 0, 0⟩
  · exact hexact.1 ⟨.minus, 0, 9223372036854775808⟩ ⟨.minus, 0, 1⟩
  · exact (hexact.2 ⟨.absent, 0, 9223372036854775808⟩).1

end session

end CommandConsole
