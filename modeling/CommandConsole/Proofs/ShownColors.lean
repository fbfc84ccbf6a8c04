import CommandConsole.Proofs.ColorText
import CommandConsole.Proofs.Running
import CommandConsole.Proofs.SessionConsole
import CommandConsole.Proofs.ValueText
set_option autoImplicit false

/-!
Colours as they are shown and typed again. A colour is shown by its number in hexadecimal digits,
which are read as the same colour, so it is shown alike however it was typed.
-/

namespace CommandConsole

section written

/-- A number in lower-case hexadecimal digits, with no more zeros in front than make six digits. -/
structure IsPaddedHex (digits : List Char) (n : Nat) : Prop where
  lower : ∀ c ∈ digits, c ∈ hexDigits
  value : hexValue digits = n
  padded : 6 ≤ digits.length
  minimal : 6 < digits.length → digits.head? ≠ some '0'

theorem isHexDigit_of_mem {c : Char} (h : c ∈ hexDigits) : isHexDigit c = true := by
  have hall : hexDigits.all isHexDigit = true := by decide
  exact List.all_eq_true.1 hall c h

theorem IsPaddedHex.isWordText {digits : List Char} {rgb : UInt32}
    (h : IsPaddedHex digits rgb.toNat) : IsWordText digits rgb where
  ne_nil := by
    rintro rfl
    exact absurd h.padded (by decide)
  digits := List.all_eq_true.2 fun c hc => isHexDigit_of_mem (h.lower c hc)
  value := h.value

/-- By induction on the number without its last digit. -/
theorem mem_hexDigits_of_mem_writeNat {n : Nat} {c : Char} (h : c ∈ writeNat 16 n) :
    c ∈ hexDigits := by
  have hdigit : ∀ d, d < 16 → Nat.digitChar d ∈ hexDigits := by decide
  induction n using Nat.strongRecOn with
  | ind n ih =>
    rw [writeNat] at h
    by_cases hn : n < 16
    · rw [Nat.toDigits_of_lt_base hn, List.mem_singleton] at h
      rw [h]
      exact hdigit n hn
    · rw [Nat.toDigits_of_base_le (by decide) (by omega), List.mem_append,
        List.mem_singleton] at h
      rcases h with h | h
      · exact ih (n / 16) (by omega) h
      · rw [h]
        exact hdigit (n % 16) (by omega)

/-- A zero in front leaves room for one digit more than a number has. -/
theorem length_writeNat_le_of_head {t : List Char} {n : Nat} (hdigits : t.all isHexDigit = true)
    (hvalue : hexValue t = n) (hzero : t.head? = some '0') (hlength : 1 < t.length) :
    (writeNat 16 n).length + 1 ≤ t.length := by
  obtain ⟨r, rfl⟩ := List.head?_eq_some_iff.1 hzero
  have hrest : r.all isHexDigit = true := by simpa using (Bool.and_eq_true_iff.1 hdigits).2
  have hlt : n < 16 ^ r.length := by
    have hbound := hexValueFrom_lt hrest 0
    have hskip : hexValue ('0' :: r) = hexValueFrom 0 r := rfl
    rw [← hvalue, hskip]
    omega
  have hpos : 0 < r.length := by simpa using hlength
  exact Nat.succ_le_succ ((Nat.length_toDigits_le_iff (by decide) hpos).2 hlt)

theorem exists_writeColor_eq (rgb : UInt32) :
    ∃ digits, writeColor rgb = '#' :: digits ∧ IsPaddedHex digits rgb.toNat := by
  let zeros := List.replicate (6 - (writeNat 16 rgb.toNat).length) '0'
  obtain ⟨-, hdigits, hvalue⟩ := readNat?_hex_iff.1
    (readNat?_zeros_writeNat (by decide : 1 < 16) (by decide) zeros.length rgb.toNat)
  have hzeros : List.replicate zeros.length '0' = zeros := by simp [zeros]
  rw [hzeros] at hdigits hvalue
  have hlength : (zeros ++ writeNat 16 rgb.toNat).length =
      max 6 (writeNat 16 rgb.toNat).length := Nat.succ.inj (length_writeColor rgb)
  refine ⟨zeros ++ writeNat 16 rgb.toNat, rfl, ?_, hvalue, by omega, fun hmany hzero => ?_⟩
  · intro c hc
    rcases List.mem_append.1 hc with hc | hc
    · rw [List.eq_of_mem_replicate hc]
      decide
    · exact mem_hexDigits_of_mem_writeNat hc
  · have hshort := length_writeNat_le_of_head hdigits hvalue hzero (by omega)
    omega

/-- The text of a colour is read as the colour. -/
theorem readColor?_writeColor (rgb : UInt32) : readColor? (writeColor rgb) = some rgb := by
  obtain ⟨digits, hdigits, hhex⟩ := exists_writeColor_eq rgb
  exact readColor?_eq_some_iff.2 (.inr ⟨digits, .inl hdigits, hhex.isWordText⟩)

end written

section tokens

/-- Only letters have another case, and all of them are plain. -/
theorem isPlain_of_toLower {c : Char} (h : isPlain c.toLower = true) : isPlain c = true := by
  cases hupper : c.isUpper with
  | true =>
    have halpha : c.isAlpha = true := Bool.or_eq_true_iff.2 (.inl hupper)
    exact isPlain_of_isNumeral (by simp [isNumeral, Char.isAlphanum, halpha])
  | false => rwa [toLower_of_not_isUpper hupper] at h

/-- A text that is read as a colour needs no quotes. -/
theorem isPlain_of_readColor? {t : List Char} {rgb : UInt32} (h : readColor? t = some rgb)
    {c : Char} (hc : c ∈ t) : isPlain c = true := by
  rcases readColor?_eq_some_iff.1 h with hname | ⟨digits, hform, hword⟩
  · have hnames : (namedColors.all fun x => x.1.all isPlain) = true := by decide
    have hletters := List.all_eq_true.1 hnames _ hname
    exact isPlain_of_toLower (List.all_eq_true.1 hletters _ (List.mem_map_of_mem hc))
  · have hlower : hexDigits.all isPlain = true := by decide
    have hdigits : ∀ c ∈ digits, isPlain c = true := by
      intro c hc
      have hdigit := isHexDigit_iff.1 (List.all_eq_true.1 hword.digits c hc)
      exact isPlain_of_toLower (List.all_eq_true.1 hlower _ hdigit)
    have hmem : c = '#' ∨ c = '+' ∨ c ∈ digits := by
      rcases hform with rfl | rfl
      · exact (List.mem_cons.1 hc).imp_right .inr
      · simpa only [List.mem_cons] using hc
    rcases hmem with rfl | rfl | hc
    · decide
    · decide
    · exact hdigits c hc

variable {token : String} {rgb : UInt32}

theorem typedLine_tint (h : readColor? token.toList = some rgb) :
    typedLine "tint" [token] = "tint " ++ token := by
  have hne : token ≠ "" := by
    rintro rfl
    cases h
  have hline : typedLine "tint" [token] = "tint " ++ quoteToken token := rfl
  rw [hline, quoteToken_of_isPlain hne fun c hc => isPlain_of_readColor? h hc]

theorem probe_colorParser_iff :
    colorParser.probe token = some (colorValue rgb) ↔ readColor? token.toList = some rgb := by
  have hprobe : colorParser.probe token = (readColor? token.toList).map colorValue := rfl
  have hinjective : ∀ rgb', colorValue rgb' = colorValue rgb → rgb' = rgb := by
    intro rgb' heq
    simp only [colorValue, Value.custom.injEq, CustomValue.mk.injEq, Payload.word.injEq] at heq
    exact heq.2.1
  rw [hprobe, Option.map_eq_some_iff]
  constructor
  · rintro ⟨rgb', hread, heq⟩
    rw [hread, hinjective rgb' heq]
  · intro hread
    exact ⟨rgb, hread, rfl⟩

end tokens

section answers

variable {c : Console (Handler SessionState)} {token : String} {rgb : UInt32}

theorem bind_tint (hparser : c.registry.parsers.find? colorType = some colorParser)
    (h : readColor? token.toList = some rgb) :
    tintCommand.signature.bind c.registry.parsers [token] = some [colorValue rgb] := by
  have hbind : tintCommand.signature.bind c.registry.parsers [token] =
      (c.registry.parsers.tryConvert colorType token).bind fun v => some [v] := rfl
  rw [hbind, ParserTable.tryConvert, hparser, Option.bind_some, probe_colorParser_iff.2 h]
  rfl

theorem runHandler_tint (rgb : UInt32) (depth : Nat) (s : SessionState) :
    c.runHandler depth "tint" ⟨tintCommand, 0, [colorValue rgb]⟩ s =
      some ⟨.ok (), s, [.line .success ("tint set to " ++ String.ofList (writeColor rgb))]⟩ := rfl

/-- A colour that is read is shown by its own text, whatever text it was read from. -/
theorem answers_tint (hnamed : c.registry.named "tint" = [tintCommand])
    (hparser : c.registry.parsers.find? colorType = some colorParser)
    (h : readColor? token.toList = some rgb) :
    c.Answers ("tint " ++ token) (.ok (.invoked "tint" 0))
      [(.success, "tint set to " ++ String.ofList (writeColor rgb))] := by
  have hquote : '"' ∉ token.toList := by
    intro hmem
    exact absurd (isPlain_of_readColor? h hmem) (by decide)
  have hread : CommandLine.read? (typedLine "tint" [token]) = some ⟨"tint", [token]⟩ :=
    read?_typedLine (by decide) (by simp [isBlank]) (by simp [hquote])
  have hresolve : c.registry.resolve "tint" [token] = .ok ⟨tintCommand, 0, [colorValue rgb]⟩ :=
    Registry.resolve_single hnamed (bind_tint hparser h)
  rw [← typedLine_tint h]
  exact Console.answers_of_ok hread hresolve (runHandler_tint rgb)

end answers

variable (config : Config) {history : List (Registration (Handler SessionState))}

/-- A colour is shown by a number sign and its number in hexadecimal digits, at least six of them.
This text is read as the same colour, so that the answer to it is the answer to every text of the
colour. -/
theorem shown_colors_are_read (h : commandsNamed "tint" history = []) (rgb : UInt32) :
    let c := (sessionConsole config).enterAll history
    let shown := String.ofList (writeColor rgb)
    let lines := [(Severity.success, "tint set to " ++ shown)]
    (∃ digits, shown.toList = '#' :: digits ∧ IsPaddedHex digits rgb.toNat) ∧
    colorParser.probe shown = some (colorValue rgb) ∧
    (∀ token, colorParser.probe token = some (colorValue rgb) →
      c.Answers ("tint " ++ token) (.ok (.invoked "tint" 0)) lines) ∧
    c.Answers ("tint " ++ shown) (.ok (.invoked "tint" 0)) lines := by
  intro c shown lines
  have htext : shown.toList = writeColor rgb := String.toList_ofList
  have hread : colorParser.probe shown = some (colorValue rgb) := by
    rw [probe_colorParser_iff, htext, readColor?_writeColor]
  have hnamed : c.registry.named "tint" = [tintCommand] := by
    rw [named_session_enterAll config h]
    rfl
  have hanswers : ∀ token, colorParser.probe token = some (colorValue rgb) →
      c.Answers ("tint " ++ token) (.ok (.invoked "tint" 0)) lines :=
    fun token htoken => answers_tint hnamed (find?_color_session_enterAll config)
      (probe_colorParser_iff.1 htoken)
  refine ⟨?_, hread, hanswers, hanswers shown hread⟩
  rw [htext]
  exact exists_writeColor_eq rgb

theorem shown_colors_are_read_in_eight_digits :
    let history : List (Registration (Handler SessionState)) := [.command echoCommand]
    let c := (sessionConsole .default).enterAll history
    commandsNamed "tint" history = [] ∧
    colorParser.probe "BLUE" = some (colorValue 0xff) ∧
    c.Answers "tint BLUE" (.ok (.invoked "tint" 0)) [(.success, "tint set to #0000ff")] ∧
    c.Answers "tint #0000ff" (.ok (.invoked "tint" 0)) [(.success, "tint set to #0000ff")] ∧
    colorParser.probe "#+0F00d0000" = some (colorValue 0xf00d0000) ∧
    c.Answers "tint #+0F00d0000" (.ok (.invoked "tint" 0)) [(.success, "tint set to #f00d0000")] ∧
    c.Answers "tint #f00d0000" (.ok (.invoked "tint" 0)) [(.success, "tint set to #f00d0000")] := by
  intro history c
  have hunnamed : commandsNamed "tint" history = [] := rfl
  have hblue : colorParser.probe "BLUE" = some (colorValue 0xff) := by decide +kernel
  have hwide : colorParser.probe "#+0F00d0000" = some (colorValue 0xf00d0000) := by decide +kernel
  obtain ⟨-, -, hblues, hblue'⟩ := shown_colors_are_read .default hunnamed 0xff
  obtain ⟨-, -, hwides, hwide'⟩ := shown_colors_are_read .default hunnamed 0xf00d0000
  have htext : String.ofList (writeColor 0xff) = "#0000ff" := by decide +kernel
  have htext' : String.ofList (writeColor 0xf00d0000) = "#f00d0000" := by decide +kernel
  rw [htext] at hblues hblue'
  rw [htext'] at hwides hwide'
  exact ⟨hunnamed, hblue, hblues "BLUE" hblue, hblue', hwide, hwides "#+0F00d0000" hwide, hwide'⟩

end CommandConsole
