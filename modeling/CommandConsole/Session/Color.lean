import CommandConsole.Parser
set_option autoImplicit false

/-!
Colours: five names, or a number sign before hexadecimal digits, as one 32-bit word.
-/

namespace CommandConsole

def colorType : ValueType := .custom "color"

def namedColors : List (List Char × UInt32) :=
  [(['r', 'e', 'd'], 0xff0000), (['g', 'r', 'e', 'e', 'n'], 0x00ff00),
   (['b', 'l', 'u', 'e'], 0x0000ff), (['w', 'h', 'i', 't', 'e'], 0xffffff),
   (['b', 'l', 'a', 'c', 'k'], 0x000000)]

/-- A 32-bit word in hexadecimal digits, before which a plus sign may stand. -/
def readWord? (t : List Char) : Option UInt32 :=
  let digits := match t with
    | '+' :: r => r
    | t => t
  (readNat? 16 digits).bind fun n => if n < UInt32.size then some (UInt32.ofNat n) else none

/-- Letters count in either case. -/
def readColor? (t : List Char) : Option UInt32 :=
  let t := t.map Char.toLower
  match namedColors.lookup t with
  | some rgb => some rgb
  | none =>
    match t with
    | '#' :: r => readWord? r
    | _ => none

/-- A number sign and lower-case digits, at least six of them. -/
def writeColor (rgb : UInt32) : List Char :=
  let digits := writeNat 16 rgb.toNat
  '#' :: List.replicate (6 - digits.length) '0' ++ digits

def colorValue (rgb : UInt32) : Value := .custom ⟨"color", .word rgb, rgb.toNat⟩

def colorParser : ValueParser :=
  .ofProbe colorType fun token => (readColor? token.toList).map colorValue

example : readColor? "#00FF7f".toList = some 0x00ff7f := by decide +kernel
example : writeColor 0xff = "#0000ff".toList := by decide +kernel

end CommandConsole
