import CommandConsole.Text.Printable
set_option autoImplicit false

/-!
Escaped text: a string in double quotes in which every character that cannot be shown as it is
stands as an escape, so that a diagnostic names exactly the text it is about.
-/

namespace CommandConsole

/-- A backslash escape where one exists, the character itself where it is printable, and its code
point in hexadecimal otherwise. -/
def escapeChar (c : Char) : List Char :=
  if c = '\x00' then ['\\', '0']
  else if c = '\t' then ['\\', 't']
  else if c = '\n' then ['\\', 'n']
  else if c = '\r' then ['\\', 'r']
  else if c = '\\' then ['\\', '\\']
  else if c = '"' then ['\\', '"']
  else if isPrintable c then [c]
  else ['\\', 'u', '\x7b'] ++ Nat.toDigits 16 c.toNat ++ ['\x7d']

def escaped (s : String) : String :=
  String.ofList (['"'] ++ s.toList.flatMap escapeChar ++ ['"'])

example : escaped "a\tb \\ \"q\" é" = "\"a\\tb \\\\ \\\"q\\\" é\"" := by decide +kernel
example : escaped "e\u0301\u3000" = "\"e\\u\x7b301\x7d\\u\x7b3000\x7d\"" := by decide +kernel

end CommandConsole
