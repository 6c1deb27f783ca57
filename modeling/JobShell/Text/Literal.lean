/-!
# Quoted literals

How a text is shown in diagnostics of the program's own values: between double quotes, with the
characters that would disturb the display escaped.

* `literal` shows a text; `escape` is the form of one character.

The rule for characters outside ASCII (which of them count as printable) is NOT here: only ASCII
texts are ever shown this way.
-/

namespace JobShell.Text

/-- The digits of a code point in lower-case hexadecimal. -/
def hexDigits (n : Nat) : List Char := Nat.toDigits 16 n

/-- One character inside a literal: the quote and the backslash are escaped, line feed, carriage
return, tab and NUL have short names, every other control character is written by its code point,
and a single quote stands as it is. -/
def escape (c : Char) : List Char :=
  if c = '"' then ['\\', '"']
  else if c = '\\' then ['\\', '\\']
  else if c = '\n' then ['\\', 'n']
  else if c = '\r' then ['\\', 'r']
  else if c = '\t' then ['\\', 't']
  else if c.toNat = 0 then ['\\', '0']
  else if c.toNat < 0x20 ∨ c.toNat = 0x7F then
    ['\\', 'u', '\x7b'] ++ hexDigits c.toNat ++ ['\x7d']
  else [c]

/-- A text between double quotes. -/
def literal (s : String) : String :=
  String.ofList (['"'] ++ s.toList.flatMap escape ++ ['"'])

example : literal "a\"b\x7f" = "\"a\\\"b\\u\x7b7f\x7d\"" := by decide

end JobShell.Text
