import SafeAlter.Text.PrintableCharacter

/-! # Texts in quotes

A text is shown in double quotes, so that it can be told from the words around it. The quote, the
backslash and the characters that do not show by themselves are written as escapes.
-/
namespace SafeAlter.Text

def hexDigits (n : Nat) : List Char :=
  Nat.toDigits 16 n

def escaped (c : Char) : List Char :=
  if c = '\x00' then ['\\', '0']
  else if c = '\t' then ['\\', 't']
  else if c = '\n' then ['\\', 'n']
  else if c = '\r' then ['\\', 'r']
  else if c = '\x22' || c = '\\' then ['\\', c]
  else if isPrintable c then [c]
  else ['\\', 'u', '\x7b'] ++ hexDigits c.toNat ++ ['\x7d']

def quoted (s : String) : String :=
  String.ofList ('\x22' :: s.toList.flatMap escaped ++ ['\x22'])

example : quoted "a\"\t\u0301" = "\"a\\\"\\t\\u\x7b301\x7d\"" := by decide +kernel

end SafeAlter.Text
