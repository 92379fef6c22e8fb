import SafeAlter.Decimal.Layout

/-! # Values in JSON

A value is written over several lines, indented by two spaces a level. Only the characters that
must be escaped are, by their short escapes where they have one. A number that is not finite is
written as null.
-/
namespace SafeAlter.Text.Json
open SafeAlter.Decimal

/-- A value written at some level of indentation. -/
abbrev Written := Nat → String

def hexDigit (n : Nat) : Char := (Nat.toDigits 16 n).headD '0'

def escaped (c : Char) : List Char :=
  if c = '\x22' || c = '\\' then ['\\', c]
  else if c = '\x08' then ['\\', 'b']
  else if c = '\x0c' then ['\\', 'f']
  else if c = '\n' then ['\\', 'n']
  else if c = '\r' then ['\\', 'r']
  else if c = '\t' then ['\\', 't']
  else if c.toNat < 0x20 then
    ['\\', 'u', '0', '0', hexDigit (c.toNat / 16), hexDigit (c.toNat % 16)]
  else [c]

def quotedString (s : String) : String :=
  String.ofList ('\x22' :: s.toList.flatMap escaped ++ ['\x22'])

def string (s : String) : Written := fun _ => quotedString s

def bool (b : Bool) : Written := fun _ => if b then "true" else "false"

def natural (n : Nat) : Written := fun _ => toString n

/-- Numbers have a point or an exponent; the exponent is used below `1e-5` and from `1e16` on, and
always has a sign. -/
def numberLayout : Layout := ⟨-5, 16, true, true, .toEven⟩

def number (x : Float) : Written :=
  fun _ => if isFinite x then numberLayout.finite x else "null"

def newLine (level : Nat) : String :=
  "\n" ++ String.ofList (List.replicate (2 * level) ' ')

/-- Items between brackets, each on a line of its own. -/
def bracketed (first last : String) (items : List Written) : Written := fun level =>
  if items.isEmpty then first ++ last
  else
    first ++ ",".intercalate (items.map fun i => newLine (level + 1) ++ i (level + 1)) ++
      newLine level ++ last

def list (items : List Written) : Written := bracketed "[" "]" items

def object (fields : List (String × Written)) : Written :=
  bracketed "\x7b" "\x7d" (fields.map fun f => fun level => quotedString f.1 ++ ": " ++ f.2 level)

end SafeAlter.Text.Json
