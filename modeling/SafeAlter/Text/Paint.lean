import SafeAlter.Text.Search

/-! # Painted text

On a terminal a text can be painted: codes in front of it switch a style on and one behind it
switches all styles off. A switch-off within the text is followed by the codes once more, so that
the whole text shows in one style. Unpainted text is left as it is.
-/
namespace SafeAlter.Text

/-- A style, as the numbers of its codes. -/
inductive Ink where
  | boldWhite
  | boldCyan
  | boldYellow
  | boldRed
  | boldGreen
  | green
  | red
  | cyan
  | yellow
  deriving DecidableEq, Repr

namespace Ink

def codes : Ink → String
  | .boldWhite => "1;37"
  | .boldCyan => "1;36"
  | .boldYellow => "1;33"
  | .boldRed => "1;31"
  | .boldGreen => "1;32"
  | .green => "32"
  | .red => "31"
  | .cyan => "36"
  | .yellow => "33"

def on (i : Ink) : String := "\x1b[" ++ i.codes ++ "m"

def off : String := "\x1b[0m"

def paint (i : Ink) (painted : Bool) (s : String) : String :=
  if painted then
    i.on ++ String.ofList (replaceAll off.toList (off ++ i.on).toList s.toList) ++ off
  else s

end Ink

end SafeAlter.Text
