import SafeAlter.Decimal.Shortest

/-! # Numbers as text

A number is written either with its shortest digits, laid out as a record of decisions says, or
with a fixed count of places, rounded from its exact value.
-/
namespace SafeAlter.Decimal

/-- How the shortest digits of a number are laid out. -/
structure Layout where
  /-- The powers of ten of the leading digit that are written without an exponent: from the first,
  and below the second. -/
  plainFrom : Int
  plainBelow : Int
  /-- Whether a whole number ends in a point and a zero. -/
  pointZero : Bool
  /-- Whether an exponent that is not negative has a sign. -/
  exponentPlus : Bool
  tie : Tie

def isNegative (x : Float) : Bool := x.toBits >>> 63 == 1

def isFinite (x : Float) : Bool := (x.toBits >>> 52) &&& 0x7FF != 0x7FF

def signed (x : Float) (magnitude : String) : String :=
  if isNegative x then "-" ++ magnitude else magnitude

def zeros (n : Nat) : String := String.ofList (List.replicate n '0')

/-- Digits with a point in front of the last `places` of them. -/
def withPoint (digits : String) (places : Nat) : String :=
  let padded := zeros (places + 1 - digits.length) ++ digits
  let whole := padded.length - places
  String.ofList (padded.toList.take whole) ++ "." ++ String.ofList (padded.toList.drop whole)

def Layout.decimal (l : Layout) (d : Scaled) : String :=
  let digits := toString d.digits
  let lead : Int := d.exponent + digits.length - 1
  if l.plainFrom ≤ lead && lead < l.plainBelow then
    if 0 ≤ d.exponent then
      digits ++ zeros d.exponent.toNat ++ (if l.pointZero then ".0" else "")
    else withPoint digits (-d.exponent).toNat
  else
    let mantissa := if digits.length = 1 then digits else withPoint digits (digits.length - 1)
    mantissa ++ "e" ++ (if l.exponentPlus && 0 ≤ lead then "+" else "") ++ toString lead

def Layout.finite (l : Layout) (x : Float) : String :=
  let b := Binary.ofFloat x
  signed x (l.decimal (shortest l.tie b))

def nonFinite (x : Float) : String :=
  if x.isNaN then "NaN" else signed x "inf"

def Layout.render (l : Layout) (x : Float) : String :=
  if isFinite x then l.finite x else nonFinite x

/-- A number with a set count of places, rounded from its exact value, a half going to even. -/
def fixed (places : Nat) (x : Float) : String :=
  if isFinite x then
    let b := Binary.ofFloat x
    let two := twoPower b.exponent
    let n := roundDiv .toEven (b.mantissa * two.1 * Nat.pow 10 places) two.2
    signed x (withPoint (toString n) places)
  else nonFinite x

/-- Numbers in a message: without an exponent, whatever their size. -/
def plain : Layout := ⟨-1000, 1000, false, false, .up⟩

example : fixed 2 0.125 = "0.12" := by decide +kernel
example : fixed 1 (-0.0) = "-0.0" := by decide +kernel
example : plain.render (-1e-7) = "-0.0000001" := by decide +kernel

end SafeAlter.Decimal
