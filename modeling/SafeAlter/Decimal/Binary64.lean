/-! # Binary floating point numbers as exact fractions

A finite number is `m · 2 ^ q` for naturals `m` and an integer `q`. The reals that round to it
form an interval around it, which is named here in quarters of its last place, so that both ends
are whole. In the other direction a fraction is rounded to the nearest number, a half going to the
even neighbour.
-/
namespace SafeAlter.Decimal

/-- The leading bit of a mantissa, which all but the smallest numbers leave unwritten. -/
def leadingBit : Nat := Nat.pow 2 52

/-- The magnitude of a finite number. -/
structure Binary where
  mantissa : Nat
  exponent : Int
  /-- Just above a power of two the number below is half as far away as the number above. -/
  narrowBelow : Bool
  deriving DecidableEq, Repr

namespace Binary

def ofBits (bits : UInt64) : Binary :=
  let field := ((bits >>> 52) &&& 0x7FF).toNat
  let fraction := (bits &&& 0xFFFFFFFFFFFFF).toNat
  if field = 0 then ⟨fraction, -1074, false⟩
  else ⟨leadingBit + fraction, (field : Int) - 1075, fraction = 0 && 1 < field⟩

def ofFloat (x : Float) : Binary := ofBits x.toBits

/-- The value in quarters of the last place. -/
def quarters (x : Binary) : Nat := 4 * x.mantissa

/-- The ends of the interval of reals that round to the value, in quarters of the last place. -/
def low (x : Binary) : Nat := x.quarters - (if x.narrowBelow then 1 else 2)

def high (x : Binary) : Nat := x.quarters + 2

/-- Whether the ends of the interval round to the value themselves. -/
def closed (x : Binary) : Bool := x.mantissa % 2 == 0

end Binary

def twoPower (i : Int) : Nat × Nat := (Nat.pow 2 i.toNat, Nat.pow 2 (-i).toNat)

def tenPower (i : Int) : Nat × Nat := (Nat.pow 10 i.toNat, Nat.pow 10 (-i).toNat)

/-- Where a number goes that lies halfway between two candidates. -/
inductive Tie where
  | toEven
  | up
  deriving DecidableEq, Repr

/-- Chooses between a number and its successor, given how what is to be rounded compares with the
middle between them. -/
def Tie.choose (tie : Tie) (n : Nat) : Ordering → Nat
  | .lt => n
  | .gt => n + 1
  | .eq =>
    match tie with
    | .toEven => if n % 2 = 0 then n else n + 1
    | .up => n + 1

def roundDiv (tie : Tie) (num den : Nat) : Nat :=
  tie.choose (num / den) (compare (2 * (num % den)) den)

/-- The bits of the number nearest to a fraction; beyond the greatest number they are those of
infinity. -/
def nearestBits (num den : Nat) : UInt64 :=
  if num = 0 then 0
  else
    let top : Int := (num.log2 : Int) - den.log2 - 53
    let fit (e : Int) : Nat × Nat := (num * (twoPower (-e)).1, den * (twoPower e).1)
    let exact := if 2 * leadingBit ≤ (fit top).1 / (fit top).2 then top + 1 else top
    let e := max exact (-1074)
    let bits := (e + 1074).toNat * leadingBit + roundDiv .toEven (fit e).1 (fit e).2
    UInt64.ofNat (min bits (0x7FF * leadingBit))

/-- The number nearest to `digits · 10 ^ exponent`. -/
def nearest (negative : Bool) (digits : Nat) (exponent : Int) : Float :=
  let size : Int := (toString digits).length + exponent
  let bits : UInt64 :=
    if digits = 0 || size < -400 then 0
    else if 400 < size then 0x7FF0000000000000
    else nearestBits (digits * (tenPower exponent).1) (tenPower exponent).2
  Float.ofBits (if negative then bits ||| 0x8000000000000000 else bits)

example : (nearest false 1 (-1)).toBits = 0x3FB999999999999A := by decide +kernel
example : (nearest true 5 (-324)).toBits = 0x8000000000000001 := by decide +kernel
example : (nearest false 17976931348623157 292).toBits = 0x7FEFFFFFFFFFFFFF := by decide +kernel
example : (nearest false 18 307).toBits = 0x7FF0000000000000 := by decide +kernel

end SafeAlter.Decimal
