import SafeAlter.Decimal.Binary64

/-! # The shortest decimal of a number

Among the decimals that round to a number, those with the fewest digits are wanted, and of these
the nearest. The search runs over grids of powers of ten from coarse to fine; on each it tries the
two neighbours of the number. Seventeen digits always suffice, so the grid of twenty is fine
enough.
-/
namespace SafeAlter.Decimal

/-- The value `digits · 10 ^ exponent`. -/
structure Scaled where
  digits : Nat
  exponent : Int
  deriving DecidableEq, Repr

/-- The number in units of `10 ^ grid`, as a fraction of its quarters: multiplied by the first
number and divided by the second. -/
def gridRatio (x : Binary) (grid : Int) : Nat × Nat :=
  let two := twoPower (x.exponent - 2)
  let ten := tenPower grid
  (two.1 * ten.2, two.2 * ten.1)

/-- Whether `n · 10 ^ grid` lies among the reals that round to the number. -/
def roundsBack (x : Binary) (grid : Int) (n : Nat) : Bool :=
  let (a, b) := gridRatio x grid
  (x.low * a < n * b && n * b < x.high * a) ||
    (x.closed && (n * b == x.low * a || n * b == x.high * a))

/-- The better of the two neighbours of a number on a grid, if one of them rounds to it. -/
def onGrid (tie : Tie) (x : Binary) (grid : Int) : Option Nat :=
  let (a, b) := gridRatio x grid
  let n := x.quarters * a / b
  match roundsBack x grid n, roundsBack x grid (n + 1) with
  | true, true => some (tie.choose n (compare (2 * (x.quarters * a)) ((2 * n + 1) * b)))
  | true, false => some n
  | false, true => some (n + 1)
  | false, false => none

/-- The least `k` for which the number is below `10 ^ k`, found from its binary logarithm. -/
def decimalSize (x : Binary) : Int :=
  let guess := ((x.mantissa.log2 : Int) + x.exponent) * 1233 / 4096
  let below (k : Int) : Bool :=
    let (a, b) := gridRatio x k
    x.quarters * a < b
  if below guess then guess else if below (guess + 1) then guess + 1 else guess + 2

def Scaled.strip : Scaled → Scaled
  | ⟨n, e⟩ => if h : n ≠ 0 ∧ n % 10 = 0 then Scaled.strip ⟨n / 10, e + 1⟩ else ⟨n, e⟩
  termination_by s => s.digits
  decreasing_by omega

/-- The shortest decimal that rounds to a number, and the nearest of those. -/
def shortest (tie : Tie) (x : Binary) : Scaled :=
  if x.mantissa = 0 then ⟨0, 0⟩
  else
    let size := decimalSize x
    let found := (List.range 20).findSome? fun (i : Nat) =>
      (onGrid tie x (size - 1 - i)).map fun n => Scaled.strip ⟨n, size - 1 - i⟩
    found.getD ⟨0, 0⟩

example : shortest .toEven (Binary.ofBits 0x3FB999999999999A) = ⟨1, -1⟩ := by decide +kernel
example : shortest .toEven (Binary.ofBits 1) = ⟨5, -324⟩ := by decide +kernel
example : shortest .toEven (Binary.ofBits 0x3E60000000000000) = ⟨29802322387695312, -24⟩ := by
  decide +kernel
example : shortest .up (Binary.ofBits 0x3E60000000000000) = ⟨29802322387695313, -24⟩ := by
  decide +kernel

end SafeAlter.Decimal
