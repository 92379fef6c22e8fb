import SafeAlter.Decimal.Binary64
import SafeAlter.Sql.Lexeme

/-! # Scalars of TOML

The scalars that are written without quotes: booleans, integers in four bases, decimal numbers, and
dates and times. Underscores may stand between two digits. An integer keeps its value whatever its
size; a decimal number must not be too large for binary floating point.
-/
namespace SafeAlter.Toml
open SafeAlter.Decimal

inductive Scalar where
  | string (s : String)
  | integer (n : Int)
  | float (x : Float)
  | boolean (b : Bool)
  /-- A date, a time or both; only that it is one is kept. -/
  | moment

/-- The digits of a text without the underscores between them; there is at least one. -/
def digitsOf (isDigit : Char → Bool) : List Char → Option (List Char)
  | [] => none
  | [c] => if isDigit c then some [c] else none
  | c :: '_' :: s => if isDigit c then (digitsOf isDigit s).map (c :: ·) else none
  | c :: s => if isDigit c then (digitsOf isDigit s).map (c :: ·) else none

def digitValue (c : Char) : Nat :=
  if c.isDigit then c.toNat - '0'.toNat else c.toLower.toNat - 'a'.toNat + 10

def ofDigits (base : Nat) (digits : List Char) : Nat :=
  digits.foldl (fun n c => base * n + digitValue c) 0

def isOctalDigit (c : Char) : Bool := '0' ≤ c && c ≤ '7'

def isBinaryDigit (c : Char) : Bool := c == '0' || c == '1'

/-- A sign at the front of a text, and the rest: whether the sign is a minus. -/
def splitSign : List Char → Bool × List Char
  | '-' :: s => (true, s)
  | '+' :: s => (false, s)
  | s => (false, s)

/-- Decimal digits without a zero in front of others. -/
def wholeDigits (s : List Char) : Option (List Char) :=
  match digitsOf Char.isDigit s with
  | some ('0' :: _ :: _) => none
  | found => found

def integer? (s : List Char) : Option Int :=
  let inBase (base : Nat) (isDigit : Char → Bool) (t : List Char) : Option Int :=
    (digitsOf isDigit t).map fun d => (ofDigits base d : Int)
  match s with
  | '0' :: 'x' :: t => inBase 16 Sql.isHexDigit t
  | '0' :: 'o' :: t => inBase 8 isOctalDigit t
  | '0' :: 'b' :: t => inBase 2 isBinaryDigit t
  | s =>
    let (negative, t) := splitSign s
    (wholeDigits t).map fun d =>
      let n : Int := ofDigits 10 d
      if negative then -n else n

def fitsSigned (bits : Nat) (n : Int) : Bool :=
  let half := Int.ofNat (Nat.pow 2 (bits - 1))
  n < half && -half ≤ n

def fitsUnsigned (bits : Nat) (n : Int) : Bool :=
  0 ≤ n && n < Int.ofNat (Nat.pow 2 bits)

/-- The integers that fit the widest words, signed or not. -/
def isSound (n : Int) : Bool := fitsSigned 128 n || fitsUnsigned 128 n

def exponent? : List Char → Option Int
  | [] => none
  | c :: s =>
    if c = 'e' || c = 'E' then
      let (negative, t) := splitSign s
      (digitsOf Char.isDigit t).map fun d =>
        let n : Int := ofDigits 10 d
        if negative then -n else n
    else none

/-- A number with a fraction, an exponent or both. -/
def decimal? (s : List Char) : Option Float :=
  let (negative, t) := splitSign s
  let isMark (c : Char) : Bool := c == 'e' || c == 'E'
  let body := t.takeWhile (!isMark ·)
  let tail := t.dropWhile (!isMark ·)
  let whole := body.takeWhile (· ≠ '.')
  let fraction := body.dropWhile (· ≠ '.')
  if fraction.isEmpty && tail.isEmpty then none
  else do
    let w ← wholeDigits whole
    let f ← match fraction with
      | [] => some []
      | _ :: digits => digitsOf Char.isDigit digits
    let e ← if tail.isEmpty then some 0 else exponent? tail
    let x := nearest negative (ofDigits 10 (w ++ f)) (e - f.length)
    if x.isInf then none else some x

def named? (s : List Char) : Option Float :=
  let (negative, t) := splitSign s
  if t = "inf".toList then some (Float.ofBits (if negative then 0xFFF0000000000000
    else 0x7FF0000000000000))
  else if t = "nan".toList then some (Float.ofBits 0x7FF8000000000000)
  else none

/-- A number written with exactly so many digits, up to a greatest value. -/
def field? (count least greatest : Nat) (s : List Char) : Option (List Char) :=
  let digits := s.take count
  if digits.length = count && digits.all Char.isDigit &&
      least ≤ ofDigits 10 digits && ofDigits 10 digits ≤ greatest then
    some (s.drop count)
  else none

def afterMark? (mark : Char) : List Char → Option (List Char)
  | [] => none
  | c :: s => if c = mark then some s else none

def daysOf (year month : Nat) : Nat :=
  if month = 2 then
    if year % 4 = 0 && (year % 100 ≠ 0 || year % 400 = 0) then 29 else 28
  else if [4, 6, 9, 11].contains month then 30
  else 31

def afterDate? (s : List Char) : Option (List Char) := do
  let t ← afterMark? '-' (← field? 4 0 9999 s)
  let u ← afterMark? '-' (← field? 2 1 12 t)
  field? 2 1 (daysOf (ofDigits 10 (s.take 4)) (ofDigits 10 (t.take 2))) u

/-- What follows a time, whose seconds may be left out. -/
def afterTime? (s : List Char) : Option (List Char) := do
  let t ← field? 2 0 59 (← afterMark? ':' (← field? 2 0 23 s))
  match t with
  | ':' :: t =>
    let u ← field? 2 0 60 t
    match u with
    | '.' :: v =>
      let rest := v.dropWhile Char.isDigit
      if rest.length < v.length then some rest else none
    | u => some u
  | t => some t

/-- Whether a text is an offset from universal time, or nothing. -/
def isOffset : List Char → Bool
  | [] => true
  | [c] => c == 'Z' || c == 'z'
  | c :: s =>
    (c == '+' || c == '-') &&
      ((field? 2 0 23 s).bind fun t => (afterMark? ':' t).bind (field? 2 0 59)) == some []

def isMoment (s : List Char) : Bool :=
  match afterDate? s with
  | some [] => true
  | some (c :: t) =>
    (c == 'T' || c == 't' || c == ' ') && (afterTime? t).any isOffset
  | none => afterTime? s == some []

def scalar? (s : List Char) : Option Scalar :=
  if s = "true".toList then some (.boolean true)
  else if s = "false".toList then some (.boolean false)
  else if isMoment s then some .moment
  else match integer? s with
    | some n => if isSound n then some (.integer n) else none
    | none => ((named? s).or (decimal? s)).map .float

end SafeAlter.Toml
