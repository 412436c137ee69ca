/-!
# Doubles and their texts

A finite double is `± m · 2 ^ q` for whole numbers `m` and `q`.  Everything here is exact
arithmetic on those numbers; the runtime's floating point is not involved.

* `Fraction`: a non-negative fraction of whole numbers.
* `Binary64`: the bits of a double, with its sign, its mantissa `m` and its exponent `q`.
* `Binary64.nearest`: the double nearest to a fraction, a tie going to the even mantissa.
* `Binary64.times`, `Binary64.dividedBy`: product and quotient, rounded once.
* `Numeral`, `shortest`: a decimal, and the shortest one of the size of a double.
* `positional`, `scientific`: digits around the point, and digits with an exponent.
* `Binary64.compact`: positional for sizes from `10 ^ -5` up to `10 ^ 16`, scientific beyond.
* `Binary64.plain`: always positional.
-/

namespace ScopeCheck.Decimal

/-- A non-negative fraction; its denominator is meant to be positive. -/
structure Fraction where
  num : Nat
  den : Nat
  deriving DecidableEq, Repr

/-- A double, by its bits. -/
structure Binary64 where
  bits : UInt64
  deriving DecidableEq, Repr

namespace Binary64

/-- The sign bit. -/
def negative (x : Binary64) : Bool :=
  Nat.pow 2 63 ≤ x.bits.toNat

/-- The eleven exponent bits. -/
def biased (x : Binary64) : Nat :=
  x.bits.toNat / Nat.pow 2 52 % Nat.pow 2 11

/-- The fifty-two bits below the exponent. -/
def fraction (x : Binary64) : Nat :=
  x.bits.toNat % Nat.pow 2 52

/-- All exponent bits are set in infinities and in results that are no number. -/
def isFinite (x : Binary64) : Bool :=
  x.biased ≠ 2047

def isInfinite (x : Binary64) : Bool :=
  x.biased = 2047 && x.fraction = 0

def isZero (x : Binary64) : Bool :=
  x.biased = 0 && x.fraction = 0

/-- The whole number `m` of `± m · 2 ^ q`. -/
def mantissa (x : Binary64) : Nat :=
  if x.biased = 0 then x.fraction else Nat.pow 2 52 + x.fraction

/-- The exponent `q` of `± m · 2 ^ q`. -/
def exponent (x : Binary64) : Int :=
  if x.biased = 0 then -1074 else x.biased - 1075

/-- The size of a finite double. -/
def magnitude (x : Binary64) : Fraction :=
  ⟨x.mantissa * Nat.pow 2 x.exponent.toNat, Nat.pow 2 (-x.exponent).toNat⟩

/-- The double with the sign turned. -/
def negate (x : Binary64) : Binary64 :=
  ⟨x.bits ^^^ 0x8000000000000000⟩

def zero : Binary64 := ⟨0⟩

def infinity : Binary64 := ⟨0x7FF0000000000000⟩

def notANumber : Binary64 := ⟨0x7FF8000000000000⟩

/-- The whole number nearest to `num / den`, a tie going to the even one. -/
def roundEven (num den : Nat) : Nat :=
  let q := num / den
  let r := num % den
  if 2 * r < den then q
  else if den < 2 * r then q + 1
  else q + q % 2

/-- The whole part of `f / 2 ^ q`. -/
def wholeAt (f : Fraction) (q : Int) : Nat :=
  f.num * Nat.pow 2 (-q).toNat / (f.den * Nat.pow 2 q.toNat)

/-- The exponent that gives `f` a mantissa of 53 bits, or the least exponent there is. -/
def scaleOf (f : Fraction) : Int :=
  let guess : Int := (f.num.log2 : Int) - f.den.log2 - 52
  max (if wholeAt f guess < Nat.pow 2 52 then guess - 1 else guess) (-1074)

/-- The mantissa of `f` at the exponent `q`, rounded. -/
def mantissaAt (f : Fraction) (q : Int) : Nat :=
  roundEven (f.num * Nat.pow 2 (-q).toNat) (f.den * Nat.pow 2 q.toNat)

/-- The bits of `m · 2 ^ q`, for a mantissa of at most 53 bits. -/
def ofParts (m : Nat) (q : Int) : Binary64 :=
  if m < Nat.pow 2 52 then ⟨UInt64.ofNat m⟩
  else if q + 1075 ≥ 2047 then infinity
  else ⟨UInt64.ofNat ((q + 1075).toNat * Nat.pow 2 52 + (m - Nat.pow 2 52))⟩

/-- The double nearest to a fraction; an infinity when the fraction is too large. -/
def nearest (f : Fraction) : Binary64 :=
  if f.num = 0 then zero
  else
    let q := scaleOf f
    let m := mantissaAt f q
    if m = Nat.pow 2 53 then ofParts (Nat.pow 2 52) (q + 1) else ofParts m q

/-- The product of two sizes, rounded once. -/
def times (x y : Binary64) : Binary64 :=
  nearest ⟨x.magnitude.num * y.magnitude.num, x.magnitude.den * y.magnitude.den⟩

/-- The quotient of two sizes, rounded once. -/
def dividedBy (x y : Binary64) : Binary64 :=
  nearest ⟨x.magnitude.num * y.magnitude.den, x.magnitude.den * y.magnitude.num⟩

/-- The double nearest to a power of ten. -/
def powerOfTen (n : Nat) : Binary64 :=
  nearest ⟨Nat.pow 10 n, 1⟩

end Binary64

/-! ## The fewest digits that read back

The reals that round to a double form an interval around it.  Its shortest decimal is the one with
the fewest digits in that interval, and of those the nearest to the double. -/

/-- The decimal `digits · 10 ^ scale`. -/
structure Numeral where
  digits : Nat
  scale : Int
  deriving DecidableEq, Repr

/-- The decimal digits of the whole number of a numeral. -/
def Numeral.chars (n : Numeral) : List Char :=
  Nat.toDigits 10 n.digits

/-- The exponent of ten of the first digit. -/
def Numeral.leading (n : Numeral) : Int :=
  n.scale + n.chars.length - 1

/-- The reals that round to a double: `low / den` to `high / den` around `mid / den`.  The ends
belong to it when `closed`. -/
structure Interval where
  low : Nat
  mid : Nat
  high : Nat
  den : Nat
  closed : Bool

/-- The interval of a finite double that is not zero.  Below the least mantissa of a binade the
doubles lie twice as close. -/
def Binary64.interval (x : Binary64) : Interval :=
  let m := x.mantissa
  let below := if m = Nat.pow 2 52 && x.biased ≠ 1 then 1 else 2
  let up := Nat.pow 2 (x.exponent - 2).toNat
  ⟨(4 * m - below) * up, 4 * m * up, (4 * m + 2) * up, Nat.pow 2 (2 - x.exponent).toNat, m % 2 = 0⟩

/-- Whether `digits · 10 ^ scale` lies in the interval. -/
def Interval.holds (i : Interval) (n : Numeral) : Bool :=
  let value := n.digits * Nat.pow 10 n.scale.toNat * i.den
  let low := i.low * Nat.pow 10 (-n.scale).toNat
  let high := i.high * Nat.pow 10 (-n.scale).toNat
  if i.closed then low ≤ value && value ≤ high else low < value && value < high

/-- The neighbour of the middle on the grid of the multiples of `10 ^ scale` that lies in the
interval; of two, the nearer one, and of two as near the even one. -/
def Interval.onGrid? (i : Interval) (scale : Int) : Option Numeral :=
  let num := i.mid * Nat.pow 10 (-scale).toNat
  let den := i.den * Nat.pow 10 scale.toNat
  let down : Numeral := ⟨num / den, scale⟩
  let up : Numeral := ⟨num / den + 1, scale⟩
  match i.holds down, i.holds up with
  | false, false => none
  | true, false => some down
  | false, true => some up
  | true, true => some ⟨Binary64.roundEven num den, scale⟩

/-- The exponent of ten of the first digit of `num / den`, for a fraction that is not zero. -/
def firstDigit (num den : Nat) : Int :=
  if den ≤ num then (Nat.toDigits 10 (num / den)).length - 1
  else
    let guess := (Nat.toDigits 10 (den / num)).length
    if den ≤ num * Nat.pow 10 (guess - 1) then 1 - (guess : Int) else -(guess : Int)

/-- Drops the zeros at the end of the digits. -/
def Numeral.trim : Nat → Numeral → Numeral
  | 0, n => n
  | fuel + 1, n =>
    if n.digits ≠ 0 && n.digits % 10 = 0 then trim fuel ⟨n.digits / 10, n.scale + 1⟩ else n

/-- Seventeen digits always read back, so the search over the number of digits ends there. -/
def Interval.search (i : Interval) (first : Int) : Nat → Nat → Numeral
  | 0, _ => ⟨i.mid / i.den, 0⟩
  | fuel + 1, count =>
    match i.onGrid? (first + 1 - count) with
    | some n => n
    | none => search i first fuel (count + 1)

/-- The shortest decimal of the size of a finite double. -/
def shortest (x : Binary64) : Numeral :=
  if x.isZero then ⟨0, 0⟩
  else
    let i := x.interval
    (i.search (firstDigit i.mid i.den) 17 1).trim 20

/-! ## Texts -/

/-- Digits around the point; a whole number is followed by `.0`. -/
def positional (n : Numeral) : List Char :=
  let cs := n.chars
  if 0 ≤ n.scale then cs ++ List.replicate n.scale.toNat '0' ++ ['.', '0']
  else
    let places := (-n.scale).toNat
    if places < cs.length then cs.take (cs.length - places) ++ '.' :: cs.drop (cs.length - places)
    else ['0', '.'] ++ List.replicate (places - cs.length) '0' ++ cs

/-- One digit before the point, and an exponent with a sign. -/
def scientific (n : Numeral) : List Char :=
  let point := match n.chars with
    | [] => []
    | [d] => [d]
    | d :: ds => d :: '.' :: ds
  point ++ ['e', if n.leading < 0 then '-' else '+'] ++ Nat.toDigits 10 n.leading.natAbs

/-- The minus sign of a negative double. -/
def Binary64.sign (x : Binary64) : List Char :=
  if x.negative then ['-'] else []

/-- The text of a finite double in a data document. -/
def Binary64.compact (x : Binary64) : String :=
  let n := shortest x
  String.ofList (x.sign ++
    if x.isZero || (-5 ≤ n.leading && n.leading ≤ 15) then positional n else scientific n)

/-- The text of a double without an exponent. -/
def Binary64.plain (x : Binary64) : String :=
  if x.isFinite then String.ofList (x.sign ++ positional (shortest x))
  else if x.isInfinite then String.ofList (x.sign ++ ['i', 'n', 'f'])
  else "NaN"

end ScopeCheck.Decimal
