import PointRelaxation.Binary64

/-!
# Decimal text of exact quantities

Three things live here: a ratio written with a fixed number of places; the decimal significand and
exponent of a quantity, either rounded to a count of digits or the shortest that reads back; and the
layout that writes such a significand positionally or with a power of ten.
-/

namespace PointRelaxation.Text

/-- The decimal digits of a natural. -/
def digits (n : Nat) : List Char := Nat.toDigits 10 n

/-- The `k` low decimal digits of a natural, leading zeros kept. -/
def lowDigits : Nat → Nat → List Char
  | 0, _ => []
  | k + 1, n => lowDigits k (n / 10) ++ [Nat.digitChar (n % 10)]

/-- A list without the trailing occurrences of a character. -/
def dropTrailing (c : Char) (cs : List Char) : List Char :=
  (cs.reverse.dropWhile (· == c)).reverse

def minus (negative : Bool) : List Char := if negative then ['-'] else []

/-- `± num / den` to a fixed number of places, a half to the even neighbour. A quantity that rounds
to zero keeps its sign. -/
def fixed (places : Nat) (negative : Bool) (num den : Nat) : List Char :=
  let n := roundHalfEven (num * Nat.pow 10 places) den
  let fraction := if places = 0 then [] else '.' :: lowDigits places n
  minus negative ++ digits (n / Nat.pow 10 places) ++ fraction

/-! ## Significand and exponent -/

/-- The decimal quantity `d₀.d₁d₂… × 10 ^ exponent`, without trailing zeros. -/
structure Decimal where
  digits : List Char
  exponent : Int
deriving DecidableEq, Repr

namespace Decimal

/-- The quantity `n · 10 ^ scale`. -/
def ofNat (n : Nat) (scale : Int) : Decimal :=
  let ds := Text.digits n
  match dropTrailing '0' ds with
  | [] => ⟨['0'], 0⟩
  | kept => ⟨kept, scale + ds.length - 1⟩

/-- The exponent of the leading decimal digit of `num / den`, both positive. -/
def leadingExponent (num den : Nat) : Int :=
  let guess : Int := ((Text.digits num).length : Int) - (Text.digits den).length
  let reaches : Bool :=
    if 0 ≤ guess then den * Nat.pow 10 guess.toNat ≤ num
    else den ≤ num * Nat.pow 10 (-guess).toNat
  if reaches then guess else guess - 1

/-- `num / den` divided by `10 ^ scale`, as a ratio again. -/
def rescale (num den : Nat) (scale : Int) : Nat × Nat :=
  if 0 ≤ scale then (num, den * Nat.pow 10 scale.toNat)
  else (num * Nat.pow 10 (-scale).toNat, den)

/-- `num / den` rounded to `count` significant digits, a half to the even neighbour. -/
def rounded (count num den : Nat) : Decimal :=
  if num = 0 then ofNat 0 0
  else
    let scale := leadingExponent num den - count + 1
    let (p, q) := rescale num den scale
    ofNat (roundHalfEven p q) scale

/-- The decimal with `count` digits nearest to `mid / den` among those that lie between `low / den`
and `high / den`, the ends included if `closed`. -/
def within? (low mid high den : Nat) (closed : Bool) (count : Nat) : Option Decimal :=
  let scale := leadingExponent mid den - count + 1
  let (p, q) := rescale mid den scale
  let below := p / q
  let inside (n : Nat) : Bool :=
    let (l, d) := rescale low den scale
    let (h, _) := rescale high den scale
    if closed then l ≤ n * d && n * d ≤ h else l < n * d && n * d < h
  let low := inside below
  let high := inside (below + 1)
  if low && high then some (ofNat (roundHalfEven p q) scale)
  else if low then some (ofNat below scale)
  else if high then some (ofNat (below + 1) scale)
  else none

/-- The decimal of fewest digits that rounds to the number `significand · 2 ^ exponent` and to no
other, the nearest of those. Seventeen digits always suffice. -/
def shortest (significand : Nat) (exponent : Int) : Decimal :=
  -- A quarter of the unit in the last place: the interval that rounds to the number is two quarters
  -- wide on either side, or one below a power of two.
  let quarter := exponent - 2
  let (scale, den) :=
    if 0 ≤ quarter then (1 <<< quarter.toNat, 1) else (1, 1 <<< (-quarter).toNat)
  let gap := if significand = 1 <<< 52 && Binary64.leastExponent < exponent then 1 else 2
  let mid := 4 * significand
  let candidate (count : Nat) : Option Decimal :=
    within? ((mid - gap) * scale) (mid * scale) ((mid + 2) * scale) den (significand % 2 == 0) count
  ((List.range' 1 17).findSome? candidate).getD (rounded 17 (mid * scale) den)

/-- The shortest decimal of the number `significand · 2 ^ exponent`, which may be zero. -/
def ofBinary (significand : Nat) (exponent : Int) : Decimal :=
  if significand = 0 then ofNat 0 0 else shortest significand exponent

end Decimal

/-! ## Layout -/

/-- How a decimal is laid out: exponents from `least` up to but not including `limit` are written
positionally, where a whole number ends in `wholeMark`; the others with a power of ten. -/
structure Layout where
  least : Int
  limit : Int
  wholeMark : List Char

namespace Layout

/-- A power of ten has a sign and at least two digits. -/
def power (exponent : Int) : List Char :=
  let ds := digits exponent.natAbs
  let sign := if exponent < 0 then '-' else '+'
  'e' :: sign :: (if ds.length < 2 then '0' :: ds else ds)

/-- The point and what follows it. -/
def fraction (whole : List Char) (ds : List Char) : List Char :=
  if ds.isEmpty then whole else '.' :: ds

def positional (layout : Layout) (d : Decimal) : List Char :=
  if d.exponent < 0 then
    ['0', '.'] ++ List.replicate (-d.exponent - 1).toNat '0' ++ d.digits
  else
    let count := d.exponent.toNat + 1
    d.digits.take count ++ List.replicate (count - d.digits.length) '0' ++
      fraction layout.wholeMark (d.digits.drop count)

def scientific (d : Decimal) : List Char :=
  d.digits.take 1 ++ fraction [] (d.digits.drop 1) ++ power d.exponent

def write (layout : Layout) (negative : Bool) (d : Decimal) : List Char :=
  minus negative ++
    if layout.least ≤ d.exponent && d.exponent < layout.limit then layout.positional d
    else scientific d

end Layout
end PointRelaxation.Text
