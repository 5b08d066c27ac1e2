import PointRelaxation.Scalar

/-!
# Binary floating point numbers as exact quantities

Three things live here: reading a number into its sign, significand and exponent; rounding an exact
ratio to the nearest number; and the scalar arithmetic on these numbers.
-/

namespace PointRelaxation

/-- A quotient of naturals rounded to the nearest natural, a half to the even one. -/
def roundHalfEven (num den : Nat) : Nat :=
  let q := num / den
  let r := 2 * (num % den)
  if r < den then q else if den < r then q + 1 else q + q % 2

/-- What a binary floating point number stands for. -/
inductive Binary64 where
  | undefined
  | infinite (negative : Bool)
  /-- The number `± significand · 2 ^ exponent`. -/
  | finite (negative : Bool) (significand : Nat) (exponent : Int)
deriving DecidableEq, Repr

namespace Binary64

/-- The least exponent of a significand. -/
def leastExponent : Int := -1074

def ofFloat (x : Float) : Binary64 :=
  let bits := x.toBits.toNat
  let negative := bits >>> 63 == 1
  let field : Nat := (bits >>> 52) % 2048
  let fraction := bits % (1 <<< 52)
  if field = 2047 then if fraction = 0 then infinite negative else undefined
  else if field = 0 then finite negative fraction leastExponent
  else finite negative (fraction + (1 <<< 52)) ((field : Int) - 1075)

/-- The exponent of the unit in the last place of `num / den`, both positive: the quotient by that
unit lies in `[2 ^ 52, 2 ^ 53)`, or the unit is the least there is. -/
def unitExponent (num den : Nat) : Int :=
  let guess : Int := (num.log2 : Int) - den.log2 - 52
  let reaches : Bool :=
    if 0 ≤ guess then den <<< (guess.toNat + 52) ≤ num
    else den <<< 52 ≤ num <<< (-guess).toNat
  max (if reaches then guess else guess - 1) leastExponent

/-- The number nearest to `± num / den`, for a positive `den`; none when that exceeds every finite
number. -/
def nearest? (negative : Bool) (num den : Nat) : Option Float :=
  let sign : Nat := if negative then 1 <<< 63 else 0
  if num = 0 then some (Float.ofBits (UInt64.ofNat sign))
  else
    let e := unitExponent num den
    let significand :=
      if 0 ≤ e then roundHalfEven num (den <<< e.toNat)
      else roundHalfEven (num <<< (-e).toNat) den
    -- The leading bit of the significand carries into the exponent field.
    let magnitude := ((e - leastExponent).toNat <<< 52) + significand
    if magnitude < 2047 <<< 52 then some (Float.ofBits (UInt64.ofNat (sign + magnitude)))
    else none

/-- The infinite number of a sign. -/
def infinity (negative : Bool) : Float :=
  Float.ofBits (UInt64.ofNat ((if negative then 1 <<< 63 else 0) + (2047 <<< 52)))

/-- The whole number just below a number. -/
def floor (x : Float) : Floor :=
  match ofFloat x with
  | undefined => .undefined
  | infinite _ => .infinite
  | finite negative significand exponent =>
    let n : Int := if negative then -significand else significand
    .whole (if 0 ≤ exponent then n * (1 <<< exponent.toNat : Nat) else n >>> (-exponent).toNat)

end Binary64

instance : Scalar Float where
  decLt := fun a b => Float.decLt a b
  decLe := fun a b => Float.decLe a b
  abs := Float.abs
  sqrt := Float.sqrt
  sin := Float.sin
  cos := Float.cos
  atan2 := Float.atan2
  pi := 3.141592653589793
  lowest := Binary64.infinity true
  ofInt? n := Binary64.nearest? (n < 0) n.natAbs 1
  ratio? n d := Binary64.nearest? (n < 0) n.natAbs d
  floor := Binary64.floor

end PointRelaxation
