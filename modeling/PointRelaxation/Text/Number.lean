import PointRelaxation.Text.Decimal

/-!
# The written forms of a binary floating point number

The shortest that reads back, a fixed number of places, and a count of significant digits.
-/

namespace PointRelaxation.Text

/-- `significand · 2 ^ exponent` as a ratio. -/
def binaryRatio (significand : Nat) (exponent : Int) : Nat × Nat :=
  if 0 ≤ exponent then (significand <<< exponent.toNat, 1)
  else (significand, 1 <<< (-exponent).toNat)

/-- Every written form shares the words for what is not a finite number. -/
def writeFloat (finite : Bool → Nat → Int → List Char) (x : Float) : String :=
  match Binary64.ofFloat x with
  | .undefined => "nan"
  | .infinite negative => if negative then "-inf" else "inf"
  | .finite negative significand exponent => String.ofList (finite negative significand exponent)

/-- Numbers written in full are positional from four zeros behind the point up to sixteen digits
before it, and always show that they are not whole. -/
def fullLayout : Layout := ⟨-4, 16, ['.', '0']⟩

/-- The shortest text that reads back as the number. -/
def full (x : Float) : String :=
  writeFloat (fun negative significand exponent =>
    fullLayout.write negative (Decimal.ofBinary significand exponent)) x

/-- A number with a fixed number of places. -/
def places (count : Nat) (x : Float) : String :=
  writeFloat (fun negative significand exponent =>
    let (num, den) := binaryRatio significand exponent
    fixed count negative num den) x

/-- A number with a count of significant digits, trailing zeros dropped. It is positional as long
as its digits reach the point. -/
def significant (count : Nat) (x : Float) : String :=
  writeFloat (fun negative significand exponent =>
    let (num, den) := binaryRatio significand exponent
    Layout.write ⟨-4, count, []⟩ negative (Decimal.rounded count num den)) x

/-- A text behind as many blanks as fill a width. -/
def padLeft (width : Nat) (s : String) : String :=
  String.ofList (List.replicate (width - s.length) ' ') ++ s

end PointRelaxation.Text
