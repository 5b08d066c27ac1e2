import PointRelaxation.Text.Number

/-!
# Numbers in a column

Numbers that are shown together are written alike: all of them positionally or all with a power of
ten, at most eight digits behind the point, and with blanks around them so that each takes the same
width and has its point in the same place.
-/

namespace PointRelaxation.Text

/-- The most digits behind the point. -/
def columnPlaces : Nat := 8

/-- Numbers without a power of ten keep their point when nothing is behind it. -/
def columnLayout : Layout := ⟨-4, 8, ['.']⟩

/-- A number on both sides of its point, and its power of ten if one is written. -/
structure Split where
  whole : List Char
  fraction : List Char
  power : Int
deriving DecidableEq, Repr

namespace Split

/-- A written number split at its point. -/
def ofText (cs : List Char) : Split :=
  ⟨cs.takeWhile (· != '.'), (cs.dropWhile (· != '.')).drop 1, 0⟩

/-- How many digits of a decimal stand behind the point if it is written positionally. -/
def placesOf (d : Decimal) : Nat := (d.digits.length - 1 - d.exponent : Int).toNat

/-- A number without a power of ten: its shortest digits, or those that its places leave. -/
def positional (negative : Bool) (significand : Nat) (exponent : Int) : Split :=
  let d := Decimal.ofBinary significand exponent
  if placesOf d ≤ columnPlaces then
    ofText (minus negative ++ columnLayout.positional d)
  else
    let (num, den) := binaryRatio significand exponent
    ofText (dropTrailing '0' (fixed columnPlaces negative num den))

/-- A number with a power of ten: its shortest digits, or those that its places leave. -/
def scientific (negative : Bool) (significand : Nat) (exponent : Int) : Split :=
  let d := Decimal.ofBinary significand exponent
  let d :=
    if d.digits.length ≤ columnPlaces + 1 then d
    else
      let (num, den) := binaryRatio significand exponent
      Decimal.rounded (columnPlaces + 1) num den
  ⟨minus negative ++ d.digits.take 1, d.digits.drop 1, d.exponent⟩

end Split

/-- How the numbers of a column are written. -/
structure Column where
  /-- Every number has a power of ten. -/
  powers : Bool
  /-- The width in front of the point. -/
  whole : Nat
  /-- The digits behind the point. -/
  fraction : Nat
  /-- The digits of a power of ten. -/
  exponent : Nat
deriving DecidableEq, Repr

namespace Column

/-- Powers of ten are needed for numbers that are large or small, and for those of which one is
more than a thousand times another. Zero is neither. -/
def needsPowers (xs : List Float) : Bool :=
  let sizes := (xs.filter fun x => x.isFinite && x != 0.0).map Float.abs
  let high := sizes.foldl max 0.0
  let low := sizes.foldl min (Binary64.infinity false)
  !sizes.isEmpty && (1e8 ≤ high || low < 1e-4 || 1000.0 < high / low)

/-- A finite number split as a column needs it. -/
def split? (powers : Bool) (x : Float) : Option Split :=
  match Binary64.ofFloat x with
  | .finite negative significand exponent =>
    some (if powers then Split.scientific negative significand exponent
      else Split.positional negative significand exponent)
  | _ => none

/-- The digits of a power of ten, at least two. -/
def powerDigits (power : Int) : Nat := max 2 (digits power.natAbs).length

/-- The width behind the point. -/
def behind (c : Column) : Nat := c.fraction + if c.powers then c.exponent + 2 else 0

/-- The column with room for a text that stands across the place of the point. -/
def widened (c : Column) (text : String) : Column :=
  { c with whole := max c.whole (text.length - (c.behind + 1)) }

/-- The column that holds numbers. -/
def ofNumbers (xs : List Float) : Column :=
  let powers := needsPowers xs
  let splits := xs.filterMap (split? powers)
  let most (f : Split → Nat) : Nat := (splits.map f).foldl max 0
  let c : Column := {
    powers
    whole := most (·.whole.length)
    fraction := most (·.fraction.length)
    exponent := most fun s => powerDigits s.power }
  ((xs.filter (!·.isFinite)).map full).foldl widened c

/-- A text with as many of one character behind it as fill a width. -/
def filled (width : Nat) (fill : Char) (cs : List Char) : List Char :=
  cs ++ List.replicate (width - cs.length) fill

/-- A number as its column holds it. With powers of ten every place is filled with a digit of the
number itself, also where fewer would have told it from all others. -/
def write (c : Column) (x : Float) : String :=
  match Binary64.ofFloat x with
  | .finite negative significand exponent =>
    let front (whole : List Char) := padLeft c.whole (String.ofList whole) ++ "."
    if c.powers then
      let (num, den) := binaryRatio significand exponent
      let d := Decimal.rounded (c.fraction + 1) num den
      let ds := digits d.exponent.natAbs
      front (minus negative ++ d.digits.take 1) ++ String.ofList (
        filled c.fraction '0' (d.digits.drop 1) ++ 'e' :: (if d.exponent < 0 then '-' else '+') ::
          (List.replicate (c.exponent - ds.length) '0' ++ ds))
    else
      let s := Split.positional negative significand exponent
      front s.whole ++ String.ofList (filled c.fraction ' ' s.fraction)
  | _ => padLeft (c.whole + 1 + c.behind) (full x)

end Column
end PointRelaxation.Text
