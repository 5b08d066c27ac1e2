import PointRelaxation.Binary64
import PointRelaxation.Log.Value
import PointRelaxation.Sorting.Run

/-!
# Keys

A dictionary has one entry for each of its keys. Numbers of any kind are one key when they are
equal, and so are sequences of equal items; a vector is the pair of its coordinates. Entries are
shown in the order of their keys as far as the keys have one.
-/

namespace PointRelaxation.Value

/-! ## Numbers -/

/-- What a number stands for: a whole number and a float are compared by their exact values. -/
def number? : Value → Option Binary64
  | truth b => some (.finite false (if b then 1 else 0) 0)
  | int n => some (.finite (n < 0) n.natAbs 0)
  | float x => some (Binary64.ofFloat x)
  | _ => none

/-- Two finite numbers as whole multiples of one unit. -/
def aligned (negative : Bool) (significand : Nat) (exponent least : Int) : Int :=
  let n : Int := (significand <<< (exponent - least).toNat : Nat)
  if negative then -n else n

def numberLess : Binary64 → Binary64 → Bool
  | .finite n m e, .finite n' m' e' =>
    let least := min e e'
    aligned n m e least < aligned n' m' e' least
  | .infinite n, .infinite n' => n && !n'
  | .infinite n, .finite .. => n
  | .finite .., .infinite n => !n
  | _, _ => false

def numberSame : Binary64 → Binary64 → Bool
  | .finite n m e, .finite n' m' e' =>
    let least := min e e'
    aligned n m e least == aligned n' m' e' least
  | .infinite n, .infinite n' => n == n'
  | _, _ => false

/-! ## Equality and order -/

mutual

/-- A value with its vectors as pairs of numbers. -/
def bare : Value → Value
  | vec v => tuple [float v.x, float v.y]
  | tuple items => tuple (bareAll items)
  | v => v

def bareAll : List Value → List Value
  | [] => []
  | v :: vs => bare v :: bareAll vs

end

mutual

/-- Whether two keys without vectors are equal. -/
def same : Value → Value → Bool
  | absent, absent => true
  | text a, text b => a == b
  | tuple a, tuple b => sameAll a b
  | a, b =>
    match a.number?, b.number? with
    | some a, some b => numberSame a b
    | _, _ => false

def sameAll : List Value → List Value → Bool
  | [], [] => true
  | a :: as, b :: bs => same a b && sameAll as bs
  | _, _ => false

end

mutual

/-- Whether one key without vectors comes before another; nothing for keys that have no order. -/
def less? : Value → Value → Option Bool
  | text a, text b => some (a < b)
  | tuple a, tuple b => lessAll? a b
  | a, b =>
    match a.number?, b.number? with
    | some a, some b => some (numberLess a b)
    | _, _ => none

/-- Sequences are ordered by the first items in which they differ. -/
def lessAll? : List Value → List Value → Option Bool
  | [], bs => some (!bs.isEmpty)
  | _, [] => some false
  | a :: as, b :: bs => if same a b then lessAll? as bs else less? a b

end

/-! ## Entries -/

/-- Entries in the order of their keys. If some keys have no order, all stay where they are. -/
def sortEntries (entries : List (Value × Value)) : List (Value × Value) :=
  (Sorting.sorted? (fun a b => less? a.1.bare b.1.bare) entries).getD entries

/-- Writes a value under its key, in the place of an equal key if there is one. -/
def put (key value : Value) : List (Value × Value) → List (Value × Value)
  | [] => [(key, value)]
  | e :: es => if same e.1.bare key.bare then (e.1, value) :: es else e :: put key value es

mutual

/-- The kind of value that keeps a value from being a key: one that can be altered. -/
def alterable? : Value → Option String
  | list _ => some "list"
  | mapping type _ => some type
  | array _ _ => some "numpy.ndarray"
  | tuple items => alterableAmong? items
  | _ => none

def alterableAmong? : List Value → Option String
  | [] => none
  | v :: vs => (alterable? v).or (alterableAmong? vs)

end

/-- What is said of a value that can be no key. -/
def unfitKey (kind : String) : String := "unhashable type: '" ++ kind ++ "'"

/-- The entries of a dictionary with one more, or what is said of its key. -/
def addEntry (entries : List (Value × Value)) (key value : Value) :
    Except String (List (Value × Value)) :=
  match alterable? key with
  | some kind => .error (unfitKey kind)
  | none => .ok (put key value entries)

end PointRelaxation.Value
