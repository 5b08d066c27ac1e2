import PointRelaxation.Rule

/-!
# Rules as terms

A `Term` is a rule written down: an expression over the trial position and the places of named
points, of a number, of a place, or of a list of these. `Term.eval` gives it its value. Arguments
are evaluated from left to right, and the first fault ends the evaluation.
-/

namespace PointRelaxation

/-- What a term stands for. -/
inductive Kind where
  | number
  | place
  | many (of : Kind)
deriving DecidableEq, Repr

namespace Kind

/-- The values of a kind. -/
@[reducible] def denote (α : Type) : Kind → Type
  | number => α
  | place => Vec α
  | many k => List (k.denote α)

end Kind

/-- The operations of terms, by the kinds of their arguments and of their result. -/
inductive Operation : List Kind → Kind → Type where
  | pair : Operation [.number, .number] .place
  | abscissa : Operation [.place] .number
  | ordinate : Operation [.place] .number
  | plus : Operation [.number, .number] .number
  | minus : Operation [.number, .number] .number
  | times : Operation [.number, .number] .number
  | ratio : Operation [.number, .number] .number
  | between : Operation [.place, .place] .place
  | add : Operation [.place, .place] .place
  | dot : Operation [.place, .place] .number
  | cross : Operation [.place, .place] .number
  | normSq : Operation [.place] .number
  | norm : Operation [.place] .number
  | normalize : Operation [.place] .place
  | distance : Operation [.place, .place] .number
  | angleBetween : Operation [.place, .place] .number
  | angleAt : Operation [.place, .place, .place] .number
  | greater : Operation [.number, .number] .number
  | lowest : Operation [.number] .number
  | lowestAbs : Operation [.number] .number
  | highest : Operation [.number] .number
  | highestAbs : Operation [.number] .number
  | equal : Operation [.number, .number] .number
  | atPosition : Operation [.place, .number, .number] .number
  | onCircle : Operation [.place, .place, .number] .number
  | atDistanceEqual : Operation [.number, .number] .number
  | atAngle : Operation [.number, .place, .place, .place] .number
  | translatedByVector : Operation [.place, .place, .place] .number
  | translatedBySegment : Operation [.place, .place, .place, .place] .number
  | atMiddleOf : Operation [.place, .many .place] .number
  | closerToThan : Operation [.place, .place, .place] .number
  | alignedWith : Operation [.place, .place, .place] .number
  | combine : Operation [.many .number] .number

/-- One value of each kind. -/
@[reducible] def Values (α : Type) : List Kind → Type
  | [] => Unit
  | k :: ks => k.denote α × Values α ks

namespace Operation

variable {α : Type} [Scalar α]

/-- The value of an operation on values of its arguments. -/
def apply : {ks : List Kind} → {k : Kind} → Operation ks k → Values α ks →
    Except (Fault α) (k.denote α)
  | _, _, pair, (x, y, _) => .ok (⟨x, y⟩ : Vec α)
  | _, _, abscissa, (v, _) => .ok (Vec.x v)
  | _, _, ordinate, (v, _) => .ok (Vec.y v)
  | _, _, plus, (a, b, _) => .ok (a + b)
  | _, _, minus, (a, b, _) => .ok (a - b)
  | _, _, times, (a, b, _) => .ok (a * b)
  | _, _, ratio, (a, b, _) => Scalar.quotient a b
  | _, _, between, (a, b, _) => .ok (Vec.between a b)
  | _, _, add, (a, b, _) => .ok (Vec.add a b)
  | _, _, dot, (a, b, _) => .ok (Vec.dot a b)
  | _, _, cross, (a, b, _) => .ok (Vec.cross a b)
  | _, _, normSq, (v, _) => .ok (Vec.normSq v)
  | _, _, norm, (v, _) => .ok (Vec.norm v)
  | _, _, normalize, (v, _) => Vec.normalize v
  | _, _, distance, (a, b, _) => .ok (Vec.distance a b)
  | _, _, angleBetween, (u, v, _) => Vec.angleBetween u v
  | _, _, angleAt, (a, vertex, c, _) => Vec.angleAt a vertex c
  | _, _, greater, (a, b, _) => .ok (Score.greater a b)
  | _, _, lowest, (a, _) => .ok (Score.lowest a)
  | _, _, lowestAbs, (a, _) => .ok (Score.lowestAbs a)
  | _, _, highest, (a, _) => .ok (Score.highest a)
  | _, _, highestAbs, (a, _) => .ok (Score.highestAbs a)
  | _, _, equal, (a, b, _) => .ok (Score.equal a b)
  | _, _, atPosition, (p, x, y, _) => .ok (Score.atPosition p x y)
  | _, _, onCircle, (p, center, radius, _) => .ok (Score.onCircle p center radius)
  | _, _, atDistanceEqual, (a, b, _) => .ok (Score.atDistanceEqual a b)
  | _, _, atAngle, (angle, a, vertex, c, _) => Score.atAngle angle a vertex c
  | _, _, translatedByVector, (p, origin, offset, _) =>
    .ok (Score.translatedByVector p origin offset)
  | _, _, translatedBySegment, (p, origin, start, finish, _) =>
    .ok (Score.translatedBySegment p origin start finish)
  | _, _, atMiddleOf, (p, points, _) => Score.atMiddleOf p points
  | _, _, closerToThan, (p, near, far, _) => .ok (Score.closerToThan p near far)
  | _, _, alignedWith, (p, a, b, _) => Score.alignedWith p a b
  | _, _, combine, (scores, _) => Score.combined scores

end Operation

mutual

/-- A rule written down. -/
inductive Term (α : Type) : Kind → Type where
  | const (x : α) : Term α .number
  /-- The trial position. -/
  | trial : Term α .place
  /-- Where a point stands. -/
  | point (name : String) : Term α .place
  | apply {ks : List Kind} {k : Kind} (op : Operation ks k) (args : Args α ks) : Term α k
  /-- The first branch if `a < b`, the second otherwise. Only the branch chosen is evaluated. -/
  | ifLess {k : Kind} (a b : Term α .number) (less otherwise : Term α k) : Term α k
  /-- A term of another kind than the one expected where it stands. Its own fault, if it has one,
  comes first; otherwise its kind is the fault. -/
  | misplaced {k' k : Kind} (t : Term α k') : Term α k
  | nil {k : Kind} : Term α (.many k)
  | cons {k : Kind} (head : Term α k) (tail : Term α (.many k)) : Term α (.many k)

/-- One term for each argument of an operation. -/
inductive Args (α : Type) : List Kind → Type where
  | nil : Args α []
  | cons {k : Kind} {ks : List Kind} (head : Term α k) (tail : Args α ks) : Args α (k :: ks)

end

mutual

/-- The value of a term at a trial position. -/
def Term.eval {α : Type} [Scalar α] (p : Vec α) (places : Places α) :
    {k : Kind} → Term α k → Except (Fault α) (k.denote α)
  | _, .const x => .ok x
  | _, .trial => .ok p
  | _, .point name => places name
  | _, .apply op args => do
    let values ← Args.eval p places args
    op.apply values
  | _, .ifLess a b less otherwise => do
    let a ← Term.eval p places a
    let b ← Term.eval p places b
    if a < b then Term.eval p places less else Term.eval p places otherwise
  | _, .misplaced t => do
    let _ ← Term.eval p places t
    .error .wrongKind
  | _, .nil => .ok []
  | _, .cons head tail => do
    let x ← Term.eval p places head
    let xs ← Term.eval p places tail
    return List.cons x xs

/-- The values of arguments, evaluated from left to right. -/
def Args.eval {α : Type} [Scalar α] (p : Vec α) (places : Places α) :
    {ks : List Kind} → Args α ks → Except (Fault α) (Values α ks)
  | _, .nil => .ok ()
  | _, .cons head tail => do
    let x ← Term.eval p places head
    let xs ← Args.eval p places tail
    return (x, xs)

end

/-- The rule that a term of a number writes down. -/
def Term.toRule {α : Type} [Scalar α] (t : Term α .number) : Rule α :=
  fun p places => t.eval p places

end PointRelaxation
