import PointRelaxation.Draws.Source
import PointRelaxation.Log.Trace
import PointRelaxation.Relaxation.Describe

/-!
# The solver's log

Each operation of a relaxation with the records it leaves. The operations themselves are those of
`Point`, `Candidates` and `Relaxation`; what is logged is read off what they return.
-/

namespace PointRelaxation.Solver

/-! ## Arguments and results as values -/

def pointValue (decimals : Nat) (p : Point Float) : Value := .object (p.describe decimals)

/-- The positions a view shows. Large views are only counted. Of the others no more positions are
looked up than are shown, and one that tells whether any are left out. -/
def viewValue (scene : Scene Float) (view : View Float) : Except (Fault Float) Value := do
  let type := "PositionView"
  let names := view.names scene
  if 32 < names.length then
    return .mapping type (names.map fun name => (.text name, .absent))
  let entries ← (names.take 5).mapM fun name => do
    let v ← view.places scene name
    return (Value.text name, Value.vec v)
  return .mapping type entries

def cellValue (c : Cell) : Value := .tuple [.int c.x, .int c.y]

def candidatesValue (m : Candidates Float) : Value :=
  .mapping "dict" (m.entries.map fun e => (cellValue e.1, (e.2.map Value.float).getD .absent))

def choiceValue (c : Cell × Float) : Value := .tuple [cellValue c.1, .float c.2]

/-- A call with arguments by position only. -/
def callOf (arguments : List Value) : Call := ⟨arguments, []⟩

variable (threshold : Level)

/-! ## Operations on one point -/

/-- An evaluation of a point's candidates against a view, of which the outcome is known. -/
def evaluated (scene : Scene Float) (view : View Float) (p : Point Float)
    (outcome : Point Float × Option (Fault Float)) : Logged (Point Float) (Fault Float) Int :=
  let call (_ : Unit) := do
    let v ← viewValue scene view
    return callOf [pointValue scene.decimals p, v]
  let result :=
    match outcome.2 with
    | some f => .error f
    | none => .ok outcome.1.degenerate
  Logged.bracket threshold .solver "evaluate_candidates" p call (some Value.int)
    ⟨outcome.1, [], result⟩

/-- Evaluates the candidates of a point against a view. -/
def evaluate (scene : Scene Float) (view : View Float) (p : Point Float) :
    Logged (Point Float) (Fault Float) Int :=
  evaluated threshold scene view p (p.evaluate scene.decimals (view.places scene))

/-- Chooses the best candidate. -/
def best (m : Candidates Float) : Logged Unit (Fault Float) (Cell × Float) :=
  Logged.bracket threshold .solver "find_best_candidate" ()
    (fun _ => .ok (callOf [candidatesValue m])) (some choiceValue) ⟨(), [], m.best⟩

/-- Settles a point from its evaluated candidates. The choice is made once the point's own cell is
known. -/
def settle (decimals : Nat) (p : Point Float) : Logged (Point Float) (Fault Float) Bool :=
  let choice :=
    match p.cell decimals with
    | .ok _ => (best threshold p.candidates).records
    | .error _ => []
  let (q, result) := p.settle decimals
  Logged.bracket threshold .solver "update_with_best_score" p
    (fun _ => .ok (callOf [pointValue decimals p])) (some Value.truth) ⟨q, choice, result⟩

/-! ## Passes -/

/-- The calls of a visit. -/
def visitCalls (view : View Float) (v : Visit Float) : List Record :=
  let evaluated := evaluated threshold v.scene view v.found
  let settle := settle threshold v.scene.decimals
  match v.progress with
  | .unseeded _ => []
  | .unscored f p => (evaluated (p, some f)).records
  | .unsettled _ scored _ => (evaluated (scored, none)).records ++ (settle scored).records
  | .settled _ scored _ => (evaluated (scored, none)).records ++ (settle scored).records

/-- What a pass says of a point that it settled. -/
def visitSummary (index : Nat) (p : Point Float) : List Record :=
  let size := toString p.candidates.size
  let warning : List Record :=
    if p.degenerate = 0 then []
    else [⟨.warning, .solver,
      "Point " ++ p.name ++ ": " ++ toString p.degenerate ++ " of " ++ size ++
        " candidates hit degenerate geometry"⟩]
  warning ++ [⟨.debug, .solver, "run_pass: pass=" ++ toString index ++ " point=" ++ p.name ++
    " candidates=" ++ size ++ " score=" ++ Text.significant 6 p.score ++ " stable=" ++
    Text.truth p.stable⟩]

/-- The records of a visit. Without debugging records, its calls leave none. -/
def visit (index : Nat) (view : View Float) (v : Visit Float) : List Record :=
  (if threshold.allows .debug then visitCalls threshold view v else []) ++
    if v.fault?.isSome then [] else visitSummary index v.point

/-- What a pass says at its end. -/
def passSummary (r : PassReport) : Record :=
  if r.idle then
    ⟨.debug, .solver, "run_pass: scene is stable, pass " ++ toString r.index ++ " skipped"⟩
  else
    ⟨.info, .solver, "Pass " ++ toString r.index ++ ": evaluated=" ++ toString r.evaluated.length ++
      " moved=" ++ toString r.moved.length ++ " unstable=" ++ toString r.unstable.length⟩

/-- A relaxation as an argument. -/
def relaxationValue : Value := .object "<georelax.solver.solver_core.Relaxation object>"

/-- The records of a pass. -/
def passRecords {σ : Type} (p : Pass Float σ) : List Record :=
  let visits := p.visits.flatMap (visit threshold p.index p.view)
  let summary :=
    match p.report with
    | .ok r => [passSummary r]
    | .error _ => []
  let call (_ : Unit) := .ok (callOf [relaxationValue])
  (Logged.bracket threshold .solver "Relaxation.run_pass" () call
    (some fun r : PassReport => .object r.describe) ⟨(), visits ++ summary, p.report⟩).records

/-! ## Solving -/

/-- What is said of a solution. -/
def solutionSummary (s : Solution Float) : Record :=
  ⟨.info, .solver, "Solve finished after " ++ toString s.passes ++ " pass(es): success=" ++
    Text.truth s.success ++ " warnings=" ++ toString s.warnings.length⟩

/-- Solves a scene with the options given, or with the default ones. -/
def solve (entropy : Nat) (given : Option (Options Float)) (default : Options Float)
    (scene : Scene Float) : Logged (Scene Float) (Fault Float) (Solution Float) :=
  let options := given.getD default
  let call (_ : Unit) : Except (Fault Float) Call :=
    .ok (callOf [.object scene.describe, (given.map fun o => .object o.describe).getD .absent])
  let body : Logged (Scene Float) (Fault Float) (Solution Float) :=
    match Source.ofSeed entropy options.seed with
    | .error f => ⟨scene, [], .error f⟩
    | .ok source =>
      let run := Relaxation.solve (passRecords threshold) options source scene
      match run.fault with
      | some f => ⟨run.scene, run.notes, .error f⟩
      | none =>
        let solution := Solution.ofRun options.maxPasses run
        ⟨run.scene, run.notes ++ [solutionSummary solution], .ok solution⟩
  Logged.bracket threshold .solver "solve" scene call (some fun s => .object s.describe) body

/-- Ranks a solution. -/
def rank (s : Solution Float) : Logged Unit (Fault Float) (Nat × Float) :=
  let value (r : Nat × Float) : Value := .tuple [.int r.1, .float r.2]
  Logged.bracket threshold .solver "score_solution" ()
    (fun _ => .ok (callOf [.object s.describe])) (some value) ⟨(), [], .ok s.rank⟩

end PointRelaxation.Solver
