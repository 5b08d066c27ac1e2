import PointRelaxation.Log.Abridged
import PointRelaxation.Log.Record

/-!
# Traced calls

A traced call stands between a record of its arguments and a record of its result. Tracing is only
done below a threshold that keeps debugging records. It changes no result; but the arguments are
looked at before the call is made, and a fault in looking at them takes its place.
-/

namespace PointRelaxation

/-- A computation that leaves a state, records, and a result or a fault. -/
structure Logged (σ ε β : Type) where
  state : σ
  records : List Record
  result : Except ε β

namespace Logged

variable {σ ε β : Type}

/-- A debugging record. -/
def note (logger : Logger) (message : String) : Record := ⟨.debug, logger, message⟩

/-- The record of a call's end. -/
def close (logger : Logger) (name : String) (show? : Option (β → Value)) : Except ε β → Record
  | .error _ => note logger ("Exception in " ++ name)
  | .ok b =>
    match show? with
    | some value => note logger ("Exiting " ++ name ++ " -> " ++ (value b).abridged)
    | none => note logger ("Exiting " ++ name)

/-- A call between its records. The arguments are shown first; if they cannot be, nothing is done
and the state is left at `start`. -/
def bracket (threshold : Level) (logger : Logger) (name : String) (start : σ)
    (call : Unit → Except ε Call) (show? : Option (β → Value)) (body : Logged σ ε β) :
    Logged σ ε β :=
  if threshold.allows .debug then
    match call () with
    | .error e => ⟨start, [], .error e⟩
    | .ok c =>
      { body with
        records := note logger ("Entering " ++ name ++ " (" ++ c.text ++ ")") :: body.records ++
          [close logger name show? body.result] }
  else body

end Logged

/-! ## Functions that can be traced -/

/-- A function of a call, and whether its calls are traced. -/
structure Callable (ε β : Type) where
  traced : Bool
  run : Call → Logged Unit ε β

namespace Callable

variable {ε β : Type}

/-- A function whose calls are not traced. -/
def plain (result : Call → Except ε β) : Callable ε β := ⟨false, fun c => ⟨(), [], result c⟩⟩

/-- The function with its calls traced under a name. A function that is traced already stays as it
is. -/
def trace (threshold : Level) (logger : Logger) (name : String) (show? : Option (β → Value))
    (f : Callable ε β) : Callable ε β :=
  if f.traced then f
  else ⟨true, fun c => Logged.bracket threshold logger name () (fun _ => .ok c) show? (f.run c)⟩

end Callable
end PointRelaxation
