import PointRelaxation.Draws.Generator
import PointRelaxation.Fault

/-!
# The sources a relaxation can be started with

A seeded generator, or a script of draws.
-/

namespace PointRelaxation

inductive Source where
  | generator (g : Generator)
  | script (s : Script Float)

namespace Source

def next : Source → Float × Source
  | generator g => let (x, g) := g.next; (x, generator g)
  | script s => let (x, s) := s.next; (x, script s)

instance : Draws Source Float := ⟨Source.next⟩

/-- The source that a seed stands for; without a seed, the one that `entropy` stands for. -/
def ofSeed (entropy : Nat) : Option Int → Except (Fault Float) Source
  | none => .ok (generator (Generator.ofSeed entropy))
  | some (.ofNat seed) => .ok (generator (Generator.ofSeed seed))
  | some (.negSucc _) => .error .negativeSeed

end Source
end PointRelaxation
