import PointRelaxation.Draws

/-!
# The seeded generator

A permuted congruential generator over 128 bits, whose two starting words are spread from a seed of
any size. Three things live here: the spreading of a seed over a pool of four words and out of it
again; the generator with its step and its output; and the unit draws it yields.
-/

namespace PointRelaxation

/-! ## Spreading a seed -/

namespace Seed

/-- A word and the multiplier that hashes it, which changes with every use. -/
structure Hashed where
  word : UInt32
  multiplier : UInt32

/-- The upper half of a word folded into its lower half. -/
def fold (w : UInt32) : UInt32 := w ^^^ (w >>> 16)

/-- Hashes a word into the pool. -/
def hash (multiplier w : UInt32) : Hashed :=
  let next := multiplier * 0x931e8875
  ⟨fold ((w ^^^ multiplier) * next), next⟩

/-- Combines a pool word with a hashed word. -/
def mix (x y : UInt32) : UInt32 := fold (0xca01f9dd * x - 0x4973f715 * y)

/-- The words of a seed, the lowest first. -/
def words (seed : Nat) : List UInt32 :=
  if h : seed < 0x100000000 then [UInt32.ofNat seed]
  else UInt32.ofNat (seed % 0x100000000) :: words (seed / 0x100000000)
termination_by seed
decreasing_by omega

/-- The words that seeds are spread over. -/
structure Pool where
  words : List UInt32
  multiplier : UInt32

/-- Hashes the given words into a new pool. -/
def Pool.fill (multiplier : UInt32) : List UInt32 → Pool
  | [] => ⟨[], multiplier⟩
  | w :: ws =>
    let h := hash multiplier w
    let pool := fill h.multiplier ws
    ⟨h.word :: pool.words, pool.multiplier⟩

/-- Hashes a word anew for each pool word that `picks` and mixes it in. -/
def Pool.absorb (picks : Nat → Bool) (w : UInt32) (pool : Pool) : Pool :=
  go 0 pool.multiplier pool.words
where
  go (i : Nat) (multiplier : UInt32) : List UInt32 → Pool
    | [] => ⟨[], multiplier⟩
    | x :: xs =>
      if picks i then
        let h := hash multiplier w
        let pool := go (i + 1) h.multiplier xs
        ⟨mix x h.word :: pool.words, pool.multiplier⟩
      else
        let pool := go (i + 1) multiplier xs
        ⟨x :: pool.words, pool.multiplier⟩

/-- The pool of a seed: its first four words hashed in, each then mixed into the three others, and
every further word mixed into all. -/
def pool (seed : Nat) : Pool :=
  let entropy := words seed
  let start := Pool.fill 0x43b0d7e5 ((entropy ++ List.replicate 4 0).take 4)
  let mixed := (List.range 4).foldl
    (fun pool i => pool.absorb (· != i) (pool.words.getD i 0)) start
  (entropy.drop 4).foldl (fun pool w => pool.absorb (fun _ => true) w) mixed

/-- Hashes words out of the pool. -/
def release (multiplier : UInt32) : List UInt32 → List UInt32
  | [] => []
  | w :: ws =>
    let next := multiplier * 0x58f38ded
    fold ((w ^^^ multiplier) * next) :: release next ws

/-- Eight words of starting state for a seed. -/
def state (seed : Nat) : List UInt32 :=
  let words := (pool seed).words
  release 0x8b51f9dd (words ++ words)

end Seed

/-! ## The generator -/

/-- A linear congruential generator over 128 bits. -/
structure Generator where
  state : BitVec 128
  increment : BitVec 128
deriving DecidableEq

namespace Generator

def multiplier : BitVec 128 := 0x2360ed051fc65da44385df649fccf645#128

def step (g : Generator) : Generator := { g with state := g.state * multiplier + g.increment }

/-- The state folded into one word and turned by its own six highest bits. -/
def output (g : Generator) : BitVec 64 :=
  let folded := g.state.extractLsb' 64 64 ^^^ g.state.extractLsb' 0 64
  folded.rotateRight (g.state.extractLsb' 122 6).toNat

/-- The number that words make up, in pairs of which the lower word stands first. -/
def ofPairs : List UInt32 → BitVec 128
  | a :: b :: c :: d :: _ => b.toBitVec ++ a.toBitVec ++ (d.toBitVec ++ c.toBitVec)
  | _ => 0

/-- The generator started from a seed. -/
def ofSeed (seed : Nat) : Generator :=
  let words := Seed.state seed
  let increment := (ofPairs (words.drop 4) <<< 1) ||| 1
  let first := step ⟨0, increment⟩
  step { first with state := first.state + ofPairs words }

/-- The next draw: the 53 highest bits of the output, as a fraction. -/
def next (g : Generator) : Float × Generator :=
  let g := g.step
  (Float.ofNat (g.output >>> 11).toNat * Float.ofBits 0x3CA0000000000000, g)

instance : Draws Generator Float := ⟨Generator.next⟩

end Generator
end PointRelaxation
