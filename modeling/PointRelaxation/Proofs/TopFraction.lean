import PointRelaxation.Proofs.Binary64Lengths
import PointRelaxation.Proofs.CloudShift
import PointRelaxation.Proofs.Failure
import PointRelaxation.Scene.Heatmap

/-!
# The best part of a cloud

A heatmap is a prefix of the ranking of a point's scored cells, the same one for every part that is
asked for. How long the prefix is comes from a product that is rounded downwards. In binary floating
point numbers the product and one of its factors are rounded before that, which keeps their order.

* `Heatmap.IsRanking`: the cells of a cloud from the best to the worst, equals in their order.
* `Heatmap.exists_countsBy_float`, `Heatmap.countsBy_exact`: how many cells are shown.
* `Point.heatmap_shows_top`: what heatmaps show of every point.
-/

namespace PointRelaxation

/-- Scalars whose strict order is the one that belongs to their order, whose finite elements are
numbers, and in which the parts of a whole are in order. -/
class ComparedScalar (α : Type) [Scalar α] : Prop extends OrderedScalar α where
  lt_iff (a b : α) : a < b ↔ a ≤ b ∧ ¬ b ≤ a
  number_of_finite {a : α} : Scalar.IsFinite a → a ≤ a
  zero_le_one : (0.0 : α) ≤ 1.0

instance : ComparedScalar Float where
  lt_iff := Binary64.float_lt_iff_le
  number_of_finite {a} h := by
    obtain ⟨z, hz, -⟩ := (Binary64.isFinite_iff_count a).1 h
    exact (Binary64.le_iff_of_count hz hz).2 le_rfl
  zero_le_one := by decide +kernel

instance {α : Type} [FieldScalar α] : ComparedScalar α where
  le_total a b _ _ := le_total a b
  le_trans _ _ _ := le_trans
  lowest_le_lowest := le_rfl
  lt_iff _ _ := lt_iff_le_not_ge
  number_of_finite _ := le_rfl
  zero_le_one := by
    rw [Scalar.zero_literal, Scalar.one_literal]
    exact zero_le_one

/-- The cells of finite score, each with its score, in the order in which they were proposed. -/
def Candidates.finite {α : Type} [Scalar α] (m : Candidates α) : List (Cell × α) :=
  m.entries.filterMap fun (c, s?) =>
    match s? with
    | some s => if Scalar.IsFinite s then some (c, s) else none
    | none => none

namespace Heatmap

/-! ## Rankings -/

section

variable {α : Type} [Scalar α]

/-- A ranking of scored cells: the same cells by falling scores, and those of one score in the order
in which they are held. -/
structure IsRanking (held ranking : List (Cell × α)) : Prop where
  perm : ranking.Perm held
  falling : ranking.Pairwise fun a b => b.2 ≤ a.2
  stable (a b : Cell × α) : [a, b].Sublist held → Scalar.Same a.2 b.2 → [a, b].Sublist ranking

/-- What stands before another in the order of falling scores. -/
def precedes {β : Type} (a b : β × α) : Bool := ¬ a.2 < b.2

variable [ComparedScalar α]

lemma precedes_iff {β : Type} {a b : β × α} (ha : a.2 ≤ a.2) (hb : b.2 ≤ b.2) :
    precedes a b = true ↔ b.2 ≤ a.2 := by
  unfold precedes
  rw [decide_eq_true_iff, ComparedScalar.lt_iff, not_and_not_right]
  constructor
  · intro h
    rcases OrderedScalar.le_total a.2 b.2 ha hb with hab | hba
    · exact h hab
    · exact hba
  · intro h _
    exact h

/-- Sorting numbers by falling scores ranks them. -/
lemma isRanking_mergeSort {held : List (Cell × α)} (h : ∀ e ∈ held, e.2 ≤ e.2) :
    IsRanking held (held.mergeSort precedes) := by
  -- the order is one among numbers only, so they are sorted together with what makes them numbers
  obtain ⟨numbers, hnumbers⟩ : ∃ numbers : List {e : Cell × α // e.2 ≤ e.2},
      numbers.map Subtype.val = held := ⟨_, List.attachWith_map_subtype_val h⟩
  obtain ⟨before, hbefore⟩ :
      ∃ before : {e : Cell × α // e.2 ≤ e.2} → {e : Cell × α // e.2 ≤ e.2} → Bool,
        ∀ a b, before a b = precedes a.1 b.1 := ⟨fun a b => precedes a.1 b.1, fun _ _ => rfl⟩
  have hiff (a b : {e : Cell × α // e.2 ≤ e.2}) : before a b = true ↔ b.1.2 ≤ a.1.2 := by
    rw [hbefore, precedes_iff a.2 b.2]
  have htrans : ∀ a b c, before a b = true → before b c = true → before a c = true := by
    intro a b c hab hbc
    rw [hiff] at *
    exact OrderedScalar.le_trans _ _ _ hbc hab
  have htotal : ∀ a b, (before a b || before b a) = true := by
    intro a b
    rw [Bool.or_eq_true, hiff, hiff]
    exact OrderedScalar.le_total _ _ b.2 a.2
  have hsort : (numbers.mergeSort before).map Subtype.val = held.mergeSort precedes := by
    rw [List.map_mergeSort fun a _ b _ => hbefore a b, hnumbers]
  refine ⟨List.mergeSort_perm _ _, ?_, ?_⟩
  · rw [← hsort, List.pairwise_map]
    exact (List.pairwise_mergeSort htrans htotal numbers).imp fun hab => (hiff _ _).1 hab
  · intro a b hab hsame
    rw [← hnumbers] at hab
    obtain ⟨pair, hpair, heq⟩ := List.sublist_map_iff.1 hab
    obtain ⟨a', b', rfl⟩ : ∃ a' b', pair = [a', b'] := by
      rw [← List.length_eq_two, ← List.length_map Subtype.val, ← heq]
      rfl
    obtain ⟨rfl, rfl⟩ : a = a'.1 ∧ b = b'.1 := by simpa using heq
    rw [← hsort]
    exact (List.pair_sublist_mergeSort htrans htotal ((hiff _ _).2 hsame.2) hpair).map Subtype.val

end

/-! ## Positions -/

/-- A scored cell by the position that stands for it. -/
def shown {α : Type} (pos : Cell → Vec α) (e : Cell × α) : Vec α × α := (pos e.1, e.2)

section

variable {α : Type} [Scalar α] {decimals : ℕ} {p : Point α} {pos : Cell → Vec α}

lemma proposals_eq (hpos : ∀ c ∈ p.candidates.cells, Grid.place decimals c = .ok (pos c)) :
    p.proposals decimals = .ok (p.candidates.entries.map fun e => (pos e.1, e.2)) := by
  unfold Point.proposals
  rw [mapM_eq_ok_iff, List.forall₂_map_right_iff, List.forall₂_same]
  intro e he
  rw [hpos e.1 (List.mem_map_of_mem he)]
  rfl

lemma scored_map (entries : List (Cell × Option α)) (h : (entries.map Prod.fst).Nodup) :
    scored (entries.map fun e => (pos e.1, e.2)) =
      (Candidates.finite ⟨entries, h⟩).map (shown pos) := by
  unfold scored Candidates.finite
  rw [List.filterMap_map, List.map_filterMap]
  congr 1
  funext e
  obtain ⟨c, _ | s⟩ := e
  · rfl
  · dsimp only [Function.comp_apply]
    split_ifs <;> rfl

/-- Only the scores are compared. -/
lemma ranked_map (held : List (Cell × α)) :
    ranked (held.map (shown pos)) = (held.mergeSort precedes).map (shown pos) := by
  show (held.map (shown pos)).mergeSort precedes = _
  refine (List.map_mergeSort ?_).symm
  intro a _ b _
  rfl

/-- A heatmap is a prefix of the ranking, where every cell has a position. -/
lemma heatmap_eq {keep : α} {size : ℕ} (hlow : (0.0 : α) ≤ keep) (hhigh : keep ≤ 1.0)
    (hpos : ∀ c ∈ p.candidates.cells, Grid.place decimals c = .ok (pos c))
    (hcount : count p.candidates.finite.length keep = .ok size) :
    p.heatmap decimals keep =
      .ok (((p.candidates.finite.mergeSort precedes).take size).map (shown pos)) := by
  have hscored : scored (p.candidates.entries.map fun e => (pos e.1, e.2)) =
      p.candidates.finite.map (shown pos) := scored_map _ p.candidates.nodup
  unfold Point.heatmap
  rw [if_pos ⟨hlow, hhigh⟩, proposals_eq hpos]
  refine bind_eq_ok.2 ⟨_, rfl, bind_eq_ok.2 ⟨size, ?_, ?_⟩⟩
  · rw [hscored, List.length_map]
    exact hcount
  · rw [hscored, ranked_map, List.map_take]
    rfl

end

/-! ## How many cells are shown -/

lemma count_of_floor {α : Type} [Scalar α] {n : ℕ} {keep total : α} {d : ℤ}
    (htotal : Scalar.ofInt (n : ℤ) = .ok total)
    (hfloor : Scalar.floor (total * (1.0 - keep)) = .whole d) :
    count n keep = .ok (n - d.toNat) := by
  refine bind_eq_ok.2 ⟨total, htotal, bind_eq_ok.2 ⟨d, ?_, rfl⟩⟩
  unfold Scalar.floorInt
  rw [hfloor]

/-- In exact arithmetic the number of cells is the part of all, rounded upwards. -/
lemma count_exact {α : Type} [FieldScalar α] [FloorRing α] [ExactScalar α] (n : ℕ) {keep : α}
    (hlow : (0.0 : α) ≤ keep) (hhigh : keep ≤ 1.0) : count n keep = .ok ⌈keep * n⌉₊ := by
  rw [Scalar.zero_literal] at hlow
  rw [Scalar.one_literal] at hhigh
  have htotal : Scalar.ofInt (n : ℤ) = .ok (n : α) := by
    unfold Scalar.ofInt
    rw [ExactScalar.ofInt?_eq, Int.cast_natCast]
  have hrest : (n : α) * (1.0 - keep) = -(keep * n) + (n : ℤ) := by
    rw [Scalar.one_literal, Int.cast_natCast]
    ring
  rw [count_of_floor htotal (ExactScalar.floor_eq _), hrest, Int.floor_add_intCast, Int.floor_neg]
  have hceil : 0 ≤ ⌈keep * n⌉ := Int.ceil_nonneg (by positivity)
  have hall : ⌈keep * n⌉ ≤ n := by
    rw [Int.ceil_le, Int.cast_natCast]
    exact mul_le_of_le_one_left (Nat.cast_nonneg n) hhigh
  rw [← Int.ceil_toNat]
  congr 1
  omega

end Heatmap

namespace Binary64

open Float.Model.UnpackedFloat (Sign)

/-! ## Whole parts of counted numbers -/

/-- What a number stands for, by its count. -/
lemma quantity_of_unpack_finite {x : Float} {s : Sign} {m k : ℕ} {hm : 0 < m}
    (hs : x.toModel.unpack = .finite s m (k - 1074) hm) :
    quantity? (ofFloat x) = some (((s.apply (m * 2 ^ k : ℕ) : ℤ) : ℚ) / oneCount) := by
  have hone : (oneCount : ℚ) ≠ 0 := Nat.cast_ne_zero.2 oneCount_pos.ne'
  rw [ofFloat_eq_ofUnpacked, hs]
  change some (signed (s == .negative) (m * 2 ^ ((k : ℤ) - 1074))) = _
  rw [signed_apply, div_eq_mul_inv, signed_mul_right, oneCount_eq, zpow_sub₀ two_ne_zero,
    zpow_natCast]
  generalize (2 : ℚ) ^ (1074 : ℤ) = one
  push_cast
  rw [div_eq_mul_inv, mul_assoc]

lemma quantity_of_unpack_zero {x : Float} {s : Sign} (hs : x.toModel.unpack = .zero s) :
    quantity? (ofFloat x) = some 0 := by
  rw [ofFloat_eq_ofUnpacked, hs]
  change some (signed (s == .negative) ((0 : ℕ) * 2 ^ leastExponent)) = _
  rw [Nat.cast_zero, zero_mul, signed_zero]

/-- The whole part of a number that is not negative. -/
lemma floor_of_count {x : Float} {r : ℕ} (hx : count? x = some (r : ℤ)) (hr : r < farCount) :
    floor x = .whole (r / oneCount : ℕ) := by
  have hquantity : quantity? (ofFloat x) = some ((r : ℚ) / oneCount) := by
    rcases unpack_of_finite hx (abs_natCast_lt_farCount.2 hr) with
      ⟨s, hs, hzero⟩ | ⟨s, m, k, hm, hs, -, -, hcount⟩
    · rw [quantity_of_unpack_zero hs, Int.natCast_eq_zero.1 hzero, Nat.cast_zero, zero_div]
    · rw [quantity_of_unpack_finite hs, ← hcount, Int.cast_natCast]
  rw [floor_value hquantity, Rat.floor_natCast_div_natCast, Int.natCast_ediv]

/-- What stands for a whole number has the count of that. -/
lemma count_of_quantity {x : Float} {n : ℕ} (h : quantity? (ofFloat x) = some (n : ℚ)) :
    count? x = some ((n * oneCount : ℕ) : ℤ) := by
  have hone : (oneCount : ℚ) ≠ 0 := Nat.cast_ne_zero.2 oneCount_pos.ne'
  change counted x.toModel.unpack = _
  rcases hx : x.toModel.unpack with s | _ | s | ⟨s, m, e, hm⟩
  · rw [ofFloat_eq_ofUnpacked, hx] at h
    cases h
  · rw [ofFloat_eq_ofUnpacked, hx] at h
    cases h
  · rw [quantity_of_unpack_zero hx] at h
    have hzero : n = 0 := by exact_mod_cast (Option.some.inj h).symm
    rw [hzero, Nat.zero_mul]
    rfl
  · obtain ⟨k, rfl, -, -⟩ := fits_unpack hx
    rw [quantity_of_unpack_finite hx] at h
    have hvalue := Option.some.inj h
    rw [div_eq_iff hone] at hvalue
    rw [counted_finite]
    congr 1
    exact_mod_cast hvalue

/-- A whole number of at most 53 bits is met. -/
lemma exists_ofInt {n : ℕ} (hn : n ≤ 2 ^ 53) :
    ∃ x : Float, Scalar.ofInt (n : ℤ) = (.ok x : Except (Fault Float) Float) ∧
      count? x = some ((n * oneCount : ℕ) : ℤ) := by
  obtain ⟨m, e, hm, he, rfl⟩ : ∃ m e : ℕ, m < 2 ^ 53 ∧ e ≤ 900 ∧ n = m * 2 ^ e := by
    rcases hn.lt_or_eq with hlt | rfl
    · exact ⟨n, 0, hlt, by omega, (Nat.mul_one n).symm⟩
    · exact ⟨2 ^ 52, 1, by norm_num, by omega, by norm_num⟩
  obtain ⟨x, hx, hvalue⟩ := whole_exact m e hm he
  refine ⟨x, ?_, count_of_quantity hvalue⟩
  unfold Scalar.ofInt
  have hconverted : Scalar.ofInt? ((m * 2 ^ e : ℕ) : ℤ) = some x := hx
  rw [hconverted]

end Binary64

namespace Heatmap

open Binary64

/-- What is left of one beside a part, in least units. -/
def rest (k : ℕ) : ℕ := Binary64.keep (oneCount - k)

lemma rest_anti {k k' : ℕ} (h : k ≤ k') : rest k' ≤ rest k :=
  keep_mono (Nat.sub_le_sub_left h oneCount)

lemma rest_zero : rest 0 = oneCount := keep_of_isSize isSize_oneCount

lemma rest_one : rest oneCount = 0 := by
  unfold rest
  rw [Nat.sub_self]
  exact keep_of_isSize isSize_zero

lemma rest_le (k : ℕ) : rest k ≤ oneCount := rest_zero ▸ rest_anti (Nat.zero_le k)

lemma lt_farCount_of_le {n m : ℕ} (hn : n ≤ 2 ^ 53) (hm : m ≤ n * oneCount) : m < farCount := by
  have hall : 2 ^ 53 * oneCount < farCount := by
    unfold oneCount farCount
    rw [← pow_add]
    exact pow_lt_pow_right₀ one_lt_two (by decide : 53 + oneExponent < farExponent)
  calc m ≤ n * oneCount := hm
    _ ≤ 2 ^ 53 * oneCount := Nat.mul_le_mul_right _ hn
    _ < farCount := hall

lemma le_oneCount_lt_farCount {m : ℕ} (hm : m ≤ oneCount) : |(m : ℤ)| < farCount := by
  refine abs_natCast_lt_farCount.2 (lt_farCount_of_le (n := 1) (by norm_num) ?_)
  rwa [Nat.one_mul]

/-- The rest beside a part and the number of cells that it comes to, as they are rounded. -/
lemma exists_dropped {n k : ℕ} {total part : Float}
    (htotal : count? total = some ((n * oneCount : ℕ) : ℤ)) (hn : n ≤ 2 ^ 53)
    (hpart : count? part = some (k : ℤ)) (hk : k ≤ oneCount) :
    count? (1.0 - part) = some (rest k : ℤ) ∧
      ∃ r : ℕ, count? (total * (1.0 - part)) = some (r : ℤ) ∧ NearestSize (n * rest k) r ∧
        r ≤ n * oneCount := by
  have hnumeral : count? 1.0 = some (oneCount : ℤ) := by decide +kernel
  have hall : |((n * oneCount : ℕ) : ℤ)| < farCount :=
    abs_natCast_lt_farCount.2 (lt_farCount_of_le hn le_rfl)
  have hrest : count? (1.0 - part) = some (rest k : ℤ) := by
    have hlt := abs_natCast_lt_farCount.1 (le_oneCount_lt_farCount (rest_le k))
    rw [count?_sub hnumeral hpart (le_oneCount_lt_farCount le_rfl) (le_oneCount_lt_farCount hk),
      ← Nat.cast_sub hk, rounded_natCast]
    exact congrArg (fun m : ℕ => some (m : ℤ)) (Nat.min_eq_left hlt.le)
  obtain ⟨r, hr, hcount⟩ :=
    count?_mul htotal hrest hall (le_oneCount_lt_farCount (rest_le k))
  have hquantity : ((n * oneCount : ℕ) : ℤ).natAbs * (rest k : ℤ).natAbs / (oneCount : ℚ) =
      n * rest k := by
    have hone : (oneCount : ℚ) ≠ 0 := Nat.cast_ne_zero.2 oneCount_pos.ne'
    rw [Int.natAbs_natCast, Int.natAbs_natCast]
    push_cast
    field_simp
  rw [hquantity] at hr
  have hle : r ≤ n * oneCount := by
    refine hr.le_of_le (isSize_of_count htotal hall) ?_
    exact_mod_cast Nat.mul_le_mul_left n (rest_le k)
  refine ⟨hrest, r, ?_, hr, hle⟩
  rw [hcount, sign_mul_min (Int.mul_nonneg (Int.natCast_nonneg _) (Int.natCast_nonneg _)) ?_ hr,
    Nat.min_eq_left (lt_farCount_of_le hn hle).le]
  intro hzero
  rcases Int.mul_eq_zero.1 hzero with hzero | hzero
  · have hnone : n = 0 :=
      (Nat.mul_eq_zero.1 (Int.natCast_eq_zero.1 hzero)).resolve_right oneCount_pos.ne'
    rw [hnone, Nat.cast_zero, zero_mul]
  · rw [Int.natCast_eq_zero.1 hzero, Nat.cast_zero, mul_zero]

/-- Of a larger part fewer cells are left out. Equal rests have equal products; unequal ones have
unequal exact products, whose order is kept. -/
lemma dropped_anti {n k k' r r' : ℕ} {total part part' : Float}
    (hrest : count? (1.0 - part) = some (rest k : ℤ))
    (hrest' : count? (1.0 - part') = some (rest k' : ℤ))
    (hr : count? (total * (1.0 - part)) = some (r : ℤ))
    (hr' : count? (total * (1.0 - part')) = some (r' : ℤ))
    (hnear : NearestSize (n * rest k) r) (hnear' : NearestSize (n * rest k') r') (hk : k ≤ k') :
    r' ≤ r := by
  have hnone (h : (n : ℚ) * rest k' = 0) : r' ≤ r := by
    have hzero : r' ≤ 0 := hnear'.le_of_le isSize_zero (by rw [h, Nat.cast_zero])
    omega
  rcases Nat.eq_zero_or_pos n with hn | hn
  · exact hnone (by rw [hn, Nat.cast_zero, zero_mul])
  rcases (rest_anti hk).lt_or_eq with hlt | heq
  · refine hnear'.mono hnear ?_
    exact_mod_cast Nat.mul_lt_mul_of_pos_left hlt hn
  · -- nearness alone does not tell how a tie is rounded, but here the product is the same number
    rcases Nat.eq_zero_or_pos (rest k') with hzero | hpos
    · exact hnone (by rw [hzero, Nat.cast_zero, mul_zero])
    · have hsame : 1.0 - part' = 1.0 - part := by
        refine eq_of_count hrest' (hrest.trans (by rw [heq]))
          (le_oneCount_lt_farCount (rest_le k')) ?_
        exact Int.natCast_ne_zero.2 hpos.ne'
      rw [hsame] at hr'
      exact (Int.ofNat_inj.1 (Option.some.inj (hr'.symm.trans hr))).le

/-- A part is counted by no more least units than one. -/
lemma exists_part {part : Float} (hlow : 0.0 ≤ part) (hhigh : part ≤ 1.0) :
    ∃ k : ℕ, count? part = some (k : ℤ) ∧ k ≤ oneCount := by
  have hzero : count? 0.0 = some 0 := by decide +kernel
  have hone : count? 1.0 = some (oneCount : ℤ) := by decide +kernel
  obtain ⟨-, z, -, hz, -⟩ := (float_le_iff_count _ _).1 hlow
  rw [le_iff_of_count hzero hz] at hlow
  rw [le_iff_of_count hz hone] at hhigh
  obtain ⟨k, rfl⟩ := Int.eq_ofNat_of_zero_le hlow
  exact ⟨k, hz, Int.ofNat_le.1 hhigh⟩

/-- How many of `n` cells are shown for each part: more for larger ones, from none to all. -/
structure CountsBy {α : Type} [Scalar α] (n : ℕ) (size : α → ℕ) : Prop where
  count_eq {part : α} : (0.0 : α) ≤ part → part ≤ 1.0 → count n part = .ok (size part)
  mono {part part' : α} : (0.0 : α) ≤ part → part ≤ part' → part' ≤ 1.0 → size part ≤ size part'
  none_of_le {part : α} : (0.0 : α) ≤ part → part ≤ 0.0 → size part = 0
  all_of_le {part : α} : (1.0 : α) ≤ part → part ≤ 1.0 → size part = n

/-- The number of cells that are shown, for a part of `k` least units. -/
lemma exists_count_float {n k : ℕ} {total part : Float}
    (hofInt : Scalar.ofInt (n : ℤ) = (.ok total : Except (Fault Float) Float))
    (htotal : count? total = some ((n * oneCount : ℕ) : ℤ)) (hn : n ≤ 2 ^ 53)
    (hpart : count? part = some (k : ℤ)) (hk : k ≤ oneCount) :
    ∃ r : ℕ, count? (total * (1.0 - part)) = some (r : ℤ) ∧ NearestSize (n * rest k) r ∧
      count n part = .ok (n - r / oneCount) := by
  obtain ⟨-, r, hr, hnear, hle⟩ := exists_dropped htotal hn hpart hk
  have hfloor : Scalar.floor (total * (1.0 - part)) = .whole (r / oneCount : ℕ) :=
    floor_of_count hr (lt_farCount_of_le hn hle)
  refine ⟨r, hr, hnear, ?_⟩
  rw [count_of_floor hofInt hfloor, Int.toNat_natCast]

/-- In binary floating point numbers, for as many cells as are counted exactly. -/
lemma exists_countsBy_float {n : ℕ} (hn : n ≤ 2 ^ 53) : ∃ size : Float → ℕ, CountsBy n size := by
  obtain ⟨total, hofInt, htotal⟩ := exists_ofInt hn
  have hzero : count? 0.0 = some 0 := by decide +kernel
  have hone : count? 1.0 = some (oneCount : ℤ) := by decide +kernel
  have hall : IsSize (n * oneCount) := by
    refine isSize_of_count htotal ?_
    exact abs_natCast_lt_farCount.2 (lt_farCount_of_le hn le_rfl)
  have hsize {part : Float} {m : ℕ} (h : count n part = .ok m) :
      ((count n part).toOption).getD 0 = m := by
    rw [h]
    rfl
  refine ⟨fun part => ((count n part).toOption).getD 0, ?_, ?_, ?_, ?_⟩
  · intro part hlow hhigh
    obtain ⟨k, hk, hkone⟩ := exists_part hlow hhigh
    obtain ⟨r, -, -, hr⟩ := exists_count_float hofInt htotal hn hk hkone
    rw [hsize hr, hr]
  · intro part part' hlow hle hhigh
    obtain ⟨k, hk, hkone⟩ := exists_part hlow (OrderedScalar.le_trans _ _ _ hle hhigh)
    obtain ⟨k', hk', hkone'⟩ := exists_part (OrderedScalar.le_trans _ _ _ hlow hle) hhigh
    obtain ⟨r, hproduct, hnear, hr⟩ := exists_count_float hofInt htotal hn hk hkone
    obtain ⟨r', hproduct', hnear', hr'⟩ := exists_count_float hofInt htotal hn hk' hkone'
    obtain ⟨hrest, -⟩ := exists_dropped htotal hn hk hkone
    obtain ⟨hrest', -⟩ := exists_dropped htotal hn hk' hkone'
    rw [le_iff_of_count hk hk'] at hle
    have hdropped :=
      dropped_anti hrest hrest' hproduct hproduct' hnear hnear' (Int.ofNat_le.1 hle)
    rw [hsize hr, hsize hr']
    exact Nat.sub_le_sub_left (Nat.div_le_div_right hdropped) n
  · intro part hlow hhigh
    have hk : count? part = some ((0 : ℕ) : ℤ) := same_zero_iff.1 ⟨hhigh, hlow⟩
    obtain ⟨r, -, hnear, hr⟩ := exists_count_float hofInt htotal hn hk (Nat.zero_le _)
    have hfull : (n : ℚ) * rest 0 = (n * oneCount : ℕ) := by
      rw [rest_zero]
      push_cast
      rfl
    rw [hfull] at hnear
    -- the product is that of the number of cells and one, which needs no rounding
    have hrall : r = n * oneCount :=
      (hnear.le_of_le hall le_rfl).antisymm (hnear.le_of_ge hall le_rfl)
    rw [hsize hr, hrall, Nat.mul_div_cancel _ oneCount_pos, Nat.sub_self]
  · intro part hlow hhigh
    have hk : count? part = some (oneCount : ℤ) := count?_of_same hone ⟨hhigh, hlow⟩
    obtain ⟨r, -, hnear, hr⟩ := exists_count_float hofInt htotal hn hk le_rfl
    have hrzero : r ≤ 0 := hnear.le_of_le isSize_zero (by rw [rest_one, Nat.cast_zero, mul_zero])
    rw [hsize hr, Nat.le_zero.1 hrzero, Nat.zero_div, Nat.sub_zero]

/-- In exact arithmetic. -/
lemma countsBy_exact {α : Type} [FieldScalar α] [FloorRing α] [ExactScalar α] (n : ℕ) :
    CountsBy n fun part : α => ⌈part * n⌉₊ where
  count_eq := count_exact n
  mono {part part'} _ hle _ := Nat.ceil_mono (mul_le_mul_of_nonneg_right hle (Nat.cast_nonneg n))
  none_of_le {part} hlow hhigh := by
    rw [le_antisymm hhigh hlow, Scalar.zero_literal, zero_mul, Nat.ceil_zero]
  all_of_le {part} hlow hhigh := by
    rw [le_antisymm hhigh hlow, Scalar.one_literal, one_mul, Nat.ceil_natCast]

end Heatmap
namespace Point

open Heatmap

/-! ## The top of a cloud -/

/-- What the heatmaps of a point show. They are prefixes of one ranking of its scored cells, by the
positions that stand for these, and `size` tells how long they are. -/
structure ShowsTop {α : Type} [Scalar α] (decimals : ℕ) (p : Point α) (size : α → ℕ) : Prop where
  exists_ranking : ∃ (ranking : List (Cell × α)) (pos : Cell → Vec α),
    IsRanking p.candidates.finite ranking ∧ (ranking.map Prod.fst).Nodup ∧
      (∀ c ∈ p.candidates.cells, Grid.place decimals c = .ok (pos c)) ∧
      ∀ part, (0.0 : α) ≤ part → part ≤ 1.0 →
        p.heatmap decimals part = .ok ((ranking.take (size part)).map (shown pos)) ∧
        ∀ a ∈ ranking.take (size part), ∀ b ∈ ranking.drop (size part), b.2 ≤ a.2
  prefix_of_le (part part' : α) : (0.0 : α) ≤ part → part ≤ part' → part' ≤ 1.0 →
    ∃ top top', p.heatmap decimals part = .ok top ∧ p.heatmap decimals part' = .ok top' ∧
      top <+: top'
  nothing (part : α) : (0.0 : α) ≤ part → part ≤ 0.0 → p.heatmap decimals part = .ok []
  everything (part : α) : (1.0 : α) ≤ part → part ≤ 1.0 →
    ∃ top, p.heatmap decimals part = .ok top ∧ top.length = p.candidates.finite.length

section

variable {α : Type} [Scalar α] {decimals : ℕ} {p : Point α}

/-- No cell is scored twice. -/
lemma nodup_finite (m : Candidates α) : (m.finite.map Prod.fst).Nodup := by
  have hsublist (entries : List (Cell × Option α)) (h : (entries.map Prod.fst).Nodup) :
      ((Candidates.finite ⟨entries, h⟩).map Prod.fst).Sublist (entries.map Prod.fst) := by
    induction entries with
    | nil => exact .slnil
    | cons e entries ih =>
      have hrest := ih (List.nodup_cons.1 h).2
      obtain ⟨c, _ | s⟩ := e
      · exact hrest.cons c
      · by_cases hs : Scalar.IsFinite s
        · have heq : Candidates.finite ⟨(c, some s) :: entries, h⟩ =
              (c, s) :: Candidates.finite ⟨entries, (List.nodup_cons.1 h).2⟩ :=
            List.filterMap_cons_some (if_pos hs)
          rw [heq]
          exact hrest.cons_cons c
        · have heq : Candidates.finite ⟨(c, some s) :: entries, h⟩ =
              Candidates.finite ⟨entries, (List.nodup_cons.1 h).2⟩ :=
            List.filterMap_cons_none (if_neg hs)
          rw [heq]
          exact hrest.cons c
  exact (hsublist m.entries m.nodup).nodup m.nodup

lemma number_of_mem_finite [ComparedScalar α] {m : Candidates α} {e : Cell × α}
    (he : e ∈ m.finite) : e.2 ≤ e.2 := by
  obtain ⟨⟨c, s?⟩, -, hs⟩ := List.mem_filterMap.1 he
  cases s? with
  | none => cases hs
  | some s =>
    dsimp only at hs
    split_ifs at hs with hfinite
    obtain rfl := Option.some.inj hs
    exact ComparedScalar.number_of_finite hfinite

lemma showsTop_of_countsBy [ComparedScalar α] {size : α → ℕ}
    (hcounts : CountsBy p.candidates.finite.length size)
    (hplaces : ∀ c ∈ p.candidates.cells, ∃ v : Vec α, Grid.place decimals c = .ok v) :
    p.ShowsTop decimals size := by
  have hranking : IsRanking p.candidates.finite (p.candidates.finite.mergeSort precedes) :=
    isRanking_mergeSort fun _ => number_of_mem_finite
  obtain ⟨pos, hpos⟩ : ∃ pos : Cell → Vec α,
      ∀ c ∈ p.candidates.cells, Grid.place decimals c = .ok (pos c) := by
    refine ⟨fun c => (Grid.place decimals c).toOption.getD Vec.zero, ?_⟩
    intro c hc
    obtain ⟨v, hv⟩ := hplaces c hc
    show Grid.place decimals c = .ok ((Grid.place decimals c).toOption.getD Vec.zero)
    rw [hv]
    rfl
  have hheatmap {part : α} (hlow : (0.0 : α) ≤ part) (hhigh : part ≤ 1.0) :=
    heatmap_eq hlow hhigh hpos (hcounts.count_eq hlow hhigh)
  have hzero : (0.0 : α) ≤ 1.0 := ComparedScalar.zero_le_one
  refine ⟨⟨_, pos, hranking, ?_, hpos, ?_⟩, ?_, ?_, ?_⟩
  · exact (hranking.perm.map Prod.fst).nodup_iff.2 (nodup_finite p.candidates)
  · intro part hlow hhigh
    refine ⟨hheatmap hlow hhigh, ?_⟩
    have hfalling := hranking.falling
    rw [← List.take_append_drop (size part) (p.candidates.finite.mergeSort precedes),
      List.pairwise_append] at hfalling
    exact hfalling.2.2
  · intro part part' hlow hle hhigh
    refine ⟨_, _, hheatmap hlow (OrderedScalar.le_trans _ _ _ hle hhigh),
      hheatmap (OrderedScalar.le_trans _ _ _ hlow hle) hhigh, ?_⟩
    exact (List.take_prefix_take_left (hcounts.mono hlow hle hhigh)).map _
  · intro part hlow hhigh
    rw [hheatmap hlow (OrderedScalar.le_trans _ _ _ hhigh hzero), hcounts.none_of_le hlow hhigh]
    rfl
  · intro part hlow hhigh
    refine ⟨_, hheatmap (OrderedScalar.le_trans _ _ _ hzero hlow) hhigh, ?_⟩
    rw [hcounts.all_of_le hlow hhigh, List.length_map, List.length_take, hranking.perm.length_eq,
      Nat.min_self]

/-- A cell without a position is found out before anything is left out. -/
lemma heatmap_error {part : α} (hlow : (0.0 : α) ≤ part) (hhigh : part ≤ 1.0)
    (hcell : ∃ c ∈ p.candidates.cells, ∀ v : Vec α, Grid.place decimals c ≠ .ok v) :
    ∃ fault, p.heatmap decimals part = .error fault := by
  rw [exists_error_iff]
  rintro ⟨top, htop⟩
  unfold Point.heatmap at htop
  rw [if_pos ⟨hlow, hhigh⟩] at htop
  obtain ⟨proposals, hproposals, -⟩ := bind_eq_ok.1 htop
  obtain ⟨c, hc, hnone⟩ := hcell
  obtain ⟨e, he, rfl⟩ := List.mem_map.1 hc
  obtain ⟨v, hv⟩ := exists_mapM_iff.1 ⟨proposals, hproposals⟩ e he
  obtain ⟨v', hv', -⟩ := bind_eq_ok.1 hv
  exact hnone v' hv'

end

/-- A heatmap shows the best part of the cells that are scored, best first, and the same ranking for
every part. For floating point numbers every cell must have a position, and the cells must be few
enough to be counted exactly; if a cell has no position, there is no heatmap. In exact arithmetic
the part is rounded upwards to whole cells. -/
theorem heatmap_shows_top {α : Type} [FieldScalar α] [FloorRing α] [ExactScalar α] (decimals : ℕ) :
    (∀ p : Point Float, p.candidates.finite.length ≤ 2 ^ 53 →
      (∀ c ∈ p.candidates.cells, ∃ v : Vec Float, Grid.place decimals c = .ok v) →
        ∃ size, p.ShowsTop decimals size) ∧
    (∀ p : Point Float,
      (∃ c ∈ p.candidates.cells, ∀ v : Vec Float, Grid.place decimals c ≠ .ok v) →
        ∀ part, 0.0 ≤ part → part ≤ 1.0 → ∃ fault, p.heatmap decimals part = .error fault) ∧
    ∀ p : Point α, p.ShowsTop decimals fun part => ⌈part * p.candidates.finite.length⌉₊ := by
  refine ⟨?_, ?_, ?_⟩
  · intro p hfew hplaces
    obtain ⟨size, hsize⟩ := exists_countsBy_float hfew
    exact ⟨size, showsTop_of_countsBy hsize hplaces⟩
  · intro p hcell part hlow hhigh
    exact heatmap_error hlow hhigh hcell
  · intro p
    refine showsTop_of_countsBy (countsBy_exact _) ?_
    intro c _
    exact ⟨_, Grid.place_exact decimals c⟩

/-- A point at the origin with scored cells. -/
def scoredAt {α : Type} [Scalar α] (entries : List (Cell × Option α)) : Point α :=
  { unvisited "A" (fun _ _ => .ok 0.0) Vec.zero with candidates := .ofEntries entries }

/-- Two cells of one score, one that is worse, one that is degenerate and one that is not
evaluated. -/
def fiveCells {α : Type} [Scalar α] : Point α :=
  scoredAt [(⟨0, 0⟩, some 1.0), (⟨1, 0⟩, some Scalar.lowest), (⟨2, 0⟩, some 2.0), (⟨3, 0⟩, none),
    (⟨4, 0⟩, some 2.0)]

theorem heatmap_shows_top_five_cells :
    (∃ size, (fiveCells : Point Float).ShowsTop 2 size) ∧
      (fiveCells : Point Exact).ShowsTop 2
        fun part => ⌈part * (fiveCells : Point Exact).candidates.finite.length⌉₊ := by
  obtain ⟨hfloat, -, hexact⟩ := heatmap_shows_top (α := Exact) 2
  have hfew : (fiveCells : Point Float).candidates.finite.length ≤ 2 ^ 53 := by decide +kernel
  have hplaces : ∀ c ∈ (fiveCells : Point Float).candidates.cells,
      (Grid.place 2 c : Except (Fault Float) (Vec Float)).toOption.isSome = true := by
    decide +kernel
  refine ⟨hfloat fiveCells hfew ?_, hexact fiveCells⟩
  intro c hc
  obtain ⟨v, hv⟩ := Option.isSome_iff_exists.1 (hplaces c hc)
  exact ⟨v, eq_ok_of_toOption hv⟩

/-- A cell as far as `10 ^ 400` has no position, and the heatmap of no part of a cloud with it can
be shown. Of more cells than are counted exactly, one is shown for no part. -/
theorem heatmap_far_cell :
    (¬ ∀ (p : Point Float) (part : Float), 0.0 ≤ part → part ≤ 0.0 →
      p.heatmap 2 part = .ok []) ∧
    Heatmap.count (2 ^ 53 + 1) (0.0 : Float) = .ok 1 := by
  refine ⟨?_, eq_ok_of_toOption (by decide +kernel)⟩
  intro hall
  have hshown := hall (scoredAt [(⟨10 ^ 400, 0⟩, some 1.0)]) 0.0 (by decide +kernel)
    (by decide +kernel)
  have hnone : ((scoredAt [(⟨10 ^ 400, 0⟩, some (1.0 : Float))]).heatmap 2 0.0).toOption.isNone =
      true := by decide +kernel
  rw [hshown] at hnone
  exact Bool.false_ne_true hnone

end Point
end PointRelaxation
