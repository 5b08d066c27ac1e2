import PointRelaxation.Proofs.DecimalNumerals
import PointRelaxation.Proofs.NearestEven

/-!
# Compact numbers are a canonical form

The numbers of a picture have at most four places. What is written is the nearest of the numbers
that four places can tell, a half to the even one, and of all its numerals the one that nothing can
be left out of. So two numbers are told apart exactly if they round apart, and the cells of a grid
of at most four decimals always are.

* `roundTo`: the nearest number of so many places, a half to the even one.
* `Picture.IsCompact`: a numeral of at most four places with nothing to leave out.
* `Picture.compact_eq_written`: what is dropped from a numeral of four places.
* `Picture.exists_shown_cell`: the position of a cell near the origin shows that cell.
-/

namespace PointRelaxation

/-! ## Rounding to a count of places -/

/-- The nearest number of a count of places, a half to the even neighbour. -/
def roundTo (places : ℕ) (q : ℚ) : ℚ := nearestEven (q * 10 ^ places) / 10 ^ places

lemma roundTo_signed (places : ℕ) (negative : Bool) (q : ℚ) :
    roundTo places (signed negative q) = signed negative (roundTo places q) := by
  cases negative with
  | false => rfl
  | true =>
    change roundTo places (-q) = -roundTo places q
    unfold roundTo
    rw [neg_mul, (isNearestEven_nearestEven _).neg.eq, Int.cast_neg, neg_div]

lemma roundTo_ratio (places : ℕ) (negative : Bool) (num : ℕ) {den : ℕ} (hden : 0 < den) :
    roundTo places (signed negative (num / den)) =
      signed negative ((roundHalfEven (num * 10 ^ places) den : ℕ) / 10 ^ places) := by
  have hscaled : (num : ℚ) / den * 10 ^ places = ((num * 10 ^ places : ℕ) : ℚ) / den := by
    push_cast
    ring
  rw [roundTo_signed, roundTo, hscaled, nearestEven_ratio _ hden, Int.cast_natCast]

/-- What lies less than half a unit of the last place from a number of that many places is rounded
to it. -/
lemma roundTo_of_near {places : ℕ} {q r : ℚ} {n : ℤ} (hr : r * 10 ^ places = n)
    (hnear : |q - r| * 10 ^ places < 1 / 2) : roundTo places q = r := by
  have hpos : (0 : ℚ) < 10 ^ places := by positivity
  have hdist : |q * 10 ^ places - n| < 1 / 2 := by
    rw [← hr, ← sub_mul, abs_mul, abs_of_pos hpos]
    exact hnear
  rw [roundTo, (isNearestEven_of_near hdist).eq, ← hr, mul_div_cancel_right₀ r hpos.ne']

/-- A number of that many places is not changed. -/
lemma roundTo_eq_self {places : ℕ} {r : ℚ} {n : ℤ} (hr : r * 10 ^ places = n) :
    roundTo places r = r := by
  refine roundTo_of_near hr ?_
  rw [sub_self, abs_zero, zero_mul]
  norm_num

lemma signed_neg_iff (negative : Bool) {q : ℚ} (hq : 0 ≤ q) :
    signed negative q < 0 ↔ negative = true ∧ q ≠ 0 := by
  unfold signed
  split_ifs with hnegative
  · rw [neg_lt_zero, hq.lt_iff_ne']
    exact (and_iff_right hnegative).symm
  · exact iff_of_false (not_lt.2 hq) fun h => hnegative h.1

/-! ## Numerals with nothing to leave out -/

namespace Text

variable {places : ℕ} {negative negative' : Bool} {n n' : ℕ}

/-- What is written depends on what a count stands for, and behind the point on the count itself. -/
lemma written_eq (places : ℕ) (negative : Bool) (n : ℕ) :
    written places negative n =
      minus (signed negative ((n : ℚ) / 10 ^ places) < 0) ++
        digits ⌊|signed negative ((n : ℚ) / 10 ^ places)|⌋₊ ++
        Layout.fraction [] (dropTrailing '0' (lowDigits places n)) := by
  have hnonneg : (0 : ℚ) ≤ n / 10 ^ places := by positivity
  have hfloor : ⌊(n : ℚ) / 10 ^ places⌋₊ = n / 10 ^ places := by
    rw [← Nat.floor_div_eq_div (K := ℚ)]
    push_cast
    rfl
  have hsign : (decide (signed negative ((n : ℚ) / 10 ^ places) < 0)) = (negative && n != 0) := by
    rw [Bool.eq_iff_iff, decide_eq_true_iff, signed_neg_iff _ hnonneg]
    simp
  rw [abs_signed _ hnonneg, hfloor, hsign]
  rfl

/-- Counts that stand for the same are written the same: a zero has no sign. -/
lemma written_congr (h : signed negative ((n : ℚ) / 10 ^ places) =
    signed negative' (n' / 10 ^ places)) :
    written places negative n = written places negative' n' := by
  have hpow : (10 : ℚ) ^ places ≠ 0 := by positivity
  have habs := congrArg abs h
  rw [abs_signed _ (by positivity), abs_signed _ (by positivity), div_left_inj' hpow] at habs
  obtain rfl : n = n' := by exact_mod_cast habs
  rw [written_eq, written_eq, h]

/-- Zero is written without a sign. -/
lemma written_ne_minus_zero (places : ℕ) (negative : Bool) (n : ℕ) :
    written places negative n ≠ ['-', '0'] := by
  intro htext
  have hread := readDecimal?_written places negative n
  have hzero : readDecimal? ['-', '0'] = some 0 := by decide +kernel
  rw [htext, hzero] at hread
  -- so what is written stands for zero, which is written as a digit
  have hplain : written places negative n = written places false 0 := by
    refine written_congr ((Option.some.inj hread).symm.trans ?_)
    rw [Nat.cast_zero, zero_div, signed_zero]
  rw [htext, written, Nat.zero_div] at hplain
  exact absurd (List.cons.inj hplain).1 (by decide)

/-- A point and digits behind it, or nothing at all. -/
lemma fraction_eq (part : List Char) :
    Layout.fraction [] part = [] ∧ part = [] ∨
      Layout.fraction [] part = '.' :: part ∧ part ≠ [] := by
  cases part with
  | nil => exact .inl ⟨rfl, rfl⟩
  | cons c part => exact .inr ⟨rfl, List.cons_ne_nil c part⟩

end Text

namespace Picture

open Text

/-- A numeral of at most four places with nothing to leave out. -/
structure IsCompact (text : List Char) (r : ℚ) : Prop where
  reads : readDecimal? text = some r
  /-- All digits of the whole part are there, and a sign if it is needed. -/
  parts : ∃ part, part.length ≤ 4 ∧
    text = minus (r < 0) ++ digits ⌊|r|⌋₊ ++ Layout.fraction [] part
  no_trailing_zero : '.' ∈ text → text.getLast? ≠ some '0'
  no_trailing_point : text.getLast? ≠ some '.'
  no_minus_zero : text ≠ ['-', '0']

lemma getLast?_append_fraction {whole part : List Char} {c : Char}
    (h : (whole ++ Layout.fraction [] part).getLast? = some c) :
    part = [] ∧ whole.getLast? = some c ∨ part ≠ [] ∧ part.getLast? = some c := by
  rcases fraction_eq part with ⟨htext, hpart⟩ | ⟨htext, hpart⟩
  · rw [htext, List.append_nil] at h
    exact .inl ⟨hpart, h⟩
  · rw [htext, List.getLast?_append_of_ne_nil _ (List.cons_ne_nil _ _),
      List.getLast?_cons_of_ne_nil hpart] at h
    exact .inr ⟨hpart, h⟩

/-- The whole part ends in a digit. -/
lemma isDigit_of_getLast? {before : List Char} {n : ℕ} {c : Char}
    (h : (before ++ digits n).getLast? = some c) : c.isDigit := by
  rw [List.getLast?_append_of_ne_nil _ (digits_ne_nil n)] at h
  exact isDigit_of_mem_digits (List.mem_of_getLast? h)

lemma point_not_mem (negative : Bool) (n : ℕ) : '.' ∉ minus negative ++ digits n := by
  intro hmem
  rcases List.mem_append.1 hmem with hminus | hdigits
  · cases negative <;> simp [minus] at hminus
  · exact absurd (isDigit_of_mem_digits hdigits) (by decide)

lemma isCompact_written (negative : Bool) (n : ℕ) :
    IsCompact (written 4 negative n) (signed negative (n / 10 ^ 4)) := by
  have hlast {c : Char} (h : (written 4 negative n).getLast? = some c) : c.isDigit := by
    rcases getLast?_append_fraction h with ⟨-, hwhole⟩ | ⟨-, hpart⟩
    · exact isDigit_of_getLast? hwhole
    · exact isDigit_of_mem_kept (List.mem_of_getLast? hpart)
  constructor
  case reads => exact readDecimal?_written 4 negative n
  case parts =>
    refine ⟨dropTrailing '0' (lowDigits 4 n), ?_, written_eq 4 negative n⟩
    obtain ⟨j, hj⟩ := exists_append_dropTrailing '0' (lowDigits 4 n)
    have hlength := congrArg List.length hj
    rw [length_lowDigits, List.length_append] at hlength
    omega
  case no_trailing_zero =>
    intro hpoint hzero
    rcases getLast?_append_fraction hzero with ⟨hpart, -⟩ | ⟨-, hpart⟩
    · rw [written, hpart] at hpoint
      simp only [Layout.fraction, List.isEmpty_nil, if_true, List.append_nil] at hpoint
      exact point_not_mem _ _ hpoint
    · exact getLast?_dropTrailing '0' _ hpart
  case no_trailing_point => exact fun h => absurd (hlast h) (by decide)
  case no_minus_zero => exact written_ne_minus_zero 4 negative n

/-! ## What is dropped -/

/-- Behind a digit a point is dropped if no digits are left behind it. -/
lemma dropTrailing_point {whole part : List Char} (hwhole : whole.getLast? ≠ some '.')
    (hpart : ∀ c ∈ part, c.isDigit) :
    dropTrailing '.' (whole ++ '.' :: part) = whole ++ Layout.fraction [] part := by
  rcases fraction_eq part with ⟨htext, rfl⟩ | ⟨htext, hne⟩
  · rw [dropTrailing_concat, if_pos rfl, dropTrailing_of_getLast? hwhole, htext, List.append_nil]
  · rw [htext]
    refine dropTrailing_of_getLast? fun hpoint => ?_
    rw [List.getLast?_append_of_ne_nil _ (List.cons_ne_nil _ _),
      List.getLast?_cons_of_ne_nil hne] at hpoint
    exact absurd (hpart '.' (List.mem_of_getLast? hpoint)) (by decide)

/-- What is left of a count of least units with all its places. -/
lemma dropTrailing_fixed (negative : Bool) {places : ℕ} (hplaces : places ≠ 0) (num den : ℕ) :
    dropTrailing '.' (dropTrailing '0' (fixed places negative num den)) =
      minus negative ++ digits (roundHalfEven (num * 10 ^ places) den / 10 ^ places) ++
        Layout.fraction []
          (dropTrailing '0' (lowDigits places (roundHalfEven (num * 10 ^ places) den))) := by
  unfold fixed
  simp only [if_neg hplaces, Nat.pow_eq]
  generalize roundHalfEven (num * 10 ^ places) den = n
  have hpoint : (minus negative ++ digits (n / 10 ^ places)).getLast? ≠ some '.' :=
    fun h => absurd (isDigit_of_getLast? h) (by decide)
  rw [dropTrailing_append_cons (by decide), dropTrailing_point hpoint fun _ => isDigit_of_mem_kept]

/-- A compact number is a count of least units, written without what can be left out. -/
lemma compact_eq_written (negative : Bool) (num den : ℕ) :
    compact negative num den = written 4 negative (roundHalfEven (num * 10 ^ 4) den) := by
  unfold compact
  simp only [dropTrailing_fixed negative four_ne_zero]
  generalize roundHalfEven (num * 10 ^ 4) den = n
  rcases Nat.eq_zero_or_pos n with rfl | hn
  · cases negative <;> decide
  · -- anything but zero keeps its sign, and is never the text that is replaced
    have hsign : minus negative ++ digits (n / 10 ^ 4) ++
        Layout.fraction [] (dropTrailing '0' (lowDigits 4 n)) = written 4 negative n := by
      rw [written, bne_iff_ne.2 hn.ne', Bool.and_true]
    rw [hsign, if_neg (written_ne_minus_zero 4 negative n)]

/-! ## Rational numbers -/

lemma isCompact_compact (negative : Bool) (num : ℕ) {den : ℕ} (hden : 0 < den) :
    IsCompact (compact negative num den) (roundTo 4 (signed negative (num / den))) := by
  rw [compact_eq_written, roundTo_ratio 4 negative num hden]
  exact isCompact_written negative _

/-- Two numbers have one text exactly if they are rounded to one number. -/
lemma compact_eq_iff (negative negative' : Bool) (num num' : ℕ) {den den' : ℕ} (hden : 0 < den)
    (hden' : 0 < den') :
    compact negative num den = compact negative' num' den' ↔
      roundTo 4 (signed negative (num / den)) = roundTo 4 (signed negative' (num' / den')) := by
  constructor
  · intro htext
    have hread := (isCompact_compact negative num hden).reads
    rw [htext, (isCompact_compact negative' num' hden').reads] at hread
    exact (Option.some.inj hread).symm
  · intro hround
    rw [roundTo_ratio 4 negative num hden, roundTo_ratio 4 negative' num' hden'] at hround
    rw [compact_eq_written, compact_eq_written]
    exact written_congr hround

/-- The text of a rational number. -/
def ofRat (q : ℚ) : List Char := compact (q.num < 0) q.num.natAbs q.den

lemma signed_num (q : ℚ) : signed (decide (q.num < 0)) ((q.num.natAbs : ℚ) / q.den) = q := by
  rw [← Binary64.ratio_eq_signed]
  exact Rat.num_div_den q

/-- With at most four decimals the coordinates of a grid are numbers of four places. -/
lemma exists_units (k : ℤ) {d : ℤ} (hd : d ≤ 4) : ∃ n : ℤ, (k : ℚ) / 10 ^ d * 10 ^ 4 = n := by
  obtain ⟨j, hj⟩ := Int.eq_ofNat_of_zero_le (sub_nonneg.2 hd)
  refine ⟨k * 10 ^ j, ?_⟩
  have hten : (10 : ℚ) ^ 4 = 10 ^ d * 10 ^ j := by
    rw [← zpow_natCast, ← zpow_natCast, ← zpow_add₀ (by norm_num), ← hj]
    norm_num
  rw [hten]
  push_cast
  field_simp

lemma isCompact_ofRat (q : ℚ) : IsCompact (ofRat q) (roundTo 4 q) := by
  have h := isCompact_compact (decide (q.num < 0)) q.num.natAbs q.den_pos
  rwa [signed_num] at h

lemma ofRat_eq_iff (p q : ℚ) : ofRat p = ofRat q ↔ roundTo 4 p = roundTo 4 q := by
  have h := compact_eq_iff (decide (p.num < 0)) (decide (q.num < 0)) p.num.natAbs q.num.natAbs
    p.den_pos q.den_pos
  rwa [signed_num, signed_num] at h

lemma isCompact_grid (k : ℤ) {d : ℤ} (hd : d ≤ 4) :
    IsCompact (ofRat (k / 10 ^ d)) (k / 10 ^ d) := by
  obtain ⟨n, hn⟩ := exists_units k hd
  have h := isCompact_ofRat (k / 10 ^ d)
  rwa [roundTo_eq_self hn] at h

lemma grid_eq_iff (k k' : ℤ) {d : ℤ} (hd : d ≤ 4) :
    ofRat (k / 10 ^ d) = ofRat (k' / 10 ^ d) ↔ k = k' := by
  obtain ⟨n, hn⟩ := exists_units k hd
  obtain ⟨n', hn'⟩ := exists_units k' hd
  have hpow : (10 : ℚ) ^ d ≠ 0 := by positivity
  rw [ofRat_eq_iff, roundTo_eq_self hn, roundTo_eq_self hn', div_left_inj' hpow, Int.cast_inj]

/-! ## Binary floating point numbers -/

lemma binaryRatio_spec (m : ℕ) (e : ℤ) :
    0 < (binaryRatio m e).2 ∧ ((binaryRatio m e).1 : ℚ) / (binaryRatio m e).2 = m * 2 ^ e := by
  unfold binaryRatio
  split_ifs with he
  · obtain ⟨k, rfl⟩ := Int.eq_ofNat_of_zero_le he
    refine ⟨one_pos, ?_⟩
    rw [Int.toNat_natCast, Nat.shiftLeft_eq, zpow_natCast]
    push_cast
    exact div_one _
  · obtain ⟨k, rfl⟩ : ∃ k : ℕ, e = -k := ⟨(-e).toNat, by omega⟩
    rw [neg_neg, Int.toNat_natCast, Nat.shiftLeft_eq, one_mul, zpow_neg, zpow_natCast]
    refine ⟨Nat.two_pow_pos k, ?_⟩
    push_cast
    exact div_eq_mul_inv _ _

/-- A number that is finite is written as the quotient that it stands for. -/
lemma exists_number_eq {x : Float} {q : ℚ}
    (h : Binary64.quantity? (Binary64.ofFloat x) = some q) :
    ∃ (negative : Bool) (num den : ℕ), 0 < den ∧ q = signed negative (num / den) ∧
      number x = String.ofList (compact negative num den) := by
  unfold number writeFloat
  rcases hx : Binary64.ofFloat x with _ | _ | ⟨negative, m, e⟩
  · rw [hx] at h
    cases h
  · rw [hx] at h
    cases h
  · rw [hx] at h
    obtain rfl := (Option.some.inj h).symm
    obtain ⟨hden, hvalue⟩ := binaryRatio_spec m e
    exact ⟨negative, _, _, hden, congrArg (signed negative) hvalue.symm, rfl⟩

lemma isCompact_number {x : Float} {q : ℚ}
    (h : Binary64.quantity? (Binary64.ofFloat x) = some q) :
    IsCompact (number x).toList (roundTo 4 q) := by
  obtain ⟨negative, num, den, hden, rfl, htext⟩ := exists_number_eq h
  rw [htext, String.toList_ofList]
  exact isCompact_compact negative num hden

lemma number_eq_iff {x y : Float} {p q : ℚ}
    (hx : Binary64.quantity? (Binary64.ofFloat x) = some p)
    (hy : Binary64.quantity? (Binary64.ofFloat y) = some q) :
    number x = number y ↔ roundTo 4 p = roundTo 4 q := by
  obtain ⟨negative, num, den, hden, rfl, htext⟩ := exists_number_eq hx
  obtain ⟨negative', num', den', hden', rfl, htext'⟩ := exists_number_eq hy
  rw [htext, htext', String.ofList_inj]
  exact compact_eq_iff negative negative' num num' hden hden'

/-- A coordinate below a hundred thousand million is so near to what it stands for that it is
rounded to that. -/
lemma exists_rounded_coordinate {d : ℕ} (hd : d ≤ 4) {k : ℤ} (hk : |k| ≤ 10 ^ (d + 11)) :
    ∃ (x : Float) (q : ℚ), Grid.coordinate d k = .ok x ∧
      Binary64.quantity? (Binary64.ofFloat x) = some q ∧ roundTo 4 q = k / 10 ^ (d : ℤ) := by
  have hk' : |(k : ℚ)| ≤ 10 ^ (d + 11) := by
    rw [← Int.cast_abs]
    exact_mod_cast hk
  have hsmall : |(k : ℚ)| ≤ 2 ^ 50 := by
    refine hk'.trans (le_trans (pow_le_pow_right₀ (by norm_num) (by omega : d + 11 ≤ 15)) ?_)
    norm_num
  obtain ⟨x, q, hx, hq, hrounds⟩ := Grid.coordinate_rounds (α := Float) (by omega : d ≤ 22) hsmall
  obtain ⟨n, hn⟩ := exists_units k (by exact_mod_cast hd : (d : ℤ) ≤ 4)
  refine ⟨x, q, hx, hq, roundTo_of_near hn ?_⟩
  have hlength : |(k : ℚ) / (10 ^ d : ℕ)| ≤ 10 ^ 11 := by
    have hpos : (0 : ℚ) < (10 ^ d : ℕ) := by positivity
    rw [abs_div, abs_of_pos hpos, div_le_iff₀ hpos]
    refine hk'.trans_eq ?_
    push_cast
    rw [pow_add, mul_comm]
  have herror := hrounds.abs_sub_le hlength
  push_cast at herror
  rw [zpow_natCast]
  -- an error of one part in `2 ^ 53` is less than half of a ten-thousandth
  calc |q - k / 10 ^ d| * 10 ^ 4 ≤ 10 ^ 11 * roundoff * 10 ^ 4 := by gcongr
    _ < 1 / 2 := by norm_num [roundoff]

lemma toList_position (v : Vec Float) :
    (position v).toList =
      '(' :: ((number v.x).toList ++ ',' :: ' ' :: ((number v.y).toList ++ [')'])) := by
  unfold position
  simp only [String.toList_append, List.append_assoc]
  rfl

/-- The comma tells where the first number of a position ends. -/
lemma position_eq_iff (v v' : Vec Float) :
    position v = position v' ↔ number v.x = number v'.x ∧ number v.y = number v'.y := by
  have hcomma (x : Float) : ',' ∉ (number x).toList := not_mem_number (by decide) (by decide) x
  have hrest (x : Float) : ',' ∉ ' ' :: ((number x).toList ++ [')']) := by
    simp [hcomma x]
  rw [← String.toList_inj, toList_position, toList_position, List.cons_inj_right,
    List.append_cons_inj_of_notMem (hcomma v.x) (hrest v.y), List.cons_inj_right,
    List.append_left_inj, String.toList_inj, String.toList_inj]
  exact and_congr_right fun _ => and_iff_right rfl

/-- Cells with no coordinate of more than a hundred thousand million. -/
def IsNear (d : ℕ) (c : Cell) : Prop := |c.x| ≤ 10 ^ (d + 11) ∧ |c.y| ≤ 10 ^ (d + 11)

/-- The position `v` is written as the exact coordinates of the cell `c`. -/
structure Shows (d : ℕ) (v : Vec Float) (c : Cell) : Prop where
  x : IsCompact (number v.x).toList (c.x / 10 ^ (d : ℤ))
  y : IsCompact (number v.y).toList (c.y / 10 ^ (d : ℤ))

/-- Near the origin the position of a cell shows that cell. -/
lemma exists_shown_cell {d : ℕ} (hd : d ≤ 4) {c : Cell} (hc : IsNear d c) :
    ∃ v : Vec Float, Grid.place d c = .ok v ∧ Shows d v c := by
  obtain ⟨x, p, hx, hp, hround⟩ := exists_rounded_coordinate hd hc.1
  obtain ⟨y, q, hy, hq, hround'⟩ := exists_rounded_coordinate hd hc.2
  refine ⟨⟨x, y⟩, ?_, ?_⟩
  · unfold Grid.place
    rw [hx, hy]
    rfl
  · constructor
    · rw [← hround]
      exact isCompact_number hp
    · rw [← hround']
      exact isCompact_number hq

/-- A text shows one cell at most. -/
lemma Shows.unique {d : ℕ} {v v' : Vec Float} {c c' : Cell} (h : Shows d v c) (h' : Shows d v' c')
    (htext : position v = position v') : c = c' := by
  obtain ⟨hx, hy⟩ := (position_eq_iff v v').1 htext
  have hpow : (10 : ℚ) ^ (d : ℤ) ≠ 0 := by positivity
  have hcell {k k' : ℤ} {text : List Char} (hk : IsCompact text (k / 10 ^ (d : ℤ)))
      (hk' : IsCompact text (k' / 10 ^ (d : ℤ))) : k = k' := by
    have hvalue := Option.some.inj (hk.reads.symm.trans hk'.reads)
    rw [div_left_inj' hpow] at hvalue
    exact_mod_cast hvalue
  have hx' := h'.x
  have hy' := h'.y
  rw [← hx] at hx'
  rw [← hy] at hy'
  exact congrArg₂ Cell.mk (hcell h.x hx') (hcell h.y hy')

/-! ## The canonical form -/

/-- The texts of numbers are a canonical form of the numbers rounded to four places. Far from the
origin binary floating point numbers are too sparse to tell the cells of a grid, so the last part is
about cells near it. -/
theorem compact_canonical :
    -- what is read is the number rounded to four places, and nothing can be left out
    (∀ (negative : Bool) (num den : ℕ), 0 < den →
      IsCompact (compact negative num den) (roundTo 4 (signed negative (num / den)))) ∧
    (∀ (negative negative' : Bool) (num num' den den' : ℕ), 0 < den → 0 < den' →
      (compact negative num den = compact negative' num' den' ↔
        roundTo 4 (signed negative (num / den)) = roundTo 4 (signed negative' (num' / den')))) ∧
    -- so a grid of at most four decimals is shown as it is
    (∀ d : ℤ, d ≤ 4 → ∀ k k' : ℤ, IsCompact (ofRat (k / 10 ^ d)) (k / 10 ^ d) ∧
      (ofRat (k / 10 ^ d) = ofRat (k' / 10 ^ d) ↔ k = k')) ∧
    -- the numbers that programs run on are written by what they stand for
    (∀ (x : Float) (q : ℚ), Binary64.quantity? (Binary64.ofFloat x) = some q →
      IsCompact (number x).toList (roundTo 4 q)) ∧
    (∀ (x y : Float) (p q : ℚ), Binary64.quantity? (Binary64.ofFloat x) = some p →
      Binary64.quantity? (Binary64.ofFloat y) = some q →
        (number x = number y ↔ roundTo 4 p = roundTo 4 q)) ∧
    (∀ d : ℕ, d ≤ 4 → ∀ c c' : Cell, IsNear d c → IsNear d c' →
      ∃ v v' : Vec Float, Grid.place d c = .ok v ∧ Grid.place d c' = .ok v' ∧
        Shows d v c ∧ Shows d v' c' ∧ (position v = position v' ↔ c = c')) := by
  refine ⟨fun negative num den hden => isCompact_compact negative num hden,
    fun negative negative' num num' den den' hden hden' =>
      compact_eq_iff negative negative' num num' hden hden',
    fun d hd k k' => ⟨isCompact_grid k hd, grid_eq_iff k k' hd⟩,
    fun x q => isCompact_number, fun x y p q => number_eq_iff, ?_⟩
  intro d hd c c' hc hc'
  obtain ⟨v, hv, hshows⟩ := exists_shown_cell hd hc
  obtain ⟨v', hv', hshows'⟩ := exists_shown_cell hd hc'
  refine ⟨v, v', hv, hv', hshows, hshows', hshows.unique hshows', ?_⟩
  rintro rfl
  obtain rfl : v = v' := Except.ok.inj (hv.symm.trans hv')
  rfl

/-- A hundred keeps its zeros, half a unit of the last place below zero is written as zero, and the
cells of a grid of two decimals are told apart. -/
theorem compact_canonical_hundred :
    0 < 1 ∧ IsCompact (compact false 100 1) (roundTo 4 (signed false ((100 : ℕ) / (1 : ℕ)))) ∧
      compact false 100 1 = "100".toList ∧
    0 < 20000 ∧ compact true 1 20000 = compact false 0 1 ∧
    (2 : ℤ) ≤ 4 ∧ IsCompact (ofRat ((-25 : ℤ) / 10 ^ (2 : ℤ))) ((-25 : ℤ) / 10 ^ (2 : ℤ)) ∧
      ofRat ((-25 : ℤ) / 10 ^ (2 : ℤ)) ≠ ofRat ((-250 : ℤ) / 10 ^ (2 : ℤ)) ∧
    Binary64.quantity? (Binary64.ofFloat 0.5) = some (1 / 2) ∧
      IsCompact (number 0.5).toList (roundTo 4 (1 / 2)) ∧
    Binary64.quantity? (Binary64.ofFloat 0.25) = some (1 / 4) ∧ number 0.5 ≠ number 0.25 ∧
    IsNear 2 ⟨-25, 100⟩ ∧ IsNear 2 ⟨100, -25⟩ ∧
      ∃ v v' : Vec Float, Grid.place 2 ⟨-25, 100⟩ = .ok v ∧ Grid.place 2 ⟨100, -25⟩ = .ok v' ∧
        Shows 2 v ⟨-25, 100⟩ ∧ position v ≠ position v' := by
  obtain ⟨hcompact, hsame, hgrid, hnumber, hsame', hcells⟩ := compact_canonical
  have hhalf : Binary64.quantity? (Binary64.ofFloat 0.5) = some (1 / 2) := by decide +kernel
  have hquarter : Binary64.quantity? (Binary64.ofFloat 0.25) = some (1 / 4) := by decide +kernel
  have hnear : IsNear 2 ⟨-25, 100⟩ := ⟨by decide, by decide⟩
  have hnear' : IsNear 2 ⟨100, -25⟩ := ⟨by decide, by decide⟩
  obtain ⟨v, v', hv, hv', hshows, -, hposition⟩ := hcells 2 (by decide) _ _ hnear hnear'
  refine ⟨by decide, hcompact false 100 1 (by decide), by decide +kernel, by decide, ?_, by decide,
    (hgrid 2 (by decide) (-25) (-250)).1, ?_, hhalf, hnumber _ _ hhalf, hquarter, ?_, hnear, hnear',
    v, v', hv, hv', hshows, ?_⟩
  · exact (hsame true false 1 0 20000 1 (by decide) (by decide)).2 (by decide +kernel)
  · exact mt (hgrid 2 (by decide) (-25) (-250)).2.1 (by decide)
  · exact mt (hsame' _ _ _ _ hhalf hquarter).1 (by decide +kernel)
  · exact mt hposition.1 (by decide)

end Picture

end PointRelaxation
