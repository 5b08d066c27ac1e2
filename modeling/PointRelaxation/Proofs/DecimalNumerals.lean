import Mathlib.Data.List.DropRight
import PointRelaxation.Proofs.Binary64Arithmetic
import PointRelaxation.Proofs.Digits
import PointRelaxation.Proofs.PictureText
import PointRelaxation.Text.Numeral

/-!
# Reading decimal numerals

A whole number of the least units that a fixed number of places can tell is written as its whole
part, a point and its low digits. Dropping the zeros at the end, and the point if nothing else is
left behind it, takes nothing away from what is read.

* `Text.readDecimal?`: the rational number that a decimal numeral writes.
* `Text.dropTrailing_append_cons`: what is dropped at the end of a text ends at the point.
* `Text.written`: a count of least units without trailing zeros, and without a sign on zero.
* `Text.readDecimal?_written`: it reads as what was counted.
-/

namespace PointRelaxation.Text

/-- Whether a text is the end of a numeral: nothing, or a point and digits. -/
def isFraction : List Char → Bool
  | [] => true
  | c :: part => c == '.' && !part.isEmpty && part.all Char.isDigit

/-- Reads a decimal numeral: perhaps a sign, digits, and perhaps a point with digits behind it. -/
def readDecimal? (text : List Char) : Option ℚ :=
  let (negative, cs) := splitSign text
  let whole := cs.takeWhile Char.isDigit
  let rest := cs.dropWhile Char.isDigit
  let part := rest.drop 1
  if whole.isEmpty || !isFraction rest then none
  else some (signed negative (Nat.ofDigitChars 10 (whole ++ part) 0 / 10 ^ part.length))

/-! ## What is dropped at the end -/

lemma dropTrailing_concat (c d : Char) (cs : List Char) :
    dropTrailing c (cs ++ [d]) = if d = c then dropTrailing c cs else cs ++ [d] := by
  refine (List.rdropWhile_concat (· == c) cs d).trans ?_
  simp only [beq_iff_eq]
  rfl

/-- Another character keeps what stands in front of it. -/
lemma dropTrailing_append_cons {c d : Char} (h : d ≠ c) (before after : List Char) :
    dropTrailing c (before ++ d :: after) = before ++ d :: dropTrailing c after := by
  induction after using List.reverseRecOn with
  | nil => exact (dropTrailing_concat c d before).trans (if_neg h)
  | append_singleton after e ih =>
    have hassoc : before ++ d :: (after ++ [e]) = (before ++ d :: after) ++ [e] := by simp
    rw [hassoc, dropTrailing_concat, dropTrailing_concat, ih]
    split_ifs
    · rfl
    · simp

lemma dropTrailing_of_getLast? {c : Char} {cs : List Char} (h : cs.getLast? ≠ some c) :
    dropTrailing c cs = cs := by
  refine List.rdropWhile_eq_self_iff.2 fun hne hlast => h ?_
  rw [List.getLast?_eq_some_getLast hne, eq_of_beq hlast]

lemma getLast?_dropTrailing (c : Char) (cs : List Char) :
    (dropTrailing c cs).getLast? ≠ some c := by
  intro h
  have hne : dropTrailing c cs ≠ [] := by
    intro hnil
    rw [hnil] at h
    cases h
  have hlast : (dropTrailing c cs).getLast hne = c :=
    (List.getLast_eq_iff_getLast?_eq_some hne).2 h
  exact List.rdropWhile_last_not (· == c) cs hne (beq_iff_eq.2 hlast)

/-- What is dropped is a run of one character. -/
lemma exists_append_dropTrailing (c : Char) (cs : List Char) :
    ∃ j, cs = dropTrailing c cs ++ List.replicate j c := by
  have hrun : ∀ d ∈ cs.rtakeWhile (· == c), d = c := fun d hd =>
    beq_iff_eq.1 (List.mem_rtakeWhile_imp (p := (· == c)) hd)
  refine ⟨(cs.rtakeWhile (· == c)).length, ?_⟩
  rw [← List.eq_replicate_of_mem hrun]
  exact List.rdropWhile_append_rtakeWhile.symm

lemma isDigit_of_mem_kept {k n : ℕ} {c : Char} (h : c ∈ dropTrailing '0' (lowDigits k n)) :
    c.isDigit :=
  isDigit_of_mem_lowDigits (Picture.mem_of_mem_dropTrailing h)

/-! ## Reading -/

lemma splitSign_minus (negative : Bool) {c : Char} (h : c.isDigit) (cs : List Char) :
    splitSign (minus negative ++ c :: cs) = (negative, c :: cs) := by
  cases negative with
  | true => rfl
  | false =>
    show splitSign (c :: cs) = (false, c :: cs)
    unfold splitSign
    split
    · rename_i heq
      rw [(List.cons.inj heq).1] at h
      cases h
    · rename_i heq
      rw [(List.cons.inj heq).1] at h
      cases h
    · rfl

lemma isFraction_fraction {part : List Char} (h : ∀ c ∈ part, c.isDigit) :
    isFraction (Layout.fraction [] part) := by
  cases part with
  | nil => rfl
  | cons c part => exact List.all_eq_true.2 h

lemma drop_fraction (part : List Char) : (Layout.fraction [] part).drop 1 = part := by
  cases part with
  | nil => rfl
  | cons c part => rfl

/-- The digits of the whole part end where the fraction begins. -/
lemma span_whole {whole : List Char} (h : ∀ c ∈ whole, c.isDigit) (part : List Char) :
    (whole ++ Layout.fraction [] part).takeWhile Char.isDigit = whole ∧
      (whole ++ Layout.fraction [] part).dropWhile Char.isDigit = Layout.fraction [] part := by
  rw [List.takeWhile_append_of_pos h, List.dropWhile_append_of_pos h]
  cases part with
  | nil => exact ⟨List.append_nil whole, rfl⟩
  | cons c part => exact ⟨List.append_nil whole, rfl⟩

/-- A numeral is read by its parts. -/
lemma readDecimal?_of_parts (negative : Bool) {whole part : List Char} (hne : whole ≠ [])
    (hwhole : ∀ c ∈ whole, c.isDigit) (hpart : ∀ c ∈ part, c.isDigit) :
    readDecimal? (minus negative ++ whole ++ Layout.fraction [] part) =
      some (signed negative (Nat.ofDigitChars 10 (whole ++ part) 0 / 10 ^ part.length)) := by
  have hsign : splitSign (minus negative ++ whole ++ Layout.fraction [] part) =
      (negative, whole ++ Layout.fraction [] part) := by
    obtain ⟨c, cs, rfl⟩ := List.exists_cons_of_ne_nil hne
    rw [List.append_assoc]
    exact splitSign_minus negative (hwhole c (.head cs)) _
  obtain ⟨htake, hdrop⟩ := span_whole hwhole part
  unfold readDecimal?
  rw [hsign]
  dsimp only
  rw [htake, hdrop, drop_fraction, isFraction_fraction hpart, List.isEmpty_eq_false_iff.2 hne]
  rfl

/-! ## Counts of least units -/

/-- A count of the least units that a number of places can tell, without trailing zeros, without a
point that nothing follows, and without a sign on zero. -/
def written (places : ℕ) (negative : Bool) (n : ℕ) : List Char :=
  minus (negative && n != 0) ++ digits (n / 10 ^ places) ++
    Layout.fraction [] (dropTrailing '0' (lowDigits places n))

/-- With its trailing zeros a count is its whole part and its low digits. Each zero that is dropped
makes it a tenth, and the places behind the point one less. -/
lemma quotient_kept (places n : ℕ) :
    (Nat.ofDigitChars 10 (digits (n / 10 ^ places) ++ dropTrailing '0' (lowDigits places n)) 0 : ℚ) /
      10 ^ (dropTrailing '0' (lowDigits places n)).length = n / 10 ^ places := by
  obtain ⟨j, hj⟩ := exists_append_dropTrailing '0' (lowDigits places n)
  have hall : Nat.ofDigitChars 10 (digits (n / 10 ^ places) ++ lowDigits places n) 0 = n := by
    rw [Nat.ofDigitChars_append, ofDigitChars_digits, ofDigitChars_lowDigits]
    exact Nat.div_add_mod n (10 ^ places)
  have hlength : places = (dropTrailing '0' (lowDigits places n)).length + j := by
    have hsum := congrArg List.length hj
    rwa [length_lowDigits, List.length_append, List.length_replicate] at hsum
  have hpow : (10 : ℚ) ^ places = 10 ^ (dropTrailing '0' (lowDigits places n)).length * 10 ^ j := by
    rw [← pow_add, ← hlength]
  -- the zeros that are dropped are a power of ten in the count as in the unit
  rw [hj, ← List.append_assoc, Nat.ofDigitChars_append, ofDigitChars_zeros] at hall
  have hcount : (n : ℚ) = 10 ^ j * (Nat.ofDigitChars 10
      (digits (n / 10 ^ places) ++ dropTrailing '0' (lowDigits places n)) 0 : ℕ) := by
    exact_mod_cast hall.symm
  rw [hpow, hcount, mul_comm, mul_div_mul_right _ _ (pow_ne_zero j (by norm_num))]

/-- A count that is written reads as that count. -/
lemma readDecimal?_written (places : ℕ) (negative : Bool) (n : ℕ) :
    readDecimal? (written places negative n) = some (signed negative (n / 10 ^ places)) := by
  unfold written
  rw [readDecimal?_of_parts _ (digits_ne_nil _) (fun _ => isDigit_of_mem_digits)
    (fun _ => isDigit_of_mem_kept), quotient_kept]
  rcases eq_or_ne n 0 with rfl | hn
  · simp
  · rw [bne_iff_ne.2 hn, Bool.and_true]

end PointRelaxation.Text
