import Mathlib.Algebra.Group.Action.Defs
import Mathlib.Algebra.Order.BigOperators.Group.List
import Mathlib.Data.Nat.Digits.Defs
import PointRelaxation.Log.Abridged

/-!
# How long abridged values are

A log line should hold no more than a limit of each value. Most values are cut at 300 characters.
Short dictionaries and long lists are not: four of their items are shown, each of them abridged for
itself, so that the text quadruples with every level on which they are nested.

* `Value.Plain`: values of numbers, texts, lists, tuples and dictionaries.
* `Value.openDepth`: how deep dictionaries and long lists are nested in what is shown.
* `Value.length_abridged_le`: what a value comes to, by that depth.
* `Value.pow_le_length_abridged_grid`: nested lists that come to as much, up to a factor.
* `abridged_lengths`: what a value and what a call come to.
* `abridged_unlimited`: there is no limit for all depths.
-/

namespace PointRelaxation

namespace Text

lemma length_commas_add {items : List String} (h : items ≠ []) :
    (commas items).length + 2 = (items.map (·.length + 2)).sum := by
  induction items with
  | nil => exact absurd rfl h
  | cons item items ih =>
    cases items with
    | nil => rfl
    | cons next items =>
      have hrest := ih (List.cons_ne_nil _ _)
      unfold commas at hrest ⊢
      rw [String.intercalate_cons_cons, String.length_append, String.length_append, List.map_cons,
        List.sum_cons, ← hrest]
      have hcomma : (", " : String).length = 2 := rfl
      omega

lemma length_commas_map_add {β : Type} {items : List β} (h : items ≠ []) (text : β → String) :
    (commas (items.map text)).length + 2 = (items.map fun b => (text b).length + 2).sum := by
  rw [length_commas_add (mt List.map_eq_nil_iff.1 h), List.map_map]
  rfl

lemma length_commas_le (items : List String) :
    (commas items).length ≤ (items.map (·.length + 2)).sum - 2 := by
  cases items with
  | nil => exact le_rfl
  | cons item items =>
    have hlength := length_commas_add (List.cons_ne_nil item items)
    omega

lemma length_enclosed {opening closing : String} (hopening : opening.length = 1)
    (hclosing : closing.length = 1) (s : String) :
    (opening ++ s ++ closing).length = s.length + 2 := by
  rw [String.length_append, String.length_append]
  omega

lemma length_listed (items : List String) : (listed items).length = (commas items).length + 2 :=
  length_enclosed rfl rfl _

lemma length_braced (items : List String) : (braced items).length = (commas items).length + 2 :=
  length_enclosed rfl rfl _

end Text

namespace Value

open Text (commas listed braced entry)

/-! ## Values -/

/-- Values of numbers, texts, lists, tuples and dictionaries, nested in any way. The keys of a
dictionary cannot be altered. What holds other values holds no more than a machine word counts. -/
inductive Plain : Value → Prop
  | absent : Plain .absent
  | truth (b : Bool) : Plain (.truth b)
  | int (n : ℤ) : Plain (.int n)
  | float (x : Float) : Plain (.float x)
  | text (s : String) : Plain (.text s)
  | list {items : List Value} (hcount : items.length < 2 ^ 63) (h : ∀ v ∈ items, Plain v) :
      Plain (.list items)
  | tuple {items : List Value} (hcount : items.length < 2 ^ 63) (h : ∀ v ∈ items, Plain v) :
      Plain (.tuple items)
  | dict {entries : List (Value × Value)} (hcount : entries.length < 2 ^ 63)
      (hfit : ∀ e ∈ entries, alterable? e.1 = none) (hkeys : ∀ e ∈ entries, Plain e.1)
      (h : ∀ e ∈ entries, Plain e.2) : Plain (.mapping "dict" entries)

/-- A value that is shown item by item. -/
def isOpen : Value → Bool
  | .list items => 4 < items.length
  | .mapping _ entries => entries.length ≤ 32
  | _ => false

mutual

/-- How deep values that are shown item by item are nested, in what is shown of a value. -/
def openDepth : Value → ℕ
  | .list items => if 4 < items.length then openDepthItems 4 items + 1 else 0
  | .mapping _ entries => if 32 < entries.length then 0 else openDepthEntries 4 entries + 1
  | _ => 0

def openDepthItems : ℕ → List Value → ℕ
  | 0, _ => 0
  | _, [] => 0
  | n + 1, v :: vs => max (openDepth v) (openDepthItems n vs)

def openDepthEntries : ℕ → List (Value × Value) → ℕ
  | 0, _ => 0
  | _, [] => 0
  | n + 1, (_, value) :: es => max (openDepth value) (openDepthEntries n es)

end

lemma openDepth_eq_zero_iff {v : Value} : openDepth v = 0 ↔ isOpen v = false := by
  cases v with
  | list items =>
    rw [openDepth, isOpen]
    split_ifs with h <;> simp [h]
  | mapping type entries =>
    rw [openDepth, isOpen]
    split_ifs with h <;> simp [Nat.not_le.2, h]
  | _ => simp [openDepth, isOpen]

/-! ## Limits -/

/-- How long a text of a depth can be. -/
def lengthLimit (depth : ℕ) : ℕ := 742 * 4 ^ depth - 427

lemma lengthLimit_succ (depth : ℕ) : lengthLimit (depth + 1) = 4 * lengthLimit depth + 1281 := by
  have hpos : 1 ≤ 4 ^ depth := Nat.one_le_pow _ _ (by decide)
  unfold lengthLimit
  rw [pow_succ]
  omega

lemma lengthLimit_mono {d d' : ℕ} (h : d ≤ d') : lengthLimit d ≤ lengthLimit d' :=
  Nat.sub_le_sub_right (Nat.mul_le_mul_left _ (Nat.pow_le_pow_right (by decide) h)) _

lemma length_cut_le (s : String) : (cut s).length ≤ lengthLimit 0 := by
  show _ ≤ 315
  unfold cut
  split_ifs with h
  · omega
  · rw [String.length_append, String.length_ofList, List.length_take]
    have hmark : "... (truncated)".length = 15 := rfl
    omega

/-- A count that fits into a machine word has at most nineteen digits. -/
lemma length_toString_le {n : ℕ} (h : n < 2 ^ 63) : (toString n).length ≤ 19 :=
  Nat.repr_length n 19 (by decide) (h.trans (by decide))

/-! ## What values come to -/

/-- The items of a list that are shown, with what separates them. -/
lemma sum_abridgedItems_le {items : List Value}
    (h : ∀ v ∈ items, (abridged v).length ≤ lengthLimit (openDepth v)) (n : ℕ) :
    ((abridgedItems n items).map (·.length + 2)).sum ≤
      n * (lengthLimit (openDepthItems n items) + 2) := by
  induction n generalizing items with
  | zero =>
    rw [abridgedItems]
    exact Nat.zero_le _
  | succ n ih =>
    cases items with
    | nil =>
      rw [abridgedItems]
      · exact Nat.zero_le _
      · nofun
    | cons v vs =>
      obtain ⟨hv, hvs⟩ := List.forall_mem_cons.1 h
      -- the deepest of the items limits them all
      have hhere := hv.trans (lengthLimit_mono (le_max_left _ (openDepthItems n vs)))
      have hthere := lengthLimit_mono (le_max_right (openDepth v) (openDepthItems n vs))
      have hrest := (ih hvs).trans (Nat.mul_le_mul_left n (Nat.add_le_add_right hthere 2))
      rw [abridgedItems, openDepthItems, List.map_cons, List.sum_cons, Nat.succ_mul]
      omega

/-- The entries of a dictionary that are shown, with what separates them. A key is no longer than
what is shown at one piece. -/
lemma sum_abridgedEntries_le {entries : List (Value × Value)}
    (hkeys : ∀ e ∈ entries, (abridged e.1).length ≤ 315)
    (h : ∀ e ∈ entries, (abridged e.2).length ≤ lengthLimit (openDepth e.2)) (n : ℕ) :
    ((abridgedEntries n entries).map (·.length + 2)).sum ≤
      n * (lengthLimit (openDepthEntries n entries) + 319) + 5 := by
  induction n generalizing entries with
  | zero =>
    cases entries with
    | nil =>
      rw [abridgedEntries]
      exact Nat.zero_le _
    | cons e es =>
      rw [abridgedEntries, Nat.zero_mul]
      · rfl
      · nofun
  | succ n ih =>
    cases entries with
    | nil =>
      rw [abridgedEntries]
      exact Nat.zero_le _
    | cons e es =>
      obtain ⟨hkey, hkeys⟩ := List.forall_mem_cons.1 hkeys
      obtain ⟨hvalue, hes⟩ := List.forall_mem_cons.1 h
      have hhere := hvalue.trans (lengthLimit_mono (le_max_left _ (openDepthEntries n es)))
      have hthere := lengthLimit_mono (le_max_right (openDepth e.2) (openDepthEntries n es))
      have hrest := (ih hkeys hes).trans
        (Nat.add_le_add_right (Nat.mul_le_mul_left n (Nat.add_le_add_right hthere 319)) 5)
      have hentry : (entry (abridged e.1) (abridged e.2)).length =
          (abridged e.1).length + 2 + (abridged e.2).length := by
        unfold entry
        rw [String.length_append, String.length_append]
        rfl
      rw [abridgedEntries, openDepthEntries, List.map_cons, List.sum_cons, Nat.succ_mul, hentry]
      omega

/-- A key is shown at one piece. -/
lemma openDepth_of_fit {v : Value} (h : alterable? v = none) : openDepth v = 0 := by
  cases v with
  | list items => cases h
  | mapping type entries => cases h
  | _ => rfl

/-- The most that a value comes to. What is cut is shorter, and what is counted, shorter still. -/
lemma length_abridged_le {v : Value} (h : v.Plain) :
    (abridged v).length ≤ lengthLimit (openDepth v) := by
  -- four items are shown of a list or a dictionary, each by its own text, and a mark behind them
  induction h with
  | @list items hcount _ ih =>
    rw [abridged, openDepth]
    split_ifs with hlong
    · have hsum := sum_abridgedItems_le ih 4
      have hcommas := Text.length_commas_le
        (abridgedItems 4 items ++ ["... (" ++ toString items.length ++ " items)"])
      have hmark : ("... (" ++ toString items.length ++ " items)").length ≤ 31 := by
        have hdigits := length_toString_le hcount
        rw [String.length_append, String.length_append]
        have hfront : "... (".length = 5 := rfl
        have hback : " items)".length = 7 := rfl
        omega
      rw [List.map_append, List.sum_append, List.map_singleton, List.sum_singleton] at hcommas
      rw [Text.length_listed, lengthLimit_succ]
      omega
    · exact length_cut_le _
  | @dict entries hcount hfit _ _ ihkeys ih =>
    have hkeys : ∀ e ∈ entries, (abridged e.1).length ≤ 315 := by
      intro e he
      have hkey := ihkeys e he
      rwa [openDepth_of_fit (hfit e he)] at hkey
    rw [abridged, openDepth]
    split_ifs with hlarge
    · have hdigits := length_toString_le hcount
      rw [String.length_append, String.length_append, String.length_append, String.length_append]
      have hfront : "<".length + "dict".length + " with ".length + " entries>".length = 20 := rfl
      have hzero : lengthLimit 0 = 315 := rfl
      omega
    · have hsum := sum_abridgedEntries_le hkeys ih 4
      have hcommas := Text.length_commas_le (abridgedEntries 4 entries)
      rw [Text.length_braced, lengthLimit_succ]
      omega
  | _ =>
    simp only [abridged, openDepth]
    exact length_cut_le _

/-! ## Nested lists -/

/-- Five lists of five lists, and so on to a depth, of zeros. -/
def grid : ℕ → Value
  | 0 => .int 0
  | depth + 1 => .list (List.replicate 5 (grid depth))

lemma plain_grid (depth : ℕ) : (grid depth).Plain := by
  induction depth with
  | zero => exact .int 0
  | succ depth ih =>
    refine .list ?_ fun v hv => ?_
    · rw [List.length_replicate]
      decide
    · rwa [List.eq_of_mem_replicate hv]

lemma openDepth_grid (depth : ℕ) : openDepth (grid depth) = depth := by
  induction depth with
  | zero => rfl
  | succ depth ih =>
    rw [grid, openDepth, List.length_replicate, if_pos (by decide)]
    simp [List.replicate, openDepthItems, ih]

lemma length_abridged_grid_succ (depth : ℕ) :
    (abridged (grid (depth + 1))).length = 4 * (abridged (grid depth)).length + 23 := by
  let shown := abridged (grid depth)
  have htext : abridged (grid (depth + 1)) =
      listed [shown, shown, shown, shown, "... (5 items)"] := by
    rw [grid, abridged, List.length_replicate, if_pos (by decide)]
    rfl
  have hcommas := Text.length_commas_add
    (List.cons_ne_nil shown [shown, shown, shown, "... (5 items)"])
  have hmark : "... (5 items)".length = 13 := rfl
  simp only [List.map_cons, List.map_nil, List.sum_cons, List.sum_nil] at hcommas
  rw [htext, Text.length_listed]
  show _ = 4 * shown.length + 23
  omega

/-- With every level the text quadruples. -/
lemma pow_le_length_abridged_grid (depth : ℕ) : 4 ^ depth ≤ (abridged (grid depth)).length := by
  induction depth with
  | zero => decide
  | succ depth ih =>
    rw [length_abridged_grid_succ, pow_succ]
    omega

end Value

/-! ## Calls -/

namespace Call

open Text (commas listed braced field)

lemma length_field (name value : String) :
    (field name value).length = name.length + 1 + value.length := by
  unfold field
  rw [String.length_append, String.length_append]
  rfl

lemma length_args {arguments : List Value} (h : arguments ≠ []) :
    (field "args" (listed (arguments.map Value.abridged))).length =
      5 + (arguments.map (·.abridged.length + 2)).sum := by
  rw [length_field, Text.length_listed, Text.length_commas_map_add h]
  rfl

lemma length_kwargs {named : List (String × Value)} (h : named ≠ []) :
    (field "kwargs" (braced (named.map fun (name, v) => field name v.abridged))).length =
      7 + (named.map fun e => e.1.length + e.2.abridged.length + 3).sum := by
  rw [length_field, Text.length_braced, Text.length_commas_map_add h]
  refine congrArg (7 + List.sum ·) (List.map_congr_left fun e _ => ?_)
  rw [length_field]
  omega

/-- The text of a call is as long as its arguments, their names and what separates them. -/
lemma length_text_le (c : Call) :
    c.text.length ≤ 14 + (c.arguments.map (·.abridged.length + 2)).sum +
      (c.named.map fun e => e.1.length + e.2.abridged.length + 3).sum := by
  rcases c with ⟨_ | ⟨v, vs⟩, _ | ⟨e, es⟩⟩
  · decide
  · have htext : text ⟨[], e :: es⟩ =
        field "kwargs" (braced ((e :: es).map fun (name, v) => field name v.abridged)) := rfl
    rw [htext, length_kwargs (List.cons_ne_nil e es)]
    dsimp only
    omega
  · have htext : text ⟨v :: vs, []⟩ = field "args" (listed ((v :: vs).map Value.abridged)) := rfl
    rw [htext, length_args (List.cons_ne_nil v vs)]
    dsimp only
    omega
  · have hargs := length_args (List.cons_ne_nil v vs)
    have hkwargs := length_kwargs (List.cons_ne_nil e es)
    have htext : text ⟨v :: vs, e :: es⟩ = commas
        [field "args" (listed ((v :: vs).map Value.abridged)),
          field "kwargs" (braced ((e :: es).map fun (name, v) => field name v.abridged))] := rfl
    rw [htext]
    generalize field "args" (listed ((v :: vs).map Value.abridged)) = args at hargs ⊢
    generalize field "kwargs" (braced ((e :: es).map fun (name, v) => field name v.abridged)) =
      kwargs at hkwargs ⊢
    have hcommas := Text.length_commas_add (List.cons_ne_nil args [kwargs])
    rw [List.map_cons, List.map_singleton, List.sum_cons, List.sum_singleton] at hcommas
    dsimp only
    omega

/-- A call is written with a limited text for each of its arguments. -/
lemma length_text_le_of_forall {c : Call} {limit : ℕ}
    (harguments : ∀ v ∈ c.arguments, v.abridged.length ≤ limit)
    (hnamed : ∀ e ∈ c.named, e.2.abridged.length ≤ limit) :
    c.text.length ≤ 14 + c.arguments.length * (limit + 2) +
      (c.named.map fun e => e.1.length + limit + 3).sum := by
  have htext := c.length_text_le
  have hsum : (c.arguments.map (·.abridged.length + 2)).sum ≤ c.arguments.length * (limit + 2) := by
    have hcard := List.sum_le_card_nsmul (c.arguments.map (·.abridged.length + 2)) (limit + 2)
      (List.forall_mem_map.2 fun v hv => Nat.add_le_add_right (harguments v hv) 2)
    rwa [List.length_map, smul_eq_mul] at hcard
  have hsum' : (c.named.map fun e => e.1.length + e.2.abridged.length + 3).sum ≤
      (c.named.map fun e => e.1.length + limit + 3).sum :=
    List.sum_le_sum fun e he =>
      Nat.add_le_add_right (Nat.add_le_add_left (hnamed e he) _) 3
  omega

end Call

open Value (lengthLimit)

/-- What a log line holds of a value of numbers, texts, lists, tuples and dictionaries. Unless the
value is shown item by item, that is at most 315 characters, the mark of what was cut included. In
general it is limited by the depth to which values shown item by item are nested in what is shown,
and the limit quadruples with every level. A traced call logs no more than the limit of each of its
arguments. -/
theorem abridged_lengths {v : Value} (h : v.Plain) :
    (v.isOpen = false → v.abridged.length ≤ 315) ∧
    v.abridged.length + 427 ≤ 742 * 4 ^ v.openDepth ∧
    ∀ (c : Call) (depth : ℕ), (∀ w ∈ c.arguments, w.Plain ∧ w.openDepth ≤ depth) →
      (∀ e ∈ c.named, e.2.Plain ∧ e.2.openDepth ≤ depth) →
      c.text.length ≤ 14 + c.arguments.length * (lengthLimit depth + 2) +
        (c.named.map fun e => e.1.length + lengthLimit depth + 3).sum := by
  have hlength := Value.length_abridged_le h
  refine ⟨fun hopen => ?_, ?_, fun c depth harguments hnamed => ?_⟩
  · rwa [Value.openDepth_eq_zero_iff.2 hopen] at hlength
  · have hpos : 1 ≤ 4 ^ v.openDepth := Nat.one_le_pow _ _ (by decide)
    unfold lengthLimit at hlength
    omega
  · have hlimit : ∀ w : Value, w.Plain ∧ w.openDepth ≤ depth →
        w.abridged.length ≤ lengthLimit depth :=
      fun w hw => (Value.length_abridged_le hw.1).trans (Value.lengthLimit_mono hw.2)
    exact Call.length_text_le_of_forall (fun w hw => hlimit w (harguments w hw))
      fun e he => hlimit e.2 (hnamed e he)

/-- A dictionary of a list, which is shown item by item, a name, which is not, and a call with
both. -/
theorem abridged_lengths_call :
    let cells : Value := .mapping "dict" [(.text "cells", .list (List.replicate 5 (.int 0)))]
    let c : Call := ⟨[cells], [("name", .text "A")]⟩
    cells.Plain ∧ cells.openDepth = 2 ∧ cells.abridged.length + 427 ≤ 742 * 4 ^ 2 ∧
    (Value.text "A").abridged.length ≤ 315 ∧
    c.text.length ≤ 14 + 1 * (lengthLimit 2 + 2) + (4 + lengthLimit 2 + 3) := by
  intro cells c
  have hlist : (Value.list (List.replicate 5 (.int 0))).Plain := Value.plain_grid 1
  have hcells : cells.Plain := by
    refine .dict (by decide) ?_ ?_ ?_ <;> rw [List.forall_mem_singleton]
    · rfl
    · exact .text "cells"
    · exact hlist
  have hdepth : cells.openDepth = 2 := rfl
  obtain ⟨-, hlimit, hcall⟩ := abridged_lengths hcells
  have htext := hcall c 2 (List.forall_mem_singleton.2 ⟨hcells, hdepth.le⟩)
    (List.forall_mem_singleton.2 ⟨.text "A", Nat.zero_le 2⟩)
  exact ⟨hcells, hdepth, hlimit, (abridged_lengths (.text "A")).1 rfl, htext⟩

/-- A list of lists of lists of zeros comes to more than 315 characters. Nothing limits what values
come to: with every level of nesting the length can quadruple. -/
theorem abridged_unlimited :
    (Value.grid 3).Plain ∧ (Value.grid 3).abridged.length = 547 ∧
    ∀ depth, ∃ v : Value, v.Plain ∧ v.openDepth = depth ∧ 4 ^ depth ≤ v.abridged.length := by
  refine ⟨Value.plain_grid 3, ?_, fun depth => ⟨_, Value.plain_grid depth,
    Value.openDepth_grid depth, Value.pow_le_length_abridged_grid depth⟩⟩
  rw [Value.length_abridged_grid_succ, Value.length_abridged_grid_succ,
    Value.length_abridged_grid_succ]
  rfl

end PointRelaxation
