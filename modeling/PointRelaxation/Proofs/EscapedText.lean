import Mathlib.Algebra.GroupWithZero.Nat
import PointRelaxation.Proofs.Failure
import PointRelaxation.Proofs.PictureText

/-!
# Escaped text

Names and titles are written into documents escaped. What was escaped can be read back, and it does
nothing to the code around it.

* `Picture.unescape`: a decoder, which goes from left to right and knows the ten escape sequences.
* `Picture.Placed`: where the characters stand that LaTeX treats as special.
* `Picture.Reader`: what LaTeX has in mind while it reads, and `Picture.Inert`: a text that changes
  nothing of it.
* `Picture.escape_lossless`: escaped text is decoded to the text, and inert, as is the code of a
  picture; the table of measures has one column separator for each measure.
-/

namespace PointRelaxation.Picture

/-! ## Escape sequences -/

/-- The special characters, each with the sequence that it is written as. -/
def sequences : List (Char × List Char) := [
  ('\\', "\\textbackslash\x7b\x7d".toList), ('&', "\\&".toList), ('%', "\\%".toList),
  ('#', "\\#".toList), ('_', "\\_".toList), ('\x7b', "\\\x7b".toList), ('\x7d', "\\\x7d".toList),
  ('~', "\\textasciitilde\x7b\x7d".toList), ('^', "\\textasciicircum\x7b\x7d".toList),
  ('$', "\\$".toList)]

lemma escapeChar_of_mem {q : Char × List Char} (hq : q ∈ sequences) : escapeChar q.1 = q.2 := by
  have hall : ∀ q ∈ sequences, escapeChar q.1 = q.2 := by decide
  exact hall q hq

/-- What is not special is written as itself. -/
lemma escapeChar_of_not_mem {c : Char} (hc : c ∉ sequences.map Prod.fst) :
    escapeChar c = [c] := by
  unfold escapeChar
  split
  case h_11 => rfl
  all_goals exact absurd (by decide) hc

lemma escapeChar_cases (c : Char) :
    (c, escapeChar c) ∈ sequences ∨ c ∉ sequences.map Prod.fst ∧ escapeChar c = [c] := by
  by_cases hc : c ∈ sequences.map Prod.fst
  · obtain ⟨q, hq, rfl⟩ := List.mem_map.1 hc
    rw [escapeChar_of_mem hq]
    exact .inl hq
  · exact .inr ⟨hc, escapeChar_of_not_mem hc⟩

lemma toList_escape (s : String) : (escape s).toList = s.toList.flatMap escapeChar :=
  String.toList_ofList

lemma escape_append (s t : String) : escape (s ++ t) = escape s ++ escape t := by
  unfold escape
  rw [String.toList_append, List.flatMap_append, String.ofList_append]

/-! ## Decoding -/

/-- Decodes a text from left to right. At its head a sequence is looked for; if there is one, its
character is written and the rest of the sequence is skipped. -/
def unescapeFrom : ℕ → List Char → List Char
  | _, [] => []
  | skipped + 1, _ :: cs => unescapeFrom skipped cs
  | 0, c :: cs =>
    match sequences.find? (·.2.isPrefixOf (c :: cs)) with
    | some (d, sequence) => d :: unescapeFrom (sequence.length - 1) cs
    | none => c :: unescapeFrom 0 cs

def unescape (s : String) : String := String.ofList (unescapeFrom 0 s.toList)

lemma unescapeFrom_append (skipped rest : List Char) :
    unescapeFrom skipped.length (skipped ++ rest) = unescapeFrom 0 rest := by
  induction skipped with
  | nil => rfl
  | cons c skipped ih => exact ih

/-- No sequence is the beginning of another one, so that two of them are never found at one
place. -/
lemma eq_of_isPrefix {p q : Char × List Char} (hp : p ∈ sequences) (hq : q ∈ sequences)
    {cs : List Char} (hpcs : p.2 <+: cs) (hqcs : q.2 <+: cs) : p = q := by
  have hall : ∀ p ∈ sequences, ∀ q ∈ sequences, p.2 <+: q.2 → p = q := by decide
  rcases List.prefix_or_prefix_of_prefix hpcs hqcs with h | h
  · exact hall p hp q hq h
  · exact (hall q hq p hp h).symm

lemma find?_sequences {q : Char × List Char} (hq : q ∈ sequences) (rest : List Char) :
    sequences.find? (·.2.isPrefixOf (q.2 ++ rest)) = some q := by
  have hbegins : q.2 <+: q.2 ++ rest := List.prefix_append q.2 rest
  have hsome : (sequences.find? (·.2.isPrefixOf (q.2 ++ rest))).isSome :=
    List.find?_isSome.2 ⟨q, hq, List.isPrefixOf_iff_prefix.2 hbegins⟩
  obtain ⟨p, hp⟩ := Option.isSome_iff_exists.1 hsome
  have hfound : p.2.isPrefixOf (q.2 ++ rest) := by simpa using List.find?_some hp
  rw [List.isPrefixOf_iff_prefix] at hfound
  rw [hp, eq_of_isPrefix (List.mem_of_find?_eq_some hp) hq hfound hbegins]

/-- All sequences begin with a backslash. -/
lemma exists_eq_cons_of_mem {q : Char × List Char} (hq : q ∈ sequences) :
    ∃ cs, q.2 = '\\' :: cs := by
  have hall : ∀ q ∈ sequences, q.2 = '\\' :: q.2.tail := by decide
  exact ⟨_, hall q hq⟩

/-- The decoder reads what a character is written as, and goes on behind it. -/
lemma unescapeFrom_escapeChar (c : Char) (rest : List Char) :
    unescapeFrom 0 (escapeChar c ++ rest) = c :: unescapeFrom 0 rest := by
  rcases escapeChar_cases c with hspecial | ⟨hplain, hself⟩
  · obtain ⟨skipped, hcons⟩ := exists_eq_cons_of_mem hspecial
    have hfind := find?_sequences hspecial rest
    dsimp only at hcons hfind
    rw [hcons] at hfind ⊢
    rw [List.cons_append] at hfind ⊢
    rw [unescapeFrom, hfind]
    exact congrArg (c :: ·) (unescapeFrom_append skipped rest)
  · -- a sequence would begin with a backslash, and a backslash is special
    have hnone : sequences.find? (·.2.isPrefixOf (c :: rest)) = none := by
      rw [List.find?_eq_none]
      intro q hq hfound
      obtain ⟨cs, hcons⟩ := exists_eq_cons_of_mem hq
      rw [List.isPrefixOf_iff_prefix, hcons, List.cons_prefix_cons] at hfound
      rw [← hfound.1] at hplain
      exact hplain (by decide)
    rw [hself, List.singleton_append, unescapeFrom, hnone]

lemma unescape_escape (s : String) : unescape (escape s) = s := by
  have hchars : ∀ cs : List Char, unescapeFrom 0 (cs.flatMap escapeChar) = cs := by
    intro cs
    induction cs with
    | nil => rfl
    | cons c cs ih => rw [List.flatMap_cons, unescapeFrom_escapeChar, ih]
  unfold unescape
  rw [toList_escape, hchars, String.ofList_toList]

/-! ## Where special characters stand -/

/-- The commands that stand for a character by its name. -/
def macros : List (List Char) :=
  ["\\textbackslash".toList, "\\textasciitilde".toList, "\\textasciicircum".toList]

/-- A character of escaped text between what stands before and after it. -/
structure Placed (before : List Char) (c : Char) (after : List Char) : Prop where
  /-- What would end the line, the column or the text stands right behind a backslash. -/
  symbol : c ∈ "&%#_$".toList → ['\\'] <:+ before
  bare : c ≠ '~' ∧ c ≠ '^'
  /-- A backslash begins a sequence. -/
  backslash : c = '\\' → ∃ q ∈ sequences, q.2 <+: c :: after
  /-- A brace is escaped, or one of the pair that closes a command. -/
  opening : c = '\x7b' →
    ['\\'] <:+ before ∨ (∃ m ∈ macros, m <:+ before) ∧ ['\x7d'] <+: after
  closing : c = '\x7d' →
    ['\\'] <:+ before ∨ ∃ m ∈ macros, m ++ ['\x7b'] <:+ before

lemma placed_iff {before after : List Char} {c : Char} :
    Placed before c after ↔
      (c ∈ "&%#_$".toList → ['\\'] <:+ before) ∧ (c ≠ '~' ∧ c ≠ '^') ∧
      (c = '\\' → ∃ q ∈ sequences, q.2 <+: c :: after) ∧
      (c = '\x7b' → ['\\'] <:+ before ∨ (∃ m ∈ macros, m <:+ before) ∧ ['\x7d'] <+: after) ∧
      (c = '\x7d' → ['\\'] <:+ before ∨ ∃ m ∈ macros, m ++ ['\x7b'] <:+ before) :=
  ⟨fun h => ⟨h.symbol, h.bare, h.backslash, h.opening, h.closing⟩,
    fun ⟨h₁, h₂, h₃, h₄, h₅⟩ => ⟨h₁, h₂, h₃, h₄, h₅⟩⟩

instance (before : List Char) (c : Char) (after : List Char) : Decidable (Placed before c after) :=
  decidable_of_iff _ placed_iff.symm

/-- More text around does not matter. -/
lemma Placed.extend {before after before' after' : List Char} {c : Char}
    (h : Placed before c after) (hbefore : before <:+ before') (hafter : after <+: after') :
    Placed before' c after' where
  symbol hc := (h.symbol hc).trans hbefore
  bare := h.bare
  backslash hc := by
    obtain ⟨q, hq, hbegins⟩ := h.backslash hc
    exact ⟨q, hq, hbegins.trans (List.cons_prefix_cons.2 ⟨rfl, hafter⟩)⟩
  opening hc := by
    rcases h.opening hc with hescaped | ⟨⟨m, hm, hsuffix⟩, hpair⟩
    · exact .inl (hescaped.trans hbefore)
    · exact .inr ⟨⟨m, hm, hsuffix.trans hbefore⟩, hpair.trans hafter⟩
  closing hc := by
    rcases h.closing hc with hescaped | ⟨m, hm, hsuffix⟩
    · exact .inl (hescaped.trans hbefore)
    · exact .inr ⟨m, hm, hsuffix.trans hbefore⟩

/-- A character of escaped text belongs to what one character is written as. -/
lemma exists_of_flatMap_eq {cs before after : List Char} {c : Char}
    (h : cs.flatMap escapeChar = before ++ c :: after) :
    ∃ d u v, escapeChar d = u ++ c :: v ∧ u <:+ before ∧ v <+: after := by
  induction cs generalizing before with
  | nil =>
    exact absurd h.symm (List.append_ne_nil_of_right_ne_nil before (List.cons_ne_nil c after))
  | cons d cs ih =>
    rw [List.flatMap_cons, List.append_eq_append_iff] at h
    rcases h with ⟨before', rfl, hrest⟩ | ⟨v, hd, hrest⟩
    · obtain ⟨d', u, v, hd', hu, hv⟩ := ih hrest
      exact ⟨d', u, v, hd', hu.trans (List.suffix_append _ _), hv⟩
    · cases v with
      | nil =>
        -- the character is the first one of what comes next
        obtain ⟨d', u, v, hd', hu, hv⟩ := @ih [] hrest.symm
        exact ⟨d', u, v, hd', hu.trans List.nil_suffix, hv⟩
      | cons c' v =>
        obtain ⟨rfl, rfl⟩ := List.cons.inj hrest
        exact ⟨d, before, v, hd, List.suffix_rfl, List.prefix_append v _⟩

lemma placed_of_escapeChar_eq {d c : Char} {u v : List Char} (h : escapeChar d = u ++ c :: v) :
    Placed u c v := by
  rcases escapeChar_cases d with hspecial | ⟨hplain, hself⟩
  · have hall : ∀ q ∈ sequences, ∀ i (hi : i < q.2.length),
        Placed (q.2.take i) q.2[i] (q.2.drop (i + 1)) := by
      decide +kernel
    rw [h] at hspecial
    -- the character is the one behind `u`
    have hplaced := hall _ hspecial u.length (by simp)
    simpa using hplaced
  · obtain ⟨rfl, rfl, rfl⟩ : u = [] ∧ d = c ∧ v = [] := by
      rw [hself] at h
      cases u with
      | nil => simpa using h
      | cons b u => simp at h
    have hne : ∀ b ∈ sequences.map Prod.fst, d ≠ b := fun b hb heq => hplain (heq ▸ hb)
    have hsymbols : "&%#_$".toList.Sublist (sequences.map Prod.fst) := by decide
    exact
      { symbol := fun hd => absurd (hsymbols.subset hd) hplain
        bare := ⟨hne _ (by decide), hne _ (by decide)⟩
        backslash := fun hd => absurd hd (hne _ (by decide))
        opening := fun hd => absurd hd (hne _ (by decide))
        closing := fun hd => absurd hd (hne _ (by decide)) }

lemma placed_of_escape_eq {s : String} {before after : List Char} {c : Char}
    (h : (escape s).toList = before ++ c :: after) : Placed before c after := by
  rw [toList_escape] at h
  obtain ⟨d, u, v, hd, hu, hv⟩ := exists_of_flatMap_eq h
  exact (placed_of_escapeChar_eq hd).extend hu hv

/-! ## A reader of LaTeX -/

/-- What LaTeX has in mind while it reads: whether a backslash has just begun a command, whether it
is in a comment, whether it is in math mode, how many columns it has left behind, and how many more
groups were opened than closed. -/
structure Reader where
  command : Bool
  comment : Bool
  math : Bool
  columns : ℕ
  depth : ℤ
deriving DecidableEq

/-- The characters that LaTeX does not just put into the text. -/
def active : List Char := "\\&%_\x7b\x7d^$".toList

def isOrdinary (c : Char) : Bool := c ∉ active

/-- The characters whose commands begin and end math mode. -/
def brackets : List Char := "([)]".toList

namespace Reader

/-- Reads a character of a text. A bare subscript or superscript makes LaTeX begin math mode. -/
def readText (r : Reader) : Char → Reader
  | '\\' => { r with command := true }
  | '%' => { r with comment := true }
  | '$' => { r with math := !r.math }
  | '_' => { r with math := true }
  | '^' => { r with math := true }
  | '&' => { r with columns := r.columns + 1 }
  | '\x7b' => { r with depth := r.depth + 1 }
  | '\x7d' => { r with depth := r.depth - 1 }
  | _ => r

/-- Reads a character. A comment goes up to the end of the line. Of a command only the first
character counts, the letters behind it do as little as those of a text. -/
def next (r : Reader) (c : Char) : Reader :=
  if r.comment then { r with comment := c ≠ '\n' }
  else if r.command then
    { r with
      command := false
      math := if c ∈ brackets then c = '(' || c = '[' else r.math }
  else r.readText c

def read (r : Reader) (cs : List Char) : Reader := cs.foldl next r

/-- The reader is where text may stand: neither in a comment nor within a command. -/
def Ready (r : Reader) : Prop := r.comment = false ∧ r.command = false

/-- From one place to another no comment was begun, no column left behind and no math mode begun or
ended, and no group was closed that was open before. -/
def Keeps (r r' : Reader) : Prop :=
  r'.comment = false ∧ r'.math = r.math ∧ r'.columns = r.columns ∧ r.depth ≤ r'.depth

/-- The reader behind a backslash. -/
def begun (r : Reader) : Reader := { r with command := true }

/-- The reader in one more group. -/
def deeper (r : Reader) : Reader := { r with depth := r.depth + 1 }

lemma read_cons (r : Reader) (c : Char) (cs : List Char) :
    r.read (c :: cs) = (r.next c).read cs := rfl

lemma read_append (r : Reader) (cs ds : List Char) : r.read (cs ++ ds) = (r.read cs).read ds :=
  List.foldl_append

namespace Ready

variable {r : Reader}

lemma keeps_self (h : r.Ready) : r.Keeps r := ⟨h.1, rfl, rfl, le_rfl⟩

lemma keeps_begun (h : r.Ready) : r.Keeps r.begun := ⟨h.1, rfl, rfl, le_rfl⟩

lemma deeper (h : r.Ready) : r.deeper.Ready := h

lemma next_eq (h : r.Ready) (c : Char) : r.next c = r.readText c := by
  unfold next
  rw [if_neg (by simp [h.1]), if_neg (by simp [h.2])]

lemma next_ordinary (h : r.Ready) {c : Char} (hc : isOrdinary c) : r.next c = r := by
  rw [h.next_eq]
  unfold readText
  split
  case h_9 => rfl
  all_goals exact absurd hc (by decide)

lemma next_backslash (h : r.Ready) : r.next '\\' = r.begun := h.next_eq _

lemma next_command (h : r.Ready) {c : Char} (hc : c ∉ brackets) : r.begun.next c = r := by
  have hcomment : r.begun.comment = false := h.1
  have hcommand : r.begun.command = true := rfl
  unfold next
  rw [if_neg (by simp [hcomment]), if_pos hcommand, if_neg hc]
  show { r with command := false } = r
  rw [← h.2]

lemma next_opening (h : r.Ready) : r.next '\x7b' = r.deeper := h.next_eq _

lemma next_closing (h : r.Ready) : r.deeper.next '\x7d' = r := by
  rw [h.deeper.next_eq]
  show { r with depth := r.depth + 1 - 1 } = r
  rw [Int.add_sub_cancel]

end Ready
end Reader

/-- A text that does nothing to the code around it: it leaves the reader as it was, and all along it
keeps it so. -/
structure Inert (cs : List Char) : Prop where
  read_eq : ∀ r : Reader, r.Ready → r.read cs = r
  keeps : ∀ r : Reader, r.Ready → ∀ front, front <+: cs → r.Keeps (r.read front)

namespace Inert

variable {cs ds : List Char}

lemma nil : Inert [] where
  read_eq _ _ := rfl
  keeps r hr front hfront := by
    rw [List.prefix_nil.1 hfront]
    exact hr.keeps_self

lemma append (hcs : Inert cs) (hds : Inert ds) : Inert (cs ++ ds) where
  read_eq r hr := by rw [Reader.read_append, hcs.read_eq r hr, hds.read_eq r hr]
  keeps r hr front hfront := by
    -- it ends within the first text, or goes on into the second
    rcases List.prefix_or_prefix_of_prefix hfront (List.prefix_append cs ds) with h | ⟨more, rfl⟩
    · exact hcs.keeps r hr front h
    · rw [Reader.read_append, hcs.read_eq r hr]
      exact hds.keeps r hr more ((List.prefix_append_right_inj cs).1 hfront)

lemma cat {s t : String} (hs : Inert s.toList) (ht : Inert t.toList) : Inert (s ++ t).toList := by
  rw [String.toList_append]
  exact hs.append ht

/-- What is to be checked of a text when its last character is added: that it leaves the reader as
it was. -/
lemma concat (cs : List Char) {c : Char} (hread : ∀ r : Reader, r.Ready → r.read (cs ++ [c]) = r)
    (hkeeps : ∀ r : Reader, r.Ready → ∀ front, front <+: cs → r.Keeps (r.read front)) :
    Inert (cs ++ [c]) where
  read_eq := hread
  keeps r hr front hfront := by
    rcases List.prefix_concat_iff.1 hfront with rfl | hfront
    · rw [hread r hr]
      exact hr.keeps_self
    · exact hkeeps r hr front hfront

lemma ordinary {c : Char} (hc : isOrdinary c) : Inert [c] :=
  concat [] (fun _ hr => hr.next_ordinary hc) nil.keeps

/-- A command of another character than a bracket. -/
lemma command {c : Char} (hc : c ∉ brackets) : Inert ['\\', c] := by
  refine concat ['\\'] (fun r hr => ?_) fun r hr front hfront => ?_
  · rw [List.singleton_append, Reader.read_cons, hr.next_backslash]
    exact hr.next_command hc
  · rcases List.prefix_cons_iff.1 hfront with rfl | ⟨rest, rfl, hrest⟩
    · exact hr.keeps_self
    · rw [List.prefix_nil.1 hrest, Reader.read_cons, hr.next_backslash]
      exact hr.keeps_begun

/-- Within a group the reader is one group deeper. -/
lemma group {s : String} (h : Inert s.toList) : Inert (Picture.group s).toList := by
  rw [toList_group]
  refine concat _ (fun r hr => ?_) fun r hr front hfront => ?_
  · rw [List.cons_append, Reader.read_cons, hr.next_opening, Reader.read_append,
      h.read_eq _ hr.deeper]
    exact hr.next_closing
  · rcases List.prefix_cons_iff.1 hfront with rfl | ⟨inside, rfl, hinside⟩
    · exact hr.keeps_self
    · obtain ⟨hcomment, hmath, hcolumns, hdepth⟩ := h.keeps _ hr.deeper inside hinside
      rw [Reader.read_cons, hr.next_opening]
      exact ⟨hcomment, hmath, hcolumns, (Int.le_add_one le_rfl).trans hdepth⟩

lemma flatMap {α : Type} {f : α → List Char} {xs : List α} (h : ∀ x ∈ xs, Inert (f x)) :
    Inert (xs.flatMap f) := by
  induction xs with
  | nil => exact nil
  | cons x xs ih =>
    obtain ⟨hx, hxs⟩ := List.forall_mem_cons.1 h
    rw [List.flatMap_cons]
    exact hx.append (ih hxs)

lemma intercalate {lines : List String} {separator : String} (hseparator : Inert separator.toList)
    (h : ∀ line ∈ lines, Inert line.toList) :
    Inert (separator.intercalate lines).toList := by
  induction lines with
  | nil => exact nil
  | cons line lines ih =>
    obtain ⟨hline, hlines⟩ := List.forall_mem_cons.1 h
    cases lines with
    | nil => exact hline
    | cons next lines =>
      rw [String.intercalate_cons_cons]
      exact (hline.cat hseparator).cat (ih hlines)

end Inert

/-- Text without groups: of ordinary characters and commands. -/
def isFlat : List Char → Bool
  | [] => true
  | '\\' :: c :: cs => c ∉ brackets && isFlat cs
  | c :: cs => isOrdinary c && isFlat cs

lemma inert_of_isFlat {cs : List Char} (h : isFlat cs) : Inert cs := by
  induction cs using isFlat.induct with
  | case1 => exact .nil
  | case2 c cs ih =>
    rw [isFlat, Bool.and_eq_true, decide_eq_true_eq] at h
    exact (Inert.command h.1).append (ih h.2)
  | case3 c cs _ ih =>
    rw [isFlat, Bool.and_eq_true] at h
    · exact (Inert.ordinary h.1).append (ih h.2)
    · assumption

/-- An inert text with plain code behind it. -/
lemma Inert.catFlat {s t : String} (hs : Inert s.toList) (ht : isFlat t.toList) :
    Inert (s ++ t).toList :=
  hs.cat (inert_of_isFlat ht)

lemma inert_of_forall {cs : List Char} (h : ∀ c ∈ cs, isOrdinary c) : Inert cs := by
  rw [← List.flatMap_singleton' cs]
  exact .flatMap fun c hc => .ordinary (h c hc)

/-! ## Escaped text is inert -/

lemma inert_escapeChar (c : Char) : Inert (escapeChar c) := by
  rcases escapeChar_cases c with hspecial | ⟨hplain, hself⟩
  · have hforms : ∀ q ∈ sequences, isFlat q.2 ∨ ∃ m ∈ macros, q.2 = m ++ (group "").toList := by
      decide
    have hmacros : ∀ m ∈ macros, isFlat m := by decide
    rcases hforms _ hspecial with hflat | ⟨m, hm, heq⟩
    · exact inert_of_isFlat hflat
    · dsimp only at heq
      rw [heq]
      exact (inert_of_isFlat (hmacros m hm)).append (Inert.group .nil)
  · have hactive : active.Sublist (sequences.map Prod.fst) := by decide
    rw [hself]
    exact .ordinary (decide_eq_true fun hc => hplain (hactive.subset hc))

lemma inert_escape (s : String) : Inert (escape s).toList := by
  rw [toList_escape]
  exact .flatMap fun c _ => inert_escapeChar c

/-! ## The code of a picture is inert -/

lemma isOrdinary_of {P : Char → Bool} (hP : active.any P = false) {c : Char} (hc : P c) :
    isOrdinary c :=
  decide_eq_true fun hactive => List.any_eq_false.1 hP c hactive hc

lemma inert_node {n : String} (h : IsNode n) : Inert n.toList :=
  inert_of_forall fun c hc => isOrdinary_of (P := Char.isAlphanum) (by decide) (h c hc)

lemma inert_writeFloat {finite : Bool → ℕ → ℤ → List Char}
    (h : ∀ negative significand exponent, ∀ c ∈ finite negative significand exponent,
      isNumeral c) (x : Float) : Inert (Text.writeFloat finite x).toList := by
  refine inert_of_forall fun c hc => ?_
  rcases mem_writeFloat hc with hword | ⟨negative, significand, exponent, hfinite⟩
  · have hwords : "-infa".toList.all isOrdinary := by decide
    exact List.all_eq_true.1 hwords c hword
  · exact isOrdinary_of (by decide) (h negative significand exponent c hfinite)

lemma inert_number (x : Float) : Inert (number x).toList :=
  inert_writeFloat (fun _ _ _ _ hc => isNumeral_of_mem_compact hc) x

lemma inert_places (count : ℕ) (x : Float) : Inert (Text.places count x).toList :=
  inert_writeFloat (fun _ _ _ _ hc => isNumeral_of_mem_fixed hc) x

lemma inert_reference {n : String} (h : IsNode n) : Inert (reference n).toList :=
  (Inert.cat (inert_of_isFlat (by decide)) (inert_node h)).catFlat (by decide)

lemma inert_position (v : Vec Float) : Inert (position v).toList :=
  (((Inert.cat (inert_of_isFlat (by decide)) (inert_number v.x)).catFlat (by decide)).cat
    (inert_number v.y)).catFlat (by decide)

/-- The options of all statements. -/
lemma inert_style (stable : Bool) :
    ∀ options ∈ [["polygon"], ["line"], ["segment"], [], ["ptlabel", "above right"]],
      Inert (bracketed (style options stable)).toList := by
  intro options hoptions
  have hflat : ∀ stable, ∀ options ∈ [["polygon"], ["line"], ["segment"], [],
      ["ptlabel", "above right"]], isFlat (bracketed (style options stable)).toList := by decide
  exact inert_of_isFlat (hflat stable options hoptions)

/-- The nodes that a statement refers to. -/
def Statement.nodes : Statement Float → List String
  | coordinate node _ => [node]
  | clip _ _ => []
  | fill nodes _ => nodes
  | line _ _ _ => []
  | segment a b _ => [a, b]
  | dot node _ => [node]
  | label node _ _ => [node]

lemma inert_code_statement {s : Statement Float} (h : ∀ n ∈ s.nodes, IsNode n) :
    Inert s.code.toList := by
  have hnodes : ∀ n ∈ s.nodes, Inert (reference n).toList := fun n hn => inert_reference (h n hn)
  have hfill : Inert "\\fill".toList := inert_of_isFlat (by decide)
  have hdraw : Inert "\\draw".toList := inert_of_isFlat (by decide)
  cases s with
  | coordinate n v =>
    have hhead : Inert "\\coordinate ".toList := inert_of_isFlat (by decide)
    exact ((hhead.cat (hnodes n (by simp [Statement.nodes]))).catFlat (by decide)).cat
      (inert_position v)
  | clip low high =>
    have hhead : Inert "\\clip ".toList := inert_of_isFlat (by decide)
    exact ((hhead.cat (inert_position low)).catFlat (by decide)).cat (inert_position high)
  | fill nodes stable =>
    have hpath : Inert (" -- ".intercalate (nodes.map reference)).toList :=
      .intercalate (inert_of_isFlat (by decide)) (List.forall_mem_map.2 hnodes)
    exact (((hfill.cat (inert_style stable ["polygon"] (by decide))).catFlat (by decide)).cat
      hpath).catFlat (by decide)
  | line start finish stable =>
    exact ((((hdraw.cat (inert_style stable ["line"] (by decide))).catFlat (by decide)).cat
      (inert_position start)).catFlat (by decide)).cat (inert_position finish)
  | segment a b stable =>
    exact ((((hdraw.cat (inert_style stable ["segment"] (by decide))).catFlat (by decide)).cat
      (hnodes a (by simp [Statement.nodes]))).catFlat (by decide)).cat
        (hnodes b (by simp [Statement.nodes]))
  | dot n stable =>
    exact (((hfill.cat (inert_style stable [] (by decide))).catFlat (by decide)).cat
      (hnodes n (by simp [Statement.nodes]))).catFlat (by decide)
  | label n text stable =>
    have hhead : Inert "\\node".toList := inert_of_isFlat (by decide)
    have hstyle := inert_style stable ["ptlabel", "above right"] (by decide)
    exact ((((hhead.cat hstyle).catFlat (by decide)).cat
      (hnodes n (by simp [Statement.nodes]))).catFlat (by decide)).cat (.group (inert_escape text))

/-- What a name is looked up as is a node, or nothing if no point has the name. -/
lemma forall_isNode_node (scene : Scene Float) (name : String) : IsNode (node scene name) := by
  by_cases hname : name ∈ scene.names
  · exact isNode_node hname
  · have hnone : (nodeNames scene.names).lookup name = none := by
      rw [List.lookup_eq_none_iff]
      intro e he
      rw [bne_iff_ne]
      rintro rfl
      exact hname (List.of_mem_zip he).1
    unfold node
    rw [hnone]
    exact fun c hc => absurd hc List.not_mem_nil

lemma isNode_of_mem_nodes {scene : Scene Float} {s : Statement Float} (hs : s ∈ statements scene) :
    ∀ n ∈ s.nodes, IsNode n := by
  have hnode := forall_isNode_node scene
  have hall : ∀ names : List String, ∀ n ∈ names.map (node scene), IsNode n := by
    intro names n hn
    obtain ⟨name, -, rfl⟩ := List.mem_map.1 hn
    exact hnode name
  simp only [statements, List.mem_append, List.mem_map, List.mem_filterMap, List.mem_flatMap,
    List.mem_cons, List.not_mem_nil, or_false] at hs
  rcases hs with ((((⟨p, -, rfl⟩ | rfl) | ⟨corners, -, rfl⟩) | ⟨l, -, hl⟩) | ⟨edge, -, rfl⟩) |
    ⟨p, -, rfl | rfl⟩
  · exact List.forall_mem_singleton.2 (hnode _)
  · exact List.forall_mem_nil _
  · exact hall corners
  · obtain ⟨a, -, hl⟩ := Option.bind_eq_some_iff.1 hl
    obtain ⟨b, -, hl⟩ := Option.bind_eq_some_iff.1 hl
    unfold lineThrough? at hl
    dsimp only at hl
    split_ifs at hl
    obtain rfl := Option.some.inj hl
    exact List.forall_mem_nil _
  · exact List.forall_mem_cons.2 ⟨hnode _, List.forall_mem_singleton.2 (hnode _)⟩
  · exact List.forall_mem_singleton.2 (hnode _)
  · exact List.forall_mem_singleton.2 (hnode _)

lemma inert_code (scene : Scene Float) (scale : Float) : Inert (code scene scale).toList := by
  have hname : Inert (group "tikzpicture").toList := .group (inert_of_isFlat (by decide))
  have hbegin : Inert
      ("\\begin" ++ group "tikzpicture" ++ "[scale=" ++ number scale ++ "]").toList :=
    (((Inert.cat (inert_of_isFlat (by decide)) hname).catFlat (by decide)).cat
      (inert_number scale)).catFlat (by decide)
  have hend : Inert ("\\end" ++ group "tikzpicture").toList :=
    .cat (inert_of_isFlat (by decide)) hname
  refine .intercalate (inert_of_isFlat (by decide)) ?_
  simp only [List.forall_mem_append, List.forall_mem_singleton, List.forall_mem_map]
  refine ⟨⟨hbegin, fun s hs => ?_⟩, hend⟩
  have hcode := inert_code_statement (isNode_of_mem_nodes hs)
  exact (Inert.cat (inert_of_isFlat (by decide)) hcode).catFlat (by decide)

/-! ## The table of measures has its own columns only -/

/-- A text that leaves the reader as it was, but for so many columns more. -/
def Adds (n : ℕ) (cs : List Char) : Prop :=
  ∀ r : Reader, r.Ready → r.read cs = { r with columns := r.columns + n }

lemma Inert.adds {cs : List Char} (h : Inert cs) : Adds 0 cs := h.read_eq

lemma Adds.append {m n : ℕ} {cs ds : List Char} (hcs : Adds m cs) (hds : Adds n ds) :
    Adds (m + n) (cs ++ ds) := by
  intro r hr
  have hready : Reader.Ready { r with columns := r.columns + m } := hr
  rw [Reader.read_append, hcs r hr, hds _ hready, Nat.add_assoc]

lemma Adds.cat {m n : ℕ} {s t : String} (hs : Adds m s.toList) (ht : Adds n t.toList) :
    Adds (m + n) (s ++ t).toList := by
  rw [String.toList_append]
  exact hs.append ht

lemma adds_separator : Adds 1 " & ".toList := by
  have hblank : Inert [' '] := inert_of_isFlat (by decide)
  have hcolumn : Adds 1 ['&'] := fun r hr => hr.next_eq '&'
  exact (hblank.adds.append hcolumn).append hblank.adds

/-- Lines add what each of them adds. -/
lemma adds_lines {ns : List ℕ} {lines : List String}
    (h : List.Forall₂ (fun n line => Adds n line.toList) ns lines) :
    Adds ns.sum ("\n".intercalate lines).toList := by
  induction h with
  | nil => exact Inert.nil.adds
  | @cons n line ns lines hline hlines ih =>
    have hbreak : Inert "\n".toList := inert_of_isFlat (by decide)
    cases hlines with
    | nil => exact hline
    | cons _ _ =>
      rw [String.intercalate_cons_cons, List.sum_cons]
      exact (hline.cat hbreak.adds).cat ih

/-- The row of a measure, or of a gap. -/
def tableRow (unit : String) : Option (String × Float) → String
  | some (title, length) =>
    escape title ++ " & " ++ Text.places 2 length ++ "~" ++ escape unit ++ " \\\\"
  | none => "\\\\[2pt]"

/-- The lines of a table with some rows. -/
def tableLines (unit : String) (rows : List (Option (String × Float))) : List String :=
  ["\\par\\vspace" ++ group "4pt", "\\begin" ++ group "tabular" ++ group "lr"] ++
    rows.map (tableRow unit) ++ ["\\end" ++ group "tabular"]

lemma measureTable_eq_ok {scene : Scene Float} {rows : List (Option (String × Float))}
    (h : scene.readMeasures = .ok rows) (unit : String) :
    measureTable scene unit =
      .ok (if rows.isEmpty then "" else "\n".intercalate (tableLines unit rows)) := by
  unfold measureTable
  rw [h]
  cases rows with
  | nil => rfl
  | cons row rows => rfl

lemma adds_tableRow {scene : Scene Float} {m : Measure} {row : Option (String × Float)}
    (h : m.read? scene = .ok row) (unit : String) :
    Adds (if m = .gap then 0 else 1) (tableRow unit row).toList := by
  cases m with
  | gap =>
    cases h
    have hgap : Inert "\\\\[2pt]".toList := inert_of_isFlat (by decide)
    exact hgap.adds
  | distance a b label =>
    obtain ⟨p, -, h⟩ := bind_eq_ok.1 h
    obtain ⟨q, -, h⟩ := bind_eq_ok.1 h
    cases h
    have hlength := inert_places 2 (Vec.distance p q)
    have htie : Inert "~".toList := inert_of_isFlat (by decide)
    have hend : Inert " \\\\".toList := inert_of_isFlat (by decide)
    exact (((((inert_escape _).adds.cat adds_separator).cat hlength.adds).cat htie.adds).cat
      (inert_escape unit).adds).cat hend.adds

/-- The rows add a column for each measure, and none for a gap. -/
lemma exists_adds_rows {scene : Scene Float} {measures : List Measure}
    {rows : List (Option (String × Float))}
    (h : List.Forall₂ (fun m row => m.read? scene = .ok row) measures rows) (unit : String) :
    ∃ ns, List.Forall₂ (fun n line => Adds n line.toList) ns (rows.map (tableRow unit)) ∧
      ns.sum = measures.countP (· ≠ .gap) := by
  induction h with
  | nil => exact ⟨[], .nil, rfl⟩
  | @cons m row measures rows hrow _ ih =>
    obtain ⟨ns, hns, hsum⟩ := ih
    refine ⟨_ :: ns, .cons (adds_tableRow hrow unit) hns, ?_⟩
    rw [List.sum_cons, hsum, List.countP_cons, Nat.add_comm]
    by_cases hgap : m = .gap
    · simp [hgap]
    · simp [hgap]

lemma exists_readMeasures {scene : Scene Float} (h : scene.Closed) :
    ∃ rows, scene.readMeasures = .ok rows := by
  refine exists_mapM_iff.2 fun m hm => ?_
  cases m with
  | gap => exact ⟨none, rfl⟩
  | distance a b label =>
    obtain ⟨ha, hb⟩ := h.measures a b label hm
    obtain ⟨v, hv⟩ := Scene.exists_places_of_mem ha
    obtain ⟨w, hw⟩ := Scene.exists_places_of_mem hb
    exact ⟨_, bind_eq_ok.2 ⟨v, hv, bind_eq_ok.2 ⟨w, hw, rfl⟩⟩⟩

lemma exists_measureTable {scene : Scene Float} (h : scene.Closed) (unit : String) :
    ∃ table, measureTable scene unit = .ok table ∧
      Adds (scene.measures.countP (· ≠ .gap)) table.toList := by
  obtain ⟨rows, hrows⟩ := exists_readMeasures h
  have hforall := mapM_eq_ok_iff.1 hrows
  refine ⟨_, measureTable_eq_ok hrows unit, ?_⟩
  split_ifs with hempty
  · rw [List.isEmpty_iff.1 hempty, List.forall₂_nil_right_iff] at hforall
    rw [hforall]
    exact Inert.nil.adds
  · obtain ⟨ns, hns, hsum⟩ := exists_adds_rows hforall unit
    have hname : Inert (group "tabular").toList := .group (inert_of_isFlat (by decide))
    have hvspace : Inert ("\\par\\vspace" ++ group "4pt").toList :=
      .cat (inert_of_isFlat (by decide)) (.group (inert_of_isFlat (by decide)))
    have hbegin : Inert ("\\begin" ++ group "tabular" ++ group "lr").toList :=
      .cat (.cat (inert_of_isFlat (by decide)) hname) (.group (inert_of_isFlat (by decide)))
    have hend : Inert ("\\end" ++ group "tabular").toList :=
      .cat (inert_of_isFlat (by decide)) hname
    have hhead : List.Forall₂ (fun n line => Adds n line.toList) [0, 0]
        ["\\par\\vspace" ++ group "4pt", "\\begin" ++ group "tabular" ++ group "lr"] :=
      .cons hvspace.adds (.cons hbegin.adds .nil)
    have hfoot : List.Forall₂ (fun n line => Adds n line.toList) [0]
        ["\\end" ++ group "tabular"] :=
      .cons hend.adds .nil
    have hlines := List.rel_append (List.rel_append hhead hns) hfoot
    have htotal : ([0, 0] ++ ns ++ [0]).sum = scene.measures.countP (· ≠ .gap) := by
      simp [hsum]
    rw [← htotal]
    exact adds_lines hlines

/-- Escaped text is lossless and safe. No two texts are escaped to one, the decoder reads each of
them back, and texts can be escaped in parts. In escaped text each special character has its place:
a backslash begins one of the ten sequences, what could end the line, the column or the text stands
behind the backslash of its own sequence or not at all, and a brace that is not escaped is one of
the pair that closes a command. So escaped text does nothing to the code around it. Nor does the
code of a picture, whatever its points are called; and the table of measures leaves behind one
column for each measure and nothing else, whatever the titles and the unit are. -/
theorem escape_lossless :
    Function.Injective escape ∧
    (∀ s, unescape (escape s) = s) ∧
    (∀ s t, escape (s ++ t) = escape s ++ escape t) ∧
    (∀ s before c after, (escape s).toList = before ++ c :: after → Placed before c after) ∧
    (∀ s, Inert (escape s).toList) ∧
    (∀ scene scale, Inert (code scene scale).toList) ∧
    ∀ scene : Scene Float, scene.Closed → ∀ unit, ∃ table, measureTable scene unit = .ok table ∧
      Adds (scene.measures.countP (· ≠ .gap)) table.toList :=
  ⟨Function.LeftInverse.injective unescape_escape, unescape_escape, escape_append,
    fun _ _ _ _ => placed_of_escape_eq, inert_escape, inert_code,
    fun _ hclosed => exists_measureTable hclosed⟩

/-- A scene with one measure, the title of which looks like code. -/
def titled : Scene Float where
  decimals := 2
  points := [.unvisited "A" (fun _ _ => .ok 0.0) ⟨0.0, 0.0⟩,
    .unvisited "B" (fun _ _ => .ok 0.0) ⟨1.0, 0.0⟩]
  lines := []
  segments := []
  polygons := []
  measures := [.distance "A" "B" (some "\x7d\\% & $_"), .gap]
  nodup := by decide

/-- The title is decoded, its per cent sign stands behind a backslash, and the table has the one
column that its measure has. -/
theorem escape_lossless_titled :
    escape "\x7d\\% & $_" = "\\\x7d\\textbackslash\x7b\x7d\\% \\& \\$\\_" ∧
    unescape "\\\x7d\\textbackslash\x7b\x7d\\% \\& \\$\\_" = "\x7d\\% & $_" ∧
    Placed "\\\x7d\\textbackslash\x7b\x7d\\".toList '%' " \\& \\$\\_".toList ∧
    titled.Closed ∧
    ∃ table, measureTable titled "cm^2" = .ok table ∧
      (Reader.mk false false false 0 0).read table.toList = ⟨false, false, false, 1, 0⟩ := by
  obtain ⟨-, hdecoded, -, hplaced, -, -, htable⟩ := escape_lossless
  have hescape :
      escape "\x7d\\% & $_" = "\\\x7d\\textbackslash\x7b\x7d\\% \\& \\$\\_" := by
    decide +kernel
  have hclosed : titled.Closed := by
    refine ⟨nofun, nofun, nofun, fun a b label hmem => ?_⟩
    cases List.mem_cons.1 hmem with
    | inl h =>
      cases h
      exact ⟨by decide, by decide⟩
    | inr h => exact absurd (List.mem_singleton.1 h) nofun
  refine ⟨hescape, hescape ▸ hdecoded _, hplaced "\x7d\\% & $_" _ _ _ ?_, hclosed, ?_⟩
  · rw [hescape]
    rfl
  · obtain ⟨table, hok, hadds⟩ := htable titled hclosed "cm^2"
    exact ⟨table, hok, hadds _ ⟨rfl, rfl⟩⟩

end PointRelaxation.Picture
