import PointRelaxation.Proofs.EscapedText
import PointRelaxation.Proofs.Growth
import PointRelaxation.Text.Lines

/-!
# Names in printed lines

A name should hold no blank, so that it stands within one line wherever it is printed. The check
looks at all characters but a line feed at the very end, which it lets pass.

* `Text.exists_line_of_row`: what begins a row of a text and breaks no line begins a line.
* `isName_iff`: names are characters of which none is blank, and maybe a line feed behind them.
* `names_within_lines`: names without a line feed stand within one line.
* `name_across_lines`: a name with a line feed is registered, and does not.
-/

namespace PointRelaxation

/-! ## Lines of a text -/

namespace Text

/-- Characters of which none ends a line. -/
def Unbroken (cs : List Char) : Prop := ∀ c ∈ cs, isBreak c = false

instance (cs : List Char) : Decidable (Unbroken cs) :=
  decidable_of_iff (cs.all fun c => !isBreak c) (by simp [Unbroken])

lemma Unbroken.append {s t : String} (hs : Unbroken s.toList) (ht : Unbroken t.toList) :
    Unbroken (s ++ t).toList := by
  rw [String.toList_append]
  exact List.forall_mem_append.2 ⟨hs, ht⟩

lemma isBlank_of_isBreak {c : Char} (h : isBreak c) : isBlank c := by
  simp only [isBreak, List.contains_iff_mem, List.mem_cons, List.not_mem_nil, or_false] at h
  simp only [isBlank, Bool.or_eq_true, Bool.and_eq_true, decide_eq_true_eq, beq_iff_eq]
  omega

lemma unbroken_of_not_isBlank {cs : List Char} (h : ∀ c ∈ cs, isBlank c = false) :
    Unbroken cs := by
  intro c hc
  by_contra hbreak
  have hblank := isBlank_of_isBreak (Bool.eq_true_of_not_eq_false hbreak)
  rw [h c hc] at hblank
  cases hblank

lemma splitLines_of_not_isBreak {c : Char} (h : isBreak c = false) (line cs : List Char) :
    splitLines line (c :: cs) = splitLines (c :: line) cs := by
  rw [splitLines, h]
  · rfl
  · rintro _ rfl
    exact absurd h (by decide)

lemma splitLines_unbroken {word : List Char} (h : Unbroken word) (line rest : List Char) :
    splitLines line (word ++ rest) = splitLines (word.reverse ++ line) rest := by
  induction word generalizing line with
  | nil => rfl
  | cons c word ih =>
    obtain ⟨hc, hword⟩ := List.forall_mem_cons.1 h
    rw [List.cons_append, splitLines_of_not_isBreak hc, ih hword, List.reverse_cons,
      List.append_assoc]
    rfl

lemma splitLines_feed (line rest : List Char) :
    splitLines line ('\n' :: rest) = line.reverse :: splitLines [] rest := by
  rw [splitLines]
  · rfl
  · nofun

/-- Behind a line feed a line begins, whatever stands in front of it. -/
lemma exists_splitLines_feed (line before rest : List Char) :
    ∃ above, splitLines line (before ++ '\n' :: rest) = above ++ splitLines [] rest := by
  induction line, before using splitLines.induct with
  | case1 line hempty => exact ⟨[line.reverse], splitLines_feed line rest⟩
  | case2 line hline => exact ⟨[line.reverse], splitLines_feed line rest⟩
  | case3 line cs ih =>
    obtain ⟨above, habove⟩ := ih
    exact ⟨line.reverse :: above, congrArg (line.reverse :: ·) habove⟩
  | case4 line c cs hpair hbreak ih =>
    obtain ⟨above, habove⟩ := ih
    by_cases hreturn : c = '\r' ∧ cs = []
    · -- the line feed is one break with the carriage return
      obtain ⟨rfl, rfl⟩ := hreturn
      exact ⟨[line.reverse], rfl⟩
    · refine ⟨line.reverse :: above, ?_⟩
      rw [List.cons_append, splitLines, if_pos hbreak, habove]
      · rfl
      · intro cs' hc hcs
        cases cs with
        | nil => exact hreturn ⟨hc, rfl⟩
        | cons d cs => exact hpair cs hc (by rw [(List.cons.inj hcs).1])
  | case5 line c cs hpair hbreak ih =>
    obtain ⟨above, habove⟩ := ih
    refine ⟨above, ?_⟩
    rw [List.cons_append, splitLines_of_not_isBreak (Bool.eq_false_iff.2 hbreak), habove]

/-- What is read of a line already is the beginning of a line. -/
lemma exists_splitLines_eq_cons {line : List Char} (h : line ≠ []) (cs : List Char) :
    ∃ rest below, splitLines line cs = (line.reverse ++ rest) :: below ∧ rest <+: cs := by
  have hends : ∀ {line cs : List Char} {below}, ∃ rest below',
      line.reverse :: below = (line.reverse ++ rest) :: below' ∧ rest <+: cs :=
    ⟨[], _, by rw [List.append_nil], List.nil_prefix⟩
  induction line, cs using splitLines.induct with
  | case1 line hempty => exact absurd (List.isEmpty_iff.1 hempty) h
  | case2 line hline =>
    rw [splitLines, if_neg hline]
    exact hends
  | case3 line cs ih => exact hends
  | case4 line c cs hpair hbreak ih =>
    rw [splitLines, if_pos hbreak]
    · exact hends
    · exact hpair
  | case5 line c cs hpair hbreak ih =>
    obtain ⟨rest, below, hlines, hprefix⟩ := ih (List.cons_ne_nil _ _)
    refine ⟨c :: rest, below, ?_, (List.prefix_cons_inj c).2 hprefix⟩
    rw [splitLines_of_not_isBreak (Bool.eq_false_iff.2 hbreak), hlines, List.reverse_cons,
      List.append_assoc]
    rfl

/-- No line holds what ends a line. -/
lemma unbroken_of_mem_splitLines {line l cs : List Char} (h : Unbroken line)
    (hl : l ∈ splitLines line cs) : Unbroken l := by
  have hreverse : ∀ {line : List Char}, Unbroken line → Unbroken line.reverse :=
    fun hline c hc => hline c (List.mem_reverse.1 hc)
  have hnil : Unbroken [] := nofun
  induction line, cs using splitLines.induct with
  | case1 line hempty =>
    rw [splitLines, if_pos hempty] at hl
    exact absurd hl List.not_mem_nil
  | case2 line hline =>
    rw [splitLines, if_neg hline] at hl
    rw [List.mem_singleton.1 hl]
    exact hreverse h
  | case3 line cs ih =>
    rcases List.mem_cons.1 hl with rfl | hl
    · exact hreverse h
    · exact ih hnil hl
  | case4 line c cs hpair hbreak ih =>
    rw [splitLines, if_pos hbreak] at hl
    · rcases List.mem_cons.1 hl with rfl | hl
      · exact hreverse h
      · exact ih hnil hl
    · exact hpair
  | case5 line c cs hpair hbreak ih =>
    have hc := Bool.eq_false_iff.2 hbreak
    rw [splitLines_of_not_isBreak hc] at hl
    exact ih (List.forall_mem_cons.2 ⟨hc, h⟩) hl

lemma unbroken_of_mem_lines {s line : String} (h : line ∈ lines s) : Unbroken line.toList := by
  obtain ⟨l, hl, rfl⟩ := List.mem_map.1 h
  rw [String.toList_ofList]
  exact unbroken_of_mem_splitLines (List.forall_mem_nil _) hl

/-- What breaks no line and goes on up to a line feed at most ends in front of it. -/
lemma prefix_of_prefix_feed {front before after : List Char} (hfront : Unbroken front)
    (h : front <+: before ++ '\n' :: after) : front <+: before := by
  rcases List.prefix_or_prefix_of_prefix h (List.prefix_append before _) with hshort | ⟨more, rfl⟩
  · exact hshort
  · cases more with
    | nil => simp only [List.append_nil, List.prefix_rfl]
    | cons c more =>
      obtain ⟨rfl, -⟩ := List.cons_prefix_cons.1 ((List.prefix_append_right_inj before).1 h)
      exact absurd (hfront '\n' List.mem_append_cons_self) (by decide)

/-- What begins a text and breaks no line begins a line. -/
lemma exists_line_of_prefix {head s : String} (h : head.toList <+: s.toList)
    (hhead : Unbroken head.toList) (hne : head ≠ "") :
    ∃ line ∈ lines s, head.toList <+: line.toList ∧ line.toList <+: s.toList := by
  have hread : head.toList.reverse ≠ [] :=
    fun hnil => hne (String.toList_eq_nil_iff.1 (List.reverse_eq_nil_iff.1 hnil))
  obtain ⟨tail, htail⟩ := h
  obtain ⟨rest, below, hlines, hrest⟩ := exists_splitLines_eq_cons hread tail
  rw [List.reverse_reverse] at hlines
  refine ⟨String.ofList (head.toList ++ rest), List.mem_map.2 ⟨_, ?_, rfl⟩, ?_⟩
  · rw [← htail, splitLines_unbroken hhead, List.append_nil, hlines]
    exact List.mem_cons_self
  · rw [String.toList_ofList, ← htail]
    exact ⟨List.prefix_append _ _, (List.prefix_append_right_inj _).2 hrest⟩

/-- The lines behind a line feed. -/
lemma lines_subset_feed (before after : String) :
    lines after ⊆ lines (before ++ "\n" ++ after) := by
  obtain ⟨above, habove⟩ := exists_splitLines_feed [] before.toList after.toList
  have htext : (before ++ "\n" ++ after).toList = before.toList ++ '\n' :: after.toList := by
    rw [String.toList_append, String.toList_append, List.append_assoc]
    rfl
  unfold lines
  rw [htext, habove, List.map_append]
  exact List.subset_append_right _ _

/-- Of a text in rows: what begins a row and breaks no line begins a line, which ends where the row
does or earlier. -/
lemma exists_line_of_row {rows : List String} {row head : String} (hrow : row ∈ rows)
    (h : head.toList <+: row.toList) (hhead : Unbroken head.toList) (hne : head ≠ "") :
    ∃ line ∈ lines ("\n".intercalate rows), head.toList <+: line.toList ∧
      line.toList <+: row.toList := by
  induction rows with
  | nil => exact absurd hrow List.not_mem_nil
  | cons first rows ih =>
    cases rows with
    | nil =>
      obtain rfl := List.mem_singleton.1 hrow
      exact exists_line_of_prefix h hhead hne
    | cons next rows =>
      rw [String.intercalate_cons_cons]
      rcases List.mem_cons.1 hrow with rfl | hrow
      · have hbegin : head.toList <+:
            (row ++ "\n" ++ "\n".intercalate (next :: rows)).toList := by
          rw [String.append_assoc, String.toList_append]
          exact h.trans (List.prefix_append _ _)
        obtain ⟨line, hline, hfront, hback⟩ := exists_line_of_prefix hbegin hhead hne
        refine ⟨line, hline, hfront, ?_⟩
        rw [String.append_assoc, String.toList_append, String.toList_append] at hback
        exact prefix_of_prefix_feed (unbroken_of_mem_lines hline) hback
      · obtain ⟨line, hline, hfront⟩ := ih hrow
        exact ⟨line, lines_subset_feed _ _ hline, hfront⟩

lemma exists_line_of_head {rows : List String} {row head : String} (hrow : row ∈ rows)
    (h : head.toList <+: row.toList) (hhead : Unbroken head.toList) (hne : head ≠ "") :
    ∃ line ∈ lines ("\n".intercalate rows), head.toList <+: line.toList := by
  obtain ⟨line, hline, hfront, -⟩ := exists_line_of_row hrow h hhead hne
  exact ⟨line, hline, hfront⟩

/-- A row that breaks no line is a line. -/
lemma row_mem_lines {rows : List String} {row : String} (hrow : row ∈ rows)
    (h : Unbroken row.toList) (hne : row ≠ "") : row ∈ lines ("\n".intercalate rows) := by
  obtain ⟨line, hline, hfront, hback⟩ := exists_line_of_row hrow List.prefix_rfl h hne
  have hsame : line = row :=
    String.toList_injective (hback.eq_of_length_le hfront.length_le)
  rwa [← hsame]

end Text

/-! ## Names -/

/-- Names are characters of which none is blank, and maybe a line feed behind them. -/
lemma isName_iff {s : String} :
    isName s ↔ ∃ body : List Char, body ≠ [] ∧ (∀ c ∈ body, Text.isBlank c = false) ∧
      (s.toList = body ∨ s.toList = body ++ ['\n']) := by
  have hbody : isName s ↔ withoutFinalBreak s.toList ≠ [] ∧
      ∀ c ∈ withoutFinalBreak s.toList, Text.isBlank c = false := by
    unfold isName
    simp
  rw [hbody]
  constructor
  · rintro ⟨hne, hblank⟩
    refine ⟨_, hne, hblank, ?_⟩
    unfold withoutFinalBreak
    split_ifs with hbreak
    · exact .inr (List.dropLast_append_getLast? _ hbreak).symm
    · exact .inl rfl
  · rintro ⟨body, hne, hblank, hs | hs⟩
    · have hbreak : s.toList.getLast? ≠ some '\n' := by
        intro hlast
        rw [hs] at hlast
        exact absurd (hblank _ (List.mem_of_getLast? hlast)) (by decide)
      unfold withoutFinalBreak
      rw [if_neg hbreak, hs]
      exact ⟨hne, hblank⟩
    · unfold withoutFinalBreak
      rw [hs, if_pos List.getLast?_concat, List.dropLast_concat]
      exact ⟨hne, hblank⟩

/-- A text that ends in no line feed. -/
def EndsInNoFeed (s : String) : Prop := s.toList.getLast? ≠ some '\n'

lemma isName_iff_of_endsInNoFeed {s : String} (h : EndsInNoFeed s) :
    isName s ↔ s ≠ "" ∧ ∀ c ∈ s.toList, Text.isBlank c = false := by
  rw [isName_iff]
  constructor
  · rintro ⟨body, hne, hblank, rfl | hs⟩
    · exact ⟨mt String.toList_eq_nil_iff.2 hne, hblank⟩
    · unfold EndsInNoFeed at h
      rw [hs] at h
      exact absurd List.getLast?_concat h
  · rintro ⟨hne, hblank⟩
    exact ⟨s.toList, mt String.toList_eq_nil_iff.1 hne, hblank, .inl rfl⟩

/-! ## Rows that hold a name -/

namespace Scene

variable {scene : Scene Float}

lemma unbroken_padLeft {name : String} (h : Text.Unbroken name.toList) (width : ℕ) :
    Text.Unbroken (Text.padLeft width name).toList := by
  refine .append ?_ h
  rw [String.toList_ofList]
  intro c hc
  rw [List.eq_of_mem_replicate hc]
  rfl

/-- The row of a point begins with its name, behind the blanks that fill its column. -/
lemma exists_line_pointTable {p : Point Float} (hp : p ∈ scene.points)
    (hname : Text.Unbroken p.name.toList) :
    ∃ line ∈ Text.lines scene.pointTable,
      (Text.padLeft 6 p.name ++ "  (").toList <+: line.toList := by
  have hhead : Text.Unbroken (Text.padLeft 6 p.name ++ "  (").toList :=
    (unbroken_padLeft hname 6).append (by decide)
  refine Text.exists_line_of_head (List.mem_map_of_mem hp) ?_ hhead (by simp)
  simp only [String.toList_append, List.append_assoc]
  exact (List.prefix_append_right_inj _).2 (List.prefix_append _ _)

lemma unbroken_of_isNode {node : String} (h : Picture.IsNode node) :
    Text.Unbroken node.toList := by
  have hall : ∀ n ∈ [0x0A, 0x0B, 0x0C, 0x0D, 0x1C, 0x1D, 0x1E, 0x85, 0x2028, 0x2029],
      ¬ (Char.ofNat n).isAlphanum := by decide
  intro c hc
  by_contra hbreak
  have hmem := List.contains_iff_mem.1 (Bool.eq_true_of_not_eq_false hbreak)
  have hnot := hall c.toNat hmem
  rw [Char.ofNat_toNat] at hnot
  exact hnot (h c hc)

/-- No sequence that stands for a character breaks a line. -/
lemma unbroken_escape {s : String} (h : Text.Unbroken s.toList) :
    Text.Unbroken (Picture.escape s).toList := by
  have hsequences : ∀ q ∈ Picture.sequences, Text.Unbroken q.2 := by decide
  intro c hc
  rw [Picture.toList_escape] at hc
  obtain ⟨d, hd, hc⟩ := List.mem_flatMap.1 hc
  rcases Picture.escapeChar_cases d with hspecial | ⟨-, hself⟩
  · exact hsequences _ hspecial c hc
  · rw [hself] at hc
    rw [List.mem_singleton.1 hc]
    exact h d hd

/-- The label of a point is a line of its own. -/
lemma label_mem_lines {p : Point Float} (hp : p ∈ scene.points)
    (hname : Text.Unbroken p.name.toList) (scale : Float) :
    let label := Picture.Statement.label (Picture.node scene p.name) p.name p.stable
    "  " ++ label.code ++ ";" ∈ Text.lines (Picture.code scene scale) := by
  intro label
  have hnode := unbroken_of_isNode (Picture.isNode_node (mem_names_of_mem hp))
  have hoptions : Text.Unbroken ("\\node" ++
      Picture.bracketed (Picture.style ["ptlabel", "above right"] p.stable)).toList := by
    cases p.stable <;> decide
  have hreference : Text.Unbroken (Picture.reference (Picture.node scene p.name)).toList :=
    .append (.append (by decide) hnode) (by decide)
  have hgroup : Text.Unbroken (Picture.group (Picture.escape p.name)).toList :=
    .append (.append (by decide) (unbroken_escape hname)) (by decide)
  have hcode : Text.Unbroken label.code.toList :=
    .append (.append (.append (.append hoptions (by decide)) hreference) (by decide)) hgroup
  have hrow : Text.Unbroken ("  " ++ label.code ++ ";").toList :=
    .append (.append (by decide) hcode) (by decide)
  have hstatement : label ∈ Picture.statements scene :=
    List.mem_append_right _ (List.mem_flatMap.2 ⟨p, hp, .tail _ (.head _)⟩)
  refine Text.row_mem_lines ?_ hrow (by simp)
  exact List.mem_append_left _
    (List.mem_append_right _ (List.mem_map.2 ⟨label, hstatement, rfl⟩))

/-- The row of a measure begins with its title. -/
lemma exists_line_measureReport {a b unit report : String}
    (h : scene.measureReport unit = .ok report) (hm : .distance a b none ∈ scene.measures)
    (ha : Text.Unbroken a.toList) (hb : Text.Unbroken b.toList) :
    ∃ line ∈ Text.lines report, (Measure.title a b none ++ " = ").toList <+: line.toList := by
  have htitle : Text.Unbroken (Measure.title a b none).toList :=
    .append (.append (.append (.append (by decide) ha) (by decide)) hb) (by decide)
  have hhead : Text.Unbroken (Measure.title a b none ++ " = ").toList :=
    .append htitle (by decide)
  obtain ⟨rows, hrows, h⟩ := bind_eq_ok.1 h
  cases h
  obtain ⟨row, hrow, hread⟩ := exists_of_mem_mapM hrows hm
  obtain ⟨u, -, hread⟩ := bind_eq_ok.1 hread
  obtain ⟨v, -, hread⟩ := bind_eq_ok.1 hread
  cases hread
  refine Text.exists_line_of_head (List.mem_map_of_mem hrow) ?_ hhead (by simp)
  simp only [String.toList_append, List.append_assoc]
  exact (List.prefix_append_right_inj _).2 (List.prefix_append _ _)

end Scene

/-- Names have at least one character and no blanks, but that one line feed may end a name: this is
what the check accepts, of any text, and what the names of any scene are like. Of texts that end in
no line feed it accepts those that are not empty and hold no blank, so that such a name stands
within one line. Its row of the table of points begins with it, its label is a line of the picture,
and a measure between two such names that has no title of its own names both in the line that tells
the distance, whatever the other names, the other titles and the unit are. -/
theorem names_within_lines {decimals : ℕ} {scene : Scene Float}
    (h : (Scene.empty decimals).Later scene) :
    (∀ s, isName s ↔ ∃ body : List Char, body ≠ [] ∧ (∀ c ∈ body, Text.isBlank c = false) ∧
      (s.toList = body ∨ s.toList = body ++ ['\n'])) ∧
    (∀ s, EndsInNoFeed s →
      (isName s ↔ s ≠ "" ∧ ∀ c ∈ s.toList, Text.isBlank c = false)) ∧
    (∀ name ∈ scene.names, isName name ∧
      (EndsInNoFeed name → ∀ c ∈ name.toList, Text.isBlank c = false)) ∧
    (∀ p ∈ scene.points, EndsInNoFeed p.name →
      (∃ line ∈ Text.lines scene.pointTable,
        (Text.padLeft 6 p.name ++ "  (").toList <+: line.toList) ∧
      let label := Picture.Statement.label (Picture.node scene p.name) p.name p.stable
      ∀ scale, "  " ++ label.code ++ ";" ∈ Text.lines (Picture.code scene scale)) ∧
    ∀ unit, ∃ report, scene.measureReport unit = .ok report ∧
      ∀ a b, .distance a b none ∈ scene.measures → EndsInNoFeed a → EndsInNoFeed b →
        ∃ line ∈ Text.lines report,
          (Measure.title a b none ++ " = ").toList <+: line.toList := by
  have hnames : ∀ name ∈ scene.names, isName name := h.isName (List.forall_mem_nil _)
  have hblank : ∀ name ∈ scene.names, EndsInNoFeed name →
      ∀ c ∈ name.toList, Text.isBlank c = false :=
    fun name hname hend => ((isName_iff_of_endsInNoFeed hend).1 (hnames name hname)).2
  have hunbroken : ∀ name ∈ scene.names, EndsInNoFeed name → Text.Unbroken name.toList :=
    fun name hname hend => Text.unbroken_of_not_isBlank (hblank name hname hend)
  have hclosed := h.closed (Scene.closed_empty decimals)
  refine ⟨fun s => isName_iff, fun s hend => isName_iff_of_endsInNoFeed hend,
    fun name hname => ⟨hnames name hname, hblank name hname⟩, fun p hp hend => ?_,
    fun unit => ?_⟩
  · have hname := hunbroken p.name (Scene.mem_names_of_mem hp) hend
    exact ⟨Scene.exists_line_pointTable hp hname, Scene.label_mem_lines hp hname⟩
  · obtain ⟨rows, hrows⟩ := Picture.exists_readMeasures hclosed
    have hreport : ∃ report, scene.measureReport unit = .ok report :=
      ⟨_, bind_eq_ok.2 ⟨rows, hrows, rfl⟩⟩
    obtain ⟨report, hreport⟩ := hreport
    refine ⟨report, hreport, fun a b hm ha hb => ?_⟩
    obtain ⟨hamem, hbmem⟩ := hclosed.measures a b none hm
    exact Scene.exists_line_measureReport hreport hm (hunbroken a hamem ha) (hunbroken b hbmem hb)

/-- Two points and the distance between them: the second one in the table, and both in the
report. -/
theorem names_within_lines_pair :
    ∃ (decimals : ℕ) (scene : Scene Float), (Scene.empty decimals).Later scene ∧
      scene.names = ["A", "B"] ∧
      (∃ line ∈ Text.lines scene.pointTable, "     B  (".toList <+: line.toList) ∧
      ∃ report, scene.measureReport "cm" = .ok report ∧
        ∃ line ∈ Text.lines report, "[ A ; B ] = ".toList <+: line.toList := by
  obtain ⟨one, hone, hdecimals⟩ := exists_registered_one (some "A") (by decide)
  have hnames : one.names = ["A"] := hone.names_eq
  have hnew : "B" ∉ one.names := by
    rw [hnames]
    decide
  obtain ⟨p, two, hregister, hgrown⟩ := Scene.exists_register_zero (by rw [hdecimals]; decide)
    (show isName "B" by decide) hnew fun _ _ => .ok 0.0
  have hboth : two.names = ["A", "B"] := by
    rw [hgrown, hnames]
    rfl
  obtain ⟨decimals, hlater⟩ := hone.exists_later
  have htwo : (Scene.empty decimals).Later two := hlater.register hregister
  -- the distance is declared last
  let scene := (Entry.enter two (.measure "A" "B" none)).1
  have hscene : scene = { two with measures := two.measures ++ [.distance "A" "B" none] } := by
    obtain ⟨-, hadds, -⟩ | ⟨hrefused, -⟩ := Entry.enter_cases two (.measure "A" "B" none)
    · exact hadds
    · exact absurd ⟨by rw [hboth]; decide, by rw [hboth]; decide⟩ hrefused
  have hscenenames : scene.names = ["A", "B"] := by
    rw [hscene]
    exact hboth
  have hmeasure : .distance "A" "B" none ∈ scene.measures := by
    rw [hscene]
    exact List.mem_append_right _ List.mem_cons_self
  obtain ⟨-, -, -, hpoints, hreports⟩ := names_within_lines (htwo.enter (.measure "A" "B" none))
  obtain ⟨q, hq, hname⟩ : ∃ q ∈ scene.points, q.name = "B" := by
    apply List.mem_map.1
    show "B" ∈ scene.names
    rw [hscenenames]
    decide
  have hends : ∀ name ∈ ["A", "B"], EndsInNoFeed name := by
    unfold EndsInNoFeed
    decide
  obtain ⟨hrow, -⟩ := hpoints q hq (hname ▸ hends "B" (by decide))
  obtain ⟨report, hreport, htitles⟩ := hreports "cm"
  rw [hname] at hrow
  exact ⟨decimals, scene, htwo.enter _, hscenenames, hrow, report, hreport,
    htitles "A" "B" hmeasure (hends "A" (by decide)) (hends "B" (by decide))⟩

/-- A name that ends in a line feed is a name, and holds a blank. A point can be registered under
it, and then no line of the table holds the name. -/
theorem name_across_lines :
    isName "A\n" ∧ '\n' ∈ "A\n".toList ∧ Text.isBlank '\n' ∧
    ∃ (decimals : ℕ) (scene : Scene Float), (Scene.empty decimals).Later scene ∧
      scene.names = ["A\n"] ∧
      ∀ line ∈ Text.lines scene.pointTable, ¬ "A\n".toList <:+: line.toList := by
  obtain ⟨scene, hscene, -⟩ := exists_registered_one (some "A\n") (by decide)
  obtain ⟨decimals, hlater⟩ := hscene.exists_later
  refine ⟨by decide, by decide, by decide, decimals, scene, hlater, hscene.names_eq, ?_⟩
  intro line hline hname
  have hfeed : '\n' ∈ line.toList := hname.subset (by decide)
  exact absurd (Text.unbroken_of_mem_lines hline '\n' hfeed) (by decide)

end PointRelaxation
