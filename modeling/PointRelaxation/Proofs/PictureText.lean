import PointRelaxation.Picture.Document
import PointRelaxation.Proofs.Draft
import PointRelaxation.Proofs.NodeNames

/-!
# What the code of a picture says

A picture is a text, and its statements are read here as a text: the command, the options in
brackets and the nodes in parentheses.

* `Picture.read`: a reader of statements, which knows nothing of scenes.
* `Picture.read_fill` and the like: what it finds in the code of each statement.
* `Picture.Item`: what a picture is to show of a scene, in the names of its points.
* `picture_faithful`: that is what the reader finds, statement by statement.
-/

namespace PointRelaxation

namespace Picture

/-! ## A reader of statements -/

/-- What stands in a statement: its command, its options, and the nodes that it refers to. -/
structure Reading where
  command : String
  options : List String
  nodes : List String
deriving DecidableEq

/-- What stands in parentheses outside of braces, up to the first brace; at the beginning a
parenthesis may be open. -/
def parentheses : Option (List Char) → List Char → List (List Char)
  | _, [] => []
  | none, c :: cs =>
    if c = '(' then parentheses (some []) cs
    else if c = '\x7b' then []
    else parentheses none cs
  | some inside, c :: cs =>
    if c = ')' then inside :: parentheses none cs
    else parentheses (some (inside ++ [c])) cs

/-- The nodes that a text refers to. What stands in parentheses is a node if it is made of letters
and digits; it can be a position as well, or a length. -/
def nodesIn (cs : List Char) : List String :=
  ((parentheses none cs).filter (·.all Char.isAlphanum)).map String.ofList

/-- The command and the options that stand at the head of a statement. -/
def readHead (head : List Char) : String × List String :=
  let options := ((head.dropWhile (· ≠ '[')).drop 1).takeWhile (· ≠ ']')
  (String.ofList ((head.drop 1).takeWhile Char.isAlpha),
    if options.isEmpty then []
    else (options.splitOn ',').map fun cs => String.ofList (cs.dropWhile (· = ' ')))

/-- Reads a statement. Its head goes up to the first parenthesis. -/
def read (text : String) : Reading :=
  let (command, options) := readHead (text.toList.takeWhile (· ≠ '('))
  ⟨command, options, nodesIn text.toList⟩

/-! ## Reading the parts of a text -/

/-- Whether a text opens neither parentheses nor braces. -/
def isPlain (cs : List Char) : Bool := cs.all fun c => c ≠ '(' && c ≠ '\x7b'

lemma parentheses_plain {cs : List Char} (h : isPlain cs) (rest : List Char) :
    parentheses none (cs ++ rest) = parentheses none rest := by
  induction cs with
  | nil => rfl
  | cons c cs ih =>
    simp only [isPlain, List.all_cons, Bool.and_eq_true, decide_eq_true_eq] at h
    obtain ⟨⟨hopen, hbrace⟩, hcs⟩ := h
    rw [List.cons_append, parentheses, if_neg hopen, if_neg hbrace]
    exact ih hcs

lemma parentheses_inside {cs : List Char} (h : ')' ∉ cs) (inside rest : List Char) :
    parentheses (some inside) (cs ++ ')' :: rest) = (inside ++ cs) :: parentheses none rest := by
  induction cs generalizing inside with
  | nil =>
    rw [List.nil_append, List.append_nil, parentheses]
    exact if_pos rfl
  | cons c cs ih =>
    obtain ⟨hc, hcs⟩ := not_or.1 (mt List.mem_cons.2 h)
    rw [List.cons_append, parentheses, if_neg (Ne.symm hc), ih hcs, List.append_assoc]
    rfl

lemma nodesIn_plain {cs : List Char} (h : isPlain cs) (rest : List Char) :
    nodesIn (cs ++ rest) = nodesIn rest := by
  unfold nodesIn
  rw [parentheses_plain h]

lemma nodesIn_parenthesis {cs : List Char} (h : ')' ∉ cs) (rest : List Char) :
    nodesIn ('(' :: cs ++ ')' :: rest) =
      (if cs.all Char.isAlphanum then [String.ofList cs] else []) ++ nodesIn rest := by
  have hread : parentheses none ('(' :: cs ++ ')' :: rest) = cs :: parentheses none rest :=
    parentheses_inside h [] rest
  unfold nodesIn
  rw [hread, List.filter_cons]
  split_ifs <;> rfl

lemma toList_group (s : String) : (group s).toList = '\x7b' :: s.toList ++ ['\x7d'] := by
  unfold group
  rw [String.toList_append, String.toList_append]
  rfl

/-- What a group in braces holds is not looked at. -/
lemma nodesIn_group (s : String) : nodesIn (group s).toList = [] := by
  rw [toList_group]
  rfl

lemma nodesIn_reference {node : String} (h : IsNode node) (rest : List Char) :
    nodesIn ((reference node).toList ++ rest) = node :: nodesIn rest := by
  have hclosed : ')' ∉ node.toList := fun hmem => absurd (h _ hmem) (by decide)
  have htext : (reference node).toList ++ rest = '(' :: node.toList ++ ')' :: rest := by
    unfold reference
    rw [String.toList_append, String.toList_append, List.append_assoc]
    rfl
  rw [htext, nodesIn_parenthesis hclosed, if_pos (List.all_eq_true.2 h), String.ofList_toList]
  rfl

/-! ## Numbers -/

/-- The characters of numbers. -/
def isNumeral (c : Char) : Bool := c = '-' || c = '.' || c.isDigit

lemma isNumeral_of_isDigit {c : Char} (h : c.isDigit) : isNumeral c :=
  Bool.or_eq_true_iff.2 (.inr h)

lemma mem_of_mem_dropTrailing {c d : Char} {cs : List Char} (h : c ∈ Text.dropTrailing d cs) :
    c ∈ cs := by
  unfold Text.dropTrailing at h
  exact List.mem_reverse.1 ((List.dropWhile_sublist _).subset (List.mem_reverse.1 h))

lemma isNumeral_of_mem_fixed {places num den : ℕ} {negative : Bool} {c : Char}
    (h : c ∈ Text.fixed places negative num den) : isNumeral c := by
  unfold Text.fixed at h
  simp only [List.mem_append] at h
  rcases h with (hminus | hdigits) | hfraction
  · cases negative with
    | false => exact absurd hminus List.not_mem_nil
    | true =>
      rw [List.mem_singleton.1 hminus]
      decide
  · exact isNumeral_of_isDigit (Text.isDigit_of_mem_digits hdigits)
  · split_ifs at hfraction
    · exact absurd hfraction List.not_mem_nil
    · rcases List.mem_cons.1 hfraction with rfl | hlow
      · decide
      · exact isNumeral_of_isDigit (Text.isDigit_of_mem_lowDigits hlow)

lemma isNumeral_of_mem_compact {negative : Bool} {num den : ℕ} {c : Char}
    (h : c ∈ compact negative num den) : isNumeral c := by
  unfold compact at h
  dsimp only at h
  split_ifs at h
  · rw [List.mem_singleton.1 h]
    decide
  · exact isNumeral_of_mem_fixed (mem_of_mem_dropTrailing (mem_of_mem_dropTrailing h))

/-- What a number is written with: the letters of the words for what is not finite, or what finite
numbers are written with. -/
lemma mem_writeFloat {finite : Bool → ℕ → ℤ → List Char} {x : Float} {c : Char}
    (h : c ∈ (Text.writeFloat finite x).toList) :
    c ∈ "-infa".toList ∨ ∃ negative significand exponent,
      c ∈ finite negative significand exponent := by
  unfold Text.writeFloat at h
  have hwords : ∀ word ∈ ["nan", "-inf", "inf"], word.toList.all ("-infa".toList.contains ·) := by
    decide
  have hmem (word : String) (hword : word ∈ ["nan", "-inf", "inf"]) (hc : c ∈ word.toList) :
      c ∈ "-infa".toList :=
    List.contains_iff_mem.1 (List.all_eq_true.1 (hwords word hword) c hc)
  cases hx : Binary64.ofFloat x with
  | undefined =>
    rw [hx] at h
    exact .inl (hmem "nan" (by decide) h)
  | infinite negative =>
    rw [hx] at h
    cases negative with
    | false => exact .inl (hmem "inf" (by decide) h)
    | true => exact .inl (hmem "-inf" (by decide) h)
  | finite negative significand exponent =>
    rw [hx] at h
    dsimp only at h
    rw [String.toList_ofList] at h
    exact .inr ⟨negative, significand, exponent, h⟩

/-- Numbers are told from what stands around them: no parenthesis and no comma is part of one. -/
lemma not_mem_number {c : Char} (hword : c ∉ "-infa".toList) (hfinite : ¬isNumeral c)
    (x : Float) : c ∉ (number x).toList := by
  intro h
  rcases mem_writeFloat h with hmem | ⟨_, _, _, hmem⟩
  · exact hword hmem
  · exact hfinite (isNumeral_of_mem_compact hmem)

/-- A position is no node: a comma stands between its numbers. -/
lemma nodesIn_position (v : Vec Float) (rest : List Char) :
    nodesIn ((position v).toList ++ rest) = nodesIn rest := by
  have htext : (position v).toList ++ rest =
      '(' :: (number v.x ++ ", " ++ number v.y).toList ++ ')' :: rest := by
    unfold position
    simp only [String.toList_append, List.append_assoc, List.cons_append]
    rfl
  have hclosed : ')' ∉ (number v.x ++ ", " ++ number v.y).toList := by
    simp only [String.toList_append, List.mem_append, not_or]
    exact ⟨⟨not_mem_number (by decide) (by decide) v.x, by decide⟩,
      not_mem_number (by decide) (by decide) v.y⟩
  have hcomma : ',' ∈ (number v.x ++ ", " ++ number v.y).toList := by
    simp only [String.toList_append, List.mem_append]
    exact .inl (.inr (by decide))
  rw [htext, nodesIn_parenthesis hclosed, if_neg]
  · rfl
  · intro hall
    exact absurd (List.all_eq_true.1 hall _ hcomma) (by decide)

lemma nodesIn_path {nodes : List String} (h : ∀ node ∈ nodes, IsNode node) (rest : List Char) :
    nodesIn ((" -- ".intercalate (nodes.map reference)).toList ++ rest) =
      nodes ++ nodesIn rest := by
  induction nodes with
  | nil => rfl
  | cons node nodes ih =>
    obtain ⟨hnode, hnodes⟩ := List.forall_mem_cons.1 h
    cases nodes with
    | nil => exact nodesIn_reference hnode rest
    | cons next nodes =>
      rw [List.map_cons, List.map_cons, String.intercalate_cons_cons, String.toList_append,
        String.toList_append, List.append_assoc, List.append_assoc, nodesIn_reference hnode,
        nodesIn_plain (by decide)]
      exact congrArg (node :: ·) (ih hnodes)

/-! ## Reading the statements -/

/-- The option of what is not stable. -/
def mark (stable : Bool) : List String := if stable then [] else ["unstable"]

lemma head?_reference (node : String) (rest : List Char) :
    ((reference node).toList ++ rest).head? = some '(' := by
  unfold reference
  rw [String.toList_append, String.toList_append]
  rfl

lemma head?_position (v : Vec Float) (rest : List Char) :
    ((position v).toList ++ rest).head? = some '(' := by
  unfold position
  simp only [String.toList_append]
  rfl

/-- A statement is read by its head, if that opens no parenthesis, and the nodes behind it. -/
lemma read_of_head {text head : String} {body : List Char} {command : String}
    {options : List String} (hhead : readHead head.toList = (command, options))
    (htext : text.toList = head.toList ++ body) (hplain : isPlain head.toList)
    (hbody : body.head? = some '(') : read text = ⟨command, options, nodesIn body⟩ := by
  have hbefore : text.toList.takeWhile (· ≠ '(') = head.toList := by
    obtain ⟨rest, rfl⟩ := List.head?_eq_some_iff.1 hbody
    have hopen : ∀ c ∈ head.toList, decide (c ≠ '(') = true := by
      intro c hc
      exact (Bool.and_eq_true_iff.1 (List.all_eq_true.1 hplain c hc)).1
    rw [htext, List.takeWhile_append_of_pos hopen, List.takeWhile_cons]
    exact List.append_nil _
  unfold read
  rw [hbefore, hhead, htext, nodesIn_plain hplain]

lemma read_coordinate {node : String} (h : IsNode node) (v : Vec Float) :
    read (Statement.coordinate node v).code = ⟨"coordinate", [], [node]⟩ := by
  have hhead : readHead "\\coordinate ".toList = ("coordinate", []) := by decide
  have htext : (Statement.coordinate node v).code.toList = "\\coordinate ".toList ++
      ((reference node).toList ++ (" at ".toList ++ ((position v).toList ++ []))) := by
    simp only [Statement.code, String.toList_append, List.append_assoc, List.append_nil]
  rw [read_of_head hhead htext (by decide) (head?_reference node _), nodesIn_reference h,
    nodesIn_plain (by decide), nodesIn_position]
  rfl

lemma read_clip (low high : Vec Float) :
    read (Statement.clip low high).code = ⟨"clip", [], []⟩ := by
  have hhead : readHead "\\clip ".toList = ("clip", []) := by decide
  have htext : (Statement.clip low high).code.toList = "\\clip ".toList ++
      ((position low).toList ++ (" rectangle ".toList ++ ((position high).toList ++ []))) := by
    simp only [Statement.code, String.toList_append, List.append_assoc, List.append_nil]
  rw [read_of_head hhead htext (by decide) (head?_position low _), nodesIn_position,
    nodesIn_plain (by decide), nodesIn_position]
  rfl

lemma head?_path (node : String) (nodes : List String) (rest : List Char) :
    ((" -- ".intercalate ((node :: nodes).map reference)).toList ++ rest).head? = some '(' := by
  cases nodes with
  | nil => exact head?_reference node rest
  | cons next nodes =>
    rw [List.map_cons, List.map_cons, String.intercalate_cons_cons, String.toList_append,
      String.toList_append, List.append_assoc, List.append_assoc]
    exact head?_reference node _

lemma read_fill {nodes : List String} (h : ∀ node ∈ nodes, IsNode node) (stable : Bool) :
    read (Statement.fill nodes stable : Statement Float).code =
      ⟨"fill", "polygon" :: mark stable, nodes⟩ := by
  have hhead : readHead ("\\fill" ++ bracketed (style ["polygon"] stable) ++ " ").toList =
      ("fill", "polygon" :: mark stable) := by
    cases stable <;> decide
  have htext : (Statement.fill nodes stable : Statement Float).code.toList =
      ("\\fill" ++ bracketed (style ["polygon"] stable) ++ " ").toList ++
        ((" -- ".intercalate (nodes.map reference)).toList ++ (" -- cycle".toList ++ [])) := by
    simp only [Statement.code, String.toList_append, List.append_assoc, List.append_nil]
  cases nodes with
  | nil =>
    -- nothing opens a parenthesis, so that the whole statement is its head
    cases stable <;> decide
  | cons node nodes =>
    rw [read_of_head hhead htext (by cases stable <;> decide) (head?_path node nodes _),
      nodesIn_path h, nodesIn_plain (by decide)]
    exact congrArg _ (List.append_nil (node :: nodes))

lemma read_line (start finish : Vec Float) (stable : Bool) :
    read (Statement.line start finish stable).code = ⟨"draw", "line" :: mark stable, []⟩ := by
  have hhead : readHead ("\\draw" ++ bracketed (style ["line"] stable) ++ " ").toList =
      ("draw", "line" :: mark stable) := by
    cases stable <;> decide
  have htext : (Statement.line start finish stable).code.toList =
      ("\\draw" ++ bracketed (style ["line"] stable) ++ " ").toList ++
        ((position start).toList ++ (" -- ".toList ++ ((position finish).toList ++ []))) := by
    simp only [Statement.code, String.toList_append, List.append_assoc, List.append_nil]
  rw [read_of_head hhead htext (by cases stable <;> decide) (head?_position start _),
    nodesIn_position, nodesIn_plain (by decide), nodesIn_position]
  rfl

lemma read_segment {a b : String} (ha : IsNode a) (hb : IsNode b) (stable : Bool) :
    read (Statement.segment a b stable : Statement Float).code =
      ⟨"draw", "segment" :: mark stable, [a, b]⟩ := by
  have hhead : readHead ("\\draw" ++ bracketed (style ["segment"] stable) ++ " ").toList =
      ("draw", "segment" :: mark stable) := by
    cases stable <;> decide
  have htext : (Statement.segment a b stable : Statement Float).code.toList =
      ("\\draw" ++ bracketed (style ["segment"] stable) ++ " ").toList ++
        ((reference a).toList ++ (" -- ".toList ++ ((reference b).toList ++ []))) := by
    simp only [Statement.code, String.toList_append, List.append_assoc, List.append_nil]
  rw [read_of_head hhead htext (by cases stable <;> decide) (head?_reference a _),
    nodesIn_reference ha, nodesIn_plain (by decide), nodesIn_reference hb]
  rfl

lemma read_dot {node : String} (h : IsNode node) (stable : Bool) :
    read (Statement.dot node stable : Statement Float).code = ⟨"fill", mark stable, [node]⟩ := by
  have hhead : readHead ("\\fill" ++ bracketed (style [] stable) ++ " ").toList =
      ("fill", mark stable) := by
    cases stable <;> decide
  have htext : (Statement.dot node stable : Statement Float).code.toList =
      ("\\fill" ++ bracketed (style [] stable) ++ " ").toList ++
        ((reference node).toList ++ " circle (\\gsDotR)".toList) := by
    simp only [Statement.code, String.toList_append, List.append_assoc]
  rw [read_of_head hhead htext (by cases stable <;> decide) (head?_reference node _),
    nodesIn_reference h]
  rfl

lemma read_label {node : String} (h : IsNode node) (text : String) (stable : Bool) :
    read (Statement.label node text stable : Statement Float).code =
      ⟨"node", "ptlabel" :: "above right" :: mark stable, [node]⟩ := by
  have hhead :
      readHead ("\\node" ++ bracketed (style ["ptlabel", "above right"] stable) ++ " at ").toList =
        ("node", "ptlabel" :: "above right" :: mark stable) := by
    cases stable <;> decide
  have htext : (Statement.label node text stable : Statement Float).code.toList =
      ("\\node" ++ bracketed (style ["ptlabel", "above right"] stable) ++ " at ").toList ++
        ((reference node).toList ++ (" ".toList ++ (group (escape text)).toList)) := by
    simp only [Statement.code, String.toList_append, List.append_assoc]
  rw [read_of_head hhead htext (by cases stable <;> decide) (head?_reference node _),
    nodesIn_reference h, nodesIn_plain (by decide), nodesIn_group]

/-! ## What a picture is to show -/

/-- What a picture shows, in the names of points. -/
inductive Item where
  | coordinate (name : String)
  | clip
  | polygon (corners : List String)
  | line (a b : String)
  | segment (a b : String)
  | dot (name : String)
  | label (name : String)
deriving DecidableEq

namespace Item

def command : Item → String
  | coordinate _ => "coordinate"
  | clip => "clip"
  | polygon _ => "fill"
  | line _ _ => "draw"
  | segment _ _ => "draw"
  | dot _ => "fill"
  | label _ => "node"

/-- The options of an item, whether or not it is stable. -/
def options : Item → List String
  | polygon _ => ["polygon"]
  | line _ _ => ["line"]
  | segment _ _ => ["segment"]
  | label _ => ["ptlabel", "above right"]
  | _ => []

/-- The points whose nodes an item refers to. A line is drawn beyond its points, between
positions. -/
def referred : Item → List String
  | coordinate name => [name]
  | polygon corners => corners
  | segment a b => [a, b]
  | dot name => [name]
  | label name => [name]
  | _ => []

/-- The points that are involved in what is drawn. The declaration of a node draws nothing. -/
def involved : Item → List String
  | polygon corners => corners
  | line a b => [a, b]
  | segment a b => [a, b]
  | dot name => [name]
  | label name => [name]
  | _ => []

end Item

variable (scene : Scene Float)

/-- Whether none of the points of given names is unstable. -/
def allStable (names : List String) : Bool :=
  scene.points.all fun p => p.name ∉ names || p.stable

/-- Whether the computed distance of the points of a line is not zero. -/
def isApart (line : String × String) : Bool :=
  match scene.find? line.1, scene.find? line.2 with
  | some a, some b => ¬ Scalar.Same (Vec.distance a.position b.position) 0.0
  | _, _ => false

/-- What is drawn of a scene, in this order. -/
def drawn : List Item :=
  .clip :: (scene.polygons.map .polygon ++
    ((scene.lines.filter (isApart scene)).map (fun l => .line l.1 l.2) ++
      (scene.segments.map (fun l => .segment l.1 l.2) ++
        scene.points.flatMap fun p => [.dot p.name, .label p.name])))

/-- What a picture is to show of a scene: the nodes of its points, and what is drawn. -/
def items : List Item := scene.points.map (fun p => .coordinate p.name) ++ drawn scene

/-- The reading that is due to an item. -/
def Item.reading (i : Item) : Reading :=
  ⟨i.command, i.options ++ mark (allStable scene i.involved), i.referred.map (node scene)⟩

variable {scene}

lemma mem_unstable_iff (i : Item) :
    "unstable" ∈ (i.reading scene).options ↔
      ∃ p ∈ scene.points, p.name ∈ i.involved ∧ p.stable = false := by
  have hown : "unstable" ∉ i.options := by cases i <;> simp [Item.options]
  have hmark : "unstable" ∈ mark (allStable scene i.involved) ↔
      allStable scene i.involved = false := by
    cases allStable scene i.involved <;> decide
  have hall : allStable scene i.involved = false ↔
      ∃ p ∈ scene.points, p.name ∈ i.involved ∧ p.stable = false := by
    simp [allStable]
  rw [Item.reading, List.mem_append, or_iff_right hown, hmark, hall]

/-- Of points that are looked up by name, all are stable if none of these names is that of an
unstable point. -/
lemma all_resolveAll (names : List String) :
    (resolveAll scene names).all Point.stable = allStable scene names := by
  unfold resolveAll allStable
  rw [Bool.eq_iff_iff, List.all_eq_true, List.all_eq_true]
  simp only [List.mem_filterMap, Scene.find?_eq_some_iff, Bool.or_eq_true, decide_eq_true_eq]
  constructor
  · intro hresolved p hp
    by_cases hname : p.name ∈ names
    · exact .inr (hresolved p ⟨p.name, hname, hp, rfl⟩)
    · exact .inl hname
  · rintro hall p ⟨name, hname, hp, rfl⟩
    exact (hall p hp).resolve_left (not_not_intro hname)

lemma allStable_nil : allStable scene [] = true := (all_resolveAll []).symm

lemma allStable_singleton {p : Point Float} (hp : p ∈ scene.points) :
    allStable scene [p.name] = p.stable := by
  have hfind : scene.find? p.name = some p := Scene.find?_eq_some_iff.2 ⟨hp, rfl⟩
  rw [← all_resolveAll, resolveAll, List.filterMap_cons, hfind]
  exact Bool.and_true p.stable

lemma allStable_pair {a b : Point Float} (ha : a ∈ scene.points) (hb : b ∈ scene.points) :
    allStable scene [a.name, b.name] = (a.stable && b.stable) := by
  have hfinda : scene.find? a.name = some a := Scene.find?_eq_some_iff.2 ⟨ha, rfl⟩
  have hfindb : scene.find? b.name = some b := Scene.find?_eq_some_iff.2 ⟨hb, rfl⟩
  rw [← all_resolveAll, resolveAll, List.filterMap_cons, hfinda, List.filterMap_cons, hfindb]
  exact congrArg (a.stable && ·) (Bool.and_true b.stable)

lemma isNode_of_mem_points {p : Point Float} (hp : p ∈ scene.points) :
    IsNode (node scene p.name) :=
  isNode_node (Scene.mem_names_of_mem hp)

lemma forall_isNode {names : List String} (h : ∀ name ∈ names, name ∈ scene.names) :
    ∀ n ∈ names.map (node scene), IsNode n := by
  intro n hn
  obtain ⟨name, hname, rfl⟩ := List.mem_map.1 hn
  exact isNode_node (h name hname)

/-! ## What is read, item by item -/

lemma reading_coordinate {p : Point Float} (hp : p ∈ scene.points) :
    read (Statement.coordinate (node scene p.name) p.position).code =
      (Item.coordinate p.name).reading scene := by
  rw [read_coordinate (isNode_of_mem_points hp)]
  show _ = Reading.mk _ ([] ++ mark (allStable scene [])) _
  rw [allStable_nil]
  rfl

lemma reading_clip (low high : Vec Float) :
    read (Statement.clip low high).code = Item.clip.reading scene := by
  rw [read_clip]
  show _ = Reading.mk _ ([] ++ mark (allStable scene [])) _
  rw [allStable_nil]
  rfl

lemma reading_polygon {corners : List String} (h : ∀ name ∈ corners, name ∈ scene.names) :
    read (fillOf scene corners).code = (Item.polygon corners).reading scene := by
  unfold fillOf
  rw [read_fill (forall_isNode h), all_resolveAll]
  rfl

lemma reading_segment {edge : String × String}
    (h : edge.1 ∈ scene.names ∧ edge.2 ∈ scene.names) :
    read (segmentOf scene edge).code = (Item.segment edge.1 edge.2).reading scene := by
  unfold segmentOf
  rw [read_segment (isNode_node h.1) (isNode_node h.2), all_resolveAll]
  rfl

lemma reading_dot {p : Point Float} (hp : p ∈ scene.points) :
    read (Statement.dot (node scene p.name) p.stable : Statement Float).code =
      (Item.dot p.name).reading scene := by
  rw [read_dot (isNode_of_mem_points hp), Item.reading, Item.involved, allStable_singleton hp]
  rfl

lemma reading_label {p : Point Float} (hp : p ∈ scene.points) :
    read (Statement.label (node scene p.name) p.name p.stable : Statement Float).code =
      (Item.label p.name).reading scene := by
  rw [read_label (isNode_of_mem_points hp), Item.reading, Item.involved, allStable_singleton hp]
  rfl

/-- A line is drawn exactly if its points are apart. -/
lemma reading_line (reach : Float) {line : String × String}
    (h : line.1 ∈ scene.names ∧ line.2 ∈ scene.names) :
    (lineOf? scene reach line).map (fun s => read s.code) =
      if isApart scene line then some ((Item.line line.1 line.2).reading scene) else none := by
  obtain ⟨a, ha, hline1⟩ := List.mem_map.1 h.1
  obtain ⟨b, hb, hline2⟩ := List.mem_map.1 h.2
  have hfinda : scene.find? line.1 = some a := Scene.find?_eq_some_iff.2 ⟨ha, hline1⟩
  have hfindb : scene.find? line.2 = some b := Scene.find?_eq_some_iff.2 ⟨hb, hline2⟩
  have hline : lineOf? scene reach line = lineThrough? reach a b := by
    unfold lineOf?
    rw [hfinda, hfindb]
    rfl
  have hstable : allStable scene [line.1, line.2] = (a.stable && b.stable) := by
    rw [← hline1, ← hline2]
    exact allStable_pair ha hb
  have hdue : (Item.line line.1 line.2).reading scene =
      ⟨"draw", "line" :: mark (a.stable && b.stable), []⟩ := by
    rw [← hstable]
    rfl
  rw [hline, hdue]
  unfold lineThrough? isApart Vec.distance
  rw [hfinda, hfindb]
  dsimp only
  by_cases hsame : Scalar.Same (Vec.norm (Vec.between a.position b.position)) 0.0
  · rw [if_pos hsame, if_neg (by simpa using hsame)]
    rfl
  · rw [if_neg hsame, if_pos (by simpa using hsame), Option.map_some, read_line]

/-- A map that is kept of some items only is that of the items that are kept. -/
lemma map_filterMap_of_map {β γ δ : Type} {f : β → Option γ} {g : γ → δ} {keep : β → Bool}
    {k : β → δ} {xs : List β}
    (h : ∀ x ∈ xs, (f x).map g = if keep x then some (k x) else none) :
    (xs.filterMap f).map g = (xs.filter keep).map k := by
  rw [List.map_filterMap, List.filterMap_congr h]
  clear h
  induction xs with
  | nil => rfl
  | cons x xs ih =>
    rw [List.filterMap_cons, List.filter_cons]
    cases keep x with
    | false => exact ih
    | true => exact congrArg (k x :: ·) ih

/-- A picture shows what is due, and each statement what is due to its item. -/
lemma readings_eq (h : scene.Closed) :
    ((statements scene).map fun s => read s.code) = (items scene).map (Item.reading scene) := by
  have hcoordinates : (scene.points.map fun p =>
        Statement.coordinate (node scene p.name) p.position).map (fun s => read s.code) =
      (scene.points.map fun p => Item.coordinate p.name).map (Item.reading scene) := by
    rw [List.map_map, List.map_map]
    exact List.map_congr_left fun p hp => reading_coordinate hp
  have hpolygons : (scene.polygons.map (fillOf scene)).map (fun s => read s.code) =
      (scene.polygons.map .polygon).map (Item.reading scene) := by
    rw [List.map_map, List.map_map]
    exact List.map_congr_left fun corners hcorners => reading_polygon (h.polygons corners hcorners)
  have hlines : (scene.lines.filterMap (lineOf? scene (frame scene).reach)).map
        (fun s => read s.code) =
      ((scene.lines.filter (isApart scene)).map fun l => Item.line l.1 l.2).map
        (Item.reading scene) := by
    rw [List.map_map]
    exact map_filterMap_of_map fun l hl => reading_line _ (h.lines l hl)
  have hsegments : (scene.segments.map (segmentOf scene)).map (fun s => read s.code) =
      (scene.segments.map fun l => Item.segment l.1 l.2).map (Item.reading scene) := by
    rw [List.map_map, List.map_map]
    exact List.map_congr_left fun l hl => reading_segment (h.segments l hl)
  have hmarks : (scene.points.flatMap fun p =>
        [Statement.dot (node scene p.name) p.stable,
          .label (node scene p.name) p.name p.stable]).map (fun s => read s.code) =
      (scene.points.flatMap fun p => [Item.dot p.name, .label p.name]).map
        (Item.reading scene) := by
    rw [List.map_flatMap, List.map_flatMap]
    refine List.flatMap_congr fun p hp => ?_
    rw [List.map_cons, List.map_cons, reading_dot hp, reading_label hp]
    rfl
  unfold statements items drawn
  simp only [List.map_append, List.append_assoc]
  rw [hcoordinates, hpolygons, hlines, hsegments, hmarks, List.map_singleton, reading_clip,
    List.map_cons]
  simp only [List.map_append]
  rfl

/-! ## Declarations and uses -/

/-- The cases of what is drawn. -/
lemma mem_drawn {i : Item} (hi : i ∈ drawn scene) :
    i = .clip ∨ (∃ corners ∈ scene.polygons, i = .polygon corners) ∨
      (∃ l ∈ scene.lines, i = .line l.1 l.2) ∨ (∃ l ∈ scene.segments, i = .segment l.1 l.2) ∨
        ∃ p ∈ scene.points, i = .dot p.name ∨ i = .label p.name := by
  simp only [drawn, List.mem_cons, List.mem_append, List.mem_map, List.mem_filter,
    List.mem_flatMap, List.not_mem_nil, or_false] at hi
  rcases hi with rfl | ⟨corners, hcorners, rfl⟩ | ⟨l, ⟨hl, -⟩, rfl⟩ | ⟨l, hl, rfl⟩ | ⟨p, hp, hi⟩
  · exact .inl rfl
  · exact .inr (.inl ⟨corners, hcorners, rfl⟩)
  · exact .inr (.inr (.inl ⟨l, hl, rfl⟩))
  · exact .inr (.inr (.inr (.inl ⟨l, hl, rfl⟩)))
  · exact .inr (.inr (.inr (.inr ⟨p, hp, hi⟩)))

lemma command_ne_of_mem_drawn {i : Item} (hi : i ∈ drawn scene) : i.command ≠ "coordinate" := by
  rcases mem_drawn hi with rfl | ⟨_, -, rfl⟩ | ⟨_, -, rfl⟩ | ⟨_, -, rfl⟩ | ⟨_, -, rfl | rfl⟩
  all_goals exact ne_of_beq_false rfl

/-- In a closed scene, what is drawn refers to points. -/
lemma mem_names_of_mem_drawn (h : scene.Closed) {i : Item} (hi : i ∈ drawn scene) :
    ∀ name ∈ i.referred, name ∈ scene.names := by
  rcases mem_drawn hi with rfl | ⟨corners, hcorners, rfl⟩ | ⟨_, -, rfl⟩ | ⟨l, hl, rfl⟩ |
    ⟨p, hp, rfl | rfl⟩
  · exact List.forall_mem_nil _
  · exact h.polygons corners hcorners
  · exact List.forall_mem_nil _
  · exact List.forall_mem_cons.2
      ⟨(h.segments l hl).1, List.forall_mem_singleton.2 (h.segments l hl).2⟩
  · exact List.forall_mem_singleton.2 (Scene.mem_names_of_mem hp)
  · exact List.forall_mem_singleton.2 (Scene.mem_names_of_mem hp)

/-- What is not a declaration is drawn, and stands behind all declarations. -/
lemma drawn_of_split {before after : List Item} {i : Item}
    (hitems : items scene = before ++ i :: after) (hi : i.command ≠ "coordinate") :
    i ∈ drawn scene ∧ ∀ name ∈ scene.names, .coordinate name ∈ before := by
  have hdeclared : ∀ name ∈ scene.names,
      Item.coordinate name ∈ scene.points.map fun p => Item.coordinate p.name := by
    intro name hname
    obtain ⟨p, hp, rfl⟩ := List.mem_map.1 hname
    exact List.mem_map_of_mem hp
  rcases List.append_eq_append_iff.1 hitems with ⟨more, rfl, hdrawn⟩ | ⟨more, hcoordinates, hdrawn⟩
  · rw [hdrawn]
    exact ⟨List.mem_append_cons_self, fun name hname =>
      List.mem_append_left _ (hdeclared name hname)⟩
  · -- a declaration that was left over would be the item itself
    cases more with
    | nil =>
      rw [List.append_nil] at hcoordinates
      have hmem : i ∈ drawn scene := by
        rw [← List.nil_append (drawn scene), ← hdrawn]
        exact List.mem_cons_self
      rw [← hcoordinates]
      exact ⟨hmem, hdeclared⟩
    | cons c more =>
      obtain rfl : i = c := (List.cons.inj hdrawn).1
      have hmem : i ∈ scene.points.map fun p => Item.coordinate p.name := by
        rw [hcoordinates]
        exact List.mem_append_cons_self
      obtain ⟨p, -, rfl⟩ := List.mem_map.1 hmem
      exact absurd rfl hi

lemma filter_coordinate_items :
    (items scene).filter (·.command = "coordinate") =
      scene.points.map fun p => .coordinate p.name := by
  have hcoordinates : (scene.points.map fun p => Item.coordinate p.name).filter
      (·.command = "coordinate") = scene.points.map fun p => .coordinate p.name := by
    rw [List.filter_eq_self]
    intro i hi
    obtain ⟨p, -, rfl⟩ := List.mem_map.1 hi
    rfl
  have hdrawn : (drawn scene).filter (·.command = "coordinate") = [] := by
    rw [List.filter_eq_nil_iff]
    intro i hi
    simpa using command_ne_of_mem_drawn hi
  rw [items, List.filter_append, hcoordinates, hdrawn, List.append_nil]

/-- What is read of declarations are the nodes of the points, in order. -/
lemma nodes_of_coordinates :
    (((items scene).map (Item.reading scene)).filter (·.command = "coordinate")).map
        Reading.nodes = scene.points.map fun p => [node scene p.name] := by
  have hdeclarations : ((items scene).map (Item.reading scene)).filter
        (·.command = "coordinate") =
      ((items scene).filter (·.command = "coordinate")).map (Item.reading scene) := by
    rw [List.filter_map]
    rfl
  rw [hdeclarations, filter_coordinate_items, List.map_map, List.map_map]
  rfl

/-- In a closed scene a node is declared before it is referred to. -/
lemma exists_declaration (h : scene.Closed) {before after : List Reading} {r : Reading}
    (hsplit : (items scene).map (Item.reading scene) = before ++ r :: after)
    (hr : r.command ≠ "coordinate") {n : String} (hn : n ∈ r.nodes) :
    ∃ d ∈ before, d.command = "coordinate" ∧ d.nodes = [n] := by
  obtain ⟨earlier, rest, hitems, rfl, hrest⟩ := List.map_eq_append_iff.1 hsplit
  obtain ⟨i, later, rfl, rfl, rfl⟩ := List.map_eq_cons_iff.1 hrest
  obtain ⟨hdrawn, hdeclared⟩ := drawn_of_split hitems hr
  obtain ⟨name, hname, rfl⟩ := List.mem_map.1 hn
  have hpoint := mem_names_of_mem_drawn h hdrawn name hname
  exact ⟨_, List.mem_map_of_mem (hdeclared name hpoint), rfl, rfl⟩

end Picture

/-- The code of the picture of any scene that is drafted by entries, with its points at any
positions and any of them stable, read statement by statement. It shows in order, and each of them
once: the nodes of the points, the frame, the polygons, the lines whose points are apart, the
segments, and a dot and a label for each point. Each statement refers to the nodes of its own points
in their order, and no two points share a node. Every point is declared once, in the order of their
registration, and no node is referred to before it is declared. And a statement has the option
`unstable` exactly if one of the points that are involved is not stable. -/
theorem picture_faithful (decimals : ℕ) (entries : List (Entry Float))
    (positions : String → Vec Float) (stable : String → Bool) :
    let scene := (((Scene.empty decimals).draft entries).placed positions).marked stable
    let texts := (Picture.statements scene).map Picture.Statement.code
    let readings := texts.map Picture.read
    (∀ scale, Picture.code scene scale = "\n".intercalate
      (["\\begin" ++ Picture.group "tikzpicture" ++ "[scale=" ++ Picture.number scale ++ "]"] ++
        texts.map (fun text => "  " ++ text ++ ";") ++
        ["\\end" ++ Picture.group "tikzpicture"])) ∧
    readings = (Picture.items scene).map (Picture.Item.reading scene) ∧
    Set.InjOn (Picture.node scene) {name | name ∈ scene.names} ∧
    (readings.filter (·.command = "coordinate")).map Picture.Reading.nodes =
      scene.points.map (fun p => [Picture.node scene p.name]) ∧
    (∀ before r after, readings = before ++ r :: after → r.command ≠ "coordinate" →
      ∀ n ∈ r.nodes, ∃ d ∈ before, d.command = "coordinate" ∧ d.nodes = [n]) ∧
    ∀ i ∈ Picture.items scene, "unstable" ∈ (i.reading scene).options ↔
      ∃ p ∈ scene.points, p.name ∈ i.involved ∧ p.stable = false := by
  intro scene texts readings
  have hclosed : scene.Closed :=
    ((Scene.closed_draft entries (Scene.closed_empty decimals)).mapPoints _).mapPoints _
  have hreadings : readings = (Picture.items scene).map (Picture.Item.reading scene) := by
    rw [← Picture.readings_eq hclosed]
    exact List.map_map
  refine ⟨fun scale => ?_, hreadings, Picture.node_injOn scene, ?_, ?_,
    fun i _ => Picture.mem_unstable_iff i⟩
  · rw [Picture.code, List.map_map]
    rfl
  · rw [hreadings]
    exact Picture.nodes_of_coordinates
  · intro before r after hsplit hr n hn
    rw [hreadings] at hsplit
    exact Picture.exists_declaration hclosed hsplit hr hn

end PointRelaxation
