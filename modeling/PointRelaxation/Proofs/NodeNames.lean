import Mathlib.Data.Set.Function
import Mathlib.Order.Bounds.Basic
import PointRelaxation.Picture
import PointRelaxation.Proofs.Digits

/-!
# The names of nodes

What a node name may not hold is left out of it, so that points of different names can ask for one
node. They get different ones: a name that is taken is passed over.

* `Picture.exists_isLeast_fresh`: the name that is found is the first one that is not taken, and it
  is found after few tries.
* `Picture.isNode_node`: nodes have names of letters and digits.
* `Picture.node_injOn`: no two points of a scene share a node.
* `Picture.nodeNames_distinct`: the nodes of any points of different names.
-/

namespace PointRelaxation.Picture

/-! ## Names that are tried -/

/-- From the first on, all names that are tried differ. -/
lemma attempt_injective {base : String} {m n : ℕ} (hm : 1 ≤ m) (hn : 1 ≤ n)
    (h : attempt base m = attempt base n) : m = n := by
  have hlists := congrArg String.toList h
  unfold attempt at hlists
  -- a number adds a character to the base at least, and is told by what it adds
  split_ifs at hlists with hm' hn' hn'
  · omega
  · rw [String.toList_append, Text.toList_toString] at hlists
    exact absurd (List.append_right_eq_self.1 hlists.symm) (Text.digits_ne_nil n)
  · rw [String.toList_append, Text.toList_toString] at hlists
    exact absurd (List.append_right_eq_self.1 hlists) (Text.digits_ne_nil m)
  · rw [String.toList_append, String.toList_append, List.append_cancel_left_eq,
      Text.toList_toString, Text.toList_toString] at hlists
    exact Text.digits_injective hlists

/-- The name that is found is the first of those tried that is not taken, and it is found after at
most one try more than there are names taken. -/
lemma exists_isLeast_fresh (base : String) (used : List String) {k : ℕ} (hk : 1 ≤ k) :
    ∃ n, IsLeast {n | k ≤ n ∧ attempt base n ∉ used} n ∧ n ≤ k + used.length ∧
      fresh base used k = attempt base n := by
  -- a name that was tried is struck from the list, and is not among those tried later
  induction used, k using fresh.induct base with
  | case1 used k htaken ih =>
    obtain ⟨n, ⟨⟨hn, hfree⟩, hleast⟩, hbound, hfresh⟩ := ih (by omega)
    have hne : ∀ m, k + 1 ≤ m → attempt base m ≠ attempt base k := by
      intro m hm h
      have hmk := attempt_injective (by omega) hk h
      omega
    have hlength := List.length_erase_of_mem htaken
    have hpos := List.length_pos_of_mem htaken
    refine ⟨n, ⟨⟨by omega, ?_⟩, ?_⟩, by omega, ?_⟩
    · rwa [List.mem_erase_of_ne (hne n hn)] at hfree
    · rintro m ⟨hm, hmfree⟩
      rcases Nat.eq_or_lt_of_le hm with rfl | hlt
      · exact absurd htaken hmfree
      · exact hleast ⟨hlt, fun h => hmfree (List.mem_of_mem_erase h)⟩
    · rw [fresh, dif_pos htaken]
      exact hfresh
  | case2 used k hfree =>
    refine ⟨k, ⟨⟨le_rfl, hfree⟩, fun m hm => hm.1⟩, by omega, ?_⟩
    rw [fresh, dif_neg hfree]

lemma fresh_not_mem {base : String} {used : List String} {k : ℕ} (hk : 1 ≤ k) :
    fresh base used k ∉ used := by
  obtain ⟨n, ⟨⟨-, hfree⟩, -⟩, -, hfresh⟩ := exists_isLeast_fresh base used hk
  rw [hfresh]
  exact hfree

/-! ## The form of node names -/

/-- A name of letters and digits. -/
def IsNode (node : String) : Prop := ∀ c ∈ node.toList, c.isAlphanum

lemma isNode_attempt {base : String} (h : IsNode base) (k : ℕ) : IsNode (attempt base k) := by
  unfold attempt
  split_ifs
  · exact h
  · intro c hc
    rw [String.toList_append, Text.toList_toString] at hc
    rcases List.mem_append.1 hc with hbase | hdigit
    · exact h c hbase
    · exact Bool.or_eq_true_iff.2 (.inr (Text.isDigit_of_mem_digits hdigit))

lemma isNode_baseName (name : String) : IsNode (baseName name) := by
  intro c hc
  unfold baseName at hc
  rw [String.toList_ofList] at hc
  rcases List.mem_cons.1 hc with rfl | hkept
  · decide
  · exact (List.mem_filter.1 hkept).2

/-! ## The nodes of points -/

/-- The nodes of points, given the names that are used already. -/
def nodesFrom (used names : List String) : List (String × String) := names.zip (assign used names)

lemma lookup_nodesFrom_cons (used : List String) (first name : String) (names : List String) :
    (nodesFrom used (first :: names)).lookup name =
      if name = first then some (fresh (baseName first) used 1)
      else (nodesFrom (fresh (baseName first) used 1 :: used) names).lookup name := by
  show List.lookup name (_ :: nodesFrom _ names) = _
  rw [List.lookup_cons]
  by_cases h : name = first
  · rw [if_pos h, beq_iff_eq.2 h]
  · rw [if_neg h, beq_false_of_ne h]

/-- Each point gets a node, of a name that was not used before. -/
lemma exists_lookup_nodesFrom {name : String} {names : List String} (h : name ∈ names)
    (used : List String) :
    ∃ node, (nodesFrom used names).lookup name = some node ∧ node ∉ used ∧ IsNode node := by
  induction names generalizing used with
  | nil => exact absurd h List.not_mem_nil
  | cons first names ih =>
    rw [lookup_nodesFrom_cons]
    by_cases hfirst : name = first
    · obtain ⟨k, -, -, hk⟩ := exists_isLeast_fresh (baseName first) used le_rfl
      rw [if_pos hfirst]
      refine ⟨_, rfl, fresh_not_mem le_rfl, ?_⟩
      rw [hk]
      exact isNode_attempt (isNode_baseName first) k
    · obtain ⟨node, hnode, hfree, hform⟩ :=
        ih (List.mem_of_ne_of_mem hfirst h) (fresh (baseName first) used 1 :: used)
      rw [if_neg hfirst]
      exact ⟨node, hnode, fun hused => hfree (List.mem_cons_of_mem _ hused), hform⟩

/-- A node that is used is not assigned again. -/
lemma lookup_nodesFrom_ne {name node : String} {names used : List String} (h : name ∈ names)
    (hused : node ∈ used) : (nodesFrom used names).lookup name ≠ some node := by
  intro hlookup
  obtain ⟨node', hnode', hfree, -⟩ := exists_lookup_nodesFrom h used
  cases hlookup.symm.trans hnode'
  exact hfree hused

/-- No two points have one node. -/
lemma eq_of_lookup_nodesFrom {a b : String} {names : List String} (ha : a ∈ names)
    (hb : b ∈ names) (used : List String)
    (h : (nodesFrom used names).lookup a = (nodesFrom used names).lookup b) : a = b := by
  induction names generalizing used with
  | nil => exact absurd ha List.not_mem_nil
  | cons first names ih =>
    rw [lookup_nodesFrom_cons, lookup_nodesFrom_cons] at h
    split_ifs at h with hafirst hbfirst hbfirst
    · rw [hafirst, hbfirst]
    · have hb' := List.mem_of_ne_of_mem hbfirst hb
      exact absurd h.symm (lookup_nodesFrom_ne hb' List.mem_cons_self)
    · have ha' := List.mem_of_ne_of_mem hafirst ha
      exact absurd h (lookup_nodesFrom_ne ha' List.mem_cons_self)
    · exact ih (List.mem_of_ne_of_mem hafirst ha) (List.mem_of_ne_of_mem hbfirst hb) _ h

variable {α : Type} {scene : Scene α}

lemma lookup_nodeNames {name : String} (h : name ∈ scene.names) :
    (nodesFrom [] scene.names).lookup name = some (node scene name) := by
  obtain ⟨_, hnode, -⟩ := exists_lookup_nodesFrom h []
  unfold node nodeNames
  rw [show scene.names.zip (assign [] scene.names) = nodesFrom [] scene.names from rfl, hnode]
  rfl

lemma isNode_node {name : String} (h : name ∈ scene.names) : IsNode (node scene name) := by
  obtain ⟨node', hnode, -, hform⟩ := exists_lookup_nodesFrom h []
  cases hnode.symm.trans (lookup_nodeNames h)
  exact hform

/-- No two points of a scene share a node. -/
lemma node_injOn (scene : Scene α) : Set.InjOn (node scene) {name | name ∈ scene.names} := by
  intro a ha b hb h
  apply eq_of_lookup_nodesFrom ha hb []
  rw [lookup_nodeNames ha, lookup_nodeNames hb, h]

/-! ## The nodes of any points -/

lemma length_assign (used names : List String) : (assign used names).length = names.length := by
  induction names generalizing used with
  | nil => rfl
  | cons first names ih => exact congrArg (· + 1) (ih _)

lemma map_fst_nodeNames (names : List String) : (nodeNames names).map Prod.fst = names :=
  List.map_fst_zip (length_assign [] names).ge

lemma map_snd_nodeNames (names : List String) : (nodeNames names).map Prod.snd = assign [] names :=
  List.map_snd_zip (length_assign [] names).le

/-- No node is assigned twice, nor one that was used before. -/
lemma nodup_assign (used names : List String) :
    (assign used names).Nodup ∧ ∀ node ∈ assign used names, node ∉ used := by
  induction names generalizing used with
  | nil => exact ⟨List.nodup_nil, fun node h => absurd h List.not_mem_nil⟩
  | cons first names ih =>
    obtain ⟨hnodup, hfree⟩ := ih (fresh (baseName first) used 1 :: used)
    refine ⟨List.nodup_cons.2 ⟨fun h => hfree _ h List.mem_cons_self, hnodup⟩, ?_⟩
    intro node hnode
    rcases List.mem_cons.1 hnode with rfl | hnode
    · exact fresh_not_mem le_rfl
    · exact fun hused => hfree node hnode (List.mem_cons_of_mem _ hused)

/-- The nodes of the first points are assigned without regard to those behind them. -/
lemma assign_append (used before after : List String) :
    assign used (before ++ after) =
      assign used before ++ assign ((assign used before).reverse ++ used) after := by
  induction before generalizing used with
  | nil => rfl
  | cons first before ih =>
    have hrest := ih (fresh (baseName first) used 1 :: used)
    simp only [List.cons_append, assign, List.reverse_cons, List.append_assoc, List.nil_append]
    exact congrArg _ hrest

lemma nodeNames_append (before after : List String) :
    nodeNames (before ++ after) =
      nodeNames before ++ nodesFrom ((nodeNames before).map Prod.snd).reverse after := by
  rw [map_snd_nodeNames]
  unfold nodeNames nodesFrom
  rw [assign_append, List.append_nil, List.zip_append (length_assign [] before).symm]

/-- What is looked up for a point is its node, if no other point has its name. -/
lemma lookup_of_mem_nodesFrom {used names : List String} (hnd : names.Nodup)
    {e : String × String} (he : e ∈ nodesFrom used names) :
    (nodesFrom used names).lookup e.1 = some e.2 := by
  induction names generalizing used with
  | nil => exact absurd he List.not_mem_nil
  | cons first names ih =>
    obtain ⟨hfirst, hnd⟩ := List.nodup_cons.1 hnd
    rw [lookup_nodesFrom_cons]
    rcases List.mem_cons.1 he with rfl | he
    · exact if_pos rfl
    · have hmem : e.1 ∈ names := (List.of_mem_zip he).1
      rw [if_neg (ne_of_mem_of_not_mem hmem hfirst)]
      exact ih hnd he

/-- A name that is tried is a letter and what the base and a number hold. -/
lemma exists_toList_attempt (name : String) (k : ℕ) :
    ∃ rest, (attempt (baseName name) k).toList = 'p' :: rest ∧ ∀ c ∈ rest, c.isAlphanum := by
  have hform := isNode_attempt (isNode_baseName name) k
  obtain ⟨rest, hrest⟩ : ∃ rest, (attempt (baseName name) k).toList = 'p' :: rest := by
    unfold attempt baseName
    split_ifs
    · exact ⟨_, String.toList_ofList⟩
    · rw [String.toList_append, String.toList_ofList]
      exact ⟨_, rfl⟩
  refine ⟨rest, hrest, fun c hc => hform c ?_⟩
  rw [hrest]
  exact List.mem_cons_of_mem _ hc

/-- Each node is one of the names that are tried for its point. -/
lemma exists_attempt_of_mem {used names : List String} {e : String × String}
    (he : e ∈ nodesFrom used names) : ∃ n, e.2 = attempt (baseName e.1) n := by
  induction names generalizing used with
  | nil => exact absurd he List.not_mem_nil
  | cons first names ih =>
    rcases List.mem_cons.1 he with rfl | he
    · obtain ⟨n, -, -, hfresh⟩ := exists_isLeast_fresh (baseName first) used le_rfl
      exact ⟨n, hfresh⟩
    · exact ih he

/-- Behind the nodes of the earlier points a point has the first of the names tried for it that none
of them has. -/
lemma exists_nodeNames_eq (before : List String) (name : String) (after : List String) :
    let taken := (nodeNames before).map Prod.snd
    ∃ n rest, nodeNames (before ++ name :: after) =
        nodeNames before ++ (name, attempt (baseName name) n) :: rest ∧
      IsLeast {n | 1 ≤ n ∧ attempt (baseName name) n ∉ taken} n ∧ n ≤ before.length + 1 := by
  intro taken
  obtain ⟨n, hleast, hbound, hfresh⟩ := exists_isLeast_fresh (baseName name) taken.reverse le_rfl
  have hlength : taken.length = before.length :=
    (congrArg List.length (map_snd_nodeNames before)).trans (length_assign [] before)
  simp only [List.mem_reverse] at hleast
  rw [List.length_reverse, hlength] at hbound
  refine ⟨n, nodesFrom (attempt (baseName name) n :: taken.reverse) after, ?_, hleast, by omega⟩
  rw [nodeNames_append]
  unfold nodesFrom
  rw [assign, hfresh]
  rfl

/-- The nodes of points of different names, whatever these names are. Each point finds one node, and
no two points find the same. A node is a `p` with ASCII letters and digits behind it. It is the
first of the names that are tried for its point that no earlier point has taken: the base itself if
that is free, and never more names are tried in vain than there are earlier points. -/
theorem nodeNames_distinct {names : List String} (hnd : names.Nodup) :
    (nodeNames names).map Prod.fst = names ∧
    ((nodeNames names).map Prod.snd).Nodup ∧
    (∀ e ∈ nodeNames names, (nodeNames names).lookup e.1 = some e.2 ∧
      ∃ rest, e.2.toList = 'p' :: rest ∧ ∀ c ∈ rest, c.isAlphanum) ∧
    ∀ before name after, names = before ++ name :: after →
      let taken := (nodeNames before).map Prod.snd
      ∃ n rest, nodeNames names =
          nodeNames before ++ (name, attempt (baseName name) n) :: rest ∧
        IsLeast {n | 1 ≤ n ∧ attempt (baseName name) n ∉ taken} n ∧ n ≤ before.length + 1 ∧
        (baseName name ∉ taken → attempt (baseName name) n = baseName name) := by
  refine ⟨map_fst_nodeNames names, ?_, fun e he => ⟨lookup_of_mem_nodesFrom hnd he, ?_⟩, ?_⟩
  · rw [map_snd_nodeNames]
    exact (nodup_assign [] names).1
  · obtain ⟨n, hn⟩ := exists_attempt_of_mem he
    rw [hn]
    exact exists_toList_attempt e.1 n
  · intro before name after hnames taken
    obtain ⟨n, rest, hnodes, hleast, hbound⟩ := exists_nodeNames_eq before name after
    refine ⟨n, rest, hnames ▸ hnodes, hleast, hbound, fun hfree => ?_⟩
    -- the base is the first name that is tried
    have hone : n ≤ 1 := hleast.2 ⟨le_rfl, hfree⟩
    exact if_pos hone

/-- Names that leave the same base, that leave none, and that look like another one with a
number. -/
theorem nodeNames_distinct_alike :
    ["a", "a!", "a2", "", "!?", "2"].Nodup ∧
    nodeNames ["a", "a!", "a2", "", "!?", "2"] =
      [("a", "pa"), ("a!", "pa2"), ("a2", "pa22"), ("", "p"), ("!?", "p2"), ("2", "p22")] ∧
    ((nodeNames ["a", "a!", "a2", "", "!?", "2"]).map Prod.snd).Nodup := by
  have hnd : ["a", "a!", "a2", "", "!?", "2"].Nodup := by decide
  refine ⟨hnd, ?_, (nodeNames_distinct hnd).2.1⟩
  decide +kernel

end PointRelaxation.Picture
