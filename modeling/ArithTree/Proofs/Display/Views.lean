import ArithTree.Proofs.Display.Labels
import ArithTree.Proofs.Results

/-!
# What is shown of a display tree

A chart holds all of a display tree. An outline holds the labels and, by the indentation, the
depths of the nodes in preorder, which is enough to build the tree again: what is below a node are
the deeper lines right behind it. The styles are told by the labels.

* `render_eq_ok` : the display tree by recursion.
* `Display.chart_injective` : different display trees have different charts.
* `Display.outline_injective` : different display trees of texts have different outlines.
-/

namespace ArithTree

/-! ### Rendering -/

section

variable {τ ε : Type} [Renderable τ ε] {shown : τ → Display} {p : τ → Prop}

/-- What the walk makes of trees whose nodes can all be described is what the recursion makes. -/
theorem exists_expandAll (hshown : ∀ tree, p tree → ∃ d, Renderable.describe tree = .ok d ∧
      shown tree = ⟨d.label, d.style, d.below.map shown⟩ ∧ ∀ below ∈ d.below, p below)
    (trees : List τ) (h : ∀ tree ∈ trees, p tree) :
    ∃ ds, Display.describeAll trees = .ok ds ∧ Display.expandAll ds = .ok (trees.map shown) := by
  match trees with
  | [] => exact ⟨[], rfl, by rw [Display.expandAll]; rfl⟩
  | tree :: trees =>
    obtain ⟨htree, htrees⟩ := List.forall_mem_cons.1 h
    obtain ⟨d, hd, htree, hbelow⟩ := hshown tree htree
    -- What is below a tree is walked on its own, which its size pays for.
    have hsize := Renderable.size_below hd
    obtain ⟨ds, hds, hlater⟩ := exists_expandAll hshown trees htrees
    obtain ⟨below, hdescribed, hchildren⟩ := exists_expandAll hshown d.below hbelow
    refine ⟨d :: ds, ?_, ?_⟩
    · rw [Display.describeAll, hd]
      simp only [Except.bind, hds, Except.map]
    · rw [Display.expandAll, hlater]
      simp only [Except.bind]
      split
      · next herror =>
        rw [hdescribed] at herror
        cases herror
      · next hok =>
        rw [hdescribed] at hok
        cases hok
        simp only [hchildren, Except.map, List.map_cons, htree]
termination_by total Renderable.size trees
decreasing_by
  all_goals
    simp only [total_cons]
    omega

theorem render_eq_ok (hshown : ∀ tree, p tree → ∃ d, Renderable.describe tree = .ok d ∧
      shown tree = ⟨d.label, d.style, d.below.map shown⟩ ∧ ∀ below ∈ d.below, p below)
    {tree : τ} (h : p tree) : render tree = .ok (shown tree) := by
  obtain ⟨d, hd, htree, hbelow⟩ := hshown tree h
  obtain ⟨ds, hds, hchildren⟩ := exists_expandAll hshown d.below hbelow
  rw [render, hd]
  simp only [Except.bind, hds, hchildren, Except.map, htree]

end

namespace Display

/-! ### Charts -/

mutual

/-- Different display trees have different charts. -/
theorem chart_injective {a b : Display} (h : a.chart = b.chart) : a = b := by
  match a, b with
  | mk _ _ [], mk _ _ [] =>
    simp only [chart, Chart.mk.injEq, and_true] at h
    rw [h.1, h.2]
  | mk _ _ [], mk _ _ (_ :: _) | mk _ _ (_ :: _), mk _ _ [] =>
    simp [chart] at h
  | mk _ _ (node :: nodes), mk _ _ (other :: others) =>
    simp only [chart, Chart.mk.injEq, Option.some.injEq, List.cons.injEq] at h
    obtain ⟨hlabel, hstyle, hnode, hnodes⟩ := h
    rw [hlabel, hstyle, chart_injective hnode, charts_injective hnodes]

theorem charts_injective {a b : List Display} (h : charts a = charts b) : a = b := by
  match a, b with
  | [], [] => rfl
  | [], _ :: _ | _ :: _, [] => simp [charts] at h
  | node :: nodes, other :: others =>
    simp only [charts, List.cons.injEq] at h
    rw [chart_injective h.1, charts_injective h.2]

end

/-! ### Outlines -/

mutual

/-- The nodes of a display tree in preorder, as pairs of depth and label. -/
def rows (depth : Nat) : Display → List (Nat × String)
  | mk label _ children => (depth, label) :: rowsAll (depth + 1) children

/-- The nodes of all trees of a list, which begin at a depth. -/
def rowsAll (depth : Nat) : List Display → List (Nat × String)
  | [] => []
  | node :: nodes => node.rows depth ++ rowsAll depth nodes

end

theorem flatMap_rows (depth : Nat) (nodes : List Display) :
    (nodes.map (depth, ·)).flatMap (fun item => item.2.rows item.1) = rowsAll depth nodes := by
  induction nodes with
  | nil => rfl
  | cons node nodes ih =>
    rw [List.map_cons, List.flatMap_cons, ih, rowsAll]

theorem outlineLines_eq (indent : String) (pending : List (Nat × Display)) :
    outlineLines indent pending = (pending.flatMap fun item => item.2.rows item.1).map
      fun row => outlineLine indent row.1 row.2 := by
  fun_induction outlineLines indent pending with
  | case1 => rfl
  | case2 depth node pending ih =>
    obtain ⟨label, style, below⟩ := node
    rw [ih, List.flatMap_append, children, flatMap_rows, List.flatMap_cons, rows, List.cons_append,
      List.map_cons]
    rfl

/-- The labels of a display tree are such as those in the tree of a text. -/
inductive Labelled : Display → Prop where
  | mk {label : String} {style : Style} {children : List Display}
    (isLabel : IsLabel style label.toList) (below : ∀ child ∈ children, Labelled child) :
    Labelled ⟨label, style, children⟩

theorem isLabel_of_mem_rowsAll {nodes : List Display} (h : ∀ node ∈ nodes, Labelled node)
    {depth : Nat} {row : Nat × String} (hrow : row ∈ rowsAll depth nodes) :
    ∃ style, IsLabel style row.2.toList := by
  match nodes with
  | [] => cases hrow
  | ⟨label, style, below⟩ :: nodes =>
    obtain ⟨⟨isLabel, hbelow⟩, hnodes⟩ := List.forall_mem_cons.1 h
    rw [rowsAll, rows, List.cons_append, List.mem_cons, List.mem_append] at hrow
    rcases hrow with rfl | hrow | hrow
    · exact ⟨style, isLabel⟩
    · exact isLabel_of_mem_rowsAll hbelow hrow
    · exact isLabel_of_mem_rowsAll hnodes hrow
termination_by sizeAll nodes
decreasing_by
  all_goals
    simp only [sizeAll, size]
    omega

/-- The next row behind the trees below a node is no deeper than the node. -/
theorem lt_of_mem_head? {depth : Nat} {behind : List (Nat × String)} (nodes : List Display)
    (h : ∀ row ∈ behind.head?, row.1 < depth) :
    ∀ row ∈ (rowsAll depth nodes ++ behind).head?, row.1 < depth + 1 := by
  intro row hrow
  cases nodes with
  | nil => exact Nat.lt_succ_of_lt (h row hrow)
  | cons node nodes =>
    obtain ⟨label, style, below⟩ := node
    rw [rowsAll, rows, List.cons_append, List.cons_append, List.head?_cons, Option.mem_some] at hrow
    exact hrow ▸ Nat.lt_succ_self depth

/-- The rows of a forest tell its trees, also if less deep rows follow. -/
theorem rowsAll_append_injective {nodes others : List Display}
    (hnodes : ∀ node ∈ nodes, Labelled node) (hothers : ∀ node ∈ others, Labelled node)
    {depth : Nat} {behind later : List (Nat × String)}
    (hbehind : ∀ row ∈ behind.head?, row.1 < depth) (hlater : ∀ row ∈ later.head?, row.1 < depth)
    (h : rowsAll depth nodes ++ behind = rowsAll depth others ++ later) :
    nodes = others ∧ behind = later := by
  match nodes, others with
  | [], [] => exact ⟨rfl, h⟩
  | [], ⟨label, style, below⟩ :: others =>
    -- The first row of a tree is too deep for what follows.
    rw [rowsAll, rowsAll, rows, List.nil_append] at h
    exact absurd (hbehind (depth, label) (h ▸ rfl)) (Nat.lt_irrefl depth)
  | ⟨label, style, below⟩ :: nodes, [] =>
    rw [rowsAll, rowsAll, rows, List.nil_append] at h
    exact absurd (hlater (depth, label) (h ▸ rfl)) (Nat.lt_irrefl depth)
  | ⟨label, style, below⟩ :: nodes, ⟨name, dress, under⟩ :: others =>
    obtain ⟨⟨isLabel, hbelow⟩, hnext⟩ := List.forall_mem_cons.1 hnodes
    obtain ⟨⟨isName, hunder⟩, hfollowing⟩ := List.forall_mem_cons.1 hothers
    simp only [rowsAll, rows, List.cons_append, List.append_assoc, List.cons.injEq, Prod.mk.injEq,
      true_and] at h
    obtain ⟨rfl, hrows⟩ := h
    -- The rows of the children end at the first row that is no deeper than their parent.
    obtain ⟨rfl, hrest⟩ := rowsAll_append_injective hbelow hunder
      (lt_of_mem_head? nodes hbehind) (lt_of_mem_head? others hlater) hrows
    obtain ⟨rfl, hbehind⟩ := rowsAll_append_injective hnext hfollowing hbehind hlater hrest
    exact ⟨by rw [isLabel.style_eq isName], hbehind⟩
termination_by sizeAll nodes
decreasing_by
  all_goals
    simp only [sizeAll, size]
    omega

theorem toList_outlineLine (depth : Nat) (label : String) :
    (outlineLine "  " depth label).toList = List.replicate (2 * depth) ' ' ++ label.toList := by
  have hindent (depth : Nat) :
      (List.replicate depth "  ").flatMap String.toList = List.replicate (2 * depth) ' ' := by
    induction depth with
    | zero => rfl
    | succ depth ih =>
      rw [List.replicate_succ, List.flatMap_cons, ih]
      rfl
  rw [outlineLine, String.toList_append, String.toList_join, hindent]

theorem lineFeed_not_mem_outlineLine {label : String} (h : '\n' ∉ label.toList) (depth : Nat) :
    '\n' ∉ (outlineLine "  " depth label).toList := by
  rw [toList_outlineLine, List.mem_append, not_or]
  exact ⟨fun hmem => absurd (List.eq_of_mem_replicate hmem) (by decide), h⟩

/-- The depth and the label that a line shows if no label has spaces in it. -/
def rowOfLine (line : List Char) : Nat × String :=
  (line.count ' ' / 2, String.ofList (line.filter (· ≠ ' ')))

theorem rowOfLine_outlineLine {label : String} (h : ' ' ∉ label.toList) (depth : Nat) :
    rowOfLine (outlineLine "  " depth label).toList = (depth, label) := by
  have hlabel : label.toList.filter (· ≠ ' ') = label.toList := by
    rw [List.filter_eq_self]
    intro c hc
    exact decide_eq_true fun heq => h (heq ▸ hc)
  rw [rowOfLine, toList_outlineLine, List.count_append, List.count_replicate_self,
    List.count_eq_zero.2 h, List.filter_append, hlabel, List.filter_replicate]
  simp

theorem outlineLines_node (indent : String) (node : Display) :
    outlineLines indent [(0, node)] =
      (rowsAll 0 [node]).map fun row => outlineLine indent row.1 row.2 := by
  rw [outlineLines_eq, ← flatMap_rows]
  rfl

/-- An outline can be cut into its lines again, since no line has a line feed in it. -/
theorem splitOn_outline {node : Display} (h : node.Labelled) :
    (node.outline "  ").toList.splitOn '\n' =
      (rowsAll 0 [node]).map fun row => (outlineLine "  " row.1 row.2).toList := by
  have hlines : ∀ line ∈ (rowsAll 0 [node]).map fun row => (outlineLine "  " row.1 row.2).toList,
      '\n' ∉ line := by
    intro line hline
    obtain ⟨row, hrow, rfl⟩ := List.mem_map.1 hline
    obtain ⟨style, isLabel⟩ := isLabel_of_mem_rowsAll (List.forall_mem_singleton.2 h) hrow
    exact lineFeed_not_mem_outlineLine (isLabel.not_mem_blank '\n' (by simp)) row.1
  have hne : (rowsAll 0 [node]).map (fun row => (outlineLine "  " row.1 row.2).toList) ≠ [] := by
    obtain ⟨label, style, below⟩ := node
    rw [rowsAll, rows, List.cons_append, List.map_cons]
    exact List.cons_ne_nil _ _
  rw [outline, String.toList_intercalate, outlineLines_node, List.map_map]
  exact List.splitOn_intercalate '\n' hlines hne

/-- The rows of a display tree of a text can be read from its outline by whatever reads single
lines. -/
theorem rows_of_outline {node : Display} (h : node.Labelled) {read : List Char → Nat × String}
    (hread : ∀ {label : String}, ' ' ∉ label.toList → ∀ depth,
      read (outlineLine "  " depth label).toList = (depth, label)) :
    ((node.outline "  ").toList.splitOn '\n').map read = rowsAll 0 [node] := by
  rw [splitOn_outline h, List.map_map]
  refine (List.map_congr_left fun row hrow => ?_).trans (List.map_id _)
  obtain ⟨style, isLabel⟩ := isLabel_of_mem_rowsAll (List.forall_mem_singleton.2 h) hrow
  exact hread (isLabel.not_mem_blank ' ' (by simp)) row.1

/-- Different display trees of texts have different outlines. -/
theorem outline_injective {a b : Display} (ha : a.Labelled) (hb : b.Labelled)
    (h : a.outline "  " = b.outline "  ") : a = b := by
  have hrows : rowsAll 0 [a] ++ [] = rowsAll 0 [b] ++ [] := by
    rw [← rows_of_outline ha rowOfLine_outlineLine, ← rows_of_outline hb rowOfLine_outlineLine, h]
  have hnone : ∀ row ∈ ([] : List (Nat × String)).head?, row.1 < 0 := by simp
  have htrees := rowsAll_append_injective (List.forall_mem_singleton.2 ha)
    (List.forall_mem_singleton.2 hb) hnone hnone hrows
  exact List.singleton_inj.1 htrees.1

end Display

end ArithTree
