import ArithTree.Proofs.Display.Views

/-!
# The tree that an outline shows

An outline shows by the indentation of its lines what is below what: below a line are the deeper
lines right behind it. So the tree can be built again from the lines, two spaces for each level, and
it has the labels of the tree that the outline was made of, in the same order.

* `Sketch` : a tree of labels, with its labels in postorder.
* `Sketch.ofRows` : the trees that rows of depths and labels show.
* `Display.ofOutline_outline` : an outline shows the tree that it was made of.
-/

namespace ArithTree

/-- A tree of labels. -/
inductive Sketch where
  | mk (label : String) (below : List Sketch)

namespace Sketch

mutual

/-- The labels in postorder: what is below a label from left to right, and then the label. -/
def postorder : Sketch → List String
  | mk label below => postorderAll below ++ [label]

/-- The labels of all trees of a list. -/
def postorderAll : List Sketch → List String
  | [] => []
  | tree :: trees => tree.postorder ++ postorderAll trees

end

/-- The trees that rows of depths and labels show, each with the depth of its root: below a row are
the deeper ones right behind it. -/
def ofRows : List (Nat × String) → List (Nat × Sketch)
  | [] => []
  | (depth, label) :: rows =>
    let later := ofRows rows
    (depth, mk label ((later.takeWhile (depth < ·.1)).map Prod.snd)) ::
      later.dropWhile (depth < ·.1)

/-- The depth that the indentation of a line tells, two spaces for each level, and the label behind
it. -/
def rowOf (line : List Char) : Nat × String :=
  ((line.takeWhile (· = ' ')).length / 2, String.ofList (line.dropWhile (· = ' ')))

/-- The trees that the lines of an outline show, each with the depth of its root. -/
def ofOutline (outline : String) : List (Nat × Sketch) :=
  ofRows ((outline.toList.splitOn '\n').map rowOf)

end Sketch

namespace Display

open Sketch

mutual

/-- The labels of a display tree. -/
def sketch : Display → Sketch
  | mk label _ children => .mk label (sketchAll children)

/-- The labels of all trees of a list. -/
def sketchAll : List Display → List Sketch
  | [] => []
  | node :: nodes => node.sketch :: sketchAll nodes

end

theorem sketchAll_eq (nodes : List Display) : sketchAll nodes = nodes.map sketch := by
  induction nodes with
  | nil => rfl
  | cons node nodes ih => rw [sketchAll, ih, List.map_cons]

/-! ### Rows -/

/-- The trees of a forest, with the depth at which they stand. -/
def rooted (depth : Nat) (nodes : List Display) : List (Nat × Sketch) :=
  nodes.map fun node => (depth, node.sketch)

/-- The first tree begins at the depth of the first row. -/
theorem mem_head?_ofRows {rows : List (Nat × String)} {tree : Nat × Sketch}
    (h : tree ∈ (ofRows rows).head?) : ∃ row ∈ rows.head?, row.1 = tree.1 := by
  cases rows with
  | nil => cases h
  | cons row rows =>
    cases h
    exact ⟨row, rfl, rfl⟩

/-- The rows of a forest show its trees, also if less deep rows follow. -/
theorem ofRows_rowsAll_append {depth : Nat} {behind : List (Nat × String)} (nodes : List Display)
    (hbehind : ∀ row ∈ behind.head?, row.1 < depth) :
    ofRows (rowsAll depth nodes ++ behind) = rooted depth nodes ++ ofRows behind := by
  match nodes with
  | [] => rfl
  | ⟨label, style, below⟩ :: nodes =>
    have hnext := lt_of_mem_head? nodes hbehind
    have hbelow := ofRows_rowsAll_append below hnext
    have hlater := ofRows_rowsAll_append nodes hbehind
    -- The children are deeper than their parent, and what stands behind them is not.
    have hdeeper : ∀ tree ∈ rooted (depth + 1) below, decide (depth < tree.1) = true := by
      intro tree htree
      obtain ⟨child, -, rfl⟩ := List.mem_map.1 htree
      exact decide_eq_true (Nat.lt_succ_self depth)
    have hstop : ∀ tree ∈ (ofRows (rowsAll depth nodes ++ behind)).head?,
        ¬ decide (depth < tree.1) = true := by
      intro tree htree
      obtain ⟨row, hrow, heq⟩ := mem_head?_ofRows htree
      have hlt := hnext row hrow
      rw [decide_eq_true_eq, ← heq]
      omega
    obtain ⟨htake, hdrop⟩ := Text.span_append hdeeper hstop
    have hlabels : (rooted (depth + 1) below).map Prod.snd = sketchAll below := by
      rw [rooted, List.map_map, sketchAll_eq]
      rfl
    rw [rowsAll, rows, List.cons_append, List.cons_append, List.append_assoc, ofRows, hbelow, htake,
      hdrop, hlabels, hlater]
    rfl
termination_by sizeAll nodes
decreasing_by
  all_goals
    simp only [sizeAll, size]
    omega

theorem rowOf_outlineLine {label : String} (h : ' ' ∉ label.toList) (depth : Nat) :
    rowOf (outlineLine "  " depth label).toList = (depth, label) := by
  have hlabel : ∀ c ∈ label.toList.head?, ¬ decide (c = ' ') = true := by
    intro c hc hspace
    rw [of_decide_eq_true hspace] at hc
    exact h (List.mem_of_mem_head? hc)
  have hindent : ∀ c ∈ List.replicate (2 * depth) ' ', decide (c = ' ') = true := fun c hc =>
    decide_eq_true (List.eq_of_mem_replicate hc)
  obtain ⟨htake, hdrop⟩ := Text.span_append hindent hlabel
  rw [rowOf, toList_outlineLine, htake, hdrop, List.length_replicate, String.ofList_toList,
    Nat.mul_div_cancel_left depth (by decide)]

/-- **An outline shows the tree that it was made of.** -/
theorem ofOutline_outline {node : Display} (h : node.Labelled) :
    ofOutline (node.outline "  ") = [(0, node.sketch)] := by
  have hnone : ∀ row ∈ ([] : List (Nat × String)).head?, row.1 < 0 := by simp
  have htrees := ofRows_rowsAll_append [node] hnone
  rw [List.append_nil] at htrees
  rw [ofOutline, rows_of_outline h rowOf_outlineLine, htrees]
  rfl

mutual

/-- There are as many rows as labels. -/
theorem length_rows (depth : Nat) (node : Display) :
    (node.rows depth).length = node.sketch.postorder.length := by
  obtain ⟨label, style, children⟩ := node
  rw [rows, sketch, postorder, List.length_cons, length_rowsAll, List.length_append,
    List.length_singleton]

theorem length_rowsAll (depth : Nat) (nodes : List Display) :
    (rowsAll depth nodes).length = (postorderAll (sketchAll nodes)).length := by
  match nodes with
  | [] => rfl
  | node :: nodes =>
    rw [rowsAll, sketchAll, postorderAll, List.length_append, List.length_append, length_rows,
      length_rowsAll]

end

/-- An outline has as many lines as the tree has labels. -/
theorem length_splitOn_outline {node : Display} (h : node.Labelled) :
    ((node.outline "  ").toList.splitOn '\n').length = node.sketch.postorder.length := by
  rw [splitOn_outline h, List.length_map, length_rowsAll]
  simp [sketchAll, postorderAll]

end Display

end ArithTree
