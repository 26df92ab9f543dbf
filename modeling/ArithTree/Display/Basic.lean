import ArithTree.Text.Quoted
import ArithTree.Total

/-!
# Display trees

A display tree is what is shown of a tree: a label and a style for every node. Any type of trees
can be rendered whose nodes can be described one at a time, by label, style and the trees below
(`Renderable`). All trees below a node are described, from left to right, before any of them is
gone into, and the last one is gone into first; that decides which of several trees that cannot be
described is reported.

* `render` : the display tree of a tree.
* `Display.chart` : nested records, with a list of children where there are any.
* `Display.outline` : one line per node, indented by its depth.
-/

namespace ArithTree

/-- How a node is dressed. -/
inductive Style where
  | term
  | number
  | identifier
  | operator
  deriving DecidableEq

/-- The name of a style in a chart. -/
def Style.name : Style → String
  | term => "term"
  | number => "num"
  | identifier => "id"
  | operator => "op"

/-- A node as it is shown. -/
inductive Display where
  | mk (label : String) (style : Style) (children : List Display)

/-- A described node: what is shown of it, and the trees below. -/
structure Description (τ : Type) where
  /-- What the node is called. -/
  label : String
  /-- How it is dressed. -/
  style : Style
  /-- The trees below it. -/
  below : List τ

/-- Trees whose nodes can be described; `ε` says why one cannot. -/
class Renderable (τ : Type) (ε : outParam Type) where
  /-- The root of a tree and the trees below it. -/
  describe : τ → Except ε (Description τ)
  /-- The number of nodes of a tree, at least. -/
  size : τ → Nat
  /-- The trees below a node are smaller together. -/
  size_below : ∀ {tree d}, describe tree = .ok d → total size d.below < size tree

/-! ### Rendering -/

namespace Display

variable {τ ε : Type} [Renderable τ ε]

/-- The roots of all trees of a list, from left to right. -/
def describeAll : List τ → Except ε (List (Description τ))
  | [] => .ok []
  | tree :: trees =>
    (Renderable.describe tree).bind fun d => (describeAll trees).map (d :: ·)

/-- Bounds the nodes below a described node, itself included. -/
def weight (d : Description τ) : Nat := 1 + total Renderable.size d.below

theorem weight_describeAll {trees : List τ} {ds : List (Description τ)}
    (h : describeAll trees = .ok ds) : total weight ds ≤ total Renderable.size trees := by
  induction trees generalizing ds with
  | nil => cases h; simp
  | cons tree trees ih =>
    simp only [describeAll] at h
    cases hd : Renderable.describe tree with
    | error e => rw [hd] at h; cases h
    | ok d =>
      rw [hd] at h
      cases hs : describeAll trees with
      | error e => rw [hs] at h; cases h
      | ok rest =>
        rw [hs] at h
        cases h
        have := Renderable.size_below hd
        have := ih hs
        simp only [total_cons, weight]
        omega

/-- The display trees of described nodes, the last one made first. -/
def expandAll : List (Description τ) → Except ε (List Display)
  | [] => .ok []
  | d :: ds =>
    (expandAll ds).bind fun later =>
      match _ : describeAll d.below with
      | .error e => .error e
      | .ok below =>
        (expandAll below).map fun children => ⟨d.label, d.style, children⟩ :: later
termination_by ds => total weight ds
decreasing_by
  · simp only [total_cons, weight]; omega
  · next h =>
    have := weight_describeAll h
    simp only [total_cons, weight]
    omega

end Display

/-- The display tree of a tree. -/
def render {τ ε : Type} [Renderable τ ε] (tree : τ) : Except ε Display :=
  (Renderable.describe tree).bind fun root =>
    (Display.describeAll root.below).bind fun below =>
      (Display.expandAll below).map fun children => ⟨root.label, root.style, children⟩

namespace Display

/-- What the node is called. -/
def label : Display → String
  | mk label _ _ => label

/-- How the node is dressed. -/
def style : Display → Style
  | mk _ style _ => style

/-- The nodes right below. -/
def children : Display → List Display
  | mk _ _ children => children

/-- One line for a log: label, style and the number of children. -/
def summary (node : Display) : String :=
  "DisplayNode(" ++ Text.quote node.label ++ ", " ++ Text.quote node.style.name ++ ", " ++
    node.children.length.repr ++ " children)"

mutual

/-- The number of nodes. -/
def size : Display → Nat
  | mk _ _ children => 1 + sizeAll children

/-- The number of nodes of all trees of a list. -/
def sizeAll : List Display → Nat
  | [] => 0
  | node :: nodes => node.size + sizeAll nodes

end

theorem size_eq (node : Display) : node.size = 1 + sizeAll node.children := by
  cases node; rfl

theorem total_size (nodes : List Display) : total size nodes = sizeAll nodes := by
  induction nodes with
  | nil => rfl
  | cons node nodes ih => simp only [total_cons, sizeAll, ih]

end Display

/-! ### Charts -/

/-- A nested record of a display tree. A node without children has no list of them. -/
inductive Chart where
  | mk (label : String) (style : Style) (children : Option (List Chart))

mutual

/-- The chart of a display tree. -/
def Display.chart : Display → Chart
  | .mk label style [] => .mk label style none
  | .mk label style (node :: nodes) => .mk label style (some (node.chart :: Display.charts nodes))

/-- The charts of the display trees of a list. -/
def Display.charts : List Display → List Chart
  | [] => []
  | node :: nodes => node.chart :: Display.charts nodes

end

/-! ### Outlines -/

namespace Display

/-- A label behind the indentation of its depth. -/
def outlineLine (indent : String) (depth : Nat) (label : String) : String :=
  String.join (List.replicate depth indent) ++ label

/-- The lines of the pending nodes, each given with its depth. -/
def outlineLines (indent : String) : List (Nat × Display) → List String
  | [] => []
  | (depth, node) :: pending =>
    outlineLine indent depth node.label ::
      outlineLines indent (node.children.map (depth + 1, ·) ++ pending)
termination_by pending => total (fun item => item.2.size) pending
decreasing_by
  simp only [total_append, total_map, total_cons, total_size, size_eq node]
  omega

/-- The lines of a display tree, each node before its children. -/
def outline (indent : String) (node : Display) : String :=
  "\n".intercalate (outlineLines indent [(0, node)])

end Display

end ArithTree
