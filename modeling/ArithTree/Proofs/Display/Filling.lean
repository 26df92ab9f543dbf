import Mathlib.Data.List.Forall2
import Mathlib.Data.List.Nodup
import ArithTree.Proofs.Display.Views

/-!
# Trees that are filled in

Display trees and charts can be made in cells that name the places of their children. Of the nodes
that wait to be filled in, the last one is taken first: the trees below it are described, each gets
a cell of its own, and all of them wait in turn. So the cells of a tree lie scattered among those of
others, but in the end they hold the tree that recursion makes.

* `fill` : fills in the cells of the nodes that wait.
* `Holds` : the tree that cells hold.
* `filled_of_fill`, `error_of_fill` : what becomes of the nodes that waited.
* `builds_renderInCells` : the display tree of a tree is made in cells as it is by recursion.
* `drawn_chartInCells` : and so is a chart.
-/

namespace ArithTree

open Display (describeAll expandAll weight weight_describeAll)

variable {α τ ε κ : Type} [Renderable τ ε]

/-! ### One node at a time -/

/-- The display tree of a described node. -/
def expand (d : Description τ) : Except ε Display :=
  (describeAll d.below).bind fun below =>
    (expandAll below).map fun children => ⟨d.label, d.style, children⟩

theorem expandAll_cons (d : Description τ) (ds : List (Description τ)) :
    expandAll (d :: ds) = (expandAll ds).bind fun later => (expand d).map (· :: later) := by
  rw [expandAll, expand]
  refine congrArg (Except.bind _) (funext fun later => ?_)
  cases describeAll d.below with
  | error e => rfl
  | ok below => cases hchildren : expandAll below <;> simp [Except.bind, Except.map, hchildren]

theorem expandAll_singleton (d : Description τ) : expandAll [d] = (expand d).map ([·]) := by
  rw [expandAll_cons, expandAll]
  rfl

theorem expandAll_append (ds es : List (Description τ)) :
    expandAll (ds ++ es) =
      (expandAll es).bind fun later => (expandAll ds).map (· ++ later) := by
  induction ds with
  | nil =>
    rw [List.nil_append, expandAll]
    cases expandAll es <;> rfl
  | cons d ds ih =>
    rw [List.cons_append, expandAll_cons, expandAll_cons, ih]
    cases expandAll es with
    | error e => rfl
    | ok later => cases expandAll ds <;> cases expand d <;> rfl

theorem render_eq_expand (tree : τ) : render tree = (Renderable.describe tree).bind expand := rfl

/-! ### Cells -/

/-- What cells are like: before they are filled in, and with the places of the children. -/
structure Form (κ : Type) where
  /-- A cell that waits to be filled in. -/
  blank : String → Style → κ
  /-- A cell that is filled in. -/
  filled : String → Style → List Nat → κ

/-- The cells hold a display tree from a place on. -/
inductive Holds (form : Form κ) (cells : List κ) : Nat → Display → Prop where
  | mk {i : Nat} {label : String} {style : Style} {places : List Nat} {children : List Display}
    (here : cells[i]? = some (form.filled label style places))
    (below : List.Forall₂ (Holds form cells) places children) :
    Holds form cells i ⟨label, style, children⟩

theorem map_fst_zip_places {places : List Nat} {below : List α}
    (h : places.length = below.length) : (places.zip below).map Prod.fst = places :=
  List.map_fst_zip (Nat.le_of_eq h)

theorem total_zip_places (f : α → Nat) {places : List Nat} {below : List α}
    (h : places.length = below.length) :
    total (fun item => f item.2) (places.zip below) = total f below := by
  rw [← total_map f Prod.snd, List.map_snd_zip (Nat.le_of_eq h.symm)]

/-- Fills in the cells of the nodes that wait, the first one first. The trees below a node get new
cells and wait before all others, the last one of them first. -/
def fill (form : Form κ) (cells : List κ) : List (Nat × Description τ) → Except ε (List κ)
  | [] => .ok cells
  | (i, d) :: pending =>
    match _ : describeAll d.below with
    | .error e => .error e
    | .ok below =>
      let places := List.range' cells.length below.length
      fill form
        (cells.set i (form.filled d.label d.style places) ++
          below.map fun d => form.blank d.label d.style)
        ((places.zip below).reverse ++ pending)
termination_by pending => total (fun item => weight item.2) pending
decreasing_by
  next h =>
  have hweight := weight_describeAll h
  have hown : weight d = 1 + total Renderable.size d.below := rfl
  rw [total_append, total_reverse, total_zip_places weight List.length_range', total_cons, hown]
  omega

/-! ### What the filled cells hold -/

/-- Different places, all of which have cells. -/
structure Ready (cells : List κ) (places : List Nat) : Prop where
  /-- No place is taken twice. -/
  nodup : places.Nodup
  /-- Every place has a cell. -/
  lt : ∀ i ∈ places, i < cells.length

/-- The new cells of the trees below a node lie behind all others. -/
theorem Ready.step {cells fresh : List κ} {i : Nat} {places : List Nat}
    (h : Ready cells (i :: places)) (cell : κ) :
    Ready (cells.set i cell ++ fresh)
      ((List.range' cells.length fresh.length).reverse ++ places) where
  nodup := by
    refine List.nodup_append.2 ⟨List.nodup_reverse.2 List.nodup_range', h.nodup.of_cons, ?_⟩
    rintro a ha b hb rfl
    have hge := (List.mem_range'_1.1 (List.mem_reverse.1 ha)).1
    have hlt := h.lt a (List.mem_cons_of_mem i hb)
    omega
  lt := by
    intro j hj
    rw [List.length_append, List.length_set]
    rcases List.mem_append.1 hj with hj | hj
    · exact (List.mem_range'_1.1 (List.mem_reverse.1 hj)).2
    · have := h.lt j (List.mem_cons_of_mem i hj)
      omega

/-- What became of the cells: those of the nodes that waited hold their display trees, and all
others are as they were. -/
structure Filled (form : Form κ) (cells : List κ) (pending : List (Nat × Description τ))
    (filled : List κ) : Prop where
  /-- A cell of no node that waited is as it was. -/
  kept : ∀ i < cells.length, i ∉ pending.map Prod.fst → filled[i]? = cells[i]?
  /-- The cell of a node that waited holds its display tree. -/
  holds : ∀ item ∈ pending, ∃ shown, expand item.2 = .ok shown ∧ Holds form filled item.1 shown

/-- Cells that hold the display trees of single nodes hold those of the list. -/
theorem exists_forall₂_holds {form : Form κ} {cells : List κ} {places : List Nat}
    {ds : List (Description τ)} (hlength : places.length = ds.length)
    (h : ∀ item ∈ places.zip ds, ∃ shown,
      expand item.2 = .ok shown ∧ Holds form cells item.1 shown) :
    ∃ children, expandAll ds = .ok children ∧
      List.Forall₂ (Holds form cells) places children := by
  induction ds generalizing places with
  | nil =>
    rw [List.length_eq_zero_iff.1 hlength, expandAll]
    exact ⟨[], rfl, .nil⟩
  | cons d ds ih =>
    cases places with
    | nil => cases hlength
    | cons i places =>
      obtain ⟨⟨shown, hshown, hholds⟩, hrest⟩ := List.forall_mem_cons.1 h
      obtain ⟨children, hchildren, hbelow⟩ := ih (Nat.succ.inj hlength) hrest
      refine ⟨shown :: children, ?_, .cons hholds hbelow⟩
      rw [expandAll_cons, hchildren]
      simp only [Except.bind, hshown, Except.map]

/-- **The filled cells hold the display trees of the nodes that waited.** -/
theorem filled_of_fill {form : Form κ} {cells : List κ} {pending : List (Nat × Description τ)}
    {filled : List κ} (hready : Ready cells (pending.map Prod.fst))
    (h : fill form cells pending = .ok filled) : Filled form cells pending filled := by
  fun_induction fill form cells pending with
  | case1 cells =>
    cases h
    exact ⟨fun _ _ _ => rfl, List.forall_mem_nil _⟩
  | case2 => cases h
  | case3 cells i d pending below hbelow places ih =>
    have hlength : places.length = below.length := List.length_range'
    have hfst : ((places.zip below).reverse ++ pending).map Prod.fst =
        places.reverse ++ pending.map Prod.fst := by
      rw [List.map_append, List.map_reverse, map_fst_zip_places hlength]
    let fresh := below.map fun d => form.blank d.label d.style
    have hfresh : fresh.length = below.length := List.length_map _
    have hnew : Ready (cells.set i (form.filled d.label d.style places) ++ fresh)
        ((List.range' cells.length fresh.length).reverse ++ pending.map Prod.fst) := hready.step _
    rw [hfresh] at hnew
    obtain ⟨kept, holds⟩ := ih (hfst ▸ hnew) h
    rw [hfst] at kept
    have hi : i < cells.length := hready.lt i List.mem_cons_self
    -- A cell that was there before and does not wait any more keeps what it has now.
    have hold : ∀ j < cells.length, j ∉ pending.map Prod.fst →
        filled[j]? = (cells.set i (form.filled d.label d.style places))[j]? := by
      intro j hj hmem
      rw [kept j (by rw [List.length_append, List.length_set]; omega), List.getElem?_append_left
        (by rwa [List.length_set])]
      rintro hplace
      rcases List.mem_append.1 hplace with hplace | hplace
      · have := (List.mem_range'_1.1 (List.mem_reverse.1 hplace)).1
        omega
      · exact hmem hplace
    refine ⟨fun j hj hmem => ?_, List.forall_mem_cons.2 ⟨?_, fun item hitem =>
      holds item (List.mem_append_right _ hitem)⟩⟩
    · obtain ⟨hne, hmem⟩ := List.ne_and_not_mem_of_not_mem_cons hmem
      rw [hold j hj hmem, List.getElem?_set_ne hne.symm]
    · obtain ⟨children, hchildren, hforall⟩ := exists_forall₂_holds hlength fun item hitem =>
        holds item (List.mem_append_left _ (List.mem_reverse.2 hitem))
      refine ⟨⟨d.label, d.style, children⟩, ?_, .mk ?_ hforall⟩
      · rw [expand, hbelow]
        simp only [Except.bind, hchildren, Except.map]
      · rw [hold i hi (List.nodup_cons.1 hready.nodup).1, List.getElem?_set_self hi]

/-- A tree that cannot be described is found in the same order as by recursion. -/
theorem error_of_fill {form : Form κ} {cells : List κ} {pending : List (Nat × Description τ)}
    {e : ε} (h : fill form cells pending = .error e) :
    expandAll (pending.reverse.map Prod.snd) = .error e := by
  fun_induction fill form cells pending with
  | case1 => cases h
  | case2 cells i d pending e' he =>
    cases h
    rw [List.reverse_cons, List.map_append, expandAll_append, List.map_singleton,
      expandAll_singleton, expand, he]
    rfl
  | case3 cells i d pending below hbelow places ih =>
    have hsnd : ((places.zip below).reverse ++ pending).reverse.map Prod.snd =
        pending.reverse.map Prod.snd ++ below := by
      rw [List.reverse_append, List.reverse_reverse, List.map_append,
        List.map_snd_zip (Nat.le_of_eq List.length_range'.symm)]
    have herror := ih h
    rw [hsnd, expandAll_append] at herror
    have hexpand : expand d =
        (expandAll below).map fun children => ⟨d.label, d.style, children⟩ := by
      rw [expand, hbelow]
      rfl
    rw [List.reverse_cons, List.map_append, expandAll_append, List.map_singleton,
      expandAll_singleton, hexpand]
    rcases bind_eq_error_iff.1 herror with hchildren | ⟨children, hchildren, hlater⟩
    · rw [hchildren]
      rfl
    · rw [hchildren]
      exact map_eq_error_iff.2 (map_eq_error_iff.1 hlater)

/-! ### Display trees in cells -/

/-- A node of a display tree that names the places of its children. -/
structure Cell where
  /-- What the node is called. -/
  label : String
  /-- How it is dressed. -/
  style : Style
  /-- The places of the nodes right below. -/
  children : List Nat

/-- A node is labelled and dressed from the beginning. -/
def Cell.form : Form Cell where
  blank label style := ⟨label, style, []⟩
  filled label style children := ⟨label, style, children⟩

/-- The cells of the display tree of a tree, with the root at the place 0. -/
def renderInCells (tree : τ) : Except ε (List Cell) :=
  (Renderable.describe tree).bind fun root =>
    fill Cell.form [Cell.form.blank root.label root.style] [(0, root)]

theorem ready_singleton (cell : κ) : Ready [cell] [0] where
  nodup := List.nodup_singleton 0
  lt := by simp

/-- What is made in cells is what is made by recursion: the same error, or cells that hold the
display tree from the place 0 on. -/
inductive Builds : Except ε (List Cell) → Except ε Display → Prop where
  | error (e : ε) : Builds (.error e) (.error e)
  | ok {cells : List Cell} {shown : Display} (holds : Holds Cell.form cells 0 shown) :
    Builds (.ok cells) (.ok shown)

/-- **A display tree is made in cells as it is by recursion.** -/
theorem builds_renderInCells (tree : τ) : Builds (renderInCells tree) (render tree) := by
  rw [render_eq_expand, renderInCells]
  cases Renderable.describe tree with
  | error e => exact .error e
  | ok root =>
    simp only [Except.bind]
    cases hcells : fill Cell.form [Cell.form.blank root.label root.style] [(0, root)] with
    | error e =>
      have herror := error_of_fill hcells
      rw [List.reverse_singleton, List.map_singleton, expandAll_singleton] at herror
      rw [map_eq_error_iff.1 herror]
      exact .error e
    | ok cells =>
      obtain ⟨shown, hshown, hholds⟩ :=
        (filled_of_fill (ready_singleton _) hcells).holds (0, root) List.mem_cons_self
      rw [hshown]
      exact .ok hholds

/-! ### Charts in cells -/

/-- A display tree describes itself. -/
instance : Renderable Display Empty where
  describe node := .ok ⟨node.label, node.style, node.children⟩
  size := Display.size
  size_below := by
    intro node d h
    cases h
    show total Display.size node.children < node.size
    rw [Display.total_size, Display.size_eq node]
    omega

theorem render_self (node : Display) : render node = .ok node := by
  have hdescribed : ∀ node : Display, True → ∃ d, Renderable.describe node = .ok d ∧
      id node = ⟨d.label, d.style, d.below.map id⟩ ∧ ∀ below ∈ d.below, True := by
    rintro ⟨label, style, children⟩ -
    exact ⟨⟨label, style, children⟩, rfl, by rw [List.map_id]; rfl, fun _ _ => trivial⟩
  exact render_eq_ok hdescribed trivial

/-- A record that is empty at first and names the places of its children, if there are any. -/
structure ChartCell where
  /-- What the node is called. -/
  label : Option String
  /-- How it is dressed. -/
  style : Option Style
  /-- The places of the records right below. -/
  children : Option (List Nat)

/-- A record gets all its fields at once. -/
def ChartCell.form : Form ChartCell where
  blank _ _ := ⟨none, none, none⟩
  filled label style places := ⟨some label, some style, if places = [] then none else some places⟩

/-- The records hold a chart from a place on. -/
inductive Drawn (cells : List ChartCell) : Nat → Chart → Prop where
  | leaf {i : Nat} {label : String} {style : Style}
    (here : cells[i]? = some ⟨some label, some style, none⟩) : Drawn cells i ⟨label, style, none⟩
  | inner {i : Nat} {label : String} {style : Style} {places : List Nat} {charts : List Chart}
    (here : cells[i]? = some ⟨some label, some style, some places⟩)
    (below : List.Forall₂ (Drawn cells) places charts) :
    Drawn cells i ⟨label, style, some charts⟩

mutual

/-- Records that hold a display tree hold its chart. -/
theorem Holds.drawn {cells : List ChartCell} {i : Nat} {node : Display}
    (h : Holds ChartCell.form cells i node) : Drawn cells i node.chart := by
  match node, h with
  | .mk _ _ [], .mk here .nil => exact .leaf here
  | .mk _ _ (_ :: _), .mk here (.cons first later) =>
    exact .inner here (.cons first.drawn (forall₂_drawn later))

theorem forall₂_drawn {cells : List ChartCell} {places : List Nat} {nodes : List Display}
    (h : List.Forall₂ (Holds ChartCell.form cells) places nodes) :
    List.Forall₂ (Drawn cells) places (Display.charts nodes) := by
  match nodes, h with
  | [], .nil => exact .nil
  | _ :: _, .cons first later => exact .cons first.drawn (forall₂_drawn later)

end

/-- The records of the chart of a display tree, with that of the root at the place 0. -/
def Display.chartInCells (node : Display) : List ChartCell :=
  match fill ChartCell.form [ChartCell.form.blank node.label node.style]
      [(0, ⟨node.label, node.style, node.children⟩)] with
  | .ok cells => cells
  | .error e => nomatch e

/-- **A chart is made in records as it is by recursion.** -/
theorem drawn_chartInCells (node : Display) : Drawn node.chartInCells 0 node.chart := by
  unfold Display.chartInCells
  split
  · next cells hcells =>
    obtain ⟨shown, hshown, hholds⟩ :=
      (filled_of_fill (ready_singleton _) hcells).holds (0, _) List.mem_cons_self
    have hself : expand ⟨node.label, node.style, node.children⟩ = .ok node := render_self node
    rw [hself] at hshown
    cases hshown
    exact hholds.drawn
  · next e _ => exact e.elim

end ArithTree
