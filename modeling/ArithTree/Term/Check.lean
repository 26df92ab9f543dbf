import ArithTree.Fault
import ArithTree.Term.Basic

/-!
# Checking term trees

Each Term must read `operand (operator operand)*`, where numbers, identifiers and nested Terms are
operands. The check of a Term looks at its body first, then at its children from left to right: a
nested Term is checked completely before the child is compared with its right neighbour. Children
of nodes that are no Terms are not looked at; the root's always are.

* `Node.check` : the first rule that a tree breaks.
-/

namespace ArithTree.Term

namespace Node

/-- A fault at a node. -/
def fault (node : Node) (cause : Cause) : Except Fault Unit :=
  .error ⟨cause, some node.position⟩

/-- A body may not be empty and not begin with an operator. -/
def checkBody (node : Node) : Except Fault Unit :=
  match node.children with
  | [] => node.fault .emptyBody
  | first :: _ => if first.kind = .operator then first.fault .leadingOperator else .ok ()

/-- An operand is followed by an operator or nothing, an operator by an operand. -/
def checkNeighbour (node : Node) (next? : Option Node) : Except Fault Unit :=
  match node.kind, next? with
  | .operator, none => node.fault .danglingOperator
  | .operator, some next =>
    if next.kind = .operator then next.fault .doubledOperator else .ok ()
  | .other _ _, _ => .ok ()
  | _, none => .ok ()
  | _, some next =>
    if next.kind = .operator then .ok () else next.fault (.misplacedOperand next.kind.name)

/-! ### Tasks -/

/-- A part of the check that is still to be done. -/
inductive Task where
  /-- Check the inside of a node, if it is a Term. -/
  | inside (node : Node)
  /-- Compare a node with its right neighbour. -/
  | neighbour (node : Node) (next? : Option Node)

/-- Bounds the tasks that a task leads to, itself included. -/
def Task.weight : Task → Nat
  | inside node => 2 * node.size - 1
  | neighbour _ _ => 1

/-- The tasks of a row of children: each is checked inside and then compared. -/
def childTasks : List Node → List Task
  | [] => []
  | node :: nodes => .inside node :: .neighbour node nodes.head? :: childTasks nodes

/-- Bounds the tasks that the tasks of a list lead to. -/
def taskWeight (tasks : List Task) : Nat := total Task.weight tasks

theorem taskWeight_childTasks (children : List Node) :
    taskWeight (childTasks children) = 2 * sizeAll children := by
  induction children with
  | nil => rfl
  | cons node nodes ih =>
    have := size_pos node
    simp only [childTasks, taskWeight, total_cons, Task.weight, sizeAll] at ih ⊢
    omega

/-- Does the pending tasks in order, up to the first fault. -/
def checkPending : List Task → Except Fault Unit
  | [] => .ok ()
  | .inside node :: pending =>
    if node.isTerm then
      node.checkBody.bind fun _ => checkPending (childTasks node.children ++ pending)
    else checkPending pending
  | .neighbour node next? :: pending =>
    (node.checkNeighbour next?).bind fun _ => checkPending pending
termination_by tasks => taskWeight tasks
decreasing_by
  · have := taskWeight_childTasks node.children
    simp only [taskWeight, total_append, total_cons, Task.weight, size_eq node] at this ⊢
    omega
  · have := size_pos node
    simp only [taskWeight, total_cons, Task.weight]
    omega
  · simp [taskWeight, Task.weight]

/-- Checks the tree below the given root. -/
def check (root : Node) : Except Fault Unit :=
  root.checkBody.bind fun _ => checkPending (childTasks root.children)

end Node

end ArithTree.Term
