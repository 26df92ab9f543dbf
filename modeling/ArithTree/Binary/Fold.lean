import ArithTree.Binary.Basic
import ArithTree.Fault

/-!
# Folding a postfix sequence

A sequence of tokens in postfix order is folded into a tree with a stack of finished trees: a number
is a leaf, an operator takes the two topmost trees as its right and left operands. The sequence is
refused where an operator finds fewer than two trees or a token is of another kind, or at its end
unless exactly one tree is left.

* `ofPostfix` : the tree of a postfix sequence, or its first fault.
-/

namespace ArithTree.Binary

/-- The finished trees behind one more token, the last one first. -/
def foldToken (trees : List Expression) (token : Token) : Except Fault (List Expression) :=
  match token.kind with
  | .number => .ok (.leaf token.value token.kind :: trees)
  | .operator =>
    match trees with
    | right :: left :: trees => .ok (.branch token.value token.kind left right :: trees)
    | _ => .error ⟨.missingOperands token.value, token.position⟩
  | kind => .error ⟨.unknownTokenKind kind.name, token.position⟩

/-- The finished trees behind a sequence, the last one first. -/
def foldTokens (trees : List Expression) : List Token → Except Fault (List Expression)
  | [] => .ok trees
  | token :: tokens => (foldToken trees token).bind fun trees => foldTokens trees tokens

/-- The tree of a sequence in postfix order. -/
def ofPostfix (tokens : List Token) : Except Fault Expression :=
  (foldTokens [] tokens).bind fun
    | [tree] => .ok tree
    | trees => .error ⟨.notOneExpression trees.length, none⟩

end ArithTree.Binary
