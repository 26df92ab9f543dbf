import ArithTree.Binary.Fold
import ArithTree.Proofs.Token.OperatorStack

/-!
# Precedence and associativity

`Derives` is the infix notation of trees over tokens: `*` and `/` bind more tightly than `+` and
`-`, operators of one level associate to the left, and brackets group. `Writes` is the notation over
the characters of a text, with brackets where a tree needs them, further brackets anywhere and
spaces between the lexemes.

* `Derives.arrives` : the invariant of the operator stack. A piece of the sequence that stands for a
  tree leaves operators on the stack and touches nothing below them; what it has sent out, and those
  operators behind it, fold into that tree.
* `ofPostfix_postfixOfLexemes` : a text that writes a tree is folded into this tree.
-/

namespace ArithTree.Binary

open Text Token

/-! ### Folding -/

/-- What a token does that is not refused: a number is one more tree, an operator makes one of the
two topmost. -/
theorem foldToken_eq_ok {trees next : List Expression} {token : Token}
    (h : foldToken trees token = .ok next) :
    (token.kind = .number ∧ next = .leaf token.value .number :: trees) ∨
      (token.kind = .operator ∧ ∃ right left rest, trees = right :: left :: rest ∧
        next = .branch token.value .operator left right :: rest) := by
  unfold foldToken at h
  split at h
  · next hkind =>
    cases h
    exact .inl ⟨hkind, by rw [hkind]⟩
  · next hkind =>
    split at h
    · next right left rest =>
      cases h
      exact .inr ⟨hkind, right, left, rest, rfl, by rw [hkind]⟩
    · cases h
  · cases h

theorem foldTokens_append (trees : List Expression) (tokens more : List Token) :
    foldTokens trees (tokens ++ more) =
      (foldTokens trees tokens).bind fun trees => foldTokens trees more := by
  induction tokens generalizing trees with
  | nil => rfl
  | cons token tokens ih =>
    rw [List.cons_append, foldTokens, foldTokens]
    cases foldToken trees token with
    | error fault => rfl
    | ok trees => exact ih trees

theorem foldTokens_append_of_ok {trees next : List Expression} {tokens : List Token}
    (h : foldTokens trees tokens = .ok next) (more : List Token) :
    foldTokens trees (tokens ++ more) = foldTokens next more := by
  rw [foldTokens_append, h]
  rfl

theorem foldTokens_number {trees : List Expression} {token : Token} (h : token.kind = .number) :
    foldTokens trees [token] = .ok (.leaf token.value .number :: trees) := by
  simp only [foldTokens, foldToken, h]
  rfl

theorem foldTokens_operator {trees : List Expression} {left right : Expression} {token : Token}
    (h : token.kind = .operator) : foldTokens (right :: left :: trees) [token] =
      .ok (.branch token.value .operator left right :: trees) := by
  simp only [foldTokens, foldToken, h]
  rfl

/-! ### The notation over tokens -/

/-- Tokens in infix order and the tree that they stand for, where all operators outside of brackets
bind at least as tightly as the given level. -/
inductive Derives : Nat → List Token → Expression → Prop where
  | number {level : Nat} {token : Token} (kind : token.kind = .number) :
    Derives level [token] (.leaf token.value .number)
  | bracketed {level p q : Nat} {tokens : List Token} {tree : Expression}
    (inside : Derives 0 tokens tree) : Derives level (opening p :: tokens ++ [closing q]) tree
  | operation {level own : Nat} {op : Token} {tokens more : List Token} {left right : Expression}
    (binds : Binds own op) (above : level ≤ own) (before : Derives own tokens left)
    (behind : Derives (own + 1) more right) :
    Derives level (tokens ++ op :: more) (.branch op.value .operator left right)

/-- What a piece that stands for a tree does to the operator stack and to the tree stack. -/
theorem Derives.arrives {level : Nat} {tokens : List Token} {tree : Expression}
    (h : Derives level tokens tree) {stack : Stack} (hstack : Looser level stack) :
    ∃ sent ops, Arrives stack tokens sent (ops ++ stack) ∧ AllBind level ops ∧
      ∀ trees, foldTokens trees (sent ++ ops) = .ok (tree :: trees) := by
  induction h generalizing stack with
  | number kind =>
    refine ⟨_, [], .single (arrive_number kind), allBind_nil, fun trees => ?_⟩
    rw [List.append_nil]
    exact foldTokens_number kind
  | @bracketed level p q tokens tree _ ih =>
    obtain ⟨sent, ops, harrives, hops, hfold⟩ := ih (looser_opening 0 p stack)
    refine ⟨sent ++ ops, [], harrives.bracketed hops q, allBind_nil, fun trees => ?_⟩
    rw [List.append_nil]
    exact hfold trees
  | @operation level own op tokens more left right binds above _ _ ihLeft ihRight =>
    obtain ⟨sentLeft, opsLeft, harrivesLeft, hopsLeft, hfoldLeft⟩ := ihLeft (hstack.mono above)
    obtain ⟨sentRight, opsRight, harrivesRight, hopsRight, hfoldRight⟩ :=
      ihRight ((looser_cons binds stack).2 (Nat.lt_succ_self own))
    -- The operator sends out all that the left operand has left, and stays below the right one's.
    have hop := arrive_operator binds hopsLeft (hstack.mono above)
    have hall := harrivesLeft.append (.cons hop harrivesRight)
    refine ⟨sentLeft ++ (opsLeft ++ sentRight), opsRight ++ [op], ?_, ?_, fun trees => ?_⟩
    · rwa [List.append_assoc, List.singleton_append]
    · have hlevel : level ≤ own + 1 := Nat.le_succ_of_le above
      exact allBind_append.2 ⟨hopsRight.mono hlevel,
        allBind_cons.2 ⟨⟨own, above, binds⟩, allBind_nil⟩⟩
    · have hsplit : sentLeft ++ (opsLeft ++ sentRight) ++ (opsRight ++ [op]) =
          (sentLeft ++ opsLeft) ++ ((sentRight ++ opsRight) ++ [op]) := by
        simp only [List.append_assoc]
      rw [hsplit, foldTokens_append_of_ok (hfoldLeft trees),
        foldTokens_append_of_ok (hfoldRight (left :: trees)), foldTokens_operator binds.kind]

theorem Derives.toPostfix {level : Nat} {tokens : List Token} {tree : Expression}
    (h : Derives level tokens tree) :
    ∃ sent, toPostfix tokens = .ok sent ∧ ofPostfix sent = .ok tree := by
  obtain ⟨sent, ops, harrives, hops, hfold⟩ := h.arrives looser_nil
  rw [List.append_nil] at harrives
  refine ⟨sent ++ ops, ?_, ?_⟩
  · rw [Token.toPostfix, harrives.toPostfixFrom, drain_eq_self hops]
  · rw [ofPostfix, hfold []]
    rfl

/-! ### The notation over characters -/

/-- How tightly the operator at the root of a tree binds, if there is one. -/
def rootPrecedence? : Expression → Option Nat
  | .leaf _ _ => none
  | .branch value _ _ _ => precedence? value
  | .foreign operand => operand.elim

/-- A tree of numerals and binary operators in infix notation. The flag says whether a bracket pair
stands around the whole: it must around a left operand that binds less tightly than the operator
and around a right operand that does not bind more tightly, and it may around any other. -/
inductive Writes : Expression → Bool → List Char → Prop where
  | numeral {s : List Char} (isNumeral : IsNumeral s) :
    Writes (.leaf (String.ofList s) .number) false s
  | operation {op : Char} {own : Nat} {left right : Expression} {pairLeft pairRight : Bool}
    {before behind : List Char} (binds : precedence? op.toString = some own)
    (writesLeft : Writes left pairLeft before) (writesRight : Writes right pairRight behind)
    (looserLeft : ∀ p ∈ rootPrecedence? left, p < own → pairLeft = true)
    (looserRight : ∀ p ∈ rootPrecedence? right, p ≤ own → pairRight = true) :
    Writes (.branch op.toString .operator left right) false (before ++ op :: behind)
  | bracketed {tree : Expression} {pair : Bool} {inside : List Char}
    (writes : Writes tree pair inside) : Writes tree true ('(' :: inside ++ [')'])
  | spaceBefore {tree : Expression} {pair : Bool} {text : List Char}
    (writes : Writes tree pair text) : Writes tree pair (' ' :: text)
  | spaceBehind {tree : Expression} {pair : Bool} {text : List Char}
    (writes : Writes tree pair text) : Writes tree pair (text ++ [' '])

/-- A text that writes a tree is read as tokens that stand for it, at any level that the tree
outside of brackets reaches. -/
theorem Writes.reads {tree : Expression} {pair : Bool} {text : List Char}
    (h : Writes tree pair text) (position level : Nat)
    (hlevel : ∀ p ∈ rootPrecedence? tree, p < level → pair = true) :
    ∃ tokens, Reads position text tokens ∧ Derives level tokens tree := by
  induction h generalizing position level with
  | numeral isNumeral => exact ⟨_, .numeral isNumeral, .number rfl⟩
  | @operation op own left right pairLeft pairRight before behind binds _ _ looserLeft looserRight
      ihLeft ihRight =>
    have hoperator : isOperator op := by rw [isOperator, binds]; rfl
    have hbinds : Binds own (ofChar .operator (position + before.length) op) := ⟨rfl, binds⟩
    -- There is no bracket pair around this operation, so its operator reaches the level.
    have habove : level ≤ own := by
      refine Nat.not_lt.1 fun hlt => ?_
      cases hlevel own binds hlt
    obtain ⟨tokens, hreads, hleft⟩ := ihLeft position own looserLeft
    obtain ⟨more, hmore, hright⟩ := ihRight (position + before.length + 1) (own + 1)
      fun p hp hlt => looserRight p hp (Nat.lt_succ_iff.1 hlt)
    have hstop := endsNumeral_of_isOperator hoperator behind
    exact ⟨_, hreads.append hstop (.operator hoperator hmore),
      .operation hbinds habove hleft hright⟩
  | bracketed _ ih =>
    -- Inside brackets no operator is too loose, so the level starts again.
    obtain ⟨tokens, hreads, hderives⟩ :=
      ih (position + 1) 0 fun p _ hlt => absurd hlt (Nat.not_lt_zero p)
    exact ⟨_, .bracketed hreads, .bracketed hderives⟩
  | spaceBefore _ ih =>
    obtain ⟨tokens, hreads, hderives⟩ := ih (position + 1) level hlevel
    exact ⟨tokens, hreads.space, hderives⟩
  | @spaceBehind tree pair text _ ih =>
    obtain ⟨tokens, hreads, hderives⟩ := ih position level hlevel
    have hall := hreads.append endsNumeral_space Reads.nil.space
    rw [List.append_nil] at hall
    exact ⟨tokens, hall, hderives⟩

/-- **A text that writes a tree in infix notation is folded into this tree**, whatever brackets and
spaces it has beyond those that the tree needs. -/
theorem ofPostfix_postfixOfLexemes {tree : Expression} {pair : Bool} {text : String}
    (h : Writes tree pair text.toList) :
    ∃ tokens, postfixOfLexemes text = .ok tokens ∧ ofPostfix tokens = .ok tree := by
  obtain ⟨tokens, hreads, hderives⟩ := h.reads 0 0 fun p _ hlt => absurd hlt (Nat.not_lt_zero p)
  obtain ⟨sent, hout, hfold⟩ := hderives.toPostfix
  exact ⟨sent, postfixOfLexemes_eq_ok_iff.2 ⟨tokens, hreads.lexemes, hout⟩, hfold⟩

theorem ofPostfix_postfixOfLexemes_brackets :
    let tree : Expression := .branch "-" .operator
      (.branch "-" .operator (.leaf "8" .number) (.leaf "3" .number))
      (.branch "*" .operator (.leaf "2" .number) (.leaf ".5" .number))
    Writes tree false "(8 - 3) - 2*(.5)".toList ∧
      ∃ tokens, postfixOfLexemes "(8 - 3) - 2*(.5)" = .ok tokens ∧ ofPostfix tokens = .ok tree := by
  have h8 : Writes (.leaf "8" .number) false ['8'] := .numeral (by decide)
  have h3 : Writes (.leaf "3" .number) false ['3'] := .numeral (by decide)
  have h2 : Writes (.leaf "2" .number) false ['2'] := .numeral (by decide)
  have h5 : Writes (.leaf ".5" .number) false ['.', '5'] := .numeral (by decide)
  have hminus : precedence? ('-').toString = some 1 := rfl
  have htimes : precedence? ('*').toString = some 2 := rfl
  have hleft := Writes.operation hminus h8.spaceBehind h3.spaceBefore (by decide) (by decide)
  have hright := Writes.operation htimes h2 h5.bracketed (by decide) (by decide)
  have hall := Writes.operation hminus hleft.bracketed.spaceBehind hright.spaceBefore
    (fun _ _ _ => rfl) (by decide)
  exact ⟨hall, ofPostfix_postfixOfLexemes hall⟩

end ArithTree.Binary
