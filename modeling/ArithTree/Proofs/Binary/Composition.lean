import ArithTree.Proofs.Binary.Operators
import ArithTree.Proofs.Token.Places

/-!
# Expressions in brackets

Two texts in brackets with an operator between them go out as what each sends out alone, moved to
its place, and then the operator. This holds of any two texts that the full reader accepts, in infix
notation or not: an opening bracket hides the stack below it, and what its closing bracket sends out
is what the end of the text would. Of two trees the whole makes one.

* `foldTokens_of_ofPostfix` : a folded sequence adds one tree to any stack of trees.
* `exists_compose` : what bracketed texts send out.
-/

namespace ArithTree.Binary

open Text Token

/-! ### Folding at other places -/

/-- What is folded does not depend on the places of the tokens. -/
theorem foldToken_move {trees next : List Expression} {token : Token}
    (f : Option Int → Option Int) :
    foldToken trees (token.move f) = .ok next ↔ foldToken trees token = .ok next := by
  obtain ⟨value, kind, position⟩ := token
  cases kind with
  | number => rfl
  | operator =>
    match trees with
    | [] => exact ⟨nofun, nofun⟩
    | [_] => exact ⟨nofun, nofun⟩
    | _ :: _ :: _ => rfl
  | paren | other => exact ⟨nofun, nofun⟩

theorem foldTokens_move {trees next : List Expression} {tokens : List Token}
    (f : Option Int → Option Int) :
    foldTokens trees (tokens.map (move f)) = .ok next ↔ foldTokens trees tokens = .ok next := by
  induction tokens generalizing trees with
  | nil => rfl
  | cons token tokens ih =>
    rw [List.map_cons, foldTokens, foldTokens, bind_eq_ok_iff, bind_eq_ok_iff]
    simp only [foldToken_move, ih]

/-- A folded sequence adds its tree to the finished ones, wherever it stands. -/
theorem foldTokens_of_ofPostfix {tokens : List Token} {tree : Expression}
    (h : ofPostfix tokens = .ok tree) (f : Option Int → Option Int) (trees : List Expression) :
    foldTokens trees (tokens.map (move f)) = .ok (tree :: trees) := by
  have hlisted := foldTokens_postorder (proper_of_ofPostfix h) trees
  rw [← toTokens_eq, toTokens_ofPostfix h] at hlisted
  rw [foldTokens_move]
  exact (foldTokens_move fun _ => none).1 hlisted

/-- Two folded sequences with an operator behind them. -/
theorem ofPostfix_operation {tokens more : List Token} {left right : Expression} {op : Token}
    (hleft : ofPostfix tokens = .ok left) (hright : ofPostfix more = .ok right)
    (hop : op.kind = .operator) (f g : Option Int → Option Int) :
    ofPostfix (tokens.map (move f) ++ more.map (move g) ++ [op]) =
      .ok (.branch op.value .operator left right) := by
  rw [ofPostfix_eq_ok_iff, List.append_assoc,
    foldTokens_append_of_ok (foldTokens_of_ofPostfix hleft f []),
    foldTokens_append_of_ok (foldTokens_of_ofPostfix hright g [left])]
  exact foldTokens_operator hop

/-! ### Bracketed texts -/

theorem toPostfix_shift {tokens sent : List Token} (h : toPostfix tokens = .ok sent) (k : Nat) :
    toPostfix (tokens.map (shift k)) = .ok (sent.map (shift k)) := by
  rw [shift, toPostfix_move, h]
  rfl

/-- A text in brackets from the place `k` on, in front of any stack. -/
theorem exists_reads_bracketed {text : String} {tokens sent : List Token}
    (hlexemes : lexemes text = .ok tokens) (hsent : toPostfix tokens = .ok sent) (k : Nat) :
    ∃ inside, Reads k ('(' :: text.toList ++ [')']) inside ∧
      ∀ stack, Arrives stack inside (sent.map (shift (k + 1))) stack := by
  have hbalanced := balanced_shift hlexemes (k + 1)
  exact ⟨_, (reads_of_lexemes hlexemes (k + 1)).bracketed,
    fun stack => hbalanced.arrives_pair (toPostfix_shift hsent (k + 1)) stack _ _⟩

theorem postfixOfLexemes_bracketed {text : String} {tokens sent : List Token}
    (hlexemes : lexemes text = .ok tokens) (hsent : toPostfix tokens = .ok sent) :
    postfixOfLexemes ("(" ++ text ++ ")") = .ok (sent.map (shift 1)) := by
  obtain ⟨inside, hreads, harrives⟩ := exists_reads_bracketed hlexemes hsent 0
  have htext : ("(" ++ text ++ ")").toList = '(' :: text.toList ++ [')'] := by
    simp [String.toList_append]
  rw [← htext] at hreads
  refine postfixOfLexemes_eq_ok_iff.2 ⟨inside, hreads.lexemes, ?_⟩
  rw [toPostfix, (harrives []).toPostfixFrom, drain, List.map_nil, List.append_nil]

theorem postfixOfLexemes_compose {a b : String} {tokens more sent behind : List Token} {op : Char}
    (ha : lexemes a = .ok tokens) (hsent : toPostfix tokens = .ok sent)
    (hb : lexemes b = .ok more) (hbehind : toPostfix more = .ok behind) (hop : isOperator op) :
    postfixOfLexemes ("(" ++ a ++ ")" ++ op.toString ++ "(" ++ b ++ ")") =
      .ok (sent.map (shift 1) ++ behind.map (shift (a.length + 4)) ++
        [ofChar .operator (a.length + 2) op]) := by
  obtain ⟨inside, hreads, harrives⟩ := exists_reads_bracketed ha hsent 0
  obtain ⟨next, hnext, hmore⟩ := exists_reads_bracketed hb hbehind (a.length + 3)
  have hplace : 0 + ('(' :: a.toList ++ [')']).length = a.length + 2 := by
    simp [String.length_toList]
  have htext : ("(" ++ a ++ ")" ++ op.toString ++ "(" ++ b ++ ")").toList =
      ('(' :: a.toList ++ [')']) ++ op :: ('(' :: b.toList ++ [')']) := by
    simp [String.toList_append]
  have hoperator : Reads (0 + ('(' :: a.toList ++ [')']).length) (op :: ('(' :: b.toList ++ [')']))
      (ofChar .operator (a.length + 2) op :: next) := by
    rw [hplace]
    exact hnext.operator hop
  have hall := hreads.append (endsNumeral_of_isOperator hop ('(' :: b.toList ++ [')'])) hoperator
  rw [← htext] at hall
  refine postfixOfLexemes_eq_ok_iff.2 ⟨_, hall.lexemes, ?_⟩
  -- The operator waits below the second bracket pair and goes out at the end.
  have hstacked : arrive [] (ofChar .operator (a.length + 2) op) =
      .ok ([], [ofChar .operator (a.length + 2) op]) := rfl
  have hrun := (harrives []).append (.cons hstacked (hmore _))
  rw [toPostfix, hrun.toPostfixFrom, List.nil_append]
  rfl

/-- **Two texts in brackets with an operator between them** send out what each of them does alone,
further on by what stands before it, and then the operator; a text in brackets sends out what it
does alone. If both texts have a tree, the whole has the tree of the operator over both. -/
theorem exists_compose {a b : String} {tokens more : List Token} {op : Char}
    (ha : lexemes a = .ok tokens) (hb : lexemes b = .ok more) (hop : op ∈ ['+', '-', '*', '/']) :
    ∃ sent behind, postfixOfLexemes a = .ok sent ∧ postfixOfLexemes b = .ok behind ∧
      postfixOfLexemes ("(" ++ a ++ ")") = .ok (sent.map (shift 1)) ∧
      postfixOfLexemes ("(" ++ a ++ ")" ++ op.toString ++ "(" ++ b ++ ")") =
        .ok (sent.map (shift 1) ++ behind.map (shift (a.length + 4)) ++
          [ofChar .operator (a.length + 2) op]) ∧
      ∀ left right outLeft outRight,
        (analyse .binary true (some a)).result = .ok (.binary left outLeft) →
        (analyse .binary true (some b)).result = .ok (.binary right outRight) →
        (analyse .binary true (some ("(" ++ a ++ ")" ++ op.toString ++ "(" ++ b ++ ")"))).result =
          .ok (.binary (.branch op.toString .operator left right)
            (outLeft.map (shift 1) ++ outRight.map (shift (a.length + 4)) ++
              [ofChar .operator (a.length + 2) op])) := by
  obtain ⟨sent, hsent⟩ := (balanced_of_lexemes ha).exists_toPostfix
  obtain ⟨behind, hbehind⟩ := (balanced_of_lexemes hb).exists_toPostfix
  have houtLeft := postfixOfLexemes_eq_ok_iff.2 ⟨tokens, ha, hsent⟩
  have houtRight := postfixOfLexemes_eq_ok_iff.2 ⟨more, hb, hbehind⟩
  have hcompose := postfixOfLexemes_compose ha hsent hb hbehind (isOperator_iff.2 hop)
  refine ⟨sent, behind, houtLeft, houtRight, postfixOfLexemes_bracketed ha hsent, hcompose, ?_⟩
  intro left right outLeft outRight hleft hright
  obtain ⟨_, _, hout, htreeLeft, heq⟩ := analyse_binary_eq_ok_iff.1 hleft
  cases heq
  cases houtLeft.symm.trans hout
  obtain ⟨_, _, hout, htreeRight, heq⟩ := analyse_binary_eq_ok_iff.1 hright
  cases heq
  cases houtRight.symm.trans hout
  exact analyse_binary_eq_ok_iff.2
    ⟨_, _, hcompose, ofPostfix_operation htreeLeft htreeRight rfl _ _, rfl⟩

theorem exists_compose_product :
    let difference : Expression := .branch "-" .operator (.leaf "1" .number) (.leaf "2" .number)
    lexemes "1-2" = .ok [⟨"1", .number, some 0⟩, ofChar .operator 1 '-', ⟨"2", .number, some 2⟩] ∧
      lexemes "3" = .ok [⟨"3", .number, some 0⟩] ∧
      (∃ sent, postfixOfLexemes "1-2" = .ok sent ∧
        postfixOfLexemes ("(" ++ "1-2" ++ ")") = .ok (sent.map (shift 1))) ∧
      ∃ out, (analyse .binary true
          (some ("(" ++ "1-2" ++ ")" ++ ('*').toString ++ "(" ++ "3" ++ ")"))).result =
        .ok (.binary (.branch "*" .operator difference (.leaf "3" .number)) out) := by
  intro difference
  have htwo : Reads 1 ['-', '2'] [ofChar .operator 1 '-', ⟨"2", .number, some 2⟩] :=
    .operator rfl (.numeral (by decide))
  have hone : Reads 0 ['1'] [⟨"1", .number, some 0⟩] := .numeral (by decide)
  have hleft : Reads 0 ['1', '-', '2'] _ := hone.append (endsNumeral_of_isOperator rfl _) htwo
  have hright : Reads 0 ['3'] [⟨"3", .number, some 0⟩] := .numeral (by decide)
  have hdifference : lexemes "1-2" = .ok
      [⟨"1", .number, some 0⟩, ofChar .operator 1 '-', ⟨"2", .number, some 2⟩] :=
    Reads.lexemes (show Reads 0 "1-2".toList _ from hleft)
  have hthree : lexemes "3" = .ok [⟨"3", .number, some 0⟩] :=
    Reads.lexemes (show Reads 0 "3".toList _ from hright)
  have hleftTree : (analyse .binary true (some "1-2")).result = .ok (.binary difference
      [⟨"1", .number, some 0⟩, ⟨"2", .number, some 2⟩, ofChar .operator 1 '-']) :=
    analyse_eq_ok_iff.2 ⟨_, _, _, hdifference, rfl, rfl, rfl⟩
  have hrightTree : (analyse .binary true (some "3")).result =
      .ok (.binary (.leaf "3" .number) [⟨"3", .number, some 0⟩]) :=
    analyse_eq_ok_iff.2 ⟨_, _, _, hthree, rfl, rfl, rfl⟩
  have hop : '*' ∈ ['+', '-', '*', '/'] := by decide
  obtain ⟨sent, _, hsent, -, hbracketed, -, htree⟩ := exists_compose hdifference hthree hop
  exact ⟨hdifference, hthree, ⟨sent, hsent, hbracketed⟩, _, htree _ _ _ _ hleftTree hrightTree⟩

end ArithTree.Binary
