import ArithTree.Proofs.Token.OperatorStack

/-!
# Tokens at other places

Neither the full reader nor the stack of operators looks at the places of tokens. A text that is
read inside of another one has the same tokens there, further on by what stands before it, and they
go out in the same order.

* `move`, `shift` : a token at another place.
* `toPostfix_move` : the stack of operators takes no notice.
* `Accepts.shift`, `Accepts.lexemesFrom_append` : a text behind, and in front of, another one.
* `reads_of_lexemes` : a text as a piece of another one.
-/

namespace ArithTree.Token

open Text

/-! ### Places -/

/-- The token at another place. -/
def move (f : Option Int → Option Int) (token : Token) : Token :=
  { token with position := f token.position }

/-- The token `k` characters further on. -/
def shift (k : Nat) : Token → Token := move (Option.map (· + (k : Int)))

theorem shift_mk (k p : Nat) (value : String) (kind : Kind) :
    shift k ⟨value, kind, some (p : Int)⟩ = ⟨value, kind, some ((p + k : Nat) : Int)⟩ := by
  simp [shift, move]

/-! ### The stack of operators -/

/-- What is sent out and what is left, at other places. -/
def moveBoth (f : Option Int → Option Int) : List Token × Stack → List Token × Stack
  | (sent, stack) => (sent.map (move f), stack.map (move f))

theorem pushOperator_move (f : Option Int → Option Int) (token : Token) (stack : Stack) :
    pushOperator (token.move f) (stack.map (move f)) =
      (pushOperator token stack).map (moveBoth f) := by
  induction stack with
  | nil => rfl
  | cons top stack ih =>
    rw [List.map_cons, pushOperator, pushOperator]
    have htop : (top.move f).value = top.value := rfl
    have hown : (token.move f).value = token.value := rfl
    rw [htop, hown, ih]
    cases precedence? top.value with
    | none => rfl
    | some above =>
      cases precedence? token.value with
      | none => rfl
      | some own =>
        dsimp only
        split
        · cases pushOperator token stack <;> rfl
        · rfl

theorem closeBracket_move (f : Option Int → Option Int) (stack : Stack) :
    closeBracket (stack.map (move f)) = moveBoth f (closeBracket stack) := by
  have hopens : (fun token : Token => !token.opens) ∘ move f = fun token => !token.opens := rfl
  rw [closeBracket, List.takeWhile_map, List.dropWhile_map, hopens, ← List.map_drop]
  rfl

theorem arrive_move (f : Option Int → Option Int) (stack : Stack) (token : Token) :
    arrive (stack.map (move f)) (token.move f) = (arrive stack token).map (moveBoth f) := by
  have hkind : (token.move f).kind = token.kind := rfl
  have hvalue : (token.move f).value = token.value := rfl
  unfold arrive
  rw [hkind, hvalue, pushOperator_move, closeBracket_move]
  split
  · rfl
  · split
    · rfl
    · split
      · rfl
      · split <;> rfl

theorem drain_move (f : Option Int → Option Int) (stack : Stack) :
    drain (stack.map (move f)) = (drain stack).map (move f) := by
  rw [drain, drain, List.map_map, List.map_map]
  rfl

theorem toPostfixFrom_move (f : Option Int → Option Int) (stack : Stack) (tokens : List Token) :
    toPostfixFrom (stack.map (move f)) (tokens.map (move f)) =
      (toPostfixFrom stack tokens).map (List.map (move f)) := by
  induction tokens generalizing stack with
  | nil => exact congrArg Except.ok (drain_move f stack)
  | cons token tokens ih =>
    rw [List.map_cons, toPostfixFrom, toPostfixFrom, arrive_move]
    cases arrive stack token with
    | error breakdown => rfl
    | ok step =>
      obtain ⟨sent, next⟩ := step
      simp only [Except.map, Except.bind, moveBoth, ih]
      cases toPostfixFrom next tokens <;> simp

/-- **The order of tokens does not depend on their places.** -/
theorem toPostfix_move (f : Option Int → Option Int) (tokens : List Token) :
    toPostfix (tokens.map (move f)) = (toPostfix tokens).map (List.map (move f)) :=
  toPostfixFrom_move f [] tokens

/-! ### The full reader -/

/-- Behind `k` more characters, a text is read as the same tokens, `k` characters further on. -/
theorem Accepts.shift {opened : List Nat} {p : Nat} {text : List Char} {tokens : List Token}
    (h : Accepts opened p text tokens) (k : Nat) :
    Accepts (opened.map (· + k)) (p + k) text (tokens.map (shift k)) := by
  induction h with
  | nil p => exact .nil (p + k)
  | @space _ p _ _ _ ih =>
    rw [Nat.add_right_comm p 1 k] at ih
    exact .space ih
  | @number _ p numeral _ _ isNumeral ends _ ih =>
    rw [Nat.add_right_comm p numeral.length k] at ih
    rw [List.map_cons, shift_mk]
    exact .number isNumeral ends ih
  | @operator _ p c _ _ isOperator _ ih =>
    rw [Nat.add_right_comm p 1 k] at ih
    rw [List.map_cons, ofChar, shift_mk]
    exact .operator isOperator ih
  | @opening _ p _ _ _ ih =>
    rw [Nat.add_right_comm p 1 k] at ih
    rw [List.map_cons, Token.opening, ofChar, shift_mk]
    exact .opening ih
  | @closing _ _ p _ _ _ ih =>
    rw [Nat.add_right_comm p 1 k] at ih
    rw [List.map_cons, List.map_cons, Token.closing, ofChar, shift_mk]
    exact .closing ih

/-- What is read to its end is read so in front of any text that cannot continue it. The brackets
that were opened further out stay as they are. -/
theorem Accepts.lexemesFrom_append {opened : List Nat} {p : Nat} {text : List Char}
    {tokens : List Token} (h : Accepts opened p text tokens) (outer : List Nat) {rest : List Char}
    (hrest : EndsNumeral rest) :
    lexemesFrom (opened ++ outer) p (text ++ rest) =
      (lexemesFrom outer (p + text.length) rest).map (tokens ++ ·) := by
  induction h with
  | nil p => rw [List.nil_append, List.nil_append, List.length_nil, Nat.add_zero, map_nil_append]
  | @space _ p text _ _ ih =>
    rw [List.cons_append, lexemesFrom_space, ih, List.length_cons, Nat.add_assoc, Nat.add_comm 1]
  | @number _ p numeral text tokens isNumeral ends _ ih =>
    rw [List.append_assoc, lexemesFrom_numeral isNumeral (ends.append hrest), ih,
      List.length_append, Nat.add_assoc]
    exact map_append_map _ [_] tokens
  | @operator _ p c text tokens isOperator _ ih =>
    rw [List.cons_append, lexemesFrom_operator isOperator, ih, List.length_cons, Nat.add_assoc,
      Nat.add_comm 1]
    exact map_append_map _ [_] tokens
  | @opening opened p text tokens _ ih =>
    rw [List.cons_append, lexemesFrom_opening, ← List.cons_append, ih, List.length_cons,
      Nat.add_assoc, Nat.add_comm 1]
    exact map_append_map _ [_] tokens
  | @closing q opened p text tokens _ ih =>
    rw [List.cons_append, List.cons_append, lexemesFrom_closing, ih, List.length_cons,
      Nat.add_assoc, Nat.add_comm 1]
    exact map_append_map _ [_] tokens

/-! ### Texts -/

theorem accepts_of_lexemes {text : String} {tokens : List Token} (h : lexemes text = .ok tokens)
    (k : Nat) : Accepts [] k text.toList (tokens.map (shift k)) := by
  have := (lexemesFrom_eq_ok_iff.1 h).shift k
  rwa [Nat.zero_add] at this

/-- A text that the full reader accepts is read as a piece of any other one. -/
theorem reads_of_lexemes {text : String} {tokens : List Token} (h : lexemes text = .ok tokens)
    (k : Nat) : Reads k text.toList (tokens.map (shift k)) :=
  fun opened _ hrest => (accepts_of_lexemes h k).lexemesFrom_append opened hrest

theorem balanced_shift {text : String} {tokens : List Token} (h : lexemes text = .ok tokens)
    (k : Nat) : Balanced (tokens.map (shift k)) :=
  (accepts_of_lexemes h k).closes

end ArithTree.Token
