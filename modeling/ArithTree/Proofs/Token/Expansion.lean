import ArithTree.Analysis
import ArithTree.Proofs.Token.StackStep

/-!
# Numbers taken apart

The simple reader sees the digits of a number as numbers of their own and passes over zeros and
points. `expand` does that to a finished token, and it makes no difference when it is done: in the
tokens of the full reader it gives those of the simple one, and it may as well wait until the tokens
are in postfix order.

* `Accepts.splitFrom_eq` : the tokens of the simple reader, from those of the full one.
* `toPostfixFrom_flatMap_expand` : taking numbers apart commutes with the stack of operators.
* `split_eq_flatMap_expand` : both for a text, and the texts that both readers treat alike.
-/

namespace ArithTree.Token

open Text

/-! ### One number -/

/-- The number that a digit other than zero makes at its offset from a position. -/
def digit? (position : Option Int) : Char × Nat → Option Token
  | (c, offset) =>
    if c.isDigit ∧ c ≠ '0' then some ⟨c.toString, .number, position.map (· + offset)⟩ else none

/-- A number taken apart into its digits without zeros; any other token as it is. -/
def expand (token : Token) : List Token :=
  if token.kind = .number then token.value.toList.zipIdx.filterMap (digit? token.position)
  else [token]

/-- Zeros and points go, and each digit keeps its place. -/
example : expand ⟨"10.5", .number, some 3⟩ =
    [⟨"1", .number, some 3⟩, ⟨"5", .number, some 6⟩] := by decide

theorem expand_of_ne {token : Token} (h : token.kind ≠ .number) : expand token = [token] := by
  rw [expand, if_neg h]

theorem kind_of_mem_expand {token digit : Token} (h : token.kind = .number)
    (hmem : digit ∈ expand token) : digit.kind = .number := by
  rw [expand, if_pos h] at hmem
  obtain ⟨⟨c, offset⟩, -, hdigit⟩ := List.mem_filterMap.1 hmem
  simp only [digit?, Option.ite_none_right_eq_some, Option.some.injEq] at hdigit
  rw [← hdigit.2]

theorem flatMap_expand_eq_self {tokens : List Token}
    (h : ∀ token ∈ tokens, expand token = [token]) : tokens.flatMap expand = tokens := by
  induction tokens with
  | nil => rfl
  | cons token tokens ih =>
    obtain ⟨htoken, htokens⟩ := List.forall_mem_cons.1 h
    rw [List.flatMap_cons, htoken, ih htokens, List.singleton_append]

theorem Numberless.flatMap_expand {tokens : List Token} (h : Numberless tokens) :
    tokens.flatMap expand = tokens :=
  flatMap_expand_eq_self fun token hmem => expand_of_ne (h token hmem)

/-! ### The tokens of a text -/

theorem splitFrom_append (p : Nat) (s t : List Char) :
    splitFrom p (s ++ t) = splitFrom p s ++ splitFrom (p + s.length) t := by
  induction s generalizing p with
  | nil => rfl
  | cons c s ih =>
    rw [List.cons_append, splitFrom, splitFrom, ih, List.append_assoc, List.length_cons,
      Nat.add_assoc, Nat.add_comm 1]

theorem not_isOperator_of_inNumeral {c : Char} (h : InNumeral c) : ¬ isOperator c := fun hop =>
  endsNumeral_cons.1 (endsNumeral_of_isOperator hop []) h

theorem ofSymbol_of_inNumeral {c : Char} (h : InNumeral c) (p offset : Nat) :
    ofSymbol? (p + offset) c = digit? (some p) (c, offset) := by
  have hbracket : ¬ (c = '(' ∨ c = ')') := not_or.2 (not_bracket_of_inNumeral h)
  rw [ofSymbol?, digit?, if_neg (not_isOperator_of_inNumeral h), if_neg hbracket]
  rfl

/-- The simple reader takes a row of digits and points apart. -/
theorem splitFrom_inNumeral {s : List Char} (h : ∀ c ∈ s, InNumeral c) (p offset : Nat) :
    splitFrom (p + offset) s = (s.zipIdx offset).filterMap (digit? (some p)) := by
  induction s generalizing offset with
  | nil => rfl
  | cons c s ih =>
    obtain ⟨hc, hs⟩ := List.forall_mem_cons.1 h
    rw [splitFrom, ofSymbol_of_inNumeral hc, Nat.add_assoc, ih hs, List.zipIdx_cons]
    cases hdigit : digit? (some p) (c, offset) with
    | none =>
      rw [List.filterMap_cons_none hdigit]
      rfl
    | some token =>
      rw [List.filterMap_cons_some hdigit]
      rfl

theorem splitFrom_numeral {s : List Char} (h : ∀ c ∈ s, InNumeral c) (p : Nat) :
    splitFrom p s = expand ⟨String.ofList s, .number, some p⟩ := by
  rw [expand, if_pos rfl, String.toList_ofList]
  exact splitFrom_inNumeral h p 0

/-- The simple reader finds in a text what the full reader finds, with the numbers taken apart. -/
theorem Accepts.splitFrom_eq {opened : List Nat} {p : Nat} {text : List Char}
    {tokens : List Token} (h : Accepts opened p text tokens) :
    splitFrom p text = tokens.flatMap expand := by
  induction h with
  | nil => rfl
  | space _ ih => exact ih
  | number isNumeral _ _ ih =>
    rw [splitFrom_append, splitFrom_numeral isNumeral.chars, List.flatMap_cons, ih]
  | @operator _ _ c _ _ isOperator _ ih =>
    have hdigit : ¬ (c.isDigit ∧ c ≠ '0') := fun hd =>
      not_isOperator_of_inNumeral (.inl hd.1) isOperator
    rw [splitFrom, ofSymbol?, if_neg hdigit, if_pos isOperator, ih]
    rfl
  | opening _ ih =>
    rw [splitFrom, ih]
    rfl
  | closing _ ih =>
    rw [splitFrom, ih]
    rfl

/-! ### The stack of operators -/

theorem toPostfixFrom_numbers {numbers : List Token} (h : ∀ token ∈ numbers, token.kind = .number)
    (stack : Stack) (tokens : List Token) :
    toPostfixFrom stack (numbers ++ tokens) = (toPostfixFrom stack tokens).map (numbers ++ ·) := by
  induction numbers with
  | nil => rw [List.nil_append, map_nil_append]
  | cons number numbers ih =>
    obtain ⟨hnumber, hnumbers⟩ := List.forall_mem_cons.1 h
    rw [List.cons_append, toPostfixFrom, arrive_number hnumber]
    exact (congrArg _ (ih hnumbers)).trans (map_append_map _ [number] numbers)

/-- **Taking numbers apart commutes with the stack of operators.** -/
theorem toPostfixFrom_flatMap_expand {stack : Stack} (h : Numberless stack) (tokens : List Token) :
    toPostfixFrom stack (tokens.flatMap expand) =
      (toPostfixFrom stack tokens).map (·.flatMap expand) := by
  induction tokens generalizing stack with
  | nil => exact congrArg Except.ok (numberless_drain stack).flatMap_expand.symm
  | cons token tokens ih =>
    rw [List.flatMap_cons]
    -- A number goes out at once, and so do its digits; any other token is the same on both sides.
    by_cases hkind : token.kind = .number
    · rw [toPostfixFrom_numbers (fun _ => kind_of_mem_expand hkind), ih h, toPostfixFrom,
        arrive_number hkind]
      cases htokens : toPostfixFrom stack tokens <;> simp [Except.bind, Except.map, htokens]
    · rw [expand_of_ne hkind, List.singleton_append, toPostfixFrom, toPostfixFrom]
      cases harrive : arrive stack token with
      | error breakdown => rfl
      | ok step =>
        obtain ⟨sent, next⟩ := step
        obtain ⟨hsent, hnext⟩ := h.arrive hkind harrive
        have hself := hsent.flatMap_expand
        simp only [Except.bind, ih hnext]
        cases toPostfixFrom next tokens <;> simp [Except.map, hself]

/-! ### Texts -/

/-- A token that is written as one digit other than zero. -/
def IsDigit (token : Token) : Prop := ∃ c : Char, c.isDigit ∧ c ≠ '0' ∧ token.value = c.toString

theorem IsDigit.expand_eq {token : Token} (h : IsDigit token) : expand token = [token] := by
  obtain ⟨value, kind, position⟩ := token
  obtain ⟨c, hdigit, hzero, rfl⟩ := h
  by_cases hkind : kind = .number
  · subst hkind
    simp [expand, digit?, Char.toString, hdigit, hzero]
  · exact expand_of_ne hkind

/-- **The simple reader is the full one with the numbers taken apart**, before the tokens are put
into postfix order and afterwards. A text all of whose numbers have one digit, and that no zero, is
analysed in the same way by both. -/
theorem split_eq_flatMap_expand {text : String} {tokens : List Token}
    (h : lexemes text = .ok tokens) :
    split text = tokens.flatMap expand ∧
    (∃ out, postfixOfLexemes text = .ok out ∧
      postfixOfSymbols text = .ok (out.flatMap expand)) ∧
    ((∀ token ∈ tokens, token.kind = .number → IsDigit token) →
      analyse .binary true (some text) = analyse .binary false (some text)) := by
  have hsplit : split text = tokens.flatMap expand :=
    (lexemesFrom_eq_ok_iff.1 h).splitFrom_eq
  obtain ⟨out, hout⟩ := (balanced_of_lexemes h).exists_toPostfix
  have hlexemes : postfixOfLexemes text = .ok out :=
    postfixOfLexemes_eq_ok_iff.2 ⟨tokens, h, hout⟩
  have hsymbols : postfixOfSymbols text = .ok (out.flatMap expand) := by
    rw [toPostfix] at hout
    rw [postfixOfSymbols, mapError_eq_ok_iff, hsplit, toPostfix,
      toPostfixFrom_flatMap_expand numberless_nil, hout]
    rfl
  refine ⟨hsplit, ⟨out, hlexemes, hsymbols⟩, fun hdigits => ?_⟩
  have hself : tokens.flatMap expand = tokens := by
    refine flatMap_expand_eq_self fun token hmem => ?_
    by_cases hkind : token.kind = .number
    · exact (hdigits token hmem hkind).expand_eq
    · exact expand_of_ne hkind
  have hsame : postfixTokens true text = postfixTokens false text := by
    change postfixOfLexemes text = postfixOfSymbols text
    rw [hlexemes, postfixOfSymbols, hsplit, hself, hout]
    rfl
  rw [analyse, analyse, analyseBinary, analyseBinary, hsame]

theorem split_eq_flatMap_expand_difference :
    let tokens : List Token := [⟨"105", .number, some 0⟩, ofChar .operator 3 '-',
      ⟨"2", .number, some 4⟩]
    let digits : List Token := [⟨"5", .number, some 0⟩, ofChar .operator 1 '-',
      ⟨"2", .number, some 2⟩]
    (lexemes "105-2" = .ok tokens ∧ split "105-2" = tokens.flatMap expand ∧
      ∃ out, postfixOfLexemes "105-2" = .ok out ∧
        postfixOfSymbols "105-2" = .ok (out.flatMap expand)) ∧
    lexemes "5-2" = .ok digits ∧
      analyse .binary true (some "5-2") = analyse .binary false (some "5-2") := by
  intro tokens digits
  have hminus : EndsNumeral ['-', '2'] := endsNumeral_of_isOperator rfl _
  have hlong : Reads 0 (['1', '0', '5'] ++ ['-', '2']) tokens :=
    .append (.numeral (by decide)) hminus (.operator rfl (.numeral (by decide)))
  have hshort : Reads 0 (['5'] ++ ['-', '2']) digits :=
    .append (.numeral (by decide)) hminus (.operator rfl (.numeral (by decide)))
  have htokens : lexemes "105-2" = .ok tokens :=
    Reads.lexemes (show Reads 0 "105-2".toList tokens from hlong)
  have hdigits : lexemes "5-2" = .ok digits :=
    Reads.lexemes (show Reads 0 "5-2".toList digits from hshort)
  obtain ⟨hsplit, horder, -⟩ := split_eq_flatMap_expand htokens
  refine ⟨⟨htokens, hsplit, horder⟩, hdigits, (split_eq_flatMap_expand hdigits).2.2 ?_⟩
  intro token hmem hkind
  have hcases : token = ⟨"5", .number, some 0⟩ ∨ token = ofChar .operator 1 '-' ∨
      token = ⟨"2", .number, some 2⟩ := by simpa [digits] using hmem
  rcases hcases with rfl | rfl | rfl
  · exact ⟨'5', rfl, by decide, rfl⟩
  · cases hkind
  · exact ⟨'2', rfl, by decide, rfl⟩

end ArithTree.Token
