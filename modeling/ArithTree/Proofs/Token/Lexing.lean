import ArithTree.Proofs.Results
import ArithTree.Proofs.Text.Boundary
import ArithTree.Token.Lexeme

/-!
# The tokens of a text

The full reader is a recursion on the text, with one case for each kind of lexeme. What it does in
each case is said once, and from it what the tokens of a whole text look like.

* `lexemesFrom_eq_ok_iff` : `Accepts` are the runs of the reader without a fault.
* `Reads` : a piece of a text that is read as given tokens, whatever stands around it.
* `Balanced` : tokens all of whose brackets match.
* `balanced_of_lexemes` : so do the brackets among the tokens of a text.
-/

namespace ArithTree.Token

open Text

/-- The token of an opening bracket. -/
def opening (p : Nat) : Token := ofChar .paren p '('

/-- The token of a closing bracket. -/
def closing (p : Nat) : Token := ofChar .paren p ')'

/-- The token of a binary operator that binds with the given precedence. -/
structure Binds (own : Nat) (token : Token) : Prop where
  /-- It is an operator. -/
  kind : token.kind = .operator
  /-- It has this precedence. -/
  precedence : precedence? token.value = some own

/-! ### The cases of the reader -/

section Cases

variable {opened : List Nat} {p : Nat} {rest : List Char}

theorem lexemesFrom_space :
    lexemesFrom opened p (' ' :: rest) = lexemesFrom opened (p + 1) rest := by
  rw [lexemesFrom.eq_def]
  dsimp only
  rw [dif_neg (by decide), if_pos rfl]

theorem lexemesFrom_opening : lexemesFrom opened p ('(' :: rest) =
    (lexemesFrom (p :: opened) (p + 1) rest).map (opening p :: ·) := by
  rw [lexemesFrom.eq_def]
  dsimp only
  rw [dif_neg (by decide), if_neg (by decide), if_neg (by decide), if_pos rfl]
  rfl

theorem lexemesFrom_closing {q : Nat} : lexemesFrom (q :: opened) p (')' :: rest) =
    (lexemesFrom opened (p + 1) rest).map (closing p :: ·) := by
  rw [lexemesFrom.eq_def]
  dsimp only
  rw [dif_neg (by decide), if_neg (by decide), if_neg (by decide), if_neg (by decide), if_pos rfl]
  rfl

/-- The binary operators are among the operators of a term. -/
theorem mem_of_isOperator {c : Char} (h : isOperator c) : c ∈ operatorSymbols := by
  have hchar : ∀ d : Char, c.toString = d.toString → c = d := fun _ => String.singleton_inj.1
  unfold isOperator precedence? at h
  split at h
  · next heq => rw [hchar '+' heq]; decide
  · next heq => rw [hchar '-' heq]; decide
  · next heq => rw [hchar '*' heq]; decide
  · next heq => rw [hchar '/' heq]; decide
  · cases h

theorem isOperator_iff {c : Char} : isOperator c ↔ c ∈ ['+', '-', '*', '/'] := by
  constructor
  · intro h
    have hmem := mem_of_isOperator h
    simp only [operatorSymbols, List.mem_cons, List.not_mem_nil, or_false] at hmem
    rcases hmem with rfl | rfl | rfl | rfl | rfl
    · decide
    · decide
    · decide
    · decide
    · cases h
  · intro h
    simp only [List.mem_cons, List.not_mem_nil, or_false] at h
    rcases h with rfl | rfl | rfl | rfl <;> rfl

theorem endsNumeral_of_isOperator {c : Char} (h : isOperator c) (rest : List Char) :
    EndsNumeral (c :: rest) :=
  endsNumeral_operator (mem_of_isOperator h) rest

theorem not_bracket_of_isDigit {c : Char} (h : c.isDigit) : c ≠ '(' ∧ c ≠ ')' := by
  refine ⟨?_, ?_⟩ <;> rintro rfl <;> exact absurd h (by decide)

theorem not_bracket_of_isOperator {c : Char} (h : isOperator c) : c ≠ '(' ∧ c ≠ ')' := by
  refine ⟨?_, ?_⟩ <;> rintro rfl <;> exact absurd h (by decide)

theorem not_bracket_of_inNumeral {c : Char} (h : InNumeral c) : c ≠ '(' ∧ c ≠ ')' := by
  rcases h with hdigit | rfl
  · exact not_bracket_of_isDigit hdigit
  · decide

theorem lexemesFrom_operator {c : Char} (h : isOperator c) : lexemesFrom opened p (c :: rest) =
    (lexemesFrom opened (p + 1) rest).map (ofChar .operator p c :: ·) := by
  have hnumeral : ¬ (c.isDigit ∨ c = '.') := endsNumeral_cons.1 (endsNumeral_of_isOperator h rest)
  have hspace : c ≠ ' ' := by
    rintro rfl
    exact absurd h (by decide)
  rw [lexemesFrom.eq_def]
  dsimp only
  rw [dif_neg hnumeral, if_neg hspace, if_pos h]

theorem lexemesFrom_numeral {s : List Char} (h : IsNumeral s) (hrest : EndsNumeral rest) :
    lexemesFrom opened p (s ++ rest) =
      (lexemesFrom opened (p + s.length) rest).map (⟨String.ofList s, .number, some p⟩ :: ·) := by
  obtain ⟨d, hd, hdigit⟩ := h.digit
  obtain ⟨c, tail, rfl⟩ := List.exists_cons_of_ne_nil (List.ne_nil_of_mem hd)
  have hspan := spanNumeral_numeral h hrest
  have hc : c.isDigit ∨ c = '.' := h.chars c List.mem_cons_self
  have hpoint : rest.head? ≠ some '.' := fun hp => hrest '.' hp (.inr rfl)
  have hlone : c :: tail ≠ ['.'] := by
    intro heq
    rw [heq, List.mem_singleton] at hd
    exact isDigit_ne_point hdigit hd
  rw [List.cons_append] at hspan ⊢
  rw [lexemesFrom.eq_def]
  dsimp only
  rw [dif_pos hc, hspan, if_neg hpoint, if_neg hlone]

end Cases

/-! ### Texts that are read to their end -/

/-- The runs of the reader that meet no fault, with one constructor for each kind of lexeme. -/
inductive Accepts : List Nat → Nat → List Char → List Token → Prop where
  | nil (p : Nat) : Accepts [] p [] []
  | space {opened : List Nat} {p : Nat} {rest : List Char} {tokens : List Token}
    (more : Accepts opened (p + 1) rest tokens) : Accepts opened p (' ' :: rest) tokens
  | number {opened : List Nat} {p : Nat} {numeral rest : List Char} {tokens : List Token}
    (isNumeral : IsNumeral numeral) (ends : EndsNumeral rest)
    (more : Accepts opened (p + numeral.length) rest tokens) :
    Accepts opened p (numeral ++ rest) (⟨String.ofList numeral, .number, some p⟩ :: tokens)
  | operator {opened : List Nat} {p : Nat} {c : Char} {rest : List Char} {tokens : List Token}
    (isOperator : isOperator c) (more : Accepts opened (p + 1) rest tokens) :
    Accepts opened p (c :: rest) (ofChar .operator p c :: tokens)
  | opening {opened : List Nat} {p : Nat} {rest : List Char} {tokens : List Token}
    (more : Accepts (p :: opened) (p + 1) rest tokens) :
    Accepts opened p ('(' :: rest) (opening p :: tokens)
  | closing {q : Nat} {opened : List Nat} {p : Nat} {rest : List Char} {tokens : List Token}
    (more : Accepts opened (p + 1) rest tokens) :
    Accepts (q :: opened) p (')' :: rest) (closing p :: tokens)

/-- The reader accepts what its runs accept, with the same tokens. -/
theorem lexemesFrom_eq_ok_iff {opened : List Nat} {p : Nat} {text : List Char}
    {tokens : List Token} :
    lexemesFrom opened p text = .ok tokens ↔ Accepts opened p text tokens := by
  constructor
  · intro h
    -- One case for each branch of the reader; a branch that ends with a fault has no tokens.
    fun_induction lexemesFrom opened p text generalizing tokens with
    | case1 p =>
      cases h
      exact .nil p
    | case2 | case3 | case4 | case9 | case11 => cases h
    | case5 opened p c rest hc span next hsecond hlone =>
      rename_i ih
      obtain ⟨more, hmore, rfl⟩ := map_eq_ok_iff.1 h
      have haccepts := Accepts.number (isNumeral_span_of_ne hc hlone) (endsNumeral_span hsecond)
        (ih hmore)
      rwa [spanNumeral_append] at haccepts
    | case6 opened p rest _ ih => exact .space (ih h)
    | case7 opened p c rest _ _ hop ih =>
      obtain ⟨more, hmore, rfl⟩ := map_eq_ok_iff.1 h
      exact .operator hop (ih hmore)
    | case8 opened p rest _ _ _ ih =>
      obtain ⟨more, hmore, rfl⟩ := map_eq_ok_iff.1 h
      exact .opening (ih hmore)
    | case10 p rest innermost opened _ _ _ _ ih =>
      obtain ⟨more, hmore, rfl⟩ := map_eq_ok_iff.1 h
      exact .closing (ih hmore)
  · intro h
    induction h with
    | nil p => rw [lexemesFrom]
    | space _ ih => rw [lexemesFrom_space, ih]
    | number isNumeral ends _ ih =>
      rw [lexemesFrom_numeral isNumeral ends, ih]
      rfl
    | operator isOperator _ ih =>
      rw [lexemesFrom_operator isOperator, ih]
      rfl
    | opening _ ih =>
      rw [lexemesFrom_opening, ih]
      rfl
    | closing _ ih =>
      rw [lexemesFrom_closing, ih]
      rfl

/-! ### Pieces of a text -/

/-- From `p` on, the text is read as the given tokens and leaves the opened brackets as they were,
whatever comes behind it that cannot continue a numeral. -/
def Reads (p : Nat) (text : List Char) (tokens : List Token) : Prop :=
  ∀ (opened : List Nat) (rest : List Char), EndsNumeral rest →
    lexemesFrom opened p (text ++ rest) =
      (lexemesFrom opened (p + text.length) rest).map (tokens ++ ·)

namespace Reads

variable {p : Nat} {text behind : List Char} {tokens more : List Token}

theorem nil : Reads p [] [] := by
  intro opened rest _
  rw [List.nil_append, List.length_nil, Nat.add_zero, map_nil_append]

theorem append (h : Reads p text tokens) (hstop : EndsNumeral behind)
    (hmore : Reads (p + text.length) behind more) : Reads p (text ++ behind) (tokens ++ more) := by
  intro opened rest hrest
  rw [List.append_assoc, h _ _ (hstop.append hrest), hmore _ _ hrest, map_append_map,
    List.length_append, Nat.add_assoc]

theorem space (h : Reads (p + 1) text tokens) : Reads p (' ' :: text) tokens := by
  intro opened rest hrest
  rw [List.cons_append, lexemesFrom_space, h _ _ hrest, List.length_cons, Nat.add_assoc,
    Nat.add_comm 1]

theorem numeral {s : List Char} (h : IsNumeral s) :
    Reads p s [⟨String.ofList s, .number, some p⟩] :=
  fun _ _ hrest => lexemesFrom_numeral h hrest

theorem operator {c : Char} (hc : isOperator c) (h : Reads (p + 1) text tokens) :
    Reads p (c :: text) (ofChar .operator p c :: tokens) := by
  intro opened rest hrest
  rw [List.cons_append, lexemesFrom_operator hc, h _ _ hrest, List.length_cons, Nat.add_assoc,
    Nat.add_comm 1]
  exact map_append_map _ [ofChar .operator p c] tokens

theorem bracketed (h : Reads (p + 1) text tokens) : Reads p ('(' :: text ++ [')'])
    (opening p :: tokens ++ [closing (p + 1 + text.length)]) := by
  intro opened rest _
  have hend : p + ('(' :: text ++ [')']).length = p + 1 + text.length + 1 := by
    simp only [List.length_append, List.length_cons, List.length_nil]
    omega
  rw [List.append_assoc, List.cons_append, lexemesFrom_opening, List.singleton_append,
    h _ _ endsNumeral_closing, lexemesFrom_closing, hend]
  cases lexemesFrom opened (p + 1 + text.length + 1) rest <;> simp [Except.map]

/-- What the whole of a text is read as. -/
theorem lexemes {text : String} (h : Reads 0 text.toList tokens) : lexemes text = .ok tokens := by
  have := h [] [] endsNumeral_nil
  rw [List.append_nil] at this
  rw [Token.lexemes, this, lexemesFrom]
  simp [Except.map]

end Reads

/-! ### Brackets -/

/-- A number or a binary operator. -/
def IsFlat (token : Token) : Prop := token.kind = .number ∨ ∃ own, Binds own token

/-- Numbers, binary operators and brackets that match. -/
inductive Balanced : List Token → Prop where
  | nil : Balanced []
  | flat {token : Token} {tokens : List Token} (isFlat : IsFlat token) (more : Balanced tokens) :
    Balanced (token :: tokens)
  | group {p q : Nat} {inner tokens : List Token} (inside : Balanced inner)
    (more : Balanced tokens) : Balanced (opening p :: inner ++ closing q :: tokens)

/-- Tokens that close, besides their own brackets, a number of others. -/
def Closes : Nat → List Token → Prop
  | 0, tokens => Balanced tokens
  | n + 1, tokens => ∃ inner q more, tokens = inner ++ closing q :: more ∧ Balanced inner ∧
      Closes n more

namespace Closes

variable {n p : Nat} {tokens : List Token}

theorem flat {token : Token} (isFlat : IsFlat token) (h : Closes n tokens) :
    Closes n (token :: tokens) := by
  cases n with
  | zero => exact .flat isFlat h
  | succ n =>
    obtain ⟨inner, q, more, rfl, hinner, hmore⟩ := h
    exact ⟨token :: inner, q, more, rfl, .flat isFlat hinner, hmore⟩

theorem opening (h : Closes (n + 1) tokens) : Closes n (opening p :: tokens) := by
  obtain ⟨inner, q, more, rfl, hinner, hmore⟩ := h
  cases n with
  | zero => exact .group hinner hmore
  | succ n =>
    -- The bracket is closed by what closed the innermost one; the next one is innermost then.
    obtain ⟨next, r, rest, rfl, hnext, hrest⟩ := hmore
    refine ⟨Token.opening p :: inner ++ Token.closing q :: next, r, rest, ?_, .group hinner hnext,
      hrest⟩
    simp

theorem closing (h : Closes n tokens) : Closes (n + 1) (closing p :: tokens) :=
  ⟨[], p, tokens, rfl, .nil, h⟩

end Closes

theorem exists_binds {c : Char} (h : isOperator c) (p : Nat) :
    ∃ own, Binds own (ofChar .operator p c) := by
  obtain ⟨own, hown⟩ := Option.isSome_iff_exists.1 h
  exact ⟨own, rfl, hown⟩

/-- The tokens of a text close the brackets that were opened before it. -/
theorem Accepts.closes {opened : List Nat} {p : Nat} {text : List Char} {tokens : List Token}
    (h : Accepts opened p text tokens) : Closes opened.length tokens := by
  induction h with
  | nil => exact .nil
  | space _ ih => exact ih
  | number _ _ _ ih => exact .flat (.inl rfl) ih
  | operator isOperator _ ih => exact .flat (.inr (exists_binds isOperator _)) ih
  | opening _ ih => exact .opening ih
  | closing _ ih => exact .closing ih

/-- **The brackets among the tokens of a text match.** -/
theorem balanced_of_lexemes {text : String} {tokens : List Token}
    (h : lexemes text = .ok tokens) : Balanced tokens :=
  (lexemesFrom_eq_ok_iff.1 h).closes

/-! ### Without brackets -/

/-- The tokens that are no brackets. -/
def unbracketed (tokens : List Token) : List Token := tokens.filter (·.kind ≠ .paren)

theorem unbracketed_nil : unbracketed [] = [] := rfl

theorem unbracketed_append (tokens more : List Token) :
    unbracketed (tokens ++ more) = unbracketed tokens ++ unbracketed more := by
  simp [unbracketed]

theorem unbracketed_cons {token : Token} (h : token.kind ≠ .paren) (tokens : List Token) :
    unbracketed (token :: tokens) = token :: unbracketed tokens := by
  simp [unbracketed, h]

theorem unbracketed_group (p q : Nat) (inner tokens : List Token) :
    unbracketed (opening p :: inner ++ closing q :: tokens) =
      unbracketed inner ++ unbracketed tokens := by
  simp [unbracketed, opening, closing, ofChar]

/-- The number of tokens of a kind. -/
def countOf (kind : Kind) (tokens : List Token) : Nat := tokens.countP (·.kind = kind)

theorem countOf_cons (kind : Kind) (token : Token) (tokens : List Token) :
    countOf kind (token :: tokens) = countOf kind tokens + if token.kind = kind then 1 else 0 := by
  simp [countOf, List.countP_cons]

theorem countOf_unbracketed {kind : Kind} (h : kind ≠ .paren) (tokens : List Token) :
    countOf kind (unbracketed tokens) = countOf kind tokens := by
  rw [countOf, unbracketed, List.countP_filter]
  refine List.countP_congr fun token _ => ?_
  by_cases heq : token.kind = kind
  · simp [heq, h]
  · simp [heq]

theorem countOf_group {kind : Kind} (h : kind ≠ .paren) (p q : Nat) (inner tokens : List Token) :
    countOf kind (opening p :: inner ++ closing q :: tokens) =
      countOf kind inner + countOf kind tokens := by
  rw [← countOf_unbracketed h, unbracketed_group, countOf, List.countP_append, ← countOf,
    ← countOf, countOf_unbracketed h, countOf_unbracketed h]

end ArithTree.Token
