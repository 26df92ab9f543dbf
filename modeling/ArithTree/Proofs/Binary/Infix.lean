import ArithTree.Analysis
import ArithTree.Proofs.Binary.Precedence
import ArithTree.Proofs.Term.Alternation

/-!
# Which texts have a binary tree

`Alternates` is infix notation over tokens: operands and operators in turn, in the whole and in all
brackets. Nothing in the analysis checks that. What is there is the count of trees at the end of the
folding, so a text with a tree has one number more than operators, and that is enough for infix
notation as long as no two operands stand side by side.

* `Alternates.hasTree` : infix notation always has a tree.
* `numbers_eq_of_balanced` : what the count of trees says of the tokens.
* `alternates_of_balanced` : where operands are separate, the count implies infix notation.
* `exists_analyse_of_alternates` : infix notation is accepted.
* `alternates_of_analyse` : the texts that have a tree.
-/

namespace ArithTree.Binary

open Text Token
open Term (Turn)

/-- Numbers and operators in turn, in the whole and in all brackets, and nothing else. -/
inductive Alternates : Turn → List Token → Prop where
  | done : Alternates .operator []
  | operator {own : Nat} {op : Token} {tokens : List Token} (binds : Binds own op)
    (more : Alternates .operand tokens) : Alternates .operator (op :: tokens)
  | number {token : Token} {tokens : List Token} (kind : token.kind = .number)
    (more : Alternates .operator tokens) : Alternates .operand (token :: tokens)
  | group {p q : Nat} {inner tokens : List Token} (inside : Alternates .operand inner)
    (more : Alternates .operator tokens) :
    Alternates .operand (opening p :: inner ++ closing q :: tokens)

/-! ### Infix notation has a tree -/

/-- The nodes in order: left operand, node, right operand. -/
def inorder : Expression → List Entry
  | .leaf value kind => [⟨value, kind, true⟩]
  | .branch value kind left right => inorder left ++ ⟨value, kind, false⟩ :: inorder right
  | .foreign operand => operand.elim

/-- The node that a token makes, without its operands. -/
def entryOf (token : Token) : Entry := ⟨token.value, token.kind, token.kind = .number⟩

/-- The nodes that tokens make. -/
def entriesOf (tokens : List Token) : List Entry := (unbracketed tokens).map entryOf

theorem entriesOf_append (tokens more : List Token) :
    entriesOf (tokens ++ more) = entriesOf tokens ++ entriesOf more := by
  simp [entriesOf, unbracketed_append]

/-- One more operand in front of a sequence. It goes below all operators of the sequence that do
not bind more tightly than its own. -/
theorem Derives.prepend {level own : Nat} {op : Token} {tokens operand : List Token}
    {first tree : Expression} (h : Derives level tokens tree) (binds : Binds own op)
    (above : level ≤ own) (hfirst : ∀ level, Derives level operand first) :
    ∃ whole, Derives level (operand ++ op :: tokens) whole ∧
      inorder whole = inorder first ++ ⟨op.value, .operator, false⟩ :: inorder tree := by
  induction h with
  | number kind =>
    exact ⟨_, .operation binds above (hfirst own) (.number kind), rfl⟩
  | bracketed inside =>
    exact ⟨_, .operation binds above (hfirst own) (.bracketed inside), rfl⟩
  | @operation level next op' tokens more left right bindsNext aboveNext before behind ih _ =>
    -- A tighter operator keeps its left operand; any other one takes the new operand in front.
    rcases Nat.lt_or_ge own next with hlt | hge
    · have hbehind : Derives (own + 1) (tokens ++ op' :: more) _ :=
        .operation bindsNext hlt before behind
      exact ⟨_, .operation binds above (hfirst own) hbehind, rfl⟩
    · obtain ⟨whole, hwhole, hinorder⟩ := ih hge
      refine ⟨.branch op'.value .operator whole right, ?_, ?_⟩
      · have := Derives.operation bindsNext aboveNext hwhole behind
        rwa [List.append_assoc, List.cons_append] at this
      · rw [inorder, hinorder, inorder, List.append_assoc, List.cons_append]

/-- What follows from alternation at each turn: a tree of the whole, or a tree behind the first
operator. -/
def HasTree : Turn → List Token → Prop
  | .operand, tokens => ∃ tree, Derives 0 tokens tree ∧ inorder tree = entriesOf tokens
  | .operator, tokens => tokens = [] ∨ ∃ own op more tree, tokens = op :: more ∧ Binds own op ∧
      Derives 0 more tree ∧ inorder tree = entriesOf more

/-- An operand and what follows it have a tree together. -/
theorem HasTree.cons {tokens : List Token} {first : Expression} (h : HasTree .operator tokens)
    (operand : List Token) (hfirst : ∀ level, Derives level operand first)
    (hinorder : inorder first = entriesOf operand) : HasTree .operand (operand ++ tokens) := by
  rcases h with rfl | ⟨own, op, more, tree, rfl, binds, hderives, htree⟩
  · rw [List.append_nil]
    exact ⟨first, hfirst 0, hinorder⟩
  · obtain ⟨whole, hwhole, horder⟩ := hderives.prepend binds (Nat.zero_le own) hfirst
    refine ⟨whole, hwhole, ?_⟩
    have hop : entriesOf (op :: more) = ⟨op.value, .operator, false⟩ :: entriesOf more := by
      simp [entriesOf, unbracketed_cons, binds.kind, entryOf]
    rw [horder, hinorder, htree, entriesOf_append, hop]

theorem Alternates.hasTree {turn : Turn} {tokens : List Token} (h : Alternates turn tokens) :
    HasTree turn tokens := by
  induction h with
  | done => exact .inl rfl
  | operator binds _ ih =>
    obtain ⟨tree, hderives, horder⟩ := ih
    exact .inr ⟨_, _, _, tree, rfl, binds, hderives, horder⟩
  | @number token tokens kind _ ih =>
    refine ih.cons [token] (fun _ => .number kind) ?_
    simp [inorder, entriesOf, unbracketed, entryOf, kind]
  | @group p q inner tokens _ _ ihInside ih =>
    obtain ⟨tree, hderives, horder⟩ := ihInside
    have hinside : entriesOf (opening p :: inner ++ [closing q]) = entriesOf inner := by
      rw [entriesOf, unbracketed_group, unbracketed_nil, List.append_nil, entriesOf]
    have := ih.cons (opening p :: inner ++ [closing q]) (fun _ => .bracketed hderives)
      (horder.trans hinside.symm)
    rwa [List.append_assoc, List.singleton_append] at this

/-! ### Counting -/

/-- A number adds a tree and an operator takes one away. -/
theorem foldToken_length {trees next : List Expression} {token : Token}
    (h : foldToken trees token = .ok next) :
    next.length + countOf .operator [token] = trees.length + countOf .number [token] := by
  obtain ⟨hkind, rfl⟩ | ⟨hkind, right, left, rest, rfl, rfl⟩ := foldToken_eq_ok h
  · simp [countOf, hkind]
  · simp [countOf, hkind]

theorem foldTokens_length {trees next : List Expression} {tokens : List Token}
    (h : foldTokens trees tokens = .ok next) :
    next.length + countOf .operator tokens = trees.length + countOf .number tokens := by
  induction tokens generalizing trees with
  | nil =>
    cases h
    rfl
  | cons token tokens ih =>
    obtain ⟨mid, hfirst, hrest⟩ := bind_eq_ok_iff.1 h
    have hstep := foldToken_length hfirst
    have hbehind := ih hrest
    rw [countOf_cons, countOf_cons] at hstep ⊢
    simp only [countOf, List.countP_nil] at hstep hbehind ⊢
    omega

/-! ### Operands side by side -/

/-- An operand may begin with this token. -/
def BeginsOperand (token : Token) : Prop := token.kind = .number ∨ token.value = "("

/-- An operand may end with this token. -/
def EndsOperand (token : Token) : Prop := token.kind = .number ∨ token.value = ")"

/-- Somewhere an operand stands right behind another one. -/
def Adjoins (tokens : List Token) : Prop :=
  ∃ before left right behind, tokens = before ++ left :: right :: behind ∧
    EndsOperand left ∧ BeginsOperand right

theorem Adjoins.append_left {tokens : List Token} (h : Adjoins tokens) (more : List Token) :
    Adjoins (more ++ tokens) := by
  obtain ⟨before, left, right, behind, rfl, hleft, hright⟩ := h
  exact ⟨more ++ before, left, right, behind, by simp, hleft, hright⟩

theorem Adjoins.append_right {tokens : List Token} (h : Adjoins tokens) (more : List Token) :
    Adjoins (tokens ++ more) := by
  obtain ⟨before, left, right, behind, rfl, hleft, hright⟩ := h
  exact ⟨before, left, right, behind ++ more, by simp, hleft, hright⟩

theorem not_beginsOperand_head {token : Token} {tokens : List Token} (h : EndsOperand token)
    (hseparate : ¬ Adjoins (token :: tokens)) : ∀ next ∈ tokens.head?, ¬ BeginsOperand next := by
  intro next hnext hbegins
  obtain ⟨behind, rfl⟩ := List.head?_eq_some_iff.1 hnext
  exact hseparate ⟨[], token, next, behind, rfl, h, hbegins⟩

/-- How many more numbers than operators a sequence in infix notation has from a turn on. -/
def excess : Turn → Nat
  | .operand => 1
  | .operator => 0

/-- Balanced tokens without operands side by side never have more numbers than infix notation, and
are in infix notation if they have as many. Behind an operand they are counted from an operator on:
there the next token cannot be an operand. -/
theorem alternates_of_balanced {tokens : List Token} (h : Balanced tokens)
    (hseparate : ¬ Adjoins tokens) (turn : Turn)
    (hturn : turn = .operator → ∀ next ∈ tokens.head?, ¬ BeginsOperand next) :
    countOf .number tokens ≤ countOf .operator tokens + excess turn ∧
      (countOf .number tokens = countOf .operator tokens + excess turn →
        Alternates turn tokens) := by
  induction h generalizing turn with
  | nil =>
    cases turn with
    | operand => exact ⟨Nat.zero_le _, fun heq => by cases heq⟩
    | operator => exact ⟨Nat.le_refl _, fun _ => .done⟩
  | @flat token tokens isFlat _ ih =>
    have hrest : ¬ Adjoins tokens := fun hadj => hseparate (hadj.append_left [token])
    rcases isFlat with hkind | ⟨own, binds⟩
    · cases turn with
      | operator => exact absurd (.inl hkind) (hturn rfl token rfl)
      | operand =>
        obtain ⟨hle, halternates⟩ :=
          ih hrest .operator fun _ => not_beginsOperand_head (.inl hkind) hseparate
        rw [countOf_cons, countOf_cons, if_pos hkind, if_neg (by simp [hkind])]
        refine ⟨Nat.succ_le_succ hle, fun heq => .number hkind (halternates ?_)⟩
        exact Nat.succ.inj heq
    · -- Behind an operator an operand has to come, which may bring the one number more.
      obtain ⟨hle, halternates⟩ := ih hrest .operand fun hturn => by cases hturn
      rw [countOf_cons, countOf_cons, if_pos binds.kind, if_neg (by simp [binds.kind])]
      simp only [excess] at hle halternates ⊢
      cases turn with
      | operator => exact ⟨hle, fun heq => .operator binds (halternates heq)⟩
      | operand => exact ⟨by simp only; omega, fun heq => by simp only at heq; omega⟩
  | @group p q inner tokens _ _ ihInside ih =>
    cases turn with
    | operator => exact absurd (.inr rfl) (hturn rfl (opening p) rfl)
    | operand =>
      have hinner : ¬ Adjoins inner := fun hadj =>
        hseparate ((hadj.append_left [opening p]).append_right (closing q :: tokens))
      have hbehind : ¬ Adjoins (closing q :: tokens) := fun hadj =>
        hseparate (hadj.append_left (opening p :: inner))
      have hrest : ¬ Adjoins tokens := fun hadj => hbehind (hadj.append_left [closing q])
      obtain ⟨hleInside, hinside⟩ := ihInside hinner .operand fun hturn => by cases hturn
      obtain ⟨hle, hmore⟩ :=
        ih hrest .operator fun _ => not_beginsOperand_head (.inr rfl) hbehind
      rw [countOf_group (by simp), countOf_group (by simp)]
      simp only [excess] at hleInside hinside hle hmore ⊢
      -- Neither part exceeds its bound, so both reach it where the whole does.
      exact ⟨by omega, fun heq => .group (hinside (by omega)) (hmore (by omega))⟩

/-! ### Texts -/

theorem ofPostfix_eq_ok_iff {tokens : List Token} {tree : Expression} :
    ofPostfix tokens = .ok tree ↔ foldTokens [] tokens = .ok [tree] := by
  rw [ofPostfix, bind_eq_ok_iff]
  constructor
  · rintro ⟨trees, hfold, htree⟩
    split at htree
    · cases htree
      exact hfold
    · cases htree
  · intro hfold
    exact ⟨[tree], hfold, rfl⟩

theorem analyse_binary_eq_ok_iff {wholeNumbers : Bool} {text : String} {parsed : Parsed} :
    (analyse .binary wholeNumbers (some text)).result = .ok parsed ↔
      ∃ sent tree, postfixTokens wholeNumbers text = .ok sent ∧ ofPostfix sent = .ok tree ∧
        parsed = .binary tree sent := by
  simp only [analyse, analyseBinary]
  constructor
  · intro h
    cases hout : postfixTokens wholeNumbers text with
    | error failure => simp [hout, Outcome.failed] at h
    | ok sent =>
      cases htree : ofPostfix sent with
      | error fault => simp [hout, htree] at h
      | ok tree =>
        simp only [hout, htree, Except.ok.injEq] at h
        exact ⟨sent, tree, rfl, htree, h.symm⟩
  · rintro ⟨sent, tree, hout, htree, rfl⟩
    simp only [hout, htree]

theorem analyse_eq_ok_iff {text : String} {parsed : Parsed} :
    (analyse .binary true (some text)).result = .ok parsed ↔
      ∃ tokens sent tree, lexemes text = .ok tokens ∧ toPostfix tokens = .ok sent ∧
        ofPostfix sent = .ok tree ∧ parsed = .binary tree sent := by
  rw [analyse_binary_eq_ok_iff]
  simp only [postfixTokens, if_true, postfixOfLexemes_eq_ok_iff]
  constructor
  · rintro ⟨sent, tree, ⟨tokens, hlexemes, hsent⟩, htree, rfl⟩
    exact ⟨tokens, sent, tree, hlexemes, hsent, htree, rfl⟩
  · rintro ⟨tokens, sent, tree, hlexemes, hsent, htree, rfl⟩
    exact ⟨sent, tree, ⟨tokens, hlexemes, hsent⟩, htree, rfl⟩

/-- Infix notation is accepted, and its tree has the tokens in their order. -/
theorem exists_analyse_of_alternates {text : String} {tokens : List Token}
    (hlexemes : lexemes text = .ok tokens) (h : Alternates .operand tokens) :
    ∃ tree sent, (analyse .binary true (some text)).result = .ok (.binary tree sent) ∧
      inorder tree = entriesOf tokens := by
  obtain ⟨tree, hderives, horder⟩ := h.hasTree
  obtain ⟨sent, hsent, htree⟩ := hderives.toPostfix
  exact ⟨tree, sent, analyse_eq_ok_iff.2 ⟨tokens, sent, tree, hlexemes, hsent, htree, rfl⟩, horder⟩

/-- Balanced tokens that fold into a tree have one number more than operators. -/
theorem numbers_eq_of_balanced {tokens sent : List Token} {tree : Expression} (h : Balanced tokens)
    (hsent : toPostfix tokens = .ok sent) (htree : ofPostfix sent = .ok tree) :
    countOf .number tokens = countOf .operator tokens + 1 := by
  have hperm := h.toPostfix_perm hsent
  have hlength := foldTokens_length (ofPostfix_eq_ok_iff.1 htree)
  have hnumbers : countOf .number sent = countOf .number tokens := by
    rw [countOf, hperm.countP_eq, ← countOf, countOf_unbracketed (by simp)]
  have hoperators : countOf .operator sent = countOf .operator tokens := by
    rw [countOf, hperm.countP_eq, ← countOf, countOf_unbracketed (by simp)]
  rw [hnumbers, hoperators, List.length_singleton, List.length_nil] at hlength
  omega

theorem Alternates.of_number {token : Token} {tokens : List Token} (hkind : token.kind = .number)
    (h : Alternates .operand (token :: tokens)) : Alternates .operator tokens := by
  generalize hall : token :: tokens = all at h
  cases h with
  | number _ more =>
    cases hall
    exact more
  | group =>
    obtain ⟨rfl, -⟩ := List.cons.inj hall
    cases hkind

/-- **A text that has a binary tree has one number more than operators, and is in infix notation
unless two of its operands stand side by side.** -/
theorem alternates_of_analyse {text : String} {parsed : Parsed}
    (h : (analyse .binary true (some text)).result = .ok parsed) :
    ∃ tokens, lexemes text = .ok tokens ∧ countOf .number tokens = countOf .operator tokens + 1 ∧
      (¬ Adjoins tokens → Alternates .operand tokens) := by
  obtain ⟨tokens, sent, tree, hlexemes, hsent, htree, rfl⟩ := analyse_eq_ok_iff.1 h
  have hbalanced := balanced_of_lexemes hlexemes
  have hcount := numbers_eq_of_balanced hbalanced hsent htree
  refine ⟨tokens, hlexemes, hcount, fun hseparate => ?_⟩
  exact (alternates_of_balanced hbalanced hseparate .operand fun h => by cases h).2 hcount

theorem alternates_of_analyse_sum :
    (∃ parsed, (analyse .binary true (some "1 + 2")).result = .ok parsed) ∧
      ∃ tokens, lexemes "1 + 2" = .ok tokens ∧
        countOf .number tokens = countOf .operator tokens + 1 ∧ ¬ Adjoins tokens ∧
        Alternates .operand tokens := by
  have hone : Reads 0 ['1'] [⟨"1", .number, some 0⟩] := .numeral (by decide)
  have htwo : Reads 4 ['2'] [⟨"2", .number, some 4⟩] := .numeral (by decide)
  have hplus : Reads 2 ['+', ' ', '2'] [ofChar .operator 2 '+', ⟨"2", .number, some 4⟩] :=
    .operator rfl htwo.space
  have hall : Reads 0 "1 + 2".toList _ := hone.append endsNumeral_space hplus.space
  have hbinds : Binds 1 (ofChar .operator 2 '+') := ⟨rfl, rfl⟩
  obtain ⟨tree, sent, h, -⟩ := exists_analyse_of_alternates hall.lexemes
    (.number rfl (.operator hbinds (.number rfl .done)))
  obtain ⟨tokens, htokens, hcount, halternates⟩ := alternates_of_analyse h
  obtain rfl := Except.ok.inj (hall.lexemes.symm.trans htokens)
  have hseparate : ¬ Adjoins [⟨"1", .number, some 0⟩, ofChar .operator 2 '+',
      ⟨"2", .number, some 4⟩] := by
    rintro ⟨before, left, right, behind, hsplit, hleft, hright⟩
    match before, hsplit with
    | [], hsplit =>
      cases hsplit
      exact hright.elim nofun (by decide)
    | [_], hsplit =>
      cases hsplit
      exact hleft.elim nofun (by decide)
    | _ :: _ :: before, hsplit =>
      have hlength := congrArg List.length hsplit
      simp only [List.length_cons, List.length_append, List.length_nil] at hlength
      omega
  exact ⟨⟨_, h⟩, _, htokens, hcount, hseparate, halternates hseparate⟩

/-- An operator behind its operands is accepted as well. -/
theorem not_alternates_of_analyse :
    ¬ ∀ text parsed, (analyse .binary true (some text)).result = .ok parsed →
      ∃ tokens, lexemes text = .ok tokens ∧ Alternates .operand tokens := by
  intro hall
  have hone : Reads 0 ['1'] [⟨"1", .number, some 0⟩] := .numeral (by decide)
  have htwo : Reads 2 ['2'] [⟨"2", .number, some 2⟩] := .numeral (by decide)
  have hplus : Reads 4 ['+'] [ofChar .operator 4 '+'] := .operator rfl .nil
  have hreads : Reads 0 "1 2 +".toList _ :=
    hone.append endsNumeral_space (htwo.append endsNumeral_space hplus.space).space
  have hlexemes := hreads.lexemes
  obtain ⟨tokens, htokens, halternates⟩ :=
    hall "1 2 +" _ (analyse_eq_ok_iff.2 ⟨_, _, _, hlexemes, rfl, rfl, rfl⟩)
  obtain rfl := Except.ok.inj (hlexemes.symm.trans htokens)
  have hrest := halternates.of_number rfl
  cases hrest with
  | operator binds => cases binds.kind

end ArithTree.Binary
