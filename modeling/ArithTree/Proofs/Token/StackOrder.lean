import Mathlib.Data.List.Chain
import ArithTree.Proofs.Token.OperatorStack

/-!
# The order on the stack

Between two brackets the stack ascends: an operator binds more tightly than the one right below it.
An arriving operator keeps the order, as it sends out all that do not bind less tightly before it is
stacked, and a closing bracket keeps it, as it only takes away from the top. There are two levels of
operators, so at most two of them stand between two brackets.

* `Ordered` : the invariant of the stack.
* `Ordered.exists_arrive_operator`, `Ordered.exists_arrive_of_ne` : every token keeps it.
* `Ordered.length_lt` : the brackets and the level of the top bound the height.
* `stack_ascends` : the stack behind every token of a sequence.
-/

namespace ArithTree.Token

/-- Of two tokens on the stack, one right above the other, the upper one binds more tightly, if both
are operators. -/
def Ascends (above below : Token) : Prop :=
  above.kind = .operator → below.kind = .operator →
    ∃ loose tight, precedence? below.value = some loose ∧ precedence? above.value = some tight ∧
      loose < tight

/-- A stack of opening brackets and operators, each of which binds more tightly than what is right
below it. -/
inductive Ordered : Stack → Prop where
  | nil : Ordered []
  | opening {bracket : Token} {stack : Stack} (notOperator : bracket.kind ≠ .operator)
    (isOpening : bracket.opens) (below : Ordered stack) : Ordered (bracket :: stack)
  | operator {own : Nat} {op : Token} {stack : Stack} (binds : Binds own op)
    (looser : Looser own stack) (below : Ordered stack) : Ordered (op :: stack)

/-! ### Two levels -/

theorem precedence?_cases {value : String} {own : Nat} (h : precedence? value = some own) :
    own = 1 ∨ own = 2 := by
  unfold precedence? at h
  split at h <;> cases h <;> simp

/-- No operator binds more tightly than the second level. -/
theorem looser_three (stack : Stack) : Looser 3 stack := by
  intro top _ above habove
  have := precedence?_cases habove
  omega

namespace Ordered

variable {stack : Stack}

/-! ### What the order says -/

theorem tail {top : Token} (h : Ordered (top :: stack)) : Ordered stack := by
  cases h with
  | opening _ _ below => exact below
  | operator _ _ below => exact below

theorem of_suffix {rest : Stack} (h : Ordered stack) (hrest : rest <:+ stack) : Ordered rest := by
  obtain ⟨taken, rfl⟩ := hrest
  induction taken with
  | nil => exact h
  | cons top taken ih => exact ih h.tail

theorem opens_or_binds (h : Ordered stack) :
    ∀ token ∈ stack, token.opens ∨ ∃ own, Binds own token := by
  induction h with
  | nil => exact nofun
  | opening _ isOpening _ ih => exact List.forall_mem_cons.2 ⟨.inl isOpening, ih⟩
  | operator binds _ _ ih => exact List.forall_mem_cons.2 ⟨.inr ⟨_, binds⟩, ih⟩

theorem binds_top {top : Token} (h : Ordered (top :: stack)) (hkind : top.kind = .operator) :
    ∃ own, Binds own top := by
  cases h with
  | opening notOperator => exact absurd hkind notOperator
  | operator binds => exact ⟨_, binds⟩

theorem isChain (h : Ordered stack) : stack.IsChain Ascends := by
  induction h with
  | nil => exact .nil
  | opening notOperator _ _ ih =>
    exact List.isChain_cons.2 ⟨fun _ _ hkind => absurd hkind notOperator, ih⟩
  | @operator own op stack binds looser below ih =>
    refine List.isChain_cons.2 ⟨fun next hnext _ hkind => ?_, ih⟩
    cases stack with
    | nil => cases hnext
    | cons top stack =>
      cases hnext
      obtain ⟨loose, hloose⟩ := below.binds_top hkind
      exact ⟨loose, own, hloose.precedence, binds.precedence, (looser_cons hloose stack).1 looser⟩

/-- The height of a stack is bounded by its brackets and by a level that its top does not reach. -/
theorem length_lt (h : Ordered stack) {level : Nat} (hlevel : 0 < level)
    (hlooser : Looser level stack) : stack.length < 3 * stack.countP opens + level := by
  induction h generalizing level with
  | nil => simpa using hlevel
  | @opening bracket stack _ isOpening _ ih =>
    -- An operator right below a bracket may be of either level.
    have hbelow := ih (by decide) (looser_three stack)
    rw [List.length_cons, List.countP_cons_of_pos isOpening]
    omega
  | @operator own op stack binds looser _ ih =>
    have hlt : own < level := (looser_cons binds stack).1 hlooser
    have hown := precedence?_cases binds.precedence
    have hbelow := ih (by omega) looser
    rw [List.length_cons, List.countP_cons_of_neg (by simp [binds.not_opens])]
    omega

/-! ### One token -/

/-- An operator sends out what binds at least as tightly, and stands above what binds less tightly
or is a bracket. -/
theorem exists_arrive_operator {own : Nat} {op : Token} (h : Ordered stack) (binds : Binds own op) :
    ∃ out rest, stack = out ++ rest ∧ arrive stack op = .ok (out, op :: rest) ∧
      AllBind own out ∧ Ordered (op :: rest) := by
  obtain ⟨out, rest, rfl, hout, hrest⟩ := exists_divide_stack h.opens_or_binds own
  have hbelow : Ordered rest := h.of_suffix (List.suffix_append out rest)
  exact ⟨out, rest, rfl, arrive_operator binds hout hrest, hout, .operator binds hrest hbelow⟩

theorem exists_arrive_of_ne {token : Token} (h : Ordered stack) (hkind : token.kind ≠ .operator) :
    ∃ out next, arrive stack token = .ok (out, next) ∧ Ordered next := by
  rw [arrive, if_neg hkind]
  split
  · exact ⟨_, stack, rfl, h⟩
  split
  · next hvalue => exact ⟨_, token :: stack, rfl, .opening hkind (decide_eq_true hvalue) h⟩
  split
  · have hsuffix : (closeBracket stack).2 <:+ stack :=
      (List.drop_suffix 1 _).trans (List.dropWhile_suffix _)
    exact ⟨_, (closeBracket stack).2, rfl, h.of_suffix hsuffix⟩
  · exact ⟨_, stack, rfl, h⟩

/-! ### Many tokens -/

theorem exists_arrive {token : Token} (h : Ordered stack)
    (hlisted : token.kind = .operator → (precedence? token.value).isSome) :
    ∃ out next, arrive stack token = .ok (out, next) ∧ Ordered next := by
  by_cases hkind : token.kind = .operator
  · obtain ⟨own, hown⟩ := Option.isSome_iff_exists.1 (hlisted hkind)
    obtain ⟨out, rest, -, harrive, -, hnext⟩ := h.exists_arrive_operator ⟨hkind, hown⟩
    exact ⟨out, token :: rest, harrive, hnext⟩
  · exact h.exists_arrive_of_ne hkind

theorem exists_arrives {tokens : List Token} (h : Ordered stack)
    (hlisted : ∀ token ∈ tokens, token.kind = .operator → (precedence? token.value).isSome) :
    ∃ sent last, Arrives stack tokens sent last ∧ Ordered last := by
  induction tokens generalizing stack with
  | nil => exact ⟨[], stack, .nil stack, h⟩
  | cons token tokens ih =>
    obtain ⟨hfirst, hrest⟩ := List.forall_mem_cons.1 hlisted
    obtain ⟨out, next, harrive, hnext⟩ := h.exists_arrive hfirst
    obtain ⟨sent, last, harrives, hlast⟩ := ih hnext hrest
    exact ⟨out ++ sent, last, .cons harrive harrives, hlast⟩

end Ordered

/-- **Between brackets the stack ascends.** If all operators of a sequence are listed, its postfix
order is found, whether its brackets are balanced or not. Behind every token, of two operators on
the stack that are next to each other the upper one binds more tightly, and with `d` opening
brackets on it the stack holds at most `3 * d + 2` tokens. What an operator takes from the top of
the stack binds at least as tightly as itself. -/
theorem stack_ascends {before behind : List Token} {token : Token}
    (hlisted : ∀ t ∈ before ++ token :: behind, t.kind = .operator → (precedence? t.value).isSome) :
    ∃ sent stack out next rest, Arrives [] before sent stack ∧
      arrive stack token = .ok (out, next) ∧ toPostfixFrom next behind = .ok rest ∧
      toPostfix (before ++ token :: behind) = .ok (sent ++ out ++ rest) ∧
      next.IsChain Ascends ∧ next.length ≤ 3 * next.countP opens + 2 ∧
      (token.kind = .operator → ∃ below, stack = out ++ below ∧ next = token :: below ∧
        ∀ op ∈ out, ∃ own above, precedence? token.value = some own ∧
          precedence? op.value = some above ∧ own ≤ above) := by
  obtain ⟨hbefore, hrest⟩ := List.forall_mem_append.1 hlisted
  obtain ⟨htoken, hbehind⟩ := List.forall_mem_cons.1 hrest
  obtain ⟨sent, stack, harrives, hstack⟩ := Ordered.nil.exists_arrives hbefore
  obtain ⟨out, next, harrive, hnext⟩ := hstack.exists_arrive htoken
  obtain ⟨more, last, hmore, -⟩ := hnext.exists_arrives hbehind
  have hheight := hnext.length_lt (by decide) (looser_three next)
  refine ⟨sent, stack, out, next, more ++ drain last, harrives, harrive, hmore.toPostfixFrom, ?_,
    hnext.isChain, Nat.le_of_lt_succ hheight, fun hkind => ?_⟩
  · rw [toPostfix, (harrives.append (.cons harrive hmore)).toPostfixFrom]
    simp only [List.append_assoc]
  · obtain ⟨own, hown⟩ := Option.isSome_iff_exists.1 (htoken hkind)
    obtain ⟨taken, below, rfl, htaken, hbinds, -⟩ := hstack.exists_arrive_operator ⟨hkind, hown⟩
    cases harrive.symm.trans htaken
    refine ⟨below, rfl, rfl, fun op hop => ?_⟩
    obtain ⟨above, hle, habove⟩ := hbinds op hop
    exact ⟨own, above, hown, habove.precedence, hle⟩

/-- The closing bracket in front meets nothing, and the opening one behind the subtraction is never
closed. -/
theorem stack_ascends_unbalanced :
    let before := split ")2+3*4"
    let token := ofChar .operator 6 '-'
    let behind := splitFrom 7 "(5*6".toList
    (∀ t ∈ before ++ token :: behind, t.kind = .operator → (precedence? t.value).isSome) ∧
    ∃ sent stack out next rest, Arrives [] before sent stack ∧
      arrive stack token = .ok (out, next) ∧ toPostfixFrom next behind = .ok rest ∧
      toPostfix (before ++ token :: behind) = .ok (sent ++ out ++ rest) ∧
      next.IsChain Ascends ∧ next.length ≤ 3 * next.countP opens + 2 ∧
      ∃ below, stack = out ++ below ∧ next = token :: below ∧
        ∀ op ∈ out, ∃ own above, precedence? token.value = some own ∧
          precedence? op.value = some above ∧ own ≤ above := by
  intro before token behind
  have hlisted : ∀ t ∈ before ++ token :: behind,
      t.kind = .operator → (precedence? t.value).isSome := by decide
  obtain ⟨sent, stack, out, next, rest, hbefore, htoken, hbehind, hall, hchain, hheight, htaken⟩ :=
    stack_ascends hlisted
  exact ⟨hlisted, sent, stack, out, next, rest, hbefore, htoken, hbehind, hall, hchain, hheight,
    htaken rfl⟩

end ArithTree.Token
