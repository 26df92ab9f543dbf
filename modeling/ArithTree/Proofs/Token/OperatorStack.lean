import ArithTree.Proofs.Token.Lexing
import ArithTree.Token.Postfix

/-!
# The stack of operators

`Arrives` is the run of the stack as a relation: what a sequence of tokens sends out, and the stacks
before and behind it. The stack is looked at in two parts, the operators that a piece of the
sequence has left on top and what stood there before, which the piece does not touch.

* `arrive_operator`, `arrive_closing` : what the two tokens that send others out do to such a stack.
* `Arrives.toPostfixFrom` : a run determines the postfix order.
-/

namespace ArithTree.Token

open scoped List

/-- Operators that bind at least as tightly as the given level. -/
def AllBind (level : Nat) (ops : List Token) : Prop :=
  ∀ op ∈ ops, ∃ own, level ≤ own ∧ Binds own op

/-- A stack whose top is no operator, or one that binds less tightly than the given level. -/
def Looser (level : Nat) (stack : Stack) : Prop :=
  ∀ top ∈ stack.head?, ∀ above ∈ precedence? top.value, above < level

theorem allBind_nil {level : Nat} : AllBind level [] := by simp [AllBind]

theorem allBind_cons {level : Nat} {op : Token} {ops : List Token} :
    AllBind level (op :: ops) ↔ (∃ own, level ≤ own ∧ Binds own op) ∧ AllBind level ops := by
  simp [AllBind]

theorem allBind_append {level : Nat} {ops more : List Token} :
    AllBind level (ops ++ more) ↔ AllBind level ops ∧ AllBind level more := by
  simp [AllBind, or_imp, forall_and]

theorem AllBind.mono {level lower : Nat} {ops : List Token} (h : AllBind level ops)
    (hle : lower ≤ level) : AllBind lower ops := by
  intro op hop
  obtain ⟨own, hown, hbinds⟩ := h op hop
  exact ⟨own, Nat.le_trans hle hown, hbinds⟩

theorem looser_nil {level : Nat} : Looser level [] := by simp [Looser]

theorem looser_of_opens {bracket : Token} (h : bracket.opens) (level : Nat) (stack : Stack) :
    Looser level (bracket :: stack) := by
  intro top htop above habove
  cases htop
  rw [opens, decide_eq_true_eq] at h
  rw [h] at habove
  cases habove

theorem looser_opening (level p : Nat) (stack : Stack) : Looser level (opening p :: stack) :=
  looser_of_opens rfl level stack

theorem looser_cons {level own : Nat} {op : Token} (h : Binds own op) (stack : Stack) :
    Looser level (op :: stack) ↔ own < level := by
  simp [Looser, h.precedence]

theorem Looser.mono {level higher : Nat} {stack : Stack} (h : Looser level stack)
    (hle : level ≤ higher) : Looser higher stack :=
  fun top htop above habove => Nat.lt_of_lt_of_le (h top htop above habove) hle

theorem Looser.append {level : Nat} {stack floor : Stack} (h : Looser level stack)
    (hfloor : Looser level floor) : Looser level (stack ++ floor) := by
  cases stack with
  | nil => exact hfloor
  | cons top stack => exact h

/-! ### One token -/

theorem arrive_number {stack : Stack} {token : Token} (h : token.kind = .number) :
    arrive stack token = .ok ([token], stack) := by
  rw [arrive, if_pos h]

theorem arrive_opening (stack : Stack) (p : Nat) :
    arrive stack (opening p) = .ok ([], opening p :: stack) := rfl

theorem not_opens_of_precedence {own : Nat} {op : Token} (h : precedence? op.value = some own) :
    op.opens = false := by
  rw [opens, decide_eq_false_iff_not]
  intro heq
  rw [heq] at h
  cases h

theorem Binds.not_opens {own : Nat} {op : Token} (h : Binds own op) : op.opens = false :=
  not_opens_of_precedence h.precedence

theorem AllBind.not_opens {level : Nat} {ops : List Token} (h : AllBind level ops) :
    ∀ op ∈ ops, (!op.opens) = true := by
  intro op hop
  obtain ⟨own, -, hbinds⟩ := h op hop
  rw [hbinds.not_opens]
  rfl

/-- A closing bracket sends out the operators above the nearest opening one. -/
theorem arrive_closing {level : Nat} {ops : List Token} (h : AllBind level ops) (stack : Stack)
    (p q : Nat) :
    arrive (ops ++ opening p :: stack) (closing q) = .ok (ops, stack) := by
  have hops := h.not_opens
  have hopening : ∀ op ∈ (opening p :: stack).head?, ¬ (!op.opens) = true := by
    intro op hop
    cases hop
    exact Bool.false_ne_true
  obtain ⟨htake, hdrop⟩ := Text.span_append hops hopening
  have hclose : arrive (ops ++ opening p :: stack) (closing q) =
      .ok (closeBracket (ops ++ opening p :: stack)) := rfl
  rw [hclose, closeBracket, htake, hdrop, List.drop_one, List.tail_cons]

/-- An operator sends out the operators that bind at least as tightly, down to a looser one. -/
theorem arrive_operator {own : Nat} {op : Token} {ops : List Token} {stack : Stack}
    (h : Binds own op) (hops : AllBind own ops) (hstack : Looser own stack) :
    arrive (ops ++ stack) op = .ok (ops, op :: stack) := by
  have hkind : ¬ op.kind = .number := by simp [h.kind]
  rw [arrive, if_neg hkind, if_pos h.kind]
  -- The operators go out one by one; the looser top below them ends that.
  induction ops with
  | nil =>
    cases stack with
    | nil => rfl
    | cons top stack =>
      rw [List.nil_append, pushOperator, h.precedence]
      cases habove : precedence? top.value with
      | none => rfl
      | some above =>
        have hlt : above < own := hstack top rfl above habove
        simp only [if_neg (Nat.not_le.2 hlt)]
  | cons top ops ih =>
    obtain ⟨⟨above, hle, htop⟩, hops⟩ := allBind_cons.1 hops
    rw [List.cons_append, pushOperator, htop.precedence, h.precedence]
    simp only [if_pos hle, ih hops, Except.map]

/-! ### Many tokens -/

/-- The run of the stack: tokens that arrive one after the other, what they send out, and the stacks
before and behind them. -/
inductive Arrives : Stack → List Token → List Token → Stack → Prop where
  | nil (stack : Stack) : Arrives stack [] [] stack
  | cons {stack next last : Stack} {token : Token} {tokens sent more : List Token}
    (first : arrive stack token = .ok (sent, next)) (rest : Arrives next tokens more last) :
    Arrives stack (token :: tokens) (sent ++ more) last

theorem drain_eq_self {level : Nat} {ops : List Token} (h : AllBind level ops) :
    drain ops = ops := by
  rw [drain, List.map_congr_left (g := id), List.map_id]
  intro op hop
  obtain ⟨value, kind, position⟩ := op
  obtain ⟨own, -, hkind, -⟩ := h _ hop
  cases hkind
  rfl

namespace Arrives

variable {stack mid last : Stack} {tokens more sent behind : List Token}

theorem single {token : Token} (h : arrive stack token = .ok (sent, last)) :
    Arrives stack [token] sent last := by
  have := cons h (nil last)
  rwa [List.append_nil] at this

theorem append (h : Arrives stack tokens sent mid) (hmore : Arrives mid more behind last) :
    Arrives stack (tokens ++ more) (sent ++ behind) last := by
  induction h with
  | nil => exact hmore
  | cons first _ ih =>
    rw [List.append_assoc]
    exact .cons first (ih hmore)

/-- A bracket pair sends out all that stands in it and touches nothing below. -/
theorem bracketed {level p : Nat} {kept : List Token}
    (h : Arrives (opening p :: stack) tokens sent (kept ++ opening p :: stack))
    (hkept : AllBind level kept) (q : Nat) :
    Arrives stack (opening p :: tokens ++ [closing q]) (sent ++ kept) stack := by
  have hinside := h.append (single (arrive_closing hkept stack p q))
  have hall := cons (arrive_opening stack p) hinside
  rwa [List.nil_append] at hall

theorem cons_inv {token : Token} (h : Arrives stack (token :: tokens) sent last) :
    ∃ first rest next, arrive stack token = .ok (first, next) ∧ Arrives next tokens rest last ∧
      sent = first ++ rest := by
  cases h with
  | cons first rest => exact ⟨_, _, _, first, rest, rfl⟩

theorem append_inv (h : Arrives stack (tokens ++ more) sent last) :
    ∃ first rest mid, Arrives stack tokens first mid ∧ Arrives mid more rest last ∧
      sent = first ++ rest := by
  induction tokens generalizing stack sent with
  | nil => exact ⟨[], sent, stack, .nil stack, h, rfl⟩
  | cons token tokens ih =>
    obtain ⟨out, behind, next, harrive, hbehind, rfl⟩ := h.cons_inv
    obtain ⟨first, rest, mid, hfirst, hrest, rfl⟩ := ih hbehind
    exact ⟨out ++ first, rest, mid, .cons harrive hfirst, hrest, (List.append_assoc ..).symm⟩

/-- The stack determines what is sent out. -/
theorem unique {out : List Token} {end' : Stack} (h : Arrives stack tokens sent last)
    (h' : Arrives stack tokens out end') : sent = out ∧ last = end' := by
  induction h generalizing out with
  | nil =>
    cases h'
    exact ⟨rfl, rfl⟩
  | cons first _ ih =>
    obtain ⟨sent', rest', next', harrive, hrest, rfl⟩ := h'.cons_inv
    cases first.symm.trans harrive
    obtain ⟨rfl, rfl⟩ := ih hrest
    exact ⟨rfl, rfl⟩

theorem toPostfixFrom (h : Arrives stack tokens sent last) :
    toPostfixFrom stack tokens = .ok (sent ++ drain last) := by
  induction h with
  | nil => rfl
  | cons first _ ih =>
    rw [Token.toPostfixFrom, first]
    simp only [Except.bind, ih, Except.map, List.append_assoc]

end Arrives

/-! ### Balanced tokens -/

/-- A stack of brackets and operators, divided where an arriving operator stops to send it out. -/
theorem exists_divide_stack {stack : Stack}
    (h : ∀ token ∈ stack, token.opens ∨ ∃ own, Binds own token) (own : Nat) :
    ∃ out rest, stack = out ++ rest ∧ AllBind own out ∧ Looser own rest := by
  induction stack with
  | nil => exact ⟨[], [], rfl, allBind_nil, looser_nil⟩
  | cons top stack ih =>
    obtain ⟨htop, hstack⟩ := List.forall_mem_cons.1 h
    rcases htop with hopens | ⟨above, htop⟩
    · exact ⟨[], top :: stack, rfl, allBind_nil, looser_of_opens hopens own stack⟩
    rcases Nat.lt_or_ge above own with hlt | hge
    · exact ⟨[], top :: stack, rfl, allBind_nil, (looser_cons htop stack).2 hlt⟩
    · obtain ⟨out, rest, rfl, hout, hrest⟩ := ih hstack
      exact ⟨top :: out, rest, rfl, allBind_cons.2 ⟨⟨above, hge, htop⟩, hout⟩, hrest⟩

/-- Operators on the stack, divided where an arriving operator stops to send them out, whatever
stands below them that is not sent out. -/
theorem exists_divide {ops : List Token} (h : AllBind 0 ops) (own : Nat) :
    ∃ out kept, ops = out ++ kept ∧ AllBind own out ∧ AllBind 0 kept ∧
      ∀ floor, (∀ level, Looser level floor) → Looser own (kept ++ floor) := by
  have hops : ∀ op ∈ ops, op.opens ∨ ∃ own, Binds own op := fun op hop =>
    .inr ((h op hop).imp fun _ => And.right)
  obtain ⟨out, kept, rfl, hout, hkept⟩ := exists_divide_stack hops own
  exact ⟨out, kept, rfl, hout, (allBind_append.1 h).2,
    fun floor hfloor => hkept.append (hfloor own)⟩

/-- Balanced tokens only take operators from the stack that lie above all brackets, and nothing but
brackets is lost. What they send out and leave does not depend on what stands below. -/
theorem Balanced.arrives {tokens : List Token} (h : Balanced tokens) {ops : List Token}
    (hops : AllBind 0 ops) :
    ∃ sent kept, AllBind 0 kept ∧ (sent ++ kept).Perm (ops ++ unbracketed tokens) ∧
      ∀ floor, (∀ level, Looser level floor) →
        Arrives (ops ++ floor) tokens sent (kept ++ floor) := by
  induction h generalizing ops with
  | nil =>
    refine ⟨[], ops, hops, ?_, fun floor _ => .nil _⟩
    rw [unbracketed_nil, List.append_nil]
    exact .refl _
  | @flat token tokens isFlat _ ih =>
    rcases isFlat with hkind | ⟨own, binds⟩
    · obtain ⟨sent, kept, hkept, hperm, harrives⟩ := ih hops
      refine ⟨[token] ++ sent, kept, hkept, ?_,
        fun floor hfloor => .cons (arrive_number hkind) (harrives floor hfloor)⟩
      rw [unbracketed_cons (by simp [hkind])]
      exact (hperm.cons token).trans List.perm_middle.symm
    · obtain ⟨out, rest, rfl, hout, hrest, hstop⟩ := exists_divide hops own
      obtain ⟨sent, kept, hkept, hperm, harrives⟩ :=
        ih (allBind_cons.2 ⟨⟨own, Nat.zero_le own, binds⟩, hrest⟩)
      refine ⟨out ++ sent, kept, hkept, ?_, fun floor hfloor => ?_⟩
      · rw [unbracketed_cons (by simp [binds.kind]), List.append_assoc, List.append_assoc]
        exact (hperm.trans List.perm_middle.symm).append_left out
      · rw [List.append_assoc]
        exact .cons (arrive_operator binds hout (hstop floor hfloor)) (harrives floor hfloor)
  | @group p q inner tokens _ _ ihInside ih =>
    -- The opening bracket is the floor for the inside, which starts with no operators above it.
    obtain ⟨sentIn, keptIn, hkeptIn, hpermIn, harrivesIn⟩ := ihInside allBind_nil
    obtain ⟨sent, kept, hkept, hperm, harrives⟩ := ih hops
    refine ⟨(sentIn ++ keptIn) ++ sent, kept, hkept, ?_, fun floor hfloor => ?_⟩
    · rw [unbracketed_group, List.append_assoc]
      calc (sentIn ++ keptIn) ++ (sent ++ kept)
        _ ~ unbracketed inner ++ (ops ++ unbracketed tokens) := hpermIn.append hperm
        _ ~ (ops ++ unbracketed tokens) ++ unbracketed inner := List.perm_append_comm
        _ ~ ops ++ (unbracketed inner ++ unbracketed tokens) := by
          rw [List.append_assoc]
          exact List.perm_append_comm.append_left ops
    · have hinside := harrivesIn (opening p :: (ops ++ floor))
        fun level => looser_opening level p (ops ++ floor)
      have hall := (hinside.bracketed hkeptIn q).append (harrives floor hfloor)
      rwa [List.append_assoc, List.singleton_append] at hall

/-- What balanced tokens send out, from the empty stack. -/
theorem Balanced.exists_kept {tokens : List Token} (h : Balanced tokens) :
    ∃ sent kept, toPostfix tokens = .ok (sent ++ kept) ∧ AllBind 0 kept ∧
      (sent ++ kept).Perm (unbracketed tokens) ∧
      ∀ stack p, Arrives (opening p :: stack) tokens sent (kept ++ opening p :: stack) := by
  obtain ⟨sent, kept, hkept, hperm, harrives⟩ := h.arrives allBind_nil
  refine ⟨sent, kept, ?_, hkept, hperm, fun stack p => ?_⟩
  · have hempty := harrives [] fun _ => looser_nil
    rw [List.append_nil, List.append_nil] at hempty
    rw [toPostfix, hempty.toPostfixFrom, drain_eq_self hkept]
  · exact harrives (opening p :: stack) fun level => looser_opening level p stack

/-- Balanced tokens have a postfix order. -/
theorem Balanced.exists_toPostfix {tokens : List Token} (h : Balanced tokens) :
    ∃ out, toPostfix tokens = .ok out := by
  obtain ⟨sent, kept, hsent, -⟩ := h.exists_kept
  exact ⟨_, hsent⟩

/-- What balanced tokens send out, up to the order. -/
theorem Balanced.toPostfix_perm {tokens sent : List Token} (h : Balanced tokens)
    (hsent : toPostfix tokens = .ok sent) : sent.Perm (unbracketed tokens) := by
  obtain ⟨out, kept, hout, -, hperm, -⟩ := h.exists_kept
  cases hout.symm.trans hsent
  exact hperm

/-- An opening bracket on the stack hides what is below it: balanced tokens in a bracket pair send
out their postfix order and leave the stack as it was. -/
theorem Balanced.arrives_pair {tokens sent : List Token} (h : Balanced tokens)
    (hsent : toPostfix tokens = .ok sent) (stack : Stack) (p q : Nat) :
    Arrives stack (opening p :: tokens ++ [closing q]) sent stack := by
  obtain ⟨out, kept, hout, hkept, -, harrives⟩ := h.exists_kept
  cases hout.symm.trans hsent
  exact (harrives stack p).bracketed hkept q

/-! ### Texts -/

theorem postfixOfLexemes_eq_ok_iff {text : String} {sent : List Token} :
    postfixOfLexemes text = .ok sent ↔
      ∃ tokens, lexemes text = .ok tokens ∧ toPostfix tokens = .ok sent := by
  simp only [postfixOfLexemes, bind_eq_ok_iff, mapError_eq_ok_iff]

end ArithTree.Token
