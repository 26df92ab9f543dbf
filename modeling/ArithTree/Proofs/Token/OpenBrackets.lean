import Mathlib.Data.List.TakeWhile
import ArithTree.Proofs.Text.Brackets
import ArithTree.Proofs.Token.OperatorStack

/-!
# Brackets that are never closed

The full reader refuses a text with an opening bracket that is never closed. The simple one keeps
the token, which waits on the stack until the end and then goes out as if it were an operator.

* `exists_arrives_splitFrom` : the invariant of the stack for the tokens of the simple reader.
* `exists_toPostfix_split` : what the simple reader sends out, up to the order.
-/

namespace ArithTree.Token

open Text
open scoped List

/-! ### The stack -/

/-- A stack of binary operators and opening brackets, with the number of its brackets. -/
inductive Waiting : Nat → Stack → Prop where
  | flat {ops : List Token} (binds : AllBind 0 ops) : Waiting 0 ops
  | above {n p : Nat} {ops : List Token} {stack : Stack} (binds : AllBind 0 ops)
    (below : Waiting n stack) : Waiting (n + 1) (ops ++ opening p :: stack)

/-- Where no opening bracket waits, a closing one sends out the whole stack. -/
theorem arrive_unopened {ops : List Token} (h : AllBind 0 ops) (q : Nat) :
    arrive ops (closing q) = .ok (ops, []) := by
  have hops := h.not_opens
  have hclose : arrive ops (closing q) = .ok (closeBracket ops) := rfl
  rw [hclose, closeBracket, List.takeWhile_eq_self_iff.2 hops, List.dropWhile_eq_nil_iff.2 hops,
    List.drop_nil]

theorem unbracketed_eq_self {level : Nat} {ops : List Token} (h : AllBind level ops) :
    unbracketed ops = ops := by
  refine List.filter_eq_self.2 fun op hop => ?_
  obtain ⟨own, -, hbinds⟩ := h op hop
  simp [hbinds.kind]

theorem unbracketed_opening (p : Nat) (stack : Stack) :
    unbracketed (opening p :: stack) = unbracketed stack := by
  simp [unbracketed, opening, ofChar]

namespace Waiting

variable {n : Nat} {stack : Stack}

theorem above_opening (h : Waiting n stack) (p : Nat) : Waiting (n + 1) (opening p :: stack) :=
  .above allBind_nil h

/-- An operator sends out operators only and goes on top of the rest. -/
theorem arrive_operator {own : Nat} {op : Token} (h : Waiting n stack) (binds : Binds own op) :
    ∃ out rest, arrive stack op = .ok (out, op :: rest) ∧ stack = out ++ rest ∧ AllBind 0 out ∧
      Waiting n (op :: rest) := by
  have hop : ∃ own, 0 ≤ own ∧ Binds own op := ⟨own, Nat.zero_le own, binds⟩
  cases h with
  | flat hops =>
    obtain ⟨out, kept, rfl, hout, hkept, hstop⟩ := exists_divide hops own
    have hloose := hstop [] fun _ => looser_nil
    rw [List.append_nil] at hloose
    exact ⟨out, kept, Token.arrive_operator binds hout hloose, rfl, hout.mono (Nat.zero_le own),
      .flat (allBind_cons.2 ⟨hop, hkept⟩)⟩
  | @above n p ops below hops hbelow =>
    obtain ⟨out, kept, rfl, hout, hkept, hstop⟩ := exists_divide hops own
    have hloose := hstop (opening p :: below) fun level => looser_opening level p below
    rw [List.append_assoc]
    exact ⟨out, _, Token.arrive_operator binds hout hloose, rfl, hout.mono (Nat.zero_le own),
      .above (allBind_cons.2 ⟨hop, hkept⟩) hbelow⟩

/-- A closing bracket sends out the operators above the nearest opening one, or the whole stack if
there is none. -/
theorem arrive_closing (h : Waiting n stack) (q : Nat) :
    ∃ out rest, arrive stack (closing q) = .ok (out, rest) ∧ Waiting (n - 1) rest ∧
      unbracketed stack = out ++ unbracketed rest := by
  cases h with
  | flat hops =>
    refine ⟨stack, [], arrive_unopened hops q, .flat allBind_nil, ?_⟩
    rw [unbracketed_eq_self hops, unbracketed_nil, List.append_nil]
  | @above n p ops below hops hbelow =>
    refine ⟨ops, below, Token.arrive_closing hops below p q, hbelow, ?_⟩
    rw [unbracketed_append, unbracketed_eq_self hops, unbracketed_opening]

end Waiting

/-- The tokens of the simple reader leave a waiting stack behind, with one bracket for each one that
is not closed, and nothing but closed brackets is lost. -/
theorem exists_arrives_splitFrom {n : Nat} {stack : Stack} (h : Waiting n stack) (p : Nat)
    (text : List Char) :
    ∃ sent last, Arrives stack (splitFrom p text) sent last ∧ Waiting (unclosed n text) last ∧
      (sent ++ unbracketed last).Perm (unbracketed stack ++ unbracketed (splitFrom p text)) := by
  induction text generalizing n stack p with
  | nil =>
    refine ⟨[], stack, .nil stack, h, ?_⟩
    rw [splitFrom, unbracketed_nil, List.append_nil, List.nil_append]
  | cons c text ih =>
    rw [splitFrom, ofSymbol?]
    split
    · next hdigit =>
      obtain ⟨sent, last, harrives, hlast, hperm⟩ := ih h (p + 1)
      obtain ⟨hopen, hclose⟩ := not_bracket_of_isDigit hdigit.1
      refine ⟨_, last, .cons (arrive_number rfl) harrives, ?_, ?_⟩
      · rwa [unclosed_other hopen hclose]
      · change ([_] ++ sent ++ unbracketed last) ~
          (unbracketed stack ++ unbracketed (ofChar .number p c :: splitFrom (p + 1) text))
        rw [unbracketed_cons (by simp [ofChar])]
        exact (hperm.cons _).trans List.perm_middle.symm
    · split
      · next hop =>
        obtain ⟨own, hbinds⟩ := exists_binds hop p
        obtain ⟨out, rest, harrive, rfl, hout, hrest⟩ := h.arrive_operator hbinds
        obtain ⟨sent, last, harrives, hlast, hperm⟩ := ih hrest (p + 1)
        obtain ⟨hopen, hclose⟩ := not_bracket_of_isOperator hop
        refine ⟨_, last, .cons harrive harrives, ?_, ?_⟩
        · rwa [unclosed_other hopen hclose]
        · change (out ++ sent ++ unbracketed last) ~ (unbracketed (out ++ rest) ++
            unbracketed (ofChar .operator p c :: splitFrom (p + 1) text))
          rw [unbracketed_cons (by simp [ofChar])] at hperm
          rw [unbracketed_cons (by simp [ofChar]), unbracketed_append, unbracketed_eq_self hout,
            List.append_assoc, List.append_assoc]
          exact (hperm.trans List.perm_middle.symm).append_left out
      · split
        · next hbracket =>
          rcases hbracket with rfl | rfl
          · obtain ⟨sent, last, harrives, hlast, hperm⟩ := ih (h.above_opening p) (p + 1)
            refine ⟨_, last, .cons (arrive_opening stack p) harrives, ?_, ?_⟩
            · rwa [unclosed_opening]
            · exact hperm
          · obtain ⟨out, rest, harrive, hrest, hstack⟩ := h.arrive_closing p
            obtain ⟨sent, last, harrives, hlast, hperm⟩ := ih hrest (p + 1)
            refine ⟨_, last, .cons harrive harrives, ?_, ?_⟩
            · rwa [unclosed_closing]
            · rw [hstack, List.append_assoc, List.append_assoc]
              exact hperm.append_left out
        · next hdigit hop hbracket =>
          obtain ⟨sent, last, harrives, hlast, hperm⟩ := ih h (p + 1)
          rw [not_or] at hbracket
          refine ⟨sent, last, harrives, ?_, hperm⟩
          rwa [unclosed_other hbracket.1 hbracket.2]

/-! ### What goes out -/

/-- The token of an opening bracket that goes out at the end. -/
def loose (p : Nat) : Token := { opening p with kind := .operator }

theorem exists_drain {n : Nat} {stack : Stack} (h : Waiting n stack) :
    ∃ left : List Nat, left.length = n ∧
      (drain stack).Perm (unbracketed stack ++ left.map loose) := by
  induction h with
  | flat hops =>
    refine ⟨[], rfl, ?_⟩
    rw [drain_eq_self hops, unbracketed_eq_self hops, List.map_nil, List.append_nil]
  | @above n p ops stack hops _ ih =>
    obtain ⟨left, rfl, hperm⟩ := ih
    refine ⟨p :: left, rfl, ?_⟩
    have hdrain : drain (ops ++ opening p :: stack) = ops ++ loose p :: drain stack := by
      rw [drain, List.map_append, List.map_cons, ← drain, ← drain, drain_eq_self hops]
      rfl
    rw [hdrain, unbracketed_append, unbracketed_eq_self hops, unbracketed_opening,
      List.append_assoc, List.map_cons]
    exact ((hperm.cons _).trans List.perm_middle.symm).append_left ops

/-- **What the simple reader sends out**: its numbers and operators, and its opening brackets that
are never closed. -/
theorem exists_toPostfix_split (text : String) :
    ∃ (out : List Token) (left : List Nat), toPostfix (split text) = .ok out ∧
      left.length = unclosed 0 text.toList ∧
      out.Perm (unbracketed (split text) ++ left.map loose) := by
  obtain ⟨sent, last, harrives, hlast, hperm⟩ :=
    exists_arrives_splitFrom (.flat allBind_nil) 0 text.toList
  obtain ⟨left, hleft, hdrain⟩ := exists_drain hlast
  refine ⟨sent ++ drain last, left, harrives.toPostfixFrom, hleft, ?_⟩
  rw [unbracketed_nil, List.nil_append] at hperm
  calc (sent ++ drain last).Perm (sent ++ (unbracketed last ++ left.map loose)) :=
        hdrain.append_left sent
    _ = (sent ++ unbracketed last) ++ left.map loose := (List.append_assoc ..).symm
    _ ~ unbracketed (split text) ++ left.map loose := hperm.append_right _

end ArithTree.Token
