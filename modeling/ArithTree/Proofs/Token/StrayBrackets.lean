import ArithTree.Proofs.Token.Expansion
import ArithTree.Proofs.Token.OpenBrackets
import ArithTree.Proofs.Token.Places

/-!
# Brackets that are never opened

A closing bracket that finds nothing to close sends out the whole stack, just as it would if its
opening bracket lay below everything else. So opening brackets that are buried under the stack make
no difference, as long as they are as many as the closing brackets that find nothing to close.

* `strays` : the closing brackets among tokens that find nothing to close.
* `toPostfixFrom_append_opens` : opening brackets under the stack.
* `postfixOfSymbols_openings` : a text with its missing opening brackets put in front of it.
-/

namespace ArithTree.Token

open Text

variable {stack buried : Stack} {token : Token} {tokens : List Token}

/-! ### Tokens -/

/-- The number of closing brackets that find nothing to close, among tokens behind `opened` open
brackets. -/
def strays (opened : Nat) : List Token → Nat
  | [] => 0
  | token :: tokens =>
    if token.isOpening then strays (opened + 1) tokens
    else if token.isClosing then (if opened = 0 then 1 else 0) + strays (opened - 1) tokens
    else strays opened tokens

/-- A closing bracket that finds nothing to close. -/
def IsStray (stack : Stack) (token : Token) : Prop := token.isClosing ∧ ∀ top ∈ stack, ¬ top.opens

theorem strays_cons_of_isStray (h : IsStray stack token) :
    strays (stack.filter opens).length (token :: tokens) = 1 + strays 0 tokens := by
  obtain ⟨hclosing, hstack⟩ := h
  have hopening : ¬ token.isOpening := by simp [isOpening, opens, (isClosing_iff.1 hclosing).2.2]
  rw [List.filter_eq_nil_iff.2 hstack, strays, if_neg hopening, if_pos hclosing]
  rfl

/-- The brackets that a stack holds count those that are open. -/
theorem strays_cons_of_arrive {next : Stack} {sent : List Token} (h : ¬ IsStray stack token)
    (harrive : arrive stack token = .ok (sent, next)) :
    strays (stack.filter opens).length (token :: tokens) =
      strays (next.filter opens).length tokens := by
  have hrun : arrive (stack.map id) (id token) = .ok (sent, next) := by rwa [List.map_id]
  obtain ⟨_, next, -, rfl, hsends⟩ := exists_sends hrun
  have hopen : next.filter opens =
      if token.isOpening then token :: stack.filter opens
      else if token.isClosing then (stack.filter opens).tail
      else stack.filter opens := hsends.open_eq
  rw [List.map_id, hopen, strays]
  by_cases hopening : token.isOpening
  · rw [if_pos hopening, if_pos hopening, List.length_cons]
  rw [if_neg hopening, if_neg hopening]
  by_cases hclosing : token.isClosing
  · have hne : (stack.filter opens).length ≠ 0 := fun hzero =>
      h ⟨hclosing, List.filter_eq_nil_iff.1 (List.length_eq_zero_iff.1 hzero)⟩
    rw [if_pos hclosing, if_pos hclosing, if_neg hne, Nat.zero_add, List.length_tail]
  · rw [if_neg hclosing, if_neg hclosing]

/-! ### Brackets under the stack -/

theorem pushOperator_append_opens (hburied : ∀ bracket ∈ buried, bracket.opens) (token : Token)
    (stack : Stack) :
    pushOperator token (stack ++ buried) =
      (pushOperator token stack).map fun (sent, next) => (sent, next ++ buried) := by
  induction stack with
  | nil =>
    cases buried with
    | nil => rfl
    | cons bracket buried =>
      have hvalue : bracket.value = "(" := of_decide_eq_true (hburied bracket (by simp))
      simp [pushOperator, precedence?, hvalue, Except.map]
  | cons top stack ih =>
    rw [List.cons_append, pushOperator, pushOperator, ih]
    cases precedence? top.value with
    | none => rfl
    | some above =>
      cases precedence? token.value with
      | none => rfl
      | some own =>
        by_cases hle : own ≤ above
        · simp only [if_pos hle]
          cases pushOperator token stack <;> rfl
        · simp only [if_neg hle]
          rfl

theorem closeBracket_append {top : Token} (htop : top ∈ stack) (hopens : top.opens)
    (buried : Stack) :
    closeBracket (stack ++ buried) =
      ((closeBracket stack).1, (closeBracket stack).2 ++ buried) := by
  induction stack with
  | nil => cases htop
  | cons first stack ih =>
    by_cases hfirst : first.opens
    · simp [closeBracket, hfirst]
    · have hmem : top ∈ stack := by
        rcases List.mem_cons.1 htop with rfl | hmem
        · exact absurd hopens hfirst
        · exact hmem
      have := ih hmem
      simp only [closeBracket, Prod.mk.injEq] at this
      simp [closeBracket, hfirst, this]

/-- Brackets under the stack stay where they are, unless a closing bracket finds nothing else. -/
theorem arrive_append_opens (hburied : ∀ bracket ∈ buried, bracket.opens)
    (h : ¬ IsStray stack token) :
    arrive (stack ++ buried) token =
      (arrive stack token).map fun (sent, next) => (sent, next ++ buried) := by
  unfold arrive
  split
  · rfl
  next hnumber =>
  split
  · exact pushOperator_append_opens hburied token stack
  next hoperator =>
  split
  · rfl
  split
  · next hvalue =>
    obtain ⟨top, htop, hopens⟩ : ∃ top ∈ stack, top.opens := by
      simpa [IsStray, isClosing_iff.2 ⟨hnumber, hoperator, hvalue⟩] using h
    rw [closeBracket_append htop hopens]
    rfl
  · rfl

/-- A closing bracket that finds nothing to close sends out the stack, and with it goes the first
bracket under the stack. -/
theorem arrive_of_isStray (hburied : ∀ bracket ∈ buried, bracket.opens)
    (h : IsStray stack token) : arrive (stack ++ buried) token = .ok (stack, buried.tail) := by
  obtain ⟨hclosing, hstack⟩ := h
  obtain ⟨hnumber, hoperator, hvalue⟩ := isClosing_iff.1 hclosing
  have hrun : ∀ top ∈ stack, !top.opens := by simpa using hstack
  have hbehind : ∀ bracket ∈ buried.head?, ¬ !bracket.opens := fun bracket hbracket => by
    simpa using hburied bracket (List.mem_of_mem_head? hbracket)
  obtain ⟨htake, hdrop⟩ := span_append hrun hbehind
  rw [arrive, if_neg hnumber, if_neg hoperator, if_neg (by simp [hvalue]), if_pos hvalue,
    closeBracket, htake, hdrop, List.drop_one]

/-- **Opening brackets under the stack make no difference**, if they are as many as the closing
brackets that find nothing to close. -/
theorem toPostfixFrom_append_opens (hburied : ∀ bracket ∈ buried, bracket.opens)
    (hlength : buried.length = strays (stack.filter opens).length tokens) :
    toPostfixFrom (stack ++ buried) tokens = toPostfixFrom stack tokens := by
  induction tokens generalizing stack buried with
  | nil => rw [List.length_eq_zero_iff.1 hlength, List.append_nil]
  | cons token tokens ih =>
    rw [toPostfixFrom, toPostfixFrom]
    by_cases hstray : IsStray stack token
    · have hplain : arrive (stack ++ []) token = .ok (stack, [].tail) :=
        arrive_of_isStray (List.forall_mem_nil _) hstray
      rw [List.append_nil] at hplain
      rw [strays_cons_of_isStray hstray] at hlength
      have htail : toPostfixFrom ([] ++ buried.tail) tokens = toPostfixFrom [] tokens := by
        refine ih (fun bracket hmem => hburied bracket (List.mem_of_mem_tail hmem)) ?_
        rw [List.length_tail, hlength, Nat.add_sub_cancel_left]
        rfl
      rw [arrive_of_isStray hburied hstray, hplain]
      exact congrArg (Except.map (stack ++ ·)) htail
    · rw [arrive_append_opens hburied hstray]
      cases harrive : arrive stack token with
      | error breakdown => rfl
      | ok step =>
        obtain ⟨sent, next⟩ := step
        rw [strays_cons_of_arrive hstray harrive] at hlength
        exact congrArg (Except.map (sent ++ ·)) (ih hburied hlength)

/-! ### Texts -/

theorem splitFrom_shift (p k : Nat) (text : List Char) :
    splitFrom (p + k) text = (splitFrom p text).map (shift k) := by
  induction text generalizing p with
  | nil => rfl
  | cons c text ih =>
    have hsymbol : ofSymbol? (p + k) c = (ofSymbol? p c).map (shift k) := by
      simp only [ofSymbol?, ofChar, ← shift_mk]
      split_ifs <;> rfl
    rw [splitFrom, splitFrom, Nat.add_right_comm, ih, hsymbol, List.map_append,
      Option.toList_map]

theorem strays_splitFrom (n p : Nat) (text : List Char) :
    strays n (splitFrom p text) = unopened n text := by
  induction text generalizing n p with
  | nil => rfl
  | cons c text ih =>
    rw [splitFrom, ofSymbol?]
    split
    · next hdigit =>
      obtain ⟨hopen, hclose⟩ := not_bracket_of_isDigit hdigit.1
      rw [unopened_other hopen hclose, ← ih n (p + 1)]
      rfl
    · split
      · next hop =>
        obtain ⟨own, hbinds⟩ := exists_binds hop p
        obtain ⟨hopen, hclose⟩ := not_bracket_of_isOperator hop
        have hopens := hbinds.not_opens
        rw [unopened_other hopen hclose, ← ih n (p + 1)]
        simp [strays, isOpening, isClosing, hbinds.kind, hopens]
      · split
        · next hbracket =>
          rcases hbracket with rfl | rfl
          · rw [unopened_opening, ← ih (n + 1) (p + 1)]
            rfl
          · rw [unopened_closing, ← ih (n - 1) (p + 1)]
            rfl
        · next hbracket =>
          rw [not_or] at hbracket
          rw [unopened_other hbracket.1 hbracket.2]
          exact ih n (p + 1)

/-- Opening brackets in front of a text go on the stack and stay there. -/
theorem exists_toPostfix_openings (k p : Nat) (stack : Stack) (tokens : List Token) :
    ∃ buried : Stack, buried.length = k ∧ (∀ bracket ∈ buried, bracket.opens) ∧
      toPostfixFrom stack (splitFrom p (List.replicate k '(') ++ tokens) =
        toPostfixFrom (buried ++ stack) tokens := by
  induction k generalizing p stack with
  | zero => exact ⟨[], rfl, nofun, rfl⟩
  | succ k ih =>
    obtain ⟨buried, hlength, hburied, hrun⟩ := ih (p + 1) (opening p :: stack)
    refine ⟨buried ++ [opening p], by simp [hlength], ?_, ?_⟩
    · exact List.forall_mem_append.2 ⟨hburied, List.forall_mem_singleton.2 rfl⟩
    · have hfirst : splitFrom p (List.replicate (k + 1) '(') =
          opening p :: splitFrom (p + 1) (List.replicate k '(') := rfl
      rw [hfirst, List.cons_append, toPostfixFrom, arrive_opening, List.append_assoc,
        List.singleton_append, ← hrun]
      exact map_nil_append _

/-- **A closing bracket that finds nothing to close acts as if its opening bracket stood in front of
the whole text.** The simple reader sends out the same, further on by the brackets in front, when
the missing opening brackets are put there, whatever other brackets the text has. -/
theorem postfixOfSymbols_openings (text : String) :
    ∃ out, postfixOfSymbols text = .ok out ∧
      postfixOfSymbols (String.ofList (List.replicate (unopened 0 text.toList) '(') ++ text) =
        .ok (out.map (shift (unopened 0 text.toList))) := by
  obtain ⟨out, -, hout, -⟩ := exists_toPostfix_split text
  refine ⟨out, mapError_eq_ok_iff.2 hout, mapError_eq_ok_iff.2 ?_⟩
  generalize hk : unopened 0 text.toList = k
  obtain ⟨buried, hlength, hburied, hrun⟩ :=
    exists_toPostfix_openings k 0 [] (splitFrom (0 + k) text.toList)
  have hstrays : buried.length = strays 0 (splitFrom (0 + k) text.toList) := by
    rw [hlength, strays_splitFrom, hk]
  calc toPostfix (split (String.ofList (List.replicate k '(') ++ text))
      = toPostfixFrom [] (splitFrom 0 (List.replicate k '(') ++ splitFrom (0 + k) text.toList) := by
        rw [toPostfix, split, String.toList_append, String.toList_ofList, splitFrom_append,
          List.length_replicate]
    _ = toPostfixFrom ([] ++ buried) (splitFrom (0 + k) text.toList) := by
        rw [hrun, List.append_nil, List.nil_append]
    _ = toPostfix (splitFrom (0 + k) text.toList) :=
        toPostfixFrom_append_opens hburied hstrays
    _ = .ok (out.map (shift k)) := by
        rw [splitFrom_shift, shift, toPostfix_move]
        exact congrArg _ hout

end ArithTree.Token
