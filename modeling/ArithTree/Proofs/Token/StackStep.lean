import Mathlib.Data.List.TakeWhile
import ArithTree.Proofs.Token.OperatorStack

/-!
# One step of the stack

What one token can do to the stack of operators, whatever the token and the stack are: brackets may
be unbalanced, and values and kinds any. The stack moves what it holds without a look at what may be
attached to it, so a step is described for entries that carry a token.

* `Sends`, `exists_sends` : the steps.
* `Sends.perm`, `Sends.open_eq` : what a step loses, and which brackets it leaves open.
* `arrive_eq_error` : when there is none.
-/

namespace ArithTree.Token

open scoped List

/-! ### What a token is to the stack -/

/-- An opening bracket for the stack. -/
def isOpening (token : Token) : Bool := token.kind ≠ .number ∧ token.opens

/-- A closing bracket for the stack; an operator is none, whatever its value. -/
def isClosing (token : Token) : Bool :=
  token.kind ≠ .number ∧ token.kind ≠ .operator ∧ token.value = ")"

/-- A number, or an operator that is no opening bracket. -/
def goesOut (token : Token) : Bool :=
  token.kind = .number ∨ token.kind = .operator ∧ token.opens = false

theorem isOpening_iff {token : Token} :
    token.isOpening ↔ token.kind ≠ .number ∧ token.opens := by
  simp [isOpening]

theorem isClosing_iff {token : Token} :
    token.isClosing ↔ token.kind ≠ .number ∧ token.kind ≠ .operator ∧ token.value = ")" := by
  simp [isClosing]

/-- How a token goes out: an opening bracket as an operator, any other token unchanged. -/
def sentAs (token : Token) : Token :=
  if token.isOpening then { token with kind := .operator } else token

@[simp]
theorem sentAs_value (token : Token) : (sentAs token).value = token.value := by
  unfold sentAs
  split <;> rfl

@[simp]
theorem sentAs_position (token : Token) : (sentAs token).position = token.position := by
  unfold sentAs
  split <;> rfl

theorem sentAs_of_number {token : Token} (h : token.kind = .number) : sentAs token = token := by
  simp [sentAs, isOpening, h]

/-- What the stack may hold. -/
def Waits (token : Token) : Prop := token.kind = .operator ∨ token.isOpening

theorem Waits.kind_ne {token : Token} (h : token.Waits) : token.kind ≠ .number := by
  rcases h with hkind | hopening
  · rw [hkind]
    exact nofun
  · exact (isOpening_iff.1 hopening).1

/-- Tokens that are no numbers. -/
def Numberless (tokens : List Token) : Prop := ∀ token ∈ tokens, token.kind ≠ .number

theorem numberless_nil : Numberless [] := by simp [Numberless]

/-! ### One step -/

/-- An operator sends out the listed operators on top that bind at least as tightly and goes on what
is left. -/
theorem pushOperator_eq_ok {token : Token} {stack next : Stack} {sent : List Token}
    (h : pushOperator token stack = .ok (sent, next)) :
    ∃ rest, stack = sent ++ rest ∧ next = token :: rest ∧
      ∀ op ∈ sent, ∃ own above, precedence? token.value = some own ∧
        precedence? op.value = some above ∧ own ≤ above := by
  fun_induction pushOperator token stack generalizing sent next with
  | case1 =>
    cases h
    exact ⟨[], rfl, rfl, nofun⟩
  | case2 top stack =>
    cases h
    exact ⟨top :: stack, rfl, rfl, nofun⟩
  | case3 => cases h
  | case4 top stack above own hown habove hle ih =>
    obtain ⟨⟨out, behind⟩, hpush, heq⟩ := map_eq_ok_iff.1 h
    cases heq
    obtain ⟨rest, rfl, rfl, hout⟩ := ih hpush
    exact ⟨rest, rfl, rfl, List.forall_mem_cons.2 ⟨⟨own, above, hown, habove, hle⟩, hout⟩⟩
  | case5 top stack =>
    cases h
    exact ⟨top :: stack, rfl, rfl, nofun⟩

/-- The only failure of an operator is that it is not listed. -/
theorem pushOperator_eq_error {token : Token} {stack : Stack} {breakdown : Breakdown}
    (h : pushOperator token stack = .error breakdown) :
    precedence? token.value = none ∧ breakdown = .unlistedOperator token.value := by
  fun_induction pushOperator token stack with
  | case1 | case2 | case5 => cases h
  | case3 top stack above hown =>
    cases h
    exact ⟨hown, rfl⟩
  | case4 top stack above own _ _ _ ih => exact ih (map_eq_error_iff.1 h)

theorem arrive_eq_error {token : Token} {stack : Stack} {breakdown : Breakdown}
    (h : arrive stack token = .error breakdown) :
    token.kind = .operator ∧ precedence? token.value = none ∧
      breakdown = .unlistedOperator token.value := by
  unfold arrive at h
  split at h
  · cases h
  · split at h
    · next hkind => exact ⟨hkind, pushOperator_eq_error h⟩
    · split at h
      · cases h
      · split at h <;> cases h

section Carried

variable {α : Type} {f : α → Token} {entry : α} {stack sent next : List α}

/-- One step of the stack: what an entry sends out of a stack, and the stack behind it, where the
entries carry the tokens that `f` gives. -/
inductive Sends (f : α → Token) (entry : α) : List α → List α → List α → Prop where
  | number (h : (f entry).kind = .number) (stack : List α) : Sends f entry stack [entry] stack
  | operator {sent : List α} (h : (f entry).kind = .operator)
    (hsent : ∀ e ∈ sent, (f e).opens = false) (rest : List α) :
    Sends f entry (sent ++ rest) sent (entry :: rest)
  | opening (h : (f entry).isOpening) (stack : List α) : Sends f entry stack [] (entry :: stack)
  | closing {sent rest : List α} (h : (f entry).isClosing)
    (hsent : ∀ e ∈ sent, (f e).opens = false) (hrest : ∀ top ∈ rest.head?, (f top).opens) :
    Sends f entry (sent ++ rest) sent rest.tail
  | skipped (hout : (f entry).goesOut = false) (hopening : (f entry).isOpening = false)
    (hclosing : (f entry).isClosing = false) (stack : List α) : Sends f entry stack [] stack

theorem exists_closeBracket (f : α → Token) (stack : List α) :
    ∃ sent below, stack = sent ++ below ∧ (∀ e ∈ sent, (f e).opens = false) ∧
      (∀ top ∈ below.head?, (f top).opens) ∧
      closeBracket (stack.map f) = (sent.map f, below.tail.map f) := by
  refine ⟨stack.takeWhile (fun e => !(f e).opens), stack.dropWhile (fun e => !(f e).opens),
    List.takeWhile_append_dropWhile.symm, fun e he => ?_, fun top htop => ?_, ?_⟩
  · simpa using List.mem_takeWhile_imp he
  · have := List.head?_dropWhile_not (fun e => !(f e).opens) stack
    rw [Option.mem_def.1 htop] at this
    simpa using this
  · rw [closeBracket, List.takeWhile_map, List.dropWhile_map, List.drop_one, List.map_tail]
    rfl

/-- Every step of the stack is one of these. -/
theorem exists_sends {tokens rest : List Token}
    (h : arrive (stack.map f) (f entry) = .ok (tokens, rest)) :
    ∃ sent next, tokens = sent.map f ∧ rest = next.map f ∧ Sends f entry stack sent next := by
  unfold arrive at h
  split at h
  · next hnumber =>
    cases h
    exact ⟨[entry], stack, rfl, rfl, .number hnumber stack⟩
  next hnumber =>
  split at h
  · next hoperator =>
    obtain ⟨below, hstack, rfl, hsent⟩ := pushOperator_eq_ok h
    obtain ⟨sent, under, rfl, rfl, rfl⟩ := List.map_eq_append_iff.1 hstack
    refine ⟨sent, entry :: under, rfl, rfl, .operator hoperator (fun e he => ?_) under⟩
    obtain ⟨_, _, _, habove, _⟩ := hsent (f e) (List.mem_map_of_mem he)
    exact not_opens_of_precedence habove
  next hoperator =>
  split at h
  · next hvalue =>
    cases h
    exact ⟨[], entry :: stack, rfl, rfl, .opening (by simp [isOpening, opens, *]) stack⟩
  next hvalue =>
  split at h
  · next hclosing =>
    have hclosing : (f entry).isClosing := by simp [isClosing, *]
    obtain ⟨sent, below, hstack, hsent, hbelow, hclose⟩ := exists_closeBracket f stack
    rw [hclose] at h
    cases h
    rw [hstack]
    exact ⟨sent, below.tail, rfl, rfl, .closing hclosing hsent hbelow⟩
  · next hclosing =>
    cases h
    exact ⟨[], stack, rfl, rfl, .skipped (by simp [goesOut, *]) (by simp [isOpening, opens, *])
      (by simp [isClosing, *]) stack⟩

/-- The opening brackets that are open behind an entry, the innermost first: a closing bracket takes
the innermost one away, if there is one. -/
def openBehind (f : α → Token) (opened : List α) (entry : α) : List α :=
  if (f entry).isOpening then entry :: opened
  else if (f entry).isClosing then opened.tail
  else opened

theorem foldl_openBehind_sublist (entries opened : List α) :
    entries.foldl (openBehind f) opened <+
      (entries.filter fun e => (f e).isOpening).reverse ++ opened := by
  induction entries generalizing opened with
  | nil => exact .refl _
  | cons entry entries ih =>
    rw [List.foldl_cons]
    refine (ih (openBehind f opened entry)).trans ?_
    unfold openBehind
    split
    · next h =>
      rw [List.filter_cons_of_pos (by simpa using h), List.reverse_cons, List.append_assoc]
      exact .refl _
    · next h =>
      rw [List.filter_cons_of_neg (by simpa using h), List.append_sublist_append_left]
      split
      · exact List.tail_sublist opened
      · exact .refl _

theorem filter_not_opens_eq_self (h : ∀ e ∈ sent, (f e).opens = false) :
    sent.filter (fun e => !(f e).opens) = sent :=
  List.filter_eq_self.2 (by simpa using h)

theorem filter_opens_eq_nil (h : ∀ e ∈ sent, (f e).opens = false) :
    sent.filter (fun e => (f e).opens) = [] :=
  List.filter_eq_nil_iff.2 (by simpa using h)

theorem pairwise_of_waits (h : ∀ e ∈ stack, Waits (f e)) (r : α → α → Prop) :
    stack.Pairwise fun a b => (f b).kind = .number → r a b :=
  List.pairwise_of_forall_mem_list fun _ _ b hb hnumber =>
    absurd hnumber (h b hb).kind_ne

namespace Sends

/-- Nothing is sent out or stacked but the entry and what the stack held. -/
theorem mem (h : Sends f entry stack sent next) : ∀ e ∈ sent ++ next, e = entry ∨ e ∈ stack := by
  intro e he
  cases h with
  | number _ stack => simpa using he
  | operator _ _ rest =>
    simp only [List.mem_append, List.mem_cons] at he ⊢
    exact or_left_comm.1 he
  | opening _ stack => simpa using he
  | @closing _ rest _ _ _ =>
    right
    exact ((List.append_sublist_append_left _).2 (List.tail_sublist rest)).subset he
  | skipped _ _ _ stack => exact .inr he

/-- No opening bracket goes out as long as tokens arrive. -/
theorem not_opening (h : Sends f entry stack sent next) : ∀ e ∈ sent, (f e).isOpening = false := by
  cases h with
  | number h => simp [isOpening, h]
  | operator _ hsent | closing _ hsent =>
    intro e he
    simp [isOpening, hsent e he]
  | opening | skipped => exact nofun

theorem waits (h : Sends f entry stack sent next) (hstack : ∀ e ∈ stack, Waits (f e)) :
    ∀ e ∈ next, Waits (f e) := by
  cases h with
  | number | skipped => exact hstack
  | operator h _ rest =>
    exact List.forall_mem_cons.2 ⟨.inl h, (List.forall_mem_append.1 hstack).2⟩
  | opening h stack => exact List.forall_mem_cons.2 ⟨.inr h, hstack⟩
  | closing =>
    exact fun e he => hstack e (List.mem_append_right _ (List.mem_of_mem_tail he))

/-- A step loses nothing but brackets. -/
theorem perm (h : Sends f entry stack sent next) :
    sent ++ next.filter (fun e => !(f e).opens) ~
      stack.filter (fun e => !(f e).opens) ++ [entry].filter fun e => (f e).goesOut := by
  cases h with
  | number h stack =>
    rw [List.filter_cons_of_pos (by simp [goesOut, h]), List.filter_nil]
    exact List.perm_append_comm
  | operator h hsent rest =>
    -- An operator with the value of an opening bracket is stacked as one and does not go out.
    have hentry : (f entry).goesOut = !(f entry).opens := by simp [goesOut, h]
    rw [List.filter_append, filter_not_opens_eq_self hsent, List.append_assoc,
      List.filter_cons, List.filter_cons, hentry]
    refine List.Perm.append_left _ ?_
    split
    · exact (List.perm_append_singleton entry _).symm
    · rw [List.filter_nil, List.append_nil]
  | opening h stack =>
    obtain ⟨hnumber, hopens⟩ := isOpening_iff.1 h
    rw [List.filter_cons_of_neg (by simp [hopens]),
      List.filter_cons_of_neg (by simp [goesOut, hnumber, hopens]), List.filter_nil,
      List.append_nil]
    exact .refl _
  | @closing _ rest h hsent hrest =>
    obtain ⟨hnumber, hoperator, -⟩ := isClosing_iff.1 h
    rw [List.filter_append, filter_not_opens_eq_self hsent,
      List.filter_cons_of_neg (by simp [goesOut, hnumber, hoperator]), List.filter_nil,
      List.append_nil]
    cases rest with
    | nil => exact .refl _
    | cons top rest =>
      rw [List.filter_cons_of_neg (by simp [hrest top rfl])]
      exact .refl _
  | skipped hout hopening hclosing stack =>
    rw [List.filter_cons_of_neg (by simp [hout]), List.filter_nil, List.append_nil]
    exact .refl _

/-- The brackets on the stack are the open ones. -/
theorem open_eq (h : Sends f entry stack sent next) :
    next.filter (fun e => (f e).opens) =
      openBehind f (stack.filter fun e => (f e).opens) entry := by
  unfold openBehind
  cases h with
  | number h stack => simp [isOpening, isClosing, h]
  | operator h hsent rest =>
    rw [List.filter_append, filter_opens_eq_nil hsent, List.filter_cons]
    simp [isOpening, isClosing, h]
  | opening h stack =>
    rw [if_pos h]
    exact List.filter_cons_of_pos (isOpening_iff.1 h).2
  | @closing _ rest h hsent hrest =>
    have hopening : ¬ (f entry).isOpening := by
      simp [isOpening, opens, (isClosing_iff.1 h).2.2]
    rw [if_neg hopening, if_pos h, List.filter_append, filter_opens_eq_nil hsent, List.nil_append]
    cases rest with
    | nil => rfl
    | cons top rest => simp [hrest top rfl]
  | skipped _ hopening hclosing stack => simp [hopening, hclosing]

/-- In one step a number goes out alone or not at all. -/
theorem pairwise (h : Sends f entry stack sent next) (hstack : ∀ e ∈ stack, Waits (f e))
    (r : α → α → Prop) : sent.Pairwise fun a b => (f b).kind = .number → r a b := by
  cases h with
  | number => exact List.pairwise_singleton _ _
  | operator _ _ rest | closing =>
    exact pairwise_of_waits (List.forall_mem_append.1 hstack).1 r
  | opening | skipped => exact .nil

end Sends

end Carried

/-! ### Plain tokens -/

/-- Nothing is sent out or stacked but the token and what the stack held. -/
theorem mem_of_arrive {stack next : Stack} {token : Token} {sent : List Token}
    (h : arrive stack token = .ok (sent, next)) :
    ∀ other ∈ sent ++ next, other ∈ token :: stack := by
  have hrun : Token.arrive (stack.map id) (id token) = .ok (sent, next) := by
    rw [List.map_id]
    exact h
  obtain ⟨out, behind, rfl, rfl, hsends⟩ := exists_sends hrun
  rw [List.map_id, List.map_id]
  exact fun other hother => List.mem_cons.2 (hsends.mem other hother)

/-- A token that is no number neither sends out nor stacks one. -/
theorem Numberless.arrive {stack next : Stack} {token : Token} {sent : List Token}
    (h : Numberless stack) (htoken : token.kind ≠ .number)
    (harrive : arrive stack token = .ok (sent, next)) : Numberless sent ∧ Numberless next := by
  have hall : Numberless (token :: stack) := List.forall_mem_cons.2 ⟨htoken, h⟩
  exact List.forall_mem_append.1 fun other hother => hall other (mem_of_arrive harrive other hother)

/-- Only numbers go past the stack. -/
theorem numberless_of_arrive {stack next : Stack} {token : Token} {sent : List Token}
    (h : Numberless stack) (harrive : arrive stack token = .ok (sent, next)) : Numberless next := by
  by_cases hkind : token.kind = .number
  · rw [arrive_number hkind] at harrive
    cases harrive
    exact h
  · exact (h.arrive hkind harrive).2

theorem numberless_drain (stack : Stack) : Numberless (drain stack) := by
  intro token hmem
  obtain ⟨_, -, rfl⟩ := List.mem_map.1 hmem
  simp

theorem Numberless.filter_eq_nil {tokens : List Token} (h : Numberless tokens) :
    tokens.filter (fun token => token.kind = .number) = [] :=
  List.filter_eq_nil_iff.2 fun token hmem => by simpa using h token hmem

end ArithTree.Token
