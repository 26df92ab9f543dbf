import Mathlib.Data.List.Perm.Subperm
import ArithTree.Proofs.Token.StackStep

/-!
# What goes through the stack

The stack of operators neither loses nor duplicates a token, whatever the sequence is. To tell equal
tokens apart, each carries its place in the sequence.

* `exists_perm_outgoing` : what goes out of the stack from some point on.
* `neverClosed` : the opening brackets that no closing one meets.
* `toPostfix_conserves` : what goes out, once each, and in which order.
-/

namespace ArithTree.Token

open scoped List

/-! ### Failure -/

theorem toPostfixFrom_eq_error {tokens : List Token} {stack : Stack} {breakdown : Breakdown}
    (h : toPostfixFrom stack tokens = .error breakdown) :
    ∃ token ∈ tokens, token.kind = .operator ∧ precedence? token.value = none ∧
      breakdown = .unlistedOperator token.value := by
  induction tokens generalizing stack with
  | nil => cases h
  | cons token tokens ih =>
    rcases bind_eq_error_iff.1 h with harrive | ⟨⟨_, next⟩, -, hrest⟩
    · exact ⟨token, List.mem_cons_self, arrive_eq_error harrive⟩
    · obtain ⟨other, hother, hfault⟩ := ih (map_eq_error_iff.1 hrest)
      exact ⟨other, List.mem_cons_of_mem token hother, hfault⟩

/-! ### All steps -/

section Carried

variable {α : Type} {f : α → Token} {entry : α} {stack sent next : List α}

theorem drain_map (hstack : ∀ e ∈ stack, Waits (f e)) :
    drain (stack.map f) = stack.map fun e => sentAs (f e) := by
  rw [drain, List.map_map]
  refine List.map_congr_left fun e he => ?_
  rw [Function.comp_apply, sentAs]
  split
  · rfl
  · next hopening => rw [← (hstack e he).resolve_right hopening]

/-- What goes out of the stack from some point on: the operators on it, what comes and goes out
itself, and the brackets that stay open. -/
def outgoing (f : α → Token) (stack entries : List α) : List α :=
  stack.filter (fun e => !(f e).opens) ++ entries.filter (fun e => (f e).goesOut) ++
    entries.foldl (openBehind f) (stack.filter fun e => (f e).opens)

theorem mem_of_mem_outgoing {entries : List α} (hstack : ∀ e ∈ stack, Waits (f e)) {e : α}
    (he : e ∈ outgoing f stack entries) (hnumber : (f e).kind = .number) : e ∈ entries := by
  have hwaits : e ∉ stack := fun he => (hstack e he).kind_ne hnumber
  simp only [outgoing, List.mem_append] at he
  rcases he with (he | he) | he
  · exact absurd (List.mem_filter.1 he).1 hwaits
  · exact (List.mem_filter.1 he).1
  · rcases List.mem_append.1 ((foldl_openBehind_sublist entries _).subset he) with he | he
    · exact (List.mem_filter.1 (List.mem_reverse.1 he)).1
    · exact absurd (List.mem_filter.1 he).1 hwaits

theorem Sends.append_outgoing_perm (h : Sends f entry stack sent next) (entries : List α) :
    sent ++ outgoing f next entries ~ outgoing f stack (entry :: entries) := by
  have hfilter : (entry :: entries).filter (fun e => (f e).goesOut) =
      [entry].filter (fun e => (f e).goesOut) ++ entries.filter fun e => (f e).goesOut := by
    rw [← List.filter_append, List.singleton_append]
  rw [outgoing, outgoing, h.open_eq, List.foldl_cons, hfilter, ← List.append_assoc,
    ← List.append_assoc, ← List.append_assoc]
  exact (h.perm.append_right _).append_right _

theorem perm_outgoing_nil : stack ~ outgoing f stack [] := by
  rw [outgoing, List.filter_nil, List.append_nil, List.foldl_nil]
  exact (List.perm_append_comm.trans (List.filter_append_perm _ stack)).symm

/-- **The stack conserves what it is given**, and whatever goes out before a number has come before
it. -/
theorem exists_perm_outgoing {entries : List α} {out : List Token}
    (hstack : ∀ e ∈ stack, Waits (f e))
    (h : toPostfixFrom (stack.map f) (entries.map f) = .ok out) :
    ∃ sent, out = sent.map (fun e => sentAs (f e)) ∧ sent ~ outgoing f stack entries ∧
      ∀ r : α → α → Prop, entries.Pairwise r → (∀ e ∈ stack, ∀ later ∈ entries, r e later) →
        sent.Pairwise fun a b => (f b).kind = .number → r a b := by
  induction entries generalizing stack out with
  | nil =>
    cases h
    exact ⟨stack, drain_map hstack, perm_outgoing_nil, fun r _ _ => pairwise_of_waits hstack r⟩
  | cons entry entries ih =>
    obtain ⟨⟨first, behind⟩, harrive, hrest⟩ := bind_eq_ok_iff.1 h
    obtain ⟨more, hmore, rfl⟩ := map_eq_ok_iff.1 hrest
    obtain ⟨sent, next, rfl, rfl, hsends⟩ := exists_sends harrive
    have hnext := hsends.waits hstack
    obtain ⟨later, rfl, hperm, hlater⟩ := ih hnext hmore
    refine ⟨sent ++ later, ?_, ?_, fun r hentries hbefore => ?_⟩
    · rw [List.map_append]
      refine congrArg (· ++ _) (List.map_congr_left fun e he => ?_)
      simp [sentAs, hsends.not_opening e he]
    · exact (hperm.append_left sent).trans (hsends.append_outgoing_perm entries)
    · obtain ⟨hentry, hentries⟩ := List.pairwise_cons.1 hentries
      -- All that is sent out now has come before what is still to come.
      have hstep : ∀ e ∈ sent ++ next, ∀ later ∈ entries, r e later := by
        intro e he b hb
        rcases hsends.mem e he with rfl | he
        · exact hentry b hb
        · exact hbefore e he b (List.mem_cons_of_mem entry hb)
      obtain ⟨hsent, hnextBefore⟩ := List.forall_mem_append.1 hstep
      refine List.pairwise_append.2
        ⟨hsends.pairwise hstack r, hlater r hentries hnextBefore, fun a ha b hb hnumber => ?_⟩
      exact hsent a ha b (mem_of_mem_outgoing hnext (hperm.mem_iff.1 hb) hnumber)

/-- What goes out is a selection of what came. -/
theorem outgoing_nil_subperm (entries : List α) : (outgoing f [] entries).Subperm entries := by
  have hopen : entries.foldl (openBehind f) [] <+ _ := foldl_openBehind_sublist entries []
  have hdisjoint : (entries.filter fun e => (f e).isOpening) <+
      entries.filter fun e => !(f e).goesOut :=
    List.monotone_filter_right entries fun e he => by
      obtain ⟨hnumber, hopens⟩ := isOpening_iff.1 he
      simp [goesOut, hnumber, hopens]
  rw [List.append_nil] at hopen
  have hlast := (hopen.subperm.trans (List.reverse_perm _).subperm).trans hdisjoint.subperm
  exact ((List.subperm_append_left _).2 hlast).trans (List.filter_append_perm _ entries).subperm

end Carried

/-! ### Whole sequences -/

/-- The numbers go out as they came. -/
theorem filter_number_of_toPostfixFrom {stack : Stack} {tokens out : List Token}
    (hstack : Numberless stack) (h : toPostfixFrom stack tokens = .ok out) :
    out.filter (fun token => token.kind = .number) =
      tokens.filter fun token => token.kind = .number := by
  induction tokens generalizing stack out with
  | nil =>
    cases h
    exact (numberless_drain stack).filter_eq_nil
  | cons token tokens ih =>
    obtain ⟨⟨sent, next⟩, harrive, hrest⟩ := bind_eq_ok_iff.1 h
    obtain ⟨more, hmore, rfl⟩ := map_eq_ok_iff.1 hrest
    rw [List.filter_append, ih (numberless_of_arrive hstack harrive) hmore]
    by_cases hkind : token.kind = .number
    · rw [arrive_number hkind] at harrive
      cases harrive
      simp [hkind]
    · simp [hkind, (hstack.arrive hkind harrive).1.filter_eq_nil]

/-- What goes out has come in. -/
theorem exists_eq_sentAs {tokens out : List Token} (h : toPostfix tokens = .ok out) :
    ∀ token ∈ out, ∃ source ∈ tokens, token = sentAs source := by
  have hrun : toPostfixFrom (([] : List Token).map id) (tokens.map id) = .ok out := by
    rw [List.map_id tokens]
    exact h
  obtain ⟨sent, rfl, hperm, -⟩ := exists_perm_outgoing nofun hrun
  intro token hmem
  obtain ⟨source, hsource, rfl⟩ := List.mem_map.1 hmem
  have hselected := hperm.subperm.trans (outgoing_nil_subperm tokens)
  exact ⟨source, hselected.subset hsource, rfl⟩

/-- The opening brackets of a sequence that no closing bracket meets, each with its place. -/
def neverClosed (tokens : List Token) : List (Token × Nat) :=
  tokens.zipIdx.foldl (openBehind Prod.fst) []

/-- **The stack neither loses nor duplicates a token.** It fails on an operator that is not listed
only. Otherwise the numbers and the operators that are no opening brackets go out once each and
unchanged, the opening brackets that are never closed go out once each as operators, and nothing
else does; the numbers keep their order, and no token comes out before a number that stood before
it. -/
theorem toPostfix_conserves (tokens : List Token) :
    (∀ breakdown, toPostfix tokens = .error breakdown →
      ∃ token ∈ tokens, token.kind = .operator ∧ precedence? token.value = none ∧
        breakdown = .unlistedOperator token.value) ∧
    ∀ out, toPostfix tokens = .ok out →
      ∃ sent : List (Token × Nat), out = sent.map (fun e => sentAs e.1) ∧
        sent ~ tokens.zipIdx.filter (fun e => e.1.goesOut) ++ neverClosed tokens ∧
        sent.Subperm tokens.zipIdx ∧
        (out.filter fun token => token.kind = .number) =
          tokens.filter (fun token => token.kind = .number) ∧
        sent.Pairwise fun a b => b.1.kind = .number → a.2 < b.2 := by
  refine ⟨fun breakdown h => toPostfixFrom_eq_error h, fun out h => ?_⟩
  have htokens : tokens.zipIdx.map Prod.fst = tokens := List.zipIdx_map_fst 0 tokens
  have hrun : toPostfixFrom (([] : List (Token × Nat)).map Prod.fst)
      (tokens.zipIdx.map Prod.fst) = .ok out := by
    rw [htokens]
    exact h
  obtain ⟨sent, hout, hperm, hpairwise⟩ := exists_perm_outgoing nofun hrun
  refine ⟨sent, hout, hperm, ?_, filter_number_of_toPostfixFrom numberless_nil h, ?_⟩
  · exact hperm.subperm.trans (outgoing_nil_subperm _)
  · refine hpairwise (fun a b => a.2 < b.2) (List.pairwise_map.1 ?_) nofun
    rw [List.zipIdx_map_snd]
    exact List.pairwise_lt_range'

theorem toPostfix_conserves_unbalanced :
    let tokens := split ")1+((2)"
    let unlisted : List Token := [⟨"+", .operator, some 0⟩, ⟨"^", .operator, some 1⟩]
    (∃ breakdown, toPostfix unlisted = .error breakdown ∧
      ∃ token ∈ unlisted, token.kind = .operator ∧ precedence? token.value = none ∧
        breakdown = .unlistedOperator token.value) ∧
    ∃ out, toPostfix tokens = .ok out ∧
      ∃ sent : List (Token × Nat), out = sent.map (fun e => sentAs e.1) ∧
        sent ~ tokens.zipIdx.filter (fun e => e.1.goesOut) ++ [(ofChar .paren 3 '(', 3)] ∧
        sent.Pairwise fun a b => b.1.kind = .number → a.2 < b.2 := by
  intro tokens unlisted
  have herror : toPostfix unlisted = .error (.unlistedOperator "^") := rfl
  have hok : toPostfix tokens = .ok [ofChar .number 1 '1', ofChar .number 5 '2',
    ofChar .operator 3 '(', ofChar .operator 2 '+'] := by decide
  have hopen : neverClosed tokens = [(ofChar .paren 3 '(', 3)] := by decide
  obtain ⟨sent, hout, hperm, -, -, hpairwise⟩ := (toPostfix_conserves tokens).2 _ hok
  rw [hopen] at hperm
  have hbreakdown := (toPostfix_conserves unlisted).1 _ herror
  exact ⟨⟨_, herror, hbreakdown⟩, _, hok, sent, hout, hperm, hpairwise⟩

end ArithTree.Token
