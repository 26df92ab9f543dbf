import ArithTree.Proofs.Binary.Infix
import ArithTree.Proofs.Binary.Listing

/-!
# Which sequences are postfix

Folding is refused at the first token that cannot be folded, or at the end. `Blocks` says by counts
alone, without the stack of trees, which tokens those are: the stack behind a piece of the sequence
holds one tree for each number and one less for each operator.

* `blocks_iff` : the tokens that cannot be folded are those that the counts name.
* `flows_iff` : without such a token the whole sequence is folded, into any number of trees.
* `exists_ofPostfix_iff_isPostfix` : the sequences that have a tree, what the tree lists, and the
  fault of all other sequences.
-/

namespace ArithTree.Binary

open Token

/-! ### One token -/

/-- The token cannot be folded behind the given ones, for the given cause. -/
inductive Blocks (before : List Token) : Token → Cause → Prop where
  /-- It is neither a number nor an operator. -/
  | unknown {token : Token} (notNumber : token.kind ≠ .number)
    (notOperator : token.kind ≠ .operator) :
    Blocks before token (.unknownTokenKind token.kind.name)
  /-- It is an operator, and fewer than two more numbers than operators stand before it. -/
  | starved {token : Token} (kind : token.kind = .operator)
    (few : countOf .number before < countOf .operator before + 2) :
    Blocks before token (.missingOperands token.value)

theorem Blocks.kind {before : List Token} {token : Token} {cause : Cause}
    (h : Blocks before token cause) : cause.kind = .invalidPostfix := by
  cases h <;> rfl

theorem blocks_iff {before : List Token} {trees : List Expression}
    (h : foldTokens [] before = .ok trees) {token : Token} {fault : Fault} :
    foldToken trees token = .error fault ↔
      Blocks before token fault.cause ∧ fault.position = token.position := by
  have hlength := foldTokens_length h
  rw [List.length_nil, Nat.zero_add] at hlength
  constructor
  · intro hfault
    unfold foldToken at hfault
    split at hfault
    · cases hfault
    · next hkind =>
      split at hfault
      · cases hfault
      · next hfew =>
        cases hfault
        refine ⟨.starved hkind ?_, rfl⟩
        match trees, hlength, hfew with
        | [], hlength, _ => rw [List.length_nil] at hlength; omega
        | [tree], hlength, _ => rw [List.length_singleton] at hlength; omega
        | right :: left :: rest, _, hfew => exact absurd rfl (hfew right left rest)
    · next hnumber hoperator =>
      cases hfault
      exact ⟨.unknown hnumber hoperator, rfl⟩
  · obtain ⟨cause, position⟩ := fault
    rintro ⟨hblocks, rfl⟩
    unfold foldToken
    cases hblocks with
    | unknown hnumber hoperator =>
      split
      · next hkind => exact absurd hkind hnumber
      · next hkind => exact absurd hkind hoperator
      · rfl
    | starved hkind hfew =>
      rw [hkind]
      match trees, hlength with
      | [], _ => rfl
      | [tree], _ => rfl
      | right :: left :: rest, hlength =>
        rw [List.length_cons, List.length_cons] at hlength
        omega

/-! ### Many tokens -/

theorem foldTokens_eq_ok {trees next : List Expression} {before behind : List Token} {token : Token}
    (h : foldTokens trees (before ++ token :: behind) = .ok next) :
    ∃ mid after, foldTokens trees before = .ok mid ∧ foldToken mid token = .ok after := by
  rw [foldTokens_append] at h
  obtain ⟨mid, hbefore, hrest⟩ := bind_eq_ok_iff.1 h
  obtain ⟨after, htoken, -⟩ := bind_eq_ok_iff.1 hrest
  exact ⟨mid, after, hbefore, htoken⟩

theorem foldTokens_eq_error {trees : List Expression} {tokens : List Token} {fault : Fault}
    (h : foldTokens trees tokens = .error fault) : ∃ before token behind mid,
      tokens = before ++ token :: behind ∧ foldTokens trees before = .ok mid ∧
        foldToken mid token = .error fault := by
  induction tokens generalizing trees with
  | nil => cases h
  | cons token tokens ih =>
    rw [foldTokens] at h
    cases hfirst : foldToken trees token with
    | error first =>
      rw [hfirst] at h
      cases h
      exact ⟨[], token, tokens, trees, rfl, rfl, hfirst⟩
    | ok next =>
      rw [hfirst] at h
      obtain ⟨before, other, behind, mid, rfl, hbefore, hother⟩ := ih h
      refine ⟨token :: before, other, behind, mid, rfl, ?_, hother⟩
      rw [foldTokens, hfirst]
      exact hbefore

/-- No token is blocked behind those before it. -/
def Flows (tokens : List Token) : Prop :=
  ∀ before token behind, tokens = before ++ token :: behind → ∀ cause, ¬ Blocks before token cause

theorem flows_iff {tokens : List Token} :
    Flows tokens ↔ ∃ trees, foldTokens [] tokens = .ok trees := by
  constructor
  · intro h
    cases hfold : foldTokens [] tokens with
    | ok trees => exact ⟨trees, rfl⟩
    | error fault =>
      obtain ⟨before, token, behind, mid, rfl, hbefore, htoken⟩ := foldTokens_eq_error hfold
      exact absurd ((blocks_iff hbefore).1 htoken).1 (h before token behind rfl _)
  · rintro ⟨trees, hfold⟩ before token behind rfl cause hblocks
    obtain ⟨mid, after, hbefore, htoken⟩ := foldTokens_eq_ok hfold
    have hfault : foldToken mid token = .error ⟨cause, token.position⟩ :=
      (blocks_iff hbefore).2 ⟨hblocks, rfl⟩
    rw [htoken] at hfault
    cases hfault

/-! ### Sequences -/

/-- A sequence in postfix order. -/
structure IsPostfix (tokens : List Token) : Prop where
  /-- There are numbers and operators only. -/
  kinds : ∀ token ∈ tokens, token.kind = .number ∨ token.kind = .operator
  /-- Before an operator stand at least two more numbers than operators. -/
  operands : ∀ before token behind, tokens = before ++ token :: behind → token.kind = .operator →
    countOf .operator before + 2 ≤ countOf .number before
  /-- In the whole there is one more number than operators. -/
  whole : countOf .number tokens = countOf .operator tokens + 1

/-- The fault of a sequence that is not in postfix order. -/
inductive Refuses : List Token → Fault → Prop where
  /-- At the first token that is blocked. -/
  | token {before behind : List Token} {token : Token} {cause : Cause} (first : Flows before)
    (blocks : Blocks before token cause) :
    Refuses (before ++ token :: behind) ⟨cause, token.position⟩
  /-- At the end, without a place, if no token is blocked. -/
  | count {tokens : List Token} {n : Nat} (flows : Flows tokens)
    (count : countOf .number tokens = countOf .operator tokens + n) (ne : n ≠ 1) :
    Refuses tokens ⟨.notOneExpression n, none⟩

theorem Refuses.kind {tokens : List Token} {fault : Fault} (h : Refuses tokens fault) :
    fault.cause.kind = .invalidPostfix := by
  cases h with
  | token _ blocks => exact blocks.kind
  | count => rfl

theorem isPostfix_iff {tokens : List Token} :
    IsPostfix tokens ↔ Flows tokens ∧ countOf .number tokens = countOf .operator tokens + 1 := by
  constructor
  · rintro ⟨kinds, operands, whole⟩
    refine ⟨?_, whole⟩
    rintro before token behind rfl cause hblocks
    cases hblocks with
    | unknown hnumber hoperator =>
      exact (kinds token (by simp)).elim hnumber hoperator
    | starved hkind hfew =>
      exact absurd hfew (Nat.not_lt.2 (operands before token behind rfl hkind))
  · rintro ⟨hflows, whole⟩
    refine ⟨?_, ?_, whole⟩
    · intro token hmem
      obtain ⟨before, behind, rfl⟩ := List.append_of_mem hmem
      by_cases hnumber : token.kind = .number
      · exact .inl hnumber
      · by_cases hoperator : token.kind = .operator
        · exact .inr hoperator
        · exact absurd (.unknown hnumber hoperator) (hflows before token behind rfl _)
    · rintro before token behind rfl hkind
      refine Nat.not_lt.1 fun hfew => ?_
      exact hflows before token behind rfl _ (.starved hkind hfew)

theorem ofPostfix_of_foldTokens {tokens : List Token} {trees : List Expression}
    (h : foldTokens [] tokens = .ok trees) (hlength : trees.length ≠ 1) :
    ofPostfix tokens = .error ⟨.notOneExpression trees.length, none⟩ := by
  rw [ofPostfix, h]
  cases trees with
  | nil => rfl
  | cons first trees =>
    cases trees with
    | nil => exact absurd rfl hlength
    | cons second trees => rfl

theorem ofPostfix_eq_error_iff {tokens : List Token} {fault : Fault} :
    ofPostfix tokens = .error fault ↔ Refuses tokens fault := by
  constructor
  · intro h
    cases hfold : foldTokens [] tokens with
    | error first =>
      rw [ofPostfix, hfold] at h
      cases h
      obtain ⟨before, token, behind, mid, rfl, hbefore, htoken⟩ := foldTokens_eq_error hfold
      obtain ⟨cause, position⟩ := fault
      obtain ⟨hblocks, rfl⟩ := (blocks_iff hbefore).1 htoken
      exact .token (flows_iff.2 ⟨mid, hbefore⟩) hblocks
    | ok trees =>
      have hcount := foldTokens_length hfold
      rw [List.length_nil, Nat.zero_add] at hcount
      by_cases hlength : trees.length = 1
      · obtain ⟨tree, rfl⟩ := List.length_eq_one_iff.1 hlength
        rw [ofPostfix_eq_ok_iff.2 hfold] at h
        cases h
      · rw [ofPostfix_of_foldTokens hfold hlength] at h
        cases h
        exact .count (flows_iff.2 ⟨trees, hfold⟩) (by omega) hlength
  · intro h
    cases h with
    | @token before behind token cause first blocks =>
      obtain ⟨mid, hbefore⟩ := flows_iff.1 first
      have htoken : foldToken mid token = .error ⟨cause, token.position⟩ :=
        (blocks_iff hbefore).2 ⟨blocks, rfl⟩
      rw [ofPostfix, foldTokens_append_of_ok hbefore, foldTokens, htoken]
      rfl
    | @count _ n flows count ne =>
      obtain ⟨trees, hfold⟩ := flows_iff.1 flows
      have hcount := foldTokens_length hfold
      rw [List.length_nil, Nat.zero_add] at hcount
      obtain rfl : n = trees.length := by omega
      exact ofPostfix_of_foldTokens hfold ne

theorem exists_ofPostfix_iff {tokens : List Token} :
    (∃ tree, ofPostfix tokens = .ok tree) ↔ IsPostfix tokens := by
  rw [isPostfix_iff]
  constructor
  · rintro ⟨tree, htree⟩
    have hfold := ofPostfix_eq_ok_iff.1 htree
    have hcount := foldTokens_length hfold
    rw [List.length_nil, List.length_singleton] at hcount
    exact ⟨flows_iff.2 ⟨_, hfold⟩, by omega⟩
  · rintro ⟨hflows, hwhole⟩
    obtain ⟨trees, hfold⟩ := flows_iff.1 hflows
    have hcount := foldTokens_length hfold
    rw [List.length_nil] at hcount
    obtain ⟨tree, rfl⟩ := List.length_eq_one_iff.1 (show trees.length = 1 by omega)
    exact ⟨tree, ofPostfix_eq_ok_iff.2 hfold⟩

theorem toTokens_ofPostfix {tokens : List Token} {tree : Expression}
    (h : ofPostfix tokens = .ok tree) : tree.toTokens = tokens.map unplaced := by
  have hlisted := listed_foldTokens (ofPostfix_eq_ok_iff.1 h)
  rw [toTokens_eq]
  simpa [listed] using hlisted

/-- **Folding accepts exactly the postfix sequences, and is inverse to listing.** A sequence that is
refused is so at its first blocked token, or at its end for the number of its trees. -/
theorem exists_ofPostfix_iff_isPostfix (tokens : List Token) :
    ((∃ tree, ofPostfix tokens = .ok tree) ↔ IsPostfix tokens) ∧
      (∀ tree, ofPostfix tokens = .ok tree → tree.toTokens = tokens.map unplaced) ∧
      (∀ tree, Proper tree → ofPostfix tree.toTokens = .ok tree ∧ tree.same tree = true) ∧
      (∀ fault, ofPostfix tokens = .error fault ↔ Refuses tokens fault) ∧
      (∀ fault, Refuses tokens fault → fault.cause.kind = .invalidPostfix) ∧
      ∀ n, ofPostfix tokens = .error ⟨.notOneExpression n, none⟩ ↔
        Flows tokens ∧ countOf .number tokens = countOf .operator tokens + n ∧ n ≠ 1 := by
  refine ⟨exists_ofPostfix_iff, fun _ => toTokens_ofPostfix, ?_, fun _ => ofPostfix_eq_error_iff,
    fun _ => Refuses.kind, ?_⟩
  · intro tree hproper
    exact ⟨ofPostfix_toTokens hproper, same_self tree⟩
  · intro n
    rw [ofPostfix_eq_error_iff]
    constructor
    · generalize hfault : Fault.mk (.notOneExpression n) none = fault
      intro h
      cases h with
      | token _ blocks => cases blocks <;> cases hfault
      | count flows count ne =>
        cases hfault
        exact ⟨flows, count, ne⟩
    · rintro ⟨flows, count, ne⟩
      exact .count flows count ne

theorem exists_ofPostfix_iff_isPostfix_sum :
    let tokens : List Token := [⟨"3", .number, some 0⟩, ⟨"4", .number, some 2⟩,
      ⟨"2", .number, some 4⟩, ⟨"*", .operator, some 3⟩, ⟨"+", .operator, some 1⟩]
    let tree : Expression := .branch "+" .operator (.leaf "3" .number)
      (.branch "*" .operator (.leaf "4" .number) (.leaf "2" .number))
    IsPostfix tokens ∧ tree.toTokens = tokens.map unplaced ∧ ofPostfix tree.toTokens = .ok tree ∧
      Refuses [⟨"1", .number, some 0⟩, ⟨"+", .operator, some 1⟩]
        ⟨.missingOperands "+", some 1⟩ := by
  intro tokens tree
  have htree : ofPostfix tokens = .ok tree := rfl
  have hproper : Proper tree := .branch _ (.leaf _) (.branch _ (.leaf _) (.leaf _))
  obtain ⟨haccepts, hlists, hfolds, -⟩ := exists_ofPostfix_iff_isPostfix tokens
  refine ⟨haccepts.1 ⟨tree, htree⟩, hlists tree htree, (hfolds tree hproper).1, ?_⟩
  exact ((exists_ofPostfix_iff_isPostfix _).2.2.2.1 _).1 rfl

end ArithTree.Binary
