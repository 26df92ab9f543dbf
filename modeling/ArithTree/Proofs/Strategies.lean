import ArithTree.Proofs.Binary.Operators
import ArithTree.Proofs.Term.Prefix

/-!
# The faults of each strategy

Every stage of an analysis ends with a fault of its own family, and no stage breaks down on what the
stage before it hands over. So the faults that a strategy may end with are those of its stages.

* `exists_fault_of_scan`, `validation_of_check`, `kind_of_lexemes` : the faults of each stage.
* `kinds_of_postfixTokens` : what is folded are numbers and operators.
* `analyseTerm_cases`, `analyseBinary_cases` : where an analysis may end.
* `analyse_reports` : a text under any strategy has a tree or a fault of that strategy.
-/

namespace ArithTree

/-! ### Term trees -/

namespace Term

/-- A fault of the scanner is one of its family, and the scanner never breaks down. -/
theorem exists_fault_of_scan {text : String} {failure : Failure} (h : scan text = .error failure) :
    ∃ fault, failure = .fault fault ∧ .scan ∈ fault.cause.kind.lineage := by
  obtain ⟨items, nesting, a, cause, b, -, -, hstops, rfl⟩ := scan_eq_error_iff.1 h
  refine ⟨_, rfl, ?_⟩
  cases hstops with
  | lexeme fails => cases fails <;> simp [Cause.kind, FaultKind.lineage]
  | stray => simp [Cause.kind, FaultKind.lineage]
  | ending => simp [Cause.kind, FaultKind.lineage]

namespace Node

theorem validation_of_checkBody {node : Node} {fault : Fault}
    (h : node.checkBody = .error fault) : .validation ∈ fault.cause.kind.lineage := by
  unfold checkBody at h
  split at h
  · cases h
    simp [Cause.kind, FaultKind.lineage]
  · split at h
    · cases h
      simp [Cause.kind, FaultKind.lineage]
    · cases h

theorem validation_of_checkNeighbour {node : Node} {next? : Option Node} {fault : Fault}
    (h : node.checkNeighbour next? = .error fault) : .validation ∈ fault.cause.kind.lineage := by
  unfold checkNeighbour at h
  split at h
  · cases h
    simp [Cause.kind, FaultKind.lineage]
  · split at h
    · cases h
      simp [Cause.kind, FaultKind.lineage]
    · cases h
  · cases h
  · cases h
  · split at h
    · cases h
    · cases h
      simp [Cause.kind, FaultKind.lineage]

theorem validation_of_checkPending {tasks : List Task} {fault : Fault}
    (h : checkPending tasks = .error fault) : .validation ∈ fault.cause.kind.lineage := by
  fun_induction checkPending tasks with
  | case1 => cases h
  | case2 node pending _ ih =>
    rcases bind_eq_error_iff.1 h with hbody | ⟨_, -, hrest⟩
    · exact validation_of_checkBody hbody
    · exact ih hrest
  | case3 node pending _ ih => exact ih h
  | case4 node next? pending ih =>
    rcases bind_eq_error_iff.1 h with hneighbour | ⟨_, -, hrest⟩
    · exact validation_of_checkNeighbour hneighbour
    · exact ih hrest

theorem validation_of_check {root : Node} {fault : Fault} (h : root.check = .error fault) :
    .validation ∈ fault.cause.kind.lineage := by
  rcases bind_eq_error_iff.1 h with hbody | ⟨_, -, hrest⟩
  · exact validation_of_checkBody hbody
  · exact validation_of_checkPending hrest

end Node

end Term

/-! ### Binary trees -/

namespace Token

theorem kind_of_lexemes {text : String} {fault : Fault} (h : lexemes text = .error fault) :
    fault.cause.kind ∈ [FaultKind.malformedNumber, .unexpectedSymbol, .unbalancedParenthesis] :=
  (reports_of_lexemes h).kind_mem

end Token

namespace Binary

open Token

/-- Only the full reader refuses a text; nothing breaks down on the stack of operators. -/
theorem exists_lexemes_of_postfixTokens {wholeNumbers : Bool} {text : String} {failure : Failure}
    (h : postfixTokens wholeNumbers text = .error failure) :
    wholeNumbers = true ∧ ∃ fault, lexemes text = .error fault ∧ failure = .fault fault := by
  cases wholeNumbers with
  | true =>
    refine ⟨rfl, ?_⟩
    rcases bind_eq_error_iff.1 h with hlexemes | ⟨tokens, htokens, horder⟩
    · obtain ⟨fault, hfault, rfl⟩ := mapError_eq_error_iff.1 hlexemes
      exact ⟨fault, hfault, rfl⟩
    · -- The tokens of a text are balanced, so the stack holds operators with a precedence only.
      obtain ⟨breakdown, hbreakdown, -⟩ := mapError_eq_error_iff.1 horder
      obtain ⟨out, hout⟩ := (balanced_of_lexemes (mapError_eq_ok_iff.1 htokens)).exists_toPostfix
      rw [hout] at hbreakdown
      cases hbreakdown
  | false =>
    obtain ⟨breakdown, hbreakdown, -⟩ := mapError_eq_error_iff.1 h
    obtain ⟨out, left, hout, -⟩ := exists_toPostfix_split text
    rw [hout] at hbreakdown
    cases hbreakdown

/-- What is folded are numbers and operators. -/
theorem kinds_of_postfixTokens {wholeNumbers : Bool} {text : String} {out : List Token}
    (h : postfixTokens wholeNumbers text = .ok out) :
    ∀ token ∈ out, token.kind = .number ∨ token.kind = .operator := by
  obtain ⟨tokens, left, hread, -, hperm⟩ := postfixTokens_perm h
  intro token hmem
  rcases List.mem_append.1 (hperm.mem_iff.1 hmem) with hmem | hmem
  · exact (isFlat_of_readTokens hread token hmem).imp_right fun ⟨_, binds⟩ => binds.kind
  · obtain ⟨p, -, rfl⟩ := List.mem_map.1 hmem
    exact .inr rfl

theorem Refuses.ne_unknownTokenKind {tokens : List Token} {fault : Fault} (h : Refuses tokens fault)
    (kinds : ∀ token ∈ tokens, token.kind = .number ∨ token.kind = .operator) (name : String) :
    fault.cause ≠ .unknownTokenKind name := by
  cases h with
  | @token before behind token cause _ blocks =>
    cases blocks with
    | unknown notNumber notOperator =>
      exact absurd (kinds token (by simp)) (not_or.2 ⟨notNumber, notOperator⟩)
    | starved => simp
  | count => simp

/-- The node of a token: an operator gets the two topmost trees as its operands, as far as they are
there. -/
def nodeOf (trees : List Expression) (token : Token) : Except HalfBuilt Expression :=
  if token.kind = .operator then Tree.node token.value token.kind trees[1]? trees[0]?
  else Tree.node token.value token.kind none none

/-- Folding builds no node by halves. -/
theorem exists_nodeOf {trees next : List Expression} {token : Token}
    (h : foldToken trees token = .ok next) :
    ∃ tree, nodeOf trees token = .ok tree ∧ next.head? = some tree := by
  unfold foldToken at h
  split at h
  · next hkind =>
    cases h
    exact ⟨_, if_neg (by simp [hkind]), rfl⟩
  · next hkind =>
    split at h
    · cases h
      exact ⟨_, if_pos hkind, rfl⟩
    · cases h
  · cases h

end Binary

/-! ### Strategies -/

/-- A cause that comes neither from a breakdown nor from a token that folding does not know. -/
structure Cause.IsRegular (cause : Cause) : Prop where
  /-- No operation broke down. -/
  noCrash : ∀ breakdown, cause ≠ .crash breakdown
  /-- No token is neither a number nor an operator. -/
  knownKind : ∀ name, cause ≠ .unknownTokenKind name

theorem Cause.isRegular_of_kind {cause : Cause} (htree : cause.kind ≠ .tree)
    (hfold : cause.kind ≠ .invalidPostfix) : cause.IsRegular := by
  constructor
  · rintro breakdown rfl
    exact htree rfl
  · rintro name rfl
    exact hfold rfl

theorem Cause.isRegular_of_lineage {cause : Cause}
    (h : .scan ∈ cause.kind.lineage ∨ .validation ∈ cause.kind.lineage) : cause.IsRegular := by
  refine isRegular_of_kind ?_ ?_ <;>
  · intro heq
    rw [heq] at h
    simp [FaultKind.lineage] at h

theorem Cause.IsRegular.code_ne {cause : Cause} (h : cause.IsRegular) : cause.code ≠ "9999" := by
  cases cause with
  | crash breakdown => exact absurd rfl (h.noCrash breakdown)
  | _ => simp [Cause.code, Cause.kind, FaultKind.code]

/-- The faults that a strategy may report; for binary trees they depend on the reader. -/
def Strategy.Reports (d : Diagnostic) : Strategy → (wholeNumbers : Bool) → Prop
  | term, _ => .scan ∈ d.kind.lineage ∨ .validation ∈ d.kind.lineage
  | binary, true =>
    d.kind ∈ [.malformedNumber, .unexpectedSymbol, .unbalancedParenthesis, .invalidPostfix]
  | binary, false => d.kind = .invalidPostfix
  | unknown _ _, _ => d.kind = .configuration ∧ d.code = "5001"

/-- What the analysis of a text as a term tree comes to: it ends with the scanner, with the check or
with the tree. -/
theorem analyseTerm_cases (text : String) :
    (∃ fault, Term.scan text = .error (.fault fault) ∧
      analyseTerm text = ⟨none, .error (.ofFault fault (some text))⟩) ∨
    (∃ tree fault, Term.scan text = .ok tree ∧ tree.check = .error fault ∧
      analyseTerm text =
        ⟨some ("Term tree: " ++ tree.text), .error (.ofFault fault (some text))⟩) ∨
    ∃ tree, Term.scan text = .ok tree ∧
      analyseTerm text = ⟨some ("Term tree: " ++ tree.text), .ok (.term tree)⟩ := by
  unfold analyseTerm
  cases hscan : Term.scan text with
  | error failure =>
    obtain ⟨fault, rfl, -⟩ := Term.exists_fault_of_scan hscan
    exact .inl ⟨fault, rfl, rfl⟩
  | ok tree =>
    dsimp only
    cases hcheck : tree.check with
    | error fault => exact .inr (.inl ⟨tree, fault, rfl, hcheck, rfl⟩)
    | ok _ => exact .inr (.inr ⟨tree, rfl, rfl⟩)

/-- What the analysis of a text as a binary tree comes to: it ends with the full reader, with the
folding or with the tree. -/
theorem analyseBinary_cases (wholeNumbers : Bool) (text : String) :
    (∃ fault, wholeNumbers = true ∧ Token.lexemes text = .error fault ∧
      postfixTokens wholeNumbers text = .error (.fault fault) ∧
      analyseBinary wholeNumbers text = ⟨none, .error (.ofFault fault (some text))⟩) ∨
    (∃ tokens fault, postfixTokens wholeNumbers text = .ok tokens ∧
      Binary.ofPostfix tokens = .error fault ∧
      analyseBinary wholeNumbers text =
        ⟨some ("Postfix: " ++ Token.line tokens), .error (.ofFault fault (some text))⟩) ∨
    ∃ tokens tree, postfixTokens wholeNumbers text = .ok tokens ∧
      Binary.ofPostfix tokens = .ok tree ∧
      analyseBinary wholeNumbers text =
        ⟨some ("Postfix: " ++ Token.line tokens), .ok (.binary tree tokens)⟩ := by
  unfold analyseBinary
  cases hout : postfixTokens wholeNumbers text with
  | error failure =>
    obtain ⟨hwhole, fault, hlexemes, rfl⟩ := Binary.exists_lexemes_of_postfixTokens hout
    exact .inl ⟨fault, hwhole, hlexemes, rfl, rfl⟩
  | ok tokens =>
    dsimp only
    cases htree : Binary.ofPostfix tokens with
    | error fault => exact .inr (.inl ⟨tokens, fault, rfl, htree, rfl⟩)
    | ok tree => exact .inr (.inr ⟨tokens, tree, rfl, htree, rfl⟩)

/-- The analysis of a text as a term tree gives one, or a fault of the scanner or of the check. -/
theorem analyseTerm_reports (wholeNumbers : Bool) (text : String) :
    (∃ tree, (analyseTerm text).result = .ok (.term tree)) ∨
    ∃ fault, (analyseTerm text).result = .error (.ofFault fault (some text)) ∧
      Strategy.term.Reports (.ofFault fault (some text)) wholeNumbers ∧
      fault.cause.IsRegular := by
  rcases analyseTerm_cases text with ⟨fault, hscan, h⟩ | ⟨tree, fault, -, hcheck, h⟩ | ⟨tree, -, h⟩
  · obtain ⟨_, heq, hkind⟩ := Term.exists_fault_of_scan hscan
    cases heq
    exact .inr ⟨fault, by rw [h], .inl hkind, Cause.isRegular_of_lineage (.inl hkind)⟩
  · have hkind := Term.Node.validation_of_check hcheck
    exact .inr ⟨fault, by rw [h], .inr hkind, Cause.isRegular_of_lineage (.inr hkind)⟩
  · exact .inl ⟨tree, by rw [h]⟩

/-- The analysis of a text as a binary tree gives one, or a fault of the reader or of the
folding. -/
theorem analyseBinary_reports (wholeNumbers : Bool) (text : String) :
    (∃ tree out, (analyseBinary wholeNumbers text).result = .ok (.binary tree out)) ∨
    ∃ fault, (analyseBinary wholeNumbers text).result = .error (.ofFault fault (some text)) ∧
      Strategy.binary.Reports (.ofFault fault (some text)) wholeNumbers ∧
      fault.cause.IsRegular := by
  rcases analyseBinary_cases wholeNumbers text with ⟨fault, rfl, hlexemes, -, h⟩ |
    ⟨out, fault, hout, htree, h⟩ | ⟨out, tree, -, -, h⟩
  · have hkind := Token.kind_of_lexemes hlexemes
    refine .inr ⟨fault, by rw [h], List.mem_append_left [FaultKind.invalidPostfix] hkind, ?_⟩
    refine Cause.isRegular_of_kind ?_ ?_ <;>
    · intro heq
      rw [heq] at hkind
      simp at hkind
  · have hrefuses := Binary.ofPostfix_eq_error_iff.1 htree
    have hkind : fault.cause.kind = .invalidPostfix := hrefuses.kind
    refine .inr ⟨fault, by rw [h], ?_, ?_, ?_⟩
    · cases wholeNumbers with
      | true => exact List.mem_append_right [_, _, _] (List.mem_singleton.2 hkind)
      | false => exact hkind
    · intro breakdown heq
      rw [heq] at hkind
      cases hkind
    · exact hrefuses.ne_unknownTokenKind (Binary.kinds_of_postfixTokens hout)
  · exact .inl ⟨tree, out, by rw [h]⟩

/-- **Under any strategy, a text has a tree or a fault of that strategy.** The fault names the text
and comes from no breakdown and from no token that folding does not know, and folding builds no node
by halves. -/
theorem analyse_reports (strategy : Strategy) (wholeNumbers : Bool) (text : String) :
    ((∃ parsed, (analyse strategy wholeNumbers (some text)).result = .ok parsed ∧
        parsed.strategyName = strategy.name) ∨
      ∃ fault d, d = Diagnostic.ofFault fault (some text) ∧
        (analyse strategy wholeNumbers (some text)).result = .error d ∧
        d.equation = some text ∧ d.code ≠ "9999" ∧ strategy.Reports d wholeNumbers ∧
        fault.cause.IsRegular) ∧
    ∀ trees token next, Binary.foldToken trees token = .ok next →
      ∃ tree, Binary.nodeOf trees token = .ok tree ∧ next.head? = some tree := by
  refine ⟨?_, fun _ _ _ => Binary.exists_nodeOf⟩
  cases strategy with
  | term =>
    rcases analyseTerm_reports wholeNumbers text with ⟨tree, h⟩ | ⟨fault, h, hreports, hregular⟩
    · exact .inl ⟨.term tree, h, rfl⟩
    · exact .inr ⟨fault, _, rfl, h, rfl, hregular.code_ne, hreports, hregular⟩
  | binary =>
    rcases analyseBinary_reports wholeNumbers text with ⟨tree, out, h⟩ |
      ⟨fault, h, hreports, hregular⟩
    · exact .inl ⟨.binary tree out, h, rfl⟩
    · exact .inr ⟨fault, _, rfl, h, rfl, hregular.code_ne, hreports, hregular⟩
  | unknown name unlisted =>
    have hregular : (Cause.unknownStrategy name).IsRegular :=
      Cause.isRegular_of_kind (by simp [Cause.kind]) (by simp [Cause.kind])
    exact .inr ⟨⟨.unknownStrategy name, none⟩, _, rfl, rfl, rfl, hregular.code_ne, ⟨rfl, rfl⟩,
      hregular⟩

theorem analyse_reports_operator :
    (∃ d, (analyse .binary false (some "1+")).result = .error d ∧ d.equation = some "1+" ∧
      d.code ≠ "9999" ∧ d.kind = .invalidPostfix) ∧
    let trees : List Binary.Expression := [.leaf "2" .number, .leaf "1" .number]
    let token : Token := ⟨"+", .operator, some 1⟩
    ∃ next tree, Binary.foldToken trees token = .ok next ∧
      Binary.nodeOf trees token = .ok tree ∧ next.head? = some tree := by
  obtain ⟨houtcome, hnodes⟩ := analyse_reports .binary false "1+"
  constructor
  · rcases houtcome with ⟨parsed, h, -⟩ | ⟨fault, d, -, h, hequation, hcode, hreports, -⟩
    · have hfault : (analyse .binary false (some "1+")).result = .error _ := rfl
      rw [hfault] at h
      cases h
    · exact ⟨d, h, hequation, hcode, hreports⟩
  · intro trees token
    obtain ⟨tree, htree, hhead⟩ := hnodes trees token _ rfl
    exact ⟨_, tree, rfl, htree, hhead⟩

end ArithTree
