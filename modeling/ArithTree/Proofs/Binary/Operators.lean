import ArithTree.Proofs.Binary.Postfix
import ArithTree.Proofs.Token.Faults
import ArithTree.Proofs.Token.OpenBrackets

/-!
# The operators of a binary tree

The nodes of a tree are the tokens that it was folded from. The full reader lets only binary
operators become inner nodes. The simple one reports no bracket, so each opening bracket that is
never closed is an inner node as well; such a text has a tree only if it has the numbers for it.

* `postfixTokens_perm` : what either reader hands to the folding.
* `operators_of_analyse` : the inner nodes of the trees of both readers.
* `not_operators_of_analyse` : an opening bracket as an inner node.
-/

namespace ArithTree.Binary

open Text Token

/-! ### What is folded -/

/-- The tokens of a text in their order, read lexeme by lexeme or symbol by symbol. -/
def readTokens (wholeNumbers : Bool) (text : String) : Except Fault (List Token) :=
  if wholeNumbers then lexemes text else .ok (split text)

theorem isFlat_of_balanced {tokens : List Token} (h : Balanced tokens) :
    ∀ token ∈ unbracketed tokens, IsFlat token := by
  induction h with
  | nil => simp [unbracketed]
  | @flat token tokens isFlat _ ih =>
    have hkind : token.kind ≠ .paren := by
      rcases isFlat with hkind | ⟨own, binds⟩
      · simp [hkind]
      · simp [binds.kind]
    rw [unbracketed_cons hkind, List.forall_mem_cons]
    exact ⟨isFlat, ih⟩
  | group _ _ ihInside ih =>
    rw [unbracketed_group, List.forall_mem_append]
    exact ⟨ihInside, ih⟩

theorem isFlat_of_ofSymbol {p : Nat} {c : Char} {token : Token} (h : ofSymbol? p c = some token)
    (hkind : token.kind ≠ .paren) : IsFlat token := by
  unfold ofSymbol? at h
  split at h
  · cases h
    exact .inl rfl
  · split at h
    · next hop =>
      cases h
      exact .inr (exists_binds hop p)
    · split at h
      · cases h
        exact absurd rfl hkind
      · cases h

theorem isFlat_of_splitFrom {p : Nat} {text : List Char} :
    ∀ token ∈ unbracketed (splitFrom p text), IsFlat token := by
  induction text generalizing p with
  | nil => simp [splitFrom, unbracketed]
  | cons c text ih =>
    intro token hmem
    rw [splitFrom, unbracketed_append, List.mem_append] at hmem
    rcases hmem with hmem | hmem
    · simp only [unbracketed, List.mem_filter, decide_eq_true_eq, Option.mem_toList] at hmem
      exact isFlat_of_ofSymbol hmem.1 hmem.2
    · exact ih token hmem

theorem isFlat_of_readTokens {wholeNumbers : Bool} {text : String} {tokens : List Token}
    (h : readTokens wholeNumbers text = .ok tokens) :
    ∀ token ∈ unbracketed tokens, IsFlat token := by
  cases wholeNumbers with
  | true => exact isFlat_of_balanced (balanced_of_lexemes h)
  | false =>
    cases h
    exact isFlat_of_splitFrom

theorem unclosed_of_lexemes {text : String} {tokens : List Token} (h : lexemes text = .ok tokens) :
    unclosed 0 text.toList = 0 :=
  (faultFree_of_lexemes h).2.unclosed 0

/-- What goes out is what was read without the brackets, and the brackets that are never closed. -/
theorem postfixTokens_perm {wholeNumbers : Bool} {text : String} {out : List Token}
    (h : postfixTokens wholeNumbers text = .ok out) :
    ∃ (tokens : List Token) (left : List Nat), readTokens wholeNumbers text = .ok tokens ∧
      left.length = unclosed 0 text.toList ∧ out.Perm (unbracketed tokens ++ left.map loose) := by
  cases wholeNumbers with
  | true =>
    obtain ⟨tokens, hlexemes, hout⟩ := postfixOfLexemes_eq_ok_iff.1 h
    refine ⟨tokens, [], hlexemes, (unclosed_of_lexemes hlexemes).symm, ?_⟩
    rw [List.map_nil, List.append_nil]
    exact (balanced_of_lexemes hlexemes).toPostfix_perm hout
  | false =>
    obtain ⟨sent, left, hsent, hleft, hperm⟩ := exists_toPostfix_split text
    have hout : toPostfix (split text) = .ok out := mapError_eq_ok_iff.1 h
    cases hsent.symm.trans hout
    exact ⟨split text, left, rfl, hleft, hperm⟩

/-! ### The nodes of a tree -/

theorem Proper.entry {tree : Expression} (h : Proper tree) : ∀ entry ∈ postorder tree,
    (entry.isLeaf = true ∧ entry.kind = .number) ∨
      (entry.isLeaf = false ∧ entry.kind = .operator) := by
  induction h with
  | leaf value => simp [postorder]
  | branch value _ _ ihLeft ihRight =>
    intro entry hmem
    simp only [postorder, List.mem_append, List.mem_singleton] at hmem
    rcases hmem with (hmem | hmem) | rfl
    · exact ihLeft entry hmem
    · exact ihRight entry hmem
    · exact .inr ⟨rfl, rfl⟩

theorem proper_of_ofPostfix {tokens : List Token} {tree : Expression}
    (h : ofPostfix tokens = .ok tree) : Proper tree :=
  foldTokens_proper (ofPostfix_eq_ok_iff.1 h) (by simp) tree List.mem_cons_self

/-- An inner node with the value of an opening bracket. -/
def Entry.isBracket (entry : Entry) : Bool := !entry.isLeaf && entry.value = "("

/-- An operator with the value of an opening bracket. -/
def isLoose (token : Token) : Bool := token.kind = .operator && token.opens

/-- The bracket nodes of a tree are the bracket tokens that it was folded from. -/
theorem countP_isBracket {tokens : List Token} {tree : Expression}
    (h : ofPostfix tokens = .ok tree) :
    tree.listing.countP Entry.isBracket = tokens.countP isLoose := by
  have hproper := proper_of_ofPostfix h
  have hlisted := toTokens_ofPostfix h
  rw [toTokens_eq] at hlisted
  have hentry : (postorder tree).countP Entry.isBracket =
      (postorder tree).countP (isLoose ∘ Entry.token) := by
    refine List.countP_congr fun entry hmem => ?_
    rcases hproper.entry entry hmem with ⟨hleaf, hkind⟩ | ⟨hleaf, hkind⟩
    · simp [Entry.isBracket, isLoose, Entry.token, hleaf, hkind]
    · simp [Entry.isBracket, isLoose, Entry.token, opens, hleaf, hkind]
  have htoken : tokens.countP isLoose = (tokens.map unplaced).countP isLoose := by
    rw [List.countP_map]
    rfl
  rw [listing_eq_postorder, hentry, ← List.countP_map, hlisted, htoken]

theorem not_isLoose_of_isFlat {token : Token} (h : IsFlat token) : isLoose token = false := by
  rcases h with hkind | ⟨own, binds⟩
  · simp [isLoose, hkind]
  · simp [isLoose, binds.not_opens]

theorem countP_isLoose {tokens : List Token} (h : ∀ token ∈ unbracketed tokens, IsFlat token)
    (left : List Nat) :
    (unbracketed tokens ++ left.map loose).countP isLoose = left.length := by
  have hflat : (unbracketed tokens).countP isLoose = 0 := by
    rw [List.countP_eq_zero]
    intro token hmem
    simp [not_isLoose_of_isFlat (h token hmem)]
  have hloose : ∀ token ∈ left.map loose, isLoose token = true := by
    intro token hmem
    obtain ⟨p, -, rfl⟩ := List.mem_map.1 hmem
    rfl
  rw [List.countP_append, hflat, List.countP_eq_length.2 hloose, List.length_map, Nat.zero_add]

/-- The values of inner nodes. -/
theorem mem_of_binds {own : Nat} {token : Token} (h : Binds own token) :
    token.value ∈ ["+", "-", "*", "/"] := by
  have hsome := h.precedence
  unfold precedence? at hsome
  split at hsome <;> simp_all

/-! ### Texts -/

/-- What goes out has one more number than operators, the brackets that are never closed among them,
if it has a tree. -/
theorem numbers_eq_of_perm {tokens out : List Token} {left : List Nat} {tree : Expression}
    (hperm : out.Perm (unbracketed tokens ++ left.map loose)) (htree : ofPostfix out = .ok tree) :
    countOf .number tokens = countOf .operator tokens + left.length + 1 := by
  have hlength := foldTokens_length (ofPostfix_eq_ok_iff.1 htree)
  have hnumbers : (left.map loose).countP (·.kind = .number) = 0 := by
    simp [List.countP_map, Function.comp_def, loose]
  have hoperators : (left.map loose).countP (·.kind = .operator) = left.length := by
    simp [List.countP_map, Function.comp_def, loose]
  rw [countOf, countOf, hperm.countP_eq, hperm.countP_eq, List.countP_append, List.countP_append,
    hnumbers, hoperators, ← countOf, ← countOf, countOf_unbracketed (by simp),
    countOf_unbracketed (by simp), List.length_singleton, List.length_nil] at hlength
  omega

theorem value_of_perm {tokens out : List Token} {left : List Nat} {token : Token}
    (hflat : ∀ token ∈ unbracketed tokens, IsFlat token)
    (hperm : out.Perm (unbracketed tokens ++ left.map loose)) (hmem : token ∈ out)
    (hkind : token.kind = .operator) : token.value ∈ ["+", "-", "*", "/"] ∨ token.value = "(" := by
  rcases List.mem_append.1 (hperm.mem_iff.1 hmem) with hmem | hmem
  · rcases hflat token hmem with hnumber | ⟨own, binds⟩
    · rw [hkind] at hnumber
      cases hnumber
    · exact .inl (mem_of_binds binds)
  · obtain ⟨p, -, rfl⟩ := List.mem_map.1 hmem
    exact .inr rfl

/-- **The nodes of the trees of both readers.** Leaves are numbers and inner nodes are operators,
but each opening bracket of the text that is never closed is an inner node as well. A text with such
a bracket is refused by the full reader; with the simple one it is refused by the folding unless its
numbers outweigh its operators and these brackets. -/
theorem operators_of_analyse (wholeNumbers : Bool) (text : String) :
    (∀ tree out, (analyse .binary wholeNumbers (some text)).result = .ok (.binary tree out) →
      (∀ entry ∈ tree.listing, (entry.isLeaf = true ∧ entry.kind = .number) ∨
        (entry.isLeaf = false ∧ entry.kind = .operator ∧
          (entry.value ∈ ["+", "-", "*", "/"] ∨ entry.value = "("))) ∧
      tree.listing.countP Entry.isBracket = unclosed 0 text.toList) ∧
    (wholeNumbers = true → 0 < unclosed 0 text.toList →
      ∃ fault, lexemes text = .error fault ∧
        (analyse .binary wholeNumbers (some text)).result = .error (.ofFault fault (some text))) ∧
    (wholeNumbers = false → 0 < unclosed 0 text.toList →
      countOf .number (split text) ≠
        countOf .operator (split text) + unclosed 0 text.toList + 1 →
      ∃ fault, fault.cause.kind = .invalidPostfix ∧
        (analyse .binary wholeNumbers (some text)).result =
          .error (.ofFault fault (some text))) := by
  refine ⟨?_, ?_, ?_⟩
  · intro tree out h
    obtain ⟨_, _, hout, htree, heq⟩ := analyse_binary_eq_ok_iff.1 h
    cases heq
    obtain ⟨tokens, left, htokens, hleft, hperm⟩ := postfixTokens_perm hout
    have hflat := isFlat_of_readTokens htokens
    refine ⟨?_, ?_⟩
    · intro entry hmem
      rw [listing_eq_postorder] at hmem
      rcases (proper_of_ofPostfix htree).entry entry hmem with hleaf | ⟨hleaf, hkind⟩
      · exact .inl hleaf
      · -- An inner node is one of the tokens that went out, without its place.
        have hlisted : entry.token ∈ out.map unplaced := by
          rw [← toTokens_ofPostfix htree, toTokens_eq]
          exact List.mem_map_of_mem hmem
        obtain ⟨token, htoken, heq⟩ := List.mem_map.1 hlisted
        obtain ⟨hvalue, hsame, -⟩ := Token.mk.inj heq
        refine .inr ⟨hleaf, hkind, ?_⟩
        rw [← hvalue]
        exact value_of_perm hflat hperm htoken (hsame.trans hkind)
    · rw [countP_isBracket htree, hperm.countP_eq, countP_isLoose hflat, hleft]
  · rintro rfl hopen
    cases hlexemes : lexemes text with
    | ok tokens =>
      rw [unclosed_of_lexemes hlexemes] at hopen
      exact absurd hopen (Nat.lt_irrefl 0)
    | error fault =>
      refine ⟨fault, rfl, ?_⟩
      simp [analyse, analyseBinary, postfixTokens, postfixOfLexemes, hlexemes, Except.mapError,
        Except.bind, Outcome.failed, Failure.diagnostic]
  · rintro rfl hopen hcount
    obtain ⟨out, left, hsplit, hleft, hperm⟩ := exists_toPostfix_split text
    have hout : postfixTokens false text = .ok out := mapError_eq_ok_iff.2 hsplit
    cases htree : ofPostfix out with
    | ok tree =>
      have hnumbers := numbers_eq_of_perm hperm htree
      rw [hleft] at hnumbers
      exact absurd hnumbers hcount
    | error fault =>
      refine ⟨fault, (ofPostfix_eq_error_iff.1 htree).kind, ?_⟩
      simp only [analyse, analyseBinary, hout, htree]

theorem operators_of_analyse_brackets :
    (∃ tree out, (analyse .binary false (some "1(2")).result = .ok (.binary tree out) ∧
      tree.listing.countP Entry.isBracket = unclosed 0 "1(2".toList) ∧
    (∃ fault, lexemes "1(2" = .error fault ∧
      (analyse .binary true (some "1(2")).result = .error (.ofFault fault (some "1(2"))) ∧
    ∃ fault, fault.cause.kind = .invalidPostfix ∧
      (analyse .binary false (some "(1+2")).result = .error (.ofFault fault (some "(1+2")) := by
  refine ⟨⟨_, _, rfl, ?_⟩, ?_, ?_⟩
  · exact ((operators_of_analyse false "1(2").1 _ _ rfl).2
  · exact (operators_of_analyse true "1(2").2.1 rfl (by decide)
  · exact (operators_of_analyse false "(1+2").2.2 rfl (by decide) (by decide)

/-- An opening bracket between two numbers becomes their operator. -/
theorem not_operators_of_analyse :
    ¬ ∀ wholeNumbers text tree out,
      (analyse .binary wholeNumbers (some text)).result = .ok (.binary tree out) →
      ∀ entry ∈ tree.listing, entry.isLeaf = false → entry.value ∈ ["+", "-", "*", "/"] := by
  intro hall
  have hbracket := hall false "1(2"
    (.branch "(" .operator (.leaf "1" .number) (.leaf "2" .number)) _ rfl ⟨"(", .operator, false⟩
  rw [listing_eq_postorder] at hbracket
  exact absurd (hbracket (by simp [postorder]) rfl) (by decide)

end ArithTree.Binary
