import ArithTree.Proofs.Strategies
import ArithTree.Proofs.Text.Marks
import ArithTree.Proofs.Token.Conservation

/-!
# The places of the faults of a binary tree

A token keeps its place while it waits on the stack and when it goes out as an operator, so an
operator that finds no operands is reported where it stands in the text.

* `isMarked_of_lexemes` : the place of a fault of the full reader.
* `isSymbolAt_of_postfixTokens` : the place of what goes out, numbers apart.
* `isMarked_of_ofPostfix` : the place of a fault of the folding, unless it has none.
-/

namespace ArithTree

open Text

namespace Token

variable {whole : List Char}

/-! ### The full reader -/

theorem getElem?_of_drop {p : Nat} {c : Char} {rest : List Char} (h : whole.drop p = c :: rest) :
    whole[p]? = some c := by
  rw [← List.head?_drop, h, List.head?_cons]

theorem drop_of_drop_append {p : Nat} (piece : List Char) {rest : List Char}
    (h : whole.drop p = piece ++ rest) : whole.drop (p + piece.length) = rest := by
  rw [← List.drop_drop, h, List.drop_left]

theorem Reports.isMarked {kind : FaultKind} {fault : Fault} (h : Reports whole kind fault) :
    fault.IsMarked whole := by
  cases h with
  | leftmost fault =>
    refine ⟨_, rfl, ?_⟩
    cases fault with
    | unknownSymbol char | secondPoint char | unopened char => exact char
    | lonePoint isRun => exact getElem?_isRun isRun
  | unclosed _ neverClosed => exact ⟨_, rfl, neverClosed.1⟩

theorem isMarked_of_lexemes {text : String} {fault : Fault} (h : lexemes text = .error fault) :
    fault.IsMarked text.toList :=
  (reports_of_lexemes h).isMarked

/-! ### Tokens in a text -/

/-- A token that is no number stands for one character, which the text has at its place. -/
def IsSymbolAt (whole : List Char) (token : Token) : Prop :=
  ∃ (p : Nat) (c : Char), token.position = some (p : Int) ∧ whole[p]? = some c ∧
    token.value = c.toString

theorem Accepts.isSymbolAt {opened : List Nat} {p : Nat} {text : List Char} {tokens : List Token}
    (h : Accepts opened p text tokens) (htext : whole.drop p = text) :
    ∀ token ∈ tokens, token.kind ≠ .number → IsSymbolAt whole token := by
  induction h with
  | nil => simp
  | space _ ih => exact ih (drop_of_drop_append [' '] htext)
  | number _ _ _ ih =>
    exact List.forall_mem_cons.2 ⟨fun hkind => absurd rfl hkind, ih (drop_of_drop_append _ htext)⟩
  | @operator _ p c _ _ _ _ ih =>
    exact List.forall_mem_cons.2 ⟨fun _ => ⟨p, c, rfl, getElem?_of_drop htext, rfl⟩,
      ih (drop_of_drop_append [c] htext)⟩
  | @opening _ p _ _ _ ih =>
    exact List.forall_mem_cons.2 ⟨fun _ => ⟨p, '(', rfl, getElem?_of_drop htext, rfl⟩,
      ih (drop_of_drop_append ['('] htext)⟩
  | @closing _ _ p _ _ _ ih =>
    exact List.forall_mem_cons.2 ⟨fun _ => ⟨p, ')', rfl, getElem?_of_drop htext, rfl⟩,
      ih (drop_of_drop_append [')'] htext)⟩

theorem eq_ofChar_of_ofSymbol {p : Nat} {c : Char} {token : Token}
    (h : ofSymbol? p c = some token) : ∃ kind, token = ofChar kind p c := by
  unfold ofSymbol? at h
  split at h
  · cases h
    exact ⟨_, rfl⟩
  · split at h
    · cases h
      exact ⟨_, rfl⟩
    · split at h <;> cases h
      exact ⟨_, rfl⟩

theorem isSymbolAt_of_splitFrom {p : Nat} {text : List Char} (htext : whole.drop p = text) :
    ∀ token ∈ splitFrom p text, IsSymbolAt whole token := by
  induction text generalizing p with
  | nil => simp [splitFrom]
  | cons c rest ih =>
    rw [splitFrom]
    refine List.forall_mem_append.2 ⟨fun token hmem => ?_,
      ih (drop_of_drop_append [c] htext)⟩
    obtain ⟨kind, rfl⟩ := eq_ofChar_of_ofSymbol (Option.mem_toList.1 hmem)
    exact ⟨p, c, rfl, getElem?_of_drop htext, rfl⟩

theorem isSymbolAt_of_readTokens {wholeNumbers : Bool} {text : String} {tokens : List Token}
    (h : Binary.readTokens wholeNumbers text = .ok tokens) :
    ∀ token ∈ tokens, token.kind ≠ .number → IsSymbolAt text.toList token := by
  cases wholeNumbers with
  | true => exact (lexemesFrom_eq_ok_iff.1 h).isSymbolAt rfl
  | false =>
    cases h
    exact fun token hmem _ => isSymbolAt_of_splitFrom rfl token hmem

/-! ### What goes out -/

/-- What goes out, numbers apart, stands in the text. -/
theorem isSymbolAt_of_postfixTokens {wholeNumbers : Bool} {text : String} {out : List Token}
    (h : postfixTokens wholeNumbers text = .ok out) :
    ∀ token ∈ out, token.kind ≠ .number → IsSymbolAt text.toList token := by
  obtain ⟨tokens, hread, hout⟩ : ∃ tokens, Binary.readTokens wholeNumbers text = .ok tokens ∧
      toPostfix tokens = .ok out := by
    cases wholeNumbers with
    | true => exact postfixOfLexemes_eq_ok_iff.1 h
    | false => exact ⟨_, rfl, mapError_eq_ok_iff.1 h⟩
  intro token hmem hkind
  obtain ⟨source, hsource, rfl⟩ := exists_eq_sentAs hout token hmem
  have hsymbol : source.kind ≠ .number := fun hnumber =>
    hkind ((congrArg kind (sentAs_of_number hnumber)).trans hnumber)
  obtain ⟨p, c, hposition, hchar, hvalue⟩ := isSymbolAt_of_readTokens hread source hsource hsymbol
  exact ⟨p, c, (sentAs_position source).trans hposition, hchar, (sentAs_value source).trans hvalue⟩

end Token

/-! ### Folding -/

namespace Binary

open Token

theorem isMarked_of_ofPostfix {wholeNumbers : Bool} {text : String} {out : List Token}
    {fault : Fault} (hout : postfixTokens wholeNumbers text = .ok out)
    (h : ofPostfix out = .error fault) :
    fault.IsMarked text.toList ∨ ∃ n, n ≠ 1 ∧ fault = ⟨.notOneExpression n, none⟩ := by
  have hknown := fun name => (ofPostfix_eq_error_iff.1 h).ne_unknownTokenKind
    (kinds_of_postfixTokens hout) name
  cases ofPostfix_eq_error_iff.1 h with
  | @token before behind token cause _ blocks =>
    cases blocks with
    | unknown => exact absurd rfl (hknown _)
    | starved kind =>
      obtain ⟨p, c, hposition, hchar, hvalue⟩ :=
        isSymbolAt_of_postfixTokens hout token (by simp) (by simp [kind])
      exact .inl ⟨p, hposition, c, hchar, hvalue⟩
  | @count _ n _ _ ne => exact .inr ⟨n, ne, rfl⟩

end Binary

end ArithTree
