import ArithTree.Proofs.Text.Insertion
import ArithTree.Proofs.Token.Places

/-!
# Spaces in the text of tokens

One more space between the tokens of a text is skipped like any other. So the text has the same
tokens, those behind the space one character further on, and in postfix order they are the same as
well.

* `Accepts.withSpace` : a text with one more space is read in the same way.
* `lexemes_insertSpace` : the tokens of a text with one more space.
* `postfixOfLexemes_insertSpace` : and their postfix order.
-/

namespace ArithTree.Token

open Text

/-- A place is inside of a number: characters of it stand on both sides. -/
def Straddles (i : Nat) (token : Token) : Prop :=
  token.kind = .number ∧ ∃ p ∈ token.position, p < i ∧ (i : Int) < p + token.value.length

instance (i : Nat) (token : Token) : Decidable (token.Straddles i) :=
  inferInstanceAs (Decidable (_ ∧ ∃ p ∈ token.position, _))

/-- The token behind one more space at `i`. -/
def makeRoom (i : Nat) : Token → Token := move (Option.map (moved i))

theorem makeRoom_of_le {i p : Nat} (h : i ≤ p) (value : String) (kind : Kind) :
    makeRoom i ⟨value, kind, some (p : Int)⟩ = shift 1 ⟨value, kind, some (p : Int)⟩ := by
  simp [makeRoom, shift, move, moved_of_le (Int.ofNat_le.2 h)]

theorem makeRoom_of_lt {i p : Nat} (h : p < i) (value : String) (kind : Kind) :
    makeRoom i ⟨value, kind, some (p : Int)⟩ = ⟨value, kind, some (p : Int)⟩ := by
  simp [makeRoom, move, moved_of_lt (Int.ofNat_lt.2 h)]

namespace Accepts

variable {opened still : List Nat} {p i : Nat} {text : List Char} {tokens : List Token}

/-- Of the brackets that are open, only their number counts. -/
theorem of_length (h : Accepts opened p text tokens) (hlength : still.length = opened.length) :
    Accepts still p text tokens := by
  induction h generalizing still with
  | nil p => exact List.length_eq_zero_iff.1 hlength ▸ .nil p
  | space _ ih => exact .space (ih hlength)
  | number isNumeral ends _ ih => exact .number isNumeral ends (ih hlength)
  | operator isOperator _ ih => exact .operator isOperator (ih hlength)
  | opening _ ih => exact .opening (ih (congrArg Nat.succ hlength))
  | closing _ ih =>
    obtain ⟨q, still, rfl⟩ := List.exists_cons_of_length_eq_add_one hlength
    exact .closing (ih (Nat.succ.inj hlength))

theorem exists_position (h : Accepts opened p text tokens) :
    ∀ token ∈ tokens, ∃ q : Nat, p ≤ q ∧ token.position = some (q : Int) := by
  have hweaken {p k : Nat} {tokens : List Token}
      (h : ∀ token ∈ tokens, ∃ q : Nat, p + k ≤ q ∧ token.position = some (q : Int)) :
      ∀ token ∈ tokens, ∃ q : Nat, p ≤ q ∧ token.position = some (q : Int) := by
    intro token htoken
    obtain ⟨q, hq, hposition⟩ := h token htoken
    exact ⟨q, Nat.le_of_add_right_le hq, hposition⟩
  induction h with
  | nil => exact List.forall_mem_nil _
  | space _ ih => exact hweaken ih
  | number _ _ _ ih | operator _ _ ih | opening _ ih | closing _ ih =>
    exact List.forall_mem_cons.2 ⟨⟨_, Nat.le_refl _, rfl⟩, hweaken ih⟩

/-- In front of all tokens, one more space moves all of them. -/
theorem withSpace_front (h : Accepts opened p text tokens) (hi : i = p) :
    Accepts opened p (withSpace (i - p) text) (tokens.map (makeRoom i)) := by
  subst hi
  have htokens : tokens.map (makeRoom i) = tokens.map (Token.shift 1) := by
    refine List.map_congr_left fun token htoken => ?_
    obtain ⟨q, hle, hposition⟩ := h.exists_position token htoken
    obtain ⟨value, kind, position⟩ := token
    cases hposition
    exact makeRoom_of_le hle value kind
  rw [htokens, Nat.sub_self, withSpace_zero]
  exact .space ((h.shift 1).of_length (List.length_map _).symm)

/-- **A text with one more space is read in the same way**, if the space is not inside of a
number. -/
theorem withSpace (h : Accepts opened p text tokens) (hle : p ≤ i)
    (hfree : ∀ token ∈ tokens, ¬ token.Straddles i) :
    Accepts opened p (withSpace (i - p) text) (tokens.map (makeRoom i)) := by
  induction h with
  | nil p =>
    rw [withSpace_nil]
    exact .space (.nil (p + 1))
  | @space opened p rest tokens more ih =>
    rcases Nat.eq_or_lt_of_le hle with heq | hlt
    · exact more.space.withSpace_front heq.symm
    · rw [withSpace_cons hlt]
      exact .space (ih hlt hfree)
  | @number opened p numeral rest tokens isNumeral ends more ih =>
    obtain ⟨hfirst, hlater⟩ := List.forall_mem_cons.1 hfree
    rcases Nat.eq_or_lt_of_le hle with heq | hlt
    · exact (more.number isNumeral ends).withSpace_front heq.symm
    · -- The space is not inside of the numeral, so it is behind it.
      have hge : p + numeral.length ≤ i := by
        refine Nat.not_lt.1 fun hgt => hfirst ⟨rfl, p, rfl, Int.ofNat_lt.2 hlt, ?_⟩
        rw [String.length_ofList]
        exact Int.ofNat_lt.2 hgt
      rw [withSpace_append (by omega), Nat.sub_sub, List.map_cons, makeRoom_of_lt hlt]
      exact .number isNumeral (ends.withSpace _) (ih hge hlater)
  | @operator opened p c rest tokens isOperator more ih =>
    rcases Nat.eq_or_lt_of_le hle with heq | hlt
    · exact (more.operator isOperator).withSpace_front heq.symm
    · rw [withSpace_cons hlt, List.map_cons, ofChar, makeRoom_of_lt hlt]
      exact .operator isOperator (ih hlt (List.forall_mem_cons.1 hfree).2)
  | @opening opened p rest tokens more ih =>
    rcases Nat.eq_or_lt_of_le hle with heq | hlt
    · exact more.opening.withSpace_front heq.symm
    · rw [withSpace_cons hlt, List.map_cons, Token.opening, ofChar, makeRoom_of_lt hlt]
      exact .opening (ih hlt (List.forall_mem_cons.1 hfree).2)
  | @closing q opened p rest tokens more ih =>
    rcases Nat.eq_or_lt_of_le hle with heq | hlt
    · exact (more.closing (q := q)).withSpace_front heq.symm
    · rw [withSpace_cons hlt, List.map_cons, Token.closing, ofChar, makeRoom_of_lt hlt]
      exact .closing (ih hlt (List.forall_mem_cons.1 hfree).2)

end Accepts

/-- **A text with one more space has the same tokens**, those behind the space one character further
on. -/
theorem lexemes_insertSpace {text : String} {tokens : List Token} {i : Nat}
    (h : lexemes text = .ok tokens) (hfree : ∀ token ∈ tokens, ¬ token.Straddles i) :
    lexemes (insertSpace i text) = .ok (tokens.map (makeRoom i)) := by
  have haccepts := (lexemesFrom_eq_ok_iff.1 h).withSpace (Nat.zero_le i) hfree
  rw [lexemes, insertSpace, String.toList_ofList]
  exact lexemesFrom_eq_ok_iff.2 haccepts

theorem postfixOfLexemes_insertSpace {text : String} {tokens : List Token} {i : Nat}
    (h : lexemes text = .ok tokens) (hfree : ∀ token ∈ tokens, ¬ token.Straddles i) :
    postfixOfLexemes (insertSpace i text) =
      (postfixOfLexemes text).map (List.map (makeRoom i)) := by
  rw [postfixOfLexemes, lexemes_insertSpace h hfree, postfixOfLexemes, h]
  show (toPostfix (tokens.map (makeRoom i))).mapError Failure.breakdown =
    ((toPostfix tokens).mapError Failure.breakdown).map (List.map (makeRoom i))
  rw [makeRoom, toPostfix_move]
  cases toPostfix tokens <;> rfl

end ArithTree.Token
