import ArithTree.Proofs.Binary.Listing
import ArithTree.Proofs.Text.Runs

/-!
# The text of the tokens

Each token of a text has its characters at its place, and what no token has are spaces. So the
values of the tokens tell all of a text but its spaces: they can be written with one space between
them, and are read from there again.

* `Covers` : tokens that stand in a text and leave nothing but spaces.
* `exists_lexemes_line` : the tokens of a text are read again from their values.
-/

namespace ArithTree.Token

open Text

/-! ### Places -/

/-- The text has the characters of a token at the place `p`, which the token tells. -/
structure StandsAt (text : List Char) (p : Nat) (token : Token) : Prop where
  position : token.position = some (p : Int)
  slice : (text.drop p).take token.value.length = token.value.toList

/-- What the tokens of a text have to do with its characters from the place `p` on. -/
structure Covers (text : List Char) (p : Nat) (tokens : List Token) : Prop where
  /-- Every token has its characters at its place. -/
  stands : ∀ token ∈ tokens, ∃ q, p ≤ q ∧ StandsAt text q token
  /-- The places increase. -/
  increasing : tokens.Pairwise fun a b => ∃ q r : Nat,
    a.position = some (q : Int) ∧ b.position = some (r : Int) ∧ q < r
  /-- A number is a whole run of digits and points. -/
  numbers : ∀ token ∈ tokens, token.kind = .number →
    ∃ q : Nat, token.position = some (q : Int) ∧ IsRun text q token.value.toList
  /-- A character that is in no token is a space. -/
  spaces : ∀ i c, p ≤ i → text[i]? = some c → c = ' ' ∨
    ∃ token ∈ tokens, ∃ q : Nat, token.position = some (q : Int) ∧ q ≤ i ∧
      i < q + token.value.length

namespace Covers

variable {text : List Char} {p : Nat} {tokens : List Token}

theorem nil (h : text.length ≤ p) : Covers text p [] where
  stands := nofun
  increasing := .nil
  numbers := nofun
  spaces := by
    intro i c hle hi
    rw [List.getElem?_eq_none (Nat.le_trans h hle)] at hi
    cases hi

theorem space (h : Covers text (p + 1) tokens) (char : text[p]? = some ' ') :
    Covers text p tokens where
  stands := by
    intro token hmem
    obtain ⟨q, hle, hstands⟩ := h.stands token hmem
    exact ⟨q, Nat.le_of_succ_le hle, hstands⟩
  increasing := h.increasing
  numbers := h.numbers
  spaces := by
    intro i c hle hi
    rcases Nat.eq_or_lt_of_le hle with rfl | hlt
    · exact .inl (Option.some.inj (hi.symm.trans char))
    · exact h.spaces i c hlt hi

theorem cons {token : Token} (h : Covers text (p + token.value.length) tokens)
    (hstands : StandsAt text p token) (hne : token.value ≠ "")
    (hrun : token.kind = .number → IsRun text p token.value.toList) :
    Covers text p (token :: tokens) where
  stands := by
    refine List.forall_mem_cons.2 ⟨⟨p, Nat.le_refl p, hstands⟩, fun later hmem => ?_⟩
    obtain ⟨q, hle, hlater⟩ := h.stands later hmem
    exact ⟨q, Nat.le_of_add_right_le hle, hlater⟩
  increasing := by
    refine .cons (fun later hmem => ?_) h.increasing
    obtain ⟨q, hle, hlater⟩ := h.stands later hmem
    have hlength : 0 < token.value.length := by
      rw [← String.length_toList]
      exact List.length_pos_iff.2 fun hnil => hne (String.toList_eq_nil_iff.1 hnil)
    exact ⟨p, q, hstands.position, hlater.position, by omega⟩
  numbers := List.forall_mem_cons.2
    ⟨fun hkind => ⟨p, hstands.position, hrun hkind⟩, h.numbers⟩
  spaces := by
    intro i c hle hi
    rcases Nat.lt_or_ge i (p + token.value.length) with hlt | hge
    · exact .inr ⟨token, List.mem_cons_self, p, hstands.position, hle, hlt⟩
    · refine (h.spaces i c hge hi).imp_right fun ⟨other, hmem, hother⟩ => ?_
      exact ⟨other, List.mem_cons_of_mem token hmem, hother⟩

end Covers

theorem standsAt_of_split {text before rest : List Char} {p : Nat} {token : Token}
    (position : token.position = some (p : Int)) (hp : before.length = p)
    (hsplit : before ++ (token.value.toList ++ rest) = text) : StandsAt text p token where
  position := position
  slice := by rw [← hsplit, ← hp, List.drop_left, ← String.length_toList, List.take_left]

theorem toList_ofChar (kind : Kind) (p : Nat) (c : Char) :
    (ofChar kind p c).value.toList = [c] := by
  simp [ofChar]

theorem Covers.symbol {text before rest : List Char} {p : Nat} {c : Char} {kind : Kind}
    {tokens : List Token} (h : Covers text (p + 1) tokens) (hkind : kind ≠ .number)
    (hp : before.length = p) (hsplit : before ++ c :: rest = text) :
    Covers text p (ofChar kind p c :: tokens) := by
  have hlength : (ofChar kind p c).value.length = 1 := by simp [ofChar]
  have hstands : StandsAt text p (ofChar kind p c) :=
    standsAt_of_split rfl hp (by rw [toList_ofChar]; exact hsplit)
  refine .cons (hlength ▸ h) hstands ?_ fun hnumber => absurd hnumber hkind
  intro hempty
  rw [hempty] at hlength
  cases hlength

/-- The tokens of a text cover it. -/
theorem Accepts.covers {whole before text : List Char} {opened : List Nat} {p : Nat}
    {tokens : List Token} (h : Accepts opened p text tokens) (hsplit : before ++ text = whole)
    (hp : before.length = p)
    (hfresh : before.rtakeWhile isNumeralChar = [] ∨ EndsNumeral text) : Covers whole p tokens := by
  -- Behind a symbol, no digit or point is right before the reader.
  have hsymbol : ∀ {before : List Char} {c : Char}, ¬ InNumeral c →
      (before ++ [c]).rtakeWhile isNumeralChar = [] := fun hc =>
    List.rtakeWhile_concat_neg _ _ _ (mt isNumeralChar_iff.1 hc)
  induction h generalizing before with
  | nil p =>
    rw [List.append_nil] at hsplit
    exact .nil (Nat.le_of_eq (hsplit ▸ hp))
  | @space _ p rest _ _ ih =>
    have hnext := ih ((List.append_assoc before [' '] rest).trans hsplit) (by simp [hp])
      (.inl (hsymbol (by simp [InNumeral])))
    refine hnext.space ?_
    rw [← hsplit, ← hp]
    simp
  | @number _ p numeral rest _ isNumeral ends _ ih =>
    have hnext := ih ((List.append_assoc before numeral rest).trans hsplit) (by simp [hp])
      (.inr ends)
    have hbefore := hfresh.resolve_right (isNumeral.not_endsNumeral rest)
    have hrun := isRun_append hbefore isNumeral.ne_nil isNumeral.chars ends
    rw [hsplit, hp] at hrun
    have hvalue : (String.ofList numeral).toList = numeral := String.toList_ofList
    have hlength : (String.ofList numeral).length = numeral.length := by
      rw [← String.length_toList, hvalue]
    refine .cons (hlength ▸ hnext) (standsAt_of_split rfl hp (by rw [hvalue, hsplit])) ?_
      fun _ => by rwa [hvalue]
    simpa using isNumeral.ne_nil
  | @operator _ p c rest _ isOperator _ ih =>
    have hc := endsNumeral_cons.1 (endsNumeral_of_isOperator isOperator rest)
    have hnext := ih ((List.append_assoc before [c] rest).trans hsplit) (by simp [hp])
      (.inl (hsymbol hc))
    exact hnext.symbol (by decide) hp hsplit
  | @opening _ p rest _ _ ih =>
    have hnext := ih ((List.append_assoc before ['('] rest).trans hsplit) (by simp [hp])
      (.inl (hsymbol (by simp [InNumeral])))
    exact hnext.symbol (by decide) hp hsplit
  | @closing _ _ p rest _ _ ih =>
    have hnext := ih ((List.append_assoc before [')'] rest).trans hsplit) (by simp [hp])
      (.inl (hsymbol (by simp [InNumeral])))
    exact hnext.symbol (by decide) hp hsplit

/-! ### Values -/

/-- The values of further tokens in a line, each with a space in front. -/
def spaced : List Token → List Char
  | [] => []
  | token :: tokens => ' ' :: (line (token :: tokens)).toList

theorem toList_line_cons (token : Token) (tokens : List Token) :
    (line (token :: tokens)).toList = token.value.toList ++ spaced tokens := by
  cases tokens with
  | nil => simp [line, spaced]
  | cons next tokens =>
    rw [line, List.map_cons, List.map_cons, String.intercalate_cons_cons, String.toList_append,
      String.toList_append, List.append_assoc]
    rfl

theorem endsNumeral_spaced (tokens : List Token) : EndsNumeral (spaced tokens) := by
  cases tokens with
  | nil => exact endsNumeral_nil
  | cons token tokens => exact endsNumeral_space

/-- From any place on and behind any brackets as many as the given ones, the tokens are read from
their values again. -/
def Rereads (opened : List Nat) (text : List Char) (tokens : List Token) : Prop :=
  ∀ still q, still.length = opened.length →
    ∃ again, Accepts still q text again ∧ again.map unplaced = tokens.map unplaced

theorem Rereads.spaced {opened : List Nat} {tokens : List Token}
    (h : Rereads opened (line tokens).toList tokens) : Rereads opened (spaced tokens) tokens := by
  intro still q hlength
  cases tokens with
  | nil => exact h still q hlength
  | cons token tokens =>
    obtain ⟨again, haccepts, hsame⟩ := h still (q + 1) hlength
    exact ⟨again, .space haccepts, hsame⟩

theorem Accepts.rereads {opened : List Nat} {p : Nat} {text : List Char} {tokens : List Token}
    (h : Accepts opened p text tokens) : Rereads opened (line tokens).toList tokens := by
  intro still q hlength
  induction h generalizing still q with
  | nil =>
    obtain rfl : still = [] := List.length_eq_zero_iff.1 hlength
    exact ⟨[], .nil q, rfl⟩
  | space _ ih => exact ih still q hlength
  | @number _ p numeral rest tokens isNumeral ends _ ih =>
    obtain ⟨again, haccepts, hsame⟩ := Rereads.spaced ih still (q + numeral.length) hlength
    rw [toList_line_cons, String.toList_ofList]
    refine ⟨_, .number isNumeral (endsNumeral_spaced tokens) haccepts, ?_⟩
    rw [List.map_cons, List.map_cons, hsame]
    rfl
  | @operator _ p c rest tokens isOperator _ ih =>
    obtain ⟨again, haccepts, hsame⟩ := Rereads.spaced ih still (q + 1) hlength
    rw [toList_line_cons, toList_ofChar]
    refine ⟨_, .operator isOperator haccepts, ?_⟩
    rw [List.map_cons, List.map_cons, hsame]
    rfl
  | @opening _ p rest tokens _ ih =>
    obtain ⟨again, haccepts, hsame⟩ :=
      Rereads.spaced ih (q :: still) (q + 1) (congrArg Nat.succ hlength)
    rw [toList_line_cons, Token.opening, toList_ofChar]
    refine ⟨_, .opening haccepts, ?_⟩
    rw [List.map_cons, List.map_cons, hsame]
    rfl
  | @closing _ _ p rest tokens _ ih =>
    obtain ⟨r, still, rfl⟩ := List.exists_cons_of_length_eq_add_one hlength
    obtain ⟨again, haccepts, hsame⟩ := Rereads.spaced ih still (q + 1) (Nat.succ.inj hlength)
    rw [toList_line_cons, Token.closing, toList_ofChar]
    refine ⟨_, .closing haccepts, ?_⟩
    rw [List.map_cons, List.map_cons, hsame]
    rfl

/-- The tokens of a text, written with one space between them, are read again at other places. -/
theorem exists_lexemes_line {text : String} {tokens : List Token} (h : lexemes text = .ok tokens) :
    ∃ again, lexemes (line tokens) = .ok again ∧ again.map unplaced = tokens.map unplaced := by
  obtain ⟨again, haccepts, hsame⟩ := (lexemesFrom_eq_ok_iff.1 h).rereads [] 0 rfl
  exact ⟨again, lexemesFrom_eq_ok_iff.2 haccepts, hsame⟩

end ArithTree.Token
