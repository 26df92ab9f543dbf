import ArithTree.Proofs.Agreement
import ArithTree.Proofs.Term.Prefix

/-!
# The two readers of lexemes

A text is read into lexemes twice: for a term tree, where brackets become Terms, and for a binary
tree, where the full reader keeps them as tokens. `Node.marks` lists what a term tree was read from,
brackets included, so that both can be laid side by side.

* `exists_tokens_of_lexes` : the full reader follows the lexemes of a term tree one by one.
* `completes_of_accepts` : and the other way round, unless a numeral begins with its point.
* `exists_scan_iff_lexemes` : both readers accept the same texts and find the same lexemes in them.
-/

namespace ArithTree

open Token
open Term (Node Lexes Nests Nesting Placed Cursor)

/-! ### A term tree as a row of lexemes -/

namespace Term

/-- One of the lexemes that a term tree was read from. -/
inductive Mark where
  | leaf (node : Node)
  | opening (position : Int)
  /-- The tree does not keep the place of a closing bracket. -/
  | closing

mutual

/-- The lexemes of a tree from left to right: a Term is a bracket pair around its children. -/
def Node.marks : Node → List Mark
  | .mk kind payload position children =>
    if kind = .term then .opening position :: (marksAll children ++ [.closing])
    else [.leaf (.mk kind payload position children)]

/-- The lexemes of a row of trees. -/
def marksAll : List Node → List Mark
  | [] => []
  | node :: nodes => node.marks ++ marksAll nodes

end

theorem marks_leaf {node : Node} (h : node.kind ≠ .term) : node.marks = [.leaf node] := by
  obtain ⟨kind, payload, position, children⟩ := node
  rw [Node.marks]
  exact if_neg h

theorem marks_term {node : Node} (h : node.kind = .term) :
    node.marks = .opening node.position :: (marksAll node.children ++ [.closing]) := by
  obtain ⟨kind, payload, position, children⟩ := node
  rw [Node.marks]
  exact if_pos h

theorem marksAll_append (nodes more : List Node) :
    marksAll (nodes ++ more) = marksAll nodes ++ marksAll more := by
  induction nodes with
  | nil => rfl
  | cons node nodes ih => rw [List.cons_append, marksAll, marksAll, ih, List.append_assoc]

theorem mem_leavesOf {leaf : Node} {nodes : List Node} :
    leaf ∈ Node.leavesOf nodes ↔ .leaf leaf ∈ marksAll nodes := by
  fun_induction Node.leavesOf nodes with
  | case1 => simp [marksAll]
  | case2 node nodes hterm ih =>
    rw [ih, marksAll, marksAll_append, marks_term (by simpa [Node.isTerm] using hterm)]
    simp
  | case3 node nodes hterm ih =>
    rw [List.mem_cons, ih, marksAll, marks_leaf (by simpa [Node.isTerm] using hterm)]
    simp

/-- What a lexeme is in the row of a tree. -/
def Placed.mark (item : Placed) : Mark :=
  match item.leaf? with
  | some node => .leaf node
  | none => if item.lexeme = .opening then .opening item.position else .closing

theorem Placed.mark_leaf {item : Placed} {node : Node} (h : item.leaf? = some node) :
    item.mark = .leaf node := by
  rw [Placed.mark, h]

/-- The lexemes of a tree are those that nest into it. -/
theorem Nests.marks {items : List Placed} {nodes : List Node} (h : Nests items nodes) :
    items.map Placed.mark = marksAll nodes := by
  induction h with
  | nil => rfl
  | leaf isLeaf _ ih =>
    rw [List.map_cons, ih, marksAll, marks_leaf (not_term_of_leaf isLeaf), Placed.mark_leaf isLeaf]
    rfl
  | group _ _ ihInside ih =>
    rw [List.cons_append, List.map_cons, List.map_append, List.map_cons, ihInside, ih, marksAll,
      marks_term rfl, List.cons_append, List.append_assoc]
    rfl

/-- A leaf that a binary tree can have as well: no identifier and no equals sign. -/
def Node.IsBinary (leaf : Node) : Prop := leaf.kind ≠ .identifier ∧ leaf.payload ≠ .text "="

end Term

/-! ### The lexemes of both readers -/

/-- A lexeme of a term tree and a token that stand for the same characters. -/
inductive SameLexeme : Term.Mark → Token → Prop where
  | number {numeral : List Char} {d : Decimal} {p : Int} (head : ∃ c ∈ numeral.head?, c.isDigit)
    (value : Decimal.ofNumeral? numeral = some d) :
    SameLexeme (.leaf (.mk .number (.decimal d) p []))
      ⟨String.ofList numeral, .number, some p⟩
  | operator {symbol : String} {p : Int} :
    SameLexeme (.leaf (.mk .operator (.text symbol) p [])) ⟨symbol, .operator, some p⟩
  | opening {p : Int} : SameLexeme (.opening p) ⟨"(", .paren, some p⟩
  | closing {p : Int} : SameLexeme .closing ⟨")", .paren, some p⟩

/-- A number that does not begin with its point. -/
def NoLeadingPoint (token : Token) : Prop :=
  token.kind = .number → token.value.toList.head? ≠ some '.'

theorem SameLexeme.noLeadingPoint {mark : Term.Mark} {token : Token} (h : SameLexeme mark token) :
    NoLeadingPoint token := by
  intro hkind
  cases h with
  | number head =>
    obtain ⟨c, hc, hdigit⟩ := head
    rw [String.toList_ofList, show _ = some c from hc]
    intro heq
    exact Text.isDigit_ne_point hdigit (Option.some.inj heq)
  | operator => cases hkind
  | opening => cases hkind
  | closing => cases hkind

theorem noLeadingPoint_of_forall₂ {marks : List Term.Mark} {tokens : List Token}
    (h : List.Forall₂ SameLexeme marks tokens) : ∀ token ∈ tokens, NoLeadingPoint token := by
  induction h with
  | nil => simp
  | cons first _ ih => exact List.forall_mem_cons.2 ⟨first.noLeadingPoint, ih⟩

/-- The token of a lexeme. The full reader keeps the open brackets as the tree keeps its open Terms,
so there are as many of the ones as of the others, before the lexeme and behind it. -/
theorem exists_token_of_reads {a b : Cursor} {lexeme : Term.Lexeme} (h : Term.Reads a lexeme b)
    {nesting next : Nesting} (hstep : nesting.step ⟨lexeme, a.position⟩ = .ok next)
    (hbinary : ∀ leaf, Placed.mark ⟨lexeme, a.position⟩ = .leaf leaf → leaf.IsBinary)
    {opened : List Nat} (hopened : opened.length = nesting.outer.length) :
    ∃ token opened', opened'.length = next.outer.length ∧
      lexemesFrom opened a.position a.rest =
        (lexemesFrom opened' b.position b.rest).map (token :: ·) ∧
      SameLexeme (Placed.mark ⟨lexeme, a.position⟩) token := by
  cases h with
  | @opening p rest =>
    cases hstep
    exact ⟨opening p, p :: opened, congrArg (· + 1) hopened, lexemesFrom_opening, .opening⟩
  | @closing p rest =>
    obtain ⟨inner, outer⟩ := nesting
    cases outer with
    | nil => cases hstep
    | cons around outer =>
      cases hstep
      obtain ⟨q, opened, rfl⟩ := List.exists_cons_of_length_eq_add_one hopened
      exact ⟨closing p, opened, Nat.succ.inj hopened, lexemesFrom_closing, .closing⟩
  | number isNumeral head ends value =>
    cases hstep
    exact ⟨_, opened, hopened, lexemesFrom_numeral isNumeral ends, .number head value⟩
  | identifier => exact absurd rfl (hbinary _ rfl).1
  | @operator p c rest isOperator =>
    cases hstep
    have hc : Token.isOperator c := Tokenizes.isOperator_of_mem isOperator fun heq =>
      (hbinary _ rfl).2 (congrArg Term.Payload.text heq)
    exact ⟨_, opened, hopened, lexemesFrom_operator hc, .operator⟩

/-- The full reader follows the lexemes of a term tree one by one. -/
theorem exists_tokens_of_lexes {a b : Cursor} {items : List Placed} (h : Lexes a items b)
    {nesting next : Nesting} (hrun : nesting.run items = .ok next)
    (hbinary : ∀ leaf, .leaf leaf ∈ items.map Placed.mark → leaf.IsBinary)
    {opened : List Nat} (hopened : opened.length = nesting.outer.length) :
    ∃ tokens opened', opened'.length = next.outer.length ∧
      lexemesFrom opened a.position a.rest =
        (lexemesFrom opened' b.position b.rest).map (tokens ++ ·) ∧
      List.Forall₂ SameLexeme (items.map Placed.mark) tokens := by
  induction h generalizing nesting opened with
  | nil a =>
    cases hrun
    exact ⟨[], opened, hopened, (map_nil_append _).symm, .nil⟩
  | space _ ih =>
    rw [lexemesFrom_space]
    exact ih hrun hbinary hopened
  | cons first _ ih =>
    rw [Nesting.run] at hrun
    obtain ⟨mid, hstep, hmore⟩ := bind_eq_ok_iff.1 hrun
    obtain ⟨token, opened', hlength, hread, hsame⟩ := exists_token_of_reads first hstep
      (fun leaf hleaf => hbinary leaf (hleaf ▸ List.mem_cons_self)) hopened
    obtain ⟨tokens, opened'', hend, hreads, hsames⟩ :=
      ih hmore (fun leaf hleaf => hbinary leaf (List.mem_cons_of_mem _ hleaf)) hlength
    refine ⟨token :: tokens, opened'', hend, ?_, .cons hsame hsames⟩
    rw [hread, hreads]
    exact map_append_map _ [token] tokens

/-- A numeral that does not begin with its point is a lexeme of a term tree. -/
theorem exists_reads_of_isNumeral {p : Nat} {numeral rest : List Char}
    (isNumeral : Text.IsNumeral numeral) (hfirst : numeral.head? ≠ some '.')
    (ends : Text.EndsNumeral rest) :
    ∃ d, Term.Reads ⟨p, numeral ++ rest⟩ (.number d) ⟨p + numeral.length, rest⟩ := by
  obtain ⟨d, hd⟩ := Term.exists_ofNumeral isNumeral
  obtain ⟨e, he, -⟩ := isNumeral.digit
  obtain ⟨c, tail, rfl⟩ := List.exists_cons_of_ne_nil (List.ne_nil_of_mem he)
  have hdigit : c.isDigit := by
    refine (isNumeral.chars c List.mem_cons_self).resolve_right ?_
    rintro rfl
    exact hfirst rfl
  exact ⟨d, .number isNumeral ⟨c, rfl, hdigit⟩ ends hd⟩

/-- From the cursor on there are lexemes only that both readers know, and they close a number of
open Terms. -/
def Completes (depth : Nat) (a : Cursor) : Prop :=
  ∃ items b, Lexes a items b ∧ b.rest = [] ∧
    (∀ leaf, .leaf leaf ∈ items.map Placed.mark → leaf.IsBinary) ∧
    ∀ nesting : Nesting, nesting.outer.length = depth →
      ∃ next, nesting.run items = .ok next ∧ next.outer = []

namespace Completes

variable {depth p : Nat} {a b : Cursor} {lexeme : Term.Lexeme} {rest : List Char}

theorem nil : Completes 0 ⟨p, []⟩ :=
  ⟨[], _, .nil _, rfl, by simp, fun nesting h => ⟨nesting, rfl, List.length_eq_zero_iff.1 h⟩⟩

theorem space (h : Completes depth ⟨p + 1, rest⟩) : Completes depth ⟨p, ' ' :: rest⟩ := by
  obtain ⟨items, b, hlexes, hrest⟩ := h
  exact ⟨items, b, .space hlexes, hrest⟩

theorem cons (first : Term.Reads a lexeme b) (hclose : lexeme = .closing → 0 < depth)
    (hbinary : ∀ leaf, Placed.mark ⟨lexeme, a.position⟩ = .leaf leaf → leaf.IsBinary)
    (h : Completes (lexeme.depth depth) b) : Completes depth a := by
  obtain ⟨items, c, hlexes, hend, hitems, hrun⟩ := h
  refine ⟨⟨lexeme, a.position⟩ :: items, c, .cons first hlexes, hend, ?_, fun nesting hdepth => ?_⟩
  · intro leaf hleaf
    rcases List.mem_cons.1 hleaf with hleaf | hleaf
    · exact hbinary leaf hleaf.symm
    · exact hitems leaf hleaf
  · cases hstep : nesting.step ⟨lexeme, a.position⟩ with
    | error q =>
      -- Only a closing bracket outside of all Terms does not nest.
      obtain ⟨hitem, houter⟩ := Nesting.step_eq_error_iff.1 hstep
      have hpos := hclose (congrArg Placed.lexeme hitem)
      rw [← hdepth, houter] at hpos
      exact absurd hpos (Nat.lt_irrefl 0)
    | ok mid =>
      have hmid := Nesting.length_outer_step hstep
      rw [hdepth] at hmid
      rw [Nesting.run_cons hstep]
      exact hrun mid hmid

theorem number {d : Decimal} (first : Term.Reads a (.number d) b) (h : Completes depth b) :
    Completes depth a := by
  refine .cons first ?_ ?_ h
  · intro heq
    cases heq
  · rintro leaf ⟨⟩
    constructor <;> intro heq <;> cases heq

theorem operator {c : Char} (hop : isOperator c) (h : Completes depth ⟨p + 1, rest⟩) :
    Completes depth ⟨p, c :: rest⟩ := by
  refine .cons (.operator (mem_of_isOperator hop)) ?_ ?_ h
  · intro heq
    cases heq
  · rintro leaf ⟨⟩
    constructor
    · intro heq
      cases heq
    · intro heq
      rw [isOperator, Term.Payload.text.inj heq] at hop
      cases hop

theorem opening (h : Completes (depth + 1) ⟨p + 1, rest⟩) : Completes depth ⟨p, '(' :: rest⟩ := by
  refine .cons .opening ?_ ?_ h
  · intro heq
    cases heq
  · intro leaf hleaf
    cases hleaf

theorem closing (h : Completes depth ⟨p + 1, rest⟩) : Completes (depth + 1) ⟨p, ')' :: rest⟩ := by
  refine .cons .closing (fun _ => Nat.succ_pos depth) ?_ h
  intro leaf hleaf
  cases hleaf

end Completes

/-- What the full reader accepts consists of the lexemes of a term tree, unless a number begins with
its point. -/
theorem completes_of_accepts {opened : List Nat} {p : Nat} {text : List Char}
    {tokens : List Token} (h : Accepts opened p text tokens)
    (hdigits : ∀ token ∈ tokens, NoLeadingPoint token) : Completes opened.length ⟨p, text⟩ := by
  induction h with
  | nil => exact .nil
  | space _ ih => exact .space (ih hdigits)
  | number isNumeral ends _ ih =>
    obtain ⟨hfirst, hrest⟩ := List.forall_mem_cons.1 hdigits
    rw [NoLeadingPoint, String.toList_ofList] at hfirst
    obtain ⟨d, hreads⟩ := exists_reads_of_isNumeral isNumeral (hfirst rfl) ends
    exact .number hreads (ih hrest)
  | operator isOperator _ ih => exact .operator isOperator (ih (List.forall_mem_cons.1 hdigits).2)
  | opening _ ih => exact .opening (ih (List.forall_mem_cons.1 hdigits).2)
  | closing _ ih => exact .closing (ih (List.forall_mem_cons.1 hdigits).2)

/-! ### Texts -/

/-- **Both readers accept the same texts and find the same lexemes in them**, apart from what only
one of them knows: identifiers and equals signs, and numbers that begin with their point. -/
theorem exists_scan_iff_lexemes (text : String) :
    ((∃ tree, Term.scan text = .ok tree ∧ ∀ leaf ∈ tree.leaves, leaf.IsBinary) ↔
      ∃ tokens, lexemes text = .ok tokens ∧ ∀ token ∈ tokens, NoLeadingPoint token) ∧
    ∀ tree tokens, Term.scan text = .ok tree → (∀ leaf ∈ tree.leaves, leaf.IsBinary) →
      lexemes text = .ok tokens →
      List.Forall₂ SameLexeme (Term.marksAll tree.children) tokens := by
  have hforward : ∀ tree, Term.scan text = .ok tree → (∀ leaf ∈ tree.leaves, leaf.IsBinary) →
      ∃ tokens, lexemes text = .ok tokens ∧
        List.Forall₂ SameLexeme (Term.marksAll tree.children) tokens := by
    intro tree h hbinary
    obtain ⟨items, nodes, b, hlexes, hend, hnests, rfl⟩ := Term.scan_eq_ok_iff.1 h
    have hrun := Term.run_root_iff.2 ⟨nodes, rfl, hnests⟩
    have hopen : ([] : List Nat).length = Nesting.root.outer.length := rfl
    obtain ⟨tokens, opened, hopened, hread, hsame⟩ := exists_tokens_of_lexes hlexes hrun
      (fun leaf hleaf => hbinary leaf (Term.mem_leavesOf.2 (hnests.marks ▸ hleaf))) hopen
    rw [List.length_eq_zero_iff.1 hopened, hend, lexemesFrom, Except.map, List.append_nil] at hread
    exact ⟨tokens, hread, hnests.marks ▸ hsame⟩
  refine ⟨⟨?_, ?_⟩, ?_⟩
  · rintro ⟨tree, h, hbinary⟩
    obtain ⟨tokens, htokens, hsame⟩ := hforward tree h hbinary
    exact ⟨tokens, htokens, noLeadingPoint_of_forall₂ hsame⟩
  · rintro ⟨tokens, h, hdigits⟩
    obtain ⟨items, b, hlexes, hend, hbinary, hrun⟩ :=
      completes_of_accepts (lexemesFrom_eq_ok_iff.1 h) hdigits
    obtain ⟨⟨inner, outer⟩, hroot, houter⟩ := hrun .root rfl
    cases houter
    obtain ⟨nodes, -, hnests⟩ := Term.run_root_iff.1 hroot
    refine ⟨_, Term.scan_eq_ok_iff.2 ⟨items, nodes, b, hlexes, hend, hnests, rfl⟩, ?_⟩
    intro leaf hleaf
    exact hbinary leaf (hnests.marks ▸ Term.mem_leavesOf.1 hleaf)
  · intro tree tokens h hbinary htokens
    obtain ⟨others, hothers, hsame⟩ := hforward tree h hbinary
    obtain rfl := Except.ok.inj (htokens.symm.trans hothers)
    exact hsame

theorem exists_scan_iff_lexemes_group :
    let tree : Node := .term 0 [.term 0 [.mk .number (.decimal ⟨1, 0⟩) 1 [],
      .mk .operator (.text "-") 2 [], .mk .number (.decimal ⟨2, 0⟩) 3 []]]
    let tokens := [opening 0, ⟨"1", .number, some 1⟩, ofChar .operator 2 '-',
      ⟨"2", .number, some 3⟩, closing 4]
    Term.scan "(1-2)" = .ok tree ∧ lexemes "(1-2)" = .ok tokens ∧
      List.Forall₂ SameLexeme (Term.marksAll tree.children) tokens := by
  intro tree tokens
  have hminus : Text.EndsNumeral ['-', '2', ')'] := endsNumeral_of_isOperator rfl _
  have hone : Term.Reads ⟨1, ['1'] ++ ['-', '2', ')']⟩ (.number ⟨1, 0⟩)
      ⟨1 + 1, ['-', '2', ')']⟩ := .number (by decide) ⟨'1', rfl, rfl⟩ hminus rfl
  have htwo : Term.Reads ⟨3, ['2'] ++ [')']⟩ (.number ⟨2, 0⟩) ⟨3 + 1, [')']⟩ :=
    .number (by decide) ⟨'2', rfl, rfl⟩ Text.endsNumeral_closing rfl
  have hlexes : Lexes (.start "(1-2)") [⟨.opening, 0⟩, ⟨.number ⟨1, 0⟩, 1⟩, ⟨.operator '-', 2⟩,
      ⟨.number ⟨2, 0⟩, 3⟩, ⟨.closing, 4⟩] ⟨5, []⟩ :=
    .cons .opening (.cons hone (.cons (.operator (by decide)) (.cons htwo (.cons .closing
      (.nil _)))))
  have hscan : Term.scan "(1-2)" = .ok tree :=
    Term.scan_eq_ok_iff.2 ⟨_, _, _, hlexes, rfl,
      Nests.group (.leaf rfl (.leaf rfl (.leaf rfl .nil))) .nil, rfl⟩
  have hinside : Token.Reads 1 (['1'] ++ ['-', '2']) _ :=
    .append (.numeral (by decide)) (endsNumeral_of_isOperator rfl _)
      (.operator rfl (.numeral (by decide)))
  have hall : Token.Reads 0 "(1-2)".toList tokens := hinside.bracketed
  have htokens : lexemes "(1-2)" = .ok tokens := hall.lexemes
  have hbinary : ∀ leaf ∈ tree.leaves, leaf.IsBinary := by
    intro leaf hleaf
    have hmarks : Term.Mark.leaf leaf ∈ Term.marksAll tree.children := Term.mem_leavesOf.1 hleaf
    have hcases : leaf = .mk .number (.decimal ⟨1, 0⟩) 1 [] ∨
        leaf = .mk .operator (.text "-") 2 [] ∨ leaf = .mk .number (.decimal ⟨2, 0⟩) 3 [] := by
      simpa [tree, Node.term, Node.children, Term.marksAll, Node.marks] using hmarks
    rcases hcases with rfl | rfl | rfl <;> simp [Node.IsBinary, Node.kind, Node.payload]
  exact ⟨hscan, htokens, (exists_scan_iff_lexemes "(1-2)").2 tree tokens hscan hbinary htokens⟩

end ArithTree
