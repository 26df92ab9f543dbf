import Mathlib.Data.List.Forall2
import ArithTree.Proofs.Binary.Infix
import ArithTree.Proofs.Binary.Subtree
import ArithTree.Proofs.Term.Grammar

/-!
# The two strategies agree

A term tree without identifiers and equals signs has a binary tree beside it, with the same leaves
in the same order. The two are read by different readers and built with different stacks, so they
are compared by way of the tokens: `Matches` relates a row of nodes to the tokens of the same text.

* `exists_matches_of_nests` : both readers find the same lexemes.
* `Matches.alternates`, `Matches.sameLeaves`, `Matches.enclosed` : what is said of the nodes can be
  said of the tokens.
* `exists_binary_of_term` : the agreement of the trees.
-/

namespace ArithTree

open Binary Token
open Term (Node Turn Nests Lexes Spaces Cursor)

/-! ### Nodes and tokens -/

/-- A row of nodes and the tokens of the same text. -/
inductive Matches : List Node → List Token → Prop where
  | nil : Matches [] []
  | number {numeral : List Char} {d : Decimal} {p : Int} {q : Nat} {nodes : List Node}
    {tokens : List Token} (value : Decimal.ofNumeral? numeral = some d)
    (more : Matches nodes tokens) :
    Matches (.mk .number (.decimal d) p [] :: nodes)
      (⟨String.ofList numeral, .number, some q⟩ :: tokens)
  | operator {c : Char} {own : Nat} {p : Int} {q : Nat} {nodes : List Node} {tokens : List Token}
    (binds : Binds own (ofChar .operator q c)) (more : Matches nodes tokens) :
    Matches (.mk .operator (.text c.toString) p [] :: nodes) (ofChar .operator q c :: tokens)
  | group {p : Int} {q r : Nat} {children nodes : List Node} {inner tokens : List Token}
    (inside : Matches children inner) (more : Matches nodes tokens) :
    Matches (.term p children :: nodes) (opening q :: inner ++ closing r :: tokens)

/-- A leaf of a term tree and a node of a binary tree that stand for the same lexeme. -/
inductive SameLeaf : Entry → Node → Prop where
  | number {numeral : List Char} {d : Decimal} {p : Int}
    (value : Decimal.ofNumeral? numeral = some d) :
    SameLeaf ⟨String.ofList numeral, .number, true⟩ (.mk .number (.decimal d) p [])
  | operator {symbol : String} {p : Int} :
    SameLeaf ⟨symbol, .operator, false⟩ (.mk .operator (.text symbol) p [])

namespace Matches

variable {nodes : List Node} {tokens : List Token}

theorem sameLeaves (h : Matches nodes tokens) :
    List.Forall₂ SameLeaf (entriesOf tokens) (Node.leavesOf nodes) := by
  induction h with
  | nil =>
    rw [Node.leavesOf]
    exact .nil
  | number value _ ih =>
    rw [Term.leavesOf_leaf (by simp [Node.kind]), entriesOf, unbracketed_cons (by simp)]
    exact .cons (.number value) ih
  | operator binds _ ih =>
    rw [Term.leavesOf_leaf (by simp [Node.kind]), entriesOf,
      unbracketed_cons (by simp [binds.kind])]
    exact .cons .operator ih
  | group _ _ ihInside ih =>
    rw [Term.leavesOf_term rfl, entriesOf, unbracketed_group, List.map_append]
    exact List.rel_append ihInside ih

theorem alternates (h : Matches nodes tokens) {turn : Turn} (hnodes : Term.Alternates turn nodes) :
    Binary.Alternates turn tokens := by
  induction h generalizing turn with
  | nil =>
    cases hnodes
    exact .done
  | number _ _ ih =>
    cases hnodes with
    | operator kind => cases kind
    | leaf _ more => exact .number rfl (ih more)
    | group kind => cases kind
  | operator binds _ ih =>
    cases hnodes with
    | operator _ more => exact .operator binds (ih more)
    | leaf kind => simp [Node.kind] at kind
    | group kind => cases kind
  | group _ _ ihInside ih =>
    cases hnodes with
    | operator kind => cases kind
    | leaf kind => simp [Node.term, Node.kind] at kind
    | group _ inside more => exact .group (ihInside inside) (ih more)

/-- The bracket pair of a Term. -/
theorem of_mem {node : Node} (h : Matches nodes tokens) (hmem : node ∈ nodes)
    (hterm : node.isTerm) : ∃ before q inside r behind,
      tokens = before ++ (opening q :: inside ++ [closing r]) ++ behind ∧
        Matches node.children inside := by
  induction h with
  | nil => cases hmem
  | number _ _ ih =>
    rcases List.mem_cons.1 hmem with rfl | hmem
    · cases hterm
    · obtain ⟨before, q, inside, r, behind, rfl, hinside⟩ := ih hmem
      exact ⟨_ :: before, q, inside, r, behind, rfl, hinside⟩
  | operator _ _ ih =>
    rcases List.mem_cons.1 hmem with rfl | hmem
    · cases hterm
    · obtain ⟨before, q, inside, r, behind, rfl, hinside⟩ := ih hmem
      exact ⟨_ :: before, q, inside, r, behind, rfl, hinside⟩
  | @group p q r children nodes inner tokens inside _ _ ih =>
    rcases List.mem_cons.1 hmem with rfl | hmem
    · exact ⟨[], q, inner, r, tokens, by simp, inside⟩
    · obtain ⟨before, q', inside', r', behind, rfl, hinside⟩ := ih hmem
      exact ⟨opening q :: inner ++ closing r :: before, q', inside', r', behind, by simp, hinside⟩

theorem enclosed {outer inner : Node} (h : Matches outer.children tokens)
    (hencloses : Term.Encloses outer inner) : ∃ before q inside r behind,
      tokens = before ++ (opening q :: inside ++ [closing r]) ++ behind ∧
        Matches inner.children inside := by
  induction hencloses generalizing tokens with
  | child isTerm mem => exact h.of_mem mem isTerm
  | deeper isTerm mem _ ih =>
    obtain ⟨before, q, inside, r, behind, rfl, hinside⟩ := h.of_mem mem isTerm
    obtain ⟨before', q', inside', r', behind', rfl, hinner⟩ := ih hinside
    exact ⟨before ++ opening q :: before', q', inside', r', behind' ++ closing r :: behind,
      by simp, hinner⟩

end Matches

/-! ### The two readers -/

/-- Between two cursors the full reader finds the given tokens, and leaves the opened brackets as
they were. -/
def Tokenizes (a : Cursor) (tokens : List Token) (b : Cursor) : Prop :=
  ∀ opened, lexemesFrom opened a.position a.rest =
    (lexemesFrom opened b.position b.rest).map (tokens ++ ·)

namespace Tokenizes

variable {a b c : Cursor} {tokens more : List Token}

theorem nil (a : Cursor) : Tokenizes a [] a := by
  intro opened
  cases lexemesFrom opened a.position a.rest <;> rfl

theorem trans (h : Tokenizes a tokens b) (hmore : Tokenizes b more c) :
    Tokenizes a (tokens ++ more) c := by
  intro opened
  rw [h, hmore, map_append_map]

theorem of_spaces (h : Spaces a b) : Tokenizes a [] b := by
  induction h with
  | nil a => exact nil a
  | cons _ ih =>
    intro opened
    rw [lexemesFrom_space, ih]

theorem isOperator_of_mem {c : Char} (h : c ∈ Text.operatorSymbols) (hne : c.toString ≠ "=") :
    isOperator c := by
  have hall : Text.operatorSymbols.all fun c => c.toString = "=" ∨ isOperator c := by decide
  exact (of_decide_eq_true (List.all_eq_true.1 hall c h)).resolve_left hne

/-- A number or a binary operator of a term tree is one of a binary tree as well. -/
theorem of_reads {item : Term.Placed} {node : Node} (h : Term.Reads a item.lexeme b)
    (hp : item.position = a.position) (hleaf : item.leaf? = some node)
    (hnode : node.kind ≠ .identifier ∧ node.payload ≠ .text "=") :
    ∃ token, Tokenizes a [token] b ∧
      ∀ {nodes tokens}, Matches nodes tokens → Matches (node :: nodes) (token :: tokens) := by
  obtain ⟨lexeme, p⟩ := item
  cases h with
  | opening => cases hleaf
  | closing => cases hleaf
  | number isNumeral _ ends value =>
    cases hleaf
    exact ⟨_, fun _ => lexemesFrom_numeral isNumeral ends, fun h => .number value h⟩
  | identifier =>
    cases hleaf
    exact absurd rfl hnode.1
  | @operator q c rest isOperator =>
    cases hleaf
    have hc : Token.isOperator c :=
      isOperator_of_mem isOperator fun h => hnode.2 (congrArg Term.Payload.text h)
    obtain ⟨own, hbinds⟩ := exists_binds hc q
    exact ⟨_, fun _ => lexemesFrom_operator hc, fun h => .operator hbinds h⟩

/-- A bracket pair around a text that leaves the opened brackets as they were. -/
theorem bracketed {p q : Nat} {inside rest : List Char}
    (h : Tokenizes ⟨p + 1, inside⟩ tokens ⟨q, ')' :: rest⟩) :
    Tokenizes ⟨p, '(' :: inside⟩ (opening p :: tokens ++ [closing q]) ⟨q + 1, rest⟩ := by
  intro opened
  rw [lexemesFrom_opening, h, lexemesFrom_closing]
  dsimp only
  cases lexemesFrom opened (q + 1) rest <;> simp [Except.map]

/-- What the whole of a text is read as. -/
theorem lexemes {text : String} (h : Tokenizes (.start text) tokens b) (hb : b.rest = []) :
    lexemes text = .ok tokens := by
  have hall := h []
  rw [hb, lexemesFrom, Except.map, List.append_nil] at hall
  exact hall

end Tokenizes

/-- **Both readers find the same lexemes** in a text without identifiers and equals signs. -/
theorem exists_matches_of_nests {items : List Term.Placed} {nodes : List Node}
    (h : Nests items nodes)
    (hleaves : ∀ leaf ∈ Node.leavesOf nodes, leaf.kind ≠ .identifier ∧ leaf.payload ≠ .text "=")
    {a c : Cursor} {more : List Term.Placed} (hlexes : Lexes a (items ++ more) c) :
    ∃ b tokens, Lexes b more c ∧ Tokenizes a tokens b ∧ Matches nodes tokens := by
  induction h generalizing a c more with
  | nil => exact ⟨a, [], hlexes, .nil a, .nil⟩
  | @leaf item node items nodes isLeaf _ ih =>
    rw [Term.leavesOf_leaf (Term.not_term_of_leaf isLeaf)] at hleaves
    obtain ⟨a', b, hspaces, hreads, hp, hrest⟩ := hlexes.cons_inv
    obtain ⟨token, hfirst, hmatch⟩ :=
      Tokenizes.of_reads hreads hp isLeaf (hleaves node List.mem_cons_self)
    obtain ⟨b', tokens, hlast, htokens, hmatches⟩ :=
      ih (fun leaf hleaf => hleaves leaf (List.mem_cons_of_mem _ hleaf)) hrest
    exact ⟨b', token :: tokens, hlast, (Tokenizes.of_spaces hspaces).trans (hfirst.trans htokens),
      hmatch hmatches⟩
  | @group p q inner items children nodes _ _ ihInside ih =>
    rw [Term.leavesOf_term rfl] at hleaves
    rw [List.append_assoc, List.cons_append] at hlexes
    obtain ⟨a', b, hspaces, hreads, -, hrest⟩ := hlexes.cons_inv
    cases hreads
    obtain ⟨b', inside, hclosing, hinside, hchildren⟩ :=
      ihInside (fun leaf hleaf => hleaves leaf (List.mem_append_left _ hleaf)) hrest
    -- The spaces before the closing bracket belong to the inside of the pair.
    obtain ⟨d, e, hbehind, hclose, -, hlast⟩ := hclosing.cons_inv
    cases hclose
    obtain ⟨f, tokens, hend, htokens, hmatches⟩ :=
      ih (fun leaf hleaf => hleaves leaf (List.mem_append_right _ hleaf)) hlast
    have hpair := (hinside.trans (.of_spaces hbehind)).bracketed
    have hall := (Tokenizes.of_spaces hspaces).trans (hpair.trans htokens)
    rw [List.append_nil, List.nil_append, List.append_assoc, List.singleton_append] at hall
    exact ⟨f, _, hend, hall, .group hchildren hmatches⟩

/-- **The binary tree beside a term tree.** A text whose term tree has neither identifiers nor
equals signs has a binary tree as well; both have the same leaves in the same order, and so have
each Term in the one and some part of the other. -/
theorem exists_binary_of_term {wholeNumbers : Bool} {text : String} {tree : Node}
    (h : (analyse .term wholeNumbers (some text)).result = .ok (.term tree))
    (hleaves : ∀ leaf ∈ tree.leaves, leaf.kind ≠ .identifier ∧ leaf.payload ≠ .text "=") :
    ∃ expression tokens,
      (analyse .binary true (some text)).result = .ok (.binary expression tokens) ∧
      List.Forall₂ SameLeaf (inorder expression) tree.leaves ∧
      ∀ inner, Term.Encloses tree inner → ∃ part, IsSubtree part expression ∧
        List.Forall₂ SameLeaf (inorder part) inner.leaves := by
  obtain ⟨items, b, nodes, hlexes, hend, hnests, halternates, htree⟩ :=
    Term.analyse_eq_ok_iff_nests.1 h
  cases htree
  rw [← List.append_nil items] at hlexes
  obtain ⟨a, tokens, hlast, htokens, hmatches⟩ := exists_matches_of_nests hnests hleaves hlexes
  have hread := htokens.trans (.of_spaces hlast.nil_inv)
  rw [List.append_nil] at hread
  have hlexemes := hread.lexemes hend
  -- The binary tree comes from the tokens, and is compared with the nodes by way of them.
  obtain ⟨expression, hderives, horder⟩ := (hmatches.alternates halternates).hasTree
  obtain ⟨sent, hsent, hfold⟩ := hderives.toPostfix
  refine ⟨expression, sent, ?_, ?_, fun inner hinner => ?_⟩
  · exact analyse_eq_ok_iff.2 ⟨tokens, sent, expression, hlexemes, hsent, hfold, rfl⟩
  · rw [horder]
    exact hmatches.sameLeaves
  · have hroot : Matches (Node.term 0 nodes).children tokens := hmatches
    obtain ⟨before, q, inside, r, behind, rfl, hinside⟩ := hroot.enclosed hinner
    obtain ⟨part, hpart, hpartOrder⟩ :=
      (hinside.alternates (hinner.alternates halternates)).hasTree
    refine ⟨part, isSubtree_of_bracketed hpart hderives, ?_⟩
    rw [hpartOrder]
    exact hinside.sameLeaves

theorem exists_binary_of_term_group :
    let tree : Node := .term 0 [.mk .number (.decimal ⟨1, 0⟩) 0 [], .mk .operator (.text "+") 1 [],
      .term 2 [.mk .number (.decimal ⟨2, 0⟩) 3 []]]
    (analyse .term true (some "1+(2)")).result = .ok (.term tree) ∧
      (∀ leaf ∈ tree.leaves, leaf.kind ≠ .identifier ∧ leaf.payload ≠ .text "=") ∧
      ∃ expression tokens,
        (analyse .binary true (some "1+(2)")).result = .ok (.binary expression tokens) ∧
        List.Forall₂ SameLeaf (inorder expression) tree.leaves ∧
        ∀ inner, Term.Encloses tree inner → ∃ part, IsSubtree part expression ∧
          List.Forall₂ SameLeaf (inorder part) inner.leaves := by
  intro tree
  have hplus : Text.EndsNumeral ['+', '(', '2', ')'] := endsNumeral_of_isOperator rfl _
  have hone : Term.Reads ⟨0, ['1'] ++ ['+', '(', '2', ')']⟩ (.number ⟨1, 0⟩)
      ⟨0 + 1, ['+', '(', '2', ')']⟩ := .number (by decide) ⟨'1', rfl, rfl⟩ hplus rfl
  have htwo : Term.Reads ⟨3, ['2'] ++ [')']⟩ (.number ⟨2, 0⟩) ⟨3 + 1, [')']⟩ :=
    .number (by decide) ⟨'2', rfl, rfl⟩ Text.endsNumeral_closing rfl
  have hlexes : Lexes (.start "1+(2)") [⟨.number ⟨1, 0⟩, 0⟩, ⟨.operator '+', 1⟩, ⟨.opening, 2⟩,
      ⟨.number ⟨2, 0⟩, 3⟩, ⟨.closing, 4⟩] ⟨5, []⟩ :=
    .cons hone (.cons (.operator (by decide)) (.cons .opening (.cons htwo (.cons .closing
      (.nil _)))))
  have hgroup : Nests [⟨.opening, 2⟩, ⟨.number ⟨2, 0⟩, 3⟩, ⟨.closing, 4⟩] _ :=
    Nests.group (.leaf rfl .nil) .nil
  have h : (analyse .term true (some "1+(2)")).result = .ok (.term tree) :=
    Term.analyse_eq_ok_iff_nests.2 ⟨_, _, _, hlexes, rfl, .leaf rfl (.leaf rfl hgroup),
      .leaf (.inl rfl) (.operator rfl (.group rfl (.leaf (.inl rfl) .done) .done)), rfl⟩
  have hleaves : ∀ leaf ∈ tree.leaves, leaf.kind ≠ .identifier ∧ leaf.payload ≠ .text "=" := by
    have hlist : tree.leaves = [.mk .number (.decimal ⟨1, 0⟩) 0 [],
        .mk .operator (.text "+") 1 [], .mk .number (.decimal ⟨2, 0⟩) 3 []] := by
      simp [tree, Node.leaves, Node.term, Node.children, Node.leavesOf, Node.isTerm, Node.kind]
    rw [hlist]
    simp [Node.kind, Node.payload]
  exact ⟨h, hleaves, exists_binary_of_term h hleaves⟩

end ArithTree
