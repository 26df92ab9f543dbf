import Mathlib.Data.List.TakeWhile
import ArithTree.Analysis
import ArithTree.Proofs.Term.Alternation
import ArithTree.Proofs.Term.Nesting

/-!
# The grammar of the term strategy

`Derives` is the grammar of nested terms over the characters of a text, together with the nodes that
a derivation stands for:

* `term = operand tail` and `tail = (spaces operator spaces operand)*`,
* `operand = numeral | identifier | '(' spaces term spaces ')'`,

where only a space, a closing bracket or the end of the text may stand right behind an identifier.

The analysis reads lexemes, nests them and checks the tree afterwards. Both directions go through
the lexemes: a derivation gives lexemes that nest into its nodes (`Derives.lexes`), and lexemes that
nest into alternating nodes give a derivation (`Nests.derives`). `analyse_term_eq_ok_iff` puts them
together.
-/

namespace ArithTree.Term

open Text

/-- One or more digits, possibly followed by one point and zero or more digits, and the number that
they write: all digits as one whole number, scaled by the number of digits behind the point. -/
inductive Numeral : List Char → Decimal → Prop where
  | whole {digits : List Char} (nonempty : digits ≠ []) (all : ∀ c ∈ digits, c.isDigit) :
    Numeral digits ⟨natOfDigits digits, 0⟩
  | fraction {digits behind : List Char} (nonempty : digits ≠ []) (all : ∀ c ∈ digits, c.isDigit)
    (allBehind : ∀ c ∈ behind, c.isDigit) :
    Numeral (digits ++ '.' :: behind) ⟨natOfDigits (digits ++ behind), behind.length⟩

/-- The phrases of the grammar. -/
inductive Phrase where
  | operand
  | term
  /-- The rest of a term behind one of its operands. -/
  | tail

/-- The phrase that stands between two cursors, and the nodes that it is read as. -/
inductive Derives : Phrase → Cursor → List Node → Cursor → Prop where
  | number {p : Nat} {numeral rest : List Char} {d : Decimal} (isNumeral : Numeral numeral d) :
    Derives .operand ⟨p, numeral ++ rest⟩ [.mk .number (.decimal d) p []]
      ⟨p + numeral.length, rest⟩
  | identifier {p : Nat} {name rest : List Char} (nonempty : name ≠ [])
    (letters : ∀ c ∈ name, isLetter c) (ends : EndsIdentifier rest) :
    Derives .operand ⟨p, name ++ rest⟩ [.mk .identifier (.text (String.ofList name)) p []]
      ⟨p + name.length, rest⟩
  | bracketed {p q : Nat} {inside rest : List Char} {a b : Cursor} {nodes : List Node}
    (before : Spaces ⟨p + 1, inside⟩ a) (term : Derives .term a nodes b)
    (behind : Spaces b ⟨q, ')' :: rest⟩) :
    Derives .operand ⟨p, '(' :: inside⟩ [.term p nodes] ⟨q + 1, rest⟩
  | term {a b c : Cursor} {node : Node} {nodes : List Node} (first : Derives .operand a [node] b)
    (more : Derives .tail b nodes c) : Derives .term a (node :: nodes) c
  | tailEnd (a : Cursor) : Derives .tail a [] a
  | tailCons {a b c d : Cursor} {q : Nat} {op : Char} {rest : List Char} {node : Node}
    {nodes : List Node} (before : Spaces a ⟨q, op :: rest⟩) (isOperator : op ∈ operatorSymbols)
    (behind : Spaces ⟨q + 1, rest⟩ b) (operand : Derives .operand b [node] c)
    (more : Derives .tail c nodes d) :
    Derives .tail a (.mk .operator (.text op.toString) q [] :: node :: nodes) d

/-- A text is a term with spaces around it, which is read as the given nodes. -/
def Written (text : String) (nodes : List Node) : Prop :=
  ∃ a b n, Spaces (.start text) a ∧ Derives .term a nodes b ∧ Spaces b ⟨n, []⟩

/-! ### Numerals -/

theorem Numeral.head {s : List Char} {d : Decimal} (h : Numeral s d) :
    ∃ c ∈ s.head?, c.isDigit := by
  cases h with
  | whole nonempty all =>
    obtain ⟨c, rest, rfl⟩ := List.exists_cons_of_ne_nil nonempty
    exact ⟨c, rfl, all c List.mem_cons_self⟩
  | fraction nonempty all _ =>
    obtain ⟨c, rest, rfl⟩ := List.exists_cons_of_ne_nil nonempty
    exact ⟨c, rfl, all c List.mem_cons_self⟩

theorem Numeral.isNumeral {s : List Char} {d : Decimal} (h : Numeral s d) : IsNumeral s := by
  obtain ⟨first, hfirst, hdigit⟩ := h.head
  refine ⟨?_, ?_, first, List.mem_of_mem_head? hfirst, hdigit⟩
  · intro c hc
    cases h with
    | whole _ all => exact .inl (all c hc)
    | fraction _ all allBehind =>
      rcases List.mem_append.1 hc with hc | hc
      · exact .inl (all c hc)
      · rcases List.mem_cons.1 hc with rfl | hc
        · exact .inr rfl
        · exact .inl (allBehind c hc)
  · cases h with
    | whole _ all =>
      rw [count_point_digits all]
      exact Nat.zero_le 1
    | fraction _ all allBehind =>
      rw [List.count_append, List.count_cons_self, count_point_digits all,
        count_point_digits allBehind]

theorem Numeral.value {s : List Char} {d : Decimal} (h : Numeral s d) :
    Decimal.ofNumeral? s = some d := by
  have hkept : ∀ {digits : List Char}, (∀ c ∈ digits, c.isDigit) →
      ∀ c ∈ digits, decide (c ≠ '.') = true := fun hall c hc =>
    decide_eq_true (isDigit_ne_point (hall c hc))
  cases h with
  | whole nonempty all =>
    rw [Decimal.ofNumeral?, List.filter_eq_self.2 (hkept all), if_neg nonempty,
      List.dropWhile_eq_nil_iff.2 (hkept all)]
    rfl
  | @fraction digits behind nonempty all allBehind =>
    have hfilter : (digits ++ '.' :: behind).filter (· ≠ '.') = digits ++ behind := by
      rw [List.filter_append, List.filter_eq_self.2 (hkept all), List.filter_cons_of_neg (by simp),
        List.filter_eq_self.2 (hkept allBehind)]
    rw [Decimal.ofNumeral?, hfilter, if_neg (by simp [nonempty]),
      List.dropWhile_append_of_pos (hkept all), List.dropWhile_cons_of_neg (by simp)]
    rfl

theorem exists_numeral {s : List Char} (h : IsNumeral s) (head : ∃ c ∈ s.head?, c.isDigit) :
    ∃ d, Numeral s d := by
  obtain ⟨c, hc, hdigit⟩ := head
  obtain ⟨rest, rfl⟩ := List.head?_eq_some_iff.1 hc
  have hdigits : ∀ {part : List Char}, (∀ d ∈ part, InNumeral d) → '.' ∉ part →
      ∀ d ∈ part, d.isDigit := by
    intro part hpart hnone d hd
    exact (hpart d hd).resolve_right fun hp => hnone (hp ▸ hd)
  by_cases hpoint : '.' ∈ c :: rest
  · obtain ⟨digits, behind, hsplit, hnone⟩ := List.eq_append_cons_of_mem hpoint
    have hpoints := h.points
    have hchars := h.chars
    rw [hsplit] at hpoints hchars ⊢
    rw [List.count_append, List.count_cons_self] at hpoints
    have hbehind : '.' ∉ behind := List.count_eq_zero.1 (by omega)
    have hafter : ∀ d ∈ behind, InNumeral d := fun d hd =>
      hchars d (List.mem_append_right _ (List.mem_cons_of_mem _ hd))
    refine ⟨_, .fraction ?_ (hdigits (fun d hd => hchars d (List.mem_append_left _ hd)) hnone)
      (hdigits hafter hbehind)⟩
    rintro rfl
    cases hsplit
    exact absurd hdigit (by decide)
  · exact ⟨_, .whole (List.cons_ne_nil _ _) (hdigits h.chars hpoint)⟩

/-! ### From a derivation to lexemes -/

theorem Spaces.endsNumeral {a b : Cursor} (h : Spaces a b) (hb : EndsNumeral b.rest) :
    EndsNumeral a.rest := by
  cases h with
  | nil => exact hb
  | cons => exact endsNumeral_space

/-- What comes first in a phrase. -/
def Phrase.turn : Phrase → Turn
  | operand => .operand
  | term => .operand
  | tail => .operator

theorem Alternates.cons {node : Node} {nodes : List Node} (h : Alternates .operand [node])
    (hmore : Alternates .operator nodes) : Alternates .operand (node :: nodes) := by
  cases h with
  | leaf kind _ => exact .leaf kind hmore
  | group kind inside _ => exact .group kind inside hmore

/-- A derivation gives lexemes that nest into its nodes. A numeral is a whole lexeme only where
nothing behind it continues it, so what stands behind the phrase counts, and a tail tells what
stands before it. -/
theorem Derives.lexes {phrase : Phrase} {a b : Cursor} {nodes : List Node}
    (h : Derives phrase a nodes b) (hends : EndsNumeral b.rest) :
    (∃ items, Lexes a items b ∧ Nests items nodes) ∧ Alternates phrase.turn nodes ∧
      (phrase.turn = .operator → EndsNumeral a.rest) := by
  induction h with
  | number h =>
    exact ⟨⟨_, .cons (.number h.isNumeral h.head hends h.value) (.nil _), .leaf rfl .nil⟩,
      .leaf (.inl rfl) .done, fun hturn => by cases hturn⟩
  | identifier nonempty letters ends =>
    exact ⟨⟨_, .cons (.identifier nonempty letters ends) (.nil _), .leaf rfl .nil⟩,
      .leaf (.inr rfl) .done, fun hturn => by cases hturn⟩
  | @bracketed p q inside rest a b nodes before _ behind ih =>
    obtain ⟨⟨items, hlexes, hnests⟩, halternates, -⟩ := ih (behind.endsNumeral endsNumeral_closing)
    have hlast : Lexes b [⟨.closing, q⟩] ⟨q + 1, rest⟩ :=
      .of_spaces behind (.cons .closing (.nil _))
    refine ⟨⟨⟨.opening, p⟩ :: items ++ [⟨.closing, q⟩], ?_, .group hnests .nil⟩,
      .group rfl halternates .done, fun hturn => by cases hturn⟩
    rw [List.cons_append]
    exact .cons .opening (.of_spaces before (hlexes.append hlast))
  | term _ _ ihFirst ihMore =>
    -- From the right: the tail tells that what stands behind the first operand ends a numeral.
    obtain ⟨⟨more, hmore, hnestsMore⟩, hrow, hstop⟩ := ihMore hends
    obtain ⟨⟨items, hitems, hnests⟩, hnode, -⟩ := ihFirst (hstop rfl)
    exact ⟨⟨items ++ more, hitems.append hmore, hnests.append hnestsMore⟩, hnode.cons hrow,
      fun hturn => by cases hturn⟩
  | tailEnd => exact ⟨⟨[], .nil _, .nil⟩, .done, fun _ => hends⟩
  | @tailCons a b c d q op rest node nodes before isOperator behind _ _ ihOperand ihMore =>
    obtain ⟨⟨more, hmore, hnestsMore⟩, hrow, hstop⟩ := ihMore hends
    obtain ⟨⟨items, hitems, hnests⟩, hnode, -⟩ := ihOperand (hstop rfl)
    have hop : EndsNumeral (op :: rest) := endsNumeral_operator isOperator rest
    refine ⟨⟨⟨.operator op, q⟩ :: (items ++ more), ?_, .leaf rfl (hnests.append hnestsMore)⟩,
      .operator rfl (hnode.cons hrow), fun _ => before.endsNumeral hop⟩
    exact .of_spaces before (.cons (.operator isOperator)
      (.of_spaces behind (hitems.append hmore)))

/-! ### From lexemes to a derivation -/

/-- The phrase that a row of nodes is read from: a term behind spaces where an operand has to come,
the rest of a term otherwise. -/
def DerivesFrom : Turn → Cursor → List Node → Cursor → Prop
  | .operand, a, nodes, b => ∃ a', Spaces a a' ∧ Derives .term a' nodes b
  | .operator, a, nodes, b => Derives .tail a nodes b

theorem derives_of_reads {a b : Cursor} {item : Placed} {node : Node} (h : Reads a item.lexeme b)
    (hp : item.position = a.position) (hleaf : item.leaf? = some node)
    (hkind : node.kind = .number ∨ node.kind = .identifier) : Derives .operand a [node] b := by
  obtain ⟨lexeme, p⟩ := item
  cases h with
  | opening => cases hleaf
  | closing => cases hleaf
  | number isNumeral head _ value =>
    cases hleaf
    cases hp
    obtain ⟨e, hnumeral⟩ := exists_numeral isNumeral head
    cases value.symm.trans hnumeral.value
    exact .number hnumeral
  | identifier nonempty letters ends =>
    cases hleaf
    cases hp
    exact .identifier nonempty letters ends
  | operator => cases hleaf; simp [Node.kind] at hkind

theorem operator_of_reads {a b : Cursor} {item : Placed} {node : Node} (h : Reads a item.lexeme b)
    (hp : item.position = a.position) (hleaf : item.leaf? = some node)
    (hkind : node.kind = .operator) : ∃ q op rest, a = ⟨q, op :: rest⟩ ∧ b = ⟨q + 1, rest⟩ ∧
      op ∈ operatorSymbols ∧ node = .mk .operator (.text op.toString) q [] := by
  obtain ⟨lexeme, p⟩ := item
  cases h with
  | opening => cases hleaf
  | closing => cases hleaf
  | number => cases hleaf; cases hkind
  | identifier => cases hleaf; cases hkind
  | operator isOperator =>
    cases hleaf
    cases hp
    exact ⟨_, _, _, rfl, rfl, isOperator, rfl⟩

/-- Lexemes that nest into alternating nodes give a derivation of these nodes. -/
theorem Nests.derives {items : List Placed} {nodes : List Node} (h : Nests items nodes)
    {turn : Turn} (halternates : Alternates turn nodes) {a c : Cursor} {more : List Placed}
    (hlexes : Lexes a (items ++ more) c) :
    ∃ b, DerivesFrom turn a nodes b ∧ Lexes b more c := by
  induction h generalizing turn a c more with
  | nil =>
    cases halternates
    exact ⟨a, .tailEnd a, hlexes⟩
  | @leaf item node items nodes isLeaf _ ih =>
    obtain ⟨a', b, hspaces, hreads, hp, hrest⟩ := hlexes.cons_inv
    cases halternates with
    | operator kind hmore =>
      -- The term behind the operator is its right operand and the rest of the tail.
      obtain ⟨b', ⟨c', hbehind, hterm⟩, hlast⟩ := ih hmore hrest
      obtain ⟨q, op, rest, rfl, rfl, hop, rfl⟩ := operator_of_reads hreads hp isLeaf kind
      cases hterm with
      | term first tail => exact ⟨b', .tailCons hspaces hop hbehind first tail, hlast⟩
    | leaf kind hmore =>
      obtain ⟨b', htail, hlast⟩ := ih hmore hrest
      exact ⟨b', ⟨a', hspaces, .term (derives_of_reads hreads hp isLeaf kind) htail⟩, hlast⟩
    | group kind => exact absurd kind (not_term_of_leaf isLeaf)
  | @group p q inner items children nodes _ _ ihInside ih =>
    rw [List.append_assoc, List.cons_append] at hlexes
    obtain ⟨a', b, hspaces, hreads, hp, hrest⟩ := hlexes.cons_inv
    cases hreads
    cases hp
    cases halternates with
    | operator kind => cases kind
    | leaf kind => simp [Node.term, Node.kind] at kind
    | group _ inside hmore =>
      obtain ⟨b', ⟨c', hbefore, hterm⟩, hclosing⟩ := ihInside inside hrest
      obtain ⟨d, e, hbehind, hclose, -, hlast⟩ := hclosing.cons_inv
      cases hclose
      obtain ⟨f, htail, hend⟩ := ih hmore hlast
      exact ⟨f, ⟨_, hspaces, .term (.bracketed hbefore hterm hbehind) htail⟩, hend⟩

theorem Nests.listed {items : List Placed} {nodes : List Node} (h : Nests items nodes) :
    Listed nodes := by
  induction h with
  | nil => exact .nil
  | @leaf item node items nodes isLeaf _ ih =>
    refine .leaf ?_ ih
    obtain ⟨lexeme, p⟩ := item
    cases lexeme <;> cases isLeaf <;> simp [Node.kind]
  | group _ _ ihInside ih => exact .group rfl ihInside ih

/-- The leaves of a tree are the lexemes that are no brackets. -/
theorem Nests.leavesOf_eq {items : List Placed} {nodes : List Node} (h : Nests items nodes) :
    Node.leavesOf nodes = items.filterMap Placed.leaf? := by
  induction h with
  | nil => rw [Node.leavesOf, List.filterMap_nil]
  | leaf isLeaf _ ih =>
    rw [leavesOf_leaf (not_term_of_leaf isLeaf), ih, List.filterMap_cons_some isLeaf]
  | @group p q inner items children nodes _ _ ihInside ih =>
    have hopening : Placed.leaf? ⟨.opening, p⟩ = none := rfl
    have hclosing : Placed.leaf? ⟨.closing, q⟩ = none := rfl
    have hchildren : (Node.term p children).children = children := rfl
    rw [leavesOf_term rfl, hchildren, ihInside, ih, List.cons_append,
      List.filterMap_cons_none hopening, List.filterMap_append, List.filterMap_cons_none hclosing]

theorem written_iff {text : String} {nodes : List Node} :
    Written text nodes ↔ ∃ items b, Lexes (.start text) items b ∧ b.rest = [] ∧
      Nests items nodes ∧ Alternates .operand nodes := by
  constructor
  · rintro ⟨a, b, n, hbefore, hterm, hbehind⟩
    have hends : EndsNumeral b.rest := hbehind.endsNumeral endsNumeral_nil
    obtain ⟨⟨items, hlexes, hnests⟩, halternates, -⟩ := hterm.lexes hends
    have hlast : Lexes b [] ⟨n, []⟩ := .of_spaces hbehind (.nil _)
    have hall := Lexes.of_spaces hbefore (hlexes.append hlast)
    rw [List.append_nil] at hall
    exact ⟨items, _, hall, rfl, hnests, halternates⟩
  · rintro ⟨items, ⟨n, rest⟩, hlexes, rfl, hnests, halternates⟩
    rw [← List.append_nil items] at hlexes
    obtain ⟨b, ⟨a, hspaces, hterm⟩, hlast⟩ := hnests.derives halternates hlexes
    exact ⟨a, b, n, hspaces, hterm, hlast.nil_inv⟩

/-- What the analysis of a text as a term tree goes through: lexemes, their nesting, the check. -/
theorem analyse_eq_ok_iff_nests {wholeNumbers : Bool} {text : String} {parsed : Parsed} :
    (analyse .term wholeNumbers (some text)).result = .ok parsed ↔
      ∃ items b nodes, Lexes (.start text) items b ∧ b.rest = [] ∧ Nests items nodes ∧
        Alternates .operand nodes ∧ parsed = .term (.term 0 nodes) := by
  constructor
  · intro h
    simp only [analyse, analyseTerm] at h
    cases hscan : scan text with
    | error failure => simp [hscan, Outcome.failed] at h
    | ok tree =>
      cases hcheck : tree.check with
      | error fault => simp [hscan, hcheck] at h
      | ok _ =>
        simp only [hscan, hcheck, Except.ok.injEq] at h
        subst h
        obtain ⟨items, nodes, b, hlexes, hend, hnests, rfl⟩ := scan_eq_ok_iff.1 hscan
        have halternates := (check_eq_ok_iff (.term 0 nodes) hnests.listed).1 hcheck
        exact ⟨items, b, nodes, hlexes, hend, hnests, halternates, rfl⟩
  · rintro ⟨items, b, nodes, hlexes, hend, hnests, halternates, rfl⟩
    have hscan := scan_eq_ok_iff.2 ⟨items, nodes, b, hlexes, hend, hnests, rfl⟩
    have hcheck := (check_eq_ok_iff (.term 0 nodes) hnests.listed).2 halternates
    simp only [analyse, analyseTerm, hscan, hcheck]

/-- **The term strategy accepts exactly the texts of the grammar**, and the tree that it returns has
the nodes of the derivation below its root. -/
theorem analyse_term_eq_ok_iff (wholeNumbers : Bool) (text : String) (parsed : Parsed) :
    (analyse .term wholeNumbers (some text)).result = .ok parsed ↔
      ∃ nodes, Written text nodes ∧ parsed = .term (.term 0 nodes) := by
  rw [analyse_eq_ok_iff_nests]
  constructor
  · rintro ⟨items, b, nodes, hlexes, hend, hnests, halternates, rfl⟩
    exact ⟨nodes, written_iff.2 ⟨items, b, hlexes, hend, hnests, halternates⟩, rfl⟩
  · rintro ⟨nodes, hwritten, rfl⟩
    obtain ⟨items, b, hlexes, hend, hnests, halternates⟩ := written_iff.1 hwritten
    exact ⟨items, b, nodes, hlexes, hend, hnests, halternates, rfl⟩

end ArithTree.Term
