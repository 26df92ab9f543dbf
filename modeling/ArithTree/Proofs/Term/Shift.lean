import ArithTree.Proofs.Term.Marks
import ArithTree.Proofs.Term.Views

/-!
# Reading from a place on

A cursor can be asked for this and that, in any order and also after faults. It only goes forward
and stays in the text, and what it answers depends on the text from its place on and on nothing that
was asked before: it is the answer at the beginning of that text, with all places shifted.

* `Cursor.ask`, `Cursor.after` : one request, and a sequence of them.
* `Precedes.ask` : a request takes the cursor forward in its text.
* `ask_shift` : where the text begins makes no difference but for the places.
* `ask_after` : what a request is answered with behind any sequence of requests.
-/

namespace ArithTree

/-- The fault at a place that is `k` characters further on. -/
def Fault.shift (k : Nat) (fault : Fault) : Fault :=
  { fault with position := fault.position.map (· + (k : Int)) }

/-- The failure with its place, if it has one, `k` characters further on. -/
def Failure.shift (k : Nat) : Failure → Failure
  | .fault f => .fault (f.shift k)
  | .breakdown b => .breakdown b

namespace Term

open Text

/-! ### Requests -/

/-- What a cursor can be asked for. -/
inductive Request where
  /-- One character forward. -/
  | advance
  /-- Forward over spaces. -/
  | skipSpaces
  /-- The number at the cursor. -/
  | readNumber
  /-- The identifier at the cursor. -/
  | readIdentifier
  /-- The term tree of the text from the cursor on. -/
  | scan
  deriving DecidableEq

/-- What a request is answered with. -/
inductive Answer where
  | done
  | number (value : Decimal)
  | identifier (name : String)
  | tree (root : Node)

/-- The answer to a request, and the cursor behind it. -/
def Cursor.ask (cursor : Cursor) : Request → Reading Answer
  | .advance => cursor.advance.map (Except.map fun _ => .done) id
  | .skipSpaces => (.ok .done, cursor.skipSpaces)
  | .readNumber => cursor.readNumber.map (Except.map .number) id
  | .readIdentifier => cursor.readIdentifier.map (Except.map .identifier) id
  | .scan => cursor.scan.map (Except.map .tree) id

/-- The cursor behind a sequence of requests. A fault does not keep it from the next request. -/
def Cursor.after (cursor : Cursor) (requests : List Request) : Cursor :=
  requests.foldl (fun cursor request => (cursor.ask request).2) cursor

/-! ### Going forward -/

/-- The second cursor stands in the same text at the same place or further on. -/
def Precedes (a b : Cursor) : Prop :=
  ∃ s, a.rest = s ++ b.rest ∧ b.position = a.position + s.length

namespace Precedes

variable {a b c : Cursor}

theorem refl (a : Cursor) : Precedes a a := ⟨[], rfl, rfl⟩

theorem trans (hab : Precedes a b) (hbc : Precedes b c) : Precedes a c := by
  obtain ⟨s, hrest, hposition⟩ := hab
  obtain ⟨t, hrest', hposition'⟩ := hbc
  refine ⟨s ++ t, ?_, ?_⟩
  · rw [hrest, hrest', List.append_assoc]
  · rw [hposition', hposition, List.length_append, Nat.add_assoc]

theorem skip {n : Nat} (h : n ≤ a.rest.length) : Precedes a (a.skip n) := by
  refine ⟨a.rest.take n, (List.take_append_drop n a.rest).symm, ?_⟩
  rw [List.length_take_of_le h]
  rfl

theorem of_lexes {items : List Placed} (h : Lexes a items b) : Precedes a b := by
  obtain ⟨s, hs⟩ := h.exists_covers
  exact ⟨s, hs.rest, hs.position⟩

theorem of_fails {cause : Cause} (h : Fails a cause b) : Precedes a b := by
  obtain ⟨s, hs⟩ := h.exists_remains 0
  exact ⟨s, hs.rest, hs.position⟩

theorem lex (a : Cursor) : Precedes a a.lex.cursor := by
  obtain ⟨c, hlexes, hends⟩ := exists_lexes a.position a.rest
  rcases hends with ⟨-, hcursor, -⟩ | ⟨cause, hfails, -⟩
  · rw [Cursor.lex, hcursor]
    exact of_lexes hlexes
  · exact (of_lexes hlexes).trans (of_fails hfails)

/-- A closing bracket that closes nothing stands at the place of a lexeme. -/
theorem skip_of_run {nesting : Nesting} {p : Nat} (h : nesting.run a.lex.lexemes = .error p) :
    Precedes a (a.skip (p - a.position)) := by
  obtain ⟨c, hlexes, -⟩ := exists_lexes a.position a.rest
  obtain ⟨before, behind, next, hitems, -, -⟩ := Nesting.run_eq_error_iff.1 h
  have hsplit : Lexes a (before ++ ⟨.closing, p⟩ :: behind) c := hitems ▸ hlexes
  obtain ⟨d, hbefore, hmore⟩ := hsplit.append_inv
  obtain ⟨b, -, hspaces, -, hp, -⟩ := hmore.cons_inv
  have hreach := hbefore.append (.of_spaces hspaces (.nil b))
  obtain ⟨s, hrest, hposition⟩ := of_lexes hreach
  have hp : p = b.position := hp
  refine skip ?_
  rw [hp, hposition, Nat.add_sub_cancel_left, hrest, List.length_append]
  exact Nat.le_add_right _ _

theorem scan (a : Cursor) : Precedes a a.scan.2 := by
  cases hrun : Nesting.root.run a.lex.lexemes with
  | error p =>
    simp only [Cursor.scan, hrun]
    exact skip_of_run hrun
  | ok nesting =>
    simp only [Cursor.scan, hrun]
    split <;> exact lex a

theorem advance (a : Cursor) : Precedes a a.advance.2 := by
  obtain ⟨p, rest⟩ := a
  cases rest with
  | nil => exact refl _
  | cons c rest => exact ⟨[c], rfl, rfl⟩

theorem readNumber (a : Cursor) : Precedes a a.readNumber.2 := by
  refine ⟨(spanNumeral false a.rest).1, ?_, ?_⟩
  · rw [Cursor.rest_readNumber, spanNumeral_append]
  · simp only [Cursor.readNumber]
    split
    · rfl
    · split <;> rfl

theorem readIdentifier (a : Cursor) : Precedes a a.readIdentifier.2 := by
  refine ⟨a.rest.takeWhile isLetter, ?_, ?_⟩
  · rw [Cursor.rest_readIdentifier, List.takeWhile_append_dropWhile]
  · simp only [Cursor.readIdentifier]
    split
    · rfl
    · split <;> rfl

/-- A request takes the cursor forward, whether it is answered or ends with a fault. -/
theorem ask (a : Cursor) (request : Request) : Precedes a (a.ask request).2 := by
  cases request with
  | advance => exact advance a
  | skipSpaces => exact skip (List.takeWhile_prefix _).length_le
  | readNumber => exact readNumber a
  | readIdentifier => exact readIdentifier a
  | scan => exact scan a

/-- And so does a sequence of requests. -/
theorem after (a : Cursor) (requests : List Request) : Precedes a (a.after requests) := by
  induction requests generalizing a with
  | nil => exact refl a
  | cons request requests ih => exact (ask a request).trans (ih _)

end Precedes

/-! ### Shifting -/

variable {k : Nat}

/-- The cursor in a text with `k` more characters in front. -/
def Cursor.shift (k : Nat) (cursor : Cursor) : Cursor := ⟨cursor.position + k, cursor.rest⟩

/-- The lexeme in a text with `k` more characters in front. -/
def Placed.shift (k : Nat) (item : Placed) : Placed := { item with position := item.position + k }

/-- The node in a text with `k` more characters in front. -/
def Node.shift (k : Nat) : Node → Node :=
  fold fun kind payload position children => mk kind payload (position + k) children

/-- The root of a tree that is read with `k` more characters in front. It has no place of its own,
so only the nodes below it are shifted. -/
def Node.shiftBelow (k : Nat) (root : Node) : Node :=
  mk root.kind root.payload root.position (root.children.map (shift k))

/-- The answer in a text with `k` more characters in front. -/
def Answer.shift (k : Nat) : Answer → Answer
  | tree root => .tree (root.shiftBelow k)
  | answer => answer

/-- What reading ends with in a text with `k` more characters in front. -/
def Reading.shift {α : Type} (k : Nat) (move : α → α) (reading : Reading α) : Reading α :=
  ((reading.1.map move).mapError (Failure.shift k), reading.2.shift k)

theorem Node.shift_mk (kind : Kind) (payload : Payload) (p : Int) (children : List Node) :
    (mk kind payload p children).shift k = mk kind payload (p + k) (children.map (shift k)) := by
  rw [shift, fold, foldAll_eq]

namespace Cursor

theorem shift_add (p n : Nat) (rest : List Char) : shift k ⟨p + n, rest⟩ = ⟨p + k + n, rest⟩ := by
  rw [shift, Nat.add_right_comm]

theorem skip_shift (cursor : Cursor) (n : Nat) :
    (cursor.shift k).skip n = (cursor.skip n).shift k := by
  rw [skip, skip, shift_add]
  rfl

theorem advance_shift (cursor : Cursor) :
    (cursor.shift k).advance = Reading.shift k id cursor.advance := by
  obtain ⟨p, rest⟩ := cursor
  cases rest with
  | nil => rfl
  | cons c rest => exact Prod.ext rfl (skip_shift ⟨p, c :: rest⟩ 1)

theorem readNumber_shift (cursor : Cursor) :
    (cursor.shift k).readNumber = Reading.shift k id cursor.readNumber := by
  obtain ⟨p, rest⟩ := cursor
  simp only [readNumber, shift, Nat.add_right_comm p k]
  by_cases hpoint : (spanNumeral false rest).2.head? = some '.'
  · have hstops (q : Nat) : current? ⟨q, (spanNumeral false rest).2⟩ = some '.' := hpoint
    simp only [if_pos (hstops _)]
    rfl
  · have hgoes (q : Nat) : current? ⟨q, (spanNumeral false rest).2⟩ ≠ some '.' := hpoint
    simp only [if_neg (hgoes _)]
    cases Decimal.ofNumeral? (spanNumeral false rest).1 <;> rfl

theorem readIdentifier_shift (cursor : Cursor) :
    (cursor.shift k).readIdentifier = Reading.shift k id cursor.readIdentifier := by
  obtain ⟨p, rest⟩ := cursor
  simp only [readIdentifier, shift, current?, Nat.add_right_comm p k]
  cases (rest.dropWhile isLetter).head? with
  | none => rfl
  | some c =>
    by_cases hends : c = ' ' ∨ c = ')'
    · simp only [if_pos hends]
      rfl
    · simp only [if_neg hends]
      rfl

end Cursor

/-! ### Lexemes -/

theorem Reads.shift {a b : Cursor} {lexeme : Lexeme} (h : Reads a lexeme b) :
    Reads (a.shift k) lexeme (b.shift k) := by
  cases h with
  | opening =>
    rw [Cursor.shift_add]
    exact .opening
  | closing =>
    rw [Cursor.shift_add]
    exact .closing
  | number isNumeral head ends value =>
    rw [Cursor.shift_add]
    exact .number isNumeral head ends value
  | identifier nonempty letters ends =>
    rw [Cursor.shift_add]
    exact .identifier nonempty letters ends
  | operator isOperator =>
    rw [Cursor.shift_add]
    exact .operator isOperator

theorem Fails.shift {a b : Cursor} {cause : Cause} (h : Fails a cause b) :
    Fails (a.shift k) cause (b.shift k) := by
  cases h with
  | symbol other notDigit notLetter notOperator =>
    exact .symbol other notDigit notLetter notOperator
  | point isNumeral head first =>
    rw [Cursor.shift_add]
    exact .point isNumeral head first
  | character nonempty letters notLetter continues =>
    rw [Cursor.shift_add]
    exact .character nonempty letters notLetter continues

theorem Lexes.shift {a b : Cursor} {items : List Placed} (h : Lexes a items b) :
    Lexes (a.shift k) (items.map (Placed.shift k)) (b.shift k) := by
  induction h with
  | nil => exact .nil _
  | @space p rest items b _ ih =>
    rw [Cursor.shift_add] at ih
    exact .space ih
  | cons first _ ih => exact .cons first.shift ih

/-- The reader finds the same lexemes and ends in the same way. -/
theorem lex_shift (a : Cursor) :
    (a.shift k).lex = ⟨a.lex.lexemes.map (Placed.shift k),
      a.lex.outcome.mapError (Failure.shift k), a.lex.cursor.shift k⟩ := by
  obtain ⟨c, hlexes, hends⟩ := exists_lexes a.position a.rest
  rcases hends with ⟨houtcome, rfl, hend⟩ | ⟨cause, hfails, houtcome⟩
  · rw [Cursor.lex, Cursor.lex, houtcome]
    exact lex_eq_iff.2 ⟨hlexes.shift, hend⟩
  · rw [Cursor.lex, Cursor.lex, houtcome]
    exact lex_eq_error_iff.2 ⟨_, cause, hlexes.shift, hfails.shift, rfl⟩

/-! ### Nesting -/

/-- The Terms around a place in a text with `k` more characters in front. The outermost one is the
root, which keeps its place. -/
def shiftTerms (k : Nat) (t : OpenTerm) : List OpenTerm → Nesting
  | [] => ⟨⟨t.position, t.children.map (Node.shift k)⟩, []⟩
  | next :: outer =>
    ⟨⟨t.position + k, t.children.map (Node.shift k)⟩,
      (shiftTerms k next outer).inner :: (shiftTerms k next outer).outer⟩

/-- The nesting in a text with `k` more characters in front. -/
def Nesting.shift (k : Nat) (nesting : Nesting) : Nesting :=
  shiftTerms k nesting.inner nesting.outer

theorem shiftTerms_push (t : OpenTerm) (node : Node) (outer : List OpenTerm) :
    shiftTerms k (t.push node) outer =
      ⟨(shiftTerms k t outer).inner.push (node.shift k), (shiftTerms k t outer).outer⟩ := by
  cases outer <;> rfl

theorem close_shift (p : Nat) (children : List Node) :
    OpenTerm.close ⟨p + k, children.map (Node.shift k)⟩ =
      (OpenTerm.close ⟨p, children⟩).shift k := by
  rw [OpenTerm.close, OpenTerm.close, Node.term, Node.term, Node.shift_mk, List.map_reverse]
  rfl

theorem Nesting.shift_leaf (nesting : Nesting) (kind : Kind) (payload : Payload) (p : Nat) :
    (nesting.shift k).leaf kind payload (p + k) = (nesting.leaf kind payload p).shift k := by
  rw [Nesting.shift, Nesting.shift, Nesting.leaf, Nesting.leaf, shiftTerms_push, Node.shift_mk]
  rfl

/-- One lexeme nests in the same way. -/
theorem Nesting.step_shift (nesting : Nesting) (item : Placed) :
    (nesting.shift k).step (item.shift k) =
      ((nesting.step item).map (Nesting.shift k)).mapError (· + k) := by
  obtain ⟨lexeme, p⟩ := item
  cases lexeme with
  | opening => rfl
  | closing =>
    obtain ⟨⟨q, children⟩, outer⟩ := nesting
    cases outer with
    | nil => rfl
    | cons next outer =>
      show Except.ok _ = Except.ok (shiftTerms k (next.push (OpenTerm.close ⟨q, children⟩)) outer)
      rw [shiftTerms_push, ← close_shift]
      rfl
  | number d => exact congrArg Except.ok (nesting.shift_leaf .number (.decimal d) p)
  | identifier name => exact congrArg Except.ok (nesting.shift_leaf .identifier (.text name) p)
  | operator c => exact congrArg Except.ok (nesting.shift_leaf .operator (.text c.toString) p)

/-- And so do all lexemes of a text. -/
theorem Nesting.run_shift (nesting : Nesting) (items : List Placed) :
    (nesting.shift k).run (items.map (Placed.shift k)) =
      ((nesting.run items).map (Nesting.shift k)).mapError (· + k) := by
  induction items generalizing nesting with
  | nil => rfl
  | cons item items ih =>
    rw [List.map_cons, Nesting.run, Nesting.run, Nesting.step_shift]
    cases nesting.step item with
    | error p => rfl
    | ok next => exact ih next

/-! ### Trees -/

theorem Cursor.scan_shift (a : Cursor) :
    (a.shift k).scan = Reading.shift k (Node.shiftBelow k) a.scan := by
  have hrun := Nesting.run_shift (k := k) .root a.lex.lexemes
  have hroot : Nesting.root.shift k = Nesting.root := rfl
  rw [hroot] at hrun
  cases hnested : Nesting.root.run a.lex.lexemes with
  | error p =>
    have hplace : p + k - (a.shift k).position = p - a.position := Nat.add_sub_add_right p k _
    rw [hnested] at hrun
    simp only [scan, lex_shift, hrun, hnested, Except.map, Except.mapError, hplace, skip_shift]
    rfl
  | ok nesting =>
    obtain ⟨⟨p, children⟩, outer⟩ := nesting
    rw [hnested] at hrun
    simp only [scan, lex_shift, hrun, hnested, Except.map, Except.mapError]
    cases a.lex.outcome with
    | error failure => rfl
    | ok _ =>
      cases outer with
      | cons next outer => rfl
      | nil =>
        -- Only the root is left, and it keeps its place.
        have hclose : OpenTerm.close ⟨p, children.map (Node.shift k)⟩ =
            (OpenTerm.close ⟨p, children⟩).shiftBelow k := by
          rw [OpenTerm.close, ← List.map_reverse]
          rfl
        exact Prod.ext (congrArg Except.ok hclose) rfl

/-- Where the text begins makes no difference to what a cursor answers but for the places. -/
theorem ask_shift (a : Cursor) (request : Request) :
    (a.shift k).ask request = Reading.shift k (Answer.shift k) (a.ask request) := by
  cases request with
  | advance =>
    rw [Cursor.ask, Cursor.ask, Cursor.advance_shift]
    obtain ⟨answer, b⟩ := a.advance
    cases answer <;> rfl
  | skipSpaces => exact Prod.ext rfl (Cursor.skip_shift a _)
  | readNumber =>
    rw [Cursor.ask, Cursor.ask, Cursor.readNumber_shift]
    obtain ⟨answer, b⟩ := a.readNumber
    cases answer <;> rfl
  | readIdentifier =>
    rw [Cursor.ask, Cursor.ask, Cursor.readIdentifier_shift]
    obtain ⟨answer, b⟩ := a.readIdentifier
    cases answer <;> rfl
  | scan =>
    rw [Cursor.ask, Cursor.ask, Cursor.scan_shift]
    obtain ⟨answer, b⟩ := a.scan
    cases answer <;> rfl

/-! ### Sequences of requests -/

/-- A cursor in a text is that of the text behind it, shifted. -/
theorem Within.eq_shift {text : List Char} {a : Cursor} (h : Within text a) :
    a = (Cursor.start (String.ofList (text.drop a.position))).shift a.position := by
  obtain ⟨p, rest⟩ := a
  obtain ⟨before, rfl, hp⟩ := h
  have hp : p = before.length := hp
  rw [hp, List.drop_left, Cursor.start, String.toList_ofList, Cursor.shift, Nat.zero_add]

/-- What stands at a cursor is what stands at its place in the text. -/
theorem Within.current?_eq {text : List Char} {a : Cursor} (h : Within text a) :
    a.position ≤ text.length ∧ a.current? = text[a.position]? := by
  obtain ⟨p, rest⟩ := a
  obtain ⟨before, rfl, hp⟩ := h
  have hp : p = before.length := hp
  rw [hp, List.getElem?_append_right (Nat.le_refl _), Nat.sub_self, List.length_append]
  exact ⟨Nat.le_add_right _ _, List.head?_eq_getElem?⟩

/-- **A cursor is consistent and has no memory.** Behind any sequence of requests, faults among
them, a request takes the cursor forward to a place in the text, and its answer is the one at the
beginning of the text from the cursor on, with all places shifted but that of a root. -/
theorem ask_after (text : String) (requests : List Request) (request : Request) :
    let a := (Cursor.start text).after requests
    let reading := a.ask request
    a.position ≤ reading.2.position ∧ reading.2.position ≤ text.toList.length ∧
      reading.2.current? = text.toList[reading.2.position]? ∧
      reading = Reading.shift a.position (Answer.shift a.position)
        ((Cursor.start (String.ofList (text.toList.drop a.position))).ask request) := by
  intro a reading
  obtain ⟨s, hrest, hposition⟩ := Precedes.after (.start text) requests
  have ha : Within text.toList a := (within_start text).slice hrest hposition
  obtain ⟨t, hrest', hposition'⟩ := Precedes.ask a request
  obtain ⟨hle, hcurrent⟩ := (ha.slice hrest' hposition').current?_eq
  refine ⟨?_, hle, hcurrent, ?_⟩
  · show a.position ≤ (a.ask request).2.position
    rw [hposition']
    exact Nat.le_add_right _ _
  · rw [← ask_shift, ← ha.eq_shift]

end Term

end ArithTree
