import ArithTree.Proofs.Term.Pass
import ArithTree.Proofs.Term.Prefix
import ArithTree.Proofs.Text.Marks

/-!
# The places of the faults of a term

The reader stops at the character that its fault speaks of. The check goes by the nodes of the tree,
and its faults are found again by the pass over the lexemes: while the pass goes through the text,
its state tells what stands last before the spaces in front of it.

* `isMarked_of_scan` : the place of a fault of the reader.
* `Tracks` : what the state of the pass tells of the text before a place. Spaces and one lexeme keep
  it (`Tracks.space`, `Tracks.step`), and a lexeme or the end of the text that the pass refuses is
  refused at a place that the fault marks (`Tracks.isMarked_of_step`, `Tracks.isMarked_of_finish`).
* `isMarked_of_check` : the place of a fault of the check.
-/

namespace ArithTree.Term

open Text

/-! ### Cursors in a text -/

/-- The cursor stands in the text: behind its place the text has what is left to read. -/
def Within (text : List Char) (a : Cursor) : Prop := ∃ s, text = s ++ a.rest ∧ a.position = s.length

theorem within_start (text : String) : Within text.toList (.start text) := ⟨[], rfl, rfl⟩

variable {text : List Char}

theorem Within.slice {a b : Cursor} {s : List Char} (h : Within text a)
    (hrest : a.rest = s ++ b.rest) (hposition : b.position = a.position + s.length) :
    Within text b := by
  obtain ⟨before, rfl, ha⟩ := h
  refine ⟨before ++ s, ?_, ?_⟩
  · rw [hrest, List.append_assoc]
  · rw [hposition, ha, List.length_append]

theorem Within.head {p : Nat} {c : Char} {rest : List Char} (h : Within text ⟨p, c :: rest⟩) :
    text[p]? = some c := by
  obtain ⟨before, rfl, hp⟩ := h
  have hp : p = before.length := hp
  rw [hp, List.getElem?_append_right (Nat.le_refl _), Nat.sub_self]
  rfl

theorem Within.length_eq {p : Nat} (h : Within text ⟨p, []⟩) : p = text.length := by
  obtain ⟨before, rfl, hp⟩ := h
  rw [List.append_nil]
  exact hp

theorem Within.reads {a b : Cursor} {lexeme : Lexeme} (h : Within text a)
    (hreads : Reads a lexeme b) : Within text b := by
  obtain ⟨s, hrest, hposition, -⟩ := hreads.exists_slice
  exact h.slice hrest hposition

theorem Within.lexes {a b : Cursor} {items : List Placed} (h : Within text a)
    (hlexes : Lexes a items b) : Within text b := by
  obtain ⟨s, hs⟩ := hlexes.exists_covers
  exact h.slice hs.rest hs.position

/-! ### The reader -/

/-- The reader stops at the character that its fault speaks of, or at the end. -/
theorem Stops.marks {depth : Nat} {a b : Cursor} {cause : Cause} (h : Stops depth a cause b)
    (hb : Within text b) : cause.Marks text b.position := by
  cases h with
  | lexeme fails =>
    cases fails with
    | symbol => exact hb.head
    | point => exact hb.head
    | character => exact hb.head
  | stray => exact hb.head
  | ending => exact hb.length_eq

theorem isMarked_of_scan {text : String} {fault : Fault} (h : scan text = .error (.fault fault)) :
    fault.IsMarked text.toList := by
  obtain ⟨items, nesting, a, cause, b, hlexes, -, hstops, hfault⟩ := scan_eq_error_iff.1 h
  cases hfault
  obtain ⟨s, hs⟩ := hstops.exists_remains
  exact ⟨b.position, rfl,
    hstops.marks (((within_start text).lexes hlexes).slice hs.rest hs.position)⟩

/-! ### The pass -/

namespace Pass

/-- What the state of the pass tells of the text before the place `p`. -/
inductive Tracks (text : List Char) (p : Nat) : Pass → Prop where
  /-- Nothing but spaces was read. -/
  | start (blank : Blank text 0 p) : Tracks text p start
  /-- The innermost Term was just opened. -/
  | opening {q : Nat} {around : Nat} {opened : List Nat} (bracket : text[q]? = some '(')
    (before : q < p) (blank : Blank text (q + 1) p) :
    Tracks text p ⟨.nothing, q :: around :: opened⟩
  /-- An operand stands last. -/
  | operand {opened : List Nat} : Tracks text p ⟨.operand, opened⟩
  /-- An operator stands last. -/
  | operator {q : Nat} {opened : List Nat} (symbol : IsOperatorAt text q) (before : q < p)
    (blank : Blank text (q + 1) p) : Tracks text p ⟨.operator q, opened⟩

variable {p : Nat} {pass : Pass}

/-- A space is passed over. -/
theorem Tracks.space (h : Tracks text p pass) (char : text[p]? = some ' ') :
    Tracks text (p + 1) pass := by
  cases h with
  | start blank => exact .start (blank.snoc char)
  | opening bracket before blank =>
    exact .opening bracket (Nat.lt_succ_of_lt before) (blank.snoc char)
  | operand => exact .operand
  | operator symbol before blank =>
    exact .operator symbol (Nat.lt_succ_of_lt before) (blank.snoc char)

/-- What a lexeme begins with. -/
def Starts (c : Char) : Lexeme → Prop
  | .opening => c = '('
  | .closing => c = ')'
  | .number _ => c.isDigit
  | .identifier _ => isLetter c
  | .operator symbol => c = symbol ∧ symbol ∈ operatorSymbols

theorem exists_starts {a b : Cursor} {lexeme : Lexeme} (h : Reads a lexeme b)
    (ha : Within text a) : ∃ c, text[a.position]? = some c ∧ Starts c lexeme := by
  cases h with
  | opening => exact ⟨_, ha.head, rfl⟩
  | closing => exact ⟨_, ha.head, rfl⟩
  | @number p numeral rest d isNumeral head ends value =>
    obtain ⟨c, hc, hdigit⟩ := head
    obtain ⟨tail, rfl⟩ := List.head?_eq_some_iff.1 hc
    exact ⟨c, ha.head, hdigit⟩
  | @identifier p name rest nonempty letters ends =>
    obtain ⟨c, tail, rfl⟩ := List.exists_cons_of_ne_nil nonempty
    exact ⟨c, ha.head, letters c List.mem_cons_self⟩
  | operator isOperator => exact ⟨_, ha.head, rfl, isOperator⟩

/-- A lexeme that the pass accepts. -/
theorem Tracks.step {a b : Cursor} {lexeme : Lexeme} {next : Pass}
    (hreads : Reads a lexeme b) (ha : Within text a)
    (hstep : pass.step ⟨lexeme, a.position⟩ = .ok next) (hopened : pass.opened ≠ []) :
    Tracks text b.position next := by
  obtain ⟨last, opened⟩ := pass
  have hchar := exists_starts hreads ha
  cases hreads with
  | @opening p rest =>
    obtain ⟨around, outer, rfl⟩ := List.exists_cons_of_ne_nil hopened
    cases last with
    | operand => cases hstep
    | nothing | operator =>
      cases hstep
      exact .opening ha.head (Nat.lt_succ_self p) (blank_self text _)
  | closing =>
    cases last with
    | operand =>
      cases hstep
      exact .operand
    | nothing | operator => cases hstep
  | number | identifier =>
    cases last with
    | operand => cases hstep
    | nothing | operator =>
      cases hstep
      exact .operand
  | @operator p c rest isOperator =>
    cases last with
    | operand =>
      cases hstep
      exact .operator ⟨c, isOperator, ha.head⟩ (Nat.lt_succ_self p) (blank_self text _)
    | nothing | operator => cases hstep

/-- A lexeme that the pass refuses; outside of all Terms it may not be a closing bracket. -/
theorem Tracks.isMarked_of_step {a b : Cursor} {lexeme : Lexeme} {fault : Fault}
    (h : Tracks text a.position pass) (hreads : Reads a lexeme b) (ha : Within text a)
    (hinside : lexeme = .closing → 2 ≤ pass.opened.length)
    (hstep : pass.step ⟨lexeme, a.position⟩ = .error fault) : fault.IsMarked text := by
  obtain ⟨c, hc, hstarts⟩ := exists_starts hreads ha
  have hoperator : ∀ {symbol}, lexeme = .operator symbol → IsOperatorAt text a.position := by
    rintro symbol rfl
    exact ⟨c, hstarts.1 ▸ hstarts.2, hc⟩
  cases h with
  | start blank =>
    cases lexeme with
    | operator symbol =>
      cases hstep
      exact ⟨_, rfl, hoperator rfl, .inr blank⟩
    | closing => exact absurd (hinside rfl) (by simp [Pass.start])
    | opening | number | identifier => cases hstep
  | @opening q around opened bracket before blank =>
    cases lexeme with
    | operator symbol =>
      cases hstep
      exact ⟨_, rfl, hoperator rfl, .inl ⟨q, before, bracket, blank⟩⟩
    | closing =>
      cases hstep
      obtain rfl : c = ')' := hstarts
      exact ⟨q, rfl, .inl ⟨bracket, _, before, blank, hc⟩⟩
    | opening | number | identifier => cases hstep
  | operand =>
    cases lexeme with
    | number d =>
      cases hstep
      exact ⟨_, rfl, c, hc, .inl ⟨rfl, hstarts⟩⟩
    | identifier name =>
      cases hstep
      exact ⟨_, rfl, c, hc, .inr (.inl ⟨rfl, hstarts⟩)⟩
    | opening =>
      cases hstep
      exact ⟨_, rfl, c, hc, .inr (.inr ⟨rfl, hstarts⟩)⟩
    | closing | operator => cases hstep
  | @operator q opened symbol before blank =>
    cases lexeme with
    | operator other =>
      cases hstep
      exact ⟨_, rfl, hoperator rfl, q, before, symbol, blank⟩
    | closing =>
      cases hstep
      obtain rfl : c = ')' := hstarts
      exact ⟨q, rfl, symbol, _, before, blank, .inl hc⟩
    | opening | number | identifier => cases hstep

/-- The end of the text, where all Terms but the root are closed. -/
theorem Tracks.isMarked_of_finish {fault : Fault} (h : Tracks text text.length pass)
    (hclosed : pass.opened.length = 1) (hfinish : pass.finish = .error fault) :
    fault.IsMarked text := by
  cases h with
  | start blank =>
    cases hfinish
    exact ⟨0, rfl, .inr ⟨rfl, blank⟩⟩
  | opening => simp at hclosed
  | operand => cases hfinish
  | @operator q opened symbol before blank =>
    cases hfinish
    exact ⟨q, rfl, symbol, _, before, blank, .inr rfl⟩

/-- The pass has as many Terms open as the reader, the root included. -/
theorem length_opened_step {nesting nextNesting : Nesting} {item : Placed} {next : Pass}
    (hnesting : nesting.step item = .ok nextNesting) (hstep : pass.step item = .ok next)
    (h : pass.opened.length = nesting.outer.length + 1) :
    next.opened.length = nextNesting.outer.length + 1 := by
  rw [Nesting.length_outer_step hnesting]
  obtain ⟨lexeme, p⟩ := item
  obtain ⟨last, opened⟩ := pass
  have h : opened.length = nesting.outer.length + 1 := h
  cases lexeme with
  | opening =>
    cases last with
    | operand => cases hstep
    | nothing | operator =>
      cases hstep
      exact congrArg Nat.succ h
  | closing =>
    obtain ⟨inner, outer⟩ := nesting
    cases outer with
    | nil => cases hnesting
    | cons around outer =>
      cases last with
      | operand =>
        cases hstep
        rw [List.length_tail, h]
        rfl
      | nothing | operator => cases hstep
  | number | identifier | operator =>
    cases last <;> cases hstep <;> exact h

/-- What the pass refuses in a text whose lexemes nest. -/
theorem Tracks.isMarked_of_run {a b : Cursor} {items : List Placed} {nesting last : Nesting}
    {fault : Fault} (h : Lexes a items b) (hend : b.rest = []) (ha : Within text a)
    (htracks : Tracks text a.position pass) (hnesting : nesting.run items = .ok last)
    (hlast : last.outer = []) (hopened : pass.opened.length = nesting.outer.length + 1)
    (hrun : pass.run items = .error fault) : fault.IsMarked text := by
  induction h generalizing pass nesting with
  | nil a =>
    cases hnesting
    obtain ⟨p, rest⟩ := a
    cases hend
    obtain rfl : p = text.length := ha.length_eq
    rw [hlast] at hopened
    exact htracks.isMarked_of_finish hopened hrun
  | @space p rest items b _ ih =>
    exact ih hend (ha.slice (s := [' ']) rfl rfl) (htracks.space ha.head) hnesting hopened hrun
  | @cons a b c lexeme items first _ ih =>
    obtain ⟨mid, hmid, hrest⟩ := bind_eq_ok_iff.1 hnesting
    rcases bind_eq_error_iff.1 hrun with hstep | ⟨next, hstep, hmore⟩
    · refine htracks.isMarked_of_step first ha ?_ hstep
      rintro rfl
      obtain ⟨inner, outer⟩ := nesting
      cases outer with
      | nil => cases hmid
      | cons around outer =>
        rw [hopened]
        simp
    · have hne : pass.opened ≠ [] := List.ne_nil_of_length_eq_add_one hopened
      exact ih hend (ha.reads first) (.step first ha hstep hne) hrest
        (length_opened_step hmid hstep hopened) hmore

end Pass

theorem isMarked_of_check {text : String} {tree : Node} {fault : Fault}
    (h : scan text = .ok tree) (hcheck : tree.check = .error fault) :
    fault.IsMarked text.toList := by
  obtain ⟨items, nodes, b, hlexes, hend, hnests, rfl⟩ := scan_eq_ok_iff.1 h
  rw [check_of_nests hnests] at hcheck
  have hrun := run_root_iff.2 ⟨nodes, rfl, hnests⟩
  exact Pass.Tracks.isMarked_of_run hlexes hend (within_start text) (.start (blank_self _ 0)) hrun
    rfl rfl hcheck

end ArithTree.Term
