import ArithTree.Proofs.Text.Brackets
import ArithTree.Proofs.Term.Failure

/-!
# The place of a fault

A text without a tree is right up to the place of its fault: what stands before the place has a
tree once its open brackets are closed. With the character at the place it is wrong for good:
whatever follows, the fault is the same.

* `Replaces` : what stands behind lexemes may be replaced by what ends the same lexemes.
* `Covers` : the characters of lexemes, apart from what stands behind them.
* `Located` : the two laws of the place of a fault.
* `scan_fails_early` : every fault of a text is located at its place.
-/

namespace ArithTree.Term

open Text

/-! ### What stands behind a lexeme -/

/-- Whatever may stand in front of `rest` may stand in front of `other`. -/
structure Replaces (rest other : List Char) : Prop where
  /-- A numeral that ends before the one ends before the other. -/
  numeral : EndsNumeral rest → EndsNumeral other
  /-- And so does an identifier. -/
  identifier : EndsIdentifier rest → EndsIdentifier other

theorem replaces_of_head {rest other : List Char} (h : other.head? = rest.head?) :
    Replaces rest other := by
  constructor
  · intro hends
    rwa [EndsNumeral, h]
  · intro hends
    rwa [EndsIdentifier, h]

theorem Replaces.append {rest other : List Char} (h : Replaces rest other) (s : List Char) :
    Replaces (s ++ rest) (s ++ other) := by
  cases s with
  | nil => exact h
  | cons c s => exact replaces_of_head rfl

theorem endsNumeral_closings (n : Nat) : EndsNumeral (List.replicate n ')') := by
  cases n with
  | zero => exact endsNumeral_nil
  | succ n => exact endsNumeral_closing

theorem endsIdentifier_closings (n : Nat) : EndsIdentifier (List.replicate n ')') := by
  cases n with
  | zero => simp [EndsIdentifier]
  | succ n => simp [EndsIdentifier, List.replicate_succ]

theorem replaces_closings (rest : List Char) (n : Nat) :
    Replaces rest (List.replicate n ')') :=
  ⟨fun _ => endsNumeral_closings n, fun _ => endsIdentifier_closings n⟩

/-! ### The characters of lexemes -/

/-- The number of open Terms behind a lexeme. -/
def Lexeme.depth (n : Nat) : Lexeme → Nat
  | opening => n + 1
  | closing => n - 1
  | _ => n

theorem Nesting.length_outer_step {nesting next : Nesting} {item : Placed}
    (h : nesting.step item = .ok next) :
    next.outer.length = item.lexeme.depth nesting.outer.length := by
  obtain ⟨lexeme, p⟩ := item
  cases lexeme with
  | closing =>
    obtain ⟨inner, outer⟩ := nesting
    cases outer with
    | nil => cases h
    | cons around outer =>
      cases h
      rfl
  | opening =>
    cases h
    rfl
  | number d =>
    cases h
    rfl
  | identifier name =>
    cases h
    rfl
  | operator c =>
    cases h
    rfl

/-- A lexeme has characters of its own, which tell the brackets that it opens and closes. -/
theorem Reads.exists_slice {a b : Cursor} {lexeme : Lexeme} (h : Reads a lexeme b) :
    ∃ s, a.rest = s ++ b.rest ∧ b.position = a.position + s.length ∧
      (∀ other, Replaces b.rest other →
        Reads ⟨a.position, s ++ other⟩ lexeme ⟨b.position, other⟩) ∧
      ∀ n, unclosed n s = lexeme.depth n := by
  cases h with
  | opening => exact ⟨['('], rfl, rfl, fun _ _ => .opening, fun n => unclosed_opening n []⟩
  | closing => exact ⟨[')'], rfl, rfl, fun _ _ => .closing, fun n => unclosed_closing n []⟩
  | @number p numeral rest d isNumeral head ends value =>
    refine ⟨numeral, rfl, rfl, fun other hother => ?_, unclosed_unbracketed fun c hc => ?_⟩
    · exact .number isNumeral head (hother.numeral ends) value
    · rcases isNumeral.chars c hc with hdigit | rfl
      · exact (ne_of_isDigit hdigit).2
      · decide
  | @identifier p name rest nonempty letters ends =>
    refine ⟨name, rfl, rfl, fun other hother => ?_, unclosed_unbracketed fun c hc => ?_⟩
    · exact .identifier nonempty letters (hother.identifier ends)
    · exact (ne_of_isLetter (letters c hc)).2
  | @operator p c rest isOperator =>
    obtain ⟨⟨-, hopen, hclose⟩, -⟩ := ne_of_mem_operatorSymbols isOperator
    refine ⟨[c], rfl, rfl, fun _ _ => .operator isOperator, fun n => ?_⟩
    exact unclosed_other hopen hclose n []

/-- The characters `s` between two cursors hold the lexemes `items`, whatever stands behind them
that may stand there. -/
structure Covers (a : Cursor) (s : List Char) (items : List Placed) (b : Cursor) : Prop where
  /-- The characters are those between the cursors. -/
  rest : a.rest = s ++ b.rest
  /-- Their number is the distance of the cursors. -/
  position : b.position = a.position + s.length
  /-- The lexemes are read there, whatever stands behind. -/
  lexes : ∀ other, Replaces b.rest other → Lexes ⟨a.position, s ++ other⟩ items ⟨b.position, other⟩
  /-- The brackets left open are the Terms left open. -/
  depth : ∀ nesting next : Nesting, nesting.run items = .ok next →
    unclosed nesting.outer.length s = next.outer.length

theorem Lexes.exists_covers {a b : Cursor} {items : List Placed} (h : Lexes a items b) :
    ∃ s, Covers a s items b := by
  induction h with
  | nil a =>
    refine ⟨[], rfl, rfl, fun other _ => .nil _, fun nesting next hrun => ?_⟩
    cases hrun
    rfl
  | @space p rest items b _ ih =>
    obtain ⟨s, hs⟩ := ih
    refine ⟨' ' :: s, ?_, ?_, fun other hother => .space (hs.lexes other hother), ?_⟩
    · exact congrArg (' ' :: ·) hs.rest
    · have hposition : b.position = p + 1 + s.length := hs.position
      rw [hposition, List.length_cons, Nat.add_right_comm, Nat.add_assoc]
    · intro nesting next hrun
      rw [unclosed_other (by decide) (by decide)]
      exact hs.depth nesting next hrun
  | @cons a b c lexeme items first _ ih =>
    obtain ⟨t, hrest, hposition, hreads, hdepth⟩ := first.exists_slice
    obtain ⟨s, hs⟩ := ih
    refine ⟨t ++ s, ?_, ?_, fun other hother => ?_, fun nesting next hrun => ?_⟩
    · rw [hrest, hs.rest, List.append_assoc]
    · rw [hs.position, hposition, List.length_append, Nat.add_assoc]
    · have hfirst := hreads (s ++ other) (hs.rest ▸ hother.append s)
      rw [List.append_assoc]
      exact .cons hfirst (hs.lexes other hother)
    · rw [Nesting.run] at hrun
      obtain ⟨mid, hstep, hmore⟩ := bind_eq_ok_iff.1 hrun
      rw [unclosed_append, hdepth, ← Nesting.length_outer_step hstep]
      exact hs.depth mid next hmore

/-! ### Closing what is open -/

theorem exists_tree_of_run {text : String} {items : List Placed} {b : Cursor} {next : Nesting}
    (hlexes : Lexes (.start text) items b) (hend : b.rest = [])
    (hrun : Nesting.root.run items = .ok next) (houter : next.outer = []) :
    ∃ tree, scan text = .ok tree := by
  obtain ⟨inner, outer⟩ := next
  cases houter
  obtain ⟨nodes, -, hnests⟩ := run_root_iff.1 hrun
  exact ⟨_, scan_eq_ok_iff.2 ⟨items, nodes, b, hlexes, hend, hnests, rfl⟩⟩

/-- As many closing brackets as Terms are open close all of them. -/
theorem exists_closings (p n : Nat) :
    ∃ items, Lexes ⟨p, List.replicate n ')'⟩ items ⟨p + n, []⟩ ∧
      ∀ nesting : Nesting, nesting.outer.length = n →
        ∃ next, nesting.run items = .ok next ∧ next.outer = [] := by
  induction n generalizing p with
  | zero => exact ⟨[], .nil _, fun nesting h => ⟨nesting, rfl, List.length_eq_zero_iff.1 h⟩⟩
  | succ n ih =>
    obtain ⟨items, hlexes, hclose⟩ := ih (p + 1)
    have hend : p + (n + 1) = p + 1 + n := by omega
    refine ⟨⟨.closing, p⟩ :: items, ?_, fun nesting hdepth => ?_⟩
    · rw [hend, List.replicate_succ]
      exact .cons .closing hlexes
    · obtain ⟨inner, outer⟩ := nesting
      obtain ⟨around, outer, rfl⟩ := List.exists_cons_of_length_eq_add_one hdepth
      obtain ⟨next, hrun, hnone⟩ :=
        hclose ⟨around.push inner.close, outer⟩ (Nat.succ.inj hdepth)
      exact ⟨next, (Nesting.run_cons rfl).trans hrun, hnone⟩

/-- A text that consists of lexemes, which nest as far as they go, and does so in front of closing
brackets as well. -/
def IsOpen (s : List Char) : Prop :=
  ∃ items nesting, Nesting.root.run items = .ok nesting ∧
    ∀ n, Lexes ⟨0, s ++ List.replicate n ')'⟩ items ⟨s.length, List.replicate n ')'⟩

/-- It has a tree once its brackets are closed. -/
theorem IsOpen.exists_tree {s : List Char} (h : IsOpen s) :
    ∃ tree, scan (String.ofList (closed s)) = .ok tree := by
  obtain ⟨items, nesting, hrun, hlexes⟩ := h
  obtain ⟨t, ht⟩ := (hlexes 0).exists_covers
  have hst : t = s := List.append_cancel_right ht.rest.symm
  subst hst
  have hdepth : unclosed 0 t = nesting.outer.length := ht.depth .root nesting hrun
  obtain ⟨closings, hclosings, hclose⟩ := exists_closings t.length (unclosed 0 t)
  obtain ⟨next, hlast, houter⟩ := hclose nesting hdepth.symm
  have hall : Lexes (.start (String.ofList (closed t))) (items ++ closings)
      ⟨t.length + unclosed 0 t, []⟩ := by
    rw [Cursor.start, String.toList_ofList]
    exact (hlexes _).append hclosings
  refine exists_tree_of_run hall rfl ?_ houter
  rw [Nesting.run_append, hrun]
  exact hlast

/-! ### Places of faults -/

/-- The characters `s` from the place where the lexemes end to the place where reading stops: on
their own they could be one more lexeme, with the character behind them they are none. -/
structure Remains (depth : Nat) (a : Cursor) (s : List Char) (cause : Cause) (b : Cursor) :
    Prop where
  /-- The characters are those between the cursors. -/
  rest : a.rest = s ++ b.rest
  /-- Their number is the distance of the cursors. -/
  position : b.position = a.position + s.length
  /-- They are lexemes, none of them a bracket, if brackets are closed behind them. -/
  lexes : ∃ items, (∀ nesting : Nesting, ∃ next, nesting.run items = .ok next) ∧
    ∀ n, Lexes ⟨a.position, s ++ List.replicate n ')'⟩ items ⟨b.position, List.replicate n ')'⟩
  /-- The character behind them is enough for the fault. -/
  stops : b.rest ≠ [] → ∀ other, other.head? = b.rest.head? →
    Stops depth ⟨a.position, s ++ other⟩ cause ⟨b.position, other⟩

theorem exists_lexes_of_reads {p q : Nat} {s : List Char} {lexeme : Lexeme} {node : Node}
    (hreads : ∀ n, Reads ⟨p, s ++ List.replicate n ')'⟩ lexeme ⟨q, List.replicate n ')'⟩)
    (hleaf : Placed.leaf? ⟨lexeme, p⟩ = some node) :
    ∃ items, (∀ nesting : Nesting, ∃ next, nesting.run items = .ok next) ∧
      ∀ n, Lexes ⟨p, s ++ List.replicate n ')'⟩ items ⟨q, List.replicate n ')'⟩ := by
  refine ⟨[⟨lexeme, p⟩], fun nesting => ?_, fun n => .cons (hreads n) (.nil _)⟩
  exact ⟨_, (Nesting.run_cons (Nesting.step_leaf hleaf)).trans rfl⟩

theorem Fails.exists_remains {a b : Cursor} {cause : Cause} (h : Fails a cause b) (depth : Nat) :
    ∃ s, Remains depth a s cause b := by
  cases h with
  | @symbol p c rest other notDigit notLetter notOperator =>
    refine ⟨[], rfl, rfl, ⟨[], fun nesting => ⟨nesting, rfl⟩, fun n => .nil _⟩, ?_⟩
    intro _ next hhead
    obtain ⟨behind, rfl⟩ := List.head?_eq_some_iff.1 hhead
    exact .lexeme (.symbol other notDigit notLetter notOperator)
  | @point p numeral rest isNumeral head first =>
    obtain ⟨d, hd⟩ := exists_ofNumeral isNumeral
    have hreads : ∀ n, Reads ⟨p, numeral ++ List.replicate n ')'⟩ (.number d)
        ⟨p + numeral.length, List.replicate n ')'⟩ := fun n =>
      .number isNumeral head (endsNumeral_closings n) hd
    refine ⟨numeral, rfl, rfl, exists_lexes_of_reads hreads rfl, ?_⟩
    intro _ next hhead
    obtain ⟨behind, rfl⟩ := List.head?_eq_some_iff.1 hhead
    exact .lexeme (.point isNumeral head first)
  | @character p name c rest nonempty letters notLetter continues =>
    have hreads : ∀ n, Reads ⟨p, name ++ List.replicate n ')'⟩ (.identifier (String.ofList name))
        ⟨p + name.length, List.replicate n ')'⟩ := fun n =>
      .identifier nonempty letters (endsIdentifier_closings n)
    refine ⟨name, rfl, rfl, exists_lexes_of_reads hreads rfl, ?_⟩
    intro _ next hhead
    obtain ⟨behind, rfl⟩ := List.head?_eq_some_iff.1 hhead
    exact .lexeme (.character nonempty letters notLetter continues)

theorem Stops.exists_remains {depth : Nat} {a b : Cursor} {cause : Cause}
    (h : Stops depth a cause b) : ∃ s, Remains depth a s cause b := by
  cases h with
  | lexeme fails => exact fails.exists_remains depth
  | @stray p rest outside =>
    refine ⟨[], rfl, rfl, ⟨[], fun nesting => ⟨nesting, rfl⟩, fun n => .nil _⟩, ?_⟩
    intro _ next hhead
    obtain ⟨behind, rfl⟩ := List.head?_eq_some_iff.1 hhead
    exact .stray outside
  | @ending p inside =>
    refine ⟨[], rfl, rfl, ⟨[], fun nesting => ⟨nesting, rfl⟩, fun n => .nil _⟩, ?_⟩
    intro hnone
    exact absurd rfl hnone

/-- Reading stops at the end of the text because of a missing bracket, and nowhere else. -/
theorem Stops.kind {depth : Nat} {a b : Cursor} {cause : Cause} (h : Stops depth a cause b) :
    b.rest = [] ∧ cause = .missingClose ∧ a = b ∧ 0 < depth ∨
      b.rest ≠ [] ∧
        cause.kind ∈ [FaultKind.unexpectedCharacter, .malformedNumber, .unexpectedSymbol] := by
  cases h with
  | lexeme fails =>
    right
    cases fails with
    | symbol => exact ⟨List.cons_ne_nil _ _, by simp [Cause.kind]⟩
    | point => exact ⟨List.cons_ne_nil _ _, by simp [Cause.kind]⟩
    | character => exact ⟨List.cons_ne_nil _ _, by simp [Cause.kind]⟩
  | stray => exact .inr ⟨List.cons_ne_nil _ _, by simp [Cause.kind]⟩
  | ending inside => exact .inl ⟨rfl, rfl, rfl, inside⟩

/-- What is known of a fault that is found between the characters `s` and `rest` of a text. -/
structure Located (s : List Char) (cause : Cause) (rest : List Char) : Prop where
  /-- What stands before has a tree once its open brackets are closed. -/
  repaired : ∃ tree, scan (String.ofList (closed s)) = .ok tree
  /-- One more character, and the fault is the same whatever follows. -/
  stable : rest ≠ [] → ∀ other, other.head? = rest.head? →
    scan (String.ofList (s ++ other)) = .error (.fault ⟨cause, some s.length⟩)
  /-- In front of a character, the fault speaks of it. -/
  kind : rest ≠ [] →
    cause.kind ∈ [FaultKind.unexpectedCharacter, .malformedNumber, .unexpectedSymbol]
  /-- At the end of the text, a bracket is missing. -/
  ending : rest = [] → cause = .missingClose ∧ 0 < unclosed 0 s

theorem exists_located {text : String} {failure : Failure} (h : scan text = .error failure) :
    ∃ s cause rest, text.toList = s ++ rest ∧ failure = .fault ⟨cause, some s.length⟩ ∧
      Located s cause rest := by
  obtain ⟨items, nesting, a, cause, b, hlexes, hrun, hstops, rfl⟩ := scan_eq_error_iff.1 h
  obtain ⟨s, hs⟩ := hlexes.exists_covers
  obtain ⟨t, ht⟩ := hstops.exists_remains
  have hsplit : text.toList = s ++ t ++ b.rest := by
    rw [List.append_assoc, ← ht.rest, ← hs.rest]
    rfl
  have hstart : a.position = s.length := hs.position.trans (Nat.zero_add _)
  have hplace : b.position = (s ++ t).length := by
    rw [ht.position, hstart, List.length_append]
  -- The lexemes before the place are read whatever stands behind the first character there.
  have hbefore : ∀ other, Replaces b.rest other →
      Lexes ⟨0, s ++ t ++ other⟩ items ⟨a.position, t ++ other⟩ := by
    intro other hother
    rw [List.append_assoc]
    exact hs.lexes _ (ht.rest ▸ hother.append t)
  refine ⟨s ++ t, cause, b.rest, hsplit, ?_, ?_, ?_, ?_, ?_⟩
  · rw [Cursor.fault, hplace]
  · obtain ⟨more, hmore, hlast⟩ := ht.lexes
    obtain ⟨next, hnext⟩ := hmore nesting
    refine IsOpen.exists_tree ⟨items ++ more, next, ?_, fun n => ?_⟩
    · rw [Nesting.run_append, hrun]
      exact hnext
    · rw [← hplace]
      exact (hbefore _ (replaces_closings _ n)).append (hlast n)
  · intro hsome other hhead
    have hread := hbefore other (replaces_of_head hhead)
    have hstop := ht.stops hsome other hhead
    refine scan_eq_error_iff.2 ⟨items, nesting, _, cause, _, ?_, hrun, hstop, ?_⟩
    · rwa [Cursor.start, String.toList_ofList]
    · rw [Cursor.fault, hplace]
  · intro hsome
    rcases hstops.kind with ⟨hnone, -⟩ | ⟨-, hkind⟩
    · exact absurd hnone hsome
    · exact hkind
  · intro hnone
    rcases hstops.kind with ⟨-, rfl, rfl, hpos⟩ | ⟨hsome, -⟩
    · have hnil : t = [] := by
        have := ht.rest
        rwa [hnone, List.append_nil, eq_comm] at this
      rw [hnil, List.append_nil]
      exact ⟨rfl, Nat.lt_of_lt_of_eq hpos (hs.depth .root nesting hrun).symm⟩
    · exact absurd hnone hsome

/-- Every text that agrees with a text up to the place of its fault, and in the character there, has
the same fault. -/
theorem Located.extends {s rest : List Char} {cause : Cause} (h : Located s cause rest)
    (hsome : rest ≠ []) {other : String}
    (hother : (s ++ rest).take (s.length + 1) <+: other.toList) :
    scan other = .error (.fault ⟨cause, some s.length⟩) := by
  obtain ⟨c, tail, rfl⟩ := List.exists_cons_of_ne_nil hsome
  obtain ⟨behind, hbehind⟩ := hother
  have htake : (s ++ c :: tail).take (s.length + 1) = s ++ [c] := by
    rw [List.take_length_add_append, List.take_succ_cons, List.take_zero]
  have hlist : s ++ c :: behind = other.toList := by
    rw [← hbehind, htake, List.append_assoc, List.singleton_append]
  have hscan := h.stable hsome (c :: behind) rfl
  rwa [hlist, String.ofList_toList] at hscan

/-- The fault says whether its place is the end of the text. -/
theorem Located.end_iff {s rest : List Char} {cause : Cause} (h : Located s cause rest) :
    rest = [] ↔ cause.kind = .unexpectedEndOfInput := by
  constructor
  · intro hnone
    obtain ⟨rfl, -⟩ := h.ending hnone
    rfl
  · intro hkind
    by_cases hnone : rest = []
    · exact hnone
    · have hother := h.kind hnone
      rw [hkind] at hother
      exact absurd hother (by decide)

theorem unclosed_of_scan {text : String} {tree : Node} (h : scan text = .ok tree) :
    unclosed 0 text.toList = 0 := by
  obtain ⟨items, nodes, b, hlexes, hend, hnests, -⟩ := scan_eq_ok_iff.1 h
  obtain ⟨s, hs⟩ := hlexes.exists_covers
  have hall : text.toList = s := by
    have hrest : text.toList = s ++ _ := hs.rest
    rwa [hend, List.append_nil] at hrest
  rw [hall]
  exact hs.depth .root _ (run_root_iff.2 ⟨nodes, rfl, hnests⟩)

/-- **Faults of a text are reported at the first place possible.** Every text without a tree is
refused with a fault at a place `p` such that the text before `p` has a tree once its brackets are
closed, while all texts that agree up to `p`, the character there included, are refused with the
same fault. The place is the end of the text for those texts only that need nothing but their
brackets closed. -/
theorem scan_fails_early (text : String) :
    (∀ failure, scan text = .error failure → ∃ (cause : Cause) (p : Nat),
      failure = .fault ⟨cause, some p⟩ ∧ p ≤ text.length ∧
      cause.kind ∈ [FaultKind.unexpectedCharacter, .malformedNumber, .unexpectedSymbol,
        .unexpectedEndOfInput] ∧
      (∃ tree, scan (String.ofList (closed (text.toList.take p))) = .ok tree) ∧
      (p < text.length → ∀ other : String, text.toList.take (p + 1) <+: other.toList →
        scan other = .error failure) ∧
      (p = text.length ↔ cause.kind = .unexpectedEndOfInput)) ∧
    ((∃ fault, scan text = .error (.fault fault) ∧ fault.cause.kind = .unexpectedEndOfInput) ↔
      0 < unclosed 0 text.toList ∧
        ∃ tree, scan (String.ofList (closed text.toList)) = .ok tree) := by
  constructor
  · intro failure h
    obtain ⟨s, cause, rest, hsplit, rfl, hlocated⟩ := exists_located h
    have hlength : text.length = s.length + rest.length := by
      rw [← String.length_toList, hsplit, List.length_append]
    refine ⟨cause, s.length, rfl, by omega, ?_, ?_, fun hlt other hother => ?_, ?_⟩
    · by_cases hnone : rest = []
      · rw [hlocated.end_iff.1 hnone]
        decide
      · exact List.mem_append_left [_] (hlocated.kind hnone)
    · rw [hsplit, List.take_left]
      exact hlocated.repaired
    · rw [hsplit] at hother
      refine hlocated.extends ?_ hother
      rintro rfl
      rw [hlength] at hlt
      exact Nat.lt_irrefl _ hlt
    · rw [← hlocated.end_iff, ← List.length_eq_zero_iff]
      omega
  · constructor
    · rintro ⟨fault, h, hkind⟩
      obtain ⟨s, cause, rest, hsplit, hfailure, hlocated⟩ := exists_located h
      cases hfailure
      have hnone := hlocated.end_iff.2 hkind
      rw [hnone, List.append_nil] at hsplit
      rw [hsplit]
      exact ⟨(hlocated.ending hnone).2, hlocated.repaired⟩
    · rintro ⟨hopen, tree, htree⟩
      cases h : scan text with
      | ok other =>
        rw [unclosed_of_scan h] at hopen
        exact absurd hopen (Nat.lt_irrefl 0)
      | error failure =>
        obtain ⟨s, cause, rest, hsplit, rfl, hlocated⟩ := exists_located h
        by_cases hnone : rest = []
        · exact ⟨_, rfl, hlocated.end_iff.1 hnone⟩
        · -- A fault before the end would still be there with the brackets closed.
          have hprefix : (s ++ rest).take (s.length + 1) <+:
              (String.ofList (closed text.toList)).toList := by
            rw [String.toList_ofList, closed, hsplit]
            exact (List.take_prefix _ _).trans (List.prefix_append _ _)
          rw [hlocated.extends hnone hprefix] at htree
          cases htree

theorem scan_fails_early_point :
    let failure := Failure.fault ⟨.secondPoint, some 4⟩
    scan "(1.2.3" = .error failure ∧ (∃ tree, scan "(1.2)" = .ok tree) ∧
      ∀ other : String, "(1.2.".toList <+: other.toList → scan other = .error failure := by
  intro failure
  have hfails : Fails ⟨1, ['1', '.', '2'] ++ '.' :: ['3']⟩ .secondPoint ⟨1 + 3, ['.', '3']⟩ :=
    .point (by decide) ⟨'1', rfl, rfl⟩ (by decide)
  have h : scan "(1.2.3" = .error failure :=
    scan_eq_error_iff.2
      ⟨[⟨.opening, 0⟩], _, _, _, _, .cons .opening (.nil _), rfl, .lexeme hfails, rfl⟩
  obtain ⟨cause, p, hfailure, -, -, hrepaired, hstable, -⟩ :=
    (scan_fails_early "(1.2.3").1 failure h
  have hp : p = 4 := by
    injection hfailure with hfault
    injection hfault with _ hposition
    injection hposition with hposition
    omega
  subst hp
  exact ⟨h, hrepaired, hstable (by decide)⟩

end ArithTree.Term
