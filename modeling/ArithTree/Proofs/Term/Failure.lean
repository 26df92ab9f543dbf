import ArithTree.Proofs.Term.Nesting

/-!
# Texts without a tree

A text without a tree begins with lexemes that nest, as far as they go; behind them stands something
that cannot go on: no lexeme, a closing bracket outside of all Terms, or the end of the text inside
of one.

* `Stops` : what keeps a text from going on, with a given number of open Terms.
* `Nesting.run_eq_error_iff` : the lexemes that do not nest are those with a closing bracket that
  closes nothing.
* `scan_eq_error_iff` : the texts without a tree, each with its fault.
-/

namespace ArithTree.Term

open Text

/-! ### Lexemes that do not nest -/

theorem Nesting.run_append (nesting : Nesting) (items more : List Placed) :
    nesting.run (items ++ more) = (nesting.run items).bind fun next => next.run more := by
  induction items generalizing nesting with
  | nil => rfl
  | cons item items ih =>
    rw [List.cons_append, Nesting.run, Nesting.run]
    cases hstep : nesting.step item with
    | error p => rfl
    | ok next => exact ih next

theorem Nesting.step_eq_error_iff {nesting : Nesting} {item : Placed} {p : Nat} :
    nesting.step item = .error p ↔ item = ⟨.closing, p⟩ ∧ nesting.outer = [] := by
  obtain ⟨lexeme, q⟩ := item
  obtain ⟨inner, outer⟩ := nesting
  cases lexeme with
  | closing => cases outer <;> simp [Nesting.step]
  | opening => simp [Nesting.step]
  | number d => simp [Nesting.step]
  | identifier name => simp [Nesting.step]
  | operator c => simp [Nesting.step]

/-- Lexemes that do not nest hold a closing bracket outside of all Terms. -/
theorem Nesting.run_eq_error_iff {nesting : Nesting} {items : List Placed} {p : Nat} :
    nesting.run items = .error p ↔
      ∃ before behind next, items = before ++ ⟨.closing, p⟩ :: behind ∧
        nesting.run before = .ok next ∧ next.outer = [] := by
  constructor
  · intro h
    induction items generalizing nesting with
    | nil => cases h
    | cons item items ih =>
      cases hstep : nesting.step item with
      | error q =>
        rw [Nesting.run, hstep] at h
        cases h
        obtain ⟨rfl, houter⟩ := Nesting.step_eq_error_iff.1 hstep
        exact ⟨[], items, nesting, rfl, rfl, houter⟩
      | ok mid =>
        rw [Nesting.run_cons hstep] at h
        obtain ⟨before, behind, next, rfl, hrun, houter⟩ := ih h
        exact ⟨item :: before, behind, next, rfl, (Nesting.run_cons hstep).trans hrun, houter⟩
  · rintro ⟨before, behind, next, rfl, hrun, houter⟩
    rw [Nesting.run_append, hrun]
    show next.run (⟨.closing, p⟩ :: behind) = .error p
    rw [Nesting.run, Nesting.step_eq_error_iff.2 ⟨rfl, houter⟩]
    rfl

/-! ### Faults of a text -/

/-- With `depth` Terms open at the first cursor, reading goes no further than the second one. -/
inductive Stops (depth : Nat) : Cursor → Cause → Cursor → Prop where
  | lexeme {a b : Cursor} {cause : Cause} (fails : Fails a cause b) : Stops depth a cause b
  | stray {p : Nat} {rest : List Char} (outside : depth = 0) :
    Stops depth ⟨p, ')' :: rest⟩ .strayClose ⟨p, ')' :: rest⟩
  | ending {p : Nat} (inside : 0 < depth) : Stops depth ⟨p, []⟩ .missingClose ⟨p, []⟩

/-- **The texts without a tree** begin with lexemes that nest as far as they go, and stop there. -/
theorem scan_eq_error_iff {text : String} {failure : Failure} :
    scan text = .error failure ↔
      ∃ items nesting a cause b, Lexes (.start text) items a ∧
        Nesting.root.run items = .ok nesting ∧ Stops nesting.outer.length a cause b ∧
        failure = b.fault cause := by
  constructor
  · intro h
    rw [scan, Cursor.scan] at h
    cases hrun : Nesting.root.run (Cursor.start text).lex.lexemes with
    | error p =>
      simp only [hrun, Except.error.injEq] at h
      obtain ⟨before, behind, nesting, hitems, hbefore, houter⟩ := Nesting.run_eq_error_iff.1 hrun
      obtain ⟨c, hlexes, -⟩ := exists_lexes 0 text.toList
      have hsplit : Lexes (.start text) (before ++ ⟨.closing, p⟩ :: behind) c := hitems ▸ hlexes
      obtain ⟨d, hhead, htail⟩ := hsplit.append_inv
      obtain ⟨a, b, hspaces, hreads, hp, -⟩ := htail.cons_inv
      cases hreads
      cases hp
      have hreach := hhead.append (.of_spaces hspaces (.nil _))
      rw [List.append_nil] at hreach
      refine ⟨before, nesting, _, _, _, hreach, hbefore, .stray ?_, ?_⟩
      · rw [houter, List.length_nil]
      · rw [← h]
        simp [Cursor.fault, Cursor.skip, Cursor.start]
    | ok nesting =>
      cases houtcome : (Cursor.start text).lex.outcome with
      | error reason =>
        simp only [hrun, houtcome, Except.error.injEq] at h
        subst h
        obtain ⟨a, cause, hlexes, hfails, rfl⟩ := lex_eq_error_iff.1
          (show (Cursor.start text).lex = ⟨_, .error reason, _⟩ by rw [← houtcome])
        exact ⟨_, nesting, a, cause, _, hlexes, hrun, .lexeme hfails, rfl⟩
      | ok _ =>
        obtain ⟨hlexes, hend⟩ := lex_eq_iff.1
          (show (Cursor.start text).lex = ⟨_, .ok (), _⟩ by rw [← houtcome])
        obtain ⟨inner, outer⟩ := nesting
        cases outer with
        | nil => simp [hrun, houtcome] at h
        | cons next outer =>
          simp only [hrun, houtcome, Except.error.injEq] at h
          generalize (Cursor.start text).lex.cursor = b at hlexes hend h
          obtain ⟨p, rest⟩ := b
          cases hend
          exact ⟨_, _, _, _, _, hlexes, hrun, .ending (Nat.succ_pos _), h.symm⟩
  · rintro ⟨items, nesting, a, cause, b, hlexes, hrun, hstops, rfl⟩
    have hlex := lex_of_lexes hlexes
    cases hstops with
    | lexeme fails =>
      rw [lex_of_fails fails, List.append_nil] at hlex
      simp only [scan, Cursor.scan, hlex, hrun]
    | @stray p rest outside =>
      have hclose : Reads ⟨p, ')' :: rest⟩ .closing ⟨p + 1, rest⟩ := .closing
      rw [lex_eq_of_reads hclose] at hlex
      have herror : Nesting.root.run (Cursor.start text).lex.lexemes = .error p := by
        rw [hlex]
        exact Nesting.run_eq_error_iff.2
          ⟨items, _, nesting, rfl, hrun, List.length_eq_zero_iff.1 outside⟩
      simp only [scan, Cursor.scan, herror]
      simp [Cursor.fault, Cursor.skip, Cursor.start]
    | @ending p inside =>
      rw [lex_nil, List.append_nil] at hlex
      obtain ⟨next, outer, houter⟩ := List.exists_cons_of_length_pos inside
      simp only [scan, Cursor.scan, hlex, hrun, houter]

end ArithTree.Term
