import ArithTree.Proofs.Text.Boundary
import ArithTree.Term.Scan

/-!
# The lexemes of a text, as a relation

`Reads a lexeme b` says, without the reader, which lexeme stands between two cursors,
`Lexes a items b` that nothing but the given lexemes and spaces does, and `Fails a cause b` that no
lexeme stands at a cursor.

* `lex_eq_iff` : reading succeeds exactly on the texts that consist of lexemes and spaces, and its
  result is the list of these lexemes.
* `lex_eq_error_iff` : reading fails exactly where lexemes and spaces are followed by something
  else.
* `Lexes.cons_inv` : the first lexeme stands behind the spaces.
-/

namespace ArithTree.Term

open Text

/-- Zero or more spaces between two cursors. -/
inductive Spaces : Cursor → Cursor → Prop where
  | nil (a : Cursor) : Spaces a a
  | cons {p : Nat} {rest : List Char} {b : Cursor} (more : Spaces ⟨p + 1, rest⟩ b) :
    Spaces ⟨p, ' ' :: rest⟩ b

/-- A text that may stand behind an identifier. -/
def EndsIdentifier (rest : List Char) : Prop := ∀ c ∈ rest.head?, c = ' ' ∨ c = ')'

/-- One lexeme between two cursors, which could not be longer. -/
inductive Reads : Cursor → Lexeme → Cursor → Prop where
  | opening {p : Nat} {rest : List Char} : Reads ⟨p, '(' :: rest⟩ .opening ⟨p + 1, rest⟩
  | closing {p : Nat} {rest : List Char} : Reads ⟨p, ')' :: rest⟩ .closing ⟨p + 1, rest⟩
  | number {p : Nat} {numeral rest : List Char} {d : Decimal} (isNumeral : IsNumeral numeral)
    (head : ∃ c ∈ numeral.head?, c.isDigit) (ends : EndsNumeral rest)
    (value : Decimal.ofNumeral? numeral = some d) :
    Reads ⟨p, numeral ++ rest⟩ (.number d) ⟨p + numeral.length, rest⟩
  | identifier {p : Nat} {name rest : List Char} (nonempty : name ≠ [])
    (letters : ∀ c ∈ name, isLetter c) (ends : EndsIdentifier rest) :
    Reads ⟨p, name ++ rest⟩ (.identifier (String.ofList name)) ⟨p + name.length, rest⟩
  | operator {p : Nat} {c : Char} {rest : List Char} (isOperator : c ∈ operatorSymbols) :
    Reads ⟨p, c :: rest⟩ (.operator c) ⟨p + 1, rest⟩

/-- The lexemes between two cursors, with spaces before them and possibly behind. -/
inductive Lexes : Cursor → List Placed → Cursor → Prop where
  | nil (a : Cursor) : Lexes a [] a
  | space {p : Nat} {rest : List Char} {items : List Placed} {b : Cursor}
    (more : Lexes ⟨p + 1, rest⟩ items b) : Lexes ⟨p, ' ' :: rest⟩ items b
  | cons {a b c : Cursor} {lexeme : Lexeme} {items : List Placed} (first : Reads a lexeme b)
    (more : Lexes b items c) : Lexes a (⟨lexeme, a.position⟩ :: items) c

/-- No lexeme stands at the first cursor, because of the character at the second one. -/
inductive Fails : Cursor → Cause → Cursor → Prop where
  /-- The character begins no lexeme and is no space. -/
  | symbol {p : Nat} {c : Char} {rest : List Char} (other : c ∉ [' ', '(', ')'])
    (notDigit : ¬ c.isDigit) (notLetter : ¬ isLetter c) (notOperator : c ∉ operatorSymbols) :
    Fails ⟨p, c :: rest⟩ (.unknownSymbol c) ⟨p, c :: rest⟩
  /-- A numeral that has a point is followed by another one. -/
  | point {p : Nat} {numeral rest : List Char} (isNumeral : IsNumeral numeral)
    (head : ∃ c ∈ numeral.head?, c.isDigit) (first : '.' ∈ numeral) :
    Fails ⟨p, numeral ++ '.' :: rest⟩ .secondPoint ⟨p + numeral.length, '.' :: rest⟩
  /-- Letters are followed by a character that no identifier ends at. -/
  | character {p : Nat} {name : List Char} {c : Char} {rest : List Char} (nonempty : name ≠ [])
    (letters : ∀ d ∈ name, isLetter d) (notLetter : ¬ isLetter c)
    (continues : ¬ (c = ' ' ∨ c = ')')) :
    Fails ⟨p, name ++ c :: rest⟩ (.notInIdentifier c) ⟨p + name.length, c :: rest⟩

theorem Lexes.of_spaces {a b c : Cursor} {items : List Placed} (h : Spaces a b)
    (hb : Lexes b items c) : Lexes a items c := by
  induction h with
  | nil => exact hb
  | cons _ ih => exact .space (ih hb)

theorem Lexes.append {a b c : Cursor} {items more : List Placed} (h : Lexes a items b)
    (hb : Lexes b more c) : Lexes a (items ++ more) c := by
  induction h with
  | nil => exact hb
  | space _ ih => exact .space (ih hb)
  | cons first _ ih => exact .cons first (ih hb)

theorem Lexes.nil_inv {a b : Cursor} (h : Lexes a [] b) : Spaces a b := by
  generalize hitems : ([] : List Placed) = items at h
  induction h with
  | nil => exact .nil _
  | space _ ih => exact .cons (ih hitems)
  | cons => cases hitems

theorem Lexes.cons_inv {a c : Cursor} {item : Placed} {items : List Placed}
    (h : Lexes a (item :: items) c) :
    ∃ a' b, Spaces a a' ∧ Reads a' item.lexeme b ∧ item.position = a'.position ∧
      Lexes b items c := by
  generalize hitems : item :: items = all at h
  induction h with
  | nil => cases hitems
  | space _ ih =>
    obtain ⟨a', b, hs, hread, hp, hmore⟩ := ih hitems
    exact ⟨a', b, .cons hs, hread, hp, hmore⟩
  | cons first more =>
    cases hitems
    exact ⟨_, _, .nil _, first, rfl, more⟩

theorem Lexes.append_inv {a c : Cursor} {items more : List Placed}
    (h : Lexes a (items ++ more) c) : ∃ b, Lexes a items b ∧ Lexes b more c := by
  induction items generalizing a with
  | nil => exact ⟨a, .nil a, h⟩
  | cons item items ih =>
    obtain ⟨a', d, hspaces, hreads, hp, hrest⟩ := h.cons_inv
    obtain ⟨b, hitems, hmore⟩ := ih hrest
    refine ⟨b, .of_spaces hspaces ?_, hmore⟩
    obtain ⟨lexeme, p⟩ := item
    cases hp
    exact .cons hreads hitems

/-! ### What the reader makes of a lexeme -/

theorem lex_nil (p : Nat) : (Cursor.mk p []).lex = ⟨[], .ok (), ⟨p, []⟩⟩ := by
  rw [Cursor.lex, lexFrom]

theorem lex_space (p : Nat) (rest : List Char) :
    (Cursor.mk p (' ' :: rest)).lex = (Cursor.mk (p + 1) rest).lex := by
  rw [Cursor.lex, lexFrom, if_pos rfl, Cursor.lex]

theorem readNumber_numeral {p : Nat} {numeral rest : List Char} {d : Decimal}
    (h : IsNumeral numeral) (hrest : EndsNumeral rest)
    (hd : Decimal.ofNumeral? numeral = some d) :
    Cursor.readNumber ⟨p, numeral ++ rest⟩ = (.ok d, ⟨p + numeral.length, rest⟩) := by
  have hpoint : rest.head? ≠ some '.' := fun hp => hrest '.' hp (.inr rfl)
  simp only [Cursor.readNumber, spanNumeral_numeral h hrest, Cursor.current?, if_neg hpoint, hd]

theorem readIdentifier_name {p : Nat} {name rest : List Char} (hname : ∀ c ∈ name, isLetter c)
    (hrest : EndsIdentifier rest) :
    Cursor.readIdentifier ⟨p, name ++ rest⟩ =
      (.ok (String.ofList name), ⟨p + name.length, rest⟩) := by
  have hbehind : ∀ c ∈ rest.head?, ¬ isLetter c := by
    intro c hc
    rcases hrest c hc with rfl | rfl <;> rw [not_isLetter_of_mem (by decide)] <;> decide
  obtain ⟨htake, hdrop⟩ := span_append hname hbehind
  cases rest with
  | nil => simp only [Cursor.readIdentifier, htake, hdrop, Cursor.current?, List.head?_nil]
  | cons c rest =>
    have hc : c = ' ' ∨ c = ')' := hrest c (by simp)
    simp only [Cursor.readIdentifier, htake, hdrop, Cursor.current?, List.head?_cons, if_pos hc]

/-- A digit is none of the characters that are looked for before it. -/
theorem ne_of_isDigit {c : Char} (h : c.isDigit) : c ≠ ' ' ∧ c ≠ '(' ∧ c ≠ ')' := by
  refine ⟨?_, ?_, ?_⟩ <;> rintro rfl <;> exact absurd h (by decide)

/-- A letter is none of the characters that are looked for before it. -/
theorem ne_of_isLetter {c : Char} (h : isLetter c) : c ≠ ' ' ∧ c ≠ '(' ∧ c ≠ ')' := by
  refine ⟨?_, ?_, ?_⟩ <;> rintro rfl <;> exact absurd h (by decide)

/-- An operator is neither one of these nor does a number or an identifier begin with it. -/
theorem ne_of_mem_operatorSymbols {c : Char} (h : c ∈ operatorSymbols) :
    (c ≠ ' ' ∧ c ≠ '(' ∧ c ≠ ')') ∧ ¬ c.isDigit ∧ ¬ isLetter c := by
  have hall : operatorSymbols.all fun c => (c ≠ ' ' ∧ c ≠ '(' ∧ c ≠ ')') ∧ ¬ c.isDigit ∧
      ¬ isLetter c := by decide
  exact of_decide_eq_true (List.all_eq_true.1 hall c h)

/-- The reader finds the lexeme that stands at a cursor. -/
theorem lex_eq_of_reads {a b : Cursor} {lexeme : Lexeme} (h : Reads a lexeme b) :
    a.lex = b.lex.cons a.position lexeme := by
  cases h with
  | opening => rw [Cursor.lex, lexFrom, if_neg (by decide), if_pos rfl, Cursor.lex]
  | closing =>
    rw [Cursor.lex, lexFrom, if_neg (by decide), if_neg (by decide), if_pos rfl, Cursor.lex]
  | @number p numeral rest d isNumeral head ends value =>
    obtain ⟨c, hc, hdigit⟩ := head
    obtain ⟨tail, rfl⟩ : ∃ tail, numeral = c :: tail := by
      cases numeral with
      | nil => simp at hc
      | cons e tail => exact ⟨tail, by simpa using hc⟩
    obtain ⟨hspace, hopen, hclose⟩ := ne_of_isDigit hdigit
    have hread := readNumber_numeral (p := p) isNumeral ends value
    rw [List.cons_append] at hread
    simp only [Cursor.lex, List.cons_append]
    rw [lexFrom, if_neg hspace, if_neg hopen, if_neg hclose, dif_pos hdigit]
    simp only [hread]
  | @identifier p name rest nonempty letters ends =>
    obtain ⟨c, tail, rfl⟩ := List.exists_cons_of_ne_nil nonempty
    have hc : isLetter c := letters c List.mem_cons_self
    obtain ⟨hspace, hopen, hclose⟩ := ne_of_isLetter hc
    have hread := readIdentifier_name (p := p) letters ends
    rw [List.cons_append] at hread
    simp only [Cursor.lex, List.cons_append]
    rw [lexFrom, if_neg hspace, if_neg hopen, if_neg hclose, dif_neg (not_isDigit_of_isLetter hc),
      dif_pos hc]
    simp only [hread]
  | @operator p c rest isOperator =>
    obtain ⟨⟨hspace, hopen, hclose⟩, hdigit, hletter⟩ := ne_of_mem_operatorSymbols isOperator
    simp only [Cursor.lex]
    rw [lexFrom, if_neg hspace, if_neg hopen, if_neg hclose, dif_neg hdigit, dif_neg hletter,
      if_pos isOperator]

theorem lex_of_lexes {a b : Cursor} {items : List Placed} (h : Lexes a items b) :
    a.lex = ⟨items ++ b.lex.lexemes, b.lex.outcome, b.lex.cursor⟩ := by
  induction h with
  | nil => rfl
  | space _ ih => rw [lex_space, ih]
  | cons first _ ih =>
    rw [lex_eq_of_reads first, ih]
    rfl

theorem lex_of_fails {a b : Cursor} {cause : Cause} (h : Fails a cause b) :
    a.lex = ⟨[], .error (b.fault cause), b⟩ := by
  cases h with
  | @symbol p c rest other notDigit notLetter notOperator =>
    simp only [List.mem_cons, List.not_mem_nil, or_false, not_or] at other
    rw [Cursor.lex, lexFrom, if_neg other.1, if_neg other.2.1, if_neg other.2.2, dif_neg notDigit,
      dif_neg notLetter, if_neg notOperator]
  | @point p numeral rest isNumeral head first =>
    have hspan := spanNumeral_numeral_point isNumeral first rest
    obtain ⟨c, hc, hdigit⟩ := head
    obtain ⟨tail, rfl⟩ := List.head?_eq_some_iff.1 hc
    obtain ⟨hspace, hopen, hclose⟩ := ne_of_isDigit hdigit
    have hread : Cursor.readNumber ⟨p, c :: tail ++ '.' :: rest⟩ =
        (.error (Cursor.fault ⟨p + (c :: tail).length, '.' :: rest⟩ .secondPoint),
          ⟨p + (c :: tail).length, '.' :: rest⟩) := by
      simp only [Cursor.readNumber, hspan, Cursor.current?, List.head?_cons, if_pos]
    rw [List.cons_append] at hread
    simp only [Cursor.lex, List.cons_append]
    rw [lexFrom, if_neg hspace, if_neg hopen, if_neg hclose, dif_pos hdigit]
    simp only [hread]
  | @character p name c rest nonempty letters notLetter continues =>
    have hbehind : ∀ d ∈ (c :: rest).head?, ¬ isLetter d := by
      intro d hd
      cases hd
      exact notLetter
    obtain ⟨htake, hdrop⟩ := span_append letters hbehind
    obtain ⟨d, tail, rfl⟩ := List.exists_cons_of_ne_nil nonempty
    have hd : isLetter d := letters d List.mem_cons_self
    obtain ⟨hspace, hopen, hclose⟩ := ne_of_isLetter hd
    have hread : Cursor.readIdentifier ⟨p, d :: tail ++ c :: rest⟩ =
        (.error (Cursor.fault ⟨p + (d :: tail).length, c :: rest⟩ (.notInIdentifier c)),
          ⟨p + (d :: tail).length, c :: rest⟩) := by
      simp only [Cursor.readIdentifier, htake, hdrop, Cursor.current?, List.head?_cons,
        if_neg continues]
    rw [List.cons_append] at hread
    simp only [Cursor.lex, List.cons_append]
    rw [lexFrom, if_neg hspace, if_neg hopen, if_neg hclose, dif_neg (not_isDigit_of_isLetter hd),
      dif_pos hd]
    simp only [hread]

/-! ### Where the reader finds a lexeme -/

theorem reads_of_readNumber {a b : Cursor} {d : Decimal} (head : ∃ c ∈ a.rest.head?, c.isDigit)
    (h : a.readNumber = (.ok d, b)) : Reads a (.number d) b := by
  obtain ⟨p, text⟩ := a
  obtain ⟨c, hc, hdigit⟩ := head
  obtain ⟨rest, rfl⟩ : ∃ rest, text = c :: rest := List.head?_eq_some_iff.1 hc
  obtain ⟨hnumeral, hhead⟩ := isNumeral_span hdigit rest
  have happend := spanNumeral_append false (c :: rest)
  simp only [Cursor.readNumber] at h
  split at h
  · cases h
  · next hpoint =>
    split at h
    · next e hvalue =>
      cases h
      have := Reads.number (p := p) hnumeral ⟨c, hhead, hdigit⟩ (endsNumeral_span hpoint) hvalue
      rwa [happend] at this
    · cases h

theorem reads_of_readIdentifier {a b : Cursor} {name : String}
    (head : ∃ c ∈ a.rest.head?, isLetter c) (h : a.readIdentifier = (.ok name, b)) :
    Reads a (.identifier name) b := by
  obtain ⟨p, text⟩ := a
  obtain ⟨c, hc, hletter⟩ := head
  obtain ⟨rest, rfl⟩ : ∃ rest, text = c :: rest := List.head?_eq_some_iff.1 hc
  have hletters : ∀ e ∈ (c :: rest).takeWhile isLetter, isLetter e := fun e he =>
    List.all_eq_true.1 (List.all_takeWhile (l := c :: rest)) e he
  have hnonempty : (c :: rest).takeWhile isLetter ≠ [] := by
    rw [List.takeWhile_cons_of_pos hletter]
    exact List.cons_ne_nil _ _
  have hreads : EndsIdentifier ((c :: rest).dropWhile isLetter) →
      Reads ⟨p, c :: rest⟩ (.identifier (String.ofList ((c :: rest).takeWhile isLetter)))
        ⟨p + ((c :: rest).takeWhile isLetter).length, (c :: rest).dropWhile isLetter⟩ := by
    intro hends
    have := Reads.identifier (p := p) hnonempty hletters hends
    rwa [List.takeWhile_append_dropWhile] at this
  simp only [Cursor.readIdentifier] at h
  split at h
  · next hnone =>
    cases h
    exact hreads fun e he => by cases hnone.symm.trans he
  · next e hsome =>
    split at h
    · next hstop =>
      cases h
      refine hreads fun e' he' => ?_
      cases hsome.symm.trans he'
      exact hstop
    · cases h

theorem exists_ofNumeral {s : List Char} (h : IsNumeral s) :
    ∃ d, Decimal.ofNumeral? s = some d := by
  obtain ⟨c, hc, hdigit⟩ := h.digit
  have hkept : c ∈ s.filter (· ≠ '.') :=
    List.mem_filter.2 ⟨hc, decide_eq_true (isDigit_ne_point hdigit)⟩
  rw [Decimal.ofNumeral?, if_neg (List.ne_nil_of_mem hkept)]
  exact ⟨_, rfl⟩

theorem fails_of_readNumber {a b : Cursor} {failure : Failure}
    (head : ∃ c ∈ a.rest.head?, c.isDigit) (h : a.readNumber = (.error failure, b)) :
    ∃ cause, Fails a cause b ∧ failure = b.fault cause := by
  obtain ⟨p, text⟩ := a
  obtain ⟨c, hc, hdigit⟩ := head
  obtain ⟨rest, rfl⟩ : ∃ rest, text = c :: rest := List.head?_eq_some_iff.1 hc
  obtain ⟨hnumeral, hhead⟩ := isNumeral_span hdigit rest
  have happend := spanNumeral_append false (c :: rest)
  simp only [Cursor.readNumber] at h
  split at h
  · next hpoint =>
    cases h
    obtain ⟨behind, hbehind⟩ : ∃ behind, (spanNumeral false (c :: rest)).2 = '.' :: behind :=
      List.head?_eq_some_iff.1 hpoint
    have hfirst := (point_mem_span hpoint).resolve_left (by decide)
    have hfails : Fails ⟨p, (spanNumeral false (c :: rest)).1 ++ '.' :: behind⟩ .secondPoint _ :=
      .point hnumeral ⟨c, hhead, hdigit⟩ hfirst
    rw [← hbehind, happend] at hfails
    exact ⟨.secondPoint, hfails, rfl⟩
  · obtain ⟨d, hd⟩ := exists_ofNumeral hnumeral
    rw [hd] at h
    cases h

theorem fails_of_readIdentifier {a b : Cursor} {failure : Failure}
    (head : ∃ c ∈ a.rest.head?, isLetter c) (h : a.readIdentifier = (.error failure, b)) :
    ∃ cause, Fails a cause b ∧ failure = b.fault cause := by
  obtain ⟨p, text⟩ := a
  obtain ⟨c, hc, hletter⟩ := head
  obtain ⟨rest, rfl⟩ : ∃ rest, text = c :: rest := List.head?_eq_some_iff.1 hc
  have hletters : ∀ e ∈ (c :: rest).takeWhile isLetter, isLetter e := fun e he =>
    List.all_eq_true.1 (List.all_takeWhile (l := c :: rest)) e he
  have hnonempty : (c :: rest).takeWhile isLetter ≠ [] := by
    rw [List.takeWhile_cons_of_pos hletter]
    exact List.cons_ne_nil _ _
  simp only [Cursor.readIdentifier] at h
  split at h
  · cases h
  · next e hsome =>
    split at h
    · cases h
    · next hstop =>
      cases h
      obtain ⟨behind, hbehind⟩ : ∃ behind, (c :: rest).dropWhile isLetter = e :: behind :=
        List.head?_eq_some_iff.1 hsome
      have hother : ¬ isLetter e := by
        have := List.head?_dropWhile_not isLetter (c :: rest)
        rw [hbehind, List.head?_cons] at this
        simpa using this
      have hfails : Fails ⟨p, (c :: rest).takeWhile isLetter ++ e :: behind⟩ _ _ :=
        .character hnonempty hletters hother hstop
      rw [← hbehind, List.takeWhile_append_dropWhile] at hfails
      exact ⟨.notInIdentifier e, hfails, rfl⟩

/-- Reading goes on over lexemes and spaces, to the end of the text or to a place where there are
no more of them. -/
theorem exists_lexes (p : Nat) (text : List Char) :
    ∃ c, Lexes ⟨p, text⟩ (lexFrom p text).lexemes c ∧
      ((lexFrom p text).outcome = .ok () ∧ (lexFrom p text).cursor = c ∧ c.rest = [] ∨
        ∃ cause, Fails c cause (lexFrom p text).cursor ∧
          (lexFrom p text).outcome = .error ((lexFrom p text).cursor.fault cause)) := by
  fun_induction lexFrom p text with
  | case1 p => exact ⟨_, .nil _, .inl ⟨rfl, rfl, rfl⟩⟩
  | case2 p rest ih =>
    obtain ⟨c, hlexes, hends⟩ := ih
    exact ⟨c, .space hlexes, hends⟩
  | case3 p rest _ ih =>
    obtain ⟨c, hlexes, hends⟩ := ih
    exact ⟨c, .cons .opening hlexes, hends⟩
  | case4 p rest _ _ ih =>
    obtain ⟨c, hlexes, hends⟩ := ih
    exact ⟨c, .cons .closing hlexes, hends⟩
  | case5 p c rest _ _ _ hdigit reading d hd ih =>
    have hread : Reads ⟨p, c :: rest⟩ (.number d) reading.2 :=
      reads_of_readNumber ⟨c, rfl, hdigit⟩ (Prod.ext hd rfl)
    obtain ⟨e, hlexes, hends⟩ := ih
    exact ⟨e, .cons hread hlexes, hends⟩
  | case6 p c rest _ _ _ hdigit reading failure hfailure =>
    obtain ⟨cause, hfails, rfl⟩ :=
      fails_of_readNumber (a := ⟨p, c :: rest⟩) ⟨c, rfl, hdigit⟩ (Prod.ext hfailure rfl)
    exact ⟨_, .nil _, .inr ⟨cause, hfails, rfl⟩⟩
  | case7 p c rest _ _ _ _ hletter reading name hname ih =>
    have hread : Reads ⟨p, c :: rest⟩ (.identifier name) reading.2 :=
      reads_of_readIdentifier ⟨c, rfl, hletter⟩ (Prod.ext hname rfl)
    obtain ⟨e, hlexes, hends⟩ := ih
    exact ⟨e, .cons hread hlexes, hends⟩
  | case8 p c rest _ _ _ _ hletter reading failure hfailure =>
    obtain ⟨cause, hfails, rfl⟩ :=
      fails_of_readIdentifier (a := ⟨p, c :: rest⟩) ⟨c, rfl, hletter⟩ (Prod.ext hfailure rfl)
    exact ⟨_, .nil _, .inr ⟨cause, hfails, rfl⟩⟩
  | case9 p c rest _ _ _ _ _ hop ih =>
    obtain ⟨e, hlexes, hends⟩ := ih
    exact ⟨e, .cons (.operator hop) hlexes, hends⟩
  | case10 p c rest hspace hopen hclose hdigit hletter hop =>
    exact ⟨_, .nil _, .inr ⟨_, .symbol (by simp [*]) hdigit hletter hop, rfl⟩⟩

/-- **Reading succeeds exactly on the texts that consist of lexemes and spaces**, and finds these
lexemes. -/
theorem lex_eq_iff {a b : Cursor} {items : List Placed} :
    a.lex = ⟨items, .ok (), b⟩ ↔ Lexes a items b ∧ b.rest = [] := by
  constructor
  · intro h
    obtain ⟨c, hlexes, hends⟩ := exists_lexes a.position a.rest
    rw [← Cursor.lex, h] at hlexes hends
    rcases hends with ⟨-, rfl, hend⟩ | ⟨cause, -, hfailure⟩
    · exact ⟨hlexes, hend⟩
    · cases hfailure
  · rintro ⟨h, hend⟩
    obtain ⟨p, rest⟩ := b
    cases hend
    rw [lex_of_lexes h, lex_nil, List.append_nil]

/-- **Reading fails exactly where no more lexemes follow**, and finds those before. -/
theorem lex_eq_error_iff {a b : Cursor} {items : List Placed} {failure : Failure} :
    a.lex = ⟨items, .error failure, b⟩ ↔
      ∃ c cause, Lexes a items c ∧ Fails c cause b ∧ failure = b.fault cause := by
  constructor
  · intro h
    obtain ⟨c, hlexes, hends⟩ := exists_lexes a.position a.rest
    rw [← Cursor.lex, h] at hlexes hends
    rcases hends with ⟨hfailure, -⟩ | ⟨cause, hfails, hfailure⟩
    · cases hfailure
    · exact ⟨c, cause, hlexes, hfails, Except.error.inj hfailure⟩
  · rintro ⟨c, cause, hlexes, hfails, rfl⟩
    rw [lex_of_lexes hlexes, lex_of_fails hfails, List.append_nil]

end ArithTree.Term
