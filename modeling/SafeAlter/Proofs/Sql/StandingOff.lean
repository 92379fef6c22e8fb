import SafeAlter.Proofs.Sql.Lexing

/-! # Text behind a lexeme

Names, numbers and quoted texts end where a text stands off from them: they are cut from the front
of a text in the same way, whether such a text is behind it or not. The text that is added is left
unread. Any other text that no number goes on with is left unread as well, but for the letters at its
front behind a name or a number at the end.
-/
namespace SafeAlter.Sql
open SafeAlter.Text

/-- A text that no name or number in front of it takes a part of. -/
structure StandsOff (x : List Char) : Prop where
  notInName : ∀ c ∈ x.head?, isNamePart c = false
  notMark : ∀ c ∈ x.head?, c ∉ ['\x27', '\x22', '\x60', '.', '+']
  /-- A hyphen would belong to an exponent if a digit came next. -/
  notPower : ∀ y, x = '-' :: y → y.head?.any isDigit = false

theorem StandsOff.nil : StandsOff [] := ⟨nofun, nofun, nofun⟩

theorem StandsOff.cons {c : Char} (hname : isNamePart c = false)
    (hmark : c ∉ ['\x27', '\x22', '\x60', '.', '+']) (s : List Char)
    (hpower : c = '-' → s.head?.any isDigit = false) : StandsOff (c :: s) where
  notInName := by
    intro d hd
    cases hd
    exact hname
  notMark := by
    intro d hd
    cases hd
    exact hmark
  notPower := by
    rintro y hy
    obtain ⟨rfl, rfl⟩ := List.cons_eq_cons.1 hy
    exact hpower rfl

/-- A text that goes on with nothing that a number in front of it goes on with. -/
structure EndsNumber (x : List Char) : Prop where
  notHexDigit : ∀ c ∈ x.head?, isHexDigit c = false
  notMark : ∀ c ∈ x.head?, c ∉ ['.', '+', 'x', 'L', '_']
  notPower : ∀ y, x = '-' :: y → y.head?.any isDigit = false

/-! ## Characters of names -/

theorem isNamePart_of_isDigit {c : Char} (h : isDigit c = true) : isNamePart c = true := by
  have hd : c.isDigit = true := h
  rw [isNamePart, hd, Bool.or_true]

theorem isNamePart_of_isHexDigit {c : Char} (h : isHexDigit c = true) : isNamePart c = true := by
  simp only [isHexDigit, Bool.or_eq_true, Bool.and_eq_true, decide_eq_true_eq] at h
  rcases h with (hd | ⟨hl, hu⟩) | ⟨hl, hu⟩
  · exact isNamePart_of_isDigit hd
  · have hz : c ≤ 'z' := Char.le_trans hu (by decide)
    have hlower : c.isLower = true := Bool.and_eq_true_iff.2 ⟨decide_eq_true hl, decide_eq_true hz⟩
    exact isNamePart_of_isAlpha (Bool.or_eq_true_iff.2 (.inr hlower))
  · have hz : c ≤ 'Z' := Char.le_trans hu (by decide)
    have hupper : c.isUpper = true := decide_eq_true ⟨hl, hz⟩
    exact isNamePart_of_isAlpha (Bool.or_eq_true_iff.2 (.inl hupper))

theorem isNamePart_of_isNumericCharacter {c : Char} (h : isNumericCharacter c = true) :
    isNamePart c = true := by
  obtain ⟨r, hr, hc⟩ := List.any_eq_true.1 h
  simp only [Bool.and_eq_true, decide_eq_true_eq] at hc
  have hranges : ∀ r ∈ numericRanges, r = (0x30, 0x39) ∨ 0x80 ≤ r.1 := by decide +kernel
  rcases hranges r hr with rfl | hlarge
  · refine isNamePart_of_isDigit ?_
    simp only [isDigit, Char.isDigit, Bool.and_eq_true, decide_eq_true_eq]
    exact hc
  · have hwide : 0x80 ≤ c.toNat := Nat.le_trans hlarge hc.1
    simp [isNamePart, isNameStart, hwide]

/-! ## Pieces -/

/-- A piece of a text that goes on. -/
def Piece.followedBy (p : Piece) (x : List Char) : Piece := (p.1, p.2 ++ x)

theorem Piece.followedBy_inj {p p' : Piece} {x : List Char} :
    p.followedBy x = p'.followedBy x ↔ p = p' := by
  obtain ⟨front, rest⟩ := p
  obtain ⟨front', rest'⟩ := p'
  simp [Piece.followedBy]

/-- A cut of a text that goes on with another one, which is left unread. -/
def Cut.followedBy (k : Cut) (x : List Char) : Cut := ⟨k.kind, k.piece.followedBy x⟩

theorem Cut.followedBy_inj {k k' : Cut} {x : List Char} :
    k.followedBy x = k'.followedBy x ↔ k = k' := by
  obtain ⟨kind, front, rest⟩ := k
  obtain ⟨kind', front', rest'⟩ := k'
  simp [Cut.followedBy, Piece.followedBy]

theorem Cut.le_length_followedBy (k : Cut) (x : List Char) :
    x.length ≤ (k.followedBy x).piece.2.length := by
  simp [Cut.followedBy, Piece.followedBy]

section
variable {c : Char} {s x : List Char}

theorem StandsOff.notIn {q : Char → Bool} (hx : StandsOff x)
    (hq : ∀ c, q c = true → isNamePart c = true) : ∀ c ∈ x.head?, q c = false := by
  intro c hc
  have hpart := hx.notInName c hc
  cases hqc : q c with
  | false => rfl
  | true => rw [hq c hqc] at hpart; cases hpart

/-- No character of a name stands at the front. -/
theorem StandsOff.head_ne (hx : StandsOff x) (hc : isNamePart c = true) : x.head? ≠ some c := by
  intro hhead
  rw [hx.notInName c hhead] at hc
  cases hc

theorem stretch_append {q : Char → Bool} (hq : ∀ c ∈ x.head?, q c = false) (s : List Char) :
    stretch q (s ++ x) = (stretch q s).followedBy x := by
  induction s with
  | nil =>
    cases x with
    | nil => rfl
    | cons d x => simp [stretch, Piece.followedBy, hq d rfl]
  | cons c s ih =>
    simp only [stretch, Piece.followedBy, Prod.mk.injEq, List.cons_append, List.takeWhile_cons,
      List.dropWhile_cons] at ih ⊢
    split
    · exact ⟨congrArg (c :: ·) ih.1, ih.2⟩
    · exact ⟨rfl, rfl⟩

theorem StandsOff.endsNumber (hx : StandsOff x) : EndsNumber x where
  notHexDigit := hx.notIn fun _ => isNamePart_of_isHexDigit
  notMark := by
    intro c hc
    have hmark := hx.notMark c hc
    have hname : ∀ d ∈ ['x', 'L', '_'], c ≠ d := by
      rintro d hd rfl
      exact hx.head_ne ((List.all_eq_true.1 rfl : ∀ d ∈ ['x', 'L', '_'], isNamePart d = true) c hd) hc
    grind
  notPower := hx.notPower

theorem EndsNumber.not_isDigit (hx : EndsNumber x) : ∀ c ∈ x.head?, isDigit c = false := by
  intro c hc
  have hhex := hx.notHexDigit c hc
  simp only [isHexDigit, Bool.or_eq_false_iff] at hhex
  exact hhex.1.1

theorem EndsNumber.head_ne (hx : EndsNumber x) (hc : isHexDigit c = true) :
    x.head? ≠ some c := by
  intro hhead
  rw [hx.notHexDigit c hhead] at hc
  cases hc

theorem stretch_isDigit_append (hx : EndsNumber x) (s : List Char) :
    stretch isDigit (s ++ x) = (stretch isDigit s).followedBy x :=
  stretch_append hx.not_isDigit s

/-- An exponent with the text after it, which goes on. -/
def Exponent.followedBy (e : Exponent) (x : List Char) : Exponent :=
  match e with
  | .absent => .absent
  | .unfinished => .unfinished
  | .present p => .present (p.followedBy x)

theorem exponent_of_endsNumber (hx : EndsNumber x) : exponent x = .absent := by
  cases x with
  | nil => rfl
  | cons d y =>
    have he : d ≠ 'e' := fun h => hx.head_ne (c := 'e') rfl (by rw [h]; rfl)
    have hE : d ≠ 'E' := fun h => hx.head_ne (c := 'E') rfl (by rw [h]; rfl)
    simp [exponent, he, hE]

theorem exponent_mark_append (hx : EndsNumber x) (c : Char) : exponent (c :: x) = exponent [c] := by
  cases x with
  | nil => rfl
  | cons d y =>
    have hdigit : isDigit d = false := hx.not_isDigit d rfl
    have hplus : d ≠ '+' := fun h => hx.notMark d rfl (by simp [h])
    have hpower : d = '-' → y.head?.any isDigit = false := by
      rintro rfl
      exact hx.notPower y rfl
    simp only [exponent]
    grind

theorem exponent_append (hx : EndsNumber x) (s : List Char) :
    exponent (s ++ x) = (exponent s).followedBy x := by
  have hd := stretch_isDigit_append hx
  match s with
  | [] =>
    rw [List.nil_append, exponent_of_endsNumber hx]
    rfl
  | [c] =>
    rw [List.singleton_append, exponent_mark_append hx]
    simp only [exponent]
    split <;> rfl
  | c :: d :: t =>
    have ht : (t ++ x).head?.any isDigit = t.head?.any isDigit := by
      cases t with
      | cons e t => rfl
      | nil =>
        cases x with
        | nil => rfl
        | cons e x => exact hx.not_isDigit e rfl
    simp only [List.cons_append, exponent, ht, hd]
    rw [← List.cons_append, hd]
    grind [Exponent.followedBy, Piece.cons, Piece.followedBy]

/-! ## Names and numbers -/

/-- A cut of a text that goes on, where the letters at the front of what is added make a longer word
of it. -/
def Cut.lettered (k : Cut) (x : List Char) : Cut :=
  let letters := stretch isNamePart x
  ⟨if letters.1 = [] then k.kind else .word false, (k.piece.1 ++ letters.1, letters.2)⟩

/-- How the cut of a name or a number changes where the text goes on: it does not, unless it reaches
to the end of the text. -/
inductive Cut.GoesOn (x : List Char) (k : Cut) : Cut → Prop where
  | followed : GoesOn x k (k.followedBy x)
  | lettered (hend : k.piece.2 = []) (hk : k.kind.isNumeric = true) : GoesOn x k (k.lettered x)

theorem Cut.GoesOn.eq {k k' : Cut} (h : k.GoesOn x k') (hx : StandsOff x) :
    k' = k.followedBy x := by
  cases h with
  | followed => rfl
  | lettered hend =>
    have hletters : stretch isNamePart x = ([], x) := by
      have hnone := stretch_append hx.notInName []
      rwa [List.nil_append] at hnone
    simp only [Cut.lettered, hletters, if_pos, List.append_nil, Cut.followedBy, Piece.followedBy,
      hend, List.nil_append]

theorem stretch_append_cases (q : Char → Bool) (s x : List Char) :
    stretch q (s ++ x) = (stretch q s).followedBy x ∨
      stretch q s = (s, []) ∧ stretch q (s ++ x) = (s ++ (stretch q x).1, (stretch q x).2) := by
  induction s with
  | nil => exact .inr ⟨rfl, rfl⟩
  | cons c s ih =>
    simp only [stretch, Piece.followedBy, Prod.mk.injEq, List.cons_append, List.takeWhile_cons,
      List.dropWhile_cons] at ih ⊢
    split
    · grind
    · exact .inl ⟨rfl, rfl⟩

theorem wordCut_goesOn (start s x : List Char) :
    (wordCut start s).GoesOn x (wordCut start (s ++ x)) := by
  rw [wordCut, wordCut]
  rcases stretch_append_cases isNamePart s x with h | ⟨hs, h⟩
  · rw [h]
    exact .followed
  · have hletters : Cut.lettered ⟨.word false, (start ++ s, [])⟩ x =
        ⟨.word false, (start ++ (s ++ (stretch isNamePart x).1), (stretch isNamePart x).2)⟩ := by
      simp [Cut.lettered]
    simp only [h, hs]
    rw [← hletters]
    exact .lettered rfl rfl

theorem numberEnd_goesOn (hx : EndsNumber x) (afterPeriod : Bool) (mantissa s : List Char) :
    (numberEnd afterPeriod mantissa s).GoesOn x (numberEnd afterPeriod mantissa (s ++ x)) := by
  unfold numberEnd
  rw [exponent_append hx]
  cases exponent s with
  | absent =>
    simp only [Exponent.followedBy]
    rcases stretch_append_cases isNamePart s x with h | ⟨hs, h⟩
    · rw [h]
      exact .followed
    · have hletters : Cut.lettered ⟨if s = [] then .other else .word false, (mantissa ++ s, [])⟩ x =
          ⟨if s ++ (stretch isNamePart x).1 = [] then .other else .word false,
            (mantissa ++ (s ++ (stretch isNamePart x).1), (stretch isNamePart x).2)⟩ := by
        simp only [Cut.lettered, List.append_eq_nil_iff, List.append_assoc]
        grind
      rw [h, hs]
      simp only
      rw [← hletters]
      refine .lettered rfl ?_
      split <;> rfl
  | unfinished => exact .followed
  | present p =>
    obtain ⟨text, rest⟩ := p
    simp only [Exponent.followedBy, Piece.followedBy]
    cases afterPeriod with
    | true => exact .followed
    | false =>
      -- only an `L` at once behind the exponent would be taken
      have hfollowed : ∀ {k k' : Cut}, k' = k.followedBy x → k.GoesOn x k' := by
        rintro k k' rfl
        exact .followed
      apply hfollowed
      cases rest with
      | nil =>
        cases x with
        | nil => rfl
        | cons d y =>
          have hd : d ≠ 'L' := fun h => hx.notMark d rfl (by simp [h])
          simp [hd, Cut.followedBy, Piece.followedBy]
      | cons d rest =>
        by_cases hd : d = 'L'
        · subst hd
          rfl
        · simp [hd, Cut.followedBy, Piece.followedBy]

theorem digitCut_goesOn (hx : EndsNumber x) (afterPeriod : Bool) (s : List Char) :
    (digitCut afterPeriod s).GoesOn x (digitCut afterPeriod (s ++ x)) := by
  unfold digitCut
  rw [stretch_isDigit_append hx]
  rcases hw : stretch isDigit s with ⟨whole, _ | ⟨d, t⟩⟩
  · have hend := numberEnd_goesOn hx afterPeriod whole []
    cases x with
    | nil => exact hend
    | cons d y =>
      have hd : d ≠ 'x' := fun h => hx.notMark d rfl (by simp [h])
      have hp : d ≠ '.' := fun h => hx.notMark d rfl (by simp [h])
      simpa [hd, hp, Piece.followedBy] using hend
  · by_cases hd : d = 'x'
    · subst hd
      simp only [Piece.followedBy, List.cons_append, stretch_append hx.notHexDigit]
      split
      · exact .followed
      · exact numberEnd_goesOn hx afterPeriod whole ('x' :: t)
    · by_cases hp : d = '.'
      · subst hp
        simp only [Piece.followedBy, List.cons_append, stretch_isDigit_append hx]
        exact numberEnd_goesOn hx ..
      · have hend := numberEnd_goesOn hx afterPeriod whole (d :: t)
        simpa [hd, hp, Piece.followedBy] using hend

/-- A fault stays, and so does a cut as far as that of a number does. -/
theorem periodCut_goesOn (hx : EndsNumber x) (previous : Option LexemeKind) (s : List Char) :
    ∃ f : Cut → Cut, (∀ k, periodCut previous s = .ok k → k.GoesOn x (f k)) ∧
      periodCut previous (s ++ x) = (periodCut previous s).map f := by
  have hhead : (s ++ x).head? = some '_' ↔ s.head? = some '_' := by
    cases s with
    | cons c s => rfl
    | nil => exact iff_of_false (fun h => hx.notMark '_' h (by decide)) nofun
  obtain ⟨fraction, rest, hs⟩ : ∃ fraction rest, stretch isDigit s = (fraction, rest) :=
    ⟨_, _, rfl⟩
  have hsx : stretch isDigit (s ++ x) = (fraction, rest ++ x) := by
    rw [stretch_isDigit_append hx, hs]
    rfl
  unfold periodCut
  simp only [hs, hsx, hhead]
  by_cases hw : previous.any isWord = true
  · simp only [if_pos hw]
    exact ⟨(·.followedBy x), fun k _ => .followed, rfl⟩
  · by_cases hu : s.head? = some '_'
    · simp only [if_neg hw, if_pos hu]
      exact ⟨(·.followedBy x), fun k _ => .followed, rfl⟩
    · by_cases hf : fraction = []
      · simp only [if_neg hw, if_neg hu, if_pos hf]
        exact ⟨(·.followedBy x), fun k _ => .followed, rfl⟩
      · simp only [if_neg hw, if_neg hu, if_neg hf]
        refine ⟨fun _ => numberEnd (previous == some .period) ('.' :: fraction) (rest ++ x), ?_, rfl⟩
        rintro k ⟨⟩
        exact numberEnd_goesOn hx ..

theorem digitCut_append (hx : StandsOff x) (afterPeriod : Bool) (s : List Char) :
    digitCut afterPeriod (s ++ x) = (digitCut afterPeriod s).followedBy x :=
  (digitCut_goesOn hx.endsNumber afterPeriod s).eq hx

theorem periodCut_append (hx : StandsOff x) (previous : Option LexemeKind) (s : List Char) :
    periodCut previous (s ++ x) = (periodCut previous s).map (·.followedBy x) := by
  obtain ⟨f, hf, heq⟩ := periodCut_goesOn hx.endsNumber previous s
  rw [heq]
  cases hk : periodCut previous s with
  | error stop => rfl
  | ok k => exact congrArg Except.ok ((hf k hk).eq hx)

theorem wordCut_append (hx : StandsOff x) (start s : List Char) :
    wordCut start (s ++ x) = (wordCut start s).followedBy x :=
  (wordCut_goesOn start s x).eq hx

/-! ## Quoted texts and comments -/

/-- A text that is closed by a quote, and not before its end. -/
inductive ClosedBy (quote : Char) (escapes : Bool) : List Char → Prop where
  | close : ClosedBy quote escapes [quote]
  | doubled {s : List Char} (h : ClosedBy quote escapes s) :
      ClosedBy quote escapes (quote :: quote :: s)
  | escaped {c d : Char} {s : List Char} (hc : c ≠ quote) (hescape : (escapes && c == '\\') = true)
      (h : ClosedBy quote escapes s) : ClosedBy quote escapes (c :: d :: s)
  | plain {c : Char} {s : List Char} (hc : c ≠ quote) (hescape : (escapes && c == '\\') = false)
      (h : ClosedBy quote escapes s) : ClosedBy quote escapes (c :: s)

theorem ClosedBy.quotedRest_append {quote : Char} {escapes : Bool} {text : List Char}
    (h : ClosedBy quote escapes text) (hs : s.head? ≠ some quote) :
    quotedRest quote escapes (text ++ s) = some (text, s) := by
  induction h with
  | close =>
    cases s with
    | nil => simp [quotedRest]
    | cons d s =>
      have hd : d ≠ quote := fun he => hs (congrArg some he)
      simp [quotedRest, hd]
  | doubled h ih => simp [quotedRest, ih, Piece.cons]
  | escaped hc hescape h ih =>
    rw [List.cons_append, List.cons_append, quotedRest, if_neg hc, if_pos hescape, ih]
    rfl
  | @plain c text hc hescape h ih =>
    obtain ⟨d, text, rfl⟩ : ∃ d text', text = d :: text' := by
      cases h <;> exact ⟨_, _, rfl⟩
    rw [List.cons_append, List.cons_append, quotedRest, if_neg hc, hescape,
      if_neg Bool.false_ne_true, ← List.cons_append, ih]
    rfl

theorem closedBy_of_quotedRest {quote : Char} {escapes : Bool} {p : Piece}
    (h : quotedRest quote escapes s = some p) :
    ClosedBy quote escapes p.1 ∧ p.2.head? ≠ some quote := by
  fun_induction quotedRest quote escapes s generalizing p with
  | case1 => cases h
  | case2 =>
    cases h
    exact ⟨.close, by simp⟩
  | case3 => cases h
  | case4 s ih =>
    obtain ⟨q, hr, rfl⟩ := Option.map_eq_some_iff.1 h
    exact (ih hr).imp_left .doubled
  | case5 d s hd =>
    cases h
    exact ⟨.close, fun he => hd (Option.some.inj he)⟩
  | case6 c d s hc hescape ih =>
    obtain ⟨q, hr, rfl⟩ := Option.map_eq_some_iff.1 h
    exact (ih hr).imp_left (.escaped hc hescape)
  | case7 c d s hc hescape ih =>
    obtain ⟨q, hr, rfl⟩ := Option.map_eq_some_iff.1 h
    exact (ih hr).imp_left (.plain hc (Bool.eq_false_iff.2 hescape))

/-- A quoted text is read off a text in the same way if that goes on with another character than
the quote. -/
theorem quotedRest_append_iff {quote : Char} (hx : x.head? ≠ some quote) {escapes : Bool}
    {p : Piece} :
    quotedRest quote escapes (s ++ x) = some (p.followedBy x) ↔
      quotedRest quote escapes s = some p := by
  have hhead : (p.2 ++ x).head? ≠ some quote ↔ p.2.head? ≠ some quote := by
    cases p.2 with
    | nil => simpa using hx
    | cons d rest => rfl
  constructor
  · intro h
    obtain ⟨hclosed, hrest⟩ := closedBy_of_quotedRest h
    have hjoin : p.1 ++ p.2 ++ x = s ++ x := by
      rw [List.append_assoc]
      exact quotedRest_join h
    rw [← List.append_cancel_right hjoin]
    exact hclosed.quotedRest_append (hhead.1 hrest)
  · intro h
    obtain ⟨hclosed, hrest⟩ := closedBy_of_quotedRest h
    rw [← quotedRest_join h, List.append_assoc]
    exact hclosed.quotedRest_append (hhead.2 hrest)

/-- A text that is closed by the end mark of a comment, and not before its end. -/
inductive ClosesComment : List Char → Prop where
  | close : ClosesComment ['*', '/']
  | plain {c d : Char} {s : List Char} (hend : ¬(c = '*' && d = '/') = true)
      (h : ClosesComment (d :: s)) : ClosesComment (c :: d :: s)

theorem ClosesComment.commentRest_append {text : List Char} (h : ClosesComment text)
    (s : List Char) : commentRest (text ++ s) = some (text, s) := by
  induction h with
  | close => simp [commentRest]
  | plain hend h ih =>
    rw [List.cons_append, List.cons_append, commentRest, if_neg hend, ← List.cons_append, ih]
    rfl

theorem closesComment_of_commentRest {p : Piece} (h : commentRest s = some p) :
    ClosesComment p.1 := by
  fun_induction commentRest s generalizing p with
  | case1 => cases h
  | case2 => cases h
  | case3 c d s hend =>
    cases h
    simp only [Bool.and_eq_true, decide_eq_true_eq] at hend
    obtain ⟨rfl, rfl⟩ := hend
    exact .close
  | case4 c d s hend ih =>
    obtain ⟨q, hr, rfl⟩ := Option.map_eq_some_iff.1 h
    have hq := ih hr
    obtain ⟨text, rest⟩ := q
    obtain ⟨e, text, rfl⟩ : ∃ e text', text = e :: text' := by
      cases hq <;> exact ⟨_, _, rfl⟩
    have he : e = d := (List.cons_eq_cons.1 (commentRest_join hr)).1
    subst he
    exact .plain hend hq

theorem commentRest_append_iff {p : Piece} :
    commentRest (s ++ x) = some (p.followedBy x) ↔ commentRest s = some p := by
  constructor
  · intro h
    have hclosed := closesComment_of_commentRest h
    have hjoin : p.1 ++ p.2 ++ x = s ++ x := by
      rw [List.append_assoc]
      exact commentRest_join h
    rw [← List.append_cancel_right hjoin]
    exact hclosed.commentRest_append p.2
  · intro h
    rw [← commentRest_join h, List.append_assoc]
    exact (closesComment_of_commentRest h).commentRest_append _

/-- What is cut as a quoted text is a quoted text behind some start. -/
theorem cut_append_iff {quote : Char} (hx : x.head? ≠ some quote) {escapes : Bool}
    {kind : LexemeKind} {start : List Char} {k : Cut} :
    (∃ p : Piece, quotedRest quote escapes (s ++ x) = some p ∧
        k.followedBy x = ⟨kind, (start ++ p.1, p.2)⟩) ↔
      ∃ p : Piece, quotedRest quote escapes s = some p ∧ k = ⟨kind, (start ++ p.1, p.2)⟩ := by
  obtain ⟨kind', front, rest⟩ := k
  constructor
  · rintro ⟨⟨text, rest'⟩, hr, hk⟩
    simp only [Cut.followedBy, Piece.followedBy, Cut.mk.injEq, Prod.mk.injEq] at hk
    obtain ⟨rfl, rfl, rfl⟩ := hk
    exact ⟨(text, rest), (quotedRest_append_iff hx).1 hr, rfl⟩
  · rintro ⟨p, hr, hk⟩
    cases hk
    exact ⟨p.followedBy x, (quotedRest_append_iff hx).2 hr, rfl⟩

theorem stringCut_eq_iff {start : List Char} {quote : Char} {escapes : Bool} {k : Cut} :
    stringCut start quote escapes s = .ok k ↔
      ∃ p : Piece, quotedRest quote escapes s = some p ∧
        k = ⟨.other, (start ++ [quote] ++ p.1, p.2)⟩ := by
  unfold stringCut
  cases quotedRest quote escapes s with
  | none => simp
  | some p => simp [eq_comm]

theorem quotedCut_name_iff {k : Cut} :
    quotedCut '\x60' s = .ok k ↔
      ∃ p : Piece,
        quotedRest '\x60' false s = some p ∧ k = ⟨.word true, (['\x60'] ++ p.1, p.2)⟩ := by
  rw [quotedCut, if_pos rfl]
  cases quotedRest '\x60' false s with
  | none => simp
  | some p => simp [eq_comm]

theorem stringCut_append_iff {start : List Char} {quote : Char} (hx : x.head? ≠ some quote)
    {escapes : Bool} {k : Cut} :
    stringCut start quote escapes (s ++ x) = .ok (k.followedBy x) ↔
      stringCut start quote escapes s = .ok k := by
  rw [stringCut_eq_iff, stringCut_eq_iff, cut_append_iff hx]

theorem quotedCut_append_iff {quote : Char} (hx : x.head? ≠ some quote) {k : Cut} :
    quotedCut quote (s ++ x) = .ok (k.followedBy x) ↔ quotedCut quote s = .ok k := by
  by_cases hq : quote = '\x60'
  · subst hq
    rw [quotedCut_name_iff, quotedCut_name_iff, cut_append_iff hx]
  · rw [quotedCut, quotedCut, if_neg hq, if_neg hq, stringCut_append_iff hx]

theorem StandsOff.not_quote (hx : StandsOff x) {quote : Char}
    (hq : quote ∈ ['\x27', '\x22', '\x60']) : x.head? ≠ some quote := by
  intro hhead
  refine hx.notMark quote hhead ?_
  simp only [List.mem_cons, List.not_mem_nil, or_false] at hq ⊢
  rcases hq with rfl | rfl | rfl <;> simp

theorem stringMark_eq_some {quote : Char} {escapes : Bool} (h : stringMark c quote = some escapes) :
    quote ∈ ['\x27', '\x22', '\x60'] := by
  unfold stringMark at h
  grind

/-- Only a quote makes anything but a word of a letter in front of it. -/
theorem letterCut_eq_wordCut (h : ∀ q ∈ s.head?, q ∉ ['\x27', '\x22', '\x60']) :
    letterCut c s = .ok (wordCut [c] s) := by
  cases s with
  | nil => rfl
  | cons q s =>
    have hmark : stringMark c q = none :=
      Option.eq_none_iff_forall_ne_some.2 fun escapes hmark => h q rfl (stringMark_eq_some hmark)
    rw [letterCut, hmark]

theorem letterCut_append_iff (hx : StandsOff x) {k : Cut} :
    letterCut c (s ++ x) = .ok (k.followedBy x) ↔ letterCut c s = .ok k := by
  have hword : ∀ t, (Except.ok (wordCut [c] (t ++ x)) : Except Stop Cut) = .ok (k.followedBy x) ↔
      (Except.ok (wordCut [c] t) : Except Stop Cut) = .ok k := by
    intro t
    rw [wordCut_append hx, Except.ok.injEq, Except.ok.injEq, Cut.followedBy_inj]
  cases s with
  | nil =>
    cases x with
    | nil => exact hword []
    | cons q y =>
      have hmark : stringMark c q = none := by
        refine Option.eq_none_iff_forall_ne_some.2 fun escapes hmark => ?_
        exact hx.not_quote (stringMark_eq_some hmark) rfl
      simp only [List.nil_append, letterCut, hmark]
      exact hword []
  | cons q s =>
    simp only [List.cons_append, letterCut]
    cases hmark : stringMark c q with
    | none => exact hword (q :: s)
    | some escapes => exact stringCut_append_iff (hx.not_quote (stringMark_eq_some hmark))

end

end SafeAlter.Sql
