import SafeAlter.Text.NumericCharacter
import SafeAlter.Sql.Location

/-! # Lexemes of SQL in the MySQL dialect

A script is a row of lexemes whose spellings, joined, give the script back. Of a lexeme only the
facts are kept that decide where a statement ends and what its table is called: blank text and
comments, words with or without backticks, periods and statement terminators; all else is of one
kind. The next lexeme depends on the kind of the one just before it and on the text still unread,
and on nothing else.
-/
namespace SafeAlter.Sql
open SafeAlter.Text

inductive LexemeKind where
  /-- White space or a comment. -/
  | blank
  | word (quoted : Bool)
  | period
  | terminator
  | other
  deriving DecidableEq, Repr

structure Lexeme where
  kind : LexemeKind
  spelling : List Char
  deriving DecidableEq, Repr

inductive LexicalFault where
  | unterminatedString
  | unterminatedName
  | unterminatedComment
  /-- A period in front of an underscore that follows no word. -/
  | strayUnderscore
  deriving DecidableEq, Repr

def LexicalFault.message : LexicalFault → String
  | .unterminatedString => "Unterminated string literal"
  | .unterminatedName => "Expected close delimiter '`' before EOF."
  | .unterminatedComment => "Unexpected EOF while in a multi-line comment"
  | .strayUnderscore => "Unexpected character '_'"

structure LexicalError where
  fault : LexicalFault
  location : Location
  deriving DecidableEq, Repr

def LexicalError.message (e : LexicalError) : String :=
  s!"{e.fault.message} at Line: {e.location.line}, Column: {e.location.column}"

/-! ## Pieces of text

Each of these functions cuts a piece from the front of a text: the piece and the rest, joined,
give the text back.
-/

/-- The front of a text and what follows it. -/
abbrev Piece := List Char × List Char

def Piece.cons (c : Char) (p : Piece) : Piece := (c :: p.1, p.2)

/-- The longest piece whose characters lie in a class. -/
def stretch (p : Char → Bool) (s : List Char) : Piece :=
  (s.takeWhile p, s.dropWhile p)

def isDigit (c : Char) : Bool := c.isDigit

def isHexDigit (c : Char) : Bool :=
  c.isDigit || ('a' ≤ c && c ≤ 'f') || ('A' ≤ c && c ≤ 'F')

def isNameStart (c : Char) : Bool :=
  c.isAlpha || c == '_' || c == '$' || c == '@' || 0x80 ≤ c.toNat

def isNamePart (c : Char) : Bool :=
  isNameStart c || c.isDigit

/-- A quoted text after its opening quote, closing quote included. The quote written twice does
not close it, and a backslash may take the character after it along. -/
def quotedRest (quote : Char) (escapes : Bool) : List Char → Option Piece
  | [] => none
  | [c] => if c = quote then some ([c], []) else none
  | c :: d :: s =>
    if c = quote then
      if d = quote then (quotedRest quote escapes s).map fun p => (p.cons d).cons c
      else some ([c], d :: s)
    else if escapes && c == '\\' then (quotedRest quote escapes s).map fun p => (p.cons d).cons c
    else (quotedRest quote escapes (d :: s)).map (Piece.cons c)

/-- A comment after its opening `/*`, up to and with the first `*/`. -/
def commentRest : List Char → Option Piece
  | [] => none
  | [_] => none
  | c :: d :: s =>
    if c = '*' && d = '/' then some ([c, d], s) else (commentRest (d :: s)).map (Piece.cons c)

/-- The rest of a line, up to and with the line feed if there is one. -/
def lineRest : List Char → Piece
  | [] => ([], [])
  | c :: s => if c = '\n' then ([c], s) else (lineRest s).cons c

/-- What an exponent mark at the front of a text stands for. -/
inductive Exponent where
  | absent
  /-- The mark stands there, but no digits follow it. -/
  | unfinished
  | present (piece : Piece)

def exponent : List Char → Exponent
  | [] => .absent
  | c :: s =>
    if c = 'e' || c = 'E' then
      match s with
      | [] => .unfinished
      | d :: t =>
        if d = '+' || d = '-' then
          if (t.head?.any isDigit) then .present (((stretch isDigit t).cons d).cons c)
          else .unfinished
        else if isDigit d then .present ((stretch isDigit s).cons c)
        else .unfinished
    else .absent

/-- Operators of more than one character, an operator standing before those it begins with. -/
def operators : List (List Char) :=
  ["->>", "->", "||/", "||", "|/", "=>", "==", "!=", "!!", "!~~*", "!~~", "!~*", "!~", "<=>",
   "<=", "<>", "<<", "<@", ">=", ">>", "::", ":=", "&&", "^@", "~~*", "~~", "~*"].map String.toList

/-- The operator at the front of a text, or else its first character alone. -/
def operator (c : Char) (s : List Char) : Piece :=
  match operators.find? (·.isPrefixOf (c :: s)) with
  | some o => (o, (c :: s).drop o.length)
  | none => ([c], s)

/-! ## The next lexeme -/

/-- A lexeme cut from the front of a text. -/
structure Cut where
  kind : LexemeKind
  piece : Piece

/-- A fault, with what was read in front of it. -/
structure Stop where
  fault : LexicalFault
  before : List Char

def isWord : LexemeKind → Bool
  | .word _ => true
  | _ => false

/-- The end of a number whose mantissa has been read: an exponent, or letters that make a word of
it. Right after a period a number with an exponent is a word all the same. -/
def numberEnd (afterPeriod : Bool) (mantissa s : List Char) : Cut :=
  match exponent s with
  | .absent =>
    let letters := stretch isNamePart s
    ⟨if letters.1 = [] then .other else .word false, (mantissa ++ letters.1, letters.2)⟩
  | .unfinished => ⟨if afterPeriod then .word false else .other, (mantissa, s)⟩
  | .present power =>
    if afterPeriod then ⟨.word false, (mantissa ++ power.1, power.2)⟩
    else match power.2 with
      | 'L' :: rest => ⟨.other, (mantissa ++ power.1 ++ ['L'], rest)⟩
      | rest => ⟨.other, (mantissa ++ power.1, rest)⟩

def digitCut (afterPeriod : Bool) (s : List Char) : Cut :=
  let whole := stretch isDigit s
  match whole.2 with
  | 'x' :: t =>
    if whole.1 = ['0'] then
      let digits := stretch isHexDigit t
      ⟨.other, (whole.1 ++ 'x' :: digits.1, digits.2)⟩
    else numberEnd afterPeriod whole.1 whole.2
  | '.' :: t =>
    let fraction := stretch isDigit t
    numberEnd afterPeriod (whole.1 ++ '.' :: fraction.1) fraction.2
  | rest => numberEnd afterPeriod whole.1 rest

/-- What starts with a period, which stands alone right after a word and in front of anything but
a digit. -/
def periodCut (previous : Option LexemeKind) (s : List Char) : Except Stop Cut :=
  if previous.any isWord then .ok ⟨.period, (['.'], s)⟩
  else if s.head? = some '_' then .error ⟨.strayUnderscore, []⟩
  else
    let fraction := stretch isDigit s
    if fraction.1 = [] then .ok ⟨.period, (['.'], s)⟩
    else .ok (numberEnd (previous == some .period) ('.' :: fraction.1) fraction.2)

/-- A word that starts with a given text. -/
def wordCut (start s : List Char) : Cut :=
  let (letters, rest) := stretch isNamePart s
  ⟨.word false, (start ++ letters, rest)⟩

/-- What starts with `@`: a sign of its own in front of a blank, a quote or nothing, one of two
operators, and otherwise a word that takes the next character along, whatever it is. -/
def atCut : List Char → Cut
  | [] => ⟨.other, (['@'], [])⟩
  | c :: s =>
    if c = '>' || c = '?' then ⟨.other, (['@', c], s)⟩
    else if c = '@' then
      match s with
      | [] => ⟨.other, (['@', '@'], [])⟩
      | d :: t => if d = ' ' then ⟨.other, (['@', '@'], s)⟩ else wordCut ['@', '@', d] t
    else if c = ' ' || c = '\x27' || c = '\x22' || c = '\x60' then ⟨.other, (['@'], c :: s)⟩
    else wordCut ['@', c] s

/-- A string whose spelling has `start` in front of the opening quote. -/
def stringCut (start : List Char) (quote : Char) (escapes : Bool) (s : List Char) :
    Except Stop Cut :=
  match quotedRest quote escapes s with
  | some (text, rest) => .ok ⟨.other, (start ++ quote :: text, rest)⟩
  | none => .error ⟨.unterminatedString, start⟩

/-- What starts with a quote. In backticks a name is written, in other quotes a string. -/
def quotedCut (quote : Char) (s : List Char) : Except Stop Cut :=
  if quote = '\x60' then
    match quotedRest quote false s with
    | some (name, rest) => .ok ⟨.word true, (quote :: name, rest)⟩
    | none => .error ⟨.unterminatedName, []⟩
  else stringCut [] quote true s

/-- Whether a letter in front of a quote makes a string of it, and of which kind: the answer tells
whether a backslash takes the character after it along. -/
def stringMark (letter quote : Char) : Option Bool :=
  if letter = 'b' || letter = 'B' then
    if quote = '\x27' || quote = '\x22' then some false else none
  else if letter = 'n' || letter = 'N' || letter = 'x' || letter = 'X' then
    if quote = '\x27' then some true else none
  else none

/-- What starts with a letter or another character that may start a word. -/
def letterCut (c : Char) : List Char → Except Stop Cut
  | [] => .ok (wordCut [c] [])
  | q :: s =>
    match stringMark c q with
    | some escapes => stringCut [c] q escapes s
    | none => .ok (wordCut [c] (q :: s))

/-- What starts with a slash, a hyphen or a number sign: a comment, or else an operator. -/
def commentCut (c : Char) (s : List Char) : Except Stop Cut :=
  if c = '#' || (c = '-' && ['-', ' '].isPrefixOf s) then .ok ⟨.blank, (lineRest s).cons c⟩
  else
    match c, s with
    | '/', '*' :: t =>
      match commentRest t with
      | some p => .ok ⟨.blank, (p.cons '*').cons c⟩
      | none => .error ⟨.unterminatedComment, c :: s⟩
    | _, _ => .ok ⟨.other, operator c s⟩

/-- The first lexeme of a text that starts with `c`. A line end of two characters is one lexeme,
as is every other blank character. -/
def nextCut (previous : Option LexemeKind) (c : Char) (s : List Char) : Except Stop Cut :=
  if c = '\r' && ['\n'].isPrefixOf s then .ok ⟨.blank, ([c, '\n'], s.drop 1)⟩
  else if c.toNat < 0x80 && isBlank c then .ok ⟨.blank, ([c], s)⟩
  else if c = '\x27' || c = '\x22' || c = '\x60' then quotedCut c s
  else if isDigit c then .ok (digitCut (previous == some .period) (c :: s))
  else if c = '.' then periodCut previous s
  else if c = '@' then .ok (atCut s)
  else if isNameStart c then letterCut c s
  else if c = '?' then .ok ⟨.other, (stretch isNumericCharacter s).cons c⟩
  else if c = ';' then .ok ⟨.terminator, ([c], s)⟩
  else commentCut c s

theorem stretch_join (p : Char → Bool) (s : List Char) : (stretch p s).1 ++ (stretch p s).2 = s :=
  List.takeWhile_append_dropWhile

theorem quotedRest_join {quote : Char} {escapes : Bool} {s : List Char} {p : Piece}
    (h : quotedRest quote escapes s = some p) : p.1 ++ p.2 = s := by
  fun_induction quotedRest quote escapes s generalizing p with
  | case1 => simp at h
  | case2 => simp at h; simp [← h]
  | case3 => simp at h
  | case4 => obtain ⟨q, hq, rfl⟩ := Option.map_eq_some_iff.1 h; simp_all [Piece.cons]
  | case5 => simp at h; simp [← h]
  | case6 => obtain ⟨q, hq, rfl⟩ := Option.map_eq_some_iff.1 h; simp_all [Piece.cons]
  | case7 => obtain ⟨q, hq, rfl⟩ := Option.map_eq_some_iff.1 h; simp_all [Piece.cons]

theorem commentRest_join {s : List Char} {p : Piece} (h : commentRest s = some p) :
    p.1 ++ p.2 = s := by
  fun_induction commentRest s generalizing p with
  | case1 => simp at h
  | case2 => simp at h
  | case3 => simp at h; simp [← h]
  | case4 => obtain ⟨q, hq, rfl⟩ := Option.map_eq_some_iff.1 h; simp_all [Piece.cons]

theorem lineRest_join (s : List Char) : (lineRest s).1 ++ (lineRest s).2 = s := by
  fun_induction lineRest s <;> simp_all [Piece.cons]

theorem exponent_join {s : List Char} {p : Piece} (h : exponent s = .present p) :
    p.1 ++ p.2 = s := by
  have := stretch_join isDigit
  unfold exponent at h
  grind [Piece.cons]

theorem operator_join (c : Char) (s : List Char) : (operator c s).1 ++ (operator c s).2 = c :: s := by
  unfold operator
  split
  · next o h =>
    have hp := List.find?_some h
    obtain ⟨t, ht⟩ := List.isPrefixOf_iff_prefix.1 hp
    simp [← ht]
  · rfl

theorem operator_ne_nil (c : Char) (s : List Char) : (operator c s).1 ≠ [] := by
  unfold operator
  split
  · next o h =>
    have hm := List.mem_of_find?_eq_some h
    rintro rfl
    exact absurd hm (by decide)
  · simp

theorem numberEnd_join (afterPeriod : Bool) (mantissa s : List Char) :
    (numberEnd afterPeriod mantissa s).piece.1 ++ (numberEnd afterPeriod mantissa s).piece.2 =
      mantissa ++ s := by
  have hs := stretch_join
  have he := @exponent_join
  unfold numberEnd
  grind

theorem le_length_numberEnd (afterPeriod : Bool) (mantissa s : List Char) :
    mantissa.length ≤ (numberEnd afterPeriod mantissa s).piece.1.length := by
  unfold numberEnd
  grind

theorem digitCut_join (afterPeriod : Bool) {c : Char} {s : List Char} (hc : isDigit c) :
    (digitCut afterPeriod (c :: s)).piece.1 ++ (digitCut afterPeriod (c :: s)).piece.2 = c :: s ∧
      (digitCut afterPeriod (c :: s)).piece.1 ≠ [] := by
  have hs := stretch_join
  have hn := numberEnd_join
  have hl := le_length_numberEnd
  have hw : (stretch isDigit (c :: s)).1 = c :: (stretch isDigit s).1 := by simp [stretch, hc]
  have ht := hs isDigit (c :: s)
  unfold digitCut
  grind

theorem periodCut_join {previous : Option LexemeKind} {s : List Char} {k : Cut}
    (h : periodCut previous s = .ok k) : k.piece.1 ++ k.piece.2 = '.' :: s ∧ k.piece.1 ≠ [] := by
  have hs := stretch_join
  have hn := numberEnd_join
  have hl := le_length_numberEnd
  unfold periodCut at h
  grind

theorem wordCut_join (start s : List Char) :
    (wordCut start s).piece.1 ++ (wordCut start s).piece.2 = start ++ s := by
  simp [wordCut, stretch_join]

theorem atCut_join (s : List Char) :
    (atCut s).piece.1 ++ (atCut s).piece.2 = '@' :: s ∧ (atCut s).piece.1 ≠ [] := by
  unfold atCut
  repeat' split
  all_goals simp_all [wordCut, stretch_join]

theorem stringCut_join {start : List Char} {quote : Char} {escapes : Bool} {s : List Char} {k : Cut}
    (h : stringCut start quote escapes s = .ok k) :
    k.piece.1 ++ k.piece.2 = start ++ quote :: s ∧ k.piece.1 ≠ [] := by
  unfold stringCut at h
  split at h
  · next hq => cases h; simp [← quotedRest_join hq]
  · cases h

theorem quotedCut_join {quote : Char} {s : List Char} {k : Cut} (h : quotedCut quote s = .ok k) :
    k.piece.1 ++ k.piece.2 = quote :: s ∧ k.piece.1 ≠ [] := by
  unfold quotedCut at h
  split at h
  · split at h
    · next hq => cases h; simp [← quotedRest_join hq]
    · cases h
  · exact stringCut_join h

theorem letterCut_join {c : Char} {s : List Char} {k : Cut} (h : letterCut c s = .ok k) :
    k.piece.1 ++ k.piece.2 = c :: s ∧ k.piece.1 ≠ [] := by
  unfold letterCut at h
  split at h
  · cases h; exact ⟨wordCut_join .., by simp [wordCut]⟩
  · split at h
    · exact stringCut_join h
    · cases h; exact ⟨wordCut_join .., by simp [wordCut]⟩

theorem commentCut_join {c : Char} {s : List Char} {k : Cut} (h : commentCut c s = .ok k) :
    k.piece.1 ++ k.piece.2 = c :: s ∧ k.piece.1 ≠ [] := by
  unfold commentCut at h
  split at h
  · cases h; simp [Piece.cons, lineRest_join]
  · split at h
    · split at h
      · next hq => cases h; simp [Piece.cons, commentRest_join hq]
      · cases h
    · cases h; exact ⟨operator_join c s, operator_ne_nil c s⟩

/-- The next lexeme is spelled by what is taken from the front of the text, and takes something. -/
theorem nextCut_join {previous : Option LexemeKind} {c : Char} {s : List Char} {k : Cut}
    (h : nextCut previous c s = .ok k) : k.piece.1 ++ k.piece.2 = c :: s ∧ k.piece.1 ≠ [] := by
  unfold nextCut at h
  split at h
  · next hc =>
    cases h
    simp only [Bool.and_eq_true, List.isPrefixOf_iff_prefix] at hc
    obtain ⟨t, rfl⟩ := hc.2
    simp
  split at h
  · cases h; simp
  split at h
  · exact quotedCut_join h
  split at h
  · next hc => cases h; exact digitCut_join _ hc
  split at h
  · next hc => rw [hc]; exact periodCut_join h
  split at h
  · next hc => cases h; rw [hc]; exact atCut_join s
  split at h
  · exact letterCut_join h
  split at h
  · cases h; simp [Piece.cons, stretch_join]
  split at h
  · cases h; simp
  · exact commentCut_join h

theorem length_nextCut {previous : Option LexemeKind} {c : Char} {s : List Char} {k : Cut}
    (h : nextCut previous c s = .ok k) : k.piece.2.length < (c :: s).length := by
  obtain ⟨hj, hn⟩ := nextCut_join h
  have := List.length_pos_iff.2 hn
  rw [← hj, List.length_append]
  omega

/-! ## All lexemes -/

/-- The lexemes of a text that is met at a location, right after a lexeme of the given kind. -/
def lexemesFrom (previous : Option LexemeKind) (place : Location) :
    List Char → Except LexicalError (List Lexeme)
  | [] => .ok []
  | c :: s =>
    match _h : nextCut previous c s with
    | .error stop => .error ⟨stop.fault, place.after stop.before⟩
    | .ok k => do
      let rest ← lexemesFrom (some k.kind) (place.after k.piece.1) k.piece.2
      return ⟨k.kind, k.piece.1⟩ :: rest
  termination_by s => s.length
  decreasing_by exact length_nextCut _h

def lexemes (s : List Char) : Except LexicalError (List Lexeme) :=
  lexemesFrom none Location.start s

/-- The text that a row of lexemes spells. -/
def spelled (ls : List Lexeme) : List Char :=
  ls.flatMap Lexeme.spelling

theorem spelled_cons (l : Lexeme) (ls : List Lexeme) :
    spelled (l :: ls) = l.spelling ++ spelled ls := rfl

theorem spelled_append (ls ms : List Lexeme) : spelled (ls ++ ms) = spelled ls ++ spelled ms :=
  List.flatMap_append

/-- The spellings of the lexemes of a text, joined, are the text. -/
theorem spelled_lexemesFrom {previous : Option LexemeKind} {place : Location} {s : List Char}
    {ls : List Lexeme} (h : lexemesFrom previous place s = .ok ls) : spelled ls = s := by
  fun_induction lexemesFrom previous place s generalizing ls with
  | case1 => cases h; rfl
  | case2 => cases h
  | case3 previous place c s k hk ih =>
    cases hr : lexemesFrom (some k.kind) (place.after k.piece.1) k.piece.2 with
    | error e => rw [hr] at h; cases h
    | ok rest =>
      rw [hr] at h
      cases h
      have hs : spelled rest = k.piece.2 := ih hr
      simpa [spelled, ← hs] using (nextCut_join hk).1

theorem spelled_lexemes {s : List Char} {ls : List Lexeme} (h : lexemes s = .ok ls) :
    spelled ls = s :=
  spelled_lexemesFrom h

end SafeAlter.Sql
