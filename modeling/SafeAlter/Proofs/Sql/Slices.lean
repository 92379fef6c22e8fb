import SafeAlter.Proofs.Sql.Header
import SafeAlter.Proofs.Sql.Places

/-! # Slices by bytes

A text can be sliced at an offset in bytes only where a character ends. The offsets that a cursor
finds are all of this kind: each is the number of bytes in front of the place it was sent to,
however many places it has been sent to before. So each lexeme takes up a slice of the script, which
is its spelling; a statement is a slice as well, and so is what follows a table name.
-/
namespace SafeAlter.Sql

/-! ## Cutting at an offset -/

/-- The characters in front of an offset and those behind it; none if the offset lies inside a
character or beyond the end. -/
def cutBytes? : Nat → List Char → Option Piece
  | 0, s => some ([], s)
  | _ + 1, [] => none
  | n + 1, c :: s =>
    if c.utf8Size ≤ n + 1 then (cutBytes? (n + 1 - c.utf8Size) s).map (Piece.cons c) else none

theorem cutBytes?_append (a b : List Char) : cutBytes? (byteLength a) (a ++ b) = some (a, b) := by
  induction a with
  | nil => cases b <;> rfl
  | cons c a ih =>
    have hc := c.utf8Size_pos
    have hlength : byteLength (c :: a) = c.utf8Size + byteLength a := rfl
    obtain ⟨n, hn⟩ : ∃ n, byteLength (c :: a) = n + 1 :=
      Nat.exists_eq_add_one_of_ne_zero (by omega)
    have hrest : n + 1 - c.utf8Size = byteLength a := by omega
    rw [hn, List.cons_append, cutBytes?, if_pos (by omega), hrest, ih]
    rfl

theorem cutBytes?_eq_some_iff {n : Nat} {s a b : List Char} :
    cutBytes? n s = some (a, b) ↔ s = a ++ b ∧ n = byteLength a := by
  constructor
  · intro h
    fun_induction cutBytes? n s generalizing a b with
    | case1 =>
      cases h
      exact ⟨rfl, rfl⟩
    | case2 => cases h
    | case3 n c s hc ih =>
      obtain ⟨⟨a', b'⟩, hcut, hp⟩ := Option.map_eq_some_iff.1 h
      cases hp
      obtain ⟨rfl, hn⟩ := ih hcut
      refine ⟨rfl, ?_⟩
      rw [byteLength, ← hn]
      omega
    | case4 => cases h
  · rintro ⟨rfl, rfl⟩
    exact cutBytes?_append a b

theorem byteLength_eq_utf8ByteSize (s : List Char) :
    byteLength s = (String.ofList s).utf8ByteSize := by
  induction s with
  | nil => rfl
  | cons c s ih =>
    have hsplit : String.ofList (c :: s) = String.singleton c ++ String.ofList s := by
      rw [String.singleton_eq_ofList, ← String.ofList_append]
      rfl
    rw [byteLength, ih, hsplit, String.utf8ByteSize_append, String.utf8ByteSize_singleton]

/-- A text can be cut exactly at the positions that are valid in it. -/
theorem cutBytes?_isSome_iff {n : Nat} {s : List Char} :
    (cutBytes? n s).isSome = true ↔ String.Pos.Raw.IsValid (String.ofList s) ⟨n⟩ := by
  rw [String.Pos.Raw.isValid_iff_exists_append, Option.isSome_iff_exists]
  constructor
  · rintro ⟨⟨a, b⟩, h⟩
    obtain ⟨rfl, rfl⟩ := cutBytes?_eq_some_iff.1 h
    refine ⟨String.ofList a, String.ofList b, String.ofList_append, ?_⟩
    rw [byteLength_eq_utf8ByteSize]
    rfl
  · rintro ⟨a, b, hs, hn⟩
    have htext : s = a.toList ++ b.toList := by
      rw [← String.toList_append, ← hs, String.toList_ofList]
    refine ⟨(a.toList, b.toList), cutBytes?_eq_some_iff.2 ⟨htext, ?_⟩⟩
    rw [byteLength_eq_utf8ByteSize, String.ofList_toList]
    exact congrArg String.Pos.Raw.byteIdx hn

/-- The characters of a span, if its offsets are in order and the text can be cut at both. -/
def Span.slice? (span : Span) (text : List Char) : Option (List Char) :=
  if span.start ≤ span.stop then do
    let (_, rest) ← cutBytes? span.start text
    let (piece, _) ← cutBytes? (span.stop - span.start) rest
    return piece
  else none

/-- A span takes up the bytes of a piece of a text. -/
def Span.IsPieceOf (span : Span) (text piece : List Char) : Prop :=
  ∃ front back, text = front ++ (piece ++ back) ∧
    span = ⟨byteLength front, byteLength front + byteLength piece⟩

namespace Span.IsPieceOf
variable {span : Span} {text piece : List Char}

theorem slice?_eq (h : span.IsPieceOf text piece) : span.slice? text = some piece := by
  obtain ⟨front, back, rfl, rfl⟩ := h
  simp [slice?, cutBytes?_append]

theorem cut_eq (h : span.IsPieceOf text piece) : span.cut text = piece := by
  obtain ⟨front, back, rfl, rfl⟩ := h
  exact cut_append front piece back

theorem append (h : span.IsPieceOf text piece) (more : List Char) :
    span.IsPieceOf (text ++ more) piece := by
  obtain ⟨front, back, rfl, rfl⟩ := h
  exact ⟨front, back ++ more, by simp, rfl⟩

/-- A span that goes on to the end of the text takes up all that follows where it starts. -/
theorem toEnd (h : span.IsPieceOf text piece) (more : List Char) :
    ∃ piece', (⟨span.start, byteLength (text ++ more)⟩ : Span).IsPieceOf (text ++ more) piece' := by
  obtain ⟨front, back, rfl, rfl⟩ := h
  refine ⟨piece ++ (back ++ more), front, [], by simp, ?_⟩
  simp [byteLength_append]

end Span.IsPieceOf

/-! ## A cursor that is sent to one place after another -/

/-- The cursor that has read the first characters of a text. -/
def Cursor.behind (text : List Char) (i : Nat) : Cursor :=
  ⟨text.drop i, Location.start.after (text.take i), byteLength (text.take i)⟩

/-- Sent further on, a cursor reads the characters up to the place it is sent to and no other. -/
theorem Cursor.seek_behind (text : List Char) {i j : Nat} (h : i ≤ j) :
    (behind text i).seek (Location.start.after (text.take j)) = behind text j := by
  have hunread : (text.drop i).take (j - i) ++ text.drop j = text.drop i := by
    have hjoin := List.take_append_drop (j - i) (text.drop i)
    rwa [List.drop_drop, Nat.add_sub_cancel' h] at hjoin
  have hread : text.take i ++ (text.drop i).take (j - i) = text.take j := by
    rw [← List.take_add, Nat.add_sub_cancel' h]
  have hplace : (Location.start.after (text.take i)).after ((text.drop i).take (j - i)) =
      Location.start.after (text.take j) := by
    rw [← hread, Location.after, Location.after, Location.after, List.foldl_append]
  have hseek := seek_after ((text.drop i).take (j - i)) (text.drop j)
    (Location.start.after (text.take i)) (byteLength (text.take i))
  rwa [hunread, hplace, ← byteLength_append, hread] at hseek

/-- A cursor counts the bytes in front of every place it is sent to. -/
theorem Cursor.offsets_behind (text : List Char) {i : Nat} {is : List Nat}
    (h : (i :: is).Pairwise (· ≤ ·)) :
    (behind text i).offsets (is.map fun j => Location.start.after (text.take j)) =
      is.map fun j => byteLength (text.take j) := by
  induction is generalizing i with
  | nil => rfl
  | cons j is ih =>
    obtain ⟨hle, hpairs⟩ := List.pairwise_cons.1 h
    have hseek := seek_behind text (hle j List.mem_cons_self)
    rw [List.map_cons, List.map_cons, offsets, hseek, ih hpairs]
    rfl

/-! ## Slices of a script -/

/-- A lexeme takes up the bytes of a span: they lie within the script, from one end of a character
to another, and a slice of them is the spelling of the lexeme. -/
structure Lexeme.TakesUp (script : List Char) (l : Lexeme) (p : PlacedLexeme) : Prop where
  kind : p.kind = l.kind
  ordered : p.span.start ≤ p.span.stop
  within : p.span.stop ≤ (String.ofList script).utf8ByteSize
  starts : String.Pos.Raw.IsValid (String.ofList script) ⟨p.span.start⟩
  stops : String.Pos.Raw.IsValid (String.ofList script) ⟨p.span.stop⟩
  slice : p.span.slice? script = some l.spelling

theorem takesUp_of_isPieceOf {script : List Char} {l : Lexeme} {p : PlacedLexeme}
    (hkind : p.kind = l.kind) (h : p.span.IsPieceOf script l.spelling) : l.TakesUp script p := by
  have hslice := h.slice?_eq
  obtain ⟨front, back, hscript, hspan⟩ := h
  have hstart : cutBytes? p.span.start script = some (front, l.spelling ++ back) :=
    cutBytes?_eq_some_iff.2 ⟨hscript, by rw [hspan]⟩
  have hstop : cutBytes? p.span.stop script = some (front ++ l.spelling, back) := by
    refine cutBytes?_eq_some_iff.2 ⟨by simpa using hscript, ?_⟩
    rw [hspan, byteLength_append]
  refine ⟨hkind, ?_, ?_, ?_, ?_, hslice⟩
  · rw [hspan]
    exact Nat.le_add_right ..
  · rw [← byteLength_eq_utf8ByteSize, hscript, hspan]
    simp only [byteLength_append]
    omega
  · exact cutBytes?_isSome_iff.1 (Option.isSome_of_eq_some hstart)
  · exact cutBytes?_isSome_iff.1 (Option.isSome_of_eq_some hstop)

theorem takesUp_placedAt (ls : List Lexeme) (front : List Char) :
    List.Forall₂ (Lexeme.TakesUp (front ++ spelled ls)) ls (placedAt (byteLength front) ls) := by
  induction ls generalizing front with
  | nil => exact .nil
  | cons l ls ih =>
    have hrest := ih (front ++ l.spelling)
    rw [List.append_assoc, ← spelled_cons, byteLength_append] at hrest
    exact .cons (takesUp_of_isPieceOf rfl ⟨front, spelled ls, by rw [spelled_cons], rfl⟩) hrest

/-- The statement that has begun, if there is one, takes up a piece of what has been read. -/
def IsBegun (text : List Char) (begun : Option Span) : Prop :=
  ∀ span ∈ begun, ∃ piece, span.IsPieceOf text piece

theorem isBegun_none (text : List Char) : IsBegun text none := by
  rintro span ⟨⟩

theorem IsBegun.append {text : List Char} {begun : Option Span} (h : IsBegun text begun)
    (more : List Char) : IsBegun (text ++ more) begun := by
  intro span hspan
  obtain ⟨piece, hpiece⟩ := h span hspan
  exact ⟨piece, hpiece.append more⟩

/-- A lexeme that is not blank starts a statement, or the one that has begun goes on to its end. -/
theorem IsBegun.extended {front : List Char} {begun : Option Span} (h : IsBegun front begun)
    (l : Lexeme) : IsBegun (front ++ l.spelling)
      (some ⟨(begun.map Span.start).getD (byteLength front),
        byteLength front + byteLength l.spelling⟩) := by
  rintro span ⟨⟩
  rw [← byteLength_append]
  cases begun with
  | none => exact ⟨l.spelling, front, [], by simp, by rw [byteLength_append]; rfl⟩
  | some b =>
    obtain ⟨piece, hpiece⟩ := h b rfl
    exact hpiece.toEnd l.spelling

/-- Every statement is a piece of the script: it starts where one of the lexemes does, and stops
where that one or a later one does. -/
theorem isPieceOf_of_mem_statementSpans (ls : List Lexeme) {front : List Char}
    {begun : Option Span} (hbegun : IsBegun front begun) :
    ∀ span ∈ statementSpans begun (placedAt (byteLength front) ls),
      ∃ piece, span.IsPieceOf (front ++ spelled ls) piece := by
  induction ls generalizing front begun with
  | nil =>
    intro span hspan
    exact hbegun.append _ span (Option.mem_toList.1 hspan)
  | cons l ls ih =>
    have hrest : ∀ {begun : Option Span}, IsBegun (front ++ l.spelling) begun →
        ∀ span ∈ statementSpans begun (placedAt (byteLength front + byteLength l.spelling) ls),
          ∃ piece, span.IsPieceOf (front ++ spelled (l :: ls)) piece := by
      intro begun h
      have hread := ih h
      rwa [byteLength_append, List.append_assoc, ← spelled_cons] at hread
    rw [placedAt, statementSpans]
    split
    · intro span hspan
      rcases List.mem_append.1 hspan with hspan | hspan
      · exact hbegun.append _ span (Option.mem_toList.1 hspan)
      · exact hrest (isBegun_none _) span hspan
    · exact hrest (hbegun.append _)
    · exact hrest (hbegun.extended l)

/-- A table name ends with a lexeme. -/
theorem exists_last_of_name {ls rest : List Lexeme} (h : afterTableName? ls = some rest) :
    ∃ front last, ls = front ++ last :: rest := by
  rw [afterTableName?_eq] at h
  obtain ⟨header, hheader, rfl⟩ := Option.map_eq_some_iff.1 h
  obtain ⟨gap, front, n, tail, -, -, rfl, rfl⟩ := exists_front hheader
  obtain ⟨qualifier, hqualifier⟩ := afterQualifier_suffix tail
  obtain ⟨init, last, hlast⟩ : ∃ init last, front ++ n :: qualifier = init ++ [last] :=
    ⟨_, _, (List.dropLast_concat_getLast (by simp)).symm⟩
  refine ⟨init, last, ?_⟩
  rw [Header.withFirst_rest, List.append_cons init, ← hlast, List.append_assoc, List.cons_append,
    hqualifier]

theorem getElem?_placedAt (offset : Nat) (front : List Lexeme) (l : Lexeme) (rest : List Lexeme) :
    (placedAt offset (front ++ l :: rest))[front.length]? =
      some ⟨l.kind, ⟨offset + byteLength (spelled front),
        offset + byteLength (spelled front) + byteLength l.spelling⟩⟩ := by
  induction front generalizing offset with
  | nil => rfl
  | cons m front ih =>
    rw [List.cons_append, placedAt, List.length_cons, List.getElem?_cons_succ, ih, spelled_cons,
      byteLength_append, Nat.add_assoc]

/-- A text can be cut where one of its lexemes stops. -/
theorem cutBytes?_stop (front : List Lexeme) (l : Lexeme) (rest : List Lexeme) :
    ∃ p, (placedAt 0 (front ++ l :: rest))[front.length]? = some p ∧
      cutBytes? p.span.stop (spelled (front ++ l :: rest)) =
        some (spelled (front ++ [l]), spelled rest) := by
  refine ⟨_, getElem?_placedAt 0 front l rest, cutBytes?_eq_some_iff.2 ⟨?_, ?_⟩⟩
  · rw [← spelled_append, List.append_assoc]
    rfl
  · simp [spelled, byteLength_append]

theorem slices_statementSpans {spans : List Span} {script : List Char}
    (h : ∀ span ∈ spans, ∃ piece, span.IsPieceOf script piece) :
    spans.map (·.slice? script) = (spans.map (·.cut script)).map some := by
  rw [List.map_map]
  refine List.map_congr_left fun span hspan => ?_
  obtain ⟨piece, hpiece⟩ := h span hspan
  rw [hpiece.slice?_eq, Function.comp_apply, hpiece.cut_eq]

/-- A cursor that is sent from place to place counts the bytes in front of each. Every lexeme takes
up bytes that can be sliced out of the script, the slices of the statements can be taken as well,
and so can the slice from the end of the table name on. -/
theorem offsets_exact (script : String) :
    (∀ is : List Nat, is.Pairwise (· ≤ ·) →
      (Cursor.start script.toList).offsets
          (is.map fun i => Location.start.after (script.toList.take i)) =
        is.map fun i => (String.ofList (script.toList.take i)).utf8ByteSize) ∧
    ∀ ls, lexemes script.toList = .ok ls →
      ∃ ps ss, placedLexemes script.toList = .ok ps ∧ statementsOf script.toList = .ok ss ∧
        List.Forall₂ (Lexeme.TakesUp script.toList) ls ps ∧
        (statementSpans none ps).map (·.slice? script.toList) = ss.map some ∧
        ∀ rest, afterTableName? ls = some rest →
          ∃ front last p, ls = front ++ last :: rest ∧ ps[front.length]? = some p ∧
            cutBytes? p.span.stop script.toList =
              some (spelled (front ++ [last]), spelled rest) := by
  constructor
  · intro is his
    have hoffsets := Cursor.offsets_behind script.toList
      (List.pairwise_cons.2 ⟨fun i _ => Nat.zero_le i, his⟩)
    simp only [← byteLength_eq_utf8ByteSize]
    exact hoffsets
  · intro ls hls
    have htext := spelled_lexemes hls
    have hplaced := placedLexemes_eq hls
    have htakes := takesUp_placedAt ls []
    have hpieces := isPieceOf_of_mem_statementSpans ls (isBegun_none [])
    rw [List.nil_append, htext] at htakes hpieces
    have hstatements : statementsOf script.toList =
        .ok ((statementSpans none (placedAt 0 ls)).map (·.cut script.toList)) := by
      rw [statementsOf, hplaced]
      rfl
    refine ⟨_, _, hplaced, hstatements, htakes, slices_statementSpans hpieces, ?_⟩
    intro rest hrest
    obtain ⟨front, last, rfl⟩ := exists_last_of_name hrest
    obtain ⟨p, hp, hcut⟩ := cutBytes?_stop front last rest
    rw [htext] at hcut
    exact ⟨front, last, p, rfl, hp, hcut⟩

def accentedScript : String :=
  "ALTER TABLE \x60café\n日本\x60\nCOMMENT 'crème ;' ; -- é\nALTER TABLE t.ß DROP x"

/-- Places around a line end in a name, one of them twice, and behind characters of several
bytes. -/
def accentedPositions : List Nat := [0, 16, 17, 18, 18, 20, 47]

theorem offsets_exact_accented :
    accentedPositions.Pairwise (· ≤ ·) ∧
      (Cursor.start accentedScript.toList).offsets
          (accentedPositions.map fun i => Location.start.after (accentedScript.toList.take i)) =
        [0, 16, 18, 19, 19, 25, 54] ∧
      ∃ ls ps, lexemes accentedScript.toList = .ok ls ∧
        List.Forall₂ (Lexeme.TakesUp accentedScript.toList) ls ps ∧
        (statementSpans none ps).map (·.slice? accentedScript.toList) =
          ["ALTER TABLE \x60café\n日本\x60\nCOMMENT 'crème ;'".toList,
            "ALTER TABLE t.ß DROP x".toList].map some := by
  have hsorted : accentedPositions.Pairwise (· ≤ ·) := by decide
  obtain ⟨hoffsets, hslices⟩ := offsets_exact accentedScript
  obtain ⟨ls, hls⟩ := lexemes_of_isOk (s := accentedScript.toList) (by decide +kernel)
  obtain ⟨ps, ss, -, hss, htakes, hstatements, -⟩ := hslices ls hls
  have hpieces : statementsOf accentedScript.toList =
      .ok ["ALTER TABLE \x60café\n日本\x60\nCOMMENT 'crème ;'".toList,
        "ALTER TABLE t.ß DROP x".toList] := by
    decide +kernel
  rw [hpieces] at hss
  cases hss
  refine ⟨hsorted, (hoffsets _ hsorted).trans ?_, ls, ps, hls, htakes, hstatements⟩
  decide +kernel

end SafeAlter.Sql
