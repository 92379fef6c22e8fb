import SafeAlter.Sql.Script

/-! # The bytes of the lexemes

The places of a text are met in their order, each one once, so a cursor that seeks the place behind
some text stops there, with the bytes of that text counted. The lexemes of a script therefore take
up bytes one after another, each as many as its spelling has, and a span that starts and stops where
characters do cuts out the text between.
-/
namespace SafeAlter.Sql

namespace Location

theorem isBefore_next (l : Location) (c : Char) : l.isBefore (l.next c) = true := by
  unfold isBefore next
  split <;> simp

theorem isBefore_self (l : Location) : l.isBefore l = false := by
  simp [isBefore]

theorem isBefore_trans {l m n : Location} (h : l.isBefore m = true) (h' : m.isBefore n = true) :
    l.isBefore n = true := by
  simp only [isBefore, Bool.or_eq_true, Bool.and_eq_true, decide_eq_true_eq, beq_iff_eq] at h h' ⊢
  omega

theorem isBefore_after (l : Location) (c : Char) (s : List Char) :
    l.isBefore (l.after (c :: s)) = true := by
  induction s generalizing l c with
  | nil => exact l.isBefore_next c
  | cons d s ih => exact isBefore_trans (l.isBefore_next c) (ih (l.next c) d)

end Location

/-- A cursor that seeks the place behind some text has read just that text. -/
theorem Cursor.seek_after (s t : List Char) (l : Location) (n : Nat) :
    (⟨s ++ t, l, n⟩ : Cursor).seek (l.after s) = ⟨t, l.after s, n + byteLength s⟩ := by
  induction s generalizing l n with
  | nil =>
    cases t with
    | nil => rw [List.append_nil, seek]; rfl
    | cons c t =>
      have hstay : l.isBefore (l.after []) = false := l.isBefore_self
      rw [List.nil_append, seek, hstay]
      rfl
  | cons c s ih =>
    rw [List.cons_append, seek, if_pos (l.isBefore_after c s)]
    have hread := ih (l.next c) (n + c.utf8Size)
    rwa [Nat.add_assoc] at hread

/-! ## Spans -/

theorem dropBytes_append (s t : List Char) : dropBytes (byteLength s) (s ++ t) = t := by
  induction s with
  | nil => cases t <;> rfl
  | cons c s ih =>
    have hc := c.utf8Size_pos
    rw [List.cons_append, dropBytes, byteLength, if_neg (by omega), Nat.add_sub_cancel_left, ih]

theorem takeBytes_append (s t : List Char) : takeBytes (byteLength s) (s ++ t) = s := by
  induction s with
  | nil => cases t <;> rfl
  | cons c s ih =>
    have hc := c.utf8Size_pos
    rw [List.cons_append, takeBytes, byteLength, if_neg (by omega), Nat.add_sub_cancel_left, ih]

/-- The bytes of the middle of a text cut out the middle. -/
theorem Span.cut_append (s t u : List Char) :
    Span.cut ⟨byteLength s, byteLength s + byteLength t⟩ (s ++ (t ++ u)) = t := by
  rw [Span.cut, dropBytes_append, Nat.add_sub_cancel_left, takeBytes_append]

/-! ## Lexemes one after another -/

/-- Lexemes that take up the bytes from some offset on, each as many as its spelling has. -/
def placedAt (offset : Nat) : List Lexeme → List PlacedLexeme
  | [] => []
  | l :: ls =>
    ⟨l.kind, ⟨offset, offset + byteLength l.spelling⟩⟩ ::
      placedAt (offset + byteLength l.spelling) ls

theorem placedAt_append (offset : Nat) (ls ms : List Lexeme) :
    placedAt offset (ls ++ ms) =
      placedAt offset ls ++ placedAt (offset + byteLength (spelled ls)) ms := by
  induction ls generalizing offset with
  | nil => rfl
  | cons l ls ih =>
    rw [List.cons_append, placedAt, placedAt, ih, spelled_cons, byteLength_append, Nat.add_assoc]
    rfl

theorem placedFrom_eq (ls : List Lexeme) (place : Location) (offset : Nat) :
    placedFrom ⟨spelled ls, place, offset⟩ place ls = placedAt offset ls := by
  induction ls generalizing place offset with
  | nil => rfl
  | cons l ls ih =>
    have hstart : (⟨spelled (l :: ls), place, offset⟩ : Cursor).seek place =
        ⟨spelled (l :: ls), place, offset⟩ := Cursor.seek_after [] _ place offset
    rw [placedFrom, hstart, spelled_cons, Cursor.seek_after, ih]
    rfl

/-- The cursor finds the bytes that each lexeme of a script takes up. -/
theorem placedLexemes_eq {script : List Char} {ls : List Lexeme} (h : lexemes script = .ok ls) :
    placedLexemes script = .ok (placedAt 0 ls) := by
  have hplaced := placedFrom_eq ls Location.start 0
  rw [spelled_lexemes h] at hplaced
  rw [placedLexemes, h, ← hplaced]
  rfl

end SafeAlter.Sql
