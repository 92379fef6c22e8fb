import SafeAlter.Execution.Strategy

/-! # What a masked call tells of the password

The place in a call of the copying tool is a list of fields, and masking takes it apart at its
commas. A value that has commas of its own is taken apart with it: what follows each of its commas
has to be a field too, or else nothing of the place is masked, and what follows a comma of the
password is shown unless it is a password field once more. So two passwords are masked alike
exactly if they are the same, or if every value keeps the place a list of fields and the two
passwords show the same after their commas.
-/
namespace SafeAlter
open SafeAlter.Text SafeAlter.Sql

/-- What follows the commas of a value, each piece up to the next comma. -/
def extraFields (value : String) : List (List Char) :=
  (fieldsOf value.toList).tail

/-- Whether a list of fields stays one with a value in it: all that the value adds are fields. -/
def KeepsFields (value : String) : Prop :=
  ∀ f ∈ extraFields value, isField f = true

section Fields
variable {a b : List Char}

@[simp] theorem fieldsOf_append_comma (a b : List Char) :
    fieldsOf (a ++ ',' :: b) = fieldsOf a ++ fieldsOf b :=
  List.splitOnP_append_cons a b rfl

theorem fieldsOf_ne_nil (a : List Char) : fieldsOf a ≠ [] :=
  List.splitOnP_ne_nil _ a

theorem fieldsOf_cons {c : Char} (hc : c ≠ ',') (a : List Char) :
    ∃ f fs, fieldsOf a = f :: fs ∧ fieldsOf (c :: a) = (c :: f) :: fs := by
  obtain ⟨f, fs, ha⟩ := List.exists_cons_of_ne_nil (fieldsOf_ne_nil a)
  refine ⟨f, fs, ha, ?_⟩
  unfold fieldsOf at ha ⊢
  rw [List.splitOnP_cons_eq_if_modifyHead, ha]
  simp [hc]

/-- The fields of one that is written with its key: the field itself, cut at its first comma, and
what its value adds. -/
theorem fieldsOf_written {key : Char} (hk : key ≠ ',') (value : String) :
    ∃ f, fieldsOf (key :: '=' :: value.toList) = (key :: '=' :: f) :: extraFields value := by
  obtain ⟨f, fs, hf, hv⟩ := fieldsOf_cons (c := '=') (by decide) value.toList
  obtain ⟨g, gs, hg, hw⟩ := fieldsOf_cons hk ('=' :: value.toList)
  rw [hv] at hg
  cases hg
  exact ⟨f, by rw [hw, extraFields, hf, List.tail_cons]⟩

theorem isFieldList_append_comma (a b : List Char) :
    isFieldList (a ++ ',' :: b) = (isFieldList a && isFieldList b) := by
  simp [isFieldList]

theorem isField_written {key : Char} (hk : key ≠ '=') (ha : key.toNat < 0x80) (value : List Char) :
    isField (key :: '=' :: value) = true := by
  simp [isField, cutFirst, hk, ha]

theorem isFieldList_written {key : Char} (hk : key ≠ ',') (he : key ≠ '=') (ha : key.toNat < 0x80)
    (value : String) : isFieldList (key :: '=' :: value.toList) = true ↔ KeepsFields value := by
  obtain ⟨f, hf⟩ := fieldsOf_written hk value
  simp [isFieldList, hf, isField_written he ha, KeepsFields]

theorem comma_not_mem_of_mem_fieldsOf {f : List Char} (hf : f ∈ fieldsOf a) : ',' ∉ f := by
  induction a generalizing f with
  | nil =>
    rw [List.mem_singleton.1 hf]
    simp
  | cons c a ih =>
    by_cases hc : c = ','
    · subst hc
      rcases List.mem_cons.1 (show f ∈ [] :: fieldsOf a from hf) with rfl | hf
      · simp
      · exact ih hf
    · obtain ⟨g, gs, hg, hw⟩ := fieldsOf_cons hc a
      rw [hg] at ih
      rw [hw] at hf
      rcases List.mem_cons.1 hf with rfl | hf
      · have hg := ih (List.mem_cons_self ..)
        simp [hg, Ne.symm hc]
      · exact ih (List.mem_cons_of_mem g hf)

theorem comma_not_mem_maskField {f : List Char} (hf : ',' ∉ f) : ',' ∉ maskField f := by
  unfold maskField
  split
  · decide
  · exact hf

theorem isField_maskField {f : List Char} (hf : isField f = true) : isField (maskField f) = true := by
  unfold maskField
  split
  · rfl
  · exact hf

def maskedFields (a : List Char) : List (List Char) :=
  (fieldsOf a).map maskField

/-- A masked list of fields has the masked fields and no others. -/
theorem fieldsOf_masked (a : List Char) :
    fieldsOf ([','].intercalate (maskedFields a)) = maskedFields a := by
  refine List.splitOn_intercalate ',' ?_ ?_
  · intro f hf
    obtain ⟨g, hg, rfl⟩ := List.mem_map.1 hf
    exact comma_not_mem_maskField (comma_not_mem_of_mem_fieldsOf hg)
  · simpa [maskedFields] using fieldsOf_ne_nil a

theorem isFieldList_masked (ha : isFieldList a = true) :
    isFieldList ([','].intercalate (maskedFields a)) = true := by
  rw [isFieldList, fieldsOf_masked]
  refine List.all_eq_true.2 fun f hf => ?_
  obtain ⟨g, hg, rfl⟩ := List.mem_map.1 hf
  exact isField_maskField (List.all_eq_true.1 ha g hg)

/-- A text as it is shown: masked if it is a list of fields. -/
def shownFields (a : List Char) : List Char :=
  if isFieldList a then [','].intercalate (maskedFields a) else a

theorem shownFields_eq_iff : shownFields a = shownFields b ↔
    a = b ∨ (isFieldList a = true ∧ isFieldList b = true ∧ maskedFields a = maskedFields b) := by
  constructor
  · intro h
    unfold shownFields at h
    by_cases ha : isFieldList a = true <;> by_cases hb : isFieldList b = true
    · rw [if_pos ha, if_pos hb] at h
      have hm := congrArg fieldsOf h
      rw [fieldsOf_masked, fieldsOf_masked] at hm
      exact .inr ⟨ha, hb, hm⟩
    · rw [if_pos ha, if_neg hb] at h
      rw [← h, isFieldList_masked ha] at hb
      contradiction
    · rw [if_neg ha, if_pos hb] at h
      rw [h, isFieldList_masked hb] at ha
      contradiction
    · rw [if_neg ha, if_neg hb] at h
      exact .inl h
  · rintro (rfl | ⟨ha, hb, hm⟩)
    · rfl
    · rw [shownFields, shownFields, if_pos ha, if_pos hb, hm]

theorem maskedFields_append_comma (a b : List Char) :
    maskedFields (a ++ ',' :: b) = maskedFields a ++ maskedFields b := by
  simp [maskedFields]

/-- Of a password only what it adds after its commas comes through. -/
theorem maskedFields_password (value : String) : maskedFields ('p' :: '=' :: value.toList) =
    ('p' :: '=' :: mask) :: (extraFields value).map maskField := by
  obtain ⟨f, hf⟩ := @fieldsOf_written 'p' (by decide) value
  rw [maskedFields, hf]
  rfl

end Fields

namespace Strategy
variable {c : Credentials} {t : QualifiedTable}

/-- The place in a call of the tool, field by field. -/
theorem toList_toolDsn (c : Credentials) (t : QualifiedTable) :
    (toolDsn c t).toList = ('h' :: '=' :: c.host.toList) ++ ',' :: (('P' :: '=' :: c.port.toList) ++
      ',' :: (('u' :: '=' :: c.user.toList) ++ ',' :: (('p' :: '=' :: c.password.toList) ++
        ',' :: (('D' :: '=' :: t.database.toList) ++ ',' :: 't' :: '=' :: t.table.toList)))) := by
  have hd : toolDsn c t = "h=" ++ c.host ++ ",P=" ++ c.port ++ ",u=" ++ c.user ++ ",p=" ++
      c.password ++ ",D=" ++ t.database ++ ",t=" ++ t.table := rfl
  simp [hd]

theorem toolDsn_inj {p q : String} :
    toolDsn { c with password := p } t = toolDsn { c with password := q } t ↔ p = q := by
  rw [← String.toList_inj, toList_toolDsn, toList_toolDsn]
  simp [String.toList_inj]

theorem maskArgument_toolDsn (c : Credentials) (t : QualifiedTable) :
    maskArgument (toolDsn c t) = String.ofList (shownFields (toolDsn c t).toList) := by
  obtain ⟨s, hs⟩ : ∃ s, (toolDsn c t).toList = 'h' :: s := ⟨_, toList_toolDsn c t⟩
  rw [maskArgument, maskArgumentChars, shownFields, hs]
  simp [maskedFields, List.isPrefixOf]

theorem isFieldList_toolDsn : isFieldList (toolDsn c t).toList = true ↔
    ∀ v ∈ [c.host, c.port, c.user, c.password, t.database, t.table], KeepsFields v := by
  rw [toList_toolDsn]
  simp only [isFieldList_append_comma, Bool.and_eq_true]
  rw [isFieldList_written, isFieldList_written, isFieldList_written, isFieldList_written,
    isFieldList_written, isFieldList_written] <;> simp

/-- The masked places are the same for two passwords exactly if the passwords are, or if all values
keep the place a list of fields and masking shows the same of what the passwords add. -/
theorem maskArgument_toolDsn_eq_iff {p q : String} :
    maskArgument (toolDsn { c with password := p } t) =
        maskArgument (toolDsn { c with password := q } t) ↔
      p = q ∨ (∀ v ∈ [c.host, c.port, c.user, p, q, t.database, t.table], KeepsFields v) ∧
        (extraFields p).map maskField = (extraFields q).map maskField := by
  have hadded : maskedFields (toolDsn { c with password := p } t).toList =
      maskedFields (toolDsn { c with password := q } t).toList ↔
      (extraFields p).map maskField = (extraFields q).map maskField := by
    simp only [toList_toolDsn, maskedFields_append_comma, maskedFields_password,
      List.append_cancel_left_eq, List.append_cancel_right_eq, List.cons.injEq, true_and]
  rw [maskArgument_toolDsn, maskArgument_toolDsn, String.ofList_inj, shownFields_eq_iff,
    String.toList_inj, toolDsn_inj, isFieldList_toolDsn, isFieldList_toolDsn, hadded]
  simp only [List.forall_mem_cons, List.not_mem_nil, false_implies, implies_true, and_true]
  refine or_congr_right ⟨?_, ?_⟩
  · rintro ⟨⟨hhost, hport, huser, hp, hdatabase, htable⟩, ⟨-, -, -, hq, -, -⟩, hm⟩
    exact ⟨⟨hhost, hport, huser, hp, hq, hdatabase, htable⟩, hm⟩
  · rintro ⟨⟨hhost, hport, huser, hp, hq, hdatabase, htable⟩, hm⟩
    exact ⟨⟨hhost, hport, huser, hp, hdatabase, htable⟩,
      ⟨hhost, hport, huser, hq, hdatabase, htable⟩, hm⟩

/-- The masked arguments of a call of the tool are the same for two passwords exactly if the
passwords are, or if all values keep the place a list of fields and masking shows the same of what
the passwords add to it. -/
theorem masked_alike_iff (mode clause : String) (keep : Bool) (c : Credentials)
    (t : QualifiedTable) (p q : String) :
    (toolArguments mode { c with password := p } t clause keep).map maskArgument =
        (toolArguments mode { c with password := q } t clause keep).map maskArgument ↔
      p = q ∨ (∀ v ∈ [c.host, c.port, c.user, p, q, t.database, t.table], KeepsFields v) ∧
        (extraFields p).map maskField = (extraFields q).map maskField := by
  rw [← maskArgument_toolDsn_eq_iff]
  simp [toolArguments]

/-- Without commas in the values, nothing of the password is shown. -/
theorem maskArgument_toolDsn_of_no_comma {p q : String}
    (h : ∀ v ∈ [c.host, c.port, c.user, p, q, t.database, t.table], ',' ∉ v.toList) :
    maskArgument (toolDsn { c with password := p } t) =
      maskArgument (toolDsn { c with password := q } t) := by
  have hnone : ∀ v ∈ [c.host, c.port, c.user, p, q, t.database, t.table], extraFields v = [] := by
    intro v hv
    have hs : fieldsOf v.toList = [v.toList] :=
      List.splitOnP_eq_singleton fun x hx => by
        simpa using fun he : x = ',' => h v hv (he ▸ hx)
    rw [extraFields, hs, List.tail_cons]
  refine maskArgument_toolDsn_eq_iff.2 (.inr ⟨fun v hv => ?_, ?_⟩)
  · simp [KeepsFields, hnone v hv]
  · rw [hnone p (by simp), hnone q (by simp)]

/-- A password with a comma in it is shown, and so another one is masked apart from it. -/
theorem masked_apart_of_comma :
    let masked (password : String) :=
      (toolArguments "--dry-run" ⟨"db", "3306", "root", password⟩ ⟨"shop", "orders"⟩ "ADD c INT"
        false).map maskArgument
    masked "pa,ss" =
        ["--dry-run", "h=db,P=3306,u=root,p=pa,ss,D=shop,t=orders", "--alter=ADD c INT"] ∧
      masked "pa,ss" ≠ masked "secret" := by
  decide +kernel

end Strategy

end SafeAlter
