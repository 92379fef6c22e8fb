import SafeAlter.Proofs.Program.Steady
import SafeAlter.Proofs.Text.Occurrences
import SafeAlter.Proofs.Text.Trimming
import SafeAlter.Proofs.Tool.Calls

/-! # What a call tells of the output of its tool

The output of a tool is told with the secret of the call masked: every occurrence of the secret is
replaced by the mask, what is between the occurrences stays as it is, and the secret is nowhere in
the result. That holds of all secrets that the mask cannot help to make up. A call that succeeds
gives the masked output back, and one whose tool ended badly tells it, trimmed, in its failure.
-/
namespace SafeAlter
open SafeAlter.Text History

/-- Whether a text says a secret somewhere. -/
def Says (text secret : String) : Prop :=
  secret.toList <:+: text.toList

/-- A text is an output with a secret masked: the output is made up of gaps without the secret and
of the secret between them, the text of the same gaps with the mask between them. -/
structure Masks (secret output shown : String) : Prop where
  gaps : ∃ first rest, (∀ gap ∈ first :: rest, ¬Says gap secret) ∧
    output = secret.intercalate (first :: rest) ∧ shown = "***".intercalate (first :: rest)
  concealed : ¬Says shown secret

variable {secret : String}

theorem not_says_intercalate (hmark : '*' ∉ secret.toList) {first : String} {rest : List String}
    (hgaps : ∀ gap ∈ first :: rest, ¬Says gap secret) :
    ¬Says ("***".intercalate (first :: rest)) secret := by
  have hmask : ∀ c ∈ mask, c ∉ secret.toList := by
    intro c hc
    have hstar : c = '*' := by simpa [mask] using hc
    exact hstar ▸ hmark
  have hstars : "***".toList = mask := rfl
  intro hsaid
  rw [Says, String.toList_intercalate, List.map_cons, hstars] at hsaid
  obtain ⟨gap, hgap, hin⟩ := infix_gap_of_intercalate (by decide) hmask hsaid
  rw [← List.map_cons] at hgap
  obtain ⟨text, htext, rfl⟩ := List.mem_map.1 hgap
  exact hgaps text htext hin

theorem masks_maskOutput (hne : secret ≠ "") (hmark : '*' ∉ secret.toList) (output : String) :
    Masks secret output (maskOutput output secret) := by
  have hchars : secret.toList ≠ [] := fun h => hne (String.toList_eq_nil_iff.1 h)
  obtain ⟨first, rest, hgaps, ho, hm⟩ := exists_gaps hchars mask output.toList
  have htexts : (String.ofList first :: rest.map String.ofList).map String.toList =
      first :: rest := by
    simp
  have hsaid : ∀ gap ∈ String.ofList first :: rest.map String.ofList, ¬Says gap secret := by
    intro gap hgap
    have hin : gap.toList ∈ first :: rest := htexts ▸ List.mem_map_of_mem hgap
    exact hgaps gap.toList hin
  have hshown : maskOutput output secret =
      "***".intercalate (String.ofList first :: rest.map String.ofList) := by
    rw [← String.toList_inj, String.toList_intercalate, htexts, maskOutput, String.toList_ofList]
    exact hm
  refine ⟨⟨_, _, hsaid, ?_, hshown⟩, ?_⟩
  · rw [← String.toList_inj, String.toList_intercalate, htexts]
    exact ho
  · rw [hshown]
    exact not_says_intercalate hmark hsaid

theorem not_says_trimmed {text : String} (h : ¬Says text secret) : ¬Says (trimmed text) secret := by
  intro hsaid
  rw [Says, trimmed, String.toList_ofList] at hsaid
  exact h (hsaid.trans (trim_isInfix _))

/-- What a call tells once its tool has ended in some way, or could not be started. -/
inductive ToolCall.Tells (c : ToolCall) :
    Except String ToolExit → Except Failure ToolExit → Prop where
  | output {output shown : String} (hm : Masks c.secret output shown) :
      Tells c (.ok ⟨some 0, output⟩) (.ok ⟨some 0, shown⟩)
  | notStarted {reason : String} {e : Failure}
      (he : e.message = c.label ++ " failed: " ++ s!"could not start {c.program}: {reason}") :
      Tells c (.error reason) (.error e)
  | exited {code : Int} {output shown : String} {e : Failure} (hc : code ≠ 0)
      (hm : Masks c.secret output shown) (hs : ¬Says (trimmed shown) c.secret)
      (he : e.message = c.label ++ " failed: " ++ (s!"exit code {code}: " ++ trimmed shown)) :
      Tells c (.ok ⟨some code, output⟩) (.error e)
  | killed {output shown : String} {e : Failure} (hm : Masks c.secret output shown)
      (hs : ¬Says (trimmed shown) c.secret)
      (he : e.message = c.label ++ " failed: " ++ ("terminated by signal: " ++ trimmed shown)) :
      Tells c (.ok ⟨none, output⟩) (.error e)

theorem ToolCall.Ends.tells {c : ToolCall} {x : Except String ToolExit}
    {r : Except Failure ToolExit} (h : c.Ends x r) (hne : c.secret ≠ "")
    (hmark : '*' ∉ c.secret.toList) : c.Tells x r := by
  have hmasks := masks_maskOutput hne hmark
  cases h with
  | succeeded output => exact .output (hmasks output)
  | notStarted reason => exact .notStarted rfl
  | exited hc output =>
    exact .exited hc (hmasks output) (not_says_trimmed (hmasks output).concealed) rfl
  | killed output =>
    exact .killed (hmasks output) (not_says_trimmed (hmasks output).concealed) rfl

/-- Masking a secret replaces its occurrences by the mask, changes nothing else, and leaves no
occurrence; and whatever comes of a call, neither the output that it gives back nor the one in its
failure says the secret. -/
theorem secret_masked {σ : Type} (hne : secret ≠ "") (hmark : '*' ∉ secret.toList) :
    (∀ output, Masks secret output (maskOutput output secret)) ∧
      ∀ (c : ToolCall) (env : Surroundings σ) (s : σ), c.secret = secret →
        ∃ x, toolRuns (c.run.run.run env s).history = [⟨c.command, x⟩] ∧
          c.Tells x (c.run.run.run env s).value := by
  refine ⟨masks_maskOutput hne hmark, ?_⟩
  rintro c env s rfl
  obtain ⟨x, hx, hends⟩ := ToolCall.course_run (Program.course_run env c.run.run s)
  refine ⟨x, ?_, hends.tells hne hmark⟩
  rw [← toolRuns_exchanges, hx]
  rfl

/-- Surroundings whose tools are killed once they have said a text. -/
def Surroundings.killing (text : String) : Surroundings Unit :=
  .steady fun
    | .run _ => .ok ⟨none, text⟩
    | r => obligingAnswer r

/-- A secret that overlaps itself is masked once, and what is left over of its second occurrence is
not the secret any more. -/
theorem secret_masked_overlapping :
    let c : ToolCall := ⟨"mysqldump", "mysqldump", ["-paba"], "aba", true⟩
    let run := c.run.run.run (.killing "ababa") ()
    ("aba" ≠ "" ∧ '*' ∉ "aba".toList) ∧ maskOutput "ababa" "aba" = "***ba" ∧
      Masks "aba" "ababa" "***ba" ∧
        ∃ x, toolRuns run.history = [⟨c.command, x⟩] ∧ c.Tells x run.value := by
  intro c run
  have hsecret : "aba" ≠ "" ∧ '*' ∉ "aba".toList := by decide
  have hshown : maskOutput "ababa" "aba" = "***ba" := by decide +kernel
  obtain ⟨hmasks, hcalls⟩ := secret_masked hsecret.1 hsecret.2
  exact ⟨hsecret, hshown, hshown ▸ hmasks "ababa", hcalls c (.killing "ababa") () rfl⟩

end SafeAlter
