import TextureScript.Compiler
import TextureScript.Proofs.Plan.Resolution

/-!
# Which scripts are compiled

A script is compiled when no stage finds an error in it and its plan can be assembled. Findings are
counted one by one, so a report is without errors exactly when every finding of every stage is a
warning.
-/

namespace TextureScript

namespace Report

theorem totalErrors_push (report : Report) (d : Diagnostic) :
    (report.push d).totalErrors = report.totalErrors + if d.severity = .error then 1 else 0 := by
  unfold push
  cases d.severity with
  | error => rfl
  | warning => rfl

/-- Each error among some findings is counted. -/
theorem totalErrors_addFindings (report : Report) (source : SourceText)
    (findings : Array Finding) :
    (report.addFindings source findings).totalErrors =
      report.totalErrors + findings.toList.countP (·.severity = .error) := by
  unfold addFindings
  rw [← Array.foldl_toList]
  induction findings.toList generalizing report with
  | nil => rfl
  | cons finding findings ih =>
    have same : (finding.quoted source).severity = finding.severity := rfl
    rw [List.foldl_cons, ih, totalErrors_push, List.countP_cons, same]
    by_cases isError : finding.severity = .error
    · simp only [isError, ↓reduceIte, decide_true]
      omega
    · simp [isError]

end Report

/-- No finding is an error. -/
def OnlyWarnings (findings : Array Finding) : Prop :=
  ∀ finding ∈ findings.toList, finding.severity = .warning

theorem countP_errors_eq_zero {findings : Array Finding} :
    findings.toList.countP (·.severity = .error) = 0 ↔ OnlyWarnings findings := by
  rw [List.countP_eq_zero]
  apply forall₂_congr
  intro finding _
  cases finding.severity <;> simp

namespace Resolution

/-- What is added to a resolution does not take an error back. -/
theorem onlyWarnings_of_grows {before after : Resolution} (clean : OnlyWarnings after.findings)
    (grown : before.Grows after) : OnlyWarnings before.findings :=
  fun finding member => clean finding (grown.findings.subset member)

theorem not_onlyWarnings_report {r : Resolution} {finding : Finding}
    (error : finding.severity = .error) : ¬OnlyWarnings (r.report finding).findings := by
  intro clean
  have warning := clean finding (by simp [report])
  rw [error] at warning
  cases warning

end Resolution

/-- The script that a text is parsed as. -/
def SourceText.script (source : SourceText) : Script :=
  (Script.parse source.lex.tokens.toList).script

/-- No stage finds an error in a text. -/
structure SourceText.ErrorFree (source : SourceText) (inputs : List InputImage) : Prop where
  /-- Lexing finds no error. -/
  lexed : OnlyWarnings source.lex.findings
  /-- Parsing finds no error. -/
  parsed : OnlyWarnings (Script.parse source.lex.tokens.toList).findings
  /-- Resolving finds no error. -/
  resolved : OnlyWarnings (source.script.resolve inputs).findings

/-- A report has no errors exactly when no stage finds one. -/
theorem SourceText.hasErrors_eq_false {source : SourceText} {inputs : List InputImage} :
    (source.analyse inputs).report.hasErrors = false ↔ source.ErrorFree inputs := by
  have counted : (source.analyse inputs).report.totalErrors =
      source.lex.findings.toList.countP (·.severity = .error) +
        (Script.parse source.lex.tokens.toList).findings.toList.countP (·.severity = .error) +
        (source.script.resolve inputs).findings.toList.countP (·.severity = .error) := by
    simp only [analyse, Script.resolveInto, Report.totalErrors_addFindings, Report.empty,
      Nat.zero_add]
    rfl
  rw [Report.hasErrors, decide_eq_false_iff_not, counted]
  constructor
  · intro none
    exact ⟨countP_errors_eq_zero.mp (by omega), countP_errors_eq_zero.mp (by omega),
      countP_errors_eq_zero.mp (by omega)⟩
  · rintro ⟨lexed, parsed, resolved⟩
    rw [countP_errors_eq_zero.mpr lexed, countP_errors_eq_zero.mpr parsed,
      countP_errors_eq_zero.mpr resolved]
    exact Nat.lt_irrefl 0

/-- A script is compiled exactly when no stage finds an error and its plan can be assembled. -/
theorem compiled_eq_some {content name : String} {inputs : List InputImage}
    {compiled : CompiledModule} :
    (compile content name inputs).compiled = some compiled ↔
      (SourceText.ofString name content).ErrorFree inputs ∧
      ((SourceText.ofString name content).script.resolve inputs).plan.assemble = .ok compiled := by
  rw [← SourceText.hasErrors_eq_false]
  have plan : ((SourceText.ofString name content).analyse inputs).plan =
    ((SourceText.ofString name content).script.resolve inputs).plan := rfl
  unfold compile
  cases found : ((SourceText.ofString name content).analyse inputs).report.hasErrors with
  | true => simp [found]
  | false =>
    simp only [found, plan, Bool.false_eq_true, ↓reduceIte, true_and]
    cases ((SourceText.ofString name content).script.resolve inputs).plan.assemble <;> simp

end TextureScript
