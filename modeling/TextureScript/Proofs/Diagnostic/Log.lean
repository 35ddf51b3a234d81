import TextureScript.Compiler

/-!
# Reports as capped logs

A log is everything that was recorded, in order, and its report is what is left of it: the first
errors and the first warnings, and how many there were of each. Recording a diagnostic and appending
a report commute with taking the report of a log, although appending only sees what the other report
has kept: what that report left out stands behind at least as many entries as a report can keep, so
it would not have been kept in any case. Reports therefore inherit the laws of lists.
-/

namespace TextureScript

/-- What was recorded as an error and what was recorded as a warning, each in order. -/
structure Log where
  /-- The errors. -/
  errors : List Diagnostic := []
  /-- The warnings. -/
  warnings : List Diagnostic := []

namespace Log

/-- One log after the other. -/
def append (first second : Log) : Log :=
  ⟨first.errors ++ second.errors, first.warnings ++ second.warnings⟩

/-- A log of one diagnostic, which counts as what its severity says. -/
def single (d : Diagnostic) : Log :=
  match d.severity with
  | .error => { errors := [d] }
  | .warning => { warnings := [d] }

theorem append_assoc (first second third : Log) :
    (first.append second).append third = first.append (second.append third) := by
  simp only [append, List.append_assoc]

theorem append_empty (log : Log) : log.append {} = log := by
  simp only [append, List.append_nil]

theorem empty_append (log : Log) : append {} log = log := rfl

/-- The report of a log keeps the first entries of each sort and counts them all. -/
def report (log : Log) : Report where
  errors := (log.errors.take Report.capacity).toArray
  warnings := (log.warnings.take Report.capacity).toArray
  totalErrors := log.errors.length
  totalWarnings := log.warnings.length

theorem report_empty : report {} = Report.empty := rfl

/-! ## Recording one diagnostic -/

/-- An entry is added to those that are kept exactly when it is among the first of the list. -/
theorem keep_next (entries : List Diagnostic) (d : Diagnostic) :
    (if (entries.take Report.capacity).toArray.size < Report.capacity then
        (entries.take Report.capacity).toArray.push d
      else (entries.take Report.capacity).toArray) =
      ((entries ++ [d]).take Report.capacity).toArray := by
  have size : (entries.take Report.capacity).toArray.size =
      min Report.capacity entries.length := by
    rw [List.size_toArray, List.length_take]
  by_cases room : entries.length < Report.capacity
  · have kept : entries.take Report.capacity = entries := List.take_of_length_le (by omega)
    have grown : (entries ++ [d]).length ≤ Report.capacity := by
      rw [List.length_append, List.length_singleton]
      omega
    rw [if_pos (by omega), kept, List.push_toArray, List.take_of_length_le grown]
  · have full : Report.capacity ≤ entries.length := Nat.le_of_not_lt room
    rw [if_neg (by omega), List.take_append_of_le_length full]

theorem pushError_report (log : Log) (d : Diagnostic) :
    log.report.pushError d = (log.append { errors := [d] }).report := by
  have kept := keep_next log.errors d
  have counted : (log.errors ++ [d]).length = log.errors.length + 1 := List.length_append
  simp only [report, Report.pushError, append, counted, List.append_nil, Report.mk.injEq, and_true]
  exact kept

theorem pushWarning_report (log : Log) (d : Diagnostic) :
    log.report.pushWarning d = (log.append { warnings := [d] }).report := by
  have kept := keep_next log.warnings d
  have counted : (log.warnings ++ [d]).length = log.warnings.length + 1 := List.length_append
  simp only [report, Report.pushWarning, append, counted, List.append_nil, Report.mk.injEq,
    true_and, and_true]
  exact kept

theorem push_report (log : Log) (d : Diagnostic) :
    log.report.push d = (log.append (single d)).report := by
  unfold Report.push single
  cases d.severity with
  | error => exact pushError_report log d
  | warning => exact pushWarning_report log d

/-! ## Appending a report -/

theorem foldl_pushError_report (log : Log) (entries : List Diagnostic) :
    entries.foldl Report.pushError log.report = (log.append { errors := entries }).report := by
  induction entries generalizing log with
  | nil => rw [append_empty]; rfl
  | cons d entries ih =>
    rw [List.foldl_cons, pushError_report, ih, append_assoc]
    rfl

theorem foldl_pushWarning_report (log : Log) (entries : List Diagnostic) :
    entries.foldl Report.pushWarning log.report = (log.append { warnings := entries }).report := by
  induction entries generalizing log with
  | nil => rw [append_empty]; rfl
  | cons d entries ih =>
    rw [List.foldl_cons, pushWarning_report, ih, append_assoc]
    rfl

/-- Entries beyond the first ones of a list are not among the first ones after another list. -/
theorem take_append_take (count : Nat) (first second : List Diagnostic) :
    (first ++ second.take count).take count = (first ++ second).take count := by
  have fewer : min (count - first.length) count = count - first.length := by omega
  rw [List.take_append, List.take_append, List.take_take, fewer]

/-- Entries that are kept and entries that are not are all the entries. -/
theorem length_add_dropped (count : Nat) (first second : List Diagnostic) :
    (first ++ second.take count).length + (second.length - (second.take count).length) =
      (first ++ second).length := by
  rw [List.length_append, List.length_append, List.length_take]
  omega

/-- Appending the report of a log is the same as going on with its log, whatever it left out. -/
theorem extend_report (log other : Log) :
    log.report.extend other.report = (log.append other).report := by
  have replayed : other.report.warnings.foldl Report.pushWarning
      (other.report.errors.foldl Report.pushError log.report) =
        (log.append ⟨other.errors.take Report.capacity,
          other.warnings.take Report.capacity⟩).report := by
    have keptErrors : other.report.errors.toList = other.errors.take Report.capacity := rfl
    have keptWarnings : other.report.warnings.toList = other.warnings.take Report.capacity := rfl
    rw [← Array.foldl_toList, ← Array.foldl_toList, keptErrors, keptWarnings,
      foldl_pushError_report, foldl_pushWarning_report, append_assoc]
    simp only [append, List.append_nil, List.nil_append]
  have errors := length_add_dropped Report.capacity log.errors other.errors
  have warnings := length_add_dropped Report.capacity log.warnings other.warnings
  simp only [Report.extend, replayed]
  simp only [report, append, take_append_take, List.size_toArray, errors, warnings]

end Log

/-! ## Recordings -/

/-- How a report comes about: diagnostics are recorded one after the other, and reports that came
about in the same way are appended. -/
inductive Recording where
  /-- Nothing is recorded yet. -/
  | empty
  /-- A diagnostic is recorded under its own severity. -/
  | push (before : Recording) (d : Diagnostic)
  /-- A diagnostic is recorded as an error. -/
  | pushError (before : Recording) (d : Diagnostic)
  /-- A diagnostic is recorded as a warning. -/
  | pushWarning (before : Recording) (d : Diagnostic)
  /-- A whole report is appended. -/
  | extend (before other : Recording)

namespace Recording

/-- The report that comes about. -/
def report : Recording → Report
  | empty => .empty
  | push before d => before.report.push d
  | pushError before d => before.report.pushError d
  | pushWarning before d => before.report.pushWarning d
  | extend before other => before.report.extend other.report

/-- All that was recorded on the way, in order. -/
def log : Recording → Log
  | empty => {}
  | push before d => before.log.append (.single d)
  | pushError before d => before.log.append { errors := [d] }
  | pushWarning before d => before.log.append { warnings := [d] }
  | extend before other => before.log.append other.log

/-- What comes about is the report of all that was recorded. -/
theorem report_eq (recording : Recording) : recording.report = recording.log.report := by
  induction recording with
  | empty => rfl
  | push before d ih => rw [report, ih, Log.push_report, log]
  | pushError before d ih => rw [report, ih, Log.pushError_report, log]
  | pushWarning before d ih => rw [report, ih, Log.pushWarning_report, log]
  | extend before other ih ih' => rw [report, ih, ih', Log.extend_report, log]

/-- However a report comes about, it keeps the first fifty errors and the first fifty warnings that
were recorded on the way, and counts them all; so it never counts fewer than it keeps, and it has
errors as soon as one was recorded. Appending such reports is associative, and the report of nothing
is neutral. -/
theorem capped_log :
    (∀ recording : Recording,
      recording.report.errors.toList = recording.log.errors.take 50 ∧
      recording.report.warnings.toList = recording.log.warnings.take 50 ∧
      recording.report.totalErrors = recording.log.errors.length ∧
      recording.report.totalWarnings = recording.log.warnings.length ∧
      recording.report.errors.size ≤ recording.report.totalErrors ∧
      recording.report.warnings.size ≤ recording.report.totalWarnings ∧
      (recording.report.hasErrors = true ↔ recording.log.errors ≠ []) ∧
      recording.report.extend .empty = recording.report ∧
      Report.empty.extend recording.report = recording.report) ∧
    ∀ first second third : Recording,
      (first.report.extend second.report).extend third.report =
        first.report.extend (second.report.extend third.report) := by
  constructor
  · intro recording
    rw [report_eq]
    have counted (entries : List Diagnostic) :
        (entries.take Report.capacity).toArray.size ≤ entries.length := by
      rw [List.size_toArray]
      exact List.length_take_le' _ _
    have found : recording.log.report.hasErrors = true ↔ recording.log.errors ≠ [] := by
      rw [Report.hasErrors, decide_eq_true_eq]
      exact List.length_pos_iff
    refine ⟨rfl, rfl, rfl, rfl, counted _, counted _, found, ?_, ?_⟩
    · rw [← Log.report_empty, Log.extend_report, Log.append_empty]
    · rw [← Log.report_empty, Log.extend_report, Log.empty_append]
  · intro first second third
    simp only [report_eq, Log.extend_report, Log.append_assoc]

end Recording

/-! ## The stages of the front end -/

/-- The log of findings about a script, each quoting its line. -/
def Log.ofFindings (source : SourceText) : List Finding → Log
  | [] => {}
  | finding :: findings => (single (finding.quoted source)).append (ofFindings source findings)

theorem Log.addFindings_report (log : Log) (source : SourceText) (findings : Array Finding) :
    log.report.addFindings source findings =
      (log.append (ofFindings source findings.toList)).report := by
  unfold Report.addFindings
  rw [← Array.foldl_toList]
  induction findings.toList generalizing log with
  | nil => rw [ofFindings, append_empty]; rfl
  | cons finding findings ih =>
    rw [List.foldl_cons, push_report, ih, append_assoc]
    rfl

/-- It does not matter whether every stage adds its findings to one report, or makes a report of its
own that is appended to those of the stages before. -/
theorem check_eq_extend (content name : String) (inputs : List InputImage) :
    let source := SourceText.ofString name content
    let parsed := Script.parse source.lex.tokens.toList
    check content name inputs =
      ((Report.empty.addFindings source source.lex.findings).extend
        (Report.empty.addFindings source parsed.findings)).extend
          (Report.empty.addFindings source (parsed.script.resolve inputs).findings) := by
  intro source parsed
  have stages : check content name inputs =
      ((Report.empty.addFindings source source.lex.findings).addFindings source
        parsed.findings).addFindings source (parsed.script.resolve inputs).findings := rfl
  rw [stages]
  simp only [← Log.report_empty, Log.addFindings_report, Log.extend_report, Log.empty_append]

end TextureScript
