import TextureScript.Diagnostic

/-!
# Reports

A report collects diagnostics. It keeps the first fifty errors and the first fifty warnings and
counts all of them, so a badly broken script is described in bounded space. Appending one report to
another keeps as much of the second as there is room for and adds the counts of what it had already
left out.
-/

namespace TextureScript

/-- The most errors, and the most warnings, that a report keeps. -/
def Report.capacity : Nat := 50

/-- The errors and warnings about a script, the first of each kept and all of them counted. -/
structure Report where
  /-- The errors kept, in the order in which they were found. -/
  errors : Array Diagnostic := #[]
  /-- The warnings kept, in the order in which they were found. -/
  warnings : Array Diagnostic := #[]
  /-- How many errors were found. -/
  totalErrors : Nat := 0
  /-- How many warnings were found. -/
  totalWarnings : Nat := 0
deriving DecidableEq, Repr, Inhabited

namespace Report

/-- The report of nothing. -/
def empty : Report := {}

/-- Whether any error was found. -/
def hasErrors (r : Report) : Bool :=
  0 < r.totalErrors

/-- Record an error, whatever severity it carries. -/
def pushError (r : Report) (d : Diagnostic) : Report :=
  { r with
    errors := if r.errors.size < capacity then r.errors.push d else r.errors
    totalErrors := r.totalErrors + 1 }

/-- Record a warning, whatever severity it carries. -/
def pushWarning (r : Report) (d : Diagnostic) : Report :=
  { r with
    warnings := if r.warnings.size < capacity then r.warnings.push d else r.warnings
    totalWarnings := r.totalWarnings + 1 }

/-- Record a diagnostic under its own severity. -/
def push (r : Report) (d : Diagnostic) : Report :=
  match d.severity with
  | .error => r.pushError d
  | .warning => r.pushWarning d

/-- Append a report: its kept diagnostics are recorded again, and what it counted without keeping
is added to the counts. -/
def extend (r other : Report) : Report :=
  let r := other.errors.foldl pushError r
  let r := other.warnings.foldl pushWarning r
  { r with
    totalErrors := r.totalErrors + (other.totalErrors - other.errors.size)
    totalWarnings := r.totalWarnings + (other.totalWarnings - other.warnings.size) }

/-- The report of findings about a script, each quoting its line. -/
def addFindings (r : Report) (source : SourceText) (findings : Array Finding) : Report :=
  findings.foldl (fun r f => r.push (f.quoted source)) r

/-- Whether a kept diagnostic has the given code. -/
def contains (r : Report) (code : Code) : Bool :=
  r.errors.any (·.code == code) || r.warnings.any (·.code == code)

/-- One line for each kept diagnostic, errors first. -/
def render (r : Report) : String :=
  String.join ((r.errors ++ r.warnings).toList.map (·.render ++ "\n"))

end Report

end TextureScript
