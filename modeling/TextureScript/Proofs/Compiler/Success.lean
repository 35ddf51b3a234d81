import TextureScript.Json.Tooling
import TextureScript.Proofs.Compiler.Acceptance
import TextureScript.Proofs.Plan.WellFormed

/-!
# When compiling succeeds

A plan that was resolved meets every condition that assembling checks, except that it may be too
large. So a script without errors is compiled unless it has too many bindings or outputs, and then
there is one more error than checking the script reports. The file name is quoted in diagnostics
only: it does not change what comes of a script.
-/

namespace TextureScript

/-! ## Faults of resolved plans -/

/-- A fault of a plan that resolving should not have made. -/
def AssemblyFault.IsInternal : AssemblyFault → Prop
  | wrongArity _ _ | unresolvedResult _ => True
  | tooManySlots _ | tooManyBindings _ | tooManyLocals _ => False

/-- A plan in single assignment form has no fault. -/
theorem Plan.WellFormed.fault? {plan : Plan} (formed : plan.WellFormed) : plan.fault? = none := by
  rw [Plan.fault?_eq_none]
  constructor
  · intro step member
    have inside : step ∈ plan.bindings := Array.mem_toList_iff.mp member
    obtain ⟨number, below, isStep⟩ := Array.mem_iff_getElem.mp inside
    have found : plan.bindings[number]? = some step := by
      rw [Array.getElem?_eq_getElem below, isStep]
    have operands : ∀ operand ∈ step.value.operands, operand.WellFormed plan.bindings.size := by
      intro operand among
      cases operand with
      | input | number => trivial
      | result index => exact Nat.lt_trans (formed.earlier number step found index among) below
    cases value : step.value with
    | copy operand => exact operands operand (by simp [value, Value.operands])
    | call operation args =>
      exact ⟨formed.arity step inside operation args value,
        fun arg among => operands arg (by simpa [value, Value.operands] using among)⟩
  · intro operand member
    simp only [Plan.outputs, List.mem_append, List.mem_map, Array.mem_toList_iff] at member
    obtain ⟨output, among, rfl⟩ | ⟨output, among, rfl⟩ := member
    · exact formed.channelSources output among
    · exact formed.textureSources output among

/-- What comes of a script is sound as long as its steps can be numbered. -/
theorem Script.sound_resolve (script : Script) (inputs : List InputImage)
    (numbered : (script.resolve inputs).Numbered) : (script.resolve inputs).Sound :=
  Resolution.Sound.foldl Resolution.resolveStatement_grows Resolution.Sound.resolveStatement
    script.statements (Resolution.sound_ofInputs inputs) numbered

theorem Script.wellFormed_resolve (script : Script) (inputs : List InputImage)
    (numbered : (script.resolve inputs).Numbered) : (script.resolve inputs).plan.WellFormed :=
  (script.sound_resolve inputs numbered).wellFormed (script.resolve_outputsDistinct inputs)

/-- A resolved plan is assembled exactly when it is not too large. -/
theorem Script.assembles_resolve {script : Script} {inputs : List InputImage} :
    (script.resolve inputs).plan.Assembles ↔
      (script.resolve inputs).plan.bindings.size ≤ Wasm.maxLocals ∧
        (script.resolve inputs).plan.slotCount ≤ Assembly.maxSlots := by
  constructor
  · intro assembles
    exact ⟨assembles.steps, assembles.slots⟩
  · rintro ⟨steps, slots⟩
    have numbered : (script.resolve inputs).Numbered :=
      Nat.lt_of_le_of_lt steps (by decide)
    obtain ⟨values, outputs⟩ :=
      Plan.fault?_eq_none.mp (script.wellFormed_resolve inputs numbered).fault?
    exact ⟨slots, steps, values, outputs⟩

/-- A resolved plan is refused only for its size: plans whose steps cannot be numbered are refused
before their operands are looked at. -/
theorem Script.not_isInternal_of_assemble {script : Script} {inputs : List InputImage}
    {fault : AssemblyFault} (refused : (script.resolve inputs).plan.assemble = .error fault) :
    ¬fault.IsInternal := by
  unfold Plan.assemble at refused
  split at refused
  · cases refused
    exact id
  split at refused
  · cases refused
    exact id
  rename_i numbered
  rw [(script.wellFormed_resolve inputs (Nat.lt_of_not_le numbered)).fault?] at refused
  simp only at refused
  split at refused
  · cases refused
    exact id
  · cases refused

/-! ## Reports -/

namespace Report

/-- A report counts the errors that it keeps. -/
def Counted (report : Report) : Prop :=
  report.errors.size ≤ report.totalErrors

theorem Counted.push {report : Report} (counted : report.Counted) (d : Diagnostic) :
    (report.push d).Counted := by
  unfold Counted Report.push at *
  cases d.severity with
  | warning => exact counted
  | error =>
    simp only [pushError]
    split
    · rw [Array.size_push]
      omega
    · omega

theorem Counted.addFindings {report : Report} (counted : report.Counted) (source : SourceText)
    (findings : Array Finding) : (report.addFindings source findings).Counted := by
  unfold Report.addFindings
  rw [← Array.foldl_toList]
  induction findings.toList generalizing report with
  | nil => exact counted
  | cons finding findings ih => exact ih (counted.push _)

end Report

theorem counted_check (content name : String) (inputs : List InputImage) :
    (check content name inputs).Counted := by
  have empty : Report.empty.Counted := Nat.le_refl 0
  exact ((empty.addFindings _ _).addFindings _ _).addFindings _ _

/-- A report with one more error than another. -/
def Report.AddsError (before after : Report) (d : Diagnostic) : Prop :=
  after = { before with
    errors := before.errors.push d
    totalErrors := before.totalErrors + 1 }

/-- A report without errors has room for one. -/
theorem Report.addsError_pushError {report : Report} (counted : report.Counted)
    (clean : report.hasErrors = false) (d : Diagnostic) :
    report.AddsError (report.pushError d) d := by
  rw [hasErrors, decide_eq_false_iff_not] at clean
  have room : report.errors.size < capacity := by
    unfold Counted at counted
    unfold capacity
    omega
  rw [AddsError, pushError, if_pos room]

/-! ## The outcomes of compiling -/

/-- The plan that a script is resolved to. -/
def resolvedPlan (content name : String) (inputs : List InputImage) : Plan :=
  ((SourceText.ofString name content).analyse inputs).plan

section

variable {content name : String} {inputs : List InputImage}

/-- There are three outcomes: the script has errors, it is compiled, or it is too large. -/
theorem compile_cases (content name : String) (inputs : List InputImage) :
    ((check content name inputs).hasErrors = true ∧
      compile content name inputs = ⟨none, check content name inputs⟩) ∨
    ((check content name inputs).hasErrors = false ∧
      (resolvedPlan content name inputs).Assembles ∧
      compile content name inputs =
        ⟨some (resolvedPlan content name inputs).compiledModule, check content name inputs⟩) ∨
    ((check content name inputs).hasErrors = false ∧
      ¬(resolvedPlan content name inputs).Assembles ∧
      ∃ d : Diagnostic, d.code = .limitExceeded ∧ d.severity = .error ∧
        compile content name inputs = ⟨none, (check content name inputs).pushError d⟩) := by
  cases found : (check content name inputs).hasErrors with
  | true => exact .inl ⟨rfl, if_pos found⟩
  | false =>
    have goesOn : compile content name inputs = _ := if_neg (Bool.eq_false_iff.mp found)
    cases assembled : (resolvedPlan content name inputs).assemble with
    | ok compiled =>
      obtain ⟨assembles, rfl⟩ := Plan.assemble_eq_ok.mp assembled
      refine .inr (.inl ⟨rfl, assembles, ?_⟩)
      simp only [resolvedPlan] at assembled
      simp only [goesOn, assembled]
      rfl
    | error fault =>
      have refused : ¬(resolvedPlan content name inputs).Assembles := by
        intro assembles
        simp [Plan.assemble_eq_ok.mpr ⟨assembles, rfl⟩] at assembled
      refine .inr (.inr ⟨rfl, refused,
        (assemblyFinding fault).inFile name (String.ofList (firstLine content.toList)),
        rfl, rfl, ?_⟩)
      simp only [resolvedPlan] at assembled
      simp only [goesOn, assembled]
      rfl

theorem success_iff :
    (compile content name inputs).result.success = true ↔
      (check content name inputs).hasErrors = false ∧
        (resolvedPlan content name inputs).Assembles := by
  obtain ⟨found, compilation⟩ | ⟨clean, assembles, compilation⟩ |
    ⟨clean, refused, d, -, -, compilation⟩ := compile_cases content name inputs
  · simp [compilation, Compilation.result, found]
  · simp [compilation, Compilation.result, clean, assembles]
  · simp [compilation, Compilation.result, refused]

/-- A script that is compiled, or has errors, is reported like a script that is only checked. -/
theorem report_eq_check (settled : (compile content name inputs).result.success = true ∨
    (check content name inputs).hasErrors = true) :
    (compile content name inputs).result.report = check content name inputs := by
  obtain ⟨found, compilation⟩ | ⟨clean, assembles, compilation⟩ |
    ⟨clean, refused, d, -, -, compilation⟩ := compile_cases content name inputs
  · simp [compilation, Compilation.result]
  · simp [compilation, Compilation.result]
  · simp [compilation, Compilation.result, clean] at settled

/-- A script that has no errors and is still not compiled is reported with one error. -/
theorem report_addsError (failed : (compile content name inputs).result.success = false)
    (clean : (check content name inputs).hasErrors = false) :
    ∃ d : Diagnostic, d.code = .limitExceeded ∧ d.severity = .error ∧
      (check content name inputs).AddsError (compile content name inputs).result.report d := by
  obtain ⟨found, compilation⟩ | ⟨-, assembles, compilation⟩ |
    ⟨-, refused, d, code, severity, compilation⟩ := compile_cases content name inputs
  · rw [found] at clean
    cases clean
  · simp [compilation, Compilation.result] at failed
  · refine ⟨d, code, severity, ?_⟩
    rw [compilation]
    exact Report.addsError_pushError (counted_check content name inputs) clean d

theorem assembles_resolvedPlan :
    (resolvedPlan content name inputs).Assembles ↔
      (resolvedPlan content name inputs).bindings.size ≤ Wasm.maxLocals ∧
        (resolvedPlan content name inputs).slotCount ≤ Assembly.maxSlots :=
  Script.assembles_resolve

/-- What comes of a script does not depend on its name. -/
theorem compiled_name (other : String) {compiled : CompiledModule} :
    (compile content name inputs).compiled = some compiled ↔
      (compile content other inputs).compiled = some compiled := by
  rw [compiled_eq_some, compiled_eq_some]
  -- no stage reads the name, so the conditions on both sides are the same
  constructor
  · rintro ⟨⟨lexed, parsed, resolved⟩, assembled⟩
    exact ⟨⟨lexed, parsed, resolved⟩, assembled⟩
  · rintro ⟨⟨lexed, parsed, resolved⟩, assembled⟩
    exact ⟨⟨lexed, parsed, resolved⟩, assembled⟩

theorem compileModule_eq_ok {compiled : CompiledModule} :
    compileModule content name inputs = .ok compiled ↔
      (compile content name inputs).compiled = some compiled := by
  cases outcome : (compile content name inputs).compiled <;> simp [compileModule, outcome]

theorem compileModule_eq_error {report : Report} :
    compileModule content name inputs = .error report ↔
      (compile content name inputs).compiled = none ∧
        (compile content name inputs).report = report := by
  cases outcome : (compile content name inputs).compiled <;> simp [compileModule, outcome]

end

/-- Compiling succeeds exactly when checking finds no error and there are not too many bindings and
outputs; a plan is never refused for what resolving should have seen to, and every operation has a
function type with its number of arguments. The report is that of checking, with one error more when
the script has no error of its own and is too large. The ways to compile a script agree on the
compiled script and on failure, whatever the script is called. -/
theorem compile_succeeds_iff (content name : String) (inputs : List InputImage) :
    ((compile content name inputs).result.success = true ↔
      (check content name inputs).hasErrors = false ∧
        (resolvedPlan content name inputs).bindings.size ≤ 50000 ∧
        (resolvedPlan content name inputs).slotCount ≤ 262144) ∧
    (∀ fault, (resolvedPlan content name inputs).assemble = .error fault → ¬fault.IsInternal) ∧
    (∀ operation : Operation,
      Plan.moduleTypes[operation.typeIndex]? = some (.ofWords operation.arity 1)) ∧
    ((compile content name inputs).result.success = true ∨
        (check content name inputs).hasErrors = true →
      (compile content name inputs).result.report = check content name inputs) ∧
    ((compile content name inputs).result.success = false →
      (check content name inputs).hasErrors = false →
        ∃ d : Diagnostic, d.code = .limitExceeded ∧ d.severity = .error ∧
          (check content name inputs).AddsError (compile content name inputs).result.report d) ∧
    (∀ compiled, compileModule content name inputs = .ok compiled ↔
      (compile content name inputs).result.compiled = some compiled) ∧
    (∀ report, compileModule content name inputs = .error report ↔
      (compile content name inputs).result.success = false ∧
        (compile content name inputs).result.report = report) ∧
    ∀ compiled, compileUnnamed content inputs = .ok compiled ↔
      compileModule content name inputs = .ok compiled := by
  have types : ∀ operation : Operation,
      Plan.moduleTypes[operation.typeIndex]? = some (.ofWords operation.arity 1) := by
    intro operation
    cases operation <;> rfl
  have sizes : (resolvedPlan content name inputs).Assembles ↔
      (resolvedPlan content name inputs).bindings.size ≤ 50000 ∧
        (resolvedPlan content name inputs).slotCount ≤ 262144 :=
    assembles_resolvedPlan
  have unnamed : ∀ compiled, compileUnnamed content inputs = .ok compiled ↔
      compileModule content name inputs = .ok compiled := by
    intro compiled
    rw [compileUnnamed, compileModule_eq_ok, compileModule_eq_ok, compiled_name name]
  have failures : ∀ report, compileModule content name inputs = .error report ↔
      (compile content name inputs).result.success = false ∧
        (compile content name inputs).result.report = report := by
    intro report
    rw [compileModule_eq_error, Compilation.result, Option.isSome_eq_false_iff,
      Option.isNone_iff_eq_none]
  rw [← sizes]
  exact ⟨success_iff, fun _ => Script.not_isInternal_of_assemble, types, report_eq_check,
    report_addsError, fun _ => compileModule_eq_ok, failures, unnamed⟩

end TextureScript
