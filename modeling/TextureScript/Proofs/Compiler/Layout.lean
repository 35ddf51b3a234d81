import TextureScript.Proofs.Compiler.Variation
import TextureScript.Proofs.Script.Places

/-!
# Layout does not matter

Texts with the same lexemes are compiled alike: to the same script, or to reports whose diagnostics
come in pairs that differ in places only. What a diagnostic shows of places is its span, the line
that it quotes, and a line number at the end of some messages. The reports stay in step because they
are filled in step and have room for equally many.
-/

namespace TextureScript

/-- Diagnostics that differ only in places. -/
structure Diagnostic.SameButPlace (d other : Diagnostic) : Prop where
  /-- They are about scripts of the same name. -/
  file : other.file = d.file
  /-- They are of the same kind. -/
  code : other.code = d.code
  /-- They are equally serious. -/
  severity : other.severity = d.severity
  /-- They are about the same area of the language. -/
  category : other.category = d.category
  /-- They say the same. -/
  message : SameButLine d.message other.message
  /-- They come with the same advice. -/
  suggestion : other.suggestion = d.suggestion

/-- Reports whose diagnostics differ only in places. -/
structure Report.SameButPlace (report other : Report) : Prop where
  /-- The errors come in pairs. -/
  errors : List.Forall₂ Diagnostic.SameButPlace report.errors.toList other.errors.toList
  /-- The warnings come in pairs. -/
  warnings : List.Forall₂ Diagnostic.SameButPlace report.warnings.toList other.warnings.toList
  /-- As many errors were found. -/
  totalErrors : other.totalErrors = report.totalErrors
  /-- As many warnings were found. -/
  totalWarnings : other.totalWarnings = report.totalWarnings

/-- Problems that differ only in places are reported so. -/
theorem Finding.SameButPlace.inFile {finding other : Finding} (same : finding.SameButPlace other)
    (file line line' : String) :
    (finding.inFile file line).SameButPlace (other.inFile file line') where
  file := rfl
  code := same.code
  severity := same.severity
  category := congrArg Code.category same.code
  message := same.message
  suggestion := same.suggestion

namespace Report.SameButPlace

variable {report other : Report} {d d' : Diagnostic}

/-- Diagnostics are added to both lists, or both lists are full. -/
theorem keep {kept kept' : Array Diagnostic}
    (pairs : List.Forall₂ Diagnostic.SameButPlace kept.toList kept'.toList)
    (same : d.SameButPlace d') :
    List.Forall₂ Diagnostic.SameButPlace
      (if kept.size < capacity then kept.push d else kept).toList
      (if kept'.size < capacity then kept'.push d' else kept').toList := by
  have sizes := pairs.length_eq
  rw [Array.length_toList, Array.length_toList] at sizes
  rw [← sizes]
  split
  · rw [Array.toList_push, Array.toList_push]
    exact List.rel_append pairs (.cons same .nil)
  · exact pairs

theorem pushError (alike : report.SameButPlace other) (same : d.SameButPlace d') :
    (report.pushError d).SameButPlace (other.pushError d') where
  errors := keep alike.errors same
  warnings := alike.warnings
  totalErrors := congrArg (· + 1) alike.totalErrors
  totalWarnings := alike.totalWarnings

theorem pushWarning (alike : report.SameButPlace other) (same : d.SameButPlace d') :
    (report.pushWarning d).SameButPlace (other.pushWarning d') where
  errors := alike.errors
  warnings := keep alike.warnings same
  totalErrors := alike.totalErrors
  totalWarnings := congrArg (· + 1) alike.totalWarnings

theorem push (alike : report.SameButPlace other) (same : d.SameButPlace d') :
    (report.push d).SameButPlace (other.push d') := by
  unfold Report.push
  rw [same.severity]
  cases d.severity with
  | error => exact alike.pushError same
  | warning => exact alike.pushWarning same

/-- Findings that come in pairs are reported in pairs, whatever the texts they quote. -/
theorem addFindings {source source' : SourceText} (named : source'.name = source.name)
    (alike : report.SameButPlace other) {findings findings' : Array Finding}
    (pairs : List.Forall₂ Finding.SameButPlace findings.toList findings'.toList) :
    (report.addFindings source findings).SameButPlace
      (other.addFindings source' findings') := by
  unfold Report.addFindings
  rw [← Array.foldl_toList, ← Array.foldl_toList]
  refine List.rel_foldl ?_ alike pairs
  intro report other alike finding finding' same
  unfold Finding.quoted
  rw [named]
  exact alike.push (same.inFile _ _ _)

end Report.SameButPlace

theorem Report.sameButPlace_empty : empty.SameButPlace empty :=
  ⟨.nil, .nil, rfl, rfl⟩

/-! ## Texts with the same lexemes -/

/-- Two texts lex without a finding to the same lexemes. -/
structure SourceText.SameLexemes (source other : SourceText) : Prop where
  /-- The first text has no finding. -/
  clean : source.lex.findings = #[]
  /-- The second text has no finding. -/
  clean' : other.lex.findings = #[]
  /-- The lexemes are the same. -/
  lexemes : other.lex.tokens.toList.map (·.lexeme) = source.lex.tokens.toList.map (·.lexeme)

namespace SourceText.SameLexemes

variable {source other : SourceText}

theorem symm (same : source.SameLexemes other) : other.SameLexemes source :=
  ⟨same.clean', same.clean, same.lexemes.symm⟩

/-- The same problems are found in parsing. -/
theorem parsed (same : source.SameLexemes other) :
    List.Forall₂ Finding.SameButPlace (Script.parse source.lex.tokens.toList).findings.toList
      (Script.parse other.lex.tokens.toList).findings.toList :=
  (Script.parse_sameLexemes (Parser.sameLexemes_iff.mpr same.lexemes)).2.imp
    fun _ _ error => error.same

/-- The scripts are resolved in step. -/
theorem resolved (same : source.SameLexemes other) (inputs : List InputImage) :
    (source.script.resolve inputs).Varies .layout (other.script.resolve inputs) := by
  exact Script.resolve_varies Variation.lawful_layout
    (Script.parse_sameLexemes (Parser.sameLexemes_iff.mpr same.lexemes)).1
    (Scope.varies_ofInputs fun _ _ => rfl)

/-- The reports differ only in places. -/
theorem report (same : source.SameLexemes other) (named : other.name = source.name)
    (inputs : List InputImage) :
    (source.analyse inputs).report.SameButPlace (other.analyse inputs).report := by
  have lexed : List.Forall₂ Finding.SameButPlace source.lex.findings.toList
      other.lex.findings.toList := by
    rw [same.clean, same.clean']
    exact .nil
  exact ((Report.sameButPlace_empty.addFindings named lexed).addFindings named
    same.parsed).addFindings named (same.resolved inputs).findings

end SourceText.SameLexemes

section

variable {content content' name : String}

/-- What is compiled is compiled in any other layout. -/
theorem compileModule_of_sameLexemes
    (same : (SourceText.ofString name content).SameLexemes (.ofString name content'))
    {inputs : List InputImage} {compiled : CompiledModule}
    (compiles : compileModule content name inputs = .ok compiled) :
    compileModule content' name inputs = .ok compiled := by
  have lexed : OnlyWarnings (SourceText.ofString name content').lex.findings := by
    rw [same.clean']
    exact nofun
  have parsed := OnlyWarnings.of_forall₂ (fun _ _ alike => alike.severity) same.parsed
    (errorFree_of_compileModule compiles).parsed
  have varied := compileModule_of_varies (v := .layout) (fun _ _ alike => alike.severity) lexed
    parsed (same.resolved inputs) compiles
  rwa [show compiled.renamed Variation.layout.rename = compiled from compiled.renamed_id] at varied

/-- The reports of compiling differ only in places, also those of a script that is too large. -/
theorem report_sameButPlace
    (same : (SourceText.ofString name content).SameLexemes (.ofString name content'))
    (inputs : List InputImage) :
    (compile content name inputs).report.SameButPlace (compile content' name inputs).report := by
  have alike := same.report rfl inputs
  have hasErrors : ((SourceText.ofString name content').analyse inputs).report.hasErrors =
      ((SourceText.ofString name content).analyse inputs).report.hasErrors := by
    rw [Report.hasErrors, Report.hasErrors, alike.totalErrors]
  have assembled : ((SourceText.ofString name content').analyse inputs).plan.assemble =
      ((SourceText.ofString name content).analyse inputs).plan.assemble.map
        (CompiledModule.renamed id) := (same.resolved inputs).plan.assemble
  unfold compile
  simp only [hasErrors, assembled]
  split
  · exact alike
  cases ((SourceText.ofString name content).analyse inputs).plan.assemble with
  | ok compiled => exact alike
  | error fault =>
    have same : (assemblyFinding fault).SameButPlace (assemblyFinding fault) :=
      ⟨rfl, rfl, .inl rfl, rfl⟩
    exact alike.pushError (same.inFile _ _ _)

/-- Texts that lex without a finding to the same lexemes are compiled to the same module or not at
all, and the reports about them differ only in places: their diagnostics have the same codes,
severities, categories and suggestions, in the same order. -/
theorem layout_irrelevant (inputs : List InputImage)
    (clean : (SourceText.ofString name content).lex.findings = #[])
    (clean' : (SourceText.ofString name content').lex.findings = #[])
    (lexemes : (SourceText.ofString name content').lex.tokens.toList.map (·.lexeme) =
      (SourceText.ofString name content).lex.tokens.toList.map (·.lexeme)) :
    (∀ compiled, compileModule content name inputs = .ok compiled ↔
      compileModule content' name inputs = .ok compiled) ∧
    (check content name inputs).SameButPlace (check content' name inputs) ∧
    (compile content name inputs).report.SameButPlace (compile content' name inputs).report := by
  have same : (SourceText.ofString name content).SameLexemes (.ofString name content') :=
    ⟨clean, clean', lexemes⟩
  refine ⟨?_, same.report rfl inputs, report_sameButPlace same inputs⟩
  intro compiled
  exact ⟨compileModule_of_sameLexemes same, compileModule_of_sameLexemes same.symm⟩

end

/-- A script on one line that binds a name twice, misspells it once and misspells an operation. -/
def crowdedText : String :=
  "tone = 1; tone = sharp(ton);"

/-- The same script over several lines, with comments. -/
def spacedText : String :=
  "// a tone\ntone = 1;\n\n/* again */ tone =\n  sharp ( ton ) ;\n"

/-- Both texts have three errors, and the lines that they mention differ. -/
theorem layout_irrelevant_spacedText :
    (SourceText.ofString "script" crowdedText).lex.findings = #[] ∧
      (SourceText.ofString "script" spacedText).lex.findings = #[] ∧
      (check crowdedText "script" []).totalErrors = 3 ∧
      (check crowdedText "script" []).errors.map (·.message) ≠
        (check spacedText "script" []).errors.map (·.message) ∧
      (check crowdedText "script" []).SameButPlace (check spacedText "script" []) := by
  have clean : (SourceText.ofString "script" crowdedText).lex.findings = #[] := by decide +kernel
  have clean' : (SourceText.ofString "script" spacedText).lex.findings = #[] := by decide +kernel
  have lexemes : (SourceText.ofString "script" spacedText).lex.tokens.toList.map (·.lexeme) =
      (SourceText.ofString "script" crowdedText).lex.tokens.toList.map (·.lexeme) := by
    decide +kernel
  exact ⟨clean, clean', by decide +kernel, by decide +kernel,
    (layout_irrelevant [] clean clean' lexemes).2.1⟩

end TextureScript
