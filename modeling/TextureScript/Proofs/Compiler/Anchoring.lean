import TextureScript.Compiler
import TextureScript.Proofs.Plan.Findings
import TextureScript.Proofs.Source.Positions

/-!
# Diagnostics are anchored in the text

Lexing takes every span from a range of bytes of the script, and parsing and resolving take theirs
from the tokens. As ranges of bytes lie on lines of the text, all findings do so, and the
diagnostics that a report keeps of them quote the line on which they begin, with the name of the
script and the category of their code. A report keeps errors and warnings apart by how serious they
are, which is also what their codes say.
-/

namespace TextureScript

/-- A diagnostic points into a text: its span is in order and lies on lines of the text, and it
comes with the name of the text, the line on which it begins and the category of its code. -/
structure Diagnostic.Anchored (source : SourceText) (d : Diagnostic) : Prop where
  /-- It names the text. -/
  file : d.file = source.name
  /-- It does not end before it begins, by line and then by column. -/
  ordered : d.span.start.line < d.span.stop.line ∨
    (d.span.start.line = d.span.stop.line ∧ d.span.start.column ≤ d.span.stop.column)
  /-- It begins on a line. -/
  first : 1 ≤ d.span.start.line.toNat
  /-- It ends on that line or on a later one. -/
  lines : d.span.start.line.toNat ≤ d.span.stop.line.toNat
  /-- It ends on a line. -/
  last : d.span.stop.line.toNat ≤ source.lineCount
  /-- It quotes the line on which it begins. -/
  quoted : source.line? d.span.start.line = some d.sourceLine
  /-- Its category is that of its code. -/
  category : d.category = d.code.category

/-- A finding at a place of the text is reported as a diagnostic that points there. -/
theorem SourceText.Places.anchored {source : SourceText} {finding : Finding}
    (placed : source.Places finding.span) : (finding.quoted source).Anchored source where
  file := rfl
  ordered := Position.le_iff.mp placed.ordered
  first := placed.first
  lines := Position.line_le placed.ordered
  last := placed.last
  quoted := placed.line?_eq_quote
  category := rfl

/-! ## Lexing -/

namespace Lexer.State

variable {source : SourceText} {state : State}

/-- The tokens and problems so far are at places of the text, and the problems are errors. -/
structure Within (source : SourceText) (state : State) : Prop where
  /-- The tokens are. -/
  tokens : Parser.AllPlaced source.Places state.tokens.toList
  /-- The problems are. -/
  findings : ∀ finding ∈ state.findings.toList, finding.Within source.Places

theorem Within.take (within : state.Within source) (stop : Nat) {token : Option Token}
    {finding : Option Finding} (placed : ∀ t, token = some t → source.Places t.span)
    (found : ∀ f, finding = some f → f.Within source.Places) :
    (state.take stop token finding).Within source := by
  unfold State.take
  split
  · exact ⟨within.tokens, within.findings⟩
  · refine ⟨?_, ?_⟩
    · cases token with
      | none => exact within.tokens
      | some t => exact forall_mem_push within.tokens (placed t rfl)
    · cases finding with
      | none => exact within.findings
      | some f => exact forall_mem_push within.findings (found f rfl)

theorem Within.read (short : source.content.utf8ByteSize < 4294967295)
    (within : state.Within source) (piece : Piece) : (state.read source piece).Within source := by
  have ranged := SourceText.Places.ofRange short
  unfold State.read
  split
  · exact within
  · cases piece with
    | blank text => exact ⟨within.tokens, within.findings⟩
    | openComment text =>
      refine ⟨within.tokens, forall_mem_push within.findings ?_⟩
      exact .ofError (ranged _ _) rfl (show ¬Code.IsWarning .unterminatedComment by decide)
    | lexeme lexeme text =>
      apply within.take
      · rintro t ⟨⟩
        exact ranged _ _
      · nofun
    | malformedNumber text =>
      apply within.take
      · rintro t ⟨⟩
        exact ranged _ _
      · rintro f ⟨⟩
        exact .ofError (ranged _ _) rfl (show ¬Code.IsWarning .invalidNumber by decide)
    | oversizedNumber text =>
      apply within.take
      · rintro t ⟨⟩
        exact ranged _ _
      · rintro f ⟨⟩
        exact .ofError (ranged _ _) rfl (show ¬Code.IsWarning .invalidNumber by decide)
    | stray char =>
      apply within.take
      · nofun
      · rintro f ⟨⟩
        exact .ofError (ranged _ _) rfl (show ¬Code.IsWarning .unexpectedToken by decide)

theorem Within.foldl (short : source.content.utf8ByteSize < 4294967295)
    (within : state.Within source) (pieces : List Piece) :
    (pieces.foldl (State.read source) state).Within source := by
  induction pieces generalizing state with
  | nil => exact within
  | cons piece pieces ih => exact ih (within.read short piece)

end Lexer.State

/-- The tokens of a text and the problems of lexing it are at places of the text. -/
theorem SourceText.within_lex {source : SourceText}
    (short : source.content.utf8ByteSize < 4294967295) :
    Parser.AllPlaced source.Places source.lex.tokens.toList ∧
      ∀ finding ∈ source.lex.findings.toList, finding.Within source.Places := by
  have start : Lexer.State.Within source {} := ⟨nofun, nofun⟩
  have final := start.foldl short (Piece.split source.content.toList)
  exact ⟨forall_mem_push final.tokens (.ofRange short _ _), final.findings⟩

/-! ## Reports -/

/-- All diagnostics that a report keeps point into a text, and they are kept with those that are as
serious as their codes say. -/
structure Report.Anchored (source : SourceText) (report : Report) : Prop where
  /-- The errors are errors. -/
  errors : ∀ d ∈ report.errors.toList,
    d.Anchored source ∧ d.severity = .error ∧ ¬d.code.IsWarning
  /-- The warnings are warnings. -/
  warnings : ∀ d ∈ report.warnings.toList,
    d.Anchored source ∧ d.severity = .warning ∧ d.code.IsWarning

namespace Report.Anchored

variable {source : SourceText} {report : Report}

theorem push (anchored : report.Anchored source) {finding : Finding}
    (within : finding.Within source.Places) :
    (report.push (finding.quoted source)).Anchored source := by
  have placed := within.placed.anchored
  have kept : ∀ {Good : Diagnostic → Prop} {kept : Array Diagnostic}, (∀ d ∈ kept.toList, Good d) →
      Good (finding.quoted source) → ∀ d ∈ (if kept.size < capacity then
        kept.push (finding.quoted source) else kept).toList, Good d := by
    intro Good kept before good
    split
    · exact forall_mem_push before good
    · exact before
  have same : (finding.quoted source).severity = finding.severity := rfl
  unfold Report.push
  rw [same]
  cases serious : finding.severity with
  | error =>
    have code : ¬finding.code.IsWarning := fun warns => by
      rw [within.sorted.mpr warns] at serious
      cases serious
    exact ⟨kept anchored.errors ⟨placed, serious, code⟩, anchored.warnings⟩
  | warning =>
    exact ⟨anchored.errors, kept anchored.warnings ⟨placed, serious, within.sorted.mp serious⟩⟩

theorem addFindings (anchored : report.Anchored source) {findings : Array Finding}
    (within : ∀ finding ∈ findings.toList, finding.Within source.Places) :
    (report.addFindings source findings).Anchored source := by
  unfold Report.addFindings
  rw [← Array.foldl_toList]
  generalize findings.toList = found at within
  induction found generalizing report with
  | nil => exact anchored
  | cons finding found ih =>
    obtain ⟨here, later⟩ := List.forall_mem_cons.mp within
    exact ih (anchored.push here) later

end Report.Anchored

/-- Every diagnostic that checking a script gives points into the script, as long as the script is
short enough for its lines and columns to be counted in 32 bits: it has the name of the script, a
span in order on lines of the script, the line on which it begins and the category of its code. The
errors are errors and the warnings are warnings, which are those about unknown material types and
channels. -/
theorem check_anchored {content : String} (short : content.utf8ByteSize < 4294967295)
    (name : String) (inputs : List InputImage) :
    (check content name inputs).Anchored (SourceText.ofString name content) := by
  let source := SourceText.ofString name content
  have short : source.content.utf8ByteSize < 4294967295 := short
  have origin : source.Places (.point 1 1) :=
    ⟨Position.le_refl _, Nat.le_refl 1, source.lineCount_bounds.1⟩
  obtain ⟨tokens, lexed⟩ := SourceText.within_lex short
  obtain ⟨statements, parsed⟩ :=
    Script.within_parse (fun _ _ here there => here.merge there) origin tokens
  have resolved := Script.within_resolve statements inputs
  have empty : Report.empty.Anchored source := ⟨nofun, nofun⟩
  exact ((empty.addFindings lexed).addFindings parsed).addFindings resolved

/-- A text with a character that means nothing, a call without arguments, an unknown material type
and a name without a meaning. -/
def brokenText : String :=
  "x = #1;\ny = resize(x;\n(m, c, T) = z;"

/-- All four problems of the text are reported, the third of them as a warning. -/
theorem check_anchored_brokenText :
    ((check brokenText "broken" []).errors.toList.map fun d => (d.code, d.span.start.line)) =
        [(.unexpectedToken, 1), (.unexpectedToken, 2), (.unresolvedIdentifier, 3)] ∧
      ((check brokenText "broken" []).warnings.toList.map (·.code)) = [.unknownMaterialType] ∧
      (check brokenText "broken" []).Anchored (SourceText.ofString "broken" brokenText) :=
  ⟨by decide +kernel, by decide +kernel, check_anchored (by decide) "broken" []⟩

end TextureScript
