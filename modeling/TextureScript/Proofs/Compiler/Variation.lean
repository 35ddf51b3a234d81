import TextureScript.Proofs.Assembly.Naming
import TextureScript.Proofs.Compiler.Success

/-!
# Compiling in step

A script that is resolved in step with a compiled one has no errors either, as long as its findings
are as serious as theirs, and its plan is assembled alike. So it is compiled too, to the same bytes,
and its slots call the textures by their new names.
-/

namespace TextureScript

/-- Findings that come in pairs with warnings are warnings. -/
theorem OnlyWarnings.of_forall₂ {Rewords : Finding → Finding → Prop}
    (serious : ∀ finding other, Rewords finding other → other.severity = finding.severity)
    {findings others : Array Finding}
    (pairs : List.Forall₂ Rewords findings.toList others.toList)
    (clean : OnlyWarnings findings) : OnlyWarnings others := by
  unfold OnlyWarnings at *
  generalize findings.toList = listed, others.toList = listed' at pairs clean ⊢
  induction pairs with
  | nil => exact clean
  | cons same _ ih =>
    obtain ⟨here, later⟩ := List.forall_mem_cons.mp clean
    exact List.forall_mem_cons.mpr ⟨(serious _ _ same).trans here, ih later⟩

section

variable {content content' name : String} {inputs inputs' : List InputImage}
  {compiled : CompiledModule}

/-- No stage finds an error in a script that is compiled. -/
theorem errorFree_of_compileModule (compiles : compileModule content name inputs = .ok compiled) :
    (SourceText.ofString name content).ErrorFree inputs :=
  (compiled_eq_some.mp (compileModule_eq_ok.mp compiles)).1

/-- A script that can be read and is resolved in step with a compiled one is compiled to the same
bytes. -/
theorem compileModule_of_varies {v : Variation}
    (serious : ∀ finding other, v.Rewords finding other → other.severity = finding.severity)
    (lexed : OnlyWarnings (SourceText.ofString name content').lex.findings)
    (parsed : OnlyWarnings
      (Script.parse (SourceText.ofString name content').lex.tokens.toList).findings)
    (resolved : ((SourceText.ofString name content).script.resolve inputs).Varies v
      ((SourceText.ofString name content').script.resolve inputs'))
    (compiles : compileModule content name inputs = .ok compiled) :
    compileModule content' name inputs' = .ok (compiled.renamed v.rename) := by
  rw [compileModule_eq_ok, compiled_eq_some] at compiles ⊢
  obtain ⟨clean, assembled⟩ := compiles
  refine ⟨⟨lexed, parsed, .of_forall₂ serious resolved.findings clean.resolved⟩, ?_⟩
  rw [resolved.plan.assemble, assembled]
  rfl

end

end TextureScript
