import TextureScript.Proofs.Compiler.Variation
import TextureScript.Proofs.Script.Names

/-!
# Inputs matter as a map

What a list of inputs does is to give names to images, and of two inputs with one name the later
counts. Lists that give the same images to all names are used alike, down to the names that are
suggested for a misspelled one, as those are taken from the names in increasing order. A script that
is compiled does not notice either what becomes of names that do not occur in it.
-/

namespace TextureScript

/-- The same script against inputs that give the same images to all names. -/
def Variation.reordering : Variation where
  Occurs _ := True
  rename := id
  Moves := Eq
  Rewords := Eq

theorem Variation.lawful_reordering : reordering.Lawful where
  apart _ _ _ _ same := same
  moved finding span moves := by
    obtain rfl : finding.span = span := moves
    rfl
  unresolved scope other name span span' varies _ moves := by
    obtain rfl : span = span' := moves
    have names : other.names = scope.names := varies.names (fun _ => trivial) rfl
    change Resolution.unresolvedFinding scope name span =
      Resolution.unresolvedFinding other name span
    rw [Resolution.unresolvedFinding, Resolution.unresolvedFinding, names]
  conflict target target' conflict conflict' named conflicts := by
    obtain ⟨-, text, span⟩ := named
    obtain rfl : target' = target := by
      cases target
      cases target'
      cases text
      cases span
      rfl
    cases conflicts with
    | input => rfl
    | binding moves =>
      cases moves
      rfl
  channel _ _ _ _ _ _ first span := by
    cases first
    cases span
    rfl
  texture name name' first first' named moves := by
    obtain ⟨-, text, span⟩ := named
    cases name
    cases name'
    cases text
    cases span
    cases moves
    rfl

section

variable {script : Script} {inputs inputs' : List InputImage}

/-- Inputs that give the same images to all names leave every step of resolving as it is. -/
theorem Script.resolve_reordering
    (same : ∀ name, InputImage.assigned inputs' name = InputImage.assigned inputs name) :
    (script.resolve inputs).Varies .reordering (script.resolve inputs') :=
  Script.resolve_varies Variation.lawful_reordering
    (script.varies_self ⟨fun _ => rfl, fun _ _ => ⟨trivial, rfl⟩⟩)
    (Scope.varies_ofInputs fun name _ => same name)

/-- The findings stay, with the names that they suggest. -/
theorem Script.findings_resolve_reordering
    (same : ∀ name, InputImage.assigned inputs' name = InputImage.assigned inputs name) :
    (script.resolve inputs').findings = (script.resolve inputs).findings := by
  have pairs : List.Forall₂ Eq (script.resolve inputs).findings.toList
    (script.resolve inputs').findings.toList := (script.resolve_reordering same).findings
  rw [List.forall₂_eq_eq_eq] at pairs
  exact (Array.toList_inj.mp pairs).symm

theorem Script.assemble_resolve_reordering
    (same : ∀ name, InputImage.assigned inputs' name = InputImage.assigned inputs name) :
    (script.resolve inputs').plan.assemble = (script.resolve inputs).plan.assemble := by
  have assembled : (script.resolve inputs').plan.assemble =
      (script.resolve inputs).plan.assemble.map (CompiledModule.renamed id) :=
    (script.resolve_reordering same).plan.assemble
  rw [assembled]
  cases (script.resolve inputs).plan.assemble with
  | ok compiled => exact congrArg Except.ok compiled.renamed_id
  | error fault => rfl

end

section

variable {content name : String} {inputs inputs' : List InputImage}

/-- A script is compiled alike against inputs that give the same images to all names. -/
theorem compile_reordering
    (same : ∀ text, InputImage.assigned inputs' text = InputImage.assigned inputs text) :
    compile content name inputs' = compile content name inputs := by
  have report : ((SourceText.ofString name content).analyse inputs').report =
      ((SourceText.ofString name content).analyse inputs).report := by
    simp only [SourceText.analyse, Script.resolveInto, Script.findings_resolve_reordering same]
  have assembled : ((SourceText.ofString name content).analyse inputs').plan.assemble =
      ((SourceText.ofString name content).analyse inputs).plan.assemble :=
    Script.assemble_resolve_reordering same
  simp only [compile, report, assembled]

/-- A compiled script is compiled alike against inputs that give the same images to its names. -/
theorem compileModule_of_names (same : ∀ text ∈ (SourceText.ofString name content).script.names,
      InputImage.assigned inputs' text = InputImage.assigned inputs text)
    {compiled : CompiledModule} (compiles : compileModule content name inputs = .ok compiled) :
    compileModule content name inputs' = .ok compiled := by
  obtain ⟨lexed, parsed, -⟩ := errorFree_of_compileModule compiles
  have lawful : (Variation.naming
      (· ∈ (SourceText.ofString name content).script.names) id).Lawful :=
    Variation.lawful_naming fun _ _ _ _ equal => equal
  have resolved := Script.resolve_varies lawful
    (Script.varies_self _ ⟨fun _ => trivial, fun _ member => ⟨member, rfl⟩⟩)
    (Scope.varies_ofInputs same)
  have compiles' := compileModule_of_varies (fun _ _ serious => serious) lexed parsed resolved
    compiles
  exact compiles'.trans (congrArg Except.ok compiled.renamed_id)

/-- Inputs matter only as a map from names to images. Lists that give the same image to every name
lead to the same result, with the same diagnostics. Lists that give the same images to the names of
a script lead to the same module, if the script is compiled against one of them. -/
theorem inputs_matter_as_map (content name : String) (inputs inputs' : List InputImage) :
    ((∀ text, InputImage.assigned inputs' text = InputImage.assigned inputs text) →
      (compile content name inputs').result = (compile content name inputs).result) ∧
    ((∀ text ∈ (SourceText.ofString name content).script.names,
        InputImage.assigned inputs' text = InputImage.assigned inputs text) →
      ∀ compiled, compileModule content name inputs = .ok compiled →
        compileModule content name inputs' = .ok compiled) := by
  constructor
  · intro same
    rw [compile_reordering same]
  · intro same compiled compiles
    exact compileModule_of_names same compiles

end

/-- Inputs of which one is named twice. -/
def repeatedInputs : List InputImage :=
  [⟨"rock", ⟨1⟩⟩, ⟨"sand", ⟨2⟩⟩, ⟨"rock", ⟨3⟩⟩]

/-- The same inputs in another order, without the one that does not count. -/
def distinctInputs : List InputImage :=
  [⟨"rock", ⟨3⟩⟩, ⟨"sand", ⟨2⟩⟩]

/-- The misspelled name of an input is corrected alike, and a name that does not occur may be left
out. -/
theorem inputs_matter_as_map_repeatedInputs :
    (∀ text, InputImage.assigned distinctInputs text = InputImage.assigned repeatedInputs text) ∧
      (check "export rok;" "script" repeatedInputs).errors.map (·.suggestion) =
        #[some "did you mean 'rock'?"] ∧
      (compile "export rok;" "script" distinctInputs).result =
        (compile "export rok;" "script" repeatedInputs).result ∧
      ∃ compiled, compileModule "export rock;" "script" repeatedInputs = .ok compiled ∧
        compileModule "export rock;" "script" [⟨"rock", ⟨3⟩⟩] = .ok compiled := by
  have same : ∀ text,
      InputImage.assigned distinctInputs text = InputImage.assigned repeatedInputs text := by
    intro text
    by_cases rock : "rock" = text
    · rw [← rock]
      decide
    · simp [InputImage.assigned, distinctInputs, repeatedInputs, List.find?_cons, rock]
  have named : ∀ text ∈ (SourceText.ofString "script" "export rock;").script.names,
      InputImage.assigned [⟨"rock", ⟨3⟩⟩] text = InputImage.assigned repeatedInputs text := by
    have names : (SourceText.ofString "script" "export rock;").script.names = ["rock"] := by
      decide +kernel
    rw [names]
    decide
  have succeeds : (compile "export rock;" "script" repeatedInputs).compiled.isSome := by
    decide +kernel
  obtain ⟨compiled, isCompiled⟩ := Option.isSome_iff_exists.mp succeeds
  have compiles := compileModule_eq_ok.mpr isCompiled
  exact ⟨same, by decide +kernel, (inputs_matter_as_map _ _ _ _).1 same, compiled, compiles,
    (inputs_matter_as_map _ _ _ _).2 named compiled compiles⟩

end TextureScript
