import TextureScript.Proofs.Compiler.Variation
import TextureScript.Proofs.Plan.Checking
import TextureScript.Proofs.Script.Writing

/-!
# Names of bindings do not matter

In a script without errors every name is an input or bound before it is used, and no bound name is
an input. Replacing the bound names by others that are different from each other and from the inputs
is then a variation: what a name stood for, its new name stands for. Operations are looked up by
their own names, so a binding may well be called like one. Such a replacement is itself a script
that can be written down.
-/

namespace TextureScript

/-! ## The names of a script without errors -/

theorem boundNames_append (statements more : List Statement) :
    boundNames (statements ++ more) = boundNames statements ++ boundNames more := by
  simp [boundNames]

section

variable {inputs : List InputImage} {earlier : List Statement}

mutual

/-- The names in a value with a kind are inputs or bound before. -/
theorem Expr.known_of_hasKind (e : Expr) {kind : Kind} (has : e.HasKind inputs earlier kind) :
    ∀ text ∈ e.names, Known inputs earlier text := by
  cases e with
  | number => exact nofun
  | name text span => exact List.forall_mem_singleton.mpr has.known
  | call callee args span =>
    obtain ⟨-, op, -, count, each⟩ := Expr.hasKind_call.mp has
    exact Expr.known_of_hasKindAll args (Resolution.exists_kind_of_each count each)

theorem Expr.known_of_hasKindAll (args : List Expr)
    (each : ∀ arg ∈ args, ∃ kind, arg.HasKind inputs earlier kind) :
    ∀ text ∈ namesOfAll args, Known inputs earlier text := by
  cases args with
  | nil => exact nofun
  | cons arg args =>
    obtain ⟨⟨_, has⟩, later⟩ := List.forall_mem_cons.mp each
    exact List.forall_mem_append.mpr
      ⟨Expr.known_of_hasKind arg has, Expr.known_of_hasKindAll args later⟩

end

/-- The names of a statement that follows the rules are inputs, bound before, or bound by it. -/
theorem Statement.Follows.known {statement : Statement}
    (follows : statement.Follows inputs earlier) :
    ∀ text ∈ statement.names, Known inputs (earlier ++ [statement]) text := by
  intro text member
  suffices known : text ∈ statement.bound.map (·.1) ∨ Known inputs earlier text by
    rw [Known, boundNames_concat, List.mem_append]
    rcases known with bound | given | before
    · exact .inr (.inr bound)
    · exact .inl given
    · exact .inr (.inl before)
  cases statement with
  | bind target value span =>
    obtain ⟨-, _, has⟩ := follows
    rcases List.mem_cons.mp member with rfl | inside
    · exact .inl (List.mem_singleton_self _)
    · exact .inr (value.known_of_hasKind has text inside)
  | channel _ _ _ value _ => exact .inr (value.known_of_hasKind follows text member)
  | exports names span =>
    obtain ⟨name, among, rfl⟩ := List.mem_map.mp member
    exact .inr (follows name among).known

end

namespace Script

variable {script : Script} {inputs : List InputImage}

/-- A script in which resolving finds no error follows the rules. -/
theorem valid_of_onlyWarnings (clean : OnlyWarnings (script.resolve inputs).findings) :
    script.Valid inputs := by
  rcases (Resolution.checked_nil inputs).foldl script.statements with
    ⟨valid, -⟩ | ⟨-, unclean⟩
  · exact valid
  · exact absurd clean unclean

/-- The names of a script that follows the rules are inputs or bound. -/
theorem Valid.known (valid : script.Valid inputs) :
    ∀ text ∈ script.names, Known inputs script.statements text := by
  intro text member
  obtain ⟨statement, among, inside⟩ := List.mem_flatMap.mp member
  obtain ⟨earlier, later, split⟩ := List.append_of_mem among
  refine ((valid.each earlier statement later split).known text inside).imp_right ?_
  intro bound
  rw [split, List.append_cons, boundNames_append]
  exact List.mem_append_left _ bound

/-- A bound name is not an input. -/
theorem Valid.not_input (valid : script.Valid inputs) {text : String}
    (bound : text ∈ boundNames script.statements) : text ∉ inputs.map (·.name) := by
  obtain ⟨before, target, value, span, after, split, rfl⟩ := mem_boundNames.mp bound
  exact (valid.each before _ after split).1.1

/-! ## Renaming what is bound -/

/-- The new name of a name: what a script binds is renamed, and other names stay. -/
def newName (script : Script) (rename : String → String) (text : String) : String :=
  if text ∈ boundNames script.statements then rename text else text

/-- New names for what a script binds: names that are different from each other and from those of
the inputs. -/
structure Renaming (script : Script) (inputs : List InputImage) (rename : String → String) :
    Prop where
  /-- They can be names, so none is the reserved word. -/
  named : ∀ text ∈ boundNames script.statements, Lexeme.IsNameText (rename text)
  /-- None is an input. -/
  fresh : ∀ text ∈ boundNames script.statements, rename text ∉ inputs.map (·.name)
  /-- They are different from each other. -/
  injective : ∀ first ∈ boundNames script.statements, ∀ second ∈ boundNames script.statements,
    rename first = rename second → first = second

namespace Renaming

variable {rename : String → String}

/-- Names that may be used stay different. -/
theorem apart (allowed : script.Renaming inputs rename) {first second : String}
    (known : Known inputs script.statements first) (known' : Known inputs script.statements second)
    (same : script.newName rename first = script.newName rename second) : first = second := by
  unfold newName at same
  by_cases bound : first ∈ boundNames script.statements <;>
    by_cases bound' : second ∈ boundNames script.statements
  · rw [if_pos bound, if_pos bound'] at same
    exact allowed.injective first bound second bound' same
  · rw [if_pos bound, if_neg bound'] at same
    have given := known'.resolve_right bound'
    exact absurd (same ▸ given) (allowed.fresh first bound)
  · rw [if_neg bound, if_pos bound'] at same
    have given := known.resolve_right bound
    exact absurd (same ▸ given) (allowed.fresh second bound')
  · rwa [if_neg bound, if_neg bound'] at same

/-- A renamed name is an input as little as before. -/
theorem assigned (allowed : script.Renaming inputs rename) (valid : script.Valid inputs)
    (text : String) : InputImage.assigned inputs (script.newName rename text) =
      InputImage.assigned inputs text := by
  unfold newName
  split
  · rename_i bound
    rw [InputImage.assigned_eq_none.mpr (allowed.fresh text bound),
      InputImage.assigned_eq_none.mpr (valid.not_input bound)]
  · rfl

/-- A script that is read as the renamed one is resolved in step. -/
theorem resolved (allowed : script.Renaming inputs rename) (valid : script.Valid inputs)
    {other : Script}
    (same : other.unplaced = (script.rename (script.newName rename)).unplaced) :
    (script.resolve inputs).Varies
      (.naming (Known inputs script.statements) (script.newName rename)) (other.resolve inputs) :=
  Script.resolve_varies
    (Variation.lawful_naming fun _ _ known known' => allowed.apart known known')
    (Script.varies_of_unplaced valid.known same)
    (Scope.varies_ofInputs fun text _ => allowed.assigned valid text)

/-- Names are replaced by names. -/
theorem isNameText (allowed : script.Renaming inputs rename) (text : String)
    (isName : Lexeme.IsNameText text) : Lexeme.IsNameText (script.newName rename text) := by
  unfold newName
  split
  · rename_i bound
    exact allowed.named text bound
  · exact isName

end Renaming

end Script

/-- Findings that are errors and warnings at once are none. -/
theorem OnlyWarnings.eq_empty {findings : Array Finding} (clean : OnlyWarnings findings)
    (errors : ∀ finding ∈ findings.toList, finding.severity = .error) : findings = #[] := by
  apply Array.toList_eq_nil_iff.mp
  rw [List.eq_nil_iff_forall_not_mem]
  intro finding member
  have warning := clean finding member
  rw [errors finding member] at warning
  cases warning

/-- The names of what a script binds do not matter. When a script is compiled and its bound names
are renamed where they are bound, used and exported, there are texts of the renamed script, and each
of them is compiled to the same bytes, with the same material slots, and with texture slots that
have the new names. -/
theorem bound_names_irrelevant {content name : String} {inputs : List InputImage}
    {compiled : CompiledModule} {rename : String → String}
    (compiles : compileModule content name inputs = .ok compiled)
    (allowed : (SourceText.ofString name content).script.Renaming inputs rename) :
    let script := (SourceText.ofString name content).script
    (∃ content', (SourceText.ofString name content').Reads
      (script.rename (script.newName rename))) ∧
    ∀ content',
      (SourceText.ofString name content').Reads (script.rename (script.newName rename)) →
        compileModule content' name inputs =
          .ok (compiled.renamed (script.newName rename)) := by
  intro script
  obtain ⟨-, parsed, resolved⟩ := errorFree_of_compileModule compiles
  have valid : script.Valid inputs := Script.valid_of_onlyWarnings resolved
  constructor
  · have noProblem := parsed.eq_empty Script.severity_parse
    exact (SourceText.legible_rename noProblem allowed.isNameText).exists_reads name
  · intro content' reads
    have lexed : OnlyWarnings (SourceText.ofString name content').lex.findings := by
      rw [reads.lexed]
      exact nofun
    have parsed : OnlyWarnings
        (Script.parse (SourceText.ofString name content').lex.tokens.toList).findings := by
      rw [reads.parsed]
      exact nofun
    exact compileModule_of_varies (fun _ _ serious => serious) lexed parsed
      (allowed.resolved valid reads.script) compiles

/-- A script that darkens an input, routes what comes of it to a channel and exports both images. -/
def dimText : String :=
  "a = darken(sky, 4); (wall, albedo, PBRMetalness) = a; export a, sky;"

/-- The same script with a binding that is called like an operation. -/
def darkenText : String :=
  "darken = darken(sky, 4); (wall, albedo, PBRMetalness) = darken; export darken, sky;"

/-- The name of an operation serves as well as any other. -/
theorem bound_names_irrelevant_darken :
    ∃ compiled, compileModule dimText "script" [⟨"sky", ⟨7⟩⟩] = .ok compiled ∧
      compileModule darkenText "script" [⟨"sky", ⟨7⟩⟩] =
        .ok (compiled.renamed fun text => if text = "a" then "darken" else text) := by
  have succeeds : (compile dimText "script" [⟨"sky", ⟨7⟩⟩]).compiled.isSome := by decide +kernel
  obtain ⟨compiled, isCompiled⟩ := Option.isSome_iff_exists.mp succeeds
  have compiles := compileModule_eq_ok.mpr isCompiled
  have bound : boundNames (SourceText.ofString "script" dimText).script.statements = ["a"] := by
    decide +kernel
  have letters : ∀ d ∈ ['a', 'r', 'k', 'e', 'n'], Lexeme.ContinuesName d := by
    simp [Lexeme.ContinuesName, Lexeme.BeginsName]
  have isName : Lexeme.IsNameText "darken" := ⟨⟨'d', _, rfl, by decide, letters⟩, by decide⟩
  have allowed : (SourceText.ofString "script" dimText).script.Renaming [⟨"sky", ⟨7⟩⟩]
      (fun _ => "darken") := by
    constructor <;> simp [bound, isName]
  have newName : (SourceText.ofString "script" dimText).script.newName (fun _ => "darken") =
      fun text => if text = "a" then "darken" else text := by
    funext text
    simp [Script.newName, bound]
  have parsed : (Script.parse (SourceText.ofString "script" dimText).lex.tokens.toList).findings =
      #[] := by decide +kernel
  have reads : (SourceText.ofString "script" darkenText).Reads
      ((SourceText.ofString "script" dimText).script.rename
        ((SourceText.ofString "script" dimText).script.newName fun _ => "darken")) :=
    (SourceText.legible_rename parsed allowed.isNameText).reads (by decide +kernel)
      (by decide +kernel)
  refine ⟨compiled, compiles, ?_⟩
  rw [← newName]
  exact (bound_names_irrelevant compiles allowed).2 darkenText reads

end TextureScript
