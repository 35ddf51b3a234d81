import Mathlib.Data.List.Forall2
import TextureScript.Proofs.Plan.Resolution
import TextureScript.Proofs.Scope

/-!
# Resolving in step

A variation says in what two scripts may differ: how their names are called, where their parts
stand, and how their problems are worded. Resolving looks at a name only through what it stands for,
and at a place not at all. So scripts that differ in such ways are resolved in step: statement by
statement their plans have the same steps and outputs, and their findings come in pairs. Which names
occur in the scripts is part of the variation, as names that do not occur may have any meaning.
-/

namespace TextureScript

/-- In what a script and a second one may differ. -/
structure Variation where
  /-- The names that occur in the script. -/
  Occurs : String → Prop
  /-- How a name is called in the second script. -/
  rename : String → String
  /-- Where a part of the script may stand in the second one. -/
  Moves : Span → Span → Prop
  /-- How a problem of the script may be worded in the second one. -/
  Rewords : Finding → Finding → Prop

/-! ## What corresponds -/

/-- A name that stands for a value is renamed. -/
structure Name.Varies (v : Variation) (name other : Name) : Prop where
  /-- The name is one of those that occur. -/
  occurs : v.Occurs name.text
  /-- It is called by its new name. -/
  text : other.text = v.rename name.text
  /-- It may be moved. -/
  span : v.Moves name.span other.span

/-- A name of an operation, a material, a channel or a material type stays. -/
structure Name.Moves (v : Variation) (name other : Name) : Prop where
  /-- It is called as before. -/
  text : other.text = name.text
  /-- It may be moved. -/
  span : v.Moves name.span other.span

/-- Values that differ as a variation allows. -/
inductive Expr.Varies (v : Variation) : Expr → Expr → Prop where
  /-- A number stays. -/
  | number {value : Int32} {span span' : Span} (moves : v.Moves span span') :
      Varies v (.number value span) (.number value span')
  /-- A name is renamed. -/
  | name {text : String} {span span' : Span} (occurs : v.Occurs text)
      (moves : v.Moves span span') : Varies v (.name text span) (.name (v.rename text) span')
  /-- A call stays a call of the same operation. -/
  | call {callee callee' : Name} {args args' : List Expr} {span span' : Span}
      (named : callee.Moves v callee') (each : List.Forall₂ (Varies v) args args')
      (moves : v.Moves span span') : Varies v (.call callee args span) (.call callee' args' span')

/-- Statements that differ as a variation allows. -/
inductive Statement.Varies (v : Variation) : Statement → Statement → Prop where
  /-- A binding binds the new name. -/
  | bind {target target' : Name} {value value' : Expr} {span span' : Span}
      (named : target.Varies v target') (varies : value.Varies v value')
      (moves : v.Moves span span') : Varies v (.bind target value span) (.bind target' value' span')
  /-- A channel keeps its name. -/
  | channel {material material' channel channel' materialType materialType' : Name}
      {value value' : Expr} {span span' : Span} (ofMaterial : material.Moves v material')
      (named : channel.Moves v channel') (typed : materialType.Moves v materialType')
      (varies : value.Varies v value') (moves : v.Moves span span') :
      Varies v (.channel material channel materialType value span)
        (.channel material' channel' materialType' value' span')
  /-- The new names are exported. -/
  | exports {names names' : List Name} {span span' : Span}
      (each : List.Forall₂ (Name.Varies v) names names') :
      Varies v (.exports names span) (.exports names' span')

/-- Meanings that differ at most in where they were given. -/
structure Scope.Entry.Varies (v : Variation) (entry other : Scope.Entry) : Prop where
  /-- The name stands for the same. -/
  symbol : other.symbol = entry.symbol
  /-- Both are inputs, or both are bound. -/
  span : Option.Rel v.Moves entry.span other.span

/-- The names that occur have the same meanings in two scopes. -/
def Scope.Varies (v : Variation) (scope other : Scope) : Prop :=
  ∀ name, v.Occurs name →
    Option.Rel (Entry.Varies v) scope.entries[name]? other.entries[v.rename name]?

/-- A name cannot be bound for the same reason. -/
inductive Conflict.Varies (v : Variation) : Conflict → Conflict → Prop where
  | input : Varies v .input .input
  | binding {first first' : Span} (moves : v.Moves first first') :
      Varies v (.binding first) (.binding first')

/-- Steps with the same value. -/
structure Binding.Varies (v : Variation) (step other : Binding) : Prop where
  /-- The step has the new name. -/
  name : other.name = step.name.map v.rename
  /-- The kind stays. -/
  kind : other.kind = step.kind
  /-- The value stays. -/
  value : other.value = step.value

/-- A texture under its new name. -/
def TextureOutput.renamed (rename : String → String) (output : TextureOutput) : TextureOutput :=
  { output with name := rename output.name }

/-- Plans with the same steps and outputs. -/
structure Plan.Varies (v : Variation) (plan other : Plan) : Prop where
  /-- The steps have the same values. -/
  bindings : List.Forall₂ (Binding.Varies v) plan.bindings.toList other.bindings.toList
  /-- The channels stay. -/
  channels : other.channels = plan.channels
  /-- The textures have their new names. -/
  textures : other.textures = plan.textures.map (TextureOutput.renamed v.rename)

/-- Resolutions that have come equally far. -/
structure Resolution.Varies (v : Variation) (r other : Resolution) : Prop where
  /-- The names have the same meanings. -/
  scope : r.scope.Varies v other.scope
  /-- The plans correspond. -/
  plan : r.plan.Varies v other.plan
  /-- The findings come in pairs. -/
  findings : List.Forall₂ v.Rewords r.findings.toList other.findings.toList
  /-- The same channels are declared. -/
  declared : ∀ key : String × String, Option.Rel v.Moves r.channels[key]? other.channels[key]?
  /-- The same textures are exported. -/
  exported : ∀ name, v.Occurs name →
    Option.Rel v.Moves r.textures[name]? other.textures[v.rename name]?

/-- A variation keeps names apart and allows for every problem that resolving can find. -/
structure Variation.Lawful (v : Variation) : Prop where
  /-- Names that occur stay different. -/
  apart : ∀ first second, v.Occurs first → v.Occurs second →
    v.rename first = v.rename second → first = second
  /-- A problem may be moved. -/
  moved : ∀ (finding : Finding) (span : Span), v.Moves finding.span span →
    v.Rewords finding { finding with span }
  /-- A name without a meaning has none in the other scope. -/
  unresolved : ∀ (scope other : Scope) (name : String) (span span' : Span),
    scope.Varies v other → v.Occurs name → v.Moves span span' →
    v.Rewords (Resolution.unresolvedFinding scope name span)
      (Resolution.unresolvedFinding other (v.rename name) span')
  /-- A name that is bound again has been bound before in both. -/
  conflict : ∀ (target target' : Name) (conflict conflict' : Conflict), target.Varies v target' →
    conflict.Varies v conflict' →
    v.Rewords (Resolution.conflictFinding target conflict)
      (Resolution.conflictFinding target' conflict')
  /-- A channel that is declared again has been declared before in both. -/
  channel : ∀ (material channel : String) (first first' span span' : Span), v.Moves first first' →
    v.Moves span span' → v.Rewords (Resolution.duplicateChannelFinding material channel first span)
      (Resolution.duplicateChannelFinding material channel first' span')
  /-- A texture that is exported again has been exported before in both. -/
  texture : ∀ (name name' : Name) (first first' : Span), name.Varies v name' →
    v.Moves first first' → v.Rewords (Resolution.duplicateTextureFinding name first)
      (Resolution.duplicateTextureFinding name' first')

variable {v : Variation}

theorem Expr.Varies.span {e other : Expr} (varies : e.Varies v other) :
    v.Moves e.span other.span := by
  cases varies <;> assumption

/-- What is entered under a name and under its new name leaves maps that agree on the names that
occur: another name that occurs is called differently. -/
theorem Variation.Lawful.insert {α : Type} {rel : α → α → Prop} {map map' : Std.TreeMap String α}
    (lawful : v.Lawful)
    (agree : ∀ text, v.Occurs text → Option.Rel rel map[text]? map'[v.rename text]?)
    {name : String} (occurs : v.Occurs name) {entry entry' : α} (related : rel entry entry') :
    ∀ text, v.Occurs text → Option.Rel rel (map.insert name entry)[text]?
      (map'.insert (v.rename name) entry')[v.rename text]? := by
  intro text present
  simp only [Std.TreeMap.getElem?_insert, Std.LawfulEqCmp.compare_eq_iff_eq]
  by_cases same : name = text
  · simp only [same, ↓reduceIte]
    exact .some related
  · have differ : v.rename name ≠ v.rename text :=
      fun equal => same (lawful.apart _ _ occurs present equal)
    simp only [same, differ, ↓reduceIte]
    exact agree text present

/-! ## Names -/

namespace Scope

variable {scope other : Scope} {name : String}

theorem Varies.lookup (varies : scope.Varies v other) (occurs : v.Occurs name) :
    other.lookup (v.rename name) = scope.lookup name := by
  have related := varies name occurs
  unfold Scope.lookup
  generalize scope.entries[name]? = entry, other.entries[v.rename name]? = entry' at related ⊢
  cases related with
  | none => rfl
  | some entry => exact congrArg some entry.symbol

/-- Inputs that give the names that occur the same images correspond. -/
theorem varies_ofInputs {inputs inputs' : List InputImage} (same : ∀ name, v.Occurs name →
      InputImage.assigned inputs' (v.rename name) = InputImage.assigned inputs name) :
    (ofInputs inputs).Varies v (ofInputs inputs') := by
  intro name occurs
  rw [entries_ofInputs, entries_ofInputs, same name occurs]
  cases InputImage.assigned inputs name with
  | none => exact .none
  | some handle => exact .some ⟨rfl, .none⟩

/-- A name is bound in both scopes or in none. -/
theorem Varies.define (lawful : v.Lawful) (varies : scope.Varies v other)
    (occurs : v.Occurs name) (symbol : Symbol) {span span' : Span} (moves : v.Moves span span') :
    (∃ defined defined', scope.define name symbol span = .ok defined ∧
        other.define (v.rename name) symbol span' = .ok defined' ∧ defined.Varies v defined') ∨
      (∃ conflict conflict', scope.define name symbol span = .error conflict ∧
        other.define (v.rename name) symbol span' = .error conflict' ∧
        conflict.Varies v conflict') := by
  have related := varies name occurs
  unfold Scope.define
  generalize scope.entries[name]? = entry, other.entries[v.rename name]? = entry' at related ⊢
  cases related with
  | @some entry entry' same =>
    obtain ⟨known, place⟩ := entry
    obtain ⟨known', place'⟩ := entry'
    obtain ⟨-, places⟩ := same
    cases places with
    | none => exact .inr ⟨_, _, rfl, rfl, .input⟩
    | some moved => exact .inr ⟨_, _, rfl, rfl, .binding moved⟩
  | none => exact .inl ⟨_, _, rfl, rfl, lawful.insert varies occurs ⟨rfl, .some moves⟩⟩

/-- Scopes in which the same names have a meaning list the same names. -/
theorem Varies.names (varies : scope.Varies v other) (all : ∀ name, v.Occurs name)
    (kept : v.rename = id) : other.names = scope.names := by
  have listed : ∀ name, name ∈ other.names ↔ name ∈ scope.names := by
    intro name
    have related := varies name (all name)
    rw [kept, id_eq] at related
    unfold Scope.names
    rw [Std.TreeMap.mem_keys, Std.TreeMap.mem_keys, Std.TreeMap.mem_iff_isSome_getElem?,
      Std.TreeMap.mem_iff_isSome_getElem?]
    generalize scope.entries[name]? = entry, other.entries[name]? = entry' at related ⊢
    cases related <;> rfl
  have asymmetric : ∀ a b : String, compare a b = .lt → ¬compare b a = .lt := by
    intro a b less
    have swapped : compare b a = (compare a b).swap := Std.OrientedCmp.eq_swap
    rw [swapped, less]
    exact nofun
  -- both lists are in increasing order, so they are equal once they hold the same names
  have reordered : other.names.Perm scope.names :=
    (List.perm_ext_iff_of_nodup Std.TreeMap.nodup_keys Std.TreeMap.nodup_keys).mpr listed
  exact reordered.eq_of_pairwise
    (fun a b _ _ less greater => absurd greater (asymmetric a b less))
    Std.TreeMap.ordered_keys Std.TreeMap.ordered_keys

end Scope

/-! ## Values -/

namespace Resolution

variable {r other : Resolution}

/-- Two walks found the same and have come equally far. -/
structure InStep {α : Type} (v : Variation) (found found' : α × Resolution) : Prop where
  /-- What was found is the same. -/
  same : found'.1 = found.1
  /-- The resolutions correspond. -/
  after : found.2.Varies v found'.2

theorem InStep.parts {α : Type} {found found' : α}
    (inStep : InStep v (found, r) (found', other)) : found' = found ∧ r.Varies v other :=
  ⟨inStep.same, inStep.after⟩

namespace Varies

/-- As many steps were added in both. -/
theorem nextIndex (varies : r.Varies v other) : other.nextIndex = r.nextIndex := by
  have sizes := varies.plan.bindings.length_eq
  rw [Array.length_toList, Array.length_toList] at sizes
  rw [Resolution.nextIndex, Resolution.nextIndex, sizes]

theorem report (varies : r.Varies v other) {finding finding' : Finding}
    (rewords : v.Rewords finding finding') :
    (r.report finding).Varies v (other.report finding') where
  scope := varies.scope
  plan := varies.plan
  findings := by
    simp only [Resolution.report, Array.toList_push]
    exact List.rel_append varies.findings (.cons rewords .nil)
  declared := varies.declared
  exported := varies.exported

theorem addBinding (varies : r.Varies v other) {step step' : Binding}
    (same : step.Varies v step') : (r.addBinding step).Varies v (other.addBinding step') where
  scope := varies.scope
  plan := by
    refine ⟨?_, varies.plan.channels, varies.plan.textures⟩
    simp only [Resolution.addBinding, Array.toList_push]
    exact List.rel_append varies.plan.bindings (.cons same .nil)
  findings := varies.findings
  declared := varies.declared
  exported := varies.exported

theorem resolveName (lawful : v.Lawful) (varies : r.Varies v other) {text : String}
    {span span' : Span} (occurs : v.Occurs text) (moves : v.Moves span span') :
    InStep v (r.resolveName text span) (other.resolveName (v.rename text) span') := by
  unfold Resolution.resolveName
  rw [varies.scope.lookup occurs]
  cases r.scope.lookup text with
  | none => exact ⟨rfl, varies.report (lawful.unresolved _ _ _ _ _ varies.scope occurs moves)⟩
  | some symbol => cases symbol <;> exact ⟨rfl, varies⟩

/-- Arguments that vary and were resolved to the same are checked in step. -/
theorem checkArguments (lawful : v.Lawful) (varies : r.Varies v other) (op : Operation)
    {args args' : List (Expr × Option Typed)}
    (alike : List.Forall₂ (fun arg arg' => arg.1.Varies v arg'.1 ∧ arg'.2 = arg.2) args args')
    (params : List Parameter) :
    InStep v (Resolution.checkArguments op r args params)
      (Resolution.checkArguments op other args' params) := by
  induction alike generalizing r other params with
  | nil => exact ⟨rfl, varies⟩
  | @cons arg arg' args args' same _ ih =>
    obtain ⟨arg, lowered⟩ := arg
    obtain ⟨arg', lowered'⟩ := arg'
    obtain ⟨argVaries, rfl⟩ := same
    cases params with
    | nil => exact ⟨rfl, varies⟩
    | cons param params =>
      unfold Resolution.checkArguments
      cases lowered' with
      | none =>
        obtain ⟨-, after⟩ := ih varies params
        exact ⟨rfl, after⟩
      | some typed =>
        obtain ⟨operand, kind⟩ := typed
        by_cases right : kind = param.kind
        · obtain ⟨same, after⟩ := ih varies params
          simp only [right, ↓reduceIte]
          exact ⟨by rw [same], after⟩
        · obtain ⟨-, after⟩ := ih (varies.report
            (lawful.moved (argumentKindFinding op param kind arg.span) _ argVaries.span)) params
          simp only [right, ↓reduceIte]
          exact ⟨rfl, after⟩

theorem resolveCall (lawful : v.Lawful) (varies : r.Varies v other) {callee callee' : Name}
    (named : callee.Moves v callee') {args args' : List (Expr × Option Typed)}
    (alike : List.Forall₂ (fun arg arg' => arg.1.Varies v arg'.1 ∧ arg'.2 = arg.2) args args')
    {span span' : Span} (moves : v.Moves span span') :
    InStep v (r.resolveCall callee args span) (other.resolveCall callee' args' span') := by
  unfold Resolution.resolveCall
  rw [named.text]
  cases Operation.ofName? callee.text with
  | none =>
    have moved : unknownFunctionFinding callee' =
        { unknownFunctionFinding callee with span := callee'.span } := by
      rw [unknownFunctionFinding, unknownFunctionFinding, named.text]
    exact ⟨rfl, varies.report (moved ▸ lawful.moved _ _ named.span)⟩
  | some op =>
    simp only [← alike.length_eq]
    by_cases right : args.length = op.arity
    · obtain ⟨same, after⟩ := varies.checkArguments lawful op alike op.params
      simp only [right, ↓reduceIte]
      exact ⟨by rw [same], after⟩
    · simp only [right, ↓reduceIte]
      exact ⟨rfl, varies.report (lawful.moved (arityFinding op args.length span) _ moves)⟩

end Varies

mutual

/-- A value and a varied one become the same operand. -/
theorem resolveOperand_inStep (lawful : v.Lawful) {r other : Resolution}
    (varies : r.Varies v other) {e e' : Expr} (alike : e.Varies v e') :
    InStep v (r.resolveOperand e) (other.resolveOperand e') := by
  cases e with
  | number value span =>
    cases alike
    simp only [resolveOperand]
    exact ⟨rfl, varies⟩
  | name text span =>
    cases alike with
    | name occurs moves =>
      simp only [resolveOperand]
      exact varies.resolveName lawful occurs moves
  | call callee args span =>
    cases alike with
    | @call _ callee' _ args' _ span' named each moves =>
      obtain ⟨operands, after⟩ := resolveOperands_inStep lawful varies each
      have called := after.resolveCall lawful named operands moves
      simp only [resolveOperand]
      generalize (r.resolveOperands args).2.resolveCall callee (r.resolveOperands args).1 span =
        found, (other.resolveOperands args').2.resolveCall callee' (other.resolveOperands args').1
        span' = found' at called
      obtain ⟨value, s⟩ := found
      obtain ⟨value', s'⟩ := found'
      obtain ⟨rfl, after⟩ := called.parts
      cases value' with
      | none => exact ⟨rfl, after⟩
      | some value =>
        simp only [after.nextIndex]
        exact ⟨rfl, after.addBinding ⟨rfl, rfl, rfl⟩⟩

/-- Values and varied ones become the same operands, each beside its value. -/
theorem resolveOperands_inStep (lawful : v.Lawful) {r other : Resolution}
    (varies : r.Varies v other) {args args' : List Expr}
    (each : List.Forall₂ (Expr.Varies v) args args') :
    List.Forall₂ (fun arg arg' => arg.1.Varies v arg'.1 ∧ arg'.2 = arg.2)
        (r.resolveOperands args).1 (other.resolveOperands args').1 ∧
      (r.resolveOperands args).2.Varies v (other.resolveOperands args').2 := by
  cases args with
  | nil =>
    cases each
    simp only [resolveOperands]
    exact ⟨.nil, varies⟩
  | cons arg args =>
    cases each with
    | cons alike others =>
      obtain ⟨same, after⟩ := resolveOperand_inStep lawful varies alike
      obtain ⟨later, final⟩ := resolveOperands_inStep lawful after others
      simp only [resolveOperands]
      exact ⟨.cons ⟨alike, same⟩ later, final⟩

end

namespace Varies

theorem resolveValue (lawful : v.Lawful) (varies : r.Varies v other) {e e' : Expr}
    (alike : e.Varies v e') : InStep v (r.resolveValue e) (other.resolveValue e') := by
  cases alike with
  | call named each moves =>
    obtain ⟨operands, after⟩ := resolveOperands_inStep lawful varies each
    obtain ⟨same, called⟩ := after.resolveCall lawful named operands moves
    simp only [Resolution.resolveValue]
    exact ⟨by rw [same], called⟩
  | number moves =>
    obtain ⟨same, after⟩ := resolveOperand_inStep lawful varies (.number moves)
    simp only [Resolution.resolveValue]
    exact ⟨by rw [same], after⟩
  | name occurs moves =>
    obtain ⟨same, after⟩ := resolveOperand_inStep lawful varies (.name occurs moves)
    simp only [Resolution.resolveValue]
    exact ⟨by rw [same], after⟩

theorem resolveOutput (lawful : v.Lawful) (varies : r.Varies v other) {e e' : Expr}
    (alike : e.Varies v e') : InStep v (r.resolveOutput e) (other.resolveOutput e') := by
  have resolved := resolveOperand_inStep lawful varies alike
  unfold Resolution.resolveOutput
  generalize r.resolveOperand e = found, other.resolveOperand e' = found' at resolved
  obtain ⟨found, s⟩ := found
  obtain ⟨found', s'⟩ := found'
  obtain ⟨rfl, after⟩ := resolved.parts
  rcases found' with _ | ⟨operand, _ | _⟩
  · exact ⟨rfl, after⟩
  · exact ⟨rfl, after⟩
  · exact ⟨rfl, after.report (lawful.moved (notAnImageFinding e.span) _ alike.span)⟩

/-! ## Statements -/

theorem resolveBinding (lawful : v.Lawful) (varies : r.Varies v other) {target target' : Name}
    (named : target.Varies v target') {value value' : Expr} (alike : value.Varies v value')
    (span span' : Span) :
    (r.resolveBinding target value span).Varies v
      (other.resolveBinding target' value' span') := by
  obtain ⟨same, after⟩ := varies.resolveValue lawful alike
  obtain ⟨symbol, met, added, defined⟩ := r.resolveBinding_cases target value span
  obtain ⟨symbol', met', added', defined'⟩ := other.resolveBinding_cases target' value' span'
  obtain ⟨rfl, met⟩ : symbol' = symbol ∧ met.Varies v met' := by
    rw [same] at added'
    rcases added with ⟨result, kind, found, rfl, rfl⟩ | ⟨none, rfl, rfl⟩
    · rw [found] at added'
      rcases added' with ⟨_, _, ⟨⟩, rfl, rfl⟩ | ⟨⟨⟩, -, -⟩
      exact ⟨by rw [after.nextIndex], after.addBinding ⟨congrArg some named.text, rfl, rfl⟩⟩
    · rw [none] at added'
      rcases added' with ⟨_, _, ⟨⟩, -, -⟩ | ⟨-, rfl, rfl⟩
      exact ⟨rfl, after⟩
  rw [named.text] at defined'
  rcases met.scope.define lawful named.occurs symbol' named.span with
    ⟨scope, scope', ok, ok', scopes⟩ | ⟨conflict, conflict', failed, failed', conflicts⟩
  · rw [ok] at defined
    rw [ok'] at defined'
    rcases defined with ⟨_, ⟨⟩, bound⟩ | ⟨_, ⟨⟩, -⟩
    rcases defined' with ⟨_, ⟨⟩, bound'⟩ | ⟨_, ⟨⟩, -⟩
    rw [bound, bound']
    exact ⟨scopes, met.plan, met.findings, met.declared, met.exported⟩
  · rw [failed] at defined
    rw [failed'] at defined'
    rcases defined with ⟨_, ⟨⟩, -⟩ | ⟨_, ⟨⟩, refused⟩
    rcases defined' with ⟨_, ⟨⟩, -⟩ | ⟨_, ⟨⟩, refused'⟩
    rw [refused, refused']
    exact met.report (lawful.conflict _ _ _ _ named conflicts)

theorem checkMaterial (lawful : v.Lawful) (varies : r.Varies v other)
    {channel channel' materialType materialType' : Name} (named : channel.Moves v channel')
    (typed : materialType.Moves v materialType') :
    (r.checkMaterial channel materialType).Varies v
      (other.checkMaterial channel' materialType') := by
  unfold Resolution.checkMaterial materialFinding?
  simp only [named.text, typed.text]
  by_cases unknown : (!(MaterialType.ofTag materialType.text).isKnown) = true
  · simp only [unknown, ↓reduceIte]
    exact varies.report (lawful.moved _ _ typed.span)
  · by_cases unlisted : (!(MaterialType.ofTag materialType.text).hasChannel channel.text) = true
    · simp only [unknown, unlisted, ↓reduceIte]
      exact varies.report (lawful.moved _ _ named.span)
    · simp only [unknown, unlisted]
      exact varies

theorem resolveChannel (lawful : v.Lawful) (varies : r.Varies v other)
    {material material' channel channel' materialType materialType' : Name}
    (ofMaterial : material.Moves v material') (named : channel.Moves v channel')
    (typed : materialType.Moves v materialType') {value value' : Expr}
    (alike : value.Varies v value') {span span' : Span} (moves : v.Moves span span') :
    (r.resolveChannel material channel materialType value span).Varies v
      (other.resolveChannel material' channel' materialType' value' span') := by
  have resolved := (varies.checkMaterial lawful named typed).resolveOutput lawful alike
  obtain ⟨source, after, output, outcome⟩ :=
    r.resolveChannel_cases material channel materialType value span
  obtain ⟨source', after', output', outcome'⟩ :=
    other.resolveChannel_cases material' channel' materialType' value' span'
  rw [output, output'] at resolved
  obtain ⟨rfl, met⟩ := resolved.parts
  simp only [ofMaterial.text, named.text, typed.text] at outcome'
  have declared := met.declared (material.text, channel.text)
  rcases outcome with ⟨first, again, found⟩ | ⟨fresh, found⟩
  · rw [again] at declared
    rcases outcome' with ⟨first', again', found'⟩ | ⟨fresh', found'⟩
    · rw [again'] at declared
      cases declared with
      | some moved =>
        rw [found, found']
        exact met.report (lawful.channel _ _ _ _ _ _ moved moves)
    · rw [fresh'] at declared
      cases declared
  · rw [fresh] at declared
    rcases outcome' with ⟨first', again', found'⟩ | ⟨fresh', found'⟩
    · rw [again'] at declared
      cases declared
    · rw [found, found']
      refine ⟨met.scope, ⟨met.plan.bindings, by simp only [met.plan.channels], met.plan.textures⟩,
        met.findings, ?_, met.exported⟩
      intro key
      simp only [Std.TreeMap.getElem?_insert]
      split
      · exact .some moves
      · exact met.declared key

theorem resolveExport (lawful : v.Lawful) (varies : r.Varies v other) {name name' : Name}
    (named : name.Varies v name') :
    (r.resolveExport name).Varies v (other.resolveExport name') := by
  have exported := varies.exported name.text named.occurs
  rcases r.resolveExport_cases name with
    ⟨first, again, found⟩ | ⟨fresh, source, after, output, found⟩
  · rw [again] at exported
    rcases other.resolveExport_cases name' with
      ⟨first', again', found'⟩ | ⟨fresh', _, _, _, _⟩
    · rw [named.text] at again'
      rw [again'] at exported
      cases exported with
      | some moved =>
        rw [found, found']
        exact varies.report (lawful.texture _ _ _ _ named moved)
    · rw [named.text] at fresh'
      rw [fresh'] at exported
      cases exported
  · rw [fresh] at exported
    rcases other.resolveExport_cases name' with
      ⟨first', again', _⟩ | ⟨fresh', source', after', output', found'⟩
    · rw [named.text] at again'
      rw [again'] at exported
      cases exported
    · have declared : Varies v { r with textures := r.textures.insert name.text name.span }
          { other with textures := other.textures.insert name'.text name'.span } := by
        rw [named.text]
        exact ⟨varies.scope, varies.plan, varies.findings, varies.declared,
          lawful.insert varies.exported named.occurs named.span⟩
      have value : (Expr.name name.text name.span).Varies v (.name name'.text name'.span) :=
        named.text ▸ .name named.occurs named.span
      have resolved := declared.resolveOutput lawful value
      rw [output, output'] at resolved
      obtain ⟨rfl, met⟩ := resolved.parts
      rw [found, found']
      refine ⟨met.scope, ⟨met.plan.bindings, met.plan.channels, ?_⟩, met.findings, met.declared,
        met.exported⟩
      simp only [met.plan.textures, Array.map_append, Array.map_map, named.text]
      rfl

theorem resolveStatement (lawful : v.Lawful) (varies : r.Varies v other)
    {statement statement' : Statement} (alike : statement.Varies v statement') :
    (r.resolveStatement statement).Varies v (other.resolveStatement statement') := by
  cases alike with
  | bind named alike => exact varies.resolveBinding lawful named alike _ _
  | channel ofMaterial named typed alike moves =>
    exact varies.resolveChannel lawful ofMaterial named typed alike moves
  | exports each =>
    exact List.rel_foldl (fun _ _ varies _ _ named => varies.resolveExport lawful named) varies each

end Varies

end Resolution

/-- Scripts that differ as a variation allows are resolved in step. -/
theorem Script.resolve_varies (lawful : v.Lawful) {script script' : Script}
    (alike : List.Forall₂ (Statement.Varies v) script.statements script'.statements)
    {inputs inputs' : List InputImage}
    (given : (Scope.ofInputs inputs).Varies v (Scope.ofInputs inputs')) :
    (script.resolve inputs).Varies v (script'.resolve inputs') := by
  have start : Resolution.Varies v { scope := .ofInputs inputs } { scope := .ofInputs inputs' } :=
    ⟨given, ⟨.nil, rfl, by simp⟩, .nil, by simp, by simp⟩
  exact List.rel_foldl (fun _ _ varies _ _ same => varies.resolveStatement lawful same) start alike

end TextureScript
