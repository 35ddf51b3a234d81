import Std.Data.TreeMap.Lemmas
import TextureScript.Plan.Resolver
import TextureScript.Proofs.Lists

/-!
# How a resolution grows

Resolving a value can add steps to the plan and problems to the findings, in that order of the walk,
and touches nothing else. Resolving a statement adds to the plan and the findings as well, and never
takes anything back. A channel or a texture gets into the plan only when its key is declared for the
first time, so the outputs of a plan have distinct keys.
-/

namespace TextureScript

namespace Resolution

/-- A resolution extends another when it has more steps and more findings at most. -/
structure Extends (before after : Resolution) : Prop where
  /-- Names keep their meaning. -/
  scope : after.scope = before.scope
  /-- No channel is declared. -/
  channels : after.channels = before.channels
  /-- No texture is exported. -/
  textures : after.textures = before.textures
  /-- The channels of the plan stay. -/
  planChannels : after.plan.channels = before.plan.channels
  /-- The textures of the plan stay. -/
  planTextures : after.plan.textures = before.plan.textures
  /-- Steps are added at the end. -/
  bindings : before.plan.bindings.toList <+: after.plan.bindings.toList
  /-- Findings are added at the end. -/
  findings : before.findings.toList <+: after.findings.toList

namespace Extends

theorem refl (r : Resolution) : r.Extends r :=
  ⟨rfl, rfl, rfl, rfl, rfl, List.prefix_refl _, List.prefix_refl _⟩

theorem trans {first second third : Resolution} (earlier : first.Extends second)
    (later : second.Extends third) : first.Extends third where
  scope := later.scope.trans earlier.scope
  channels := later.channels.trans earlier.channels
  textures := later.textures.trans earlier.textures
  planChannels := later.planChannels.trans earlier.planChannels
  planTextures := later.planTextures.trans earlier.planTextures
  bindings := earlier.bindings.trans later.bindings
  findings := earlier.findings.trans later.findings

end Extends

/-! ## Values -/

theorem report_extends (r : Resolution) (finding : Finding) : r.Extends (r.report finding) where
  scope := rfl
  channels := rfl
  textures := rfl
  planChannels := rfl
  planTextures := rfl
  bindings := List.prefix_refl _
  findings := by simp [report]

theorem addBinding_extends (r : Resolution) (binding : Binding) :
    r.Extends (r.addBinding binding) where
  scope := rfl
  channels := rfl
  textures := rfl
  planChannels := rfl
  planTextures := rfl
  bindings := by simp [addBinding]
  findings := List.prefix_refl _

theorem resolveName_extends (r : Resolution) (name : String) (span : Span) :
    r.Extends (r.resolveName name span).2 := by
  unfold resolveName
  split
  · exact .refl r
  · exact .refl r
  · exact .refl r
  · exact r.report_extends _

/-- Checking arguments adds findings at most. -/
theorem checkArguments_extends (op : Operation) (args : List (Expr × Option Typed))
    (params : List Parameter) (r : Resolution) :
    r.Extends (checkArguments op r args params).2 := by
  induction args generalizing r params with
  | nil => exact .refl r
  | cons arg args ih =>
    obtain ⟨arg, lowered⟩ := arg
    cases params with
    | nil => exact .refl r
    | cons param params =>
      unfold checkArguments
      cases lowered with
      | none => exact ih params r
      | some typed =>
        obtain ⟨operand, kind⟩ := typed
        by_cases same : kind = param.kind
        · simp only [same, ↓reduceIte]
          exact ih params r
        · simp only [same, ↓reduceIte]
          exact (r.report_extends _).trans (ih params _)

theorem resolveCall_extends (r : Resolution) (callee : Name) (args : List (Expr × Option Typed))
    (span : Span) : r.Extends (r.resolveCall callee args span).2 := by
  unfold resolveCall
  split
  · exact r.report_extends _
  · split
    · exact checkArguments_extends _ args _ r
    · exact r.report_extends _

mutual

/-- Resolving a value adds steps and findings at most. -/
theorem resolveOperand_extends (r : Resolution) :
    (e : Expr) → r.Extends (r.resolveOperand e).2
  | .number value span => by
    simp only [resolveOperand]
    exact .refl r
  | .name text span => by
    simp only [resolveOperand]
    exact r.resolveName_extends text span
  | .call callee args span => by
    have resolved := (resolveOperands_extends r args).trans
      ((r.resolveOperands args).2.resolveCall_extends callee (r.resolveOperands args).1 span)
    simp only [resolveOperand]
    split
    · rename_i called
      rw [called] at resolved
      exact resolved.trans (addBinding_extends _ _)
    · rename_i called
      rw [called] at resolved
      exact resolved

/-- Resolving values adds steps and findings at most. -/
theorem resolveOperands_extends (r : Resolution) :
    (args : List Expr) → r.Extends (r.resolveOperands args).2
  | [] => by
    simp only [resolveOperands]
    exact .refl r
  | arg :: args => by
    simp only [resolveOperands]
    exact (resolveOperand_extends r arg).trans (resolveOperands_extends _ args)

end

/-- Resolving the value of a binding adds steps and findings at most. -/
theorem resolveValue_extends (r : Resolution) (e : Expr) : r.Extends (r.resolveValue e).2 := by
  cases e with
  | call callee args span =>
    exact (r.resolveOperands_extends args).trans (resolveCall_extends _ callee _ span)
  | number value span =>
    simp only [resolveValue]
    exact r.resolveOperand_extends _
  | name text span =>
    simp only [resolveValue]
    exact r.resolveOperand_extends _

/-- Resolving an output adds steps and findings at most. -/
theorem resolveOutput_extends (r : Resolution) (e : Expr) : r.Extends (r.resolveOutput e).2 := by
  have resolved := r.resolveOperand_extends e
  unfold resolveOutput
  split
  all_goals
    rename_i found
    rw [found] at resolved
  · exact resolved
  · exact resolved.trans (report_extends _ _)
  · exact resolved

/-- The resolution in which the value of a channel is resolved: the material type is checked
first. -/
def checkMaterial (r : Resolution) (channel materialType : Name) : Resolution :=
  match materialFinding? channel materialType with
  | some finding => r.report finding
  | none => r

theorem checkMaterial_extends (r : Resolution) (channel materialType : Name) :
    r.Extends (r.checkMaterial channel materialType) := by
  unfold checkMaterial
  split
  · exact r.report_extends _
  · exact .refl r

/-! ## Statements

What a statement leaves behind, case by case. -/

/-- A binding takes its name, or its name is already taken, which is an error. The name gets the
number of the step that was added, or is poisoned without one. -/
theorem resolveBinding_cases (r : Resolution) (target : Name) (value : Expr) (span : Span) :
    ∃ (symbol : Symbol) (after : Resolution),
      ((∃ result kind, (r.resolveValue value).1 = some (result, kind) ∧
          symbol = .bound (r.resolveValue value).2.nextIndex kind ∧
          after = (r.resolveValue value).2.addBinding ⟨some target.text, kind, result, span⟩) ∨
        ((r.resolveValue value).1 = none ∧ symbol = .poisoned ∧
          after = (r.resolveValue value).2)) ∧
      ((∃ scope, after.scope.define target.text symbol target.span = .ok scope ∧
          r.resolveBinding target value span = { after with scope }) ∨
        (∃ conflict, after.scope.define target.text symbol target.span = .error conflict ∧
          r.resolveBinding target value span =
            after.report (conflictFinding target conflict))) := by
  unfold resolveBinding
  rcases resolved : r.resolveValue value with ⟨_ | ⟨result, kind⟩, after⟩
  · refine ⟨.poisoned, after, .inr ⟨rfl, rfl, rfl⟩, ?_⟩
    simp only
    split
    · exact .inl ⟨_, ‹_›, rfl⟩
    · exact .inr ⟨_, ‹_›, rfl⟩
  · refine ⟨_, _, .inl ⟨result, kind, rfl, rfl, rfl⟩, ?_⟩
    simp only
    split
    · exact .inl ⟨_, ‹_›, rfl⟩
    · exact .inr ⟨_, ‹_›, rfl⟩

/-- A channel is declared for the first time, with or without a value, or declared again, which is
an error. -/
theorem resolveChannel_cases (r : Resolution) (material channel materialType : Name) (value : Expr)
    (span : Span) :
    ∃ (source : Option Operand) (after : Resolution),
      (r.checkMaterial channel materialType).resolveOutput value = (source, after) ∧
      ((∃ first, after.channels[(material.text, channel.text)]? = some first ∧
          r.resolveChannel material channel materialType value span =
            after.report (duplicateChannelFinding material.text channel.text first span)) ∨
        (after.channels[(material.text, channel.text)]? = none ∧
          r.resolveChannel material channel materialType value span =
            { after with
              channels := after.channels.insert (material.text, channel.text) span
              plan.channels := after.plan.channels ++ (source.toArray.map fun source =>
                ⟨material.text, channel.text, .ofTag materialType.text, source⟩) })) := by
  rcases resolved : (r.checkMaterial channel materialType).resolveOutput value with ⟨source, after⟩
  refine ⟨source, after, rfl, ?_⟩
  unfold checkMaterial at resolved
  unfold resolveChannel
  cases declared : after.channels[(material.text, channel.text)]? with
  | some first =>
    refine .inl ⟨first, rfl, ?_⟩
    cases finding : materialFinding? channel materialType
    all_goals
      simp only [finding] at resolved
      simp only [resolved, declared]
  | none =>
    refine .inr ⟨rfl, ?_⟩
    cases finding : materialFinding? channel materialType
    all_goals
      simp only [finding] at resolved
      simp only [resolved, declared]
      cases source <;> simp

/-- A texture is exported for the first time, with or without a value, or exported again, which is
an error. -/
theorem resolveExport_cases (r : Resolution) (name : Name) :
    (∃ first, r.textures[name.text]? = some first ∧
        r.resolveExport name = r.report (duplicateTextureFinding name first)) ∨
      (r.textures[name.text]? = none ∧ ∃ (source : Option Operand) (after : Resolution),
        resolveOutput { r with textures := r.textures.insert name.text name.span }
          (.name name.text name.span) = (source, after) ∧
        r.resolveExport name =
          { after with
            plan.textures := after.plan.textures ++ source.toArray.map (⟨name.text, ·⟩) }) := by
  unfold resolveExport
  cases exported : r.textures[name.text]? with
  | some first => exact .inl ⟨first, rfl, rfl⟩
  | none =>
    simp only [true_and]
    rcases resolved : resolveOutput { r with textures := r.textures.insert name.text name.span }
      (.name name.text name.span) with ⟨_ | source, after⟩
    · exact .inr ⟨none, after, rfl, by simp⟩
    · exact .inr ⟨some source, after, rfl, by simp⟩

/-! ## Growth -/

/-- A resolution grows into another when steps and findings are added at the end. -/
structure Grows (before after : Resolution) : Prop where
  /-- The steps stay. -/
  bindings : before.plan.bindings.toList <+: after.plan.bindings.toList
  /-- The findings stay. -/
  findings : before.findings.toList <+: after.findings.toList

namespace Grows

theorem refl (r : Resolution) : r.Grows r :=
  ⟨List.prefix_refl _, List.prefix_refl _⟩

theorem trans {first second third : Resolution} (earlier : first.Grows second)
    (later : second.Grows third) : first.Grows third :=
  ⟨earlier.bindings.trans later.bindings, earlier.findings.trans later.findings⟩

/-- A walk whose steps grow grows. -/
theorem foldl {α : Type} {step : Resolution → α → Resolution}
    (grows : ∀ (r : Resolution) (item : α), r.Grows (step r item)) (items : List α)
    (r : Resolution) : r.Grows (items.foldl step r) := by
  induction items generalizing r with
  | nil => exact .refl r
  | cons item items ih => exact (grows r item).trans (ih _)

end Grows

theorem Extends.grows {before after : Resolution} (more : before.Extends after) :
    before.Grows after :=
  ⟨more.bindings, more.findings⟩

/-- A binding keeps what its value came to. -/
theorem resolveValue_grows_resolveBinding (r : Resolution) (target : Name) (value : Expr)
    (span : Span) : (r.resolveValue value).2.Grows (r.resolveBinding target value span) := by
  obtain ⟨symbol, after, added, defined⟩ := r.resolveBinding_cases target value span
  have grown : (r.resolveValue value).2.Grows after := by
    rcases added with ⟨result, kind, _, _, rfl⟩ | ⟨_, _, rfl⟩
    · exact (addBinding_extends _ _).grows
    · exact .refl _
  rcases defined with ⟨scope, _, found⟩ | ⟨conflict, _, found⟩
  · rw [found]
    exact ⟨grown.bindings, grown.findings⟩
  · rw [found]
    exact grown.trans (report_extends _ _).grows

theorem resolveBinding_grows (r : Resolution) (target : Name) (value : Expr) (span : Span) :
    r.Grows (r.resolveBinding target value span) :=
  (r.resolveValue_extends value).grows.trans (r.resolveValue_grows_resolveBinding target value span)

/-- A channel keeps what its value came to. -/
theorem resolveOutput_grows_resolveChannel (r : Resolution) (material channel materialType : Name)
    (value : Expr) (span : Span) :
    ((r.checkMaterial channel materialType).resolveOutput value).2.Grows
      (r.resolveChannel material channel materialType value span) := by
  obtain ⟨source, after, output, ⟨first, _, found⟩ | ⟨_, found⟩⟩ :=
    r.resolveChannel_cases material channel materialType value span
  · rw [found, output]
    exact (report_extends _ _).grows
  · rw [found, output]
    exact ⟨List.prefix_refl _, List.prefix_refl _⟩

theorem resolveChannel_grows (r : Resolution) (material channel materialType : Name) (value : Expr)
    (span : Span) : r.Grows (r.resolveChannel material channel materialType value span) :=
  ((r.checkMaterial_extends channel materialType).trans (resolveOutput_extends _ value)).grows.trans
    (r.resolveOutput_grows_resolveChannel material channel materialType value span)

theorem resolveExport_grows (r : Resolution) (name : Name) : r.Grows (r.resolveExport name) := by
  rcases r.resolveExport_cases name with ⟨first, _, found⟩ | ⟨_, source, after, output, found⟩
  · rw [found]
    exact (report_extends _ _).grows
  · have resolved := (resolveOutput_extends
      { r with textures := r.textures.insert name.text name.span }
      (.name name.text name.span)).grows
    rw [output] at resolved
    rw [found]
    exact ⟨resolved.bindings, resolved.findings⟩

/-- Resolving a statement takes no step and no finding back. -/
theorem resolveStatement_grows (r : Resolution) (statement : Statement) :
    r.Grows (r.resolveStatement statement) := by
  cases statement with
  | bind target value span => exact r.resolveBinding_grows target value span
  | channel material channel materialType value span =>
    exact r.resolveChannel_grows material channel materialType value span
  | exports names span => exact .foldl resolveExport_grows names r

/-! ## Distinct outputs -/

/-- The outputs of the plan have distinct keys, all of which are declared. -/
structure OutputsDistinct (r : Resolution) : Prop where
  /-- No two channels of the plan have one material and one name. -/
  channels : (r.plan.channels.toList.map fun output => (output.material, output.channel)).Nodup
  /-- The channels of the plan are declared. -/
  declared : ∀ output ∈ r.plan.channels, (output.material, output.channel) ∈ r.channels
  /-- No two textures of the plan have one name. -/
  textures : (r.plan.textures.toList.map (·.name)).Nodup
  /-- The textures of the plan are exported. -/
  exported : ∀ output ∈ r.plan.textures, output.name ∈ r.textures

namespace OutputsDistinct

/-- Steps and findings do not touch the outputs. -/
theorem of_extends {before after : Resolution} (distinct : before.OutputsDistinct)
    (more : before.Extends after) : after.OutputsDistinct := by
  obtain ⟨_, channels, textures, planChannels, planTextures, _, _⟩ := more
  constructor
  · rw [planChannels]
    exact distinct.channels
  · rw [planChannels, channels]
    exact distinct.declared
  · rw [planTextures]
    exact distinct.textures
  · rw [planTextures, textures]
    exact distinct.exported

theorem resolveBinding {r : Resolution} (distinct : r.OutputsDistinct) (target : Name)
    (value : Expr) (span : Span) : (r.resolveBinding target value span).OutputsDistinct := by
  obtain ⟨symbol, after, added, defined⟩ := r.resolveBinding_cases target value span
  have kept : after.OutputsDistinct := by
    have resolved := distinct.of_extends (r.resolveValue_extends value)
    rcases added with ⟨result, kind, _, _, rfl⟩ | ⟨_, _, rfl⟩
    · exact resolved.of_extends (addBinding_extends _ _)
    · exact resolved
  rcases defined with ⟨scope, _, found⟩ | ⟨conflict, _, found⟩
  · rw [found]
    exact ⟨kept.channels, kept.declared, kept.textures, kept.exported⟩
  · rw [found]
    exact kept.of_extends (report_extends _ _)

theorem resolveChannel {r : Resolution} (distinct : r.OutputsDistinct)
    (material channel materialType : Name) (value : Expr) (span : Span) :
    (r.resolveChannel material channel materialType value span).OutputsDistinct := by
  obtain ⟨source, after, output, outcome⟩ :=
    r.resolveChannel_cases material channel materialType value span
  have kept : after.OutputsDistinct := by
    have resolved := (r.checkMaterial_extends channel materialType).trans
      (resolveOutput_extends _ value)
    rw [output] at resolved
    exact distinct.of_extends resolved
  rcases outcome with ⟨first, _, found⟩ | ⟨fresh, found⟩
  · rw [found]
    exact kept.of_extends (report_extends _ _)
  · rw [found]
    -- the key is new, so it differs from the keys of all channels that are in the plan
    have unlisted : (material.text, channel.text) ∉
        after.plan.channels.toList.map fun output => (output.material, output.channel) := by
      intro listed
      obtain ⟨output, member, same⟩ := List.mem_map.mp listed
      have known := kept.declared output (Array.mem_toList_iff.mp member)
      rw [same, Std.TreeMap.mem_iff_isSome_getElem?, fresh] at known
      exact absurd known (by simp)
    refine ⟨?_, ?_, kept.textures, kept.exported⟩
    · cases source with
      | none => simpa using kept.channels
      | some source =>
        simpa using nodup_concat_iff.mpr ⟨kept.channels, unlisted⟩
    · intro output member
      rw [Std.TreeMap.mem_insert]
      simp only [Array.mem_append, Array.mem_map] at member
      rcases member with old | ⟨source, _, rfl⟩
      · exact .inr (kept.declared output old)
      · exact .inl (by simp)

theorem resolveExport {r : Resolution} (distinct : r.OutputsDistinct) (name : Name) :
    (r.resolveExport name).OutputsDistinct := by
  rcases r.resolveExport_cases name with ⟨first, _, found⟩ | ⟨fresh, source, after, output, found⟩
  · rw [found]
    exact distinct.of_extends (report_extends _ _)
  · have resolved := resolveOutput_extends
      { r with textures := r.textures.insert name.text name.span } (.name name.text name.span)
    rw [output] at resolved
    rw [found]
    have unlisted : name.text ∉ after.plan.textures.toList.map (·.name) := by
      intro listed
      obtain ⟨output, member, same⟩ := List.mem_map.mp listed
      rw [resolved.planTextures] at member
      have known := distinct.exported output (Array.mem_toList_iff.mp member)
      rw [same, Std.TreeMap.mem_iff_isSome_getElem?, fresh] at known
      exact absurd known (by simp)
    refine ⟨?_, ?_, ?_, ?_⟩
    · rw [resolved.planChannels]
      exact distinct.channels
    · rw [resolved.planChannels, resolved.channels]
      exact distinct.declared
    · have old : (after.plan.textures.toList.map (·.name)).Nodup := by
        rw [resolved.planTextures]
        exact distinct.textures
      cases source with
      | none => simpa using old
      | some source =>
        simpa using nodup_concat_iff.mpr ⟨old, unlisted⟩
    · intro output member
      simp only [Array.mem_append, Array.mem_map] at member
      change output.name ∈ after.textures
      rw [resolved.textures, Std.TreeMap.mem_insert]
      rcases member with old | ⟨source, _, rfl⟩
      · rw [resolved.planTextures] at old
        exact .inr (distinct.exported output old)
      · exact .inl (by simp)

/-- A walk whose steps keep the outputs distinct keeps them distinct. -/
theorem foldl {α : Type} {step : Resolution → α → Resolution}
    (keeps : ∀ {r : Resolution}, r.OutputsDistinct → ∀ item, (step r item).OutputsDistinct)
    (items : List α) {r : Resolution} (distinct : r.OutputsDistinct) :
    (items.foldl step r).OutputsDistinct := by
  induction items generalizing r with
  | nil => exact distinct
  | cons item items ih => exact ih (keeps distinct item)

/-- Resolving a statement keeps the outputs distinct. -/
theorem resolveStatement {r : Resolution} (distinct : r.OutputsDistinct) (statement : Statement) :
    (r.resolveStatement statement).OutputsDistinct := by
  cases statement with
  | bind target value span => exact distinct.resolveBinding target value span
  | channel material channel materialType value span =>
    exact distinct.resolveChannel material channel materialType value span
  | exports names span => exact foldl resolveExport names distinct

end OutputsDistinct

end Resolution

/-- The outputs of a resolved script have distinct keys. -/
theorem Script.resolve_outputsDistinct (script : Script) (inputs : List InputImage) :
    (script.resolve inputs).OutputsDistinct := by
  apply Resolution.OutputsDistinct.foldl Resolution.OutputsDistinct.resolveStatement
  constructor
  · exact List.nodup_nil
  · simp
  · exact List.nodup_nil
  · simp

end TextureScript
