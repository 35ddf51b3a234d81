import TextureScript.Compiler
import TextureScript.Proofs.Assembly.Acceptance
import TextureScript.Proofs.Plan.Resolution
import TextureScript.Proofs.Scope

/-!
# Plans are in single assignment form

A step of a plan is computed once and refers only to steps before it. Resolving keeps this up
whatever it finds on its way: a step is checked against the steps that are there when it is added,
and what is added later does not change their kinds. So the plan of a script with errors is well
formed too.
-/

namespace TextureScript

/-! ## Kinds -/

/-- The kind of an operand among some steps, if the step it refers to is there. -/
def Operand.kind? (steps : List Binding) : Operand → Option Kind
  | .input _ => some .image
  | .number _ => some .number
  | .result index => steps[index.toNat]?.map (·.kind)

/-- The kind of a value among some steps. -/
def Value.kind? (steps : List Binding) : Value → Option Kind
  | .call _ _ => some .image
  | .copy operand => operand.kind? steps

/-- The operands of a value. -/
def Value.operands : Value → List Operand
  | .call _ args => args
  | .copy operand => [operand]

/-- A plan in single assignment form, with the right kind of value everywhere. -/
structure Plan.WellFormed (plan : Plan) : Prop where
  /-- A step refers only to steps before it. -/
  earlier : ∀ (number : Nat) (step : Binding), plan.bindings[number]? = some step →
    ∀ index, .result index ∈ step.value.operands → index.toNat < number
  /-- A call has as many arguments as its operation has parameters. -/
  arity : ∀ step ∈ plan.bindings, ∀ operation args, step.value = .call operation args →
    args.length = operation.arity
  /-- The arguments of a call have the kinds of the parameters. -/
  arguments : ∀ step ∈ plan.bindings, ∀ operation args, step.value = .call operation args →
    args.map (Operand.kind? plan.bindings.toList) = operation.params.map (some ·.kind)
  /-- A step has the kind of its value. -/
  kinds : ∀ step ∈ plan.bindings, step.value.kind? plan.bindings.toList = some step.kind
  /-- A channel is fed with an image. -/
  channelKinds : ∀ output ∈ plan.channels,
    output.source.kind? plan.bindings.toList = some .image
  /-- A channel is fed by a step that is there, if by a step at all. -/
  channelSources : ∀ output ∈ plan.channels, output.source.WellFormed plan.bindings.size
  /-- A texture is an image. -/
  textureKinds : ∀ output ∈ plan.textures,
    output.source.kind? plan.bindings.toList = some .image
  /-- A texture comes from a step that is there, if from a step at all. -/
  textureSources : ∀ output ∈ plan.textures, output.source.WellFormed plan.bindings.size
  /-- No two channels have one material and one name. -/
  channels : (plan.channels.toList.map fun output => (output.material, output.channel)).Nodup
  /-- No two textures have one name. -/
  textures : (plan.textures.toList.map (·.name)).Nodup

/-- Further steps do not change the kind of an operand. -/
theorem Operand.kind?_of_prefix {steps more : List Binding} {operand : Operand} {kind : Kind}
    (found : operand.kind? steps = some kind) (extended : steps <+: more) :
    operand.kind? more = some kind := by
  cases operand with
  | input | number => exact found
  | result index =>
    obtain ⟨rest, rfl⟩ := extended
    obtain ⟨step, isStep, isKind⟩ := Option.map_eq_some_iff.mp found
    have inside := (List.getElem?_eq_some_iff.mp isStep).1
    rw [kind?, List.getElem?_append_left inside, isStep]
    exact congrArg some isKind

/-- An operand with a kind refers to a step that is there. -/
theorem Operand.wellFormed_of_kind? {steps : List Binding} {operand : Operand} {kind : Kind}
    (found : operand.kind? steps = some kind) : operand.WellFormed steps.length := by
  cases operand with
  | input | number => trivial
  | result index =>
    obtain ⟨step, isStep, -⟩ := Option.map_eq_some_iff.mp found
    exact (List.getElem?_eq_some_iff.mp isStep).1

/-- A value is made of some steps when it has a kind among them, and so have its arguments. -/
def Value.Checks (steps : List Binding) (kind : Kind) : Value → Prop
  | .call operation args =>
    kind = .image ∧ args.map (Operand.kind? steps) = operation.params.map (some ·.kind)
  | .copy operand => operand.kind? steps = some kind

theorem Value.Checks.kind? {steps : List Binding} {kind : Kind} {value : Value}
    (checks : value.Checks steps kind) : value.kind? steps = some kind := by
  cases value with
  | call operation args => exact congrArg some checks.1.symm
  | copy operand => exact checks

theorem Value.Checks.mono {steps more : List Binding} {kind : Kind} {value : Value}
    (checks : value.Checks steps kind) (extended : steps <+: more) : value.Checks more kind := by
  cases value with
  | copy operand => exact Operand.kind?_of_prefix checks extended
  | call operation args =>
    refine ⟨checks.1, ?_⟩
    rw [← checks.2]
    apply List.map_congr_left
    intro arg member
    have found : arg.kind? steps ∈ operation.params.map (some ·.kind) :=
      checks.2 ▸ List.mem_map_of_mem member
    obtain ⟨param, -, isKind⟩ := List.mem_map.mp found
    rw [← isKind]
    exact Operand.kind?_of_prefix isKind.symm extended

/-- The operands of a value that is made of some steps refer to these. -/
theorem Value.Checks.wellFormed {steps : List Binding} {kind : Kind} {value : Value}
    (checks : value.Checks steps kind) {operand : Operand} (member : operand ∈ value.operands) :
    operand.WellFormed steps.length := by
  cases value with
  | copy other =>
    rw [List.mem_singleton.mp member]
    exact Operand.wellFormed_of_kind? checks
  | call operation args =>
    have found : operand.kind? steps ∈ operation.params.map (some ·.kind) :=
      checks.2 ▸ List.mem_map_of_mem member
    obtain ⟨param, -, isKind⟩ := List.mem_map.mp found
    exact Operand.wellFormed_of_kind? isKind.symm

/-! ## The invariant -/

namespace Resolution

/-- What a resolution has collected is well formed at every point of the walk. -/
structure Sound (r : Resolution) : Prop where
  /-- A step is made of the steps before it. -/
  steps : ∀ earlier step later, r.plan.bindings.toList = earlier ++ step :: later →
    step.value.Checks earlier step.kind
  /-- A name with a value stands for an operand of its kind. -/
  names : ∀ name symbol operand kind, r.scope.lookup name = some symbol →
    symbol.operand? = some (operand, kind) → operand.kind? r.plan.bindings.toList = some kind
  /-- Channels are fed with images. -/
  channels : ∀ output ∈ r.plan.channels, output.source.kind? r.plan.bindings.toList = some .image
  /-- Textures are images. -/
  textures : ∀ output ∈ r.plan.textures, output.source.kind? r.plan.bindings.toList = some .image

/-- A resolution can number its steps. -/
def Numbered (r : Resolution) : Prop :=
  r.plan.bindings.size < UInt32.size

theorem Numbered.of_grows {before after : Resolution} (numbered : after.Numbered)
    (grown : before.Grows after) : before.Numbered := by
  have le := grown.bindings.length_le
  rw [Array.length_toList, Array.length_toList] at le
  exact Nat.lt_of_le_of_lt le numbered

namespace Sound

/-- Findings do not matter. -/
theorem withFindings {r : Resolution} (sound : r.Sound) (findings : Array Finding) :
    Sound { r with findings } :=
  ⟨sound.steps, sound.names, sound.channels, sound.textures⟩

/-- A step that is made of the others can be added. -/
theorem addBinding {r : Resolution} (sound : r.Sound) {binding : Binding}
    (checks : binding.value.Checks r.plan.bindings.toList binding.kind) :
    (r.addBinding binding).Sound := by
  have extended := (r.addBinding_extends binding).bindings
  constructor
  · intro earlier step later split
    rw [Resolution.addBinding, Array.toList_push] at split
    rcases concat_eq_append_cons_iff.mp split with ⟨rfl, rfl, rfl⟩ | ⟨others, rfl, old⟩
    · exact checks
    · exact sound.steps earlier step others old
  · intro name symbol operand kind found stands
    exact Operand.kind?_of_prefix (sound.names name symbol operand kind found stands) extended
  · intro output member
    exact Operand.kind?_of_prefix (sound.channels output member) extended
  · intro output member
    exact Operand.kind?_of_prefix (sound.textures output member) extended

end Sound

/-- The step that is added next can be referred to by its number. -/
theorem kind?_nextIndex {r : Resolution} (numbered : r.Numbered) (binding : Binding) :
    (Operand.result r.nextIndex).kind? (r.addBinding binding).plan.bindings.toList =
      some binding.kind := by
  have number : r.nextIndex.toNat = r.plan.bindings.toList.length := by
    rw [nextIndex, UInt32.toNat_ofNat_of_lt' numbered, Array.length_toList]
  rw [Operand.kind?, addBinding, Array.toList_push, number, List.getElem?_concat_length]
  rfl

/-! ## Values -/

/-- A name has an operand of its kind. -/
theorem Sound.resolveName {r : Resolution} (sound : r.Sound) (name : String) (span : Span) :
    (r.resolveName name span).2.Sound ∧
      ∀ operand kind, (r.resolveName name span).1 = some (operand, kind) →
        operand.kind? (r.resolveName name span).2.plan.bindings.toList = some kind := by
  unfold Resolution.resolveName
  split
  · rename_i handle found
    refine ⟨sound, ?_⟩
    rintro operand kind ⟨⟩
    exact sound.names name _ _ _ found rfl
  · rename_i index kind found
    refine ⟨sound, ?_⟩
    rintro operand kind ⟨⟩
    exact sound.names name _ _ _ found rfl
  · exact ⟨sound, nofun⟩
  · exact ⟨sound.withFindings _, nofun⟩

/-- Arguments that are checked have the kinds of the parameters. -/
theorem checkArguments_kinds {op : Operation} {steps : List Binding} {r : Resolution}
    {args : List (Expr × Option Typed)} {params : List Parameter} {operands : List Operand}
    (count : args.length = params.length)
    (kinds : ∀ arg ∈ args, ∀ operand kind, arg.2 = some (operand, kind) →
      operand.kind? steps = some kind)
    (checked : (checkArguments op r args params).1 = some operands) :
    operands.map (Operand.kind? steps) = params.map (some ·.kind) := by
  induction args generalizing r params operands with
  | nil =>
    rw [List.length_nil] at count
    rw [List.eq_nil_of_length_eq_zero count.symm] at checked ⊢
    cases checked
    rfl
  | cons arg args ih =>
    obtain ⟨arg, lowered⟩ := arg
    obtain ⟨here, there⟩ := List.forall_mem_cons.mp kinds
    cases params with
    | nil => cases count
    | cons param params =>
      unfold checkArguments at checked
      rcases lowered with _ | ⟨operand, kind⟩
      · cases checked
      · by_cases same : kind = param.kind
        · simp only [same, ↓reduceIte, Option.bind_some, Option.map_eq_some_iff] at checked
          obtain ⟨others, checked, rfl⟩ := checked
          rw [List.map_cons, List.map_cons, ih (Nat.succ.inj count) there checked,
            here operand kind rfl, same]
        · simp [same] at checked

/-- Checking arguments adds findings and nothing else. -/
theorem checkArguments_eq (op : Operation) (args : List (Expr × Option Typed))
    (params : List Parameter) (r : Resolution) :
    ∃ findings, (checkArguments op r args params).2 = { r with findings } := by
  induction args generalizing r params with
  | nil => exact ⟨r.findings, rfl⟩
  | cons arg args ih =>
    obtain ⟨arg, lowered⟩ := arg
    cases params with
    | nil => exact ⟨r.findings, rfl⟩
    | cons param params =>
      unfold checkArguments
      rcases lowered with _ | ⟨operand, kind⟩
      · exact ih params r
      · by_cases same : kind = param.kind
        · simp only [same, ↓reduceIte]
          exact ih params r
        · simp only [same, ↓reduceIte]
          exact ih params (r.report _)

/-- A call that has a value is made of the steps that are there. -/
theorem Sound.resolveCall {r : Resolution} (sound : r.Sound) (callee : Name)
    {args : List (Expr × Option Typed)} (span : Span)
    (kinds : ∀ arg ∈ args, ∀ operand kind, arg.2 = some (operand, kind) →
      operand.kind? r.plan.bindings.toList = some kind) :
    (r.resolveCall callee args span).2.Sound ∧
      ∀ value, (r.resolveCall callee args span).1 = some value →
        value.Checks (r.resolveCall callee args span).2.plan.bindings.toList .image := by
  unfold Resolution.resolveCall
  cases Operation.ofName? callee.text with
  | none => exact ⟨sound.withFindings _, nofun⟩
  | some op =>
    by_cases count : args.length = op.arity
    · obtain ⟨findings, same⟩ := checkArguments_eq op args op.params r
      simp only [count, ↓reduceIte, same, Option.map_eq_some_iff]
      refine ⟨sound.withFindings findings, ?_⟩
      rintro value ⟨operands, checked, rfl⟩
      exact ⟨rfl, checkArguments_kinds count kinds checked⟩
    · simp only [count, ↓reduceIte]
      exact ⟨sound.withFindings _, nofun⟩

mutual

/-- The operand of a value has its kind. -/
theorem Sound.resolveOperand {r : Resolution} (sound : r.Sound) :
    (e : Expr) → (r.resolveOperand e).2.Numbered →
      (r.resolveOperand e).2.Sound ∧
        ∀ operand kind, (r.resolveOperand e).1 = some (operand, kind) →
          operand.kind? (r.resolveOperand e).2.plan.bindings.toList = some kind
  | .number value span, _ => by
    simp only [Resolution.resolveOperand]
    refine ⟨sound, ?_⟩
    rintro operand kind ⟨⟩
    rfl
  | .name text span, _ => by
    simp only [Resolution.resolveOperand]
    exact sound.resolveName text span
  | .call callee args span, numbered => by
    have grown := (resolveCall_extends (r.resolveOperands args).2 callee
      (r.resolveOperands args).1 span).grows
    simp only [Resolution.resolveOperand] at numbered ⊢
    rcases called : (r.resolveOperands args).2.resolveCall callee (r.resolveOperands args).1 span
      with ⟨_ | value, after⟩
    all_goals
      rw [called] at grown
      simp only [called] at numbered ⊢
    · obtain ⟨argsSound, kinds⟩ := Sound.resolveOperands sound args (numbered.of_grows grown)
      have sound' := (argsSound.resolveCall callee span kinds).1
      rw [called] at sound'
      exact ⟨sound', nofun⟩
    · have few : after.Numbered := numbered.of_grows (addBinding_extends _ _).grows
      obtain ⟨argsSound, kinds⟩ := Sound.resolveOperands sound args (few.of_grows grown)
      obtain ⟨sound', checks⟩ := argsSound.resolveCall callee span kinds
      rw [called] at sound' checks
      refine ⟨sound'.addBinding (checks value rfl), ?_⟩
      rintro operand kind ⟨⟩
      exact kind?_nextIndex few _

/-- The operands of values have their kinds. -/
theorem Sound.resolveOperands {r : Resolution} (sound : r.Sound) :
    (args : List Expr) → (r.resolveOperands args).2.Numbered →
      (r.resolveOperands args).2.Sound ∧
        ∀ arg ∈ (r.resolveOperands args).1, ∀ operand kind, arg.2 = some (operand, kind) →
          operand.kind? (r.resolveOperands args).2.plan.bindings.toList = some kind
  | [], _ => by
    simp only [Resolution.resolveOperands]
    exact ⟨sound, nofun⟩
  | arg :: args, numbered => by
    simp only [Resolution.resolveOperands] at numbered ⊢
    have extended := (r.resolveOperand arg).2.resolveOperands_extends args
    obtain ⟨first, kind⟩ := Sound.resolveOperand sound arg (numbered.of_grows extended.grows)
    obtain ⟨others, kinds⟩ := Sound.resolveOperands first args numbered
    refine ⟨others, List.forall_mem_cons.mpr ⟨?_, kinds⟩⟩
    intro operand found stands
    exact Operand.kind?_of_prefix (kind operand found stands) extended.bindings

end

/-- The value of a binding is made of the steps that are there. -/
theorem Sound.resolveValue {r : Resolution} (sound : r.Sound) (e : Expr)
    (numbered : (r.resolveValue e).2.Numbered) :
    (r.resolveValue e).2.Sound ∧
      ∀ value kind, (r.resolveValue e).1 = some (value, kind) →
        value.Checks (r.resolveValue e).2.plan.bindings.toList kind := by
  cases e with
  | call callee args span =>
    have grown := (resolveCall_extends (r.resolveOperands args).2 callee
      (r.resolveOperands args).1 span).grows
    obtain ⟨argsSound, kinds⟩ := sound.resolveOperands args (numbered.of_grows grown)
    obtain ⟨sound', checks⟩ := argsSound.resolveCall callee span kinds
    refine ⟨sound', ?_⟩
    intro value kind found
    obtain ⟨value, called, same⟩ := Option.map_eq_some_iff.mp found
    cases same
    exact checks value called
  | number | name =>
    simp only [Resolution.resolveValue] at numbered ⊢
    obtain ⟨sound', kinds⟩ := sound.resolveOperand _ numbered
    refine ⟨sound', ?_⟩
    intro value kind found
    obtain ⟨⟨operand, kind⟩, resolved, same⟩ := Option.map_eq_some_iff.mp found
    cases same
    exact kinds operand kind resolved

/-- An output is an image. -/
theorem Sound.resolveOutput {r : Resolution} (sound : r.Sound) (e : Expr)
    (numbered : (r.resolveOutput e).2.Numbered) :
    (r.resolveOutput e).2.Sound ∧
      ∀ operand, (r.resolveOutput e).1 = some operand →
        operand.kind? (r.resolveOutput e).2.plan.bindings.toList = some .image := by
  have resolved := sound.resolveOperand e
  unfold Resolution.resolveOutput at numbered ⊢
  rcases found : r.resolveOperand e with ⟨_ | ⟨operand, _ | _⟩, after⟩
  all_goals
    simp only [found] at numbered resolved ⊢
  · exact ⟨(resolved numbered).1, nofun⟩
  · refine ⟨(resolved numbered).1, ?_⟩
    rintro other ⟨⟩
    exact (resolved numbered).2 operand .image rfl
  · exact ⟨(resolved numbered).1.withFindings _, nofun⟩

/-! ## Statements -/

theorem Sound.resolveBinding {r : Resolution} (sound : r.Sound) (target : Name) (value : Expr)
    (span : Span) (numbered : (r.resolveBinding target value span).Numbered) :
    (r.resolveBinding target value span).Sound := by
  obtain ⟨symbol, after, added, defined⟩ := r.resolveBinding_cases target value span
  have few : after.Numbered := by
    rcases defined with ⟨scope, _, found⟩ | ⟨conflict, _, found⟩
    all_goals
      rw [found] at numbered
      exact numbered
  -- the name stands for the step that was added, even if it cannot be bound
  have kept : after.Sound ∧ ∀ operand kind, symbol.operand? = some (operand, kind) →
      operand.kind? after.plan.bindings.toList = some kind := by
    rcases added with ⟨result, kind, resolved, rfl, rfl⟩ | ⟨_, rfl, rfl⟩
    · have valueFew : (r.resolveValue value).2.Numbered :=
        few.of_grows (addBinding_extends _ _).grows
      obtain ⟨valueSound, checks⟩ := sound.resolveValue value valueFew
      refine ⟨valueSound.addBinding (checks result kind resolved), ?_⟩
      rintro operand kind ⟨⟩
      exact kind?_nextIndex valueFew _
    · exact ⟨(sound.resolveValue value few).1, nofun⟩
  rcases defined with ⟨scope, ok, found⟩ | ⟨conflict, _, found⟩
  · rw [found]
    refine ⟨kept.1.steps, ?_, kept.1.channels, kept.1.textures⟩
    intro name other operand kind meaning stands
    rw [Scope.lookup_define ok] at meaning
    split at meaning
    · cases meaning
      exact kept.2 operand kind stands
    · exact kept.1.names name other operand kind meaning stands
  · rw [found]
    exact kept.1.withFindings _

theorem Sound.checkMaterial {r : Resolution} (sound : r.Sound) (channel materialType : Name) :
    (r.checkMaterial channel materialType).Sound := by
  unfold Resolution.checkMaterial
  split
  · exact sound.withFindings _
  · exact sound

theorem Sound.resolveChannel {r : Resolution} (sound : r.Sound)
    (material channel materialType : Name) (value : Expr) (span : Span)
    (numbered : (r.resolveChannel material channel materialType value span).Numbered) :
    (r.resolveChannel material channel materialType value span).Sound := by
  obtain ⟨source, after, output, outcome⟩ :=
    r.resolveChannel_cases material channel materialType value span
  have resolved := (sound.checkMaterial channel materialType).resolveOutput value
  rw [output] at resolved
  rcases outcome with ⟨first, _, found⟩ | ⟨_, found⟩
  · rw [found] at numbered ⊢
    exact (resolved numbered).1.withFindings _
  · rw [found] at numbered ⊢
    obtain ⟨sound', image⟩ := resolved numbered
    refine ⟨sound'.steps, sound'.names, ?_, sound'.textures⟩
    intro output member
    simp only [Array.mem_append, Array.mem_map] at member
    rcases member with old | ⟨operand, fed, rfl⟩
    · exact sound'.channels output old
    · exact image operand (by simpa using fed)

theorem Sound.resolveExport {r : Resolution} (sound : r.Sound) (name : Name)
    (numbered : (r.resolveExport name).Numbered) : (r.resolveExport name).Sound := by
  rcases r.resolveExport_cases name with ⟨first, _, found⟩ | ⟨_, source, after, output, found⟩
  · rw [found]
    exact sound.withFindings _
  · have declared : Sound { r with textures := r.textures.insert name.text name.span } :=
      ⟨sound.steps, sound.names, sound.channels, sound.textures⟩
    have resolved := declared.resolveOutput (.name name.text name.span)
    rw [output] at resolved
    rw [found] at numbered ⊢
    obtain ⟨sound', image⟩ := resolved numbered
    refine ⟨sound'.steps, sound'.names, sound'.channels, ?_⟩
    intro output member
    simp only [Array.mem_append, Array.mem_map] at member
    rcases member with old | ⟨operand, fed, rfl⟩
    · exact sound'.textures output old
    · exact image operand (by simpa using fed)

/-- A walk whose steps are sound is sound, if it can number its steps at the end. -/
theorem Sound.foldl {α : Type} {step : Resolution → α → Resolution}
    (grows : ∀ (r : Resolution) (item : α), r.Grows (step r item))
    (keeps : ∀ {r : Resolution}, r.Sound → ∀ item, (step r item).Numbered → (step r item).Sound)
    (items : List α) {r : Resolution} (sound : r.Sound) (numbered : (items.foldl step r).Numbered) :
    (items.foldl step r).Sound := by
  induction items generalizing r with
  | nil => exact sound
  | cons item items ih =>
    exact ih (keeps sound item (numbered.of_grows (.foldl grows items _))) numbered

theorem Sound.resolveStatement {r : Resolution} (sound : r.Sound) (statement : Statement)
    (numbered : (r.resolveStatement statement).Numbered) :
    (r.resolveStatement statement).Sound := by
  cases statement with
  | bind target value span => exact sound.resolveBinding target value span numbered
  | channel material channel materialType value span =>
    exact sound.resolveChannel material channel materialType value span numbered
  | exports names span => exact foldl resolveExport_grows resolveExport names sound numbered

/-- At the start there are inputs and nothing else. -/
theorem sound_ofInputs (inputs : List InputImage) : Sound { scope := .ofInputs inputs } := by
  constructor
  · intro earlier step later split
    simp at split
  · intro name symbol operand kind found stands
    rcases Scope.lookup_ofInputs_cases inputs name with ⟨_, handle, input⟩ | ⟨_, none⟩
    · rw [input] at found
      cases found
      cases stands
      rfl
    · rw [none] at found
      cases found
  · simp
  · simp

/-- What a sound resolution has collected is a plan in single assignment form. -/
theorem Sound.wellFormed {r : Resolution} (sound : r.Sound) (distinct : r.OutputsDistinct) :
    r.plan.WellFormed := by
  -- a step is checked among those before it, hence among all
  have checks : ∀ step ∈ r.plan.bindings,
      step.value.Checks r.plan.bindings.toList step.kind := by
    intro step member
    obtain ⟨earlier, later, split⟩ := List.append_of_mem (Array.mem_toList_iff.mpr member)
    exact (sound.steps earlier step later split).mono ⟨step :: later, split.symm⟩
  have sources : ∀ operand : Operand, operand.kind? r.plan.bindings.toList = some .image →
      operand.WellFormed r.plan.bindings.size := by
    intro operand image
    rw [← Array.length_toList]
    exact Operand.wellFormed_of_kind? image
  constructor
  · intro number step found index member
    rw [← Array.getElem?_toList] at found
    obtain ⟨inside, isStep⟩ := List.getElem?_eq_some_iff.mp found
    have split : r.plan.bindings.toList = r.plan.bindings.toList.take number ++
        step :: r.plan.bindings.toList.drop (number + 1) := by
      rw [← isStep, List.getElem_cons_drop, List.take_append_drop]
    have refers : index.toNat < (r.plan.bindings.toList.take number).length :=
      (sound.steps _ step _ split).wellFormed member
    rw [List.length_take] at refers
    omega
  · intro step member operation args isCall
    have here := checks step member
    rw [isCall] at here
    simpa [Operation.arity] using congrArg List.length here.2
  · intro step member operation args isCall
    have here := checks step member
    rw [isCall] at here
    exact here.2
  · intro step member
    exact (checks step member).kind?
  · exact sound.channels
  · intro output member
    exact sources _ (sound.channels output member)
  · exact sound.textures
  · intro output member
    exact sources _ (sound.textures output member)
  · exact distinct.channels
  · exact distinct.textures

end Resolution

/-- The plan of a script is in single assignment form, whatever problems the script has and whatever
was reported before, as long as its steps can be numbered. -/
theorem Script.resolveInto_wellFormed (script : Script) (inputs : List InputImage)
    (source : SourceText) (report : Report)
    (numbered : (script.resolveInto inputs source report).plan.bindings.size < UInt32.size) :
    (script.resolveInto inputs source report).plan.WellFormed := by
  have sound : (script.resolve inputs).Sound :=
    Resolution.Sound.foldl Resolution.resolveStatement_grows Resolution.Sound.resolveStatement
      script.statements (Resolution.sound_ofInputs inputs) numbered
  exact sound.wellFormed (script.resolve_outputsDistinct inputs)

/-- A script with errors: the second binding has too few arguments, one of which is a call that
becomes a step, and takes a name that is taken. -/
def Script.brokenBinding : Script :=
  ⟨[.bind ⟨"a", default⟩ (.call ⟨"grayscale", default⟩ [.name "sky" default] default) default,
    .bind ⟨"a", default⟩ (.call ⟨"resize", default⟩
      [.call ⟨"flip_vertical", default⟩ [.name "a" default] default, .number 4 default] default)
      default,
    .exports [⟨"a", default⟩, ⟨"a", default⟩] default], default⟩

/-- What comes of the broken script. -/
def FrontEnd.broken : FrontEnd :=
  Script.brokenBinding.resolveInto [⟨"sky", ⟨0⟩⟩] (.ofString "script.coo" "") .empty

/-- The plan of the broken script is well formed, with two steps. -/
theorem Script.resolveInto_wellFormed_broken :
    FrontEnd.broken.plan.bindings.size = 2 ∧ FrontEnd.broken.report.totalErrors = 3 ∧
      FrontEnd.broken.plan.WellFormed := by
  have size : FrontEnd.broken.plan.bindings.size = 2 := by
    decide
  refine ⟨size, by decide, Script.resolveInto_wellFormed _ _ _ _ ?_⟩
  change FrontEnd.broken.plan.bindings.size < _
  rw [size]
  decide

end TextureScript
