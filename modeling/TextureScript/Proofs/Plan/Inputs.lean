import TextureScript.Proofs.Plan.WellFormed

/-!
# Plans use only their inputs

A handle gets into a plan only through the name of an input, and names are given their meaning by
the inputs or by bindings. So every image that a plan refers to by its handle is one of the inputs,
also in the plan of a script with errors.
-/

namespace TextureScript

/-- An operand that refers to an image by its handle refers to an input. -/
def Operand.IsGiven (inputs : List InputImage) : Operand → Prop
  | .input handle => ∃ input ∈ inputs, input.handle = handle
  | .result _ | .number _ => True

/-- At the start a name stands for an input. -/
theorem Scope.lookup_ofInputs_mem {inputs : List InputImage} {name : String} {symbol : Symbol}
    (found : (ofInputs inputs).lookup name = some symbol) :
    ∃ input ∈ inputs, symbol = .input input.handle := by
  have entries : ∀ (start : Std.TreeMap String Entry) (entry : Entry),
      (inputs.foldl (fun entries i => entries.insert i.name ⟨.input i.handle, none⟩)
        start)[name]? = some entry →
      (∃ input ∈ inputs, entry.symbol = .input input.handle) ∨ start[name]? = some entry := by
    clear found
    induction inputs with
    | nil => exact fun start entry here => .inr here
    | cons input inputs ih =>
      intro start entry here
      rcases ih (start.insert input.name ⟨.input input.handle, none⟩) entry here with
        ⟨later, listed, same⟩ | inserted
      · exact .inl ⟨later, List.mem_cons_of_mem _ listed, same⟩
      · rw [Std.TreeMap.getElem?_insert] at inserted
        split at inserted
        · cases inserted
          exact .inl ⟨input, List.mem_cons_self, rfl⟩
        · exact .inr inserted
  obtain ⟨entry, here, rfl⟩ := Option.map_eq_some_iff.mp found
  rcases entries {} entry here with listed | nothing
  · exact listed
  · simp at nothing

namespace Resolution

/-- What a resolution has collected refers to no image but the inputs. -/
structure UsesInputs (inputs : List InputImage) (r : Resolution) : Prop where
  /-- A name with a value stands for no other image. -/
  names : ∀ name symbol operand kind, r.scope.lookup name = some symbol →
    symbol.operand? = some (operand, kind) → operand.IsGiven inputs
  /-- A step refers to no other image. -/
  steps : ∀ step ∈ r.plan.bindings, ∀ operand ∈ step.value.operands, operand.IsGiven inputs
  /-- A channel is fed with no other image. -/
  channels : ∀ output ∈ r.plan.channels, output.source.IsGiven inputs
  /-- A texture is no other image. -/
  textures : ∀ output ∈ r.plan.textures, output.source.IsGiven inputs

variable {inputs : List InputImage} {r : Resolution}

namespace UsesInputs

theorem withFindings (uses : r.UsesInputs inputs) (findings : Array Finding) :
    UsesInputs inputs { r with findings } :=
  ⟨uses.names, uses.steps, uses.channels, uses.textures⟩

theorem addBinding (uses : r.UsesInputs inputs) {binding : Binding}
    (given : ∀ operand ∈ binding.value.operands, operand.IsGiven inputs) :
    (r.addBinding binding).UsesInputs inputs := by
  refine ⟨uses.names, ?_, uses.channels, uses.textures⟩
  intro step member
  rcases Array.mem_push.mp member with old | rfl
  · exact uses.steps step old
  · exact given

/-! ## Values -/

theorem resolveName (uses : r.UsesInputs inputs) (name : String) (span : Span) :
    (r.resolveName name span).2.UsesInputs inputs ∧
      ∀ operand kind, (r.resolveName name span).1 = some (operand, kind) →
        operand.IsGiven inputs := by
  unfold Resolution.resolveName
  split
  · rename_i handle found
    refine ⟨uses, ?_⟩
    rintro operand kind ⟨⟩
    exact uses.names name _ _ _ found rfl
  · refine ⟨uses, ?_⟩
    rintro operand kind ⟨⟩
    trivial
  · exact ⟨uses, nofun⟩
  · exact ⟨uses.withFindings _, nofun⟩

/-- Checked arguments are the operands that were resolved. -/
theorem checkArguments {op : Operation} {args : List (Expr × Option Typed)}
    {params : List Parameter} {operands : List Operand}
    (given : ∀ arg ∈ args, ∀ operand kind, arg.2 = some (operand, kind) → operand.IsGiven inputs)
    (checked : (Resolution.checkArguments op r args params).1 = some operands) :
    ∀ operand ∈ operands, operand.IsGiven inputs := by
  induction args generalizing r params operands with
  | nil =>
    cases checked
    exact nofun
  | cons arg args ih =>
    obtain ⟨arg, lowered⟩ := arg
    obtain ⟨here, there⟩ := List.forall_mem_cons.mp given
    cases params with
    | nil =>
      cases checked
      exact nofun
    | cons param params =>
      unfold Resolution.checkArguments at checked
      rcases lowered with _ | ⟨operand, kind⟩
      · cases checked
      · by_cases same : kind = param.kind
        · simp only [same, ↓reduceIte, Option.bind_some, Option.map_eq_some_iff] at checked
          obtain ⟨others, checked, rfl⟩ := checked
          exact List.forall_mem_cons.mpr ⟨here operand kind rfl, ih there checked⟩
        · simp [same] at checked

theorem resolveCall (uses : r.UsesInputs inputs) (callee : Name)
    {args : List (Expr × Option Typed)} (span : Span)
    (given : ∀ arg ∈ args, ∀ operand kind, arg.2 = some (operand, kind) →
      operand.IsGiven inputs) :
    (r.resolveCall callee args span).2.UsesInputs inputs ∧
      ∀ value, (r.resolveCall callee args span).1 = some value →
        ∀ operand ∈ value.operands, operand.IsGiven inputs := by
  unfold Resolution.resolveCall
  cases Operation.ofName? callee.text with
  | none => exact ⟨uses.withFindings _, nofun⟩
  | some op =>
    by_cases count : args.length = op.arity
    · obtain ⟨findings, same⟩ := checkArguments_eq op args op.params r
      simp only [count, ↓reduceIte, same, Option.map_eq_some_iff]
      refine ⟨uses.withFindings findings, ?_⟩
      rintro value ⟨operands, checked, rfl⟩
      exact checkArguments given checked
    · simp only [count, ↓reduceIte]
      exact ⟨uses.withFindings _, nofun⟩

mutual

theorem resolveOperand {r : Resolution} (uses : r.UsesInputs inputs) : (e : Expr) →
    (r.resolveOperand e).2.UsesInputs inputs ∧
      ∀ operand kind, (r.resolveOperand e).1 = some (operand, kind) → operand.IsGiven inputs
  | .number value span => by
    simp only [Resolution.resolveOperand]
    refine ⟨uses, ?_⟩
    rintro operand kind ⟨⟩
    trivial
  | .name text span => by
    simp only [Resolution.resolveOperand]
    exact uses.resolveName text span
  | .call callee args span => by
    obtain ⟨argsUse, given⟩ := resolveOperands uses args
    obtain ⟨used, operands⟩ := argsUse.resolveCall callee span given
    simp only [Resolution.resolveOperand]
    rcases called : (r.resolveOperands args).2.resolveCall callee (r.resolveOperands args).1 span
      with ⟨_ | value, after⟩
    all_goals
      rw [called] at used operands
      simp only
    · exact ⟨used, nofun⟩
    · refine ⟨used.addBinding (operands value rfl), ?_⟩
      rintro operand kind ⟨⟩
      trivial

theorem resolveOperands {r : Resolution} (uses : r.UsesInputs inputs) : (args : List Expr) →
    (r.resolveOperands args).2.UsesInputs inputs ∧
      ∀ arg ∈ (r.resolveOperands args).1, ∀ operand kind, arg.2 = some (operand, kind) →
        operand.IsGiven inputs
  | [] => by
    simp only [Resolution.resolveOperands]
    exact ⟨uses, nofun⟩
  | arg :: args => by
    obtain ⟨first, given⟩ := resolveOperand uses arg
    obtain ⟨others, allGiven⟩ := resolveOperands first args
    simp only [Resolution.resolveOperands]
    exact ⟨others, List.forall_mem_cons.mpr ⟨given, allGiven⟩⟩

end

theorem resolveValue (uses : r.UsesInputs inputs) (e : Expr) :
    (r.resolveValue e).2.UsesInputs inputs ∧
      ∀ value kind, (r.resolveValue e).1 = some (value, kind) →
        ∀ operand ∈ value.operands, operand.IsGiven inputs := by
  cases e with
  | call callee args span =>
    obtain ⟨argsUse, given⟩ := uses.resolveOperands args
    obtain ⟨used, operands⟩ := argsUse.resolveCall callee span given
    refine ⟨used, ?_⟩
    intro value kind found
    obtain ⟨value, called, same⟩ := Option.map_eq_some_iff.mp found
    cases same
    exact operands value called
  | number | name =>
    simp only [Resolution.resolveValue]
    obtain ⟨used, given⟩ := uses.resolveOperand _
    refine ⟨used, ?_⟩
    intro value kind found
    obtain ⟨⟨operand, kind⟩, resolved, same⟩ := Option.map_eq_some_iff.mp found
    cases same
    exact List.forall_mem_singleton.mpr (given operand kind resolved)

theorem resolveOutput (uses : r.UsesInputs inputs) (e : Expr) :
    (r.resolveOutput e).2.UsesInputs inputs ∧
      ∀ operand, (r.resolveOutput e).1 = some operand → operand.IsGiven inputs := by
  obtain ⟨used, given⟩ := uses.resolveOperand e
  unfold Resolution.resolveOutput
  rcases found : r.resolveOperand e with ⟨_ | ⟨operand, _ | _⟩, after⟩
  all_goals
    rw [found] at used given
    simp only
  · exact ⟨used, nofun⟩
  · refine ⟨used, ?_⟩
    rintro other ⟨⟩
    exact given operand .image rfl
  · exact ⟨used.withFindings _, nofun⟩

/-! ## Statements -/

theorem resolveBinding (uses : r.UsesInputs inputs) (target : Name) (value : Expr) (span : Span) :
    (r.resolveBinding target value span).UsesInputs inputs := by
  obtain ⟨used, operands⟩ := uses.resolveValue value
  obtain ⟨symbol, after, added, defined⟩ := r.resolveBinding_cases target value span
  -- a binding never stands for an input
  have kept : after.UsesInputs inputs ∧ ∀ operand kind, symbol.operand? = some (operand, kind) →
      operand.IsGiven inputs := by
    rcases added with ⟨result, kind, resolved, rfl, rfl⟩ | ⟨_, rfl, rfl⟩
    · refine ⟨used.addBinding (operands result kind resolved), ?_⟩
      rintro operand kind ⟨⟩
      trivial
    · exact ⟨used, nofun⟩
  rcases defined with ⟨scope, ok, found⟩ | ⟨conflict, _, found⟩
  · rw [found]
    refine ⟨?_, kept.1.steps, kept.1.channels, kept.1.textures⟩
    intro name other operand kind meaning stands
    rw [Scope.lookup_define ok] at meaning
    split at meaning
    · cases meaning
      exact kept.2 operand kind stands
    · exact kept.1.names name other operand kind meaning stands
  · rw [found]
    exact kept.1.withFindings _

theorem resolveChannel (uses : r.UsesInputs inputs) (material channel materialType : Name)
    (value : Expr) (span : Span) :
    (r.resolveChannel material channel materialType value span).UsesInputs inputs := by
  obtain ⟨source, after, output, outcome⟩ :=
    r.resolveChannel_cases material channel materialType value span
  have checked : (r.checkMaterial channel materialType).UsesInputs inputs := by
    unfold Resolution.checkMaterial
    split
    · exact uses.withFindings _
    · exact uses
  have resolved := checked.resolveOutput value
  rw [output] at resolved
  obtain ⟨used, given⟩ := resolved
  rcases outcome with ⟨first, _, found⟩ | ⟨_, found⟩
  · rw [found]
    exact used.withFindings _
  · rw [found]
    refine ⟨used.names, used.steps, ?_, used.textures⟩
    intro output member
    simp only [Array.mem_append, Array.mem_map] at member
    rcases member with old | ⟨operand, fed, rfl⟩
    · exact used.channels output old
    · exact given operand (by simpa using fed)

theorem resolveExport (uses : r.UsesInputs inputs) (name : Name) :
    (r.resolveExport name).UsesInputs inputs := by
  rcases r.resolveExport_cases name with ⟨first, _, found⟩ | ⟨_, source, after, output, found⟩
  · rw [found]
    exact uses.withFindings _
  · have declared :
        UsesInputs inputs { r with textures := r.textures.insert name.text name.span } :=
      ⟨uses.names, uses.steps, uses.channels, uses.textures⟩
    have resolved := declared.resolveOutput (.name name.text name.span)
    rw [output] at resolved
    obtain ⟨used, given⟩ := resolved
    rw [found]
    refine ⟨used.names, used.steps, used.channels, ?_⟩
    intro output member
    simp only [Array.mem_append, Array.mem_map] at member
    rcases member with old | ⟨operand, fed, rfl⟩
    · exact used.textures output old
    · exact given operand (by simpa using fed)

theorem foldl {α : Type} {step : Resolution → α → Resolution}
    (keeps : ∀ {r : Resolution}, r.UsesInputs inputs → ∀ item, (step r item).UsesInputs inputs)
    (items : List α) {r : Resolution} (uses : r.UsesInputs inputs) :
    (items.foldl step r).UsesInputs inputs := by
  induction items generalizing r with
  | nil => exact uses
  | cons item items ih => exact ih (keeps uses item)

theorem resolveStatement (uses : r.UsesInputs inputs) (statement : Statement) :
    (r.resolveStatement statement).UsesInputs inputs := by
  cases statement with
  | bind target value span => exact uses.resolveBinding target value span
  | channel material channel materialType value span =>
    exact uses.resolveChannel material channel materialType value span
  | exports names span => exact foldl resolveExport names uses

end UsesInputs

theorem usesInputs_ofInputs (inputs : List InputImage) :
    UsesInputs inputs { scope := .ofInputs inputs } := by
  refine ⟨?_, by simp, by simp, by simp⟩
  intro name symbol operand kind found stands
  obtain ⟨input, listed, rfl⟩ := Scope.lookup_ofInputs_mem found
  cases stands
  exact ⟨input, listed, rfl⟩

end Resolution

/-- The plan of a script refers to no image but the inputs. -/
theorem Script.resolve_usesInputs (script : Script) (inputs : List InputImage) :
    (script.resolve inputs).UsesInputs inputs :=
  Resolution.UsesInputs.foldl Resolution.UsesInputs.resolveStatement script.statements
    (Resolution.usesInputs_ofInputs inputs)

end TextureScript
