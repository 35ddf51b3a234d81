import TextureScript.Proofs.Assembly.Acceptance
import TextureScript.Proofs.Compiler.Acceptance
import TextureScript.Proofs.Compiler.Interpreter
import TextureScript.Proofs.Plan.Checking
import TextureScript.Proofs.Plan.Evaluation
import TextureScript.Proofs.Plan.Resolution
import TextureScript.Proofs.Scope

/-!
# Resolving follows the script

While a script without errors is resolved, its plan can be evaluated as far as it has come. The
evaluation and the interpretation of the script agree at every point: the host is in the same state,
the names stand for the same values, and the same values are recorded. A value is never changed by
what is added to the plan later, as steps are only added at the end.
-/

namespace TextureScript

/-! ## Values stay -/

/-- Further values do not change an operand that does not refer to them. -/
theorem Operand.value_of_prefix {operand : Operand} {values more : List Int32}
    (sound : operand.WellFormed values.length) (extended : values <+: more) :
    operand.value more = operand.value values := by
  obtain ⟨rest, rfl⟩ := extended
  cases operand with
  | input handle => rfl
  | number value => rfl
  | result index =>
    have below : index.toNat < values.length := sound
    simp only [value, List.getD_eq_getElem?_getD]
    rw [List.getElem?_append_left below]

theorem Operand.WellFormed.mono {operand : Operand} {fewer more : Nat}
    (sound : operand.WellFormed fewer) (le : fewer ≤ more) : operand.WellFormed more := by
  cases operand with
  | input handle => trivial
  | number value => trivial
  | result index => exact Nat.lt_of_lt_of_le sound le

/-! ## Agreement -/

namespace Resolution

variable {σ : Type} {perform : Wasm.Host σ} {inputs : List InputImage} {start : σ}

/-- A resolution that can still become a module: without errors, and with steps that can be
numbered. -/
structure Accepted (r : Resolution) : Prop where
  /-- There is no error. -/
  clean : OnlyWarnings r.findings
  /-- The steps can be numbered. -/
  few : r.plan.bindings.size < UInt32.size

theorem Accepted.of_grows {before after : Resolution} (accepted : after.Accepted)
    (grown : before.Grows after) : before.Accepted where
  clean := onlyWarnings_of_grows accepted.clean grown
  few := by
    have le := grown.bindings.length_le
    rw [Array.length_toList, Array.length_toList] at le
    exact Nat.lt_of_le_of_lt le accepted.few

/-- Reporting an error is not accepted. -/
theorem not_accepted_report {r : Resolution} {finding : Finding}
    (error : finding.severity = .error) : ¬(r.report finding).Accepted :=
  fun accepted => not_onlyWarnings_report error accepted.clean

/-- The evaluation of the plan as far as it has come. -/
def evaluation (r : Resolution) (perform : Wasm.Host σ) (start : σ) : Evaluation σ :=
  .run perform { host := start } r.plan.bindings.toList

theorem length_values_evaluation (r : Resolution) (perform : Wasm.Host σ) (start : σ) :
    (r.evaluation perform start).values.length = r.plan.bindings.size := by
  rw [evaluation, Evaluation.length_values_run]
  simp

theorem evaluation_addBinding (r : Resolution) (perform : Wasm.Host σ) (start : σ)
    (binding : Binding) :
    (r.addBinding binding).evaluation perform start =
      (r.evaluation perform start).step perform binding := by
  rw [evaluation, addBinding, Array.toList_push, Evaluation.run_concat]
  rfl

/-- What a resolution grows by leaves the operands that are there. -/
theorem Grows.keeps {before after : Resolution} (grown : before.Grows after)
    (perform : Wasm.Host σ) (start : σ) {operand : Operand}
    (sound : operand.WellFormed before.plan.bindings.size) :
    operand.WellFormed after.plan.bindings.size ∧
      operand.value (after.evaluation perform start).values =
        operand.value (before.evaluation perform start).values := by
  obtain ⟨rest, bindings⟩ := grown.bindings
  have size : before.plan.bindings.size ≤ after.plan.bindings.size := by
    have length := congrArg List.length bindings
    simp only [List.length_append, Array.length_toList] at length
    omega
  refine ⟨sound.mono size, ?_⟩
  rw [← before.length_values_evaluation perform start] at sound
  apply Operand.value_of_prefix sound
  rw [evaluation, evaluation, ← bindings, Evaluation.run_append]
  exact Evaluation.values_run perform _ rest

/-- A resolution and the interpretation of the same statements agree. -/
structure Simulates (perform : Wasm.Host σ) (inputs : List InputImage) (start : σ)
    (r : Resolution) (p : Progress σ) : Prop where
  /-- The host is in the same state. -/
  host : (r.evaluation perform start).host = p.host
  /-- A name with a meaning stands for a value, and for the same one. -/
  names : ∀ name symbol, r.scope.lookup name = some symbol →
    ∃ operand kind, symbol.operand? = some (operand, kind) ∧
      operand.WellFormed r.plan.bindings.size ∧
      p.meaning inputs name = some (operand.value (r.evaluation perform start).values)
  /-- The same values are recorded for channels. -/
  channels : p.channels = r.plan.channels.toList.map fun output =>
    ((output.material, output.channel), output.source.value (r.evaluation perform start).values)
  /-- The same values are recorded for textures. -/
  textures : p.textures = r.plan.textures.toList.map fun output =>
    (output.name, output.source.value (r.evaluation perform start).values)
  /-- Channels refer to steps that are there. -/
  channelSources : ∀ output ∈ r.plan.channels, output.source.WellFormed r.plan.bindings.size
  /-- Textures refer to steps that are there. -/
  textureSources : ∀ output ∈ r.plan.textures, output.source.WellFormed r.plan.bindings.size

namespace Simulates

/-- Findings do not matter. -/
theorem report {r : Resolution} {p : Progress σ} (agree : Simulates perform inputs start r p)
    (finding : Finding) : Simulates perform inputs start (r.report finding) p :=
  ⟨agree.host, agree.names, agree.channels, agree.textures, agree.channelSources,
    agree.textureSources⟩

/-- Steps that are added to the plan move the host on and leave all else. -/
theorem of_extends {before after : Resolution} {p : Progress σ}
    (agree : Simulates perform inputs start before p) (more : before.Extends after) :
    Simulates perform inputs start after
      { p with host := (after.evaluation perform start).host } := by
  have keeps := fun operand => @Grows.keeps σ _ _ more.grows perform start operand
  constructor
  · rfl
  · intro name symbol found
    rw [more.scope] at found
    obtain ⟨operand, kind, stands, sound, means⟩ := agree.names name symbol found
    refine ⟨operand, kind, stands, (keeps operand sound).1, ?_⟩
    rw [(keeps operand sound).2]
    exact means
  · rw [more.planChannels]
    refine agree.channels.trans (List.map_congr_left ?_)
    intro output member
    have sound := agree.channelSources output (Array.mem_toList_iff.mp member)
    rw [(keeps _ sound).2]
  · rw [more.planTextures]
    refine agree.textures.trans (List.map_congr_left ?_)
    intro output member
    have sound := agree.textureSources output (Array.mem_toList_iff.mp member)
    rw [(keeps _ sound).2]
  · intro output member
    rw [more.planChannels] at member
    exact (keeps _ (agree.channelSources output member)).1
  · intro output member
    rw [more.planTextures] at member
    exact (keeps _ (agree.textureSources output member)).1

end Simulates

/-! ## Values -/

/-- A name that is resolved without an error has a value, and the right one. -/
theorem resolveName_simulates {r : Resolution} {p : Progress σ}
    (agree : Simulates perform inputs start r p) {name : String} {span : Span}
    (accepted : (r.resolveName name span).2.Accepted) :
    ∃ operand kind, r.resolveName name span = (some (operand, kind), r) ∧
      operand.WellFormed r.plan.bindings.size ∧
      p.meaning inputs name = some (operand.value (r.evaluation perform start).values) := by
  unfold resolveName at accepted ⊢
  cases found : r.scope.lookup name with
  | none =>
    rw [found] at accepted
    exact absurd accepted (not_accepted_report rfl)
  | some symbol =>
    obtain ⟨operand, kind, stands, sound, means⟩ := agree.names name symbol found
    cases symbol with
    | poisoned => cases stands
    | input handle =>
      cases stands
      exact ⟨_, _, rfl, sound, means⟩
    | bound index kind =>
      cases stands
      exact ⟨_, _, rfl, sound, means⟩

/-- Arguments that have values and are checked without an error are the operands of the call. -/
theorem checkArguments_accepted {op : Operation} {r : Resolution}
    {lowered : List (Expr × Option Typed)} {typed : List Typed} {params : List Parameter}
    (values : lowered.map (·.2) = typed.map some) (count : typed.length = params.length)
    (accepted : (checkArguments op r lowered params).2.Accepted) :
    checkArguments op r lowered params = (some (typed.map (·.1)), r) := by
  rcases checkArguments_decides op r values count with ⟨-, checked⟩ | ⟨-, unclean⟩
  · exact checked
  · exact absurd accepted.clean unclean

/-- A call that is resolved without an error calls the operation with its name. -/
theorem resolveCall_accepted {r : Resolution} {callee : Name}
    {lowered : List (Expr × Option Typed)} {typed : List Typed} {span : Span}
    (values : lowered.map (·.2) = typed.map some)
    (accepted : (r.resolveCall callee lowered span).2.Accepted) :
    ∃ op, Operation.ofName? callee.text = some op ∧
      r.resolveCall callee lowered span = (some (.call op (typed.map (·.1))), r) := by
  unfold resolveCall at accepted ⊢
  cases named : Operation.ofName? callee.text with
  | none =>
    rw [named] at accepted
    exact absurd accepted (not_accepted_report rfl)
  | some op =>
    simp only [named] at accepted
    by_cases right : lowered.length = op.arity
    · have count : typed.length = op.params.length := by
        have same := congrArg List.length values
        rw [List.length_map, List.length_map] at same
        rw [← same]
        exact right
      rw [if_pos right] at accepted
      have checked := checkArguments_accepted values count accepted
      refine ⟨op, rfl, ?_⟩
      simp only [if_pos right, checked]
      rfl
    · rw [if_neg right] at accepted
      exact absurd accepted (not_accepted_report rfl)

/-- A step with a given value comes to a given outcome, when it is added. -/
def Performs (r : Resolution) (perform : Wasm.Host σ) (start : σ) (value : Value)
    (outcome : Option (Int32 × σ)) : Prop :=
  ∀ binding : Binding, binding.value = value → ∃ word,
    ((r.addBinding binding).evaluation perform start).values =
        (r.evaluation perform start).values ++ [word] ∧
      outcome = some (word, ((r.addBinding binding).evaluation perform start).host)

/-- A step that copies an operand comes to its value. -/
theorem performs_copy (r : Resolution) (perform : Wasm.Host σ) (start : σ) (operand : Operand) :
    r.Performs perform start (.copy operand) (some
      (operand.value (r.evaluation perform start).values, (r.evaluation perform start).host)) := by
  intro binding copied
  rw [evaluation_addBinding, Evaluation.step, copied]
  exact ⟨_, rfl, rfl⟩

/-- A step that calls an operation performs it with the values of the operands. -/
theorem performs_call (r : Resolution) (perform : Wasm.Host σ) (start : σ) (op : Operation)
    (typed : List Typed) :
    r.Performs perform start (.call op (typed.map (·.1))) (some (perform op
      (typed.map fun value => value.1.value (r.evaluation perform start).values)
      (r.evaluation perform start).host)) := by
  intro binding called
  have words : (typed.map (·.1)).map (Operand.value (r.evaluation perform start).values) =
      typed.map fun value => value.1.value (r.evaluation perform start).values := by
    rw [List.map_map]
    rfl
  rw [evaluation_addBinding, Evaluation.step, called]
  simp only [words]
  exact ⟨_, rfl, rfl⟩

/-- The number of the next step is the place of its value. -/
theorem value_nextIndex {r : Resolution} (few : r.plan.bindings.size < UInt32.size) (word : Int32) :
    (Operand.result r.nextIndex).value ((r.evaluation perform start).values ++ [word]) = word := by
  have number : r.nextIndex.toNat = (r.evaluation perform start).values.length := by
    rw [length_values_evaluation, nextIndex, UInt32.toNat_ofNat_of_lt' few]
  rw [Operand.value, number]
  simp

theorem wellFormed_nextIndex {r : Resolution} (few : r.plan.bindings.size < UInt32.size)
    (binding : Binding) :
    (Operand.result r.nextIndex).WellFormed (r.addBinding binding).plan.bindings.size := by
  have number : r.nextIndex.toNat = r.plan.bindings.size := UInt32.toNat_ofNat_of_lt' few
  have size : (r.addBinding binding).plan.bindings.size = r.plan.bindings.size + 1 :=
    Array.size_push _
  rw [Operand.WellFormed, number, size]
  exact Nat.lt_succ_self _

/-- A call that is resolved without an error comes to the value of the call, once its arguments have
come to theirs. -/
theorem resolveCall_simulates {r : Resolution} {meaning : String → Option Int32} {host : σ}
    {callee : Name} {args : List Expr} {span : Span} {lowered : List (Expr × Option Typed)}
    {typed : List Typed} (values : lowered.map (·.2) = typed.map some)
    (evaluated : Expr.evalAll perform meaning args host = some
      (typed.map fun value => value.1.value (r.evaluation perform start).values,
        (r.evaluation perform start).host))
    (accepted : (r.resolveCall callee lowered span).2.Accepted) :
    ∃ result, r.resolveCall callee lowered span = (some result, r) ∧
      r.Performs perform start result
        (Expr.eval perform meaning (.call callee args span) host) := by
  obtain ⟨op, named, called⟩ := resolveCall_accepted values accepted
  refine ⟨_, called, ?_⟩
  have outcome : Expr.eval perform meaning (.call callee args span) host = some (perform op
      (typed.map fun value => value.1.value (r.evaluation perform start).values)
      (r.evaluation perform start).host) := by
    rw [Expr.eval, named, evaluated]
    rfl
  rw [outcome]
  exact r.performs_call perform start op typed

mutual

/-- An expression that is resolved without an error has a value. The operand has the same one, and
the steps that are added leave the host in the same state. -/
theorem resolveOperand_simulates {r : Resolution} {p : Progress σ}
    (agree : Simulates perform inputs start r p) :
    (e : Expr) → (r.resolveOperand e).2.Accepted →
    ∃ operand kind, (r.resolveOperand e).1 = some (operand, kind) ∧
      operand.WellFormed (r.resolveOperand e).2.plan.bindings.size ∧
      e.eval perform (p.meaning inputs) p.host =
        some (operand.value ((r.resolveOperand e).2.evaluation perform start).values,
          ((r.resolveOperand e).2.evaluation perform start).host)
  | .number value span, _ => by
    simp only [resolveOperand]
    refine ⟨.number value, .number, rfl, trivial, ?_⟩
    rw [Expr.eval, agree.host]
    rfl
  | .name text span, accepted => by
    simp only [resolveOperand] at accepted ⊢
    obtain ⟨operand, kind, resolved, sound, means⟩ := resolveName_simulates agree accepted
    rw [resolved]
    refine ⟨operand, kind, rfl, sound, ?_⟩
    rw [Expr.eval, means, agree.host]
    rfl
  | .call callee args span, accepted => by
    have callAccepted : ((r.resolveOperands args).2.resolveCall callee
        (r.resolveOperands args).1 span).2.Accepted := by
      simp only [resolveOperand] at accepted
      split at accepted
      · rename_i called
        rw [called]
        exact accepted.of_grows (addBinding_extends _ _).grows
      · rename_i called
        rw [called]
        exact accepted
    have argsAccepted := callAccepted.of_grows (resolveCall_extends _ _ _ _).grows
    obtain ⟨typed, values, evaluated⟩ := resolveOperands_simulates agree args argsAccepted
    obtain ⟨result, called, performs⟩ := resolveCall_simulates values evaluated callAccepted
    simp only [resolveOperand, called]
    obtain ⟨word, results, outcome⟩ := performs ⟨none, .image, result, span⟩ rfl
    refine ⟨_, _, rfl, wellFormed_nextIndex argsAccepted.few _, ?_⟩
    rw [outcome, results, value_nextIndex argsAccepted.few]

/-- The same for the arguments of a call, from left to right. -/
theorem resolveOperands_simulates {r : Resolution} {p : Progress σ}
    (agree : Simulates perform inputs start r p) :
    (args : List Expr) → (r.resolveOperands args).2.Accepted →
    ∃ typed : List Typed, (r.resolveOperands args).1.map (·.2) = typed.map some ∧
      Expr.evalAll perform (p.meaning inputs) args p.host =
        some (typed.map fun value =>
          value.1.value ((r.resolveOperands args).2.evaluation perform start).values,
          ((r.resolveOperands args).2.evaluation perform start).host)
  | [], _ => by
    simp only [resolveOperands]
    refine ⟨[], rfl, ?_⟩
    rw [Expr.evalAll, agree.host]
    rfl
  | arg :: args, accepted => by
    simp only [resolveOperands] at accepted ⊢
    have more := resolveOperands_extends (r.resolveOperand arg).2 args
    obtain ⟨operand, kind, resolved, sound, evaluated⟩ :=
      resolveOperand_simulates agree arg (accepted.of_grows more.grows)
    obtain ⟨typed, values, evaluated'⟩ :=
      resolveOperands_simulates (agree.of_extends (r.resolveOperand_extends arg)) args accepted
    -- the steps of the later arguments leave the value of the first one
    have value := (more.grows.keeps perform start sound).2
    refine ⟨(operand, kind) :: typed, ?_, ?_⟩
    · rw [List.map_cons, List.map_cons, values, resolved]
    · have rest : Expr.evalAll perform (p.meaning inputs) args
          ((r.resolveOperand arg).2.evaluation perform start).host = _ := evaluated'
      rw [Expr.evalAll, evaluated]
      simp only [Option.bind_eq_bind, Option.bind_some, rest, List.map_cons, value]

end

/-- The value of a binding that is resolved without an error comes to that of its expression. -/
theorem resolveValue_simulates {r : Resolution} {p : Progress σ}
    (agree : Simulates perform inputs start r p) {e : Expr}
    (accepted : (r.resolveValue e).2.Accepted) :
    ∃ result kind, (r.resolveValue e).1 = some (result, kind) ∧
      (r.resolveValue e).2.Performs perform start result
        (e.eval perform (p.meaning inputs) p.host) := by
  cases e with
  | call callee args span =>
    simp only [resolveValue] at accepted ⊢
    have argsAccepted := accepted.of_grows (resolveCall_extends _ callee _ span).grows
    obtain ⟨typed, values, evaluated⟩ := resolveOperands_simulates agree args argsAccepted
    obtain ⟨result, called, performs⟩ := resolveCall_simulates values evaluated accepted
    rw [called]
    exact ⟨result, .image, rfl, performs⟩
  | number _ _ | name _ _ =>
    simp only [resolveValue] at accepted ⊢
    obtain ⟨operand, kind, resolved, _, evaluated⟩ := resolveOperand_simulates agree _ accepted
    rw [resolved, evaluated]
    exact ⟨_, kind, rfl, performs_copy _ perform start operand⟩

/-- An output that is resolved without an error has the value of its expression. -/
theorem resolveOutput_simulates {r : Resolution} {p : Progress σ}
    (agree : Simulates perform inputs start r p) (e : Expr)
    (accepted : (r.resolveOutput e).2.Accepted) :
    ∃ source, (r.resolveOutput e).1 = some source ∧
      source.WellFormed (r.resolveOutput e).2.plan.bindings.size ∧
      e.eval perform (p.meaning inputs) p.host =
        some (source.value ((r.resolveOutput e).2.evaluation perform start).values,
          ((r.resolveOutput e).2.evaluation perform start).host) := by
  unfold resolveOutput at accepted ⊢
  rcases resolved : r.resolveOperand e with ⟨found, after⟩
  have simulated := resolveOperand_simulates agree e
  rw [resolved] at accepted simulated
  match found with
  | none =>
    obtain ⟨operand, kind, found, _⟩ := simulated accepted
    cases found
  | some (operand, .number) => exact absurd accepted (not_accepted_report rfl)
  | some (operand, .image) =>
    obtain ⟨operand', kind, found, sound, evaluated⟩ := simulated accepted
    cases found
    exact ⟨operand, rfl, sound, evaluated⟩

/-! ## Statements -/

/-- A name that is bound to the value of a step stands for it. -/
theorem Simulates.define {r : Resolution} {p : Progress σ} {scope : Scope} {name : String}
    {operand : Operand} {kind : Kind} {symbol : Symbol} {span : Span}
    (agree : Simulates perform inputs start r p)
    (ok : r.scope.define name symbol span = .ok scope)
    (stands : symbol.operand? = some (operand, kind))
    (sound : operand.WellFormed r.plan.bindings.size) :
    Simulates perform inputs start { r with scope }
      { p with values :=
        (name, operand.value (r.evaluation perform start).values) :: p.values } := by
  refine ⟨agree.host, ?_, agree.channels, agree.textures, agree.channelSources,
    agree.textureSources⟩
  intro other symbol' found
  rw [Scope.lookup_define ok] at found
  by_cases same : other = name
  · rw [if_pos same] at found
    cases found
    refine ⟨operand, kind, stands, sound, ?_⟩
    simp [Progress.meaning, same, evaluation]
  · rw [if_neg same] at found
    obtain ⟨operand', kind', stands', sound', means⟩ := agree.names other symbol' found
    refine ⟨operand', kind', stands', sound', ?_⟩
    have differs : (other == name) = false := beq_false_of_ne same
    simp only [Progress.meaning, List.lookup_cons, differs]
    exact means

/-- A binding that is resolved without an error is followed. -/
theorem resolveBinding_simulates {r : Resolution} {p : Progress σ}
    (agree : Simulates perform inputs start r p) (target : Name) (value : Expr) (span : Span)
    (accepted : (r.resolveBinding target value span).Accepted) :
    ∃ p', p.follow perform inputs (.bind target value span) = some p' ∧
      Simulates perform inputs start (r.resolveBinding target value span) p' := by
  obtain ⟨symbol, after, added, defined⟩ := r.resolveBinding_cases target value span
  have grown : (r.resolveValue value).2.Grows after := by
    rcases added with ⟨_, _, _, _, rfl⟩ | ⟨_, _, rfl⟩
    · exact (addBinding_extends _ _).grows
    · exact .refl _
  rcases defined with ⟨scope, ok, resolved⟩ | ⟨conflict, _, resolved⟩
  · rw [resolved] at accepted ⊢
    have afterAccepted : after.Accepted := ⟨accepted.clean, accepted.few⟩
    have valueAccepted := afterAccepted.of_grows grown
    obtain ⟨result, kind, found, performs⟩ := resolveValue_simulates agree valueAccepted
    rcases added with ⟨result', kind', found', rfl, rfl⟩ | ⟨missing, _, _⟩
    · rw [found] at found'
      cases found'
      obtain ⟨word, values, outcome⟩ := performs ⟨some target.text, kind, result, span⟩ rfl
      have agree' := agree.of_extends ((r.resolveValue_extends value).trans
        (addBinding_extends _ ⟨some target.text, kind, result, span⟩))
      have bound := agree'.define ok rfl (wellFormed_nextIndex valueAccepted.few _)
      rw [values, value_nextIndex valueAccepted.few] at bound
      refine ⟨_, ?_, bound⟩
      rw [Progress.follow, outcome]
      rfl
    · rw [found] at missing
      cases missing
  · rw [resolved] at accepted
    cases conflict <;> exact absurd accepted (not_accepted_report rfl)

/-- The check of the material type says nothing about values. -/
theorem checkMaterial_simulates {r : Resolution} {p : Progress σ}
    (agree : Simulates perform inputs start r p) (channel materialType : Name) :
    Simulates perform inputs start (r.checkMaterial channel materialType) p := by
  unfold checkMaterial
  split
  · exact agree.report _
  · exact agree

/-- A channel is recorded with the value of its source. -/
theorem Simulates.addChannel {r : Resolution} {p : Progress σ}
    (agree : Simulates perform inputs start r p) (declared : DeclaredChannels)
    (output : ChannelOutput) (sound : output.source.WellFormed r.plan.bindings.size) :
    Simulates perform inputs start
      { r with channels := declared, plan.channels := r.plan.channels ++ #[output] }
      { p with channels := p.channels ++ [((output.material, output.channel),
          output.source.value (r.evaluation perform start).values)] } := by
  refine ⟨agree.host, agree.names, ?_, agree.textures, ?_, agree.textureSources⟩
  · simp [agree.channels, evaluation]
  · intro channel member
    simp only [Array.mem_append, List.mem_toArray, List.mem_singleton] at member
    rcases member with old | rfl
    · exact agree.channelSources channel old
    · exact sound

/-- A texture is recorded with the value of its source. -/
theorem Simulates.addTexture {r : Resolution} {p : Progress σ}
    (agree : Simulates perform inputs start r p) (output : TextureOutput)
    (sound : output.source.WellFormed r.plan.bindings.size) :
    Simulates perform inputs start { r with plan.textures := r.plan.textures ++ #[output] }
      { p with textures := p.textures ++ [(output.name,
          output.source.value (r.evaluation perform start).values)] } := by
  refine ⟨agree.host, agree.names, agree.channels, ?_, agree.channelSources, ?_⟩
  · simp [agree.textures, evaluation]
  · intro texture member
    simp only [Array.mem_append, List.mem_toArray, List.mem_singleton] at member
    rcases member with old | rfl
    · exact agree.textureSources texture old
    · exact sound

/-- A channel that is resolved without an error is followed. -/
theorem resolveChannel_simulates {r : Resolution} {p : Progress σ}
    (agree : Simulates perform inputs start r p) (material channel materialType : Name)
    (value : Expr) (span : Span)
    (accepted : (r.resolveChannel material channel materialType value span).Accepted) :
    ∃ p', p.follow perform inputs (.channel material channel materialType value span) = some p' ∧
      Simulates perform inputs start (r.resolveChannel material channel materialType value span)
        p' := by
  obtain ⟨source, after, output, outcome⟩ :=
    r.resolveChannel_cases material channel materialType value span
  have checked := checkMaterial_simulates agree channel materialType
  have simulated := resolveOutput_simulates checked value
  have agree' := checked.of_extends (resolveOutput_extends _ value)
  rw [output] at simulated agree'
  rcases outcome with ⟨first, _, resolved⟩ | ⟨_, resolved⟩
  · rw [resolved] at accepted
    exact absurd accepted (not_accepted_report rfl)
  · rw [resolved] at accepted ⊢
    obtain ⟨operand, found, sound, evaluated⟩ := simulated ⟨accepted.clean, accepted.few⟩
    have found : source = some operand := found
    subst found
    simp only [Option.toArray_some, List.map_toArray, List.map_cons, List.map_nil]
    refine ⟨_, ?_, agree'.addChannel _ ⟨material.text, channel.text, _, operand⟩ sound⟩
    rw [Progress.follow, evaluated]
    rfl

/-- A texture that is resolved without an error is recorded. -/
theorem resolveExport_simulates {r : Resolution} {p : Progress σ}
    (agree : Simulates perform inputs start r p) (name : Name)
    (accepted : (r.resolveExport name).Accepted) :
    ∃ p', p.recordTexture inputs name = some p' ∧
      Simulates perform inputs start (r.resolveExport name) p' := by
  rcases r.resolveExport_cases name with ⟨first, _, resolved⟩ | ⟨_, source, after, output, resolved⟩
  · rw [resolved] at accepted
    exact absurd accepted (not_accepted_report rfl)
  · have exported : Simulates perform inputs start
        { r with textures := r.textures.insert name.text name.span } p :=
      ⟨agree.host, agree.names, agree.channels, agree.textures, agree.channelSources,
        agree.textureSources⟩
    have simulated := resolveOutput_simulates exported (.name name.text name.span)
    have agree' := exported.of_extends (resolveOutput_extends _ (.name name.text name.span))
    rw [output] at simulated agree'
    rw [resolved] at accepted ⊢
    obtain ⟨operand, found, sound, evaluated⟩ := simulated ⟨accepted.clean, accepted.few⟩
    have found : source = some operand := found
    subst found
    -- a name is evaluated without a call, so the host stays
    rw [Expr.eval, Option.map_eq_some_iff] at evaluated
    obtain ⟨word, means, same⟩ := evaluated
    obtain ⟨rfl, host⟩ := Prod.mk.inj same
    rw [← host] at agree'
    simp only [Option.toArray_some, List.map_toArray, List.map_cons, List.map_nil]
    refine ⟨_, ?_, agree'.addTexture ⟨name.text, operand⟩ sound⟩
    rw [Progress.recordTexture, means]
    rfl

/-- A walk whose steps are followed one by one is followed. -/
theorem Simulates.foldl {α : Type} {step : Resolution → α → Resolution}
    {follow : Progress σ → α → Option (Progress σ)}
    (grows : ∀ (r : Resolution) (item : α), r.Grows (step r item))
    (follows : ∀ {r : Resolution} {p : Progress σ}, Simulates perform inputs start r p →
      ∀ item, (step r item).Accepted →
        ∃ p', follow p item = some p' ∧ Simulates perform inputs start (step r item) p')
    (items : List α) {r : Resolution} {p : Progress σ}
    (agree : Simulates perform inputs start r p) (accepted : (items.foldl step r).Accepted) :
    ∃ p', items.foldlM follow p = some p' ∧
      Simulates perform inputs start (items.foldl step r) p' := by
  induction items generalizing r p with
  | nil => exact ⟨p, rfl, agree⟩
  | cons item items ih =>
    have first : (step r item).Accepted := accepted.of_grows (Grows.foldl grows items _)
    obtain ⟨next, followed, agree'⟩ := follows agree item first
    obtain ⟨final, rest, agree''⟩ := ih agree' accepted
    refine ⟨final, ?_, agree''⟩
    rw [List.foldlM_cons, followed]
    exact rest

/-- A statement that is resolved without an error is followed. -/
theorem resolveStatement_simulates {r : Resolution} {p : Progress σ}
    (agree : Simulates perform inputs start r p) (statement : Statement)
    (accepted : (r.resolveStatement statement).Accepted) :
    ∃ p', p.follow perform inputs statement = some p' ∧
      Simulates perform inputs start (r.resolveStatement statement) p' := by
  cases statement with
  | bind target value span => exact resolveBinding_simulates agree target value span accepted
  | channel material channel materialType value span =>
    exact resolveChannel_simulates agree material channel materialType value span accepted
  | exports names span =>
    exact Simulates.foldl resolveExport_grows resolveExport_simulates names agree accepted

/-! ## Scripts -/

/-- Before the first statement, the inputs have a meaning and nothing is recorded. -/
theorem simulates_start (perform : Wasm.Host σ) (start : σ) {inputs : List InputImage}
    (distinct : (inputs.map (·.name)).Nodup) :
    Simulates perform inputs start { scope := .ofInputs inputs } { host := start } where
  host := rfl
  names := by
    intro name symbol found
    have found : (Scope.ofInputs inputs).lookup name = some symbol := found
    rw [Scope.lookup_ofInputs distinct, Option.map_eq_some_iff] at found
    obtain ⟨input, listed, rfl⟩ := found
    refine ⟨.input input.handle, .image, rfl, trivial, ?_⟩
    simp only [Progress.meaning, listed]
    rfl
  channels := rfl
  textures := rfl
  channelSources := by simp
  textureSources := by simp

end Resolution

/-- A script that is resolved without an error can be followed to its end, and the evaluation of its
plan agrees with that. -/
theorem Script.interpret_of_resolve {σ : Type} (script : Script) {inputs : List InputImage}
    (distinct : (inputs.map (·.name)).Nodup) (accepted : (script.resolve inputs).Accepted)
    (perform : Wasm.Host σ) (start : σ) :
    ∃ final, script.interpret perform inputs start = some final ∧
      Resolution.Simulates perform inputs start (script.resolve inputs) final :=
  Resolution.Simulates.foldl Resolution.resolveStatement_grows
    Resolution.resolveStatement_simulates script.statements
    (Resolution.simulates_start perform start distinct) accepted

end TextureScript
