import TextureScript.Plan
import TextureScript.Wasm.Machine

/-!
# What a plan means

The steps of a plan are evaluated in order, each with the values of the steps before it at hand. A
step that has not been evaluated yet counts as zero. The host performs the calls; which calls those
are is part of the meaning, so a host that writes them down shows that no others are made.
-/

namespace TextureScript

/-- The value of an operand, given the values of the steps so far. -/
def Operand.value (values : List Int32) : Operand → Int32
  | input handle => handle.toWire
  | result index => values.getD index.toNat 0
  | number value => value

/-- The operation that a step calls, if it calls one. -/
def Binding.operation? (binding : Binding) : Option Operation :=
  match binding.value with
  | .call operation _ => some operation
  | .copy _ => none

/-- How far the evaluation of a plan has come. -/
structure Evaluation (σ : Type) where
  /-- The values of the steps so far. -/
  values : List Int32 := []
  /-- The calls so far, with the values of their arguments. -/
  calls : List (Operation × List Int32) := []
  /-- The state of the host. -/
  host : σ

/-- Evaluate a step. -/
def Evaluation.step {σ : Type} (perform : Wasm.Host σ) (e : Evaluation σ) (binding : Binding) :
    Evaluation σ :=
  match binding.value with
  | .copy operand => { e with values := e.values ++ [operand.value e.values] }
  | .call operation args =>
    let words := args.map (Operand.value e.values)
    let answer := perform operation words e.host
    ⟨e.values ++ [answer.1], e.calls ++ [(operation, words)], answer.2⟩

/-- Evaluate some steps, one after the other. -/
def Evaluation.run {σ : Type} (perform : Wasm.Host σ) (e : Evaluation σ)
    (bindings : List Binding) : Evaluation σ :=
  bindings.foldl (step perform) e

/-- Evaluate a plan. -/
def Plan.evaluate {σ : Type} (plan : Plan) (perform : Wasm.Host σ) (host : σ) : Evaluation σ :=
  .run perform { host } plan.bindings.toList

/-- A host that also writes down the calls that are made of it. -/
def Wasm.Host.recorded {σ : Type} (perform : Wasm.Host σ) :
    Wasm.Host (σ × List (Operation × List Int32)) :=
  fun operation args state =>
    let answer := perform operation args state.1
    (answer.1, answer.2, state.2 ++ [(operation, args)])

namespace Evaluation

variable {σ : Type} (perform : Wasm.Host σ)

theorem run_append (e : Evaluation σ) (first second : List Binding) :
    e.run perform (first ++ second) = (e.run perform first).run perform second :=
  List.foldl_append

theorem run_concat (e : Evaluation σ) (bindings : List Binding) (binding : Binding) :
    e.run perform (bindings ++ [binding]) = (e.run perform bindings).step perform binding := by
  rw [run_append]
  rfl

/-- Every step adds one value. -/
theorem values_step (e : Evaluation σ) (binding : Binding) :
    ∃ value, (e.step perform binding).values = e.values ++ [value] := by
  unfold step
  split
  · exact ⟨_, rfl⟩
  · exact ⟨_, rfl⟩

theorem length_values_step (e : Evaluation σ) (binding : Binding) :
    (e.step perform binding).values.length = e.values.length + 1 := by
  obtain ⟨value, values⟩ := e.values_step perform binding
  rw [values, List.length_append, List.length_singleton]

theorem length_values_run (e : Evaluation σ) (bindings : List Binding) :
    (e.run perform bindings).values.length = e.values.length + bindings.length := by
  induction bindings generalizing e with
  | nil => rfl
  | cons binding bindings ih =>
    have step := e.length_values_step perform binding
    have rest := ih (e.step perform binding)
    rw [List.length_cons]
    change ((e.step perform binding).run perform bindings).values.length = _
    omega

/-- Steps add values at the end. -/
theorem values_run (e : Evaluation σ) (bindings : List Binding) :
    e.values <+: (e.run perform bindings).values := by
  induction bindings generalizing e with
  | nil => exact List.prefix_refl _
  | cons binding bindings ih =>
    obtain ⟨value, values⟩ := e.values_step perform binding
    have first : e.values <+: (e.step perform binding).values := by
      rw [values]
      exact List.prefix_append _ _
    exact first.trans (ih _)

/-- A step adds the call of its operation, if it has one. -/
theorem operations_step (e : Evaluation σ) (binding : Binding) :
    (e.step perform binding).calls.map (·.1) =
      e.calls.map (·.1) ++ binding.operation?.toList := by
  unfold step Binding.operation?
  split <;> simp [*]

/-- Every call is made once, in the order of the steps. -/
theorem operations_run (e : Evaluation σ) (bindings : List Binding) :
    (e.run perform bindings).calls.map (·.1) =
      e.calls.map (·.1) ++ bindings.filterMap Binding.operation? := by
  induction bindings generalizing e with
  | nil => simp [run]
  | cons binding bindings ih =>
    have rest := ih (e.step perform binding)
    rw [operations_step, List.append_assoc] at rest
    change ((e.step perform binding).run perform bindings).calls.map (·.1) = _
    rw [rest, List.filterMap_cons]
    cases binding.operation? <;> rfl

/-- A host that writes down the calls sees those of the evaluation. -/
def recorded (e : Evaluation σ) : Evaluation (σ × List (Operation × List Int32)) :=
  ⟨e.values, e.calls, (e.host, e.calls)⟩

theorem step_recorded (e : Evaluation σ) (binding : Binding) :
    e.recorded.step perform.recorded binding = (e.step perform binding).recorded := by
  unfold step
  split <;> rfl

theorem run_recorded (e : Evaluation σ) (bindings : List Binding) :
    e.recorded.run perform.recorded bindings = (e.run perform bindings).recorded := by
  induction bindings generalizing e with
  | nil => rfl
  | cons binding bindings ih =>
    change (e.recorded.step perform.recorded binding).run perform.recorded bindings = _
    rw [step_recorded, ih]
    rfl

end Evaluation

end TextureScript
