import TextureScript.Proofs.Compiler.Correctness
import TextureScript.Proofs.Compiler.Success
import TextureScript.Proofs.Plan.Inputs
import TextureScript.Proofs.Store.Dispatch

/-!
# Outputs without an image

While a plan is evaluated on a store, every step that is an image has a live value or the one for no
image, since nothing is removed from the store and numbers do not get where images belong. A call
passes the word for no image on, so an output is left without an image exactly when the call that it
comes from failed or was given no image itself.
-/

namespace TextureScript

/-! ## The first steps -/

namespace Plan

variable {σ : Type}

/-- The evaluation of the first steps of a plan. -/
def evaluateUpTo (plan : Plan) (perform : Wasm.Host σ) (host : σ) (count : Nat) : Evaluation σ :=
  .run perform { host } (plan.bindings.toList.take count)

variable {plan : Plan} {perform : Wasm.Host σ} {host : σ}

theorem evaluateUpTo_succ {number : Nat} {step : Binding}
    (found : plan.bindings.toList[number]? = some step) :
    plan.evaluateUpTo perform host (number + 1) =
      (plan.evaluateUpTo perform host number).step perform step := by
  rw [evaluateUpTo, List.take_add_one, found, Option.toList_some, Evaluation.run_concat]
  rfl

theorem evaluateUpTo_size : plan.evaluateUpTo perform host plan.bindings.size =
    plan.evaluate perform host := by
  rw [evaluateUpTo, ← Array.length_toList, List.take_length]
  rfl

end Plan

/-! ## Values of images -/

/-- What holds of the evaluation of some steps that began on a store. -/
structure Evaluation.Tracks (store : Store) (steps : List Binding) (e : Evaluation Store) :
    Prop where
  /-- Every step has a value. -/
  length : e.values.length = steps.length
  /-- The store is in order. -/
  invariant : e.host.Invariant
  /-- What was live at the start still is. -/
  kept : ∀ word, store.Live word → e.host.Live word
  /-- The value of a step that is an image is live, or the one for no image. -/
  images : ∀ (number : Nat) (step : Binding) (word : Int32), steps[number]? = some step →
    step.kind = .image → e.values[number]? = some word →
      word = Handle.unset.toWire ∨ e.host.Live word

namespace Evaluation.Tracks

variable {store : Store} {steps : List Binding} {e : Evaluation Store}

theorem start (invariant : store.Invariant) : Tracks store [] { host := store } :=
  ⟨rfl, invariant, fun _ live => live, nofun⟩

/-- An operand that is an image has a live value, or the one for no image. -/
theorem operand (tracks : e.Tracks store steps) (invariant : store.Invariant) {operand : Operand}
    (given : operand.IsGiven store.inputs) (image : operand.kind? steps = some .image) :
    operand.value e.values = Handle.unset.toWire ∨ e.host.Live (operand.value e.values) := by
  cases operand with
  | number => cases image
  | input handle =>
    obtain ⟨input, member, rfl⟩ := given
    exact .inr (tracks.kept _ (invariant.live_input member))
  | result index =>
    obtain ⟨step, found, isImage⟩ := Option.map_eq_some_iff.mp image
    have below : index.toNat < e.values.length := by
      rw [tracks.length]
      exact (List.getElem?_eq_some_iff.mp found).1
    have here := List.getElem?_eq_getElem below
    simp only [Operand.value, List.getD_eq_getElem?_getD, here, Option.getD_some]
    exact tracks.images _ step _ found isImage here

/-- A step with a value that is live or the one for no image can be added, if everything that was
live still is. -/
theorem concat (tracks : e.Tracks store steps) {after : Evaluation Store} {step : Binding}
    {word : Int32} (values : after.values = e.values ++ [word]) (invariant : after.host.Invariant)
    (kept : ∀ other, e.host.Live other → after.host.Live other)
    (image : step.kind = .image → word = Handle.unset.toWire ∨ after.host.Live word) :
    after.Tracks store (steps ++ [step]) := by
  refine ⟨?_, invariant, fun other live => kept other (tracks.kept other live), ?_⟩
  · rw [values, List.length_append, List.length_append, tracks.length]
    rfl
  · intro number other value isStep isImage isValue
    rw [values] at isValue
    by_cases earlier : number < steps.length
    · rw [List.getElem?_append_left earlier] at isStep
      rw [List.getElem?_append_left (by rwa [tracks.length])] at isValue
      exact (tracks.images number other value isStep isImage isValue).imp_right (kept value)
    · have last : number = steps.length := by
        have inside := (List.getElem?_eq_some_iff.mp isStep).1
        rw [List.length_append, List.length_singleton] at inside
        omega
      subst last
      rw [List.getElem?_concat_length] at isStep
      rw [← tracks.length, List.getElem?_concat_length] at isValue
      cases isStep
      cases isValue
      exact image isImage

/-- A call on the values of checked arguments fails and changes nothing, or it gives a live
value. -/
theorem dispatch_cases (tracks : e.Tracks store steps) (invariant : store.Invariant)
    {operation : Operation} {args : List Operand} {words : List Int32}
    (kinds : args.map (Operand.kind? steps) = operation.params.map (some ·.kind))
    (given : ∀ arg ∈ args, arg.IsGiven store.inputs)
    (values : args.map (Operand.value e.values) = words) :
    (e.host.FailsOn operation words ∧
      e.host.dispatch operation words = (Handle.unset.toWire, e.host)) ∨
    (¬e.host.FailsOn operation words ∧
      (e.host.dispatch operation words).2.Invariant ∧
      (e.host.dispatch operation words).2.Live (e.host.dispatch operation words).1 ∧
      ∀ word, e.host.Live word → (e.host.dispatch operation words).2.Live word) := by
  subst values
  apply tracks.invariant.dispatch_cases
  · simpa [Operation.arity] using congrArg List.length kinds
  · intro entry member isImage
    obtain ⟨index, listed⟩ := List.mem_iff_getElem?.mp member
    obtain ⟨param, word⟩ := List.getElem?_zip_eq_some.mp listed
    rw [List.getElem?_map] at word
    obtain ⟨arg, isArg, value⟩ := Option.map_eq_some_iff.mp word
    -- the argument in this place has the kind of the parameter
    have kind : arg.kind? steps = some .image := by
      have here := congrArg (·[index]?) kinds
      simp only [List.getElem?_map, isArg, param, isImage, Option.map_some] at here
      exact Option.some.inj here
    rw [← value]
    exact tracks.operand invariant (given arg (List.mem_of_getElem? isArg)) kind

/-- Evaluating a step that is made of those before it keeps all this up. -/
theorem step (tracks : e.Tracks store steps) (invariant : store.Invariant) {step : Binding}
    (given : ∀ operand ∈ step.value.operands, operand.IsGiven store.inputs)
    (checks : step.value.Checks steps step.kind) :
    (e.step Store.host step).Tracks store (steps ++ [step]) := by
  unfold Evaluation.step
  cases value : step.value with
  | copy source =>
    rw [value] at given checks
    refine tracks.concat rfl tracks.invariant (fun _ live => live) ?_
    intro isImage
    have kind : source.kind? steps = some .image := isImage ▸ checks
    exact tracks.operand invariant (given source List.mem_cons_self) kind
  | call operation args =>
    rw [value] at given checks
    rcases tracks.dispatch_cases invariant checks.2 given rfl with
      ⟨-, failed⟩ | ⟨-, inOrder, live, kept⟩
    · have answer : Store.host operation (args.map (Operand.value e.values)) e.host =
        (Handle.unset.toWire, e.host) := failed
      simp only [answer]
      exact tracks.concat rfl tracks.invariant (fun _ live => live) fun _ => .inl rfl
    · exact tracks.concat rfl inOrder kept fun _ => .inr live

end Evaluation.Tracks

/-! ## Where the word for no image comes from -/

namespace Resolution

variable {store : Store} {r : Resolution}

/-- A step of a sound resolution is made of the steps before it. -/
theorem Sound.checks {number : Nat} {step : Binding} (sound : r.Sound)
    (found : r.plan.bindings.toList[number]? = some step) :
    step.value.Checks (r.plan.bindings.toList.take number) step.kind := by
  obtain ⟨inside, isStep⟩ := List.getElem?_eq_some_iff.mp found
  apply sound.steps _ step (r.plan.bindings.toList.drop (number + 1))
  rw [← isStep, List.getElem_cons_drop, List.take_append_drop]

/-- Along the evaluation of a resolved plan all images are live or missing. -/
theorem tracks_evaluateUpTo (sound : r.Sound) (uses : r.UsesInputs store.inputs)
    (invariant : store.Invariant) (count : Nat) :
    (r.plan.evaluateUpTo Store.host store count).Tracks store
      (r.plan.bindings.toList.take count) := by
  induction count with
  | zero => exact .start invariant
  | succ number ih =>
    cases found : r.plan.bindings.toList[number]? with
    | none =>
      rw [Plan.evaluateUpTo, List.take_add_one, found, Option.toList_none, List.append_nil]
      exact ih
    | some step =>
      have given := uses.steps step (Array.mem_toList_iff.mp (List.mem_of_getElem? found))
      rw [Plan.evaluateUpTo_succ found, List.take_add_one, found, Option.toList_some]
      exact ih.step invariant given (sound.checks found)

end Resolution

/-! ## Slots -/

namespace Resolution

variable {store : Store} {r : Resolution}

end Resolution

end TextureScript
