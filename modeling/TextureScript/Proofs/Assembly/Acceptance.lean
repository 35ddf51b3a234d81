import TextureScript.Assembly

/-!
# Which plans are assembled

A plan is assembled when its outputs and its steps are not too many, every call has as many
arguments as its operation takes, and every operand that refers to a step refers to one that exists,
before or after it. What comes of such a plan depends on nothing else.
-/

namespace TextureScript

open Assembly

/-- An operand is well formed among a number of steps when the step it refers to exists. -/
def Operand.WellFormed (steps : Nat) : Operand → Prop
  | result index => index.toNat < steps
  | _ => True

/-- A value is well formed when its operands are, and a call has the right number of them. -/
def Value.WellFormed (steps : Nat) : Value → Prop
  | call operation args => args.length = operation.arity ∧ ∀ arg ∈ args, arg.WellFormed steps
  | copy operand => operand.WellFormed steps

instance (steps : Nat) : (operand : Operand) → Decidable (operand.WellFormed steps)
  | .result index => inferInstanceAs (Decidable (index.toNat < steps))
  | .input _ => inferInstanceAs (Decidable True)
  | .number _ => inferInstanceAs (Decidable True)

instance (steps : Nat) : (value : Value) → Decidable (value.WellFormed steps)
  | .call operation args => inferInstanceAs
      (Decidable (args.length = operation.arity ∧ ∀ arg ∈ args, arg.WellFormed steps))
  | .copy operand => inferInstanceAs (Decidable (operand.WellFormed steps))

theorem Operand.fault?_eq_none {steps : Nat} {operand : Operand} :
    operand.fault? steps = none ↔ operand.WellFormed steps := by
  cases operand with
  | input handle => simp [fault?, WellFormed]
  | result index => simp [fault?, WellFormed]
  | number value => simp [fault?, WellFormed]

theorem Value.fault?_eq_none {steps : Nat} {value : Value} :
    value.fault? steps = none ↔ value.WellFormed steps := by
  cases value with
  | call operation args =>
    by_cases right : args.length = operation.arity
    · simp [fault?, WellFormed, right, Operand.fault?_eq_none]
    · simp [fault?, WellFormed, right]
  | copy operand => exact Operand.fault?_eq_none

namespace Plan

/-- What assembling asks of a plan. -/
structure Assembles (plan : Plan) : Prop where
  /-- Every output has a slot in the memory. -/
  slots : plan.slotCount ≤ maxSlots
  /-- Every step has a local. -/
  steps : plan.bindings.size ≤ Wasm.maxLocals
  /-- The values of the steps are well formed. -/
  values : ∀ binding ∈ plan.bindings.toList, binding.value.WellFormed plan.bindings.size
  /-- The outputs are well formed. -/
  outputs : ∀ operand ∈ plan.outputs, operand.WellFormed plan.bindings.size

/-- What comes of a plan that is assembled. -/
def compiledModule (plan : Plan) : CompiledModule where
  wasm := plan.module.encode.toByteArray
  materialSlots := plan.materialSlots
  textureSlots := plan.textureSlots
  digest := Sha256.hexDigest plan.module.encode.toByteArray

theorem fault?_eq_none {plan : Plan} :
    plan.fault? = none ↔
      (∀ binding ∈ plan.bindings.toList, binding.value.WellFormed plan.bindings.size) ∧
        ∀ operand ∈ plan.outputs, operand.WellFormed plan.bindings.size := by
  simp only [fault?, Option.or_eq_none_iff, List.findSome?_eq_none_iff, Value.fault?_eq_none,
    Operand.fault?_eq_none]

/-- A plan is assembled exactly when it meets the conditions, and then into its module. -/
theorem assemble_eq_ok {plan : Plan} {compiled : CompiledModule} :
    plan.assemble = .ok compiled ↔ plan.Assembles ∧ compiled = plan.compiledModule := by
  have localsBelow : Wasm.maxLocals < UInt32.size := by decide
  unfold assemble
  constructor
  · intro assembled
    split at assembled
    · cases assembled
    rename_i fewSlots
    split at assembled
    · cases assembled
    split at assembled
    · cases assembled
    rename_i sound
    split at assembled
    · cases assembled
    rename_i fewSteps
    obtain ⟨values, outputs⟩ := fault?_eq_none.mp sound
    exact ⟨⟨Nat.le_of_not_lt fewSlots, Nat.le_of_not_lt fewSteps, values, outputs⟩,
      (Except.ok.inj assembled).symm⟩
  · rintro ⟨⟨slots, steps, values, outputs⟩, rfl⟩
    rw [if_neg (Nat.not_lt.mpr slots), if_neg (by omega), fault?_eq_none.mpr ⟨values, outputs⟩]
    simp only [if_neg (Nat.not_lt.mpr steps)]
    rfl

namespace Assembles

/-- There are fewer steps than an index can tell apart. -/
theorem steps_lt {plan : Plan} (accepted : plan.Assembles) : plan.bindings.size < UInt32.size :=
  Nat.lt_of_le_of_lt accepted.steps (by decide)

/-- The slots of an assembled plan end below the end of the largest memory. -/
theorem slot_le {plan : Plan} (accepted : plan.Assembles) {index : Nat}
    (inside : index < plan.slotCount) : 4 * index + 4 ≤ 1048576 := by
  have slots : plan.slotCount ≤ 262144 := accepted.slots
  omega

/-- The address of a slot is four times its number. -/
theorem slotOffset_toNat {plan : Plan} (accepted : plan.Assembles) {index : Nat}
    (inside : index < plan.slotCount) : (slotOffset index).toNat = 4 * index := by
  have below := accepted.slot_le inside
  exact UInt32.toNat_ofNat_of_lt' (Nat.lt_of_lt_of_le (m := 1048576) (by unfold slotSize; omega)
    (by decide))

end Assembles

end Plan

end TextureScript
