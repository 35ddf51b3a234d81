import TextureScript.Proofs.Assembly.Determination
import TextureScript.Proofs.Plan.Variation

/-!
# Assembling does not look at names

The names and places of steps are not part of a module, and the names of textures stand in its
slots only. So plans that a variation relates are assembled alike: both are refused for the same
reason, or both become the same bytes, and the slots of the second call textures by their new names.
-/

namespace TextureScript

/-- A compiled script whose textures are found under new names. -/
def CompiledModule.renamed (rename : String → String) (compiled : CompiledModule) :
    CompiledModule :=
  { compiled with
    textureSlots := compiled.textureSlots.map fun slot => { slot with name := rename slot.name } }

theorem CompiledModule.renamed_id (compiled : CompiledModule) : compiled.renamed id = compiled := by
  simp [renamed]

namespace Plan.Varies

variable {v : Variation} {plan other : Plan}

/-- The steps of both plans have the same values. -/
theorem values (varies : plan.Varies v other) :
    other.bindings.toList.map (·.value) = plan.bindings.toList.map (·.value) := by
  rw [eq_comm, ← List.forall₂_eq_eq_eq, List.forall₂_map_left_iff, List.forall₂_map_right_iff]
  exact varies.bindings.imp fun _ _ same => same.value.symm

theorem steps (varies : plan.Varies v other) : other.bindings.size = plan.bindings.size := by
  have lengths := varies.bindings.length_eq
  rwa [Array.length_toList, Array.length_toList, eq_comm] at lengths

theorem slotCount (varies : plan.Varies v other) : other.slotCount = plan.slotCount := by
  simp only [Plan.slotCount, varies.channels, varies.textures, Array.size_map]

theorem outputs (varies : plan.Varies v other) : other.outputs = plan.outputs := by
  simp only [Plan.outputs, varies.channels, varies.textures, Array.toList_map, List.map_map]
  rfl

theorem fault? (varies : plan.Varies v other) : other.fault? = plan.fault? := by
  have faults := congrArg (List.findSome? (Value.fault? plan.bindings.size)) varies.values
  simp only [List.findSome?_map] at faults
  simp only [Plan.fault?, varies.steps, varies.outputs]
  exact congrArg (Option.or · _) faults

/-- The code of a step is that of its value. -/
theorem code (varies : plan.Varies v other) : other.code = plan.code := by
  have steps : other.bindings.toList.mapIdx bindingCode = plan.bindings.toList.mapIdx bindingCode :=
    mapIdx_of_map (fun _ _ _ same => by rw [bindingCode, bindingCode, same]) varies.values
  rw [Plan.code, Plan.code, steps, varies.outputs]

theorem body (varies : plan.Varies v other) : other.body = plan.body := by
  have empty : other.bindings.isEmpty = plan.bindings.isEmpty := by
    rw [Array.isEmpty, Array.isEmpty, varies.steps]
  rw [Plan.body, Plan.body, empty, varies.steps, varies.code]

theorem module (varies : plan.Varies v other) : other.module = plan.module := by
  simp only [Plan.module, varies.body, varies.slotCount]

theorem localsOffset (varies : plan.Varies v other) : other.localsOffset = plan.localsOffset := by
  simp only [Plan.localsOffset, varies.body, varies.module]

theorem materialSlots (varies : plan.Varies v other) :
    other.materialSlots = plan.materialSlots := by
  rw [Plan.materialSlots, Plan.materialSlots, varies.channels]

theorem textureSlots (varies : plan.Varies v other) :
    other.textureSlots =
      plan.textureSlots.map fun slot => { slot with name := v.rename slot.name } := by
  apply Array.ext_getElem?
  intro index
  simp only [Plan.textureSlots, varies.channels, varies.textures, Array.getElem?_mapIdx,
    Array.getElem?_map, Option.map_map]
  rfl

/-- Plans that a variation relates are assembled alike. -/
theorem assemble (varies : plan.Varies v other) :
    other.assemble = plan.assemble.map (CompiledModule.renamed v.rename) := by
  simp only [Plan.assemble, varies.slotCount, varies.steps, varies.fault?, varies.localsOffset,
    varies.module, varies.materialSlots, varies.textureSlots]
  split
  · rfl
  split
  · rfl
  split
  · rfl
  split
  · rfl
  · simp only [Except.map, CompiledModule.renamed]

end Plan.Varies

end TextureScript
