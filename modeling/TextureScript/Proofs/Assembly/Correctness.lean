import TextureScript.Proofs.Assembly.Simulation

/-!
# Assembled plans run as they mean

Whatever a plan says and however the host answers, the bytes that the plan is assembled to run to
their end on every machine that has room for them. The host is called as the evaluation of the plan
says, the slots hold the values of the outputs, and nothing else is written.
-/

namespace TextureScript

open Assembly

/-- The slots of a compiled plan hold the values of its outputs, and the rest of the memory is
zero. -/
structure Evaluation.Stored {σ : Type} (e : Evaluation σ) (plan : Plan) (compiled : CompiledModule)
    (memory : Wasm.Memory) : Prop where
  /-- Each channel has a slot with its description, which holds its value. -/
  channels :
    (compiled.materialSlots.toList.map fun slot =>
      (slot.material, slot.channel, slot.materialType, memory.bytesAt slot.offset.toNat 4)) =
    plan.channels.toList.map fun output =>
      (output.material, output.channel, output.materialType,
        Wasm.wordBytes (output.source.value e.values))
  /-- Each texture has a slot with its name, which holds its value. -/
  textures :
    (compiled.textureSlots.toList.map fun slot =>
      (slot.name, memory.bytesAt slot.offset.toNat 4)) =
    plan.textures.toList.map fun output =>
      (output.name, Wasm.wordBytes (output.source.value e.values))
  /-- The slots of channels lie in the memory. -/
  channelsInside : ∀ slot ∈ compiled.materialSlots.toList, slot.offset.toNat + 4 ≤ memory.size
  /-- The slots of textures lie in the memory. -/
  texturesInside : ∀ slot ∈ compiled.textureSlots.toList, slot.offset.toNat + 4 ≤ memory.size
  /-- A byte outside of all slots is zero. -/
  elsewhere : ∀ address,
    (∀ slot ∈ compiled.materialSlots.toList,
      address < slot.offset.toNat ∨ slot.offset.toNat + 4 ≤ address) →
    (∀ slot ∈ compiled.textureSlots.toList,
      address < slot.offset.toNat ∨ slot.offset.toNat + 4 ≤ address) →
    memory.get address = 0

namespace Plan

variable {σ : Type} {plan : Plan}

theorem size_finalMemory (plan : Plan) (e : Evaluation σ) :
    (plan.finalMemory e).size = pagesForSlots plan.slotCount * Wasm.pageSize := by
  rw [finalMemory, Wasm.Memory.size_writeWords, size_initialMemory]

/-- The slot of an output holds its value. -/
theorem bytesAt_finalMemory (e : Evaluation σ) {index : Nat} {source : Operand}
    (listed : plan.outputs[index]? = some source) :
    (plan.finalMemory e).bytesAt (4 * index) 4 = Wasm.wordBytes (source.value e.values) := by
  have word : (plan.outputs.map (Operand.value e.values))[index]? =
      some (source.value e.values) := by
    rw [List.getElem?_map, listed]
    rfl
  have stored := plan.initialMemory.bytesAt_writeWords 0 word
  rw [Nat.zero_add] at stored
  exact stored

/-- The memory after the slots stays zero. -/
theorem get_finalMemory_of_le (e : Evaluation σ) {address : Nat}
    (after : 4 * plan.slotCount ≤ address) : (plan.finalMemory e).get address = 0 := by
  have outside : address < 4 * 0 ∨
      4 * (0 + (plan.outputs.map (Operand.value e.values)).length) ≤ address := by
    rw [List.length_map, length_outputs]
    omega
  have blank : (⟨pagesForSlots plan.slotCount * Wasm.pageSize, .empty⟩ : Wasm.Memory).get address =
    0 := rfl
  rw [finalMemory, Wasm.Memory.get_writeWords_of_outside _ outside, initialMemory,
    Wasm.Memory.get_write, length_slotData, if_neg (by omega), blank]

theorem getElem?_outputs_of_channel {index : Nat} {output : ChannelOutput}
    (listed : plan.channels.toList[index]? = some output) :
    plan.outputs[index]? = some output.source := by
  have below : index < plan.channels.toList.length := (List.getElem?_eq_some_iff.mp listed).1
  rw [outputs, List.getElem?_append_left (by simpa using below), List.getElem?_map, listed]
  rfl

theorem getElem?_outputs_of_texture {index : Nat} {output : TextureOutput}
    (listed : plan.textures.toList[index]? = some output) :
    plan.outputs[plan.channels.size + index]? = some output.source := by
  rw [outputs, List.getElem?_append_right (by simp), List.getElem?_map]
  simp [listed]

theorem mem_materialSlots {slot : MaterialSlot} :
    slot ∈ plan.materialSlots.toList ↔ ∃ index output, plan.channels.toList[index]? = some output ∧
      ⟨slotOffset index, output.material, output.channel, output.materialType⟩ = slot := by
  rw [materialSlots, Array.toList_mapIdx, List.mem_mapIdx]
  constructor
  · rintro ⟨index, below, same⟩
    exact ⟨index, _, List.getElem?_eq_getElem below, same⟩
  · rintro ⟨index, output, listed, same⟩
    obtain ⟨below, rfl⟩ := List.getElem?_eq_some_iff.mp listed
    exact ⟨index, below, same⟩

theorem mem_textureSlots {slot : TextureSlot} :
    slot ∈ plan.textureSlots.toList ↔ ∃ index output, plan.textures.toList[index]? = some output ∧
      ⟨slotOffset (plan.channels.size + index), output.name⟩ = slot := by
  rw [textureSlots, Array.toList_mapIdx, List.mem_mapIdx]
  constructor
  · rintro ⟨index, below, same⟩
    exact ⟨index, _, List.getElem?_eq_getElem below, same⟩
  · rintro ⟨index, output, listed, same⟩
    obtain ⟨below, rfl⟩ := List.getElem?_eq_some_iff.mp listed
    exact ⟨index, below, same⟩

theorem lt_slotCount_of_getElem? {index : Nat} {source : Operand}
    (listed : plan.outputs[index]? = some source) : index < plan.slotCount := by
  rw [← length_outputs]
  exact (List.getElem?_eq_some_iff.mp listed).1

/-- The address of the slot of an output is four times the number of the output. -/
theorem Assembles.toNat_slotOffset (accepted : plan.Assembles) {index : Nat} {source : Operand}
    (listed : plan.outputs[index]? = some source) : (slotOffset index).toNat = 4 * index :=
  accepted.slotOffset_toNat (lt_slotCount_of_getElem? listed)

/-- Every slot lies in the memory. -/
theorem Assembles.slot_inside (accepted : plan.Assembles) (e : Evaluation σ) {index : Nat}
    {source : Operand} (listed : plan.outputs[index]? = some source) :
    (slotOffset index).toNat + 4 ≤ (plan.finalMemory e).size := by
  have below := lt_slotCount_of_getElem? listed
  have room := slots_le_pages plan.slotCount
  rw [accepted.toNat_slotOffset listed, size_finalMemory]
  omega

/-- The slots cover the front of the memory. -/
theorem Assembles.covered (accepted : plan.Assembles) {address : Nat}
    (channels : ∀ slot ∈ plan.materialSlots.toList,
      address < slot.offset.toNat ∨ slot.offset.toNat + 4 ≤ address)
    (textures : ∀ slot ∈ plan.textureSlots.toList,
      address < slot.offset.toNat ∨ slot.offset.toNat + 4 ≤ address) :
    4 * plan.slotCount ≤ address := by
  apply Nat.le_of_not_lt
  intro covered
  have count : plan.slotCount = plan.channels.size + plan.textures.size := rfl
  -- the slot of the word that the address lies in
  by_cases channel : address / 4 < plan.channels.size
  · have found : plan.channels.toList[address / 4]? =
        some (plan.channels.toList.get ⟨address / 4, by simpa using channel⟩) :=
      List.getElem?_eq_getElem _
    have outside := channels _ (mem_materialSlots.mpr ⟨_, _, found, rfl⟩)
    rw [accepted.toNat_slotOffset (getElem?_outputs_of_channel found)] at outside
    omega
  · have below : address / 4 - plan.channels.size < plan.textures.toList.length := by
      rw [Array.length_toList]
      omega
    have found : plan.textures.toList[address / 4 - plan.channels.size]? =
        some (plan.textures.toList.get ⟨address / 4 - plan.channels.size, below⟩) :=
      List.getElem?_eq_getElem _
    have outside := textures _ (mem_textureSlots.mpr ⟨_, _, found, rfl⟩)
    rw [accepted.toNat_slotOffset (getElem?_outputs_of_texture found)] at outside
    omega

/-- After the run of an assembled plan its slots hold the values of its outputs. -/
theorem Assembles.stored_finalMemory (accepted : plan.Assembles) (e : Evaluation σ) :
    e.Stored plan plan.compiledModule (plan.finalMemory e) where
  channels := by
    apply List.ext_getElem?
    intro index
    rw [compiledModule, materialSlots, Array.toList_mapIdx, List.getElem?_map, List.getElem?_mapIdx,
      List.getElem?_map]
    cases listed : plan.channels.toList[index]? with
    | none => rfl
    | some output =>
      have output' := getElem?_outputs_of_channel listed
      have bytes := bytesAt_finalMemory e output'
      simp only [Option.map_some, accepted.toNat_slotOffset output', bytes]
  textures := by
    apply List.ext_getElem?
    intro index
    rw [compiledModule, textureSlots, Array.toList_mapIdx, List.getElem?_map, List.getElem?_mapIdx,
      List.getElem?_map]
    cases listed : plan.textures.toList[index]? with
    | none => rfl
    | some output =>
      have output' := getElem?_outputs_of_texture listed
      have bytes := bytesAt_finalMemory e output'
      simp only [Option.map_some, accepted.toNat_slotOffset output', bytes]
  channelsInside := by
    intro slot member
    obtain ⟨index, output, listed, rfl⟩ := mem_materialSlots.mp member
    exact accepted.slot_inside e (getElem?_outputs_of_channel listed)
  texturesInside := by
    intro slot member
    obtain ⟨index, output, listed, rfl⟩ := mem_textureSlots.mp member
    exact accepted.slot_inside e (getElem?_outputs_of_texture listed)
  elsewhere := fun _ channels textures =>
    get_finalMemory_of_le e (accepted.covered channels textures)

/-- Some machine has room for an assembled plan. -/
theorem Assembles.exists_accepts (accepted : plan.Assembles) :
    ∃ c : Wasm.Capacity, c.Accepts plan.compiledModule.wasm.data.toList := by
  let frame := plan.function.frame
  simp only [accepted.accepts_iff]
  refine ⟨{ calls := 1, cells := frame.cells + 6, locals := frame.locals,
            numbered := frame.numbered, constants := frame.constants,
            memory := (UInt64.ofNat (pagesForSlots plan.slotCount)).toNat * Wasm.pageSize },
    Nat.one_pos, ?_, ?_, ?_⟩
  · intro f member
    have same : f = plan.function := List.mem_singleton.mp member
    simp [same, Wasm.Frame.fits, frame]
  · intro f member operation _
    have same : f = plan.function := List.mem_singleton.mp member
    have few := arity_le_six operation
    change f.frame.cells + max operation.arity 1 ≤ plan.function.frame.cells + 6
    rw [same]
    omega
  · intro limits member
    obtain rfl := List.mem_singleton.mp member
    exact Nat.le_refl _

/-- The bytes of an assembled plan run to their end on every machine that accepts them, and there
are such machines. The host is called as the evaluation of the plan says and never otherwise, once
for every step that is a call and in the order of the steps. The slots hold the values of the
outputs. -/
theorem assembled_runs {compiled : CompiledModule} (assembled : plan.assemble = .ok compiled) :
    (∃ c : Wasm.Capacity, c.Accepts compiled.wasm.data.toList) ∧
      ∀ c : Wasm.Capacity, c.Accepts compiled.wasm.data.toList →
        ∀ (σ : Type) (perform : Wasm.Host σ) (host : σ),
          (∃ memory,
            Wasm.runBytes compiled.wasm.data.toList c perform host =
              (.ok memory, (plan.evaluate perform host).host) ∧
            (plan.evaluate perform host).Stored plan compiled memory) ∧
          (Wasm.runBytes compiled.wasm.data.toList c perform.recorded (host, [])).2 =
            ((plan.evaluate perform host).host, (plan.evaluate perform host).calls) ∧
          (plan.evaluate perform host).calls.map (·.1) =
            plan.bindings.toList.filterMap Binding.operation? := by
  obtain ⟨accepted, rfl⟩ := assemble_eq_ok.mp assembled
  refine ⟨accepted.exists_accepts, fun c accepts σ perform host => ⟨?_, ?_, ?_⟩⟩
  · exact ⟨_, runBytes_module accepted accepts perform host, accepted.stored_finalMemory _⟩
  · have recorded : plan.evaluate perform.recorded (host, []) =
      (plan.evaluate perform host).recorded := Evaluation.run_recorded perform { host } _
    rw [runBytes_module accepted accepts perform.recorded (host, []), recorded]
    rfl
  · exact Evaluation.operations_run perform { host } _

/-- A plan whose first step refers to the second one. -/
def lateReference : Plan where
  bindings := #[⟨some "a", .image, .call .darken [.result 1, .number 3], .point 1 1⟩,
    ⟨some "b", .image, .copy (.input ⟨7⟩), .point 2 1⟩]
  textures := #[⟨"a", .result 0⟩, ⟨"b", .result 1⟩]

/-- A step that has not been evaluated counts as zero: with a host that adds up what it is given,
the first step yields three. -/
theorem assembled_runs_lateReference :
    ∃ compiled memory,
      lateReference.assemble = .ok compiled ∧
      Wasm.runBytes compiled.wasm.data.toList {}
        (fun _ args calls => (args.foldl (· + ·) 0, calls + 1)) 0 = (.ok memory, 1) ∧
      compiled.textureSlots.toList.map
          (fun slot => (slot.name, memory.bytesAt slot.offset.toNat 4)) =
        [("a", [3, 0, 0, 0]), ("b", [7, 0, 0, 0])] := by
  have accepted : lateReference.Assembles := ⟨by decide, by decide, by decide, by decide⟩
  have assembled := assemble_eq_ok.mpr ⟨accepted, rfl⟩
  obtain ⟨⟨memory, ran, stored⟩, -, -⟩ := (assembled_runs assembled).2 {}
    (accepted.accepts_iff.mpr (by decide)) Nat
    (fun _ args calls => (args.foldl (· + ·) 0, calls + 1)) 0
  exact ⟨_, memory, assembled, ran, stored.textures⟩

end Plan

end TextureScript
