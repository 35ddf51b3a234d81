import TextureScript.Proofs.Assembly.Bytes

/-!
# The module of a plan is valid and can be linked

Most parts of the module are the same for every plan. What differs is checked here: the pages of the
memory, the slots that are filled before the run, and the code, which is typed piece by piece. Each
piece starts and ends with the operand stack it found.
-/

namespace TextureScript

open Assembly

namespace Plan

variable (plan : Plan)

theorem functionType?_importIndex (operation : Operation) :
    plan.module.functionType? (UInt32.ofNat operation.importIndex) =
      some (.ofWords operation.arity 1) := by
  cases operation <;> rfl

theorem operation?_importOf (operation : Operation) :
    (importOf operation).operation? plan.module = some operation := by
  cases operation <;> rfl

theorem surface_module : plan.module.surface = 41 := rfl

theorem exportsDistinct_module : plan.module.exportsDistinct = true := rfl

theorem typesExist_module : plan.module.typesExist = true := rfl

theorem entry?_module : plan.module.entry? = some 10 := rfl

/-! ## The code is typed -/

/-- One type for every local. -/
def localTypes : Array Wasm.ValueType :=
  Array.replicate plan.bindings.size .i32

theorem localTypes_body (accepted : plan.Assembles) :
    plan.body.localTypes (.ofWords 0 0) = plan.localTypes := by
  have count := UInt32.toNat_ofNat_of_lt' accepted.steps_lt
  unfold Wasm.Body.localTypes body localTypes
  split
  · rename_i none
    have empty : plan.bindings.size = 0 := by simpa using none
    rw [empty]
    rfl
  · simp [Wasm.FunctionType.ofWords, count]

/-- There is one local for every step, as long as the steps can be numbered. -/
theorem localCount_body_of_lt (numbered : plan.bindings.size < UInt32.size) :
    plan.body.localCount = plan.bindings.size := by
  have count := UInt32.toNat_ofNat_of_lt' numbered
  unfold Wasm.Body.localCount body
  split
  · rename_i none
    have empty : plan.bindings.size = 0 := by simpa using none
    rw [empty]
    rfl
  · simp [count]

theorem localCount_body (accepted : plan.Assembles) :
    plan.body.localCount = plan.bindings.size :=
  plan.localCount_body_of_lt accepted.steps_lt

variable {plan}

/-- An operand pushes a 32-bit integer. -/
theorem check_operand {operand : Operand} (sound : operand.WellFormed plan.bindings.size)
    (s : Wasm.Operands) :
    operand.instruction.check plan.module plan.localTypes s = some (s.push .i32) := by
  cases operand with
  | input handle => rfl
  | number value => rfl
  | result index =>
    have below : index.toNat < plan.bindings.size := sound
    have known : plan.localTypes[index.toNat]? = some .i32 := by
      simp [localTypes, below]
    simp [Operand.instruction, Wasm.Instruction.check, known]

/-- Operands push as many 32-bit integers. -/
theorem check_operands {operands : List Operand}
    (sound : ∀ operand ∈ operands, operand.WellFormed plan.bindings.size) (s : Wasm.Operands) :
    (operands.map Operand.instruction).foldlM
        (Wasm.Instruction.check plan.module plan.localTypes) s =
      some (s.pushAll (List.replicate operands.length .i32)) := by
  induction operands generalizing s with
  | nil => rfl
  | cons operand operands ih =>
    have first := check_operand (sound operand List.mem_cons_self) s
    have others := ih (fun other member => sound other (List.mem_cons_of_mem _ member))
      (s.push .i32)
    rw [List.map_cons, List.foldlM_cons, first]
    exact others

/-- What was pushed last is popped first. -/
theorem popAll_pushAll (count : Nat) (s : Wasm.Operands) :
    (s.pushAll (List.replicate count .i32)).popAll (List.replicate count .i32) = some s := by
  rw [Wasm.Operands.popAll, List.reverse_replicate]
  induction count generalizing s with
  | zero => rfl
  | succ count ih =>
    have last : s.pushAll (List.replicate (count + 1) .i32) =
        (s.pushAll (List.replicate count .i32)).push .i32 := by
      rw [Wasm.Operands.pushAll, List.replicate_succ', List.foldl_append]
      rfl
    rw [last, List.replicate_succ, List.foldlM_cons]
    have popped : ((s.pushAll (List.replicate count .i32)).push .i32).pop .i32 =
        some (s.pushAll (List.replicate count .i32)) := rfl
    rw [popped]
    exact ih s

/-- A value pushes a 32-bit integer. -/
theorem check_value {value : Value} (sound : value.WellFormed plan.bindings.size)
    (s : Wasm.Operands) :
    value.code.foldlM (Wasm.Instruction.check plan.module plan.localTypes) s =
      some (s.push .i32) := by
  cases value with
  | copy operand =>
    rw [Value.code, List.foldlM_cons, check_operand sound]
    rfl
  | call operation args =>
    have called : (Wasm.Instruction.call (UInt32.ofNat operation.importIndex)).check plan.module
        plan.localTypes (s.pushAll (List.replicate args.length .i32)) = some (s.push .i32) := by
      have popped := popAll_pushAll args.length s
      simp only [Wasm.Instruction.check, functionType?_importIndex, Wasm.FunctionType.ofWords,
        Option.bind_eq_bind, Option.bind_some, ← sound.1, popped]
      rfl
    rw [Value.code, List.foldlM_append, check_operands sound.2, Option.bind_eq_bind,
      Option.bind_some, List.foldlM_cons, called]
    rfl

theorem check_bindingCode (accepted : plan.Assembles) {index : Nat}
    (below : index < plan.bindings.size) {binding : Binding}
    (sound : binding.value.WellFormed plan.bindings.size) (s : Wasm.Operands) :
    (bindingCode index binding).foldlM (Wasm.Instruction.check plan.module plan.localTypes) s =
      some s := by
  have number : (UInt32.ofNat index).toNat = index :=
    UInt32.toNat_ofNat_of_lt' (Nat.lt_trans below accepted.steps_lt)
  have known : plan.localTypes[index]? = some .i32 := by
    simp [localTypes, below]
  rw [bindingCode, List.foldlM_append, check_value sound]
  simp only [Option.bind_eq_bind, Option.bind_some, List.foldlM_cons, List.foldlM_nil,
    Wasm.Instruction.check, number, known]
  rfl

theorem check_slotCode {source : Operand} (sound : source.WellFormed plan.bindings.size)
    (index : Nat) (s : Wasm.Operands) :
    (slotCode index source).foldlM (Wasm.Instruction.check plan.module plan.localTypes) s =
      some s := by
  rw [slotCode, List.foldlM_cons, Wasm.Instruction.check, Option.bind_eq_bind, Option.bind_some,
    List.foldlM_cons, check_operand sound]
  rfl

/-- Pieces of code that leave the stack as they find it leave it so together. -/
theorem check_pieces {locals : Array Wasm.ValueType} {m : Wasm.Module} {s : Wasm.Operands}
    {pieces : List (List Wasm.Instruction)}
    (each : ∀ piece ∈ pieces, piece.foldlM (Wasm.Instruction.check m locals) s = some s) :
    pieces.flatten.foldlM (Wasm.Instruction.check m locals) s = some s := by
  induction pieces with
  | nil => rfl
  | cons piece pieces ih =>
    rw [List.flatten_cons, List.foldlM_append, each piece List.mem_cons_self]
    exact ih fun other member => each other (List.mem_cons_of_mem _ member)

/-- The code of an assembled plan leaves nothing on the stack. -/
theorem check_code (accepted : plan.Assembles) :
    plan.code.foldlM (Wasm.Instruction.check plan.module plan.localTypes) {} = some {} := by
  have bindings : ∀ piece ∈ plan.bindings.toList.mapIdx bindingCode,
      piece.foldlM (Wasm.Instruction.check plan.module plan.localTypes) {} = some {} := by
    intro piece member
    obtain ⟨index, below, rfl⟩ := List.mem_mapIdx.mp member
    exact check_bindingCode accepted (by simpa using below)
      (accepted.values _ (List.getElem_mem below)) {}
  have slots : ∀ piece ∈ plan.outputs.mapIdx slotCode,
      piece.foldlM (Wasm.Instruction.check plan.module plan.localTypes) {} = some {} := by
    intro piece member
    obtain ⟨index, below, rfl⟩ := List.mem_mapIdx.mp member
    exact check_slotCode (accepted.outputs _ (List.getElem_mem below)) index {}
  rw [code, List.foldlM_append, check_pieces bindings]
  exact check_pieces slots

theorem bodiesValid_module (accepted : plan.Assembles) : plan.module.bodiesValid = true := by
  have few : plan.bindings.size ≤ Wasm.maxLocals := accepted.steps
  have typed : plan.body.isTyped plan.module (.ofWords 0 0) = true := by
    have checked : plan.body.code.foldlM (Wasm.Instruction.check plan.module
        (plan.body.localTypes (.ofWords 0 0))) {} = some {} := by
      rw [localTypes_body plan accepted]
      exact check_code accepted
    rw [Wasm.Body.isTyped]
    simp only [checked]
    rfl
  have valid : plan.body.isValid plan.module (.ofWords 0 0) = true := by
    rw [Wasm.Body.isValid, typed, localCount_body plan accepted]
    simpa [Wasm.FunctionType.ofWords] using few
  change (true && ((true && plan.body.isValid plan.module (.ofWords 0 0)) && true)) = true
  rw [valid]
  rfl

theorem data_module (plan : Plan) :
    plan.module.data = [] ∨
      plan.module.data = [⟨.active 0 [.i32 0], slotData plan.slotCount⟩] := by
  by_cases silent : plan.slotCount = 0
  · exact .inl (if_pos silent)
  · exact .inr (if_neg silent)

theorem keepsCounts_module (plan : Plan) : plan.module.keepsCounts = true := by
  have data : plan.module.data.length ≤ Wasm.maxSegments := by
    rcases plan.data_module with none | one
    · rw [none]
      decide
    · rw [one]
      exact (by decide : 1 ≤ Wasm.maxSegments)
  unfold Wasm.Module.keepsCounts
  rw [decide_eq_true data]
  rfl

/-- The limits of a memory that is indexed by 32-bit integers, with an upper one. -/
theorem isMemory_narrow {l : Wasm.Limits} {most : UInt64} (narrow : l.wide = false)
    (bounded : l.max = some most) (ordered : l.min.toNat ≤ most.toNat)
    (limited : most.toNat ≤ Wasm.maxPages) : l.isMemory = true := by
  have limit : (if l.wide then Wasm.maxWidePages else Wasm.maxPages) = Wasm.maxPages := by
    rw [narrow]
    rfl
  have least : l.min.toNat ≤ Wasm.maxPages := Nat.le_trans ordered limited
  have between : l.min ≤ most := UInt64.le_iff_toNat_le.mpr ordered
  simp only [Wasm.Limits.isMemory, Wasm.Limits.isOrdered, limit, bounded, Option.all_some, between,
    least, limited, decide_true, Bool.and_self]

theorem memories_valid (accepted : plan.Assembles) :
    plan.module.memories.all Wasm.Limits.isMemory = true := by
  have pages := pagesForSlots_le accepted.slots
  have minimum : (UInt64.ofNat (pagesForSlots plan.slotCount)).toNat =
      pagesForSlots plan.slotCount :=
    UInt64.toNat_ofNat_of_lt' (Nat.lt_of_le_of_lt pages (by decide))
  rw [List.all_eq_true]
  intro limits member
  rw [List.mem_singleton.mp member]
  apply isMemory_narrow rfl rfl
  · rw [minimum]
    exact pages
  · decide

theorem data_valid (plan : Plan) :
    plan.module.data.all (Wasm.Data.isValid plan.module) = true := by
  rcases plan.data_module with none | one
  · rw [none]
    rfl
  · rw [one]
    rfl

/-- The module of an assembled plan is valid. -/
theorem Assembles.isValid_module (accepted : plan.Assembles) : plan.module.isValid = true := by
  have types : plan.module.types.all Wasm.FunctionType.isValid = true := rfl
  have exports : plan.module.exports.all (Wasm.Export.isValid plan.module) = true := rfl
  have small : decide (plan.module.surface < Wasm.maxItems) = true := by
    rw [surface_module]
    rfl
  unfold Wasm.Module.isValid
  rw [keepsCounts_module, types, typesExist_module, memories_valid accepted, exports,
    exportsDistinct_module, small, bodiesValid_module accepted, data_valid]
  rfl

/-! ## Linking -/

/-- The function of a plan, ready to run. -/
def function (plan : Plan) : Wasm.Function :=
  ⟨.ofWords 0 0, plan.body, .ofBody plan.module (.ofWords 0 0) plan.body⟩

/-- The module of a plan with its imports resolved. -/
def linked (plan : Plan) : Wasm.Linked :=
  ⟨Operation.all.toArray, #[plan.function]⟩

theorem mapM_operation? (plan : Plan) (operations : List Operation) :
    (operations.map importOf).mapM (Wasm.Import.operation? plan.module) = some operations := by
  induction operations with
  | nil => rfl
  | cons operation operations ih =>
    rw [List.map_cons, List.mapM_cons, operation?_importOf, ih]
    rfl

theorem link?_module (plan : Plan) : plan.module.link? = some plan.linked := by
  have operations : plan.module.imports.mapM (Wasm.Import.operation? plan.module) =
    some Operation.all := plan.mapM_operation? Operation.all
  rw [Wasm.Module.link?, operations]
  rfl

/-! ## The memory before the run -/

/-- The memory of a plan before the run, with the words for no image in the slots. -/
def initialMemory (plan : Plan) : Wasm.Memory :=
  Wasm.Memory.write ⟨pagesForSlots plan.slotCount * Wasm.pageSize, .empty⟩ 0
    (slotData plan.slotCount)

/-- The slots fit into the pages that are there for them. -/
theorem slots_le_pages (count : Nat) : 4 * count ≤ pagesForSlots count * Wasm.pageSize := by
  have page : Wasm.pageSize = 65536 := rfl
  unfold pagesForSlots slotSize
  rw [page]
  omega

theorem blankMemories_module (accepted : plan.Assembles) :
    plan.module.blankMemories =
      #[⟨pagesForSlots plan.slotCount * Wasm.pageSize, .empty⟩] := by
  have pages := pagesForSlots_le accepted.slots
  have minimum : (UInt64.ofNat (pagesForSlots plan.slotCount)).toNat =
      pagesForSlots plan.slotCount :=
    UInt64.toNat_ofNat_of_lt' (Nat.lt_of_le_of_lt pages (by decide))
  rw [Wasm.Module.blankMemories]
  simp only [Plan.module, List.map_cons, List.map_nil, minimum]

theorem initialMemories?_module (accepted : plan.Assembles) :
    plan.module.initialMemories? = some #[plan.initialMemory] := by
  have elements : plan.module.elements.all plan.module.placesElement = true := rfl
  have room := slots_le_pages plan.slotCount
  rw [Wasm.Module.initialMemories?, elements, if_pos rfl, blankMemories_module accepted]
  by_cases silent : plan.slotCount = 0
  · have none : plan.module.data = [] := if_pos silent
    rw [none, initialMemory, silent]
    rfl
  · have one : plan.module.data = [⟨.active 0 [.i32 0], slotData plan.slotCount⟩] := if_neg silent
    have fits : 0 + (slotData plan.slotCount).length ≤
        pagesForSlots plan.slotCount * Wasm.pageSize := by
      rw [length_slotData, Nat.zero_add]
      exact room
    have start : (Wasm.ConstExpr.value [.i32 0]).toNat = 0 := rfl
    have placed : Wasm.Module.placeData #[⟨pagesForSlots plan.slotCount * Wasm.pageSize, .empty⟩]
        ⟨.active 0 [.i32 0], slotData plan.slotCount⟩ = some #[plan.initialMemory] := by
      simp only [Wasm.Module.placeData, start]
      exact if_pos (decide_eq_true fits)
    rw [one, List.foldlM_cons, placed]
    rfl

end Plan

end TextureScript
