import TextureScript.Proofs.Assembly.Acceptance
import TextureScript.Proofs.Wasm.RoundTrip

/-!
# The bytes of an assembled plan

The bytes that a plan is assembled to are read back as the module of the plan. The module has few
items of every sort, and its code is bounded by the steps and the outputs, so nothing in it is too
long for the length that is written before it.
-/

namespace TextureScript

open Assembly

namespace Plan

/-- What holds of the few kinds of instructions that plans are made of holds of all their code. -/
theorem forall_mem_code {motive : Wasm.Instruction → Prop} (plan : Plan)
    (const : ∀ value, motive (.const value)) (get : ∀ index, motive (.localGet index))
    (set : ∀ index, motive (.localSet index)) (call : ∀ function, motive (.call function))
    (store : motive (.store 2 0 0)) : ∀ i ∈ plan.code, motive i := by
  have operand : ∀ operand : Operand, motive operand.instruction := by
    intro operand
    cases operand with
    | input handle => exact const _
    | result index => exact get _
    | number value => exact const _
  have value : ∀ value : Value, ∀ i ∈ value.code, motive i := by
    intro value i member
    cases value with
    | call operation args =>
      rcases List.mem_append.mp member with pushes | last
      · obtain ⟨arg, -, rfl⟩ := List.mem_map.mp pushes
        exact operand arg
      · rw [List.mem_singleton.mp last]
        exact call _
    | copy source =>
      rw [List.mem_singleton.mp member]
      exact operand source
  intro i member
  rcases List.mem_append.mp member with inBinding | inSlot
  · obtain ⟨piece, pieces, inside⟩ := List.mem_flatten.mp inBinding
    obtain ⟨index, below, rfl⟩ := List.mem_mapIdx.mp pieces
    rcases List.mem_append.mp inside with inValue | last
    · exact value _ i inValue
    · rw [List.mem_singleton.mp last]
      exact set _
  · obtain ⟨piece, pieces, inside⟩ := List.mem_flatten.mp inSlot
    obtain ⟨index, below, rfl⟩ := List.mem_mapIdx.mp pieces
    simp only [slotCode, List.mem_cons, List.not_mem_nil, or_false] at inside
    rcases inside with rfl | rfl | rfl
    · exact const _
    · exact operand _
    · exact store

theorem code_readable (plan : Plan) : ∀ i ∈ plan.code, i.Readable :=
  plan.forall_mem_code (fun _ => trivial) (fun _ => trivial) (fun _ => trivial) (fun _ => trivial)
    (by decide : (2 : UInt32) < 64)

/-- An instruction of a plan takes at most six bytes. -/
theorem length_encode_le_six (plan : Plan) : ∀ i ∈ plan.code, i.encode.length ≤ 6 := by
  have index (n : UInt32) : (Wasm.encodeIndex n).length ≤ 5 :=
    Wasm.length_unsignedLeb_le_five n.toNat_lt
  apply plan.forall_mem_code (motive := fun i => i.encode.length ≤ 6)
  · intro value
    exact Nat.succ_le_succ (Wasm.length_signedLeb_le_five value)
  · intro n
    exact Nat.succ_le_succ (index n)
  · intro n
    exact Nat.succ_le_succ (index n)
  · intro n
    exact Nat.succ_le_succ (index n)
  · simp [Wasm.Instruction.encode, Wasm.Instruction.encodePlace, Wasm.encodeIndex, Wasm.unsignedLeb]

/-- Items that are written in a limited number of bytes each take as many bytes together. -/
theorem length_flatMap_le {α : Type} {write : α → List UInt8} {most : Nat} {items : List α}
    (each : ∀ item ∈ items, (write item).length ≤ most) :
    (items.flatMap write).length ≤ most * items.length := by
  induction items with
  | nil => simp
  | cons item items ih =>
    have first := each item List.mem_cons_self
    have others := ih fun other member => each other (List.mem_cons_of_mem _ member)
    rw [List.flatMap_cons, List.length_append, List.length_cons, Nat.mul_succ]
    omega

theorem length_flatten_mapIdx_le {α β : Type} (piece : Nat → α → List β) (most : Nat)
    (items : List α) (each : ∀ index, ∀ item ∈ items, (piece index item).length ≤ most) :
    (items.mapIdx piece).flatten.length ≤ most * items.length := by
  induction items generalizing piece with
  | nil => simp
  | cons item items ih =>
    have first := each 0 item List.mem_cons_self
    have others := ih (fun index => piece (index + 1)) fun index other member =>
      each (index + 1) other (List.mem_cons_of_mem _ member)
    rw [List.mapIdx_cons, List.flatten_cons, List.length_append, List.length_cons, Nat.mul_succ]
    omega

theorem length_outputs (plan : Plan) : plan.outputs.length = plan.slotCount := by
  simp [outputs, slotCount]

theorem arity_le_six (operation : Operation) : operation.arity ≤ 6 := by
  cases operation <;> decide

/-- The code of a plan has at most eight instructions for a step and three for an output. -/
theorem Assembles.length_code_le {plan : Plan} (accepted : plan.Assembles) :
    plan.code.length ≤ 8 * plan.bindings.size + 3 * plan.slotCount := by
  have steps : (plan.bindings.toList.mapIdx bindingCode).flatten.length ≤
      8 * plan.bindings.toList.length := by
    apply length_flatten_mapIdx_le
    intro index binding member
    have sound := accepted.values binding member
    rw [bindingCode, List.length_append, List.length_singleton]
    cases shape : binding.value with
    | call operation args =>
      rw [shape] at sound
      have few := arity_le_six operation
      rw [← sound.1] at few
      rw [Value.code, List.length_append, List.length_map, List.length_singleton]
      omega
    | copy operand => simp [Value.code]
  have outputs : (plan.outputs.mapIdx slotCode).flatten.length ≤ 3 * plan.outputs.length :=
    length_flatten_mapIdx_le _ _ _ fun _ _ _ => Nat.le_refl 3
  have size : plan.bindings.toList.length = plan.bindings.size := Array.length_toList
  rw [code, List.length_append]
  rw [size] at steps
  rw [length_outputs] at outputs
  omega

/-- The content of the function of an assembled plan is short. -/
theorem Assembles.length_content_le {plan : Plan} (accepted : plan.Assembles) :
    plan.body.content.length ≤ 10000000 := by
  have steps : plan.bindings.size ≤ 50000 := accepted.steps
  have slots : plan.slotCount ≤ 262144 := accepted.slots
  have instructions := accepted.length_code_le
  have bytes := length_flatMap_le plan.length_encode_le_six
  have locals : plan.body.encodeLocals.length ≤ 7 := by
    have one : (Wasm.unsignedLeb 1).length = 1 := by simp [Wasm.unsignedLeb]
    have none : (Wasm.unsignedLeb 0).length = 1 := by simp [Wasm.unsignedLeb]
    have count : (Wasm.encodeIndex (UInt32.ofNat plan.bindings.size)).length ≤ 5 :=
      Wasm.length_unsignedLeb_le_five (UInt32.toNat_lt _)
    unfold Wasm.Body.encodeLocals body
    split
    · simp [Wasm.encodeVector, none]
    · simp [Wasm.encodeVector, one]
      omega
  have content : plan.body.content.length =
      plan.body.encodeLocals.length + (plan.code.flatMap Wasm.Instruction.encode).length + 1 := by
    rw [Wasm.Body.content, List.length_append, List.length_append]
    rfl
  omega

theorem length_slotData (count : Nat) : (slotData count).length = 4 * count := by
  induction count with
  | zero => rfl
  | succ count ih =>
    have step : slotData (count + 1) = Wasm.wordBytes Handle.unset.toWire ++ slotData count := rfl
    rw [step, List.length_append, ih, Nat.mul_succ, Nat.add_comm]
    rfl

theorem pagesForSlots_le {count : Nat} (few : count ≤ maxSlots) : pagesForSlots count ≤ 16 := by
  have slots : count ≤ 262144 := few
  have page : Wasm.pageSize = 65536 := rfl
  unfold pagesForSlots slotSize
  rw [page]
  omega

/-- The sections of the module of a plan, one after the other. -/
theorem encode_module (plan : Plan) :
    plan.module.encode =
      Wasm.header ++ (Wasm.encodeItems 1 Wasm.FunctionType.encode moduleTypes ++
        (Wasm.encodeItems 2 Wasm.Import.encode (Operation.all.map importOf) ++
        (Wasm.encodeItems 3 Wasm.encodeIndex [0] ++
        (Wasm.encodeItems 5 Wasm.Limits.encode plan.module.memories ++
        (Wasm.encodeItems 7 Wasm.Export.encode plan.module.exports ++
        (Wasm.encodeItems 10 Wasm.Body.encode [plan.body] ++
        (Wasm.encodeItems 11 Wasm.Data.encode plan.module.data ++
        (Wasm.Custom.encode ⟨versionSection, version.toUTF8.data.toList⟩ ++ [])))))))) := by
  have tables : Wasm.encodeItems 4 Wasm.Table.encode plan.module.tables = [] := rfl
  have globals : Wasm.encodeItems 6 Wasm.Global.encode plan.module.globals = [] := rfl
  have start : Wasm.encodeSingle 8 plan.module.start = [] := rfl
  have elements : Wasm.encodeItems 9 Wasm.Element.encode plan.module.elements = [] := rfl
  have dataCount : Wasm.encodeSingle 12 plan.module.dataCount = [] := rfl
  have customs : plan.module.customs.flatMap Wasm.Custom.encode =
      Wasm.Custom.encode ⟨versionSection, version.toUTF8.data.toList⟩ ++ [] := rfl
  rw [Wasm.Module.encode, Wasm.Module.encodeBeforeCode, Wasm.Module.encodeCode,
    Wasm.Module.encodeAfterCode, tables, globals, start, elements, dataCount, customs]
  simp only [List.append_assoc, List.append_nil]
  rfl

theorem types_readBack : Wasm.readAll (Wasm.readVector Wasm.FunctionType.read)
    (Wasm.encodeVector Wasm.FunctionType.encode moduleTypes) = some moduleTypes := by
  have few : ∀ type ∈ moduleTypes,
      type.params.length < UInt32.size ∧ type.results.length < UInt32.size := by
    decide
  exact (Wasm.reads_vector (by decide) fun type member =>
    Wasm.reads_functionType (few type member).1 (few type member).2).readAll

/-- The names of what is imported are short enough to be read back. -/
theorem imports_named : ∀ i ∈ Operation.all.map importOf,
    i.group.toUTF8.data.toList.length ≤ Wasm.maxNameSize ∧
      i.name.toUTF8.data.toList.length ≤ Wasm.maxNameSize := by
  decide

theorem imports_readBack : Wasm.readAll (Wasm.readVector Wasm.Import.read)
    (Wasm.encodeVector Wasm.Import.encode (Operation.all.map importOf)) =
      some (Operation.all.map importOf) :=
  (Wasm.reads_vector (by decide) fun i member =>
    Wasm.reads_import (imports_named i member).1 (imports_named i member).2).readAll

theorem functions_readBack : Wasm.readAll (Wasm.readVector Wasm.readU32)
    (Wasm.encodeVector Wasm.encodeIndex [0]) = some [0] :=
  (Wasm.reads_vector (by decide) fun index _ => Wasm.reads_index index).readAll

theorem Assembles.memories_readBack {plan : Plan} (accepted : plan.Assembles) :
    Wasm.readAll (Wasm.readVector Wasm.Limits.read)
      (Wasm.encodeVector Wasm.Limits.encode plan.module.memories) = some plan.module.memories := by
  have pages := pagesForSlots_le accepted.slots
  apply Wasm.Reads.readAll
  apply Wasm.reads_vector
  · exact (by decide : 1 < UInt32.size)
  · intro limits member
    rw [List.mem_singleton.mp member]
    exact Wasm.reads_limits (Nat.lt_of_le_of_lt pages (by decide)) (by decide)

/-- The names of what is exported are short enough to be read back. -/
theorem exports_named (plan : Plan) : ∀ e ∈ plan.module.exports,
    e.name.toUTF8.data.toList.length ≤ Wasm.maxNameSize := by
  change ∀ e ∈ [Wasm.Export.mk Wasm.entryName (.function (UInt32.ofNat Operation.all.length)),
    ⟨Wasm.memoryName, .memory 0⟩], _
  decide

theorem exports_readBack (plan : Plan) : Wasm.readAll (Wasm.readVector Wasm.Export.read)
    (Wasm.encodeVector Wasm.Export.encode plan.module.exports) = some plan.module.exports := by
  apply Wasm.Reads.readAll
  apply Wasm.reads_vector
  · exact (by decide : 2 < UInt32.size)
  · exact fun e member => Wasm.reads_export (plan.exports_named e member)

theorem Assembles.bodies_readBack {plan : Plan} (accepted : plan.Assembles) :
    Wasm.readAll (Wasm.readVector Wasm.Body.read)
      (Wasm.encodeVector Wasm.Body.encode [plan.body]) = some [plan.body] := by
  have groups : plan.body.locals.length < UInt32.size := by
    unfold body
    split
    · exact (by decide : 0 < UInt32.size)
    · exact (by decide : 1 < UInt32.size)
  have short : plan.body.content.length < UInt32.size :=
    Nat.lt_of_le_of_lt accepted.length_content_le (by decide)
  apply Wasm.Reads.readAll
  apply Wasm.reads_vector
  · exact (by decide : 1 < UInt32.size)
  · intro body member
    rw [List.mem_singleton.mp member]
    exact Wasm.reads_body groups short plan.code_readable

theorem Assembles.data_readBack {plan : Plan} (accepted : plan.Assembles) :
    Wasm.readAll (Wasm.readVector Wasm.Data.read)
      (Wasm.encodeVector Wasm.Data.encode [⟨.active 0 [.i32 0], slotData plan.slotCount⟩]) =
        some [⟨.active 0 [.i32 0], slotData plan.slotCount⟩] := by
  have slots : plan.slotCount ≤ 262144 := accepted.slots
  apply Wasm.Reads.readAll
  apply Wasm.reads_vector
  · exact (by decide : 1 < UInt32.size)
  · intro data member
    rw [List.mem_singleton.mp member]
    apply Wasm.reads_data
    rw [length_slotData]
    exact Nat.lt_of_le_of_lt (Nat.mul_le_mul_left 4 slots) (by decide)

/-! ## Lengths of sections -/

theorem length_encodeSized_le {bytes : List UInt8} (short : bytes.length < UInt32.size) :
    (Wasm.encodeSized bytes).length ≤ 5 + bytes.length := by
  have count := Wasm.length_unsignedLeb_le_five short
  rw [Wasm.encodeSized, List.length_append]
  omega

theorem length_encodeName_le {name : String}
    (short : name.toUTF8.data.toList.length ≤ Wasm.maxNameSize) :
    (Wasm.encodeName name).length ≤ 5 + Wasm.maxNameSize :=
  Nat.le_trans (length_encodeSized_le (Nat.lt_of_le_of_lt short (by decide)))
    (Nat.add_le_add_left short 5)

/-- The length of a list of items that take at most `most` bytes each. -/
theorem length_encodeVector_le {α : Type} {write : α → List UInt8} {items : List α} {most : Nat}
    (few : items.length < UInt32.size) (bounded : ∀ item ∈ items, (write item).length ≤ most) :
    (Wasm.encodeVector write items).length ≤ 5 + most * items.length := by
  have count := Wasm.length_unsignedLeb_le_five few
  have content : (items.flatMap write).length ≤ most * items.length := by
    clear few count
    induction items with
    | nil => exact Nat.le_refl 0
    | cons item items ih =>
      obtain ⟨here, later⟩ := List.forall_mem_cons.mp bounded
      have others := ih later
      rw [List.flatMap_cons, List.length_append, List.length_cons, Nat.mul_succ]
      omega
  rw [Wasm.encodeVector, List.length_append]
  omega

theorem length_encodeVector_singleton {α : Type} (write : α → List UInt8) (item : α) :
    (Wasm.encodeVector write [item]).length = 1 + (write item).length := by
  have one : Wasm.unsignedLeb 1 = [1] := by simp [Wasm.unsignedLeb]
  simp [Wasm.encodeVector, one, Nat.add_comm]

theorem types_short :
    (Wasm.encodeVector Wasm.FunctionType.encode moduleTypes).length < UInt32.size := by
  have few : ∀ type ∈ moduleTypes, type.params.length ≤ 6 ∧ type.results.length ≤ 1 := by
    decide
  have bounded : ∀ type ∈ moduleTypes, (Wasm.FunctionType.encode type).length ≤ 18 := by
    intro type member
    obtain ⟨params, results⟩ := few type member
    have sized (words : List Wasm.ValueType) (short : words.length ≤ 6) :
        (Wasm.encodeSized (words.map Wasm.ValueType.byte)).length ≤ 5 + words.length := by
      have sized := @length_encodeSized_le (words.map Wasm.ValueType.byte)
      rw [List.length_map] at sized
      exact sized (Nat.lt_of_le_of_lt short (by decide))
    have first := sized type.params params
    have second := sized type.results (Nat.le_trans results (by decide))
    rw [Wasm.FunctionType.encode, List.length_cons, List.length_append]
    omega
  exact Nat.lt_of_le_of_lt (length_encodeVector_le (by decide) bounded) (by decide)

theorem imports_short :
    (Wasm.encodeVector Wasm.Import.encode (Operation.all.map importOf)).length < UInt32.size := by
  have bounded : ∀ i ∈ Operation.all.map importOf, (Wasm.Import.encode i).length ≤ 200016 := by
    intro i member
    have group := length_encodeName_le (imports_named i member).1
    have name := length_encodeName_le (imports_named i member).2
    have index := Wasm.length_unsignedLeb_le_five i.typeIndex.toNat_lt
    rw [Wasm.maxNameSize] at group name
    rw [Wasm.Import.encode, List.length_append, List.length_append, List.length_cons,
      Wasm.encodeIndex]
    omega
  exact Nat.lt_of_le_of_lt (length_encodeVector_le (by decide) bounded) (by decide)

theorem functions_short : (Wasm.encodeVector Wasm.encodeIndex [0]).length < UInt32.size := by
  have index := Wasm.length_unsignedLeb_le_five (show (0 : UInt32).toNat < UInt32.size by decide)
  rw [length_encodeVector_singleton, Wasm.encodeIndex, UInt32.size]
  omega

theorem exports_short (plan : Plan) :
    (Wasm.encodeVector Wasm.Export.encode plan.module.exports).length < UInt32.size := by
  have count : plan.module.exports.length = 2 := rfl
  have bounded : ∀ e ∈ plan.module.exports, (Wasm.Export.encode e).length ≤ 100011 := by
    intro e member
    have name := length_encodeName_le (plan.exports_named e member)
    have index (index : UInt32) := Wasm.length_unsignedLeb_le_five index.toNat_lt
    rw [Wasm.maxNameSize] at name
    rw [Wasm.Export.encode, List.length_append]
    cases e.target with
    | function place | table place | memory place | global place =>
      have taken := index place
      rw [List.length_cons, Wasm.encodeIndex]
      omega
  have bound := length_encodeVector_le (by rw [count]; decide) bounded
  rw [count] at bound
  exact Nat.lt_of_le_of_lt bound (by decide)

theorem Assembles.memories_short {plan : Plan} (accepted : plan.Assembles) :
    (Wasm.encodeVector Wasm.Limits.encode plan.module.memories).length < UInt32.size := by
  have pages := pagesForSlots_le accepted.slots
  have minimum : (UInt64.ofNat (pagesForSlots plan.slotCount)).toNat ≤ 16 := by
    rw [UInt64.toNat_ofNat_of_lt' (Nat.lt_of_le_of_lt pages (by decide))]
    exact pages
  have min := Wasm.length_unsignedLeb_le_five (Nat.lt_of_le_of_lt minimum (by decide))
  have max : (Wasm.unsignedLeb (UInt64.ofNat maxMemoryPages).toNat).length ≤ 5 :=
    Wasm.length_unsignedLeb_le_five (by decide)
  have limits (l u : UInt64) : (Wasm.Limits.encode ⟨false, l, some u⟩).length =
      1 + (Wasm.unsignedLeb l.toNat).length + (Wasm.unsignedLeb u.toNat).length := by
    simp only [Wasm.Limits.encode, List.length_cons, List.length_append]
    omega
  rw [Plan.module, length_encodeVector_singleton, limits, UInt32.size]
  omega

theorem Assembles.bodies_short {plan : Plan} (accepted : plan.Assembles) :
    (Wasm.encodeVector Wasm.Body.encode [plan.body]).length < UInt32.size := by
  have content := accepted.length_content_le
  have sized := length_encodeSized_le (Nat.lt_of_le_of_lt content (by decide))
  rw [length_encodeVector_singleton, Wasm.Body.encode, UInt32.size]
  omega

theorem Assembles.data_short {plan : Plan} (accepted : plan.Assembles) :
    (Wasm.encodeVector Wasm.Data.encode
      [⟨.active 0 [.i32 0], slotData plan.slotCount⟩]).length < UInt32.size := by
  have slots : plan.slotCount ≤ 262144 := accepted.slots
  have content : (slotData plan.slotCount).length ≤ 1048576 := by
    rw [length_slotData]
    omega
  have sized := length_encodeSized_le (Nat.lt_of_le_of_lt content (by decide))
  have place : (Wasm.ConstExpr.encode [.i32 0]).length = 3 := by
    simp [Wasm.ConstExpr.encode, Wasm.ConstInstruction.encode, Wasm.signedLeb]
  rw [length_encodeVector_singleton, Wasm.Data.encode, List.length_append]
  simp only [↓reduceIte, List.length_cons, place]
  rw [UInt32.size]
  omega

theorem version_named : versionSection.toUTF8.data.toList.length ≤ Wasm.maxNameSize := by
  decide

theorem version_short :
    (Wasm.encodeName versionSection ++ version.toUTF8.data.toList).length < UInt32.size := by
  have name := length_encodeName_le version_named
  have text : version.toUTF8.data.toList.length = 5 := by decide
  rw [Wasm.maxNameSize] at name
  rw [List.length_append, UInt32.size]
  omega

/-- The bytes of an assembled plan are read as the module of the plan. -/
theorem Assembles.decode_encode {plan : Plan} (accepted : plan.Assembles) :
    Wasm.Module.decode? plan.module.encode = some plan.module := by
  -- the module as far as it has been read, before each section
  let typed : Wasm.Module := { types := moduleTypes }
  let linked : Wasm.Module := { typed with imports := Operation.all.map importOf }
  let declared : Wasm.Module := { linked with functions := [0] }
  let sized : Wasm.Module := { declared with memories := plan.module.memories }
  let exported : Wasm.Module := { sized with exports := plan.module.exports }
  let coded : Wasm.Module := { exported with bodies := [plan.body] }
  let filled : Wasm.Module := { coded with data := plan.module.data }
  have types : ({} : Wasm.Module).readSection 1
      (Wasm.encodeVector Wasm.FunctionType.encode moduleTypes) = some typed := by
    simp [Wasm.Module.readSection, types_readBack, typed]
  have imports : typed.readSection 2
      (Wasm.encodeVector Wasm.Import.encode (Operation.all.map importOf)) = some linked := by
    simp [Wasm.Module.readSection, imports_readBack, linked]
  have functions : linked.readSection 3 (Wasm.encodeVector Wasm.encodeIndex [0]) =
      some declared := by
    simp [Wasm.Module.readSection, functions_readBack, declared]
  have memories : declared.readSection 5
      (Wasm.encodeVector Wasm.Limits.encode plan.module.memories) = some sized := by
    simp [Wasm.Module.readSection, accepted.memories_readBack, sized]
  have exports : sized.readSection 7
      (Wasm.encodeVector Wasm.Export.encode plan.module.exports) = some exported := by
    simp [Wasm.Module.readSection, plan.exports_readBack, exported]
  have bodies : exported.readSection 10 (Wasm.encodeVector Wasm.Body.encode [plan.body]) =
      some coded := by
    simp [Wasm.Module.readSection, accepted.bodies_readBack, coded]
  have custom (last : Nat) : filled.readSections last
      (Wasm.Custom.encode ⟨versionSection, version.toUTF8.data.toList⟩ ++ []) =
        some plan.module := by
    rw [Wasm.Module.readSections_custom last version_named version_short,
      Wasm.Module.readSections_nil]
    rfl
  rw [encode_module, Wasm.Module.decode?_header,
    Wasm.Module.readSections_items (by decide) (by decide) rfl (by decide) types_short types,
    Wasm.Module.readSections_items (by decide) (by decide) rfl (by decide) imports_short imports,
    Wasm.Module.readSections_items (by decide) (by decide) rfl (by decide) functions_short
      functions,
    Wasm.Module.readSections_items (by simp [Plan.module]) (by decide) rfl (by decide)
      accepted.memories_short memories,
    Wasm.Module.readSections_items (by simp [Plan.module]) (by decide) rfl (by decide)
      plan.exports_short exports,
    Wasm.Module.readSections_items (by simp) (by decide) rfl (by decide) accepted.bodies_short
      bodies]
  -- the data are left out without outputs
  by_cases silent : plan.slotCount = 0
  · have none : plan.module.data = [] := if_pos silent
    have same : filled = coded := by simp only [filled, none]; rfl
    rw [none, ← same]
    exact custom 11
  · have one : plan.module.data = [⟨.active 0 [.i32 0], slotData plan.slotCount⟩] := if_neg silent
    have data : coded.readSection 11 (Wasm.encodeVector Wasm.Data.encode plan.module.data) =
        some filled := by
      simp [Wasm.Module.readSection, one, accepted.data_readBack, filled]
    have short := accepted.data_short
    rw [← one] at short
    rw [Wasm.Module.readSections_items (by simp [one]) (by decide) rfl (by decide) short data]
    exact custom 12

end Plan

end TextureScript
