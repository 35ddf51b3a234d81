import TextureScript.Proofs.Assembly.Simulation

/-!
# The bytes determine the plan

The bytes of an assembled plan are sections, each of which is as long as it says, and the reader of
each section uses it up. What is read is spelled out here, part by part. The code can be taken apart
again: the code of a step ends with the only place where a local is set, and the code of a slot has
three instructions. So two plans with the same bytes have the same steps and the same outputs,
except that an input may stand in one of them where the other has the number that is its word.
-/

namespace TextureScript

open Assembly

/-! ## Sections -/

namespace Wasm

/-- Bytes are made up of sections, each with its number and the length of its content before it. -/
inductive Framed : List UInt8 → List (UInt8 × List UInt8) → Prop where
  | nil : Framed [] []
  | cons {number : UInt8} {bytes content rest : List UInt8} {count : UInt32}
      {sections : List (UInt8 × List UInt8)}
      (length : readU32 bytes = some (count, content ++ rest))
      (exact : count.toNat = content.length) (others : Framed rest sections) :
      Framed (number :: bytes) ((number, content) :: sections)

/-- Sections that are written one after the other are found again. -/
theorem framed_flatMap {sections : List (UInt8 × List UInt8)}
    (short : ∀ entry ∈ sections, entry.2.length < UInt32.size) :
    Framed (sections.flatMap fun entry => encodeSection entry.1 entry.2) sections := by
  induction sections with
  | nil => exact .nil
  | cons entry sections ih =>
    have fits := short entry List.mem_cons_self
    rw [List.flatMap_cons, encodeSection, List.cons_append, encodeSized, List.append_assoc]
    exact .cons (readU32_unsignedLeb fits _) (UInt32.toNat_ofNat_of_lt' fits)
      (ih fun other member => short other (List.mem_cons_of_mem _ member))

/-- The content of a section is used up by what is read from it, and that is the part of a module
which belongs there. -/
inductive Module.Holds (m : Module) : UInt8 × List UInt8 → Prop where
  | types {content : List UInt8}
      (read : readAll (readVector FunctionType.read) content = some m.types) : Holds m (1, content)
  | imports {content : List UInt8}
      (read : readAll (readVector Import.read) content = some m.imports) : Holds m (2, content)
  | functions {content : List UInt8}
      (read : readAll (readVector readU32) content = some m.functions) : Holds m (3, content)
  | memories {content : List UInt8}
      (read : readAll (readVector Limits.read) content = some m.memories) : Holds m (5, content)
  | exports {content : List UInt8}
      (read : readAll (readVector Export.read) content = some m.exports) : Holds m (7, content)
  | bodies {content : List UInt8}
      (read : readAll (readVector Body.read) content = some m.bodies) : Holds m (10, content)
  | data {content : List UInt8}
      (read : readAll (readVector Data.read) content = some m.data) : Holds m (11, content)
  | custom {content : List UInt8} {custom : Custom} (member : custom ∈ m.customs)
      (read : Custom.readContent content = some custom) : Holds m (0, content)

end Wasm

namespace Plan

/-- The sections of the module of a plan; there are no data without outputs. -/
def sections (plan : Plan) : List (UInt8 × List UInt8) :=
  [(1, Wasm.encodeVector Wasm.FunctionType.encode moduleTypes),
    (2, Wasm.encodeVector Wasm.Import.encode (Operation.all.map importOf)),
    (3, Wasm.encodeVector Wasm.encodeIndex [0]),
    (5, Wasm.encodeVector Wasm.Limits.encode plan.module.memories),
    (7, Wasm.encodeVector Wasm.Export.encode plan.module.exports),
    (10, Wasm.encodeVector Wasm.Body.encode [plan.body])] ++
  (if plan.slotCount = 0 then []
    else [(11, Wasm.encodeVector Wasm.Data.encode
      [⟨.active 0 [.i32 0], slotData plan.slotCount⟩])]) ++
  [(0, Wasm.encodeName versionSection ++ version.toUTF8.data.toList)]

theorem encode_eq_sections (plan : Plan) :
    plan.module.encode =
      Wasm.header ++ plan.sections.flatMap fun entry => Wasm.encodeSection entry.1 entry.2 := by
  rw [encode_module, sections]
  by_cases silent : plan.slotCount = 0
  · have none : plan.module.data = [] := if_pos silent
    rw [none, if_pos silent]
    rfl
  · have one : plan.module.data = [⟨.active 0 [.i32 0], slotData plan.slotCount⟩] := if_neg silent
    rw [one, if_neg silent]
    rfl

variable {plan : Plan}

/-- Every section of an assembled plan is short enough for its length, and is used up when it is
read. -/
theorem Assembles.sections_hold (accepted : plan.Assembles) :
    ∀ entry ∈ plan.sections, entry.2.length < UInt32.size ∧ plan.module.Holds entry := by
  rw [sections, List.forall_mem_append, List.forall_mem_append]
  refine ⟨⟨?_, ?_⟩, ?_⟩
  · simp only [List.forall_mem_cons]
    exact ⟨⟨types_short, .types types_readBack⟩, ⟨imports_short, .imports imports_readBack⟩,
      ⟨functions_short, .functions functions_readBack⟩,
      ⟨accepted.memories_short, .memories accepted.memories_readBack⟩,
      ⟨plan.exports_short, .exports plan.exports_readBack⟩,
      ⟨accepted.bodies_short, .bodies accepted.bodies_readBack⟩, List.forall_mem_nil _⟩
  · by_cases silent : plan.slotCount = 0
    · rw [if_pos silent]
      exact List.forall_mem_nil _
    · have one : plan.module.data = [⟨.active 0 [.i32 0], slotData plan.slotCount⟩] :=
        if_neg silent
      rw [if_neg silent, List.forall_mem_singleton]
      exact ⟨accepted.data_short, .data (one ▸ accepted.data_readBack)⟩
  · rw [List.forall_mem_singleton]
    have read : Wasm.Custom.readContent
        (Wasm.encodeName versionSection ++ version.toUTF8.data.toList) =
          some ⟨versionSection, version.toUTF8.data.toList⟩ := by
      simp [Wasm.Custom.readContent, Wasm.reads_name version_named _]
    exact ⟨version_short, .custom List.mem_cons_self read⟩

/-- What the module of a plan consists of. -/
structure Emits (plan : Plan) (m : Wasm.Module) : Prop where
  /-- One type for the entry point and one for every number of arguments that occurs. -/
  types : m.types = [.ofWords 0 0, .ofWords 1 1, .ofWords 2 1, .ofWords 3 1, .ofWords 6 1]
  /-- The whole catalogue is imported in its order, each operation with the type of its arity. -/
  imports : (m.imports.map fun i => (i.group, i.name, m.types[i.typeIndex.toNat]?)) =
    Operation.all.map fun operation => ("env", operation.name, some (.ofWords operation.arity 1))
  /-- There is one function, of the type of the entry point. -/
  functions : m.functions = [0]
  /-- There is one memory, with pages for the slots at the start and sixteen at most. -/
  memories : (m.memories.map fun limits =>
      (limits.wide, limits.min.toNat, limits.max.map (·.toNat))) =
    [(false, pagesForSlots plan.slotCount, some 16)]
  /-- The function and the memory are exported; the imports come before the function. -/
  exports : m.exports = [⟨"main", .function 10⟩, ⟨"memory", .memory 0⟩]
  /-- The function has a local for every step. -/
  locals : (m.bodies.map fun body => body.locals.map fun group => (group.count.toNat, group.type)) =
    [if plan.bindings.size = 0 then [] else [(plan.bindings.size, .i32)]]
  /-- It evaluates the steps into their locals and stores the outputs into their slots. -/
  code : m.bodies.map (·.code) =
    [(plan.bindings.toList.mapIdx fun index binding =>
        binding.value.code ++ [.localSet (UInt32.ofNat index)]).flatten ++
      (plan.outputs.mapIdx fun index source =>
        [.const (Int32.ofNat (4 * index)), source.instruction, .store 2 0 0]).flatten]
  /-- With outputs, words for no image are written to the start of the memory, one for each. -/
  data : m.data = if plan.slotCount = 0 then [] else
    [⟨.active 0 [.i32 0],
      (List.replicate plan.slotCount (Wasm.wordBytes Handle.unset.toWire)).flatten⟩]
  /-- They fit into the memory as it is at the start. -/
  fits : ∀ entry ∈ m.data, entry.bytes.length ≤ pagesForSlots plan.slotCount * Wasm.pageSize
  /-- The module carries its version. -/
  customs : m.customs = [⟨"coocoo", "0.1.0".toUTF8.data.toList⟩]
  /-- There is nothing else in it. -/
  others : m.tables = [] ∧ m.globals = [] ∧ m.start = none ∧ m.elements = [] ∧ m.dataCount = none

theorem Assembles.emits_module (accepted : plan.Assembles) : plan.Emits plan.module where
  types := rfl
  imports := rfl
  functions := rfl
  memories := by
    have pages := pagesForSlots_le accepted.slots
    have minimum : (UInt64.ofNat (pagesForSlots plan.slotCount)).toNat =
        pagesForSlots plan.slotCount :=
      UInt64.toNat_ofNat_of_lt' (Nat.lt_of_le_of_lt pages (by decide))
    simp only [Plan.module, List.map_cons, minimum]
    rfl
  exports := rfl
  locals := by
    have count := UInt32.toNat_ofNat_of_lt' accepted.steps_lt
    simp only [Plan.module, body, Array.isEmpty_iff_size_eq_zero]
    split <;> simp [count]
  code := rfl
  data := rfl
  fits := by
    intro entry member
    have room := slots_le_pages plan.slotCount
    simp only [Plan.module] at member
    split at member
    · cases member
    · rw [List.mem_singleton.mp member, length_slotData]
      exact room
  customs := rfl
  others := ⟨rfl, rfl, rfl, rfl, rfl⟩

end Plan

/-! ## Slots -/

/-- What is known of an output besides the image. -/
inductive OutputLabel where
  /-- It is a channel of a material. -/
  | channel (material channel : String) (materialType : MaterialType)
  /-- It is a texture. -/
  | texture (name : String)

/-- What is known of the outputs of a plan, in their order. -/
def Plan.labels (plan : Plan) : List OutputLabel :=
  (plan.channels.toList.map fun output =>
      .channel output.material output.channel output.materialType) ++
    plan.textures.toList.map fun output => .texture output.name

/-- What is known of the slots, with their addresses, the material slots first. -/
def CompiledModule.labels (compiled : CompiledModule) : List (OutputLabel × Nat) :=
  (compiled.materialSlots.toList.map fun slot =>
      (.channel slot.material slot.channel slot.materialType, slot.offset.toNat)) ++
    compiled.textureSlots.toList.map fun slot => (.texture slot.name, slot.offset.toNat)

theorem Plan.length_labels (plan : Plan) : plan.labels.length = plan.slotCount := by
  simp [labels, slotCount]

/-- The slots of an assembled plan carry what is known of its outputs, in their order, and their
addresses are the multiples of four. -/
theorem Plan.Assembles.labels_compiledModule {plan : Plan} (accepted : plan.Assembles) :
    plan.compiledModule.labels = plan.labels.mapIdx fun index label => (label, 4 * index) := by
  have addressed : plan.compiledModule.labels =
      plan.labels.mapIdx fun index label => (label, (slotOffset index).toNat) := by
    apply List.ext_getElem?
    intro index
    simp only [CompiledModule.labels, compiledModule, materialSlots, textureSlots, labels,
      List.getElem?_append, List.length_map, Array.length_toList, List.getElem?_map,
      Array.toList_mapIdx, List.length_mapIdx, List.getElem?_mapIdx, Option.map_map]
    split
    · cases plan.channels.toList[index]? <;> rfl
    · rename_i after
      rw [Nat.add_sub_cancel' (Nat.le_of_not_lt after)]
      cases plan.textures.toList[index - plan.channels.size]? <;> rfl
  rw [addressed]
  apply List.ext_getElem?
  intro index
  rw [List.getElem?_mapIdx, List.getElem?_mapIdx]
  cases listed : plan.labels[index]? with
  | none => rfl
  | some label =>
    have inside : index < plan.slotCount := by
      rw [← plan.length_labels]
      exact (List.getElem?_eq_some_iff.mp listed).1
    rw [Option.map_some, Option.map_some, accepted.slotOffset_toNat inside]

/-! ## Taking code apart -/

/-- An operand without the difference between an input and the number that is its word. -/
def Operand.erased : Operand → Operand
  | .input handle => .number handle.toWire
  | .result index => .result index
  | .number value => .number value

/-- A value without the difference between inputs and their words. -/
def Value.erased : Value → Value
  | .call operation args => .call operation (args.map Operand.erased)
  | .copy operand => .copy operand.erased

/-- The operand that an instruction pushes. -/
def Wasm.Instruction.operand? : Wasm.Instruction → Option Operand
  | .const value => some (.number value)
  | .localGet index => some (.result index)
  | _ => none

theorem Operand.operand?_instruction (operand : Operand) :
    operand.instruction.operand? = some operand.erased := by
  cases operand <;> rfl

theorem Operand.instruction_erased (operand : Operand) :
    operand.erased.instruction = operand.instruction := by
  cases operand <;> rfl

theorem Operand.erased_of_instruction {first second : Operand}
    (same : first.instruction = second.instruction) : first.erased = second.erased := by
  have read := congrArg Wasm.Instruction.operand? same
  rw [operand?_instruction, operand?_instruction] at read
  exact Option.some.inj read

theorem Operand.erased_of_instructions {first second : List Operand}
    (same : first.map instruction = second.map instruction) :
    first.map erased = second.map erased := by
  have read := congrArg (List.filterMap Wasm.Instruction.operand?) same
  simpa only [List.filterMap_map, Function.comp_def, operand?_instruction, List.filterMap_eq_map']
    using read

theorem Operation.all_importIndex (operation : Operation) :
    Operation.all[(UInt32.ofNat operation.importIndex).toNat]? = some operation := by
  cases operation <;> rfl

theorem Value.code_erased (value : Value) : value.erased.code = value.code := by
  cases value with
  | call operation args => simp [erased, code, Operand.instruction_erased]
  | copy operand => simp [erased, code, Operand.instruction_erased]

/-- The code of a value sets no local. -/
theorem Value.localSet_not_mem_code (value : Value) (index : UInt32) :
    .localSet index ∉ value.code := by
  have operands : ∀ operand : Operand, operand.instruction ≠ .localSet index := by
    intro operand
    cases operand <;> exact nofun
  cases value with
  | call operation args => simp [code, operands]
  | copy operand => simpa [code] using (operands operand).symm

/-- The code of a value tells the value, up to inputs and their words. -/
theorem Value.erased_of_code {first second : Value} (same : first.code = second.code) :
    first.erased = second.erased := by
  -- only the code of a call ends with a call
  have calls : ∀ (operation : Operation) (args : List Operand) (operand : Operand),
      (Value.call operation args).code ≠ (Value.copy operand).code := by
    intro operation args operand same
    have member : Wasm.Instruction.call (UInt32.ofNat operation.importIndex) ∈
        (Value.copy operand).code := by
      rw [← same]
      exact List.mem_append_right _ List.mem_cons_self
    have pushes := List.mem_singleton.mp member
    cases operand <;> cases pushes
  cases first with
  | call operation args =>
    cases second with
    | copy operand => exact absurd same (calls operation args operand)
    | call operation' args' =>
      obtain ⟨arguments, called⟩ := List.append_inj' same rfl
      have index : UInt32.ofNat operation.importIndex = UInt32.ofNat operation'.importIndex := by
        injection called with called
        injection called
      have operations := Operation.all_importIndex operation
      rw [index, Operation.all_importIndex] at operations
      rw [erased, erased, Option.some.inj operations, Operand.erased_of_instructions arguments]
  | copy operand =>
    cases second with
    | call operation args => exact absurd same.symm (calls operation args operand)
    | copy operand' =>
      have pushes := List.singleton_inj.mp same
      rw [erased, erased, Operand.erased_of_instruction pushes]

/-- A list tells what stands before the first occurrence of an item and what stands after it. -/
theorem append_cons_inj_of_not_mem {α : Type} [DecidableEq α] {mark : α}
    {first second rest rest' : List α} (absent : mark ∉ first) (absent' : mark ∉ second)
    (same : first ++ mark :: rest = second ++ mark :: rest') : first = second ∧ rest = rest' := by
  have lengths := congrArg (List.idxOf mark) same
  simp only [List.idxOf_append, if_neg absent, if_neg absent', List.idxOf_cons_self,
    Nat.zero_add] at lengths
  obtain ⟨firsts, rests⟩ := List.append_inj same lengths
  exact ⟨firsts, (List.cons.inj rests).2⟩

/-- Numbered pieces in a row can be told apart when each of them can be told from what follows. -/
theorem map_of_flatten_mapIdx {α β γ : Type} {write : Nat → α → List β} {meaning : α → γ}
    (apart : ∀ index first second rest rest', write index first ++ rest =
      write index second ++ rest' → meaning first = meaning second ∧ rest = rest')
    {items items' : List α} (lengths : items.length = items'.length) {rest rest' : List β}
    (same : (items.mapIdx write).flatten ++ rest = (items'.mapIdx write).flatten ++ rest') :
    items.map meaning = items'.map meaning ∧ rest = rest' := by
  induction items generalizing items' write with
  | nil =>
    rw [List.eq_nil_of_length_eq_zero lengths.symm] at same ⊢
    exact ⟨rfl, same⟩
  | cons item items ih =>
    cases items' with
    | nil => cases lengths
    | cons item' items' =>
      simp only [List.mapIdx_cons, List.flatten_cons, List.append_assoc] at same
      obtain ⟨head, others⟩ := apart 0 item item' _ _ same
      obtain ⟨tail, rests⟩ := ih (fun index => apart (index + 1)) (Nat.succ.inj lengths) others
      exact ⟨by rw [List.map_cons, List.map_cons, head, tail], rests⟩

/-- Items that mean the same are written in the same way. -/
theorem mapIdx_of_map {α β γ : Type} {write : Nat → α → β} {meaning : α → γ}
    (alike : ∀ index first second, meaning first = meaning second →
      write index first = write index second)
    {items items' : List α} (same : items.map meaning = items'.map meaning) :
    items.mapIdx write = items'.mapIdx write := by
  induction items generalizing items' write with
  | nil => rw [List.map_eq_nil_iff.mp same.symm]
  | cons item items ih =>
    cases items' with
    | nil => cases same
    | cons item' items' =>
      obtain ⟨head, tail⟩ := List.cons.inj same
      rw [List.mapIdx_cons, List.mapIdx_cons, alike 0 item item' head,
        ih (fun index => alike (index + 1)) tail]

namespace Plan

/-- Two plans have the same steps and outputs, up to inputs and their words. -/
structure SameProgram (first second : Plan) : Prop where
  /-- They have as many steps. -/
  steps : first.bindings.size = second.bindings.size
  /-- They have as many slots. -/
  slots : first.slotCount = second.slotCount
  /-- The steps have the same values. -/
  values : (first.bindings.toList.map fun binding => binding.value.erased) =
    second.bindings.toList.map fun binding => binding.value.erased
  /-- The outputs have the same sources. -/
  outputs : first.outputs.map Operand.erased = second.outputs.map Operand.erased

/-- The code of two plans of the same size is the same exactly when the plans are. -/
theorem code_eq_iff {first second : Plan} (steps : first.bindings.size = second.bindings.size)
    (slots : first.slotCount = second.slotCount) :
    first.code = second.code ↔ first.SameProgram second := by
  constructor
  · intro same
    have stepsApart : ∀ index (b b' : Binding) rest rest',
        bindingCode index b ++ rest = bindingCode index b' ++ rest' →
          b.value.erased = b'.value.erased ∧ rest = rest' := by
      intro index b b' rest rest' written
      simp only [bindingCode, List.append_assoc, List.singleton_append] at written
      obtain ⟨codes, rests⟩ := append_cons_inj_of_not_mem (b.value.localSet_not_mem_code _)
        (b'.value.localSet_not_mem_code _) written
      exact ⟨Value.erased_of_code codes, rests⟩
    have slotsApart : ∀ index (source source' : Operand) rest rest',
        slotCode index source ++ rest = slotCode index source' ++ rest' →
          source.erased = source'.erased ∧ rest = rest' := by
      intro index source source' rest rest' written
      obtain ⟨pieces, rests⟩ := List.append_inj written rfl
      simp only [slotCode, List.cons.injEq, and_true, true_and] at pieces
      exact ⟨Operand.erased_of_instruction pieces, rests⟩
    obtain ⟨values, stores⟩ := map_of_flatten_mapIdx stepsApart (by simpa using steps) same
    have stores' : (first.outputs.mapIdx slotCode).flatten ++ [] =
        (second.outputs.mapIdx slotCode).flatten ++ [] := by
      rw [List.append_nil, List.append_nil, stores]
    have outputs := map_of_flatten_mapIdx slotsApart
      (by rw [length_outputs, length_outputs, slots]) stores'
    exact ⟨steps, slots, values, outputs.1⟩
  · intro same
    have stepsAlike : ∀ index (b b' : Binding), b.value.erased = b'.value.erased →
        bindingCode index b = bindingCode index b' := by
      intro index b b' values
      rw [bindingCode, bindingCode, ← b.value.code_erased, ← b'.value.code_erased, values]
    have slotsAlike : ∀ index (source source' : Operand), source.erased = source'.erased →
        slotCode index source = slotCode index source' := by
      intro index source source' sources
      rw [slotCode, slotCode, ← source.instruction_erased, ← source'.instruction_erased, sources]
    rw [code, code, mapIdx_of_map stepsAlike same.values, mapIdx_of_map slotsAlike same.outputs]

/-- The bytes of the data tell the number of slots. -/
theorem length_data_module (plan : Plan) :
    (plan.module.data.flatMap (·.bytes)).length = 4 * plan.slotCount := by
  simp only [Plan.module]
  split
  · rename_i silent
    simp [silent]
  · simp [length_slotData]

/-- The modules of two plans that are assembled are the same exactly when the plans are. -/
theorem Assembles.module_eq_iff {first second : Plan} (accepted : first.Assembles)
    (accepted' : second.Assembles) : first.module = second.module ↔ first.SameProgram second := by
  constructor
  · intro same
    have bodies : [first.body] = [second.body] := congrArg Wasm.Module.bodies same
    have body := List.singleton_inj.mp bodies
    have steps : first.bindings.size = second.bindings.size := by
      rw [← first.localCount_body accepted, ← second.localCount_body accepted', body]
    have slots : first.slotCount = second.slotCount := by
      have counted := first.length_data_module
      rw [same, length_data_module] at counted
      omega
    exact (code_eq_iff steps slots).mp (congrArg Wasm.Body.code body)
  · intro same
    have code := (code_eq_iff same.steps same.slots).mpr same
    have empty : first.bindings.isEmpty = second.bindings.isEmpty := by
      rw [Array.isEmpty, Array.isEmpty, same.steps]
    simp only [Plan.module, body, code, empty, same.steps, same.slots]

/-- The bytes of an assembled plan are sections that are as long as they say and are used up when
they are read, and the module that is read has just the parts that the plan calls for. The slots
carry what is known of the outputs, each at its multiple of four. Plans have the same bytes exactly
when they have the same steps and outputs, up to inputs and their words. -/
theorem bytes_determine {plan : Plan} {compiled : CompiledModule}
    (assembled : plan.assemble = .ok compiled) :
    (∃ m, Wasm.Module.decode? compiled.wasm.data.toList = some m ∧ plan.Emits m ∧
      ∃ rest sections, compiled.wasm.data.toList = Wasm.header ++ rest ∧
        Wasm.Framed rest sections ∧ (∀ entry ∈ sections, m.Holds entry) ∧
        sections.map (·.1) =
          [1, 2, 3, 5, 7, 10] ++ (if plan.slotCount = 0 then [] else [11]) ++ [0]) ∧
    compiled.labels = (plan.labels.mapIdx fun index label => (label, 4 * index)) ∧
    ∀ (other : Plan) (compiled' : CompiledModule), other.assemble = .ok compiled' →
      (compiled'.wasm = compiled.wasm ↔ other.SameProgram plan) := by
  obtain ⟨accepted, rfl⟩ := assemble_eq_ok.mp assembled
  have holds := accepted.sections_hold
  refine ⟨⟨plan.module, ?_, accepted.emits_module, _, plan.sections, ?_,
    Wasm.framed_flatMap fun entry member => (holds entry member).1,
    fun entry member => (holds entry member).2, ?_⟩, accepted.labels_compiledModule, ?_⟩
  · rw [bytes_compiledModule, accepted.decode_encode]
  · rw [bytes_compiledModule, encode_eq_sections]
  · rw [sections]
    split <;> rfl
  · intro other compiled' assembled'
    obtain ⟨accepted', rfl⟩ := assemble_eq_ok.mp assembled'
    rw [← accepted'.module_eq_iff accepted]
    constructor
    · intro same
      have bytes : other.module.encode = plan.module.encode := by
        rw [← bytes_compiledModule, ← bytes_compiledModule, same]
      have decoded := accepted'.decode_encode
      rw [bytes, accepted.decode_encode] at decoded
      exact (Option.some.inj decoded).symm
    · intro same
      rw [compiledModule, compiledModule, same]

/-- A plan with one step, which darkens the given image for a channel; the image itself is
exported. -/
def darkening (source : Operand) : Plan where
  bindings := #[⟨none, .image, .call .darken [source, .number 300], .point 1 1⟩]
  channels := #[⟨"stone", "albedo", .pbrMetalness, .result 0⟩]
  textures := #[⟨"source", source⟩]

/-- The plan for an input has the bytes of the plan for its word, but not those of the plan for
another number. -/
theorem bytes_determine_darkening :
    ∃ compiled, (darkening (.input ⟨7⟩)).assemble = .ok compiled ∧
      compiled.labels =
        [(.channel "stone" "albedo" .pbrMetalness, 0), (.texture "source", 4)] ∧
      (∃ compiled', (darkening (.number 7)).assemble = .ok compiled' ∧
        compiled'.wasm = compiled.wasm) ∧
      ∃ compiled', (darkening (.number (-7))).assemble = .ok compiled' ∧
        compiled'.wasm ≠ compiled.wasm := by
  have assembled : (darkening (.input ⟨7⟩)).assemble = .ok _ :=
    assemble_eq_ok.mpr ⟨⟨by decide, by decide, by decide, by decide⟩, rfl⟩
  have word : (darkening (.number 7)).assemble = .ok _ :=
    assemble_eq_ok.mpr ⟨⟨by decide, by decide, by decide, by decide⟩, rfl⟩
  have negative : (darkening (.number (-7))).assemble = .ok _ :=
    assemble_eq_ok.mpr ⟨⟨by decide, by decide, by decide, by decide⟩, rfl⟩
  obtain ⟨-, labels, determine⟩ := bytes_determine assembled
  refine ⟨_, assembled, labels, ⟨_, word, ?_⟩, _, negative, ?_⟩
  · exact (determine _ _ word).mpr ⟨rfl, rfl, rfl, rfl⟩
  · intro same
    exact absurd ((determine _ _ negative).mp same).values (by decide)

end Plan

end TextureScript
