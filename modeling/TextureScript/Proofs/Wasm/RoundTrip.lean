import TextureScript.Proofs.Wasm.Leb128
import TextureScript.Wasm.Decoding

/-!
# Reading back the parts of a module

Each part of a module is read back from what was written for it, and exactly its bytes are used.
What has a count or a length before it must not be too long for one, and a name not too long for a
name.
-/

namespace TextureScript.Wasm

/-- Something that is read from some bytes takes all of them. -/
theorem Reads.readAll {α : Type} {reader : Reader α} {bytes : List UInt8} {value : α}
    (reads : Reads reader bytes value) : readAll reader bytes = some value := by
  have read := reads []
  rw [List.append_nil] at read
  simp [Wasm.readAll, read]

/-- An index is read back. -/
theorem reads_index (index : UInt32) : Reads readU32 (encodeIndex index) index := by
  have reads := readU32_unsignedLeb index.toNat_lt
  rwa [UInt32.ofNat_toNat] at reads

/-- Bytes with their count before them are read back. -/
theorem reads_sized {bytes : List UInt8} (short : bytes.length < UInt32.size) :
    Reads readSized (encodeSized bytes) bytes := by
  intro rest
  have count := readU32_unsignedLeb short (bytes ++ rest)
  simp [readSized, encodeSized, List.append_assoc, count, readBytes,
    UInt32.toNat_ofNat_of_lt' short]

/-- Items are read back one after the other, behind those that were read before. -/
theorem readManyInto_flatMap {α : Type} {item : Reader α} {write : α → List UInt8} {items : List α}
    (each : ∀ value ∈ items, Reads item (write value) value) (reversed : List α)
    (rest : List UInt8) :
    readManyInto item items.length reversed (items.flatMap write ++ rest) =
      some (reversed.reverse ++ items, rest) := by
  induction items generalizing reversed with
  | nil => simp [readManyInto]
  | cons value items ih =>
    have first := each value List.mem_cons_self (items.flatMap write ++ rest)
    have others := ih (fun other member => each other (List.mem_cons_of_mem _ member))
      (value :: reversed)
    rw [List.flatMap_cons, List.append_assoc, List.length_cons, readManyInto, first]
    simp [others]

/-- Items with their count before them are read back. -/
theorem reads_vector {α : Type} {item : Reader α} {write : α → List UInt8} {items : List α}
    (few : items.length < UInt32.size) (each : ∀ value ∈ items, Reads item (write value) value) :
    Reads (readVector item) (encodeVector write items) items := by
  intro rest
  have count := readU32_unsignedLeb few (items.flatMap write ++ rest)
  have items' := readManyInto_flatMap each [] rest
  simp [readVector, encodeVector, List.append_assoc, count, UInt32.toNat_ofNat_of_lt' few, items']

/-- The text of a string is read back. -/
theorem fromUTF8?_toUTF8 (text : String) :
    String.fromUTF8? text.toUTF8.data.toList.toByteArray = some text := by
  have bytes : text.toUTF8.data.toList.toByteArray = text.toByteArray := by
    apply ByteArray.ext
    simp
  rw [bytes, String.fromUTF8?, dif_pos text.isValidUTF8]
  rfl

/-- A name is read back. -/
theorem reads_name {name : String} (short : name.toUTF8.data.toList.length ≤ maxNameSize) :
    Reads readName (encodeName name) name := by
  intro rest
  have text := reads_sized (Nat.lt_of_le_of_lt short (by decide)) rest
  simp only [readName, encodeName, text, Option.bind_eq_bind, Option.bind_some, fromUTF8?_toUTF8,
    if_pos short]

/-- A type of values is read back. -/
theorem reads_valueType (type : ValueType) : Reads ValueType.read [type.byte] type := by
  intro rest
  cases type <;> rfl

/-- Types of values with their count before them are read back. -/
theorem reads_valueTypes {types : List ValueType} (few : types.length < UInt32.size) :
    Reads (readVector ValueType.read) (encodeSized (types.map ValueType.byte)) types := by
  have same : encodeSized (types.map ValueType.byte) =
      encodeVector (fun type => [type.byte]) types := by
    rw [encodeSized, encodeVector, List.length_map, List.map_eq_flatMap]
  rw [same]
  exact reads_vector few fun type _ => reads_valueType type

/-- A function type is read back. -/
theorem reads_functionType {type : FunctionType} (params : type.params.length < UInt32.size)
    (results : type.results.length < UInt32.size) :
    Reads FunctionType.read type.encode type := by
  intro rest
  have readParams := reads_valueTypes params (encodeSized (type.results.map ValueType.byte) ++ rest)
  have readResults := reads_valueTypes results rest
  simp [FunctionType.read, FunctionType.encode, expectByte, List.append_assoc, readParams,
    readResults]

/-- An import is read back. -/
theorem reads_import {i : Import} (group : i.group.toUTF8.data.toList.length ≤ maxNameSize)
    (name : i.name.toUTF8.data.toList.length ≤ maxNameSize) : Reads Import.read i.encode i := by
  intro rest
  have readGroup := reads_name group
    (encodeName i.name ++ 0x00 :: encodeIndex i.typeIndex ++ rest)
  have readNamed := reads_name name (0x00 :: encodeIndex i.typeIndex ++ rest)
  have readIndex := reads_index i.typeIndex rest
  simp only [List.append_assoc, List.cons_append] at readGroup readNamed
  simp [Import.read, Import.encode, expectByte, List.append_assoc, readGroup, readNamed, readIndex]

/-- Limits of a memory that is indexed by 32-bit integers, with an upper one, are read back. -/
theorem reads_limits {min max : Nat} (small : min < UInt32.size) (small' : max < UInt32.size) :
    Reads Limits.read (Limits.encode ⟨false, UInt64.ofNat min, some (UInt64.ofNat max)⟩)
      ⟨false, UInt64.ofNat min, some (UInt64.ofNat max)⟩ := by
  intro rest
  have minimum : (UInt64.ofNat min).toNat = min :=
    UInt64.toNat_ofNat_of_lt' (Nat.lt_trans small (by decide))
  have maximum : (UInt64.ofNat max).toNat = max :=
    UInt64.toNat_ofNat_of_lt' (Nat.lt_trans small' (by decide))
  have readMin := readU32_unsignedLeb small (unsignedLeb max ++ rest)
  have readMax := readU32_unsignedLeb small' rest
  have widened (n : Nat) (below : n < UInt32.size) :
      (UInt32.ofNat n).toUInt64 = UInt64.ofNat n := by
    apply UInt64.toNat.inj
    rw [UInt32.toNat_toUInt64, UInt32.toNat_ofNat_of_lt' below,
      UInt64.toNat_ofNat_of_lt' (Nat.lt_trans below (by decide))]
  simp [Limits.read, Limits.encode, readByte, Limits.readSize, minimum, maximum, List.append_assoc,
    readMin, readMax, widened min small, widened max small']

/-- An export is read back. -/
theorem reads_export {e : Export} (short : e.name.toUTF8.data.toList.length ≤ maxNameSize) :
    Reads Export.read e.encode e := by
  intro rest
  obtain ⟨name, target⟩ := e
  cases target with
  | function index | table index | memory index | global index =>
    have readNamed := reads_name short
    have readIndex := reads_index index rest
    simp [Export.read, Export.encode, readByte, List.append_assoc, readNamed _, readIndex]

/-! ## Code -/

theorem readUntilEnd_end {α : Type} (operands : UInt8 → Reader α)
    (shrinks : ∀ number, Reader.Shrinks (operands number)) (reversed : List α)
    (rest : List UInt8) :
    readUntilEnd operands shrinks reversed (endByte :: rest) = some (reversed.reverse, rest) := by
  rw [readUntilEnd, if_pos rfl]

theorem readUntilEnd_cons {α : Type} {operands : UInt8 → Reader α}
    {shrinks : ∀ number, Reader.Shrinks (operands number)} {number : UInt8}
    {bytes rest : List UInt8} {value : α} (goesOn : number ≠ endByte)
    (read : operands number bytes = some (value, rest)) (reversed : List α) :
    readUntilEnd operands shrinks reversed (number :: bytes) =
      readUntilEnd operands shrinks (value :: reversed) rest := by
  rw [readUntilEnd, if_neg goesOn]
  split
  · rename_i refused
    rw [read] at refused
    cases refused
  · rename_i found
    rw [read] at found
    cases found
    rfl

/-- An instruction can be read by its number from what was written for it. -/
def ReadsByNumber {α : Type} (operands : UInt8 → Reader α) (bytes : List UInt8) (value : α) :
    Prop :=
  ∃ number content, bytes = number :: content ∧ number ≠ endByte ∧
    Reads (operands number) content value

/-- Instructions are read back up to the byte that ends them, behind those that were read before. -/
theorem readUntilEnd_flatMap {α : Type} {operands : UInt8 → Reader α}
    {shrinks : ∀ number, Reader.Shrinks (operands number)} {write : α → List UInt8}
    {items : List α} (each : ∀ value ∈ items, ReadsByNumber operands (write value) value)
    (reversed : List α) (rest : List UInt8) :
    readUntilEnd operands shrinks reversed (items.flatMap write ++ endByte :: rest) =
      some (reversed.reverse ++ items, rest) := by
  induction items generalizing reversed with
  | nil => simp [readUntilEnd_end]
  | cons value items ih =>
    obtain ⟨number, content, bytes, goesOn, reads⟩ := each value List.mem_cons_self
    have others := ih (fun other member => each other (List.mem_cons_of_mem _ member))
      (value :: reversed)
    rw [List.flatMap_cons, bytes, List.append_assoc, List.cons_append,
      readUntilEnd_cons goesOn (reads _), others]
    simp

/-- A store can be read back when its alignment leaves room for the bit that announces a memory. -/
def Instruction.Readable : Instruction → Prop
  | .store align _ _ => align < 64
  | _ => True

/-- The place of a store is read back. -/
theorem reads_place {align memory : UInt32} (offset : UInt64) (small : align < 64) :
    Reads Instruction.readPlace (Instruction.encodePlace align memory offset)
      (.store align memory offset) := by
  intro rest
  have readOffset := readU64_unsignedLeb offset rest
  unfold Instruction.readPlace Instruction.encodePlace
  by_cases first : memory = 0
  · have readAlign := reads_index align (unsignedLeb offset.toNat ++ rest)
    rw [if_pos first, List.append_assoc]
    simp [readAlign, small, readOffset, first]
  · have readFlags := reads_index (align + 64)
      (encodeIndex memory ++ (unsignedLeb offset.toNat ++ rest))
    have readMemory := reads_index memory (unsignedLeb offset.toNat ++ rest)
    have large : ¬align + 64 < 64 := by
      simp only [UInt32.lt_iff_toNat_lt, UInt32.toNat_add, UInt32.reduceToNat] at small ⊢
      omega
    have below : align + 64 < 128 := by
      simp only [UInt32.lt_iff_toNat_lt, UInt32.toNat_add, UInt32.reduceToNat] at small ⊢
      omega
    rw [if_neg first, List.append_assoc, List.append_assoc]
    simp [readFlags, large, below, readMemory, readOffset]

/-- An instruction is read back. -/
theorem readsByNumber_instruction {i : Instruction} (readable : i.Readable) :
    ReadsByNumber Instruction.readOperands i.encode i := by
  cases i with
  | unreachable => exact ⟨_, [], rfl, by decide, fun rest => by simp [Instruction.readOperands]⟩
  | call function =>
    refine ⟨_, _, rfl, by decide, fun rest => ?_⟩
    simp [Instruction.readOperands, reads_index function rest]
  | drop => exact ⟨_, [], rfl, by decide, fun rest => by simp [Instruction.readOperands]⟩
  | localGet index =>
    refine ⟨_, _, rfl, by decide, fun rest => ?_⟩
    simp [Instruction.readOperands, reads_index index rest]
  | localSet index =>
    refine ⟨_, _, rfl, by decide, fun rest => ?_⟩
    simp [Instruction.readOperands, reads_index index rest]
  | store align memory offset =>
    refine ⟨_, _, rfl, by decide, fun rest => ?_⟩
    simp [Instruction.readOperands, reads_place offset readable rest]
  | const value =>
    refine ⟨_, _, rfl, by decide, fun rest => ?_⟩
    simp [Instruction.readOperands, readI32_signedLeb value rest]

/-- Code is read back. -/
theorem reads_code {code : List Instruction} (readable : ∀ i ∈ code, i.Readable) :
    Reads readCode (code.flatMap Instruction.encode ++ [endByte]) code := by
  intro rest
  rw [List.append_assoc, List.singleton_append, readCode,
    readUntilEnd_flatMap (fun i member => readsByNumber_instruction (readable i member)) [] rest]
  rfl

/-- The constant expression of one 32-bit integer is read back. -/
theorem reads_constant (value : Int32) :
    Reads ConstExpr.read (ConstExpr.encode [.i32 value]) [.i32 value] := by
  intro rest
  have each : ∀ i ∈ [ConstInstruction.i32 value],
      ReadsByNumber ConstInstruction.readOperands i.encode i := by
    intro i member
    rw [List.mem_singleton.mp member]
    refine ⟨_, _, rfl, by decide, fun rest => ?_⟩
    simp [ConstInstruction.readOperands, readI32_signedLeb value rest]
  rw [ConstExpr.encode, List.append_assoc, List.singleton_append, ConstExpr.read,
    readUntilEnd_flatMap each [] rest]
  rfl

/-- The content of a body is read back. -/
theorem reads_bodyContent {b : Body} (few : b.locals.length < UInt32.size)
    (readable : ∀ i ∈ b.code, i.Readable) : Reads Body.readContent b.content b := by
  intro rest
  have each : ∀ group ∈ b.locals,
      Reads LocalGroup.read (encodeIndex group.count ++ [group.type.byte]) group := by
    intro group _ rest
    have readCount := reads_index group.count ([group.type.byte] ++ rest)
    have readType := reads_valueType group.type rest
    simp only [List.singleton_append] at readCount readType
    simp [LocalGroup.read, List.append_assoc, readCount, readType]
  have readLocals := reads_vector few each
    (b.code.flatMap Instruction.encode ++ [endByte] ++ rest)
  have readBody := reads_code readable rest
  rw [List.append_assoc] at readLocals readBody
  rw [Body.readContent, Body.content, Body.encodeLocals, List.append_assoc, List.append_assoc,
    readLocals]
  simp only [Option.bind_eq_bind, Option.bind_some, readBody]

/-- A body is read back. -/
theorem reads_body {b : Body} (few : b.locals.length < UInt32.size)
    (short : b.content.length < UInt32.size) (readable : ∀ i ∈ b.code, i.Readable) :
    Reads Body.read b.encode b := by
  intro rest
  have content := reads_sized short rest
  have whole := (reads_bodyContent few readable).readAll
  simp [Body.read, Body.encode, content, whole]

/-- Data for the first memory, at a place given by one 32-bit integer, are read back. -/
theorem reads_data {bytes : List UInt8} (offset : Int32) (short : bytes.length < UInt32.size) :
    Reads Data.read (Data.encode ⟨.active 0 [.i32 offset], bytes⟩)
      ⟨.active 0 [.i32 offset], bytes⟩ := by
  intro rest
  have readFlags := reads_index 0 (ConstExpr.encode [.i32 offset] ++ (encodeSized bytes ++ rest))
  have readOffset := reads_constant offset (encodeSized bytes ++ rest)
  have readBytes := reads_sized short rest
  have zero : encodeIndex 0 = [0x00] := by
    simp [encodeIndex, unsignedLeb]
  rw [zero, List.singleton_append] at readFlags
  simp [Data.read, Data.encode, Data.readMode, List.append_assoc, readFlags, readOffset, readBytes]

/-! ## Sections -/

namespace Module

/-- A section is read by its number; the sections after it have later places. -/
theorem readSections_section {m after : Module} {last place : Nat} {number : UInt8}
    {content : List UInt8} (numbered : number ≠ 0) (placed : sectionPlace? number = some place)
    (inOrder : last < place) (short : content.length < UInt32.size)
    (read : m.readSection number content = some after) (rest : List UInt8) :
    m.readSections last (encodeSection number content ++ rest) =
      after.readSections place rest := by
  have sized := reads_sized short rest
  rw [encodeSection, List.cons_append, readSections]
  split
  · rename_i refused
    rw [sized] at refused
    cases refused
  · rename_i found
    rw [sized] at found
    cases found
    rw [if_neg numbered]
    simp only [placed, if_pos inOrder, read]

/-- A section of several items is read by its number. -/
theorem readSections_items {α : Type} {write : α → List UInt8} {items : List α}
    {m after : Module} {number : UInt8} {last place : Nat} (listed : items ≠ [])
    (numbered : number ≠ 0) (placed : sectionPlace? number = some place) (inOrder : last < place)
    (short : (encodeVector write items).length < UInt32.size)
    (read : m.readSection number (encodeVector write items) = some after) (rest : List UInt8) :
    m.readSections last (encodeItems number write items ++ rest) =
      after.readSections place rest := by
  have filled : items.isEmpty = false := by simpa using listed
  rw [encodeItems, filled]
  exact readSections_section numbered placed inOrder short read rest

/-- A section without a meaning is kept in front of those read before. -/
theorem readSections_custom {m : Module} {c : Custom} (last : Nat)
    (name : c.name.toUTF8.data.toList.length ≤ maxNameSize)
    (short : (encodeName c.name ++ c.bytes).length < UInt32.size) (rest : List UInt8) :
    m.readSections last (c.encode ++ rest) =
      readSections { m with customs := c :: m.customs } last rest := by
  have sized := reads_sized short rest
  have content : Custom.readContent (encodeName c.name ++ c.bytes) = some c := by
    simp [Custom.readContent, reads_name name c.bytes]
  rw [Custom.encode, encodeSection, List.cons_append, readSections]
  split
  · rename_i refused
    rw [sized] at refused
    cases refused
  · rename_i found
    rw [sized] at found
    cases found
    rw [if_pos rfl]
    simp only [content]

theorem readSections_nil (m : Module) (last : Nat) :
    m.readSections last [] = some { m with customs := m.customs.reverse } := by
  rw [readSections]

theorem decode?_header (sections : List UInt8) :
    decode? (header ++ sections) = readSections {} 0 sections := by
  simp [decode?, readBytes]

end Module

end TextureScript.Wasm
