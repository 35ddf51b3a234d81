import TextureScript.Wasm.Encoding

/-!
# Reading modules

The reader takes the bytes of a module apart, section by section. Sections come in a fixed order,
each at most once; those without a meaning may stand anywhere. The content of a section, and the
body of a function, must be used up to their last byte. Only functions can be imported, as a host
provides nothing else.
-/

namespace TextureScript.Wasm

/-- Read one byte. -/
def readByte : Reader UInt8
  | [] => none
  | b :: bytes => some (b, bytes)

/-- Read one given byte. -/
def expectByte (expected : UInt8) : Reader Unit
  | [] => none
  | b :: bytes => if b = expected then some ((), bytes) else none

/-- Read the given number of bytes. -/
def readBytes (count : Nat) : Reader (List UInt8) := fun bytes =>
  let taken := bytes.take count
  if taken.length = count then some (taken, bytes.drop count) else none

/-- Read bytes with their count before them. -/
def readSized : Reader (List UInt8) := fun bytes => do
  let (count, rest) ← readU32 bytes
  readBytes count.toNat rest

/-- Read the given number of items, in front of which others were read; those are in reverse. -/
def readManyInto {α : Type} (item : Reader α) :
    Nat → List α → Reader (List α)
  | 0, reversed, bytes => some (reversed.reverse, bytes)
  | count + 1, reversed, bytes =>
    match item bytes with
    | none => none
    | some (value, rest) => readManyInto item count (value :: reversed) rest

/-- Read items with their count before them. -/
def readVector {α : Type} (item : Reader α) : Reader (List α) := fun bytes => do
  let (count, rest) ← readU32 bytes
  readManyInto item count.toNat [] rest

/-- Read something that takes all the bytes. -/
def readAll {α : Type} (reader : Reader α) (bytes : List UInt8) : Option α :=
  match reader bytes with
  | some (value, []) => some value
  | _ => none

/-- Read an unsigned number of the given number of bytes, the lowest first. -/
def readLittleEndian : Nat → Reader UInt64
  | 0, bytes => some (0, bytes)
  | _ + 1, [] => none
  | count + 1, b :: bytes => do
    let (high, rest) ← readLittleEndian count bytes
    some (high <<< 8 ||| b.toUInt64, rest)

/-- The most bytes of a name. -/
def maxNameSize : Nat := 100000

/-- Read a name. -/
def readName : Reader String := fun bytes => do
  let (text, rest) ← readSized bytes
  let name ← String.fromUTF8? text.toByteArray
  if text.length ≤ maxNameSize then some (name, rest) else none

namespace ValueType

/-- The type of references that a byte stands for. -/
def reference? (b : UInt8) : Option ValueType :=
  if b = 0x70 then some funcRef else if b = 0x6f then some externRef else none

/-- Read a type of references, which may be written out as that of references that can be null. -/
def readReference : Reader ValueType
  | 0x63 :: b :: bytes => (reference? b).map (·, bytes)
  | b :: bytes => (reference? b).map (·, bytes)
  | [] => none

/-- Read a type of values. -/
def read : Reader ValueType
  | 0x7f :: bytes => some (i32, bytes)
  | 0x7e :: bytes => some (i64, bytes)
  | 0x7d :: bytes => some (f32, bytes)
  | 0x7c :: bytes => some (f64, bytes)
  | bytes => readReference bytes

end ValueType

/-- Read a function type. -/
def FunctionType.read : Reader FunctionType := fun bytes => do
  let (_, rest) ← expectByte 0x60 bytes
  let (params, rest) ← readVector ValueType.read rest
  let (results, rest) ← readVector ValueType.read rest
  some (⟨params, results⟩, rest)

/-- Read an imported function. -/
def Import.read : Reader Import := fun bytes => do
  let (group, rest) ← readName bytes
  let (name, rest) ← readName rest
  let (_, rest) ← expectByte 0x00 rest
  let (typeIndex, rest) ← readU32 rest
  some (⟨group, name, typeIndex⟩, rest)

/-- Read one of the numbers of limits. -/
def Limits.readSize (wide : Bool) : Reader UInt64 := fun bytes =>
  if wide then readU64 bytes else (readU32 bytes).map fun (size, rest) => (size.toUInt64, rest)

/-- Read the limits of a memory or a table. -/
def Limits.read : Reader Limits := fun bytes => do
  let (flags, rest) ← readByte bytes
  let wide := flags = 0x04 ∨ flags = 0x05
  let bounded := flags = 0x01 ∨ flags = 0x05
  let (min, rest) ← readSize wide rest
  if bounded then do
    let (max, rest) ← readSize wide rest
    some (⟨wide, min, some max⟩, rest)
  else if flags = 0x00 ∨ wide then some (⟨wide, min, none⟩, rest)
  else none

/-- Read a table. -/
def Table.read : Reader Table := fun bytes => do
  let (type, rest) ← ValueType.readReference bytes
  let (limits, rest) ← Limits.read rest
  some (⟨type, limits⟩, rest)

/-- Read an export. -/
def Export.read : Reader Export := fun bytes => do
  let (name, rest) ← readName bytes
  let (kind, rest) ← readByte rest
  let (index, rest) ← readU32 rest
  if kind = 0x00 then some (⟨name, .function index⟩, rest)
  else if kind = 0x01 then some (⟨name, .table index⟩, rest)
  else if kind = 0x02 then some (⟨name, .memory index⟩, rest)
  else if kind = 0x03 then some (⟨name, .global index⟩, rest)
  else none

/-- Read the alignment, the memory and the offset of a store. -/
def Instruction.readPlace : Reader Instruction := fun bytes => do
  let (flags, rest) ← readU32 bytes
  if flags < 64 then do
    let (offset, rest) ← readU64 rest
    some (.store flags 0 offset, rest)
  else if flags < 128 then do
    let (memory, rest) ← readU32 rest
    let (offset, rest) ← readU64 rest
    some (.store (flags - 64) memory offset, rest)
  else none

/-- Read the operands of the instruction with the given number. -/
def Instruction.readOperands (number : UInt8) : Reader Instruction := fun bytes =>
  if number = 0x00 then some (.unreachable, bytes)
  else if number = 0x10 then (readU32 bytes).map fun (function, rest) => (.call function, rest)
  else if number = 0x1a then some (.drop, bytes)
  else if number = 0x20 then (readU32 bytes).map fun (index, rest) => (.localGet index, rest)
  else if number = 0x21 then (readU32 bytes).map fun (index, rest) => (.localSet index, rest)
  else if number = 0x36 then readPlace bytes
  else if number = 0x41 then (readI32 bytes).map fun (value, rest) => (.const value, rest)
  else none

/-- The arithmetic instruction with the given number. -/
def ConstInstruction.arithmetic? (number : UInt8) : Option ConstInstruction :=
  if number = 0x6a then some (.arithmetic .add false)
  else if number = 0x6b then some (.arithmetic .subtract false)
  else if number = 0x6c then some (.arithmetic .multiply false)
  else if number = 0x7c then some (.arithmetic .add true)
  else if number = 0x7d then some (.arithmetic .subtract true)
  else if number = 0x7e then some (.arithmetic .multiply true)
  else none

/-- Read the type after the instruction for a null reference. -/
def ConstInstruction.readNull : Reader ConstInstruction
  | b :: bytes => (ValueType.reference? b).map fun type => (.refNull type, bytes)
  | [] => none

/-- Read the operands of the instruction of a constant expression with the given number. -/
def ConstInstruction.readOperands (number : UInt8) : Reader ConstInstruction := fun bytes =>
  if number = 0x41 then (readI32 bytes).map fun (value, rest) => (.i32 value, rest)
  else if number = 0x42 then (readI64 bytes).map fun (value, rest) => (.i64 value, rest)
  else if number = 0x43 then
    (readLittleEndian 4 bytes).map fun (bits, rest) => (.f32 bits.toUInt32, rest)
  else if number = 0x44 then (readLittleEndian 8 bytes).map fun (bits, rest) => (.f64 bits, rest)
  else if number = 0xd0 then readNull bytes
  else if number = 0xd2 then
    (readU32 bytes).map fun (function, rest) => (.refFunction function, rest)
  else (arithmetic? number).map (·, bytes)

/-- A reader shrinks when it never leaves more bytes than it was given. -/
def Reader.Shrinks {α : Type} (reader : Reader α) : Prop :=
  ∀ (bytes rest : List UInt8) (value : α), reader bytes = some (value, rest) →
    rest.length ≤ bytes.length

namespace Reader.Shrinks

/-- A reader that uses at least one byte shrinks. -/
theorem of_lt {α : Type} {reader : Reader α}
    (shorter : ∀ {bytes rest value}, reader bytes = some (value, rest) →
      rest.length < bytes.length) : reader.Shrinks :=
  fun _ _ _ read => Nat.le_of_lt (shorter read)

/-- A reader shrinks whatever is made of its value. -/
theorem map {α β : Type} {reader : Reader α} (shrinks : reader.Shrinks) (f : α → β) :
    Reader.Shrinks fun bytes => (reader bytes).map fun (value, rest) => (f value, rest) := by
  intro bytes rest value read
  simp only [Option.map_eq_some_iff, Prod.exists, Prod.mk.injEq] at read
  obtain ⟨_, after, found, _, rfl⟩ := read
  exact shrinks _ _ _ found

end Reader.Shrinks

/-- Reading the place of a store shrinks. -/
theorem Instruction.readPlace_shrinks : Reader.Shrinks readPlace := by
  intro bytes rest instruction read
  simp only [readPlace, Option.bind_eq_bind, Option.bind_eq_some_iff, Prod.exists] at read
  obtain ⟨flags, after, first, read⟩ := read
  have used := readU32_length_lt first
  split at read
  · simp only [Option.bind_eq_some_iff, Prod.exists, Option.some.injEq, Prod.mk.injEq] at read
    obtain ⟨_, _, second, _, rfl⟩ := read
    have := readU64_length_lt second
    omega
  · split at read
    · simp only [Option.bind_eq_some_iff, Prod.exists, Option.some.injEq, Prod.mk.injEq] at read
      obtain ⟨_, _, second, _, _, third, _, rfl⟩ := read
      have := readU32_length_lt second
      have := readU64_length_lt third
      omega
    · simp at read

/-- Reading operands shrinks. -/
theorem Instruction.readOperands_shrinks (number : UInt8) :
    Reader.Shrinks (readOperands number) := by
  intro bytes rest instruction read
  unfold readOperands at read
  split at read
  · simp_all
  split at read
  · exact (Reader.Shrinks.of_lt readU32_length_lt).map Instruction.call _ _ _ read
  split at read
  · simp_all
  split at read
  · exact (Reader.Shrinks.of_lt readU32_length_lt).map Instruction.localGet _ _ _ read
  split at read
  · exact (Reader.Shrinks.of_lt readU32_length_lt).map Instruction.localSet _ _ _ read
  split at read
  · exact readPlace_shrinks _ _ _ read
  split at read
  · exact (Reader.Shrinks.of_lt readI32_length_lt).map Instruction.const _ _ _ read
  · simp at read

/-- Reading a number of some bytes shrinks. -/
theorem readLittleEndian_shrinks (count : Nat) : Reader.Shrinks (readLittleEndian count) := by
  induction count with
  | zero =>
    intro bytes rest value read
    simp only [readLittleEndian, Option.some.injEq, Prod.mk.injEq] at read
    simp [read.2]
  | succ count ih =>
    intro bytes rest value read
    cases bytes with
    | nil => simp [readLittleEndian] at read
    | cons b bytes =>
      simp only [readLittleEndian, Option.bind_eq_bind, Option.bind_eq_some_iff, Prod.exists,
        Option.some.injEq, Prod.mk.injEq] at read
      obtain ⟨_, _, found, _, rfl⟩ := read
      have := ih _ _ _ found
      simp only [List.length_cons]
      omega

/-- Reading operands in a constant expression shrinks. -/
theorem ConstInstruction.readOperands_shrinks (number : UInt8) :
    Reader.Shrinks (readOperands number) := by
  intro bytes rest instruction read
  unfold readOperands at read
  split at read
  · exact (Reader.Shrinks.of_lt readI32_length_lt).map ConstInstruction.i32 _ _ _ read
  split at read
  · exact (Reader.Shrinks.of_lt readI64_length_lt).map ConstInstruction.i64 _ _ _ read
  split at read
  · exact (readLittleEndian_shrinks 4).map
      (fun bits => ConstInstruction.f32 bits.toUInt32) _ _ _ read
  split at read
  · exact (readLittleEndian_shrinks 8).map ConstInstruction.f64 _ _ _ read
  split at read
  · cases bytes with
    | nil => simp [readNull] at read
    | cons b bytes =>
      simp only [readNull, Option.map_eq_some_iff, Prod.mk.injEq] at read
      obtain ⟨_, _, _, rfl⟩ := read
      simp
  split at read
  · exact (Reader.Shrinks.of_lt readU32_length_lt).map ConstInstruction.refFunction _ _ _ read
  · simp only [Option.map_eq_some_iff, Prod.mk.injEq] at read
    obtain ⟨_, _, _, rfl⟩ := read
    simp

/-- Read instructions up to the byte that ends them, after those already read, which are in reverse.
An instruction is read by its number. -/
def readUntilEnd {α : Type} (operands : UInt8 → Reader α)
    (shrinks : ∀ number, Reader.Shrinks (operands number)) (reversed : List α) : Reader (List α)
  | [] => none
  | number :: bytes =>
    if number = endByte then some (reversed.reverse, bytes)
    else
      match read : operands number bytes with
      | none => none
      | some (instruction, rest) =>
        have := shrinks number _ _ _ read
        readUntilEnd operands shrinks (instruction :: reversed) rest
termination_by bytes => bytes.length
decreasing_by
  simp only [List.length_cons]
  omega

/-- Read the code of a function. -/
def readCode : Reader (List Instruction) :=
  readUntilEnd Instruction.readOperands Instruction.readOperands_shrinks []

/-- Read a constant expression. -/
def ConstExpr.read : Reader ConstExpr :=
  readUntilEnd ConstInstruction.readOperands ConstInstruction.readOperands_shrinks []

/-- Read a global. -/
def Global.read : Reader Global := fun bytes => do
  let (type, rest) ← ValueType.read bytes
  let (flag, rest) ← readByte rest
  let (initial, rest) ← ConstExpr.read rest
  if flag = 0x00 then some (⟨type, false, initial⟩, rest)
  else if flag = 0x01 then some (⟨type, true, initial⟩, rest)
  else none

namespace Element

/-- Read references to functions, with the mark of such references before them where it does not go
without saying. -/
def readFunctions (plain : Bool) : Reader ElementItems := fun bytes => do
  let rest ← if plain then some bytes else (expectByte 0x00 bytes).map (·.2)
  let (indices, rest) ← readVector readU32 rest
  some (.functions indices, rest)

/-- Read expressions for references, with their type before them where it does not go without
saying. -/
def readExpressions (plain : Bool) : Reader ElementItems := fun bytes => do
  let (type, rest) ← if plain then some (.funcRef, bytes) else ValueType.readReference bytes
  let (items, rest) ← readVector ConstExpr.read rest
  some (.expressions type items, rest)

/-- Read what becomes of elements, by the number that says how they are written. -/
def readMode (flags : UInt32) : Reader ElementMode := fun bytes =>
  if flags % 4 = 1 then some (.passive, bytes)
  else if flags % 4 = 3 then some (.declared, bytes)
  else do
    let (table, rest) ← if flags % 4 = 2 then readU32 bytes else some (0, bytes)
    let (offset, rest) ← ConstExpr.read rest
    some (.active table offset, rest)

/-- Read elements. -/
def read : Reader Element := fun bytes => do
  let (flags, rest) ← readU32 bytes
  if flags < 8 then do
    let plain := flags % 4 = 0
    let (mode, rest) ← readMode flags rest
    let (items, rest) ← if flags < 4 then readFunctions plain rest else readExpressions plain rest
    some (⟨mode, items⟩, rest)
  else none

end Element

/-- Read a group of locals. -/
def LocalGroup.read : Reader LocalGroup := fun bytes => do
  let (count, rest) ← readU32 bytes
  let (type, rest) ← ValueType.read rest
  some (⟨count, type⟩, rest)

/-- Read the content of a body. -/
def Body.readContent : Reader Body := fun bytes => do
  let (locals, rest) ← readVector LocalGroup.read bytes
  let (code, rest) ← readCode rest
  some (⟨locals, code⟩, rest)

/-- Read a body with its length before it. -/
def Body.read : Reader Body := fun bytes => do
  let (content, rest) ← readSized bytes
  let body ← readAll readContent content
  some (body, rest)

/-- Read what becomes of data, by the number that says how they are written. -/
def Data.readMode (flags : UInt32) : Reader DataMode := fun bytes =>
  if flags = 1 then some (.passive, bytes)
  else if flags = 0 ∨ flags = 2 then do
    let (memory, rest) ← if flags = 2 then readU32 bytes else some (0, bytes)
    let (offset, rest) ← ConstExpr.read rest
    some (.active memory offset, rest)
  else none

/-- Read data. -/
def Data.read : Reader Data := fun bytes => do
  let (flags, rest) ← readU32 bytes
  let (mode, rest) ← readMode flags rest
  let (bytes, rest) ← readSized rest
  some (⟨mode, bytes⟩, rest)

/-- Read the content of a section without a meaning. -/
def Custom.readContent (content : List UInt8) : Option Custom := do
  let (name, bytes) ← readName content
  some ⟨name, bytes⟩

namespace Module

/-- The place of the section with the given number among those with a meaning. -/
def sectionPlace? (number : UInt8) : Option Nat :=
  match number.toNat with
  | 12 => some 10
  | 10 => some 11
  | 11 => some 12
  | number => if 1 ≤ number ∧ number ≤ 9 then some number else none

/-- Add the content of the section with the given number. -/
def readSection (m : Module) (number : UInt8) (content : List UInt8) : Option Module :=
  match number.toNat with
  | 1 => do some { m with types := ← readAll (readVector FunctionType.read) content }
  | 2 => do some { m with imports := ← readAll (readVector Import.read) content }
  | 3 => do some { m with functions := ← readAll (readVector readU32) content }
  | 4 => do some { m with tables := ← readAll (readVector Table.read) content }
  | 5 => do some { m with memories := ← readAll (readVector Limits.read) content }
  | 6 => do some { m with globals := ← readAll (readVector Global.read) content }
  | 7 => do some { m with exports := ← readAll (readVector Export.read) content }
  | 8 => do some { m with start := some (← readAll readU32 content) }
  | 9 => do some { m with elements := ← readAll (readVector Element.read) content }
  | 10 => do some { m with bodies := ← readAll (readVector Body.read) content }
  | 11 => do some { m with data := ← readAll (readVector Data.read) content }
  | 12 => do some { m with dataCount := some (← readAll readU32 content) }
  | _ => none

end Module

/-- Reading bytes with their count before them uses at least one byte. -/
theorem readSized_length_lt {content bytes rest : List UInt8}
    (h : readSized bytes = some (content, rest)) : rest.length < bytes.length := by
  simp only [readSized, readBytes, Option.bind_eq_bind, Option.bind_eq_some_iff,
    Prod.exists] at h
  obtain ⟨count, after, read, h⟩ := h
  split at h
  · simp only [Option.some.injEq, Prod.mk.injEq] at h
    have shorter := readU32_length_lt read
    rw [← h.2, List.length_drop]
    omega
  · simp at h

namespace Module

/-- Add the sections in some bytes; those with a meaning have a place after `last`. -/
def readSections (m : Module) (last : Nat) : List UInt8 → Option Module
  | [] => some { m with customs := m.customs.reverse }
  | number :: bytes =>
    match read : readSized bytes with
    | none => none
    | some (content, rest) =>
      have := readSized_length_lt read
      if number = 0 then
        match Custom.readContent content with
        | none => none
        | some custom => readSections { m with customs := custom :: m.customs } last rest
      else
        match sectionPlace? number with
        | none => none
        | some place =>
          if last < place then
            match m.readSection number content with
            | none => none
            | some m => readSections m place rest
          else none
termination_by bytes => bytes.length
decreasing_by
  all_goals
    simp only [List.length_cons]
    omega

/-- The module that some bytes stand for. -/
def decode? (bytes : List UInt8) : Option Module := do
  let (start, rest) ← readBytes header.length bytes
  if start = header then readSections {} 0 rest else none

end Module

end TextureScript.Wasm
