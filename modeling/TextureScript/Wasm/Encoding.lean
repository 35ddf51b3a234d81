import TextureScript.Wasm.Leb128
import TextureScript.Wasm.Module

/-!
# Writing modules

A module is written as a header and then section by section, each with its number and its length in
bytes. Whatever there can be several of is written with its count first. A section for which there
is nothing is left out.
-/

namespace TextureScript.Wasm

/-- The byte that ends a list of instructions. -/
def endByte : UInt8 := 0x0b

/-- The byte that stands for a type of values. -/
def ValueType.byte : ValueType → UInt8
  | i32 => 0x7f
  | i64 => 0x7e
  | f32 => 0x7d
  | f64 => 0x7c
  | funcRef => 0x70
  | externRef => 0x6f

/-- Items with their count before them. -/
def encodeVector {α : Type} (item : α → List UInt8) (items : List α) : List UInt8 :=
  unsignedLeb items.length ++ items.flatMap item

/-- Bytes with their count before them. -/
def encodeSized (bytes : List UInt8) : List UInt8 :=
  unsignedLeb bytes.length ++ bytes

/-- A name, as its bytes with their count before them. -/
def encodeName (name : String) : List UInt8 :=
  encodeSized name.toUTF8.data.toList

/-- An index or a count. -/
def encodeIndex (index : UInt32) : List UInt8 :=
  unsignedLeb index.toNat

/-- The given number of bytes of a number, the lowest first. -/
def littleEndian : Nat → UInt64 → List UInt8
  | 0, _ => []
  | count + 1, bits => bits.toUInt8 :: littleEndian count (bits >>> 8)

namespace Instruction

/-- The memory, the alignment and the offset of a store: the memory is written only when it is not
the first one, which a bit beside the alignment says. -/
def encodePlace (align memory : UInt32) (offset : UInt64) : List UInt8 :=
  (if memory = 0 then encodeIndex align else encodeIndex (align + 64) ++ encodeIndex memory) ++
    unsignedLeb offset.toNat

/-- An instruction is its number and its operands. -/
def encode : Instruction → List UInt8
  | unreachable => [0x00]
  | call function => 0x10 :: encodeIndex function
  | drop => [0x1a]
  | localGet index => 0x20 :: encodeIndex index
  | localSet index => 0x21 :: encodeIndex index
  | store align memory offset => 0x36 :: encodePlace align memory offset
  | const value => 0x41 :: signedLeb value.toInt

end Instruction

namespace ConstInstruction

/-- The number of an arithmetic instruction. -/
def arithmeticByte : Arithmetic → Bool → UInt8
  | .add, false => 0x6a
  | .subtract, false => 0x6b
  | .multiply, false => 0x6c
  | .add, true => 0x7c
  | .subtract, true => 0x7d
  | .multiply, true => 0x7e

/-- An instruction is its number and its operands. -/
def encode : ConstInstruction → List UInt8
  | i32 value => 0x41 :: signedLeb value.toInt
  | i64 value => 0x42 :: signedLeb value.toInt
  | f32 bits => 0x43 :: littleEndian 4 bits.toUInt64
  | f64 bits => 0x44 :: littleEndian 8 bits
  | refNull type => [0xd0, type.byte]
  | refFunction function => 0xd2 :: encodeIndex function
  | arithmetic operation wide => [arithmeticByte operation wide]

end ConstInstruction

/-- A constant expression is its instructions up to their end. -/
def ConstExpr.encode (e : ConstExpr) : List UInt8 :=
  e.flatMap ConstInstruction.encode ++ [endByte]

/-- A function type lists its parameters and its results. -/
def FunctionType.encode (t : FunctionType) : List UInt8 :=
  0x60 :: (encodeSized (t.params.map ValueType.byte) ++ encodeSized (t.results.map ValueType.byte))

/-- An import is its group, its name and its type. -/
def Import.encode (i : Import) : List UInt8 :=
  encodeName i.group ++ encodeName i.name ++ 0x00 :: encodeIndex i.typeIndex

/-- Limits say first whether there is an upper one and how they are indexed. -/
def Limits.encode (l : Limits) : List UInt8 :=
  let width : UInt8 := if l.wide then 0x04 else 0x00
  match l.max with
  | none => width :: unsignedLeb l.min.toNat
  | some max => (width + 0x01) :: (unsignedLeb l.min.toNat ++ unsignedLeb max.toNat)

/-- A table is the type of its entries and its limits. -/
def Table.encode (t : Table) : List UInt8 :=
  t.type.byte :: t.limits.encode

/-- A global is its type, whether it can change, and its first value. -/
def Global.encode (g : Global) : List UInt8 :=
  g.type.byte :: (if g.isMutable then 0x01 else 0x00) :: g.initial.encode

/-- An export is its name and what it stands for. -/
def Export.encode (e : Export) : List UInt8 :=
  encodeName e.name ++
    match e.target with
    | .function index => 0x00 :: encodeIndex index
    | .table index => 0x01 :: encodeIndex index
    | .memory index => 0x02 :: encodeIndex index
    | .global index => 0x03 :: encodeIndex index

namespace Element

/-- Whether the table and the type of some elements go without saying. -/
def isPlain (e : Element) : Bool :=
  match e.mode, e.items with
  | .active table _, .functions _ => table == 0
  | .active table _, .expressions type _ => table == 0 && type == .funcRef
  | _, _ => false

/-- The number that says how some elements are written. -/
def flags (e : Element) : UInt32 :=
  let items : UInt32 :=
    match e.items with
    | .functions _ => 0
    | .expressions _ _ => 4
  match e.mode with
  | .active _ _ => if e.isPlain then items else items + 2
  | .passive => items + 1
  | .declared => items + 3

/-- Elements are written with what becomes of them and with their type. -/
def encode (e : Element) : List UInt8 :=
  let place : List UInt8 :=
    match e.mode with
    | .active table offset => (if e.isPlain then [] else encodeIndex table) ++ offset.encode
    | _ => []
  let type : List UInt8 :=
    if e.isPlain then []
    else
      match e.items with
      | .functions _ => [0x00]
      | .expressions type _ => [type.byte]
  let items : List UInt8 :=
    match e.items with
    | .functions indices => encodeVector encodeIndex indices
    | .expressions _ items => encodeVector ConstExpr.encode items
  encodeIndex e.flags ++ place ++ type ++ items

end Element

/-- The locals of a body, group by group. -/
def Body.encodeLocals (b : Body) : List UInt8 :=
  encodeVector (fun group => encodeIndex group.count ++ [group.type.byte]) b.locals

/-- What a body consists of, without its length. -/
def Body.content (b : Body) : List UInt8 :=
  b.encodeLocals ++ b.code.flatMap Instruction.encode ++ [endByte]

/-- A body is written with its length before it. -/
def Body.encode (b : Body) : List UInt8 :=
  encodeSized b.content

/-- Data are written with what becomes of them. -/
def Data.encode (d : Data) : List UInt8 :=
  (match d.mode with
    | .active memory offset =>
      if memory = 0 then 0x00 :: offset.encode else 0x02 :: encodeIndex memory ++ offset.encode
    | .passive => [0x01]) ++
    encodeSized d.bytes

/-- A section is its number and its content with its length. -/
def encodeSection (number : UInt8) (content : List UInt8) : List UInt8 :=
  number :: encodeSized content

/-- A section of several items, left out when there are none. -/
def encodeItems {α : Type} (number : UInt8) (item : α → List UInt8) (items : List α) :
    List UInt8 :=
  if items.isEmpty then [] else encodeSection number (encodeVector item items)

/-- A section of one number, left out when there is none. -/
def encodeSingle (number : UInt8) (value : Option UInt32) : List UInt8 :=
  match value with
  | none => []
  | some value => encodeSection number (encodeIndex value)

/-- A section without a meaning for the host. -/
def Custom.encode (c : Custom) : List UInt8 :=
  encodeSection 0 (encodeName c.name ++ c.bytes)

/-- The bytes with which every module begins: the mark of the format and its version. -/
def header : List UInt8 := [0x00, 0x61, 0x73, 0x6d, 0x01, 0x00, 0x00, 0x00]

namespace Module

/-- Everything that comes before the code. -/
def encodeBeforeCode (m : Module) : List UInt8 :=
  header ++ encodeItems 1 FunctionType.encode m.types ++ encodeItems 2 Import.encode m.imports ++
    encodeItems 3 encodeIndex m.functions ++ encodeItems 4 Table.encode m.tables ++
    encodeItems 5 Limits.encode m.memories ++ encodeItems 6 Global.encode m.globals ++
    encodeItems 7 Export.encode m.exports ++ encodeSingle 8 m.start ++
    encodeItems 9 Element.encode m.elements ++ encodeSingle 12 m.dataCount

/-- The code of the functions. -/
def encodeCode (m : Module) : List UInt8 :=
  encodeItems 10 Body.encode m.bodies

/-- Everything that comes after the code. -/
def encodeAfterCode (m : Module) : List UInt8 :=
  encodeItems 11 Data.encode m.data ++ m.customs.flatMap Custom.encode

/-- The bytes of a module. -/
def encode (m : Module) : List UInt8 :=
  m.encodeBeforeCode ++ m.encodeCode ++ m.encodeAfterCode

end Module

end TextureScript.Wasm
