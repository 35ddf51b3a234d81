import Std.Data.TreeSet
import TextureScript.Wasm.Module

/-!
# Valid modules

A module is valid when every index in it has a meaning, its limits are kept, and everything in it is
well typed. A body is typed by following the types on the operand stack. After a trap whatever lies
below what is pushed there is arbitrary.
-/

namespace TextureScript.Wasm

/-- The most locals that a function may have. -/
def maxLocals : Nat := 50000

/-- The most parameters, and the most results, that a function may have. -/
def maxValues : Nat := 1000

/-- The most pages of a memory that is indexed by 32-bit integers. -/
def maxPages : Nat := 65536

/-- The most pages of a memory that is indexed by 64-bit integers. -/
def maxWidePages : Nat := 281474976710656

/-- The most entries that a table starts with, and the most elements put into one at once. -/
def maxEntries : Nat := 10000000

/-- The most tables, and the most memories, of a module. -/
def maxTables : Nat := 100

/-- The most data, and the most lists of elements, of a module. -/
def maxSegments : Nat := 100000

/-- The most types, functions, imports, exports or globals of a module. -/
def maxItems : Nat := 1000000

/-- The types on the operand stack as far as they are known. -/
structure Operands where
  /-- The types known to be there, the topmost first. -/
  known : List ValueType := []
  /-- Whether arbitrary values lie below them. -/
  arbitrary : Bool := false
deriving DecidableEq, Repr, Inhabited

namespace Operands

/-- Take a value of any type off the stack. -/
def popAny (s : Operands) : Option Operands :=
  match s.known with
  | _ :: known => some { s with known }
  | [] => if s.arbitrary then some s else none

/-- Take a value of the given type off the stack. -/
def pop (s : Operands) (type : ValueType) : Option Operands :=
  match s.known with
  | found :: known => if found = type then some { s with known } else none
  | [] => if s.arbitrary then some s else none

/-- Take values of the given types off the stack, the last of them being the topmost. -/
def popAll (s : Operands) (types : List ValueType) : Option Operands :=
  types.reverse.foldlM pop s

/-- Put a value on the stack. -/
def push (s : Operands) (type : ValueType) : Operands :=
  { s with known := type :: s.known }

/-- Put values on the stack, in order. -/
def pushAll (s : Operands) (types : List ValueType) : Operands :=
  types.foldl push s

end Operands

/-- Whether a store of a 32-bit integer into a memory can be placed as it is. -/
def Limits.admits (l : Limits) (align : UInt32) (offset : UInt64) : Bool :=
  align ≤ 2 && (l.wide || offset.toNat < UInt32.size)

/-- The stack after an instruction of a function with the given locals. -/
def Instruction.check (m : Module) (locals : Array ValueType) (s : Operands) :
    Instruction → Option Operands
  | .unreachable => some ⟨[], true⟩
  | .call function => do
    let type ← m.functionType? function
    let s ← s.popAll type.params
    some (s.pushAll type.results)
  | .drop => s.popAny
  | .localGet index => do some (s.push (← locals[index.toNat]?))
  | .localSet index => do s.pop (← locals[index.toNat]?)
  | .store align memory offset => do
    let limits ← m.memories[memory.toNat]?
    if limits.admits align offset then s.popAll [limits.indexType, .i32] else none
  | .const _ => some (s.push .i32)

namespace Body

/-- The number of locals of a body besides the parameters. -/
def localCount (b : Body) : Nat :=
  b.locals.foldr (fun group count => group.count.toNat + count) 0

/-- The types of the parameters and the other locals of a body. -/
def localTypes (type : FunctionType) (b : Body) : Array ValueType :=
  (type.params ++ b.locals.flatMap fun group =>
    List.replicate group.count.toNat group.type).toArray

/-- Whether the code of a body leaves exactly the results of its type on the stack. -/
def isTyped (m : Module) (type : FunctionType) (b : Body) : Bool :=
  let final := do
    let s ← b.code.foldlM (Instruction.check m (b.localTypes type)) {}
    s.popAll type.results
  final.any (·.known.isEmpty)

/-- Whether a body is that of a function with the given type. -/
def isValid (m : Module) (type : FunctionType) (b : Body) : Bool :=
  type.params.length + b.localCount ≤ maxLocals && b.isTyped m type

end Body

/-- Whether a function type keeps its limits. -/
def FunctionType.isValid (t : FunctionType) : Bool :=
  t.params.length ≤ maxValues && t.results.length ≤ maxValues

/-- How much a function of a type adds to what a module shows to its host. -/
def FunctionType.surface (t : FunctionType) : Nat :=
  1 + t.params.length + t.results.length

/-- Whether an upper limit is no lower than the size at the start. -/
def Limits.isOrdered (l : Limits) : Bool :=
  l.max.all (l.min ≤ ·)

/-- Whether limits are those of a memory. -/
def Limits.isMemory (l : Limits) : Bool :=
  let most := if l.wide then maxWidePages else maxPages
  l.isOrdered && l.min.toNat ≤ most && l.max.all (·.toNat ≤ most)

/-- Whether a table has possible limits. -/
def Table.isValid (t : Table) : Bool :=
  t.limits.isOrdered && t.limits.min.toNat ≤ maxEntries

/-- Whether the value that a global starts with is of its type. -/
def Global.isValid (m : Module) (g : Global) : Bool :=
  g.initial.hasType m.functionCount g.type

/-- Whether an exported part exists. -/
def Export.isValid (m : Module) (e : Export) : Bool :=
  match e.target with
  | .function index => index.toNat < m.functionCount
  | .table index => index.toNat < m.tables.length
  | .memory index => index.toNat < m.memories.length
  | .global index => index.toNat < m.globals.length

/-- The type of some elements. -/
def ElementItems.type : ElementItems → ValueType
  | functions _ => .funcRef
  | expressions type _ => type

/-- The number of some elements. -/
def ElementItems.count : ElementItems → Nat
  | functions indices => indices.length
  | expressions _ items => items.length

/-- Whether every element is a reference of the right type. -/
def ElementItems.isValid (m : Module) : ElementItems → Bool
  | functions indices => indices.all (·.toNat < m.functionCount)
  | expressions type items => items.all (·.hasType m.functionCount type)

/-- Whether elements are of the right type, and fit the table they are put into. -/
def Element.isValid (m : Module) (e : Element) : Bool :=
  e.items.count ≤ maxEntries && e.items.isValid m &&
    match e.mode with
    | .active table offset =>
      match m.tables[table.toNat]? with
      | some table =>
        table.type == e.items.type && offset.hasType m.functionCount table.limits.indexType
      | none => false
    | _ => true

/-- Whether data have a place. -/
def Data.isValid (m : Module) (d : Data) : Bool :=
  match d.mode with
  | .active memory offset =>
    match m.memories[memory.toNat]? with
    | some limits => offset.hasType m.functionCount limits.indexType
    | none => false
  | .passive => true

namespace Module

/-- Whether a module has no more of anything than it may have. -/
def keepsCounts (m : Module) : Bool :=
  m.types.length ≤ maxItems && m.imports.length ≤ maxItems && m.functionCount ≤ maxItems &&
    m.globals.length ≤ maxItems && m.exports.length ≤ maxItems && m.tables.length ≤ maxTables &&
    m.memories.length ≤ maxTables && m.elements.length ≤ maxSegments &&
    m.data.length ≤ maxSegments

/-- The size of what a module shows to its host: everything imported or exported counts, a function
with all its parameters and results. -/
def surface (m : Module) : Nat :=
  let ofFunction (type : Option FunctionType) : Nat := (type.map FunctionType.surface).getD 0
  let imported := m.imports.foldl
    (fun size i => size + ofFunction m.types[i.typeIndex.toNat]?) 1
  m.exports.foldl
    (fun size e =>
      match e.target with
      | .function index => size + ofFunction (m.functionType? index)
      | _ => size + 1)
    imported

/-- Whether all functions have types. -/
def typesExist (m : Module) : Bool :=
  m.imports.all (·.typeIndex.toNat < m.types.length) &&
    m.functions.all (·.toNat < m.types.length)

/-- Whether no two exports have one name. -/
def exportsDistinct (m : Module) : Bool :=
  (m.exports.foldl (fun names e => names.insert e.name) ({} : Std.TreeSet String)).size ==
    m.exports.length

/-- Whether the function that runs first takes and gives back nothing. -/
def startValid (m : Module) : Bool :=
  m.start.all fun function => m.functionType? function == some ⟨[], []⟩

/-- Whether every function that is not imported has a valid body. -/
def bodiesValid (m : Module) : Bool :=
  m.functions.length == m.bodies.length &&
    (m.functions.zip m.bodies).all fun (index, body) =>
      (m.types[index.toNat]?).any fun type => body.isValid m type

/-- Whether a module is valid. -/
def isValid (m : Module) : Bool :=
  m.keepsCounts && m.types.all FunctionType.isValid && m.typesExist &&
    m.tables.all Table.isValid && m.memories.all Limits.isMemory &&
    m.globals.all (Global.isValid m) && m.exports.all (Export.isValid m) && m.exportsDistinct &&
    m.surface < maxItems && m.startValid && m.elements.all (Element.isValid m) &&
    m.dataCount.all (·.toNat == m.data.length) && m.bodiesValid && m.data.all (Data.isValid m)

end Module

end TextureScript.Wasm
