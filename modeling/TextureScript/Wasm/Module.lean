import TextureScript.Wasm.Constant

/-!
# Modules

A module is what a script is compiled to: function types, imported functions, functions with their
code, a memory, the names under which a host finds them, and the bytes that the memory starts with.
Other modules can have more than that, tables, globals and elements among it, but the code of a
function uses only the few instructions that straight-line code on 32-bit integers needs.
-/

namespace TextureScript.Wasm

/-- The instructions of a function. -/
inductive Instruction where
  /-- Trap. -/
  | unreachable
  /-- Call the function with the given index. -/
  | call (function : UInt32)
  /-- Forget the top value. -/
  | drop
  /-- Push the value of a local. -/
  | localGet (index : UInt32)
  /-- Pop a value into a local. -/
  | localSet (index : UInt32)
  /-- Pop a value and an address, and store the value in a memory at the address and the offset. -/
  | store (align memory : UInt32) (offset : UInt64)
  /-- Push a constant. -/
  | const (value : Int32)
deriving DecidableEq, Repr, Inhabited

/-- The values that a function takes and gives back. -/
structure FunctionType where
  /-- The types of the values taken, in order. -/
  params : List ValueType
  /-- The types of the values given back, in order. -/
  results : List ValueType
deriving DecidableEq, Repr, Inhabited

/-- The type of a function that takes and gives back 32-bit integers. -/
def FunctionType.ofWords (params results : Nat) : FunctionType :=
  ⟨List.replicate params .i32, List.replicate results .i32⟩

/-- A function that the host provides. -/
structure Import where
  /-- The group of host functions. -/
  group : String
  /-- The name within the group. -/
  name : String
  /-- The index of its type. -/
  typeIndex : UInt32
deriving DecidableEq, Repr, Inhabited

/-- The size of a memory in pages, or of a table in entries. -/
structure Limits where
  /-- Whether it is indexed by 64-bit integers, and not by 32-bit ones. -/
  wide : Bool := false
  /-- The size it starts with. -/
  min : UInt64
  /-- The size it can grow to. -/
  max : Option UInt64
deriving DecidableEq, Repr, Inhabited

/-- The type of the integers that index a memory or a table. -/
def Limits.indexType (l : Limits) : ValueType :=
  if l.wide then .i64 else .i32

/-- A table of references. -/
structure Table where
  /-- The type of its entries. -/
  type : ValueType
  /-- Its size. -/
  limits : Limits
deriving DecidableEq, Repr, Inhabited

/-- A global variable. -/
structure Global where
  /-- The type of its value. -/
  type : ValueType
  /-- Whether its value can change. -/
  isMutable : Bool
  /-- The value it starts with. -/
  initial : ConstExpr
deriving DecidableEq, Repr, Inhabited

/-- What an exported name stands for. -/
inductive Exported where
  /-- The function with the given index. -/
  | function (index : UInt32)
  /-- The table with the given index. -/
  | table (index : UInt32)
  /-- The memory with the given index. -/
  | memory (index : UInt32)
  /-- The global with the given index. -/
  | global (index : UInt32)
deriving DecidableEq, Repr, Inhabited

/-- A name under which the host finds a part of the module. -/
structure Export where
  /-- The name. -/
  name : String
  /-- What it stands for. -/
  target : Exported
deriving DecidableEq, Repr, Inhabited

/-- What becomes of elements before the run. -/
inductive ElementMode where
  /-- They are put into a table at an offset. -/
  | active (table : UInt32) (offset : ConstExpr)
  /-- They are kept aside. -/
  | passive
  /-- They are only mentioned. -/
  | declared
deriving DecidableEq, Repr, Inhabited

/-- References to be put into tables. -/
inductive ElementItems where
  /-- References to functions, by their indices. -/
  | functions (indices : List UInt32)
  /-- References of a type, by the expressions that compute them. -/
  | expressions (type : ValueType) (items : List ConstExpr)
deriving DecidableEq, Repr, Inhabited

/-- Some elements of a module. -/
structure Element where
  /-- What becomes of them. -/
  mode : ElementMode
  /-- The references. -/
  items : ElementItems
deriving DecidableEq, Repr, Inhabited

/-- Some locals of one type. -/
structure LocalGroup where
  /-- How many they are. -/
  count : UInt32
  /-- Their type. -/
  type : ValueType
deriving DecidableEq, Repr, Inhabited

/-- The locals and the code of a function. -/
structure Body where
  /-- The locals besides the parameters, group by group. -/
  locals : List LocalGroup
  /-- The instructions. -/
  code : List Instruction
deriving DecidableEq, Repr, Inhabited

/-- What becomes of data before the run. -/
inductive DataMode where
  /-- They are written into a memory at an offset. -/
  | active (memory : UInt32) (offset : ConstExpr)
  /-- They are kept aside. -/
  | passive
deriving DecidableEq, Repr, Inhabited

/-- Some bytes that a module comes with. -/
structure Data where
  /-- What becomes of them. -/
  mode : DataMode
  /-- The bytes. -/
  bytes : List UInt8
deriving DecidableEq, Repr, Inhabited

/-- Bytes that have no meaning for the host. -/
structure Custom where
  /-- What the bytes are about. -/
  name : String
  /-- The bytes. -/
  bytes : List UInt8
deriving DecidableEq, Repr, Inhabited

/-- A module. Functions are counted with the imported ones first. -/
structure Module where
  /-- The function types. -/
  types : List FunctionType := []
  /-- The imported functions. -/
  imports : List Import := []
  /-- The index of the type of each function that is not imported. -/
  functions : List UInt32 := []
  /-- The tables. -/
  tables : List Table := []
  /-- The memories. -/
  memories : List Limits := []
  /-- The globals. -/
  globals : List Global := []
  /-- The exported names. -/
  exports : List Export := []
  /-- The function that runs before any other. -/
  start : Option UInt32 := none
  /-- What is put into tables. -/
  elements : List Element := []
  /-- How many data there are, where the module says so ahead of its code. -/
  dataCount : Option UInt32 := none
  /-- The bodies of the functions that are not imported. -/
  bodies : List Body := []
  /-- What is written into memories. -/
  data : List Data := []
  /-- What the module carries besides. -/
  customs : List Custom := []
deriving DecidableEq, Repr, Inhabited

namespace Module

/-- How many functions a module has, with the imported ones. -/
def functionCount (m : Module) : Nat :=
  m.imports.length + m.functions.length

/-- The index of the type of the function with the given index. -/
def typeIndex? (m : Module) (function : UInt32) : Option UInt32 :=
  match m.imports[function.toNat]? with
  | some function => some function.typeIndex
  | none => m.functions[function.toNat - m.imports.length]?

/-- The type of the function with the given index. -/
def functionType? (m : Module) (function : UInt32) : Option FunctionType :=
  (m.typeIndex? function).bind fun index => m.types[index.toNat]?

end Module

/-- The number of bytes in a page of memory. -/
def pageSize : Nat := 65536

end TextureScript.Wasm
