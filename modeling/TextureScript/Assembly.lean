import TextureScript.Compiled
import TextureScript.Digest.Sha256
import TextureScript.Plan
import TextureScript.Wasm.Encoding
import TextureScript.Wasm.Machine

/-!
# Assembling a module

A plan becomes a module that imports the whole catalogue, keeps the value of every binding in a
local of its own, and stores the outputs into slots of its memory, which hold the word for no image
before the run. A plan that is not well formed, or too large for a module, is refused.
-/

namespace TextureScript

/-- Why a plan cannot be assembled. -/
inductive AssemblyFault where
  /-- There are more outputs than slots fit into the memory. -/
  | tooManySlots (count : Nat)
  /-- There are more bindings than can be numbered. -/
  | tooManyBindings (count : Nat)
  /-- A call has the wrong number of arguments. -/
  | wrongArity (operation : Operation) (given : Nat)
  /-- An operand refers to a binding that does not exist. -/
  | unresolvedResult (index : UInt32)
  /-- The function would have too many locals, which it declares at the given offset. -/
  | tooManyLocals (offset : Nat)
deriving DecidableEq, Repr, Inhabited

namespace Assembly

/-- The size of a slot in bytes. -/
def slotSize : Nat := 4

/-- The most pages of a module's memory. -/
def maxMemoryPages : Nat := 16

/-- The most slots that fit into a module's memory. -/
def maxSlots : Nat := maxMemoryPages * Wasm.pageSize / slotSize

/-- The pages that some slots take, at least one. -/
def pagesForSlots (count : Nat) : Nat :=
  max ((count * slotSize + Wasm.pageSize - 1) / Wasm.pageSize) 1

/-- The version that modules carry. -/
def version : String := "0.1.0"

/-- The name under which modules carry the version. -/
def versionSection : String := "coocoo"

end Assembly

open Assembly

/-- A number in lowercase hexadecimal digits. -/
def hexadecimal (n : Nat) : String :=
  String.ofList (Nat.toDigits 16 n)

/-- What a fault says. -/
def AssemblyFault.message : AssemblyFault → String
  | tooManySlots count =>
    s!"limit exceeded: {count} output slots, at most {maxSlots} fit in linear memory"
  | tooManyBindings count => s!"limit exceeded: {count} bindings"
  | wrongArity operation given =>
    s!"internal codegen error: {operation.name} expects {operation.arity} arguments, " ++
      s!"resolver produced {given}"
  | unresolvedResult index => s!"unresolved local: {index}"
  | tooManyLocals offset =>
    "WASM validation failed: too many locals: locals exceed maximum " ++
      s!"(at offset 0x{hexadecimal offset})"

/-- The instruction that pushes an operand. -/
def Operand.instruction : Operand → Wasm.Instruction
  | input handle => .const handle.toWire
  | result index => .localGet index
  | number value => .const value

/-- The instructions that push a value. -/
def Value.code : Value → List Wasm.Instruction
  | call operation args =>
    args.map Operand.instruction ++ [.call (UInt32.ofNat operation.importIndex)]
  | copy operand => [operand.instruction]

/-- The fault of an operand among the given number of bindings. -/
def Operand.fault? (bindings : Nat) : Operand → Option AssemblyFault
  | result index => if index.toNat < bindings then none else some (.unresolvedResult index)
  | _ => none

/-- The first fault of a value: the number of arguments of a call comes before its operands. -/
def Value.fault? (bindings : Nat) : Value → Option AssemblyFault
  | call operation args =>
    if args.length = operation.arity then args.findSome? (Operand.fault? bindings)
    else some (.wrongArity operation args.length)
  | copy operand => operand.fault? bindings

namespace Plan

/-- The number of outputs. -/
def slotCount (plan : Plan) : Nat :=
  plan.channels.size + plan.textures.size

/-- The images that leave the script, channels first. -/
def outputs (plan : Plan) : List Operand :=
  plan.channels.toList.map (·.source) ++ plan.textures.toList.map (·.source)

/-- The address of the slot of an output. -/
def slotOffset (index : Nat) : UInt32 :=
  UInt32.ofNat (slotSize * index)

/-- The first fault of a plan in the order in which its code is written. -/
def fault? (plan : Plan) : Option AssemblyFault :=
  let bindings := plan.bindings.size
  (plan.bindings.toList.findSome? fun binding => binding.value.fault? bindings).or
    (plan.outputs.findSome? (Operand.fault? bindings))

/-- The code that evaluates a binding into its local. -/
def bindingCode (index : Nat) (binding : Binding) : List Wasm.Instruction :=
  binding.value.code ++ [.localSet (UInt32.ofNat index)]

/-- The code that stores an output into its slot. -/
def slotCode (index : Nat) (source : Operand) : List Wasm.Instruction :=
  [.const (slotOffset index).toInt32, source.instruction, .store 2 0 0]

/-- The code of a plan: first the bindings, then the outputs. -/
def code (plan : Plan) : List Wasm.Instruction :=
  (plan.bindings.toList.mapIdx bindingCode).flatten ++ (plan.outputs.mapIdx slotCode).flatten

/-- The function that a module runs: one local for every binding. -/
def body (plan : Plan) : Wasm.Body where
  locals := if plan.bindings.isEmpty then [] else [⟨UInt32.ofNat plan.bindings.size, .i32⟩]
  code := plan.code

/-- The type of the function that a module runs, then one type for every number of arguments. -/
def moduleTypes : List Wasm.FunctionType :=
  [.ofWords 0 0, .ofWords 1 1, .ofWords 2 1, .ofWords 3 1, .ofWords 6 1]

/-- The import of an operation. -/
def importOf (operation : Operation) : Wasm.Import :=
  ⟨Wasm.importGroup, operation.name, UInt32.ofNat operation.typeIndex⟩

/-- The words for no image that the slots hold before the run. -/
def slotData (count : Nat) : List UInt8 :=
  (List.replicate count (Wasm.wordBytes Handle.unset.toWire)).flatten

/-- The module of a plan. -/
def module (plan : Plan) : Wasm.Module where
  types := moduleTypes
  imports := Operation.all.map importOf
  functions := [0]
  memories :=
    [{ min := UInt64.ofNat (pagesForSlots plan.slotCount)
       max := some (UInt64.ofNat maxMemoryPages) }]
  exports :=
    [⟨Wasm.entryName, .function (UInt32.ofNat Operation.all.length)⟩,
      ⟨Wasm.memoryName, .memory 0⟩]
  bodies := [plan.body]
  data := if plan.slotCount = 0 then [] else [⟨.active 0 [.i32 0], slotData plan.slotCount⟩]
  customs := [⟨versionSection, version.toUTF8.data.toList⟩]

/-- The offset in the module at which the locals of its function are declared: after the number and
the length of the code section, the count of bodies, the length of the body and the count of
groups. -/
def localsOffset (plan : Plan) : Nat :=
  let body := Wasm.unsignedLeb plan.body.content.length
  let bodies := 1 + plan.body.encode.length
  plan.module.encodeBeforeCode.length + 1 + (Wasm.unsignedLeb bodies).length + 1 + body.length + 1

/-- The slots of the material channels. -/
def materialSlots (plan : Plan) : Array MaterialSlot :=
  plan.channels.mapIdx fun i output =>
    ⟨slotOffset i, output.material, output.channel, output.materialType⟩

/-- The slots of the textures, which come after those of the channels. -/
def textureSlots (plan : Plan) : Array TextureSlot :=
  plan.textures.mapIdx fun i output => ⟨slotOffset (plan.channels.size + i), output.name⟩

/-- Assemble a plan. -/
def assemble (plan : Plan) : Except AssemblyFault CompiledModule :=
  if maxSlots < plan.slotCount then .error (.tooManySlots plan.slotCount)
  else if UInt32.size ≤ plan.bindings.size then .error (.tooManyBindings plan.bindings.size)
  else
    match plan.fault? with
    | some fault => .error fault
    | none =>
      if Wasm.maxLocals < plan.bindings.size then .error (.tooManyLocals plan.localsOffset)
      else
        let wasm := plan.module.encode.toByteArray
        .ok
          { wasm
            materialSlots := plan.materialSlots
            textureSlots := plan.textureSlots
            digest := Sha256.hexDigest wasm }

end Plan

end TextureScript
