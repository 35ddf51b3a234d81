import TextureScript.Operation
import TextureScript.Wasm.Decoding
import TextureScript.Wasm.Frame
import TextureScript.Wasm.Memory

/-!
# Running modules

A module runs against a host: a function that performs the operation of the catalogue with the given
arguments on a state of its own and answers with a word. The machine has memories and, for every
call, a stack and locals of its own. Every value is kept as a word: the code makes no values but
32-bit integers, and values of any other type stay what locals start with, for which the word zero
stands. Whatever stops a run, the state of the host at that point is kept.
-/

namespace TextureScript.Wasm

/-- A host performs operations on a state of its own. -/
abbrev Host (σ : Type) := Operation → List Int32 → σ → Int32 × σ

/-- The group from which modules import the operations. -/
def importGroup : String := "env"

/-- The name under which a module exports the function to run. -/
def entryName : String := "main"

/-- The name under which a module exports its memory. -/
def memoryName : String := "memory"

/-- Why a run stops before its end. -/
inductive Trap where
  /-- The code says so. -/
  | unreachable
  /-- A store goes beyond the memory. -/
  | outOfBounds
  /-- Too many calls are under way, or they take too many cells. -/
  | callsExhausted
  /-- The code takes a value from an empty stack, or uses a local, a memory or a function that does
  not exist. -/
  | illTyped
deriving DecidableEq, Repr, Inhabited

/-- Why a module gives no memory to read outputs from. -/
inductive RunFault where
  /-- The bytes are no module. -/
  | malformed
  /-- The module is not valid. -/
  | invalid
  /-- A function of the module, or a memory, needs more room than there is. -/
  | oversized
  /-- An import is no operation of the catalogue, or has another type. -/
  | unlinked
  /-- Data or elements do not fit into the memory or the table they are meant for. -/
  | misplaced
  /-- There is no function to run, or it takes arguments or gives results. -/
  | noEntry
  /-- The run stopped before its end. -/
  | trapped (cause : Trap)
  /-- The memory is not exported. -/
  | noMemory
deriving DecidableEq, Repr, Inhabited

/-- What outlives a call: the memories and the state of the host. -/
structure World (σ : Type) where
  /-- The memories of the module. -/
  memories : Array Memory
  /-- The state of the host. -/
  host : σ

/-- The state of a call that is under way. -/
structure Machine (σ : Type) where
  /-- The operand stack, its top first. -/
  stack : List Int32
  /-- The parameters and the other locals. -/
  locals : Array Int32
  /-- What outlives the call. -/
  world : World σ

/-- What a step leaves: the machine, or the trap and the state of the host. -/
abbrev Outcome (σ α : Type) := Except (Trap × σ) α

/-- How to call a function: with its index, its arguments and the world. -/
abbrev Caller (σ : Type) := UInt32 → List Int32 → World σ → Outcome σ (List Int32 × World σ)

/-- Take values off the stack, the last of them being the top, and give them in order. -/
def takeArguments (count : Nat) (stack : List Int32) : Option (List Int32 × List Int32) :=
  if count ≤ stack.length then some ((stack.take count).reverse, stack.drop count) else none

/-- The world after a word was stored in a memory, if the word fits there. -/
def World.store? {σ : Type} (w : World σ) (memory : Nat) (address : Nat) (word : Int32) :
    Option (World σ) :=
  if (w.memories[memory]?).any (address + 4 ≤ ·.size) then
    match w with
    | ⟨memories, host⟩ => some ⟨memories.modify memory (·.writeWord address word), host⟩
  else none

/-- A function of a module, ready to run. -/
structure Function where
  /-- Its type. -/
  type : FunctionType
  /-- Its locals and its code. -/
  body : Body
  /-- What a call of it needs. -/
  frame : Frame
deriving Repr, Inhabited

/-- A module with its imports resolved to operations. -/
structure Linked where
  /-- The operation that each import stands for. -/
  operations : Array Operation
  /-- The functions that are not imported. -/
  functions : Array Function
deriving Repr, Inhabited

/-- The number of arguments of the function with the given index. -/
def Linked.arity? (l : Linked) (function : UInt32) : Option Nat :=
  match l.operations[function.toNat]? with
  | some operation => some operation.arity
  | none => (l.functions[function.toNat - l.operations.size]?).map (·.type.params.length)

/-- Perform an instruction, given how to call a function. -/
def Instruction.step {σ : Type} (l : Linked) (call : Caller σ) (s : Machine σ) :
    Instruction → Outcome σ (Machine σ)
  | .unreachable => .error (.unreachable, s.world.host)
  | .const value => .ok { s with stack := value :: s.stack }
  | .drop =>
    match s.stack with
    | _ :: stack => .ok { s with stack }
    | [] => .error (.illTyped, s.world.host)
  | .localGet index =>
    match s.locals[index.toNat]? with
    | some value => .ok { s with stack := value :: s.stack }
    | none => .error (.illTyped, s.world.host)
  | .localSet index =>
    match s.stack with
    | value :: stack =>
      if index.toNat < s.locals.size then
        .ok { s with stack, locals := s.locals.setIfInBounds index.toNat value }
      else .error (.illTyped, s.world.host)
    | [] => .error (.illTyped, s.world.host)
  | .store _ memory offset =>
    match s with
    | ⟨value :: address :: stack, locals, world⟩ =>
      let host := world.host
      match world.store? memory.toNat (address.toUInt32.toNat + offset.toNat) value with
      | some world => .ok ⟨stack, locals, world⟩
      | none => .error (.outOfBounds, host)
    | s => .error (.illTyped, s.world.host)
  | .call function =>
    match (l.arity? function).bind (takeArguments · s.stack) with
    | none => .error (.illTyped, s.world.host)
    | some (args, stack) =>
      let { locals, world, .. } := s
      match call function args world with
      | .error trap => .error trap
      | .ok (results, world) => .ok { stack := results.reverse ++ stack, locals, world }

namespace Linked

/-- Run the body of a function on arguments, given how to call functions. -/
def runBody {σ : Type} (l : Linked) (call : Caller σ) (f : Function) (args : List Int32)
    (world : World σ) : Outcome σ (List Int32 × World σ) := do
  let locals := args.toArray ++ Array.replicate f.body.localCount 0
  let s ← f.body.code.foldlM (Instruction.step l call) ⟨[], locals, world⟩
  match takeArguments f.type.results.length s.stack with
  | some (results, _) => .ok (results, s.world)
  | none => .error (.illTyped, s.world.host)

/-- Call a function, when the given number of further calls may be under way at a time and the given
number of cells are left. An operation takes cells for its arguments and its result while it is
performed. -/
def call {σ : Type} (l : Linked) (perform : Host σ) : (calls cells : Nat) → Caller σ
  | calls, cells, function, args, world =>
    match l.operations[function.toNat]? with
    | some operation =>
      if max operation.arity 1 ≤ cells then
        let { memories, host } := world
        let (result, host) := perform operation args host
        .ok ([result], ⟨memories, host⟩)
      else .error (.callsExhausted, world.host)
    | none =>
      match calls, l.functions[function.toNat - l.operations.size]? with
      | _, none => .error (.illTyped, world.host)
      | 0, some _ => .error (.callsExhausted, world.host)
      | calls + 1, some f =>
        if f.frame.cells ≤ cells then
          l.runBody (call l perform calls (cells - f.frame.cells)) f args world
        else .error (.callsExhausted, world.host)

end Linked

/-- The operation that an import of a module stands for: it has the operation's name and type. -/
def Import.operation? (m : Module) (i : Import) : Option Operation := do
  let operation ← Operation.ofName? i.name
  let type ← m.types[i.typeIndex.toNat]?
  if i.group = importGroup ∧ type = .ofWords operation.arity 1 then some operation else none

namespace Module

/-- The functions of a module that are not imported. -/
def ownFunctions (m : Module) : List Function :=
  (m.functions.zip m.bodies).filterMap fun (index, body) =>
    (m.types[index.toNat]?).map fun type => ⟨type, body, .ofBody m type body⟩

/-- Resolve the imports of a module. -/
def link? (m : Module) : Option Linked := do
  let operations ← m.imports.mapM (Import.operation? m)
  some ⟨operations.toArray, m.ownFunctions.toArray⟩

/-- Whether a machine has room for a module that is linked. -/
def fits (m : Module) (l : Linked) (c : Capacity) : Bool :=
  l.functions.all (·.frame.fits c) && m.memories.all (·.min.toNat * pageSize ≤ c.memory)

/-- Whether elements that are put into a table fit there. -/
def placesElement (m : Module) (e : Element) : Bool :=
  match e.mode with
  | .active table offset =>
    (m.tables[table.toNat]?).any fun table =>
      offset.value.toNat + e.items.count ≤ table.limits.min.toNat
  | _ => true

/-- Write data into the memory they are meant for, if they fit there. -/
def placeData (memories : Array Memory) (d : Data) : Option (Array Memory) :=
  match d.mode with
  | .active memory offset =>
    let start := offset.value.toNat
    if (memories[memory.toNat]?).any (start + d.bytes.length ≤ ·.size) then
      some (memories.modify memory.toNat (·.write start d.bytes))
    else none
  | .passive => some memories

/-- The memories of a module before the run, without the bytes they start with. -/
def blankMemories (m : Module) : Array Memory :=
  (m.memories.map fun limits => ⟨limits.min.toNat * pageSize, .empty⟩).toArray

/-- The memories of a module before the run. -/
def initialMemories? (m : Module) : Option (Array Memory) :=
  if m.elements.all m.placesElement then m.data.foldlM placeData m.blankMemories else none

/-- What a module exports under a name. -/
def exported? (m : Module) (name : String) : Option Exported :=
  (m.exports.find? (·.name == name)).map (·.target)

/-- The function to run, which takes no arguments and gives no results. -/
def entry? (m : Module) : Option UInt32 :=
  match m.exported? entryName with
  | some (.function index) => if m.functionType? index = some ⟨[], []⟩ then some index else none
  | _ => none

/-- The exported one of the memories of a module. -/
def exportedMemory? (m : Module) (memories : Array Memory) : Option Memory :=
  match m.exported? memoryName with
  | some (.memory index) => memories[index.toNat]?
  | _ => none

end Module

/-- Call a function of a module that takes and gives back nothing. -/
def Linked.start {σ : Type} (l : Linked) (c : Capacity) (perform : Host σ) (function : UInt32)
    (world : World σ) : Outcome σ (World σ) :=
  (l.call perform c.calls c.cells function [] world).map (·.2)

namespace Module

/-- Run a linked module: first the function that it starts with, if there is one, then its entry. -/
def execute {σ : Type} (m : Module) (l : Linked) (c : Capacity) (perform : Host σ)
    (world : World σ) : Except RunFault Memory × σ :=
  let started : Outcome σ (World σ) :=
    match m.start with
    | none => .ok world
    | some function => l.start c perform function world
  match started with
  | .error (cause, host) => (.error (.trapped cause), host)
  | .ok world =>
    match m.entry? with
    | none => (.error .noEntry, world.host)
    | some entry =>
      match l.start c perform entry world with
      | .error (cause, host) => (.error (.trapped cause), host)
      | .ok world =>
        match m.exportedMemory? world.memories with
        | some memory => (.ok memory, world.host)
        | none => (.error .noMemory, world.host)

/-- Run a module: give the memory after the run, and the state of the host however the run went. -/
def run {σ : Type} (m : Module) (c : Capacity) (perform : Host σ) (host : σ) :
    Except RunFault Memory × σ :=
  if !m.isValid then (.error .invalid, host)
  else
    match m.link?, m.initialMemories? with
    | none, _ => (.error .unlinked, host)
    | _, none => (.error .misplaced, host)
    | some linked, some memories =>
      if m.fits linked c then m.execute linked c perform ⟨memories, host⟩
      else (.error .oversized, host)

end Module

/-- Run the module that some bytes stand for. -/
def runBytes {σ : Type} (bytes : List UInt8) (c : Capacity) (perform : Host σ) (host : σ) :
    Except RunFault Memory × σ :=
  match Module.decode? bytes with
  | none => (.error .malformed, host)
  | some m => m.run c perform host

end TextureScript.Wasm
