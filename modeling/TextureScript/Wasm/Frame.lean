import Std.Data.TreeSet
import TextureScript.Wasm.Validation

/-!
# Frames

The machine that runs modules has only so much room. Everything that a call works with lies in the
cells of its frame: the parameters and the locals, the results of calls that wait on the operand
stack, and the constants that are not part of an instruction. Constants and the values of locals do
not take a cell while they wait on the stack, as an instruction can use them where they are. But
when a local is overwritten while its old value waits, the old value is kept in a cell of its own,
which is free again for the next value to be kept once nothing on the stack needs it. The frame of
a function is found by following where its operands come from.
-/

namespace TextureScript.Wasm

/-- How much room a machine has. -/
structure Capacity where
  /-- The most calls that may be under way at a time. -/
  calls : Nat := 1024
  /-- The most cells of all frames together. -/
  cells : Nat := 131072
  /-- The most parameters and locals of a function. -/
  locals : Nat := 32767
  /-- The most parameters, locals, waiting results and kept values of a function that calls others
  or keeps values. -/
  numbered : Nat := 32765
  /-- The most constants of a function that take a cell. -/
  constants : Nat := 32767
  /-- The most bytes that a memory starts with. -/
  memory : Nat := 17179869184
deriving DecidableEq, Repr, Inhabited

/-- What a function needs of a machine. -/
structure Frame where
  /-- The parameters and locals. -/
  locals : Nat
  /-- The most results that wait on the stack at a time. -/
  results : Nat
  /-- The most values of locals that are kept at a time. -/
  kept : Nat
  /-- The constants that take a cell. -/
  constants : Nat
  /-- The most parameters, locals, waiting results and kept values at any time at which a call is
  made or a value is kept. -/
  numbered : Nat
deriving DecidableEq, Repr, Inhabited

namespace Frame

/-- The cells of a frame. -/
def cells (f : Frame) : Nat :=
  f.locals + f.results + f.kept + f.constants

/-- Whether a machine can run a function with the given frame. -/
def fits (f : Frame) (c : Capacity) : Bool :=
  f.locals ≤ c.locals && f.numbered ≤ c.numbered && f.constants ≤ c.constants

/-- Where an operand comes from. -/
inductive Origin where
  /-- It is a constant. -/
  | constant (value : Int32)
  /-- It is the value of a local. -/
  | ofLocal (index : UInt32)
  /-- It is the result of a call. -/
  | result
  /-- It is a value of a local that has been overwritten, kept under the given number. -/
  | kept (number : Nat)
deriving DecidableEq, Repr, Inhabited

namespace Origin

/-- Whether an operand is the result of a call. -/
def isResult : Origin → Bool
  | result => true
  | _ => false

/-- The number under which an operand is kept. -/
def kept? : Origin → Option Nat
  | kept number => some number
  | _ => none

/-- The constant that an operand is. -/
def constant? : Origin → Option Int32
  | constant value => some value
  | _ => none

end Origin

/-- The operands of a function as far as its code was followed, and what it needed so far. -/
structure Trace where
  /-- Where the operands come from, the topmost first. -/
  operands : List Origin := []
  /-- The results of calls among them. -/
  results : Nat := 0
  /-- The most results at a time. -/
  mostResults : Nat := 0
  /-- The values kept since the cells were last freed. -/
  kept : Nat := 0
  /-- The most values kept at a time. -/
  mostKept : Nat := 0
  /-- The number for the next value that is kept. -/
  nextKept : Nat := 0
  /-- The constants that take a cell. -/
  constants : Std.TreeSet UInt32 := {}
  /-- The most waiting results and kept values when a call is made or a value is kept, with the
  locals. -/
  numbered : Nat := 0
  /-- Whether the code goes on. -/
  reachable : Bool := true

namespace Trace

/-- Put an operand on the stack. -/
def push (t : Trace) (origin : Origin) : Trace :=
  { t with operands := origin :: t.operands }

/-- Take operands off the stack. -/
def pop (t : Trace) (count : Nat) : List Origin × Trace :=
  let taken := t.operands.take count
  (taken,
    { t with
      operands := t.operands.drop count
      results := t.results - taken.countP Origin.isResult })

/-- Give cells to the constants among some operands. -/
def allot (t : Trace) (origins : List Origin) : Trace :=
  { t with
    constants := origins.foldl
      (fun constants origin =>
        match origin.constant? with
        | some value => constants.insert value.toUInt32
        | none => constants)
      t.constants }

/-- Note how many cells are numbered now, in a function with the given locals. -/
def mark (t : Trace) (locals : Nat) : Trace :=
  { t with numbered := max t.numbered (locals + t.results + t.mostKept) }

/-- Free the cells of kept values that nothing on the stack needs. -/
def free (t : Trace) : Trace :=
  { t with kept := (t.operands.filterMap Origin.kept?).eraseDups.length }

/-- Keep the value of a local if it is on the stack. -/
def keep (t : Trace) (locals : Nat) (index : UInt32) : Trace :=
  if t.operands.contains (.ofLocal index) then
    let t :=
      { t with
        operands := t.operands.map fun origin =>
          if origin = Origin.ofLocal index then Origin.kept t.nextKept else origin
        kept := t.kept + 1
        mostKept := max t.mostKept (t.kept + 1)
        nextKept := t.nextKept + 1 }
    t.mark locals
  else t

/-- Put the results of a call on the stack. -/
def pushResults (t : Trace) (locals count : Nat) : Trace :=
  let t :=
    { t with
      operands := List.replicate count Origin.result ++ t.operands
      results := t.results + count
      mostResults := max t.mostResults (t.results + count) }
  t.mark locals

end Trace

/-- Whether a constant can be part of a store: it has at most 16 bits with its sign. -/
def isShort (value : Int32) : Bool :=
  -32768 ≤ value && value < 32768

/-- Whether an operand is a constant that a store cannot hold. -/
def isLong (origin : Origin) : Bool :=
  origin.constant?.any fun value => !isShort value

/-- Follow an instruction of a function with the given number of parameters and locals. -/
def follow (m : Module) (locals : Nat) (t : Trace) (instruction : Instruction) : Trace :=
  if !t.reachable then t
  else
    match instruction with
    | .unreachable => { t with reachable := false }
    | .const value => t.push (.constant value)
    | .localGet index => t.push (.ofLocal index)
    | .drop => (t.pop 1).2
    | .localSet index =>
      let (value, t) := t.free.pop 1
      if value = [.ofLocal index] then t else t.keep locals index
    | .store _ _ _ =>
      let (operands, t) := t.pop 2
      t.allot ((operands.take 1).filter isLong)
    | .call function =>
      match m.functionType? function with
      | none => t
      | some type =>
        let (arguments, t) := t.pop type.params.length
        (t.pushResults locals type.results.length).allot arguments

/-- The constants that take a cell when a function gives back its results: a single result can be
part of the instruction that ends the call. -/
def finish (type : FunctionType) (t : Trace) : Trace :=
  if t.reachable && 2 ≤ type.results.length then
    t.allot (t.operands.take type.results.length)
  else t

/-- The frame of a function. -/
def ofBody (m : Module) (type : FunctionType) (b : Body) : Frame :=
  let locals := type.params.length + b.localCount
  let t := finish type (b.code.foldl (follow m locals) {})
  { locals
    results := t.mostResults
    kept := t.mostKept
    constants := t.constants.size
    numbered := t.numbered }

end Frame

end TextureScript.Wasm
