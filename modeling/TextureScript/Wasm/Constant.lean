/-!
# Constant expressions

A module gives the values that globals start with, and the places of data and elements, by short
lists of instructions that compute one value. Their types are checked by following the types on the
stack, and their value is found by following the values; a value is kept as the unsigned number of
its bits, and a reference as zero.
-/

namespace TextureScript.Wasm

/-- The types of values. -/
inductive ValueType where
  /-- Integers of 32 bits. -/
  | i32
  /-- Integers of 64 bits. -/
  | i64
  /-- Floating-point numbers of 32 bits. -/
  | f32
  /-- Floating-point numbers of 64 bits. -/
  | f64
  /-- References to functions. -/
  | funcRef
  /-- References to values of the host. -/
  | externRef
deriving DecidableEq, Repr, Inhabited

/-- Whether the values of a type are references. -/
def ValueType.isReference : ValueType → Bool
  | funcRef | externRef => true
  | _ => false

/-- The arithmetic that a constant expression may use. -/
inductive Arithmetic where
  | add
  | subtract
  | multiply
deriving DecidableEq, Repr, Inhabited

/-- The result of an arithmetic operation on 64 bits. -/
def Arithmetic.apply : Arithmetic → UInt64 → UInt64 → UInt64
  | add, a, b => a + b
  | subtract, a, b => a - b
  | multiply, a, b => a * b

/-- The instructions of a constant expression. -/
inductive ConstInstruction where
  /-- Push an integer of 32 bits. -/
  | i32 (value : Int32)
  /-- Push an integer of 64 bits. -/
  | i64 (value : Int64)
  /-- Push the floating-point number with the given 32 bits. -/
  | f32 (bits : UInt32)
  /-- Push the floating-point number with the given 64 bits. -/
  | f64 (bits : UInt64)
  /-- Push the reference of a type that refers to nothing. -/
  | refNull (type : ValueType)
  /-- Push a reference to a function. -/
  | refFunction (function : UInt32)
  /-- Combine the two topmost integers, which have 64 bits when the operation is wide. -/
  | arithmetic (operation : Arithmetic) (wide : Bool)
deriving DecidableEq, Repr, Inhabited

/-- The instructions that compute a constant. -/
abbrev ConstExpr := List ConstInstruction

namespace ConstInstruction

/-- The types on the stack after an instruction, in a module with the given number of functions. -/
def check (functions : Nat) (stack : List ValueType) : ConstInstruction → Option (List ValueType)
  | i32 _ => some (.i32 :: stack)
  | i64 _ => some (.i64 :: stack)
  | f32 _ => some (.f32 :: stack)
  | f64 _ => some (.f64 :: stack)
  | refNull type => some (type :: stack)
  | refFunction function => if function.toNat < functions then some (.funcRef :: stack) else none
  | arithmetic _ wide =>
    let type := if wide then .i64 else .i32
    match stack with
    | b :: a :: stack => if a = type ∧ b = type then some (type :: stack) else none
    | _ => none

/-- The values on the stack after an instruction. -/
def eval (stack : List UInt64) : ConstInstruction → List UInt64
  | i32 value => value.toUInt32.toUInt64 :: stack
  | i64 value => value.toUInt64 :: stack
  | f32 bits => bits.toUInt64 :: stack
  | f64 bits => bits :: stack
  | refNull _ => 0 :: stack
  | refFunction _ => 0 :: stack
  | arithmetic operation wide =>
    match stack with
    | b :: a :: stack =>
      let result := operation.apply a b
      (if wide then result else result.toUInt32.toUInt64) :: stack
    | _ => []

end ConstInstruction

namespace ConstExpr

/-- Whether an expression computes exactly one value, of the given type. -/
def hasType (e : ConstExpr) (functions : Nat) (type : ValueType) : Bool :=
  e.foldlM (ConstInstruction.check functions) [] == some [type]

/-- The bits of the value that an expression computes. -/
def value (e : ConstExpr) : UInt64 :=
  (e.foldl ConstInstruction.eval []).headD 0

end ConstExpr

end TextureScript.Wasm
