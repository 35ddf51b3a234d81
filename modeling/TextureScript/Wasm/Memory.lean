/-!
# Memories

A memory is a number of bytes, all of them zero at first. Only the bytes up to the last one that was
written are kept, so that a large memory of which little is used costs little. Words are read and
written with their lowest byte first.
-/

namespace TextureScript.Wasm

/-- The four bytes of a word, the lowest first. -/
def wordBytes (word : Int32) : List UInt8 :=
  let n := word.toUInt32
  [n.toUInt8, (n >>> 8).toUInt8, (n >>> 16).toUInt8, (n >>> 24).toUInt8]

/-- The word with the given bytes, the lowest first. -/
def wordOfBytes (a b c d : UInt8) : Int32 :=
  (a.toUInt32 ||| (b.toUInt32 <<< 8) ||| (c.toUInt32 <<< 16) ||| (d.toUInt32 <<< 24)).toInt32

/-- A memory. -/
structure Memory where
  /-- The number of its bytes. -/
  size : Nat
  /-- The bytes up to the last one written; those after it are zero. -/
  written : ByteArray := .empty
deriving Inhabited

namespace Memory

/-- The memory of the given bytes. -/
def ofBytes (bytes : ByteArray) : Memory :=
  ⟨bytes.size, bytes⟩

/-- The byte at an address. -/
def get (m : Memory) (address : Nat) : UInt8 :=
  if h : address < m.written.size then m.written[address] else 0

/-- Bytes with zeros after them, up to the given number. -/
def pad (bytes : ByteArray) (count : Nat) : ByteArray :=
  Nat.fold (count - bytes.size) (fun _ _ (bytes : ByteArray) => bytes.push 0) bytes

/-- Put a byte at an address. -/
def set (m : Memory) (address : Nat) (b : UInt8) : Memory :=
  match m with
  | ⟨size, written⟩ => ⟨size, (pad written (address + 1)).set! address b⟩

/-- Put bytes one after the other from an address on. -/
def write (m : Memory) (address : Nat) (bytes : List UInt8) : Memory :=
  (bytes.foldl (fun (m, address) b => (m.set address b, address + 1)) (m, address)).1

/-- Put a word at an address. -/
def writeWord (m : Memory) (address : Nat) (word : Int32) : Memory :=
  m.write address (wordBytes word)

/-- The word at an address, if all of it lies in the memory. -/
def word? (m : Memory) (address : Nat) : Option Int32 :=
  if address + 4 ≤ m.size then
    some (wordOfBytes (m.get address) (m.get (address + 1)) (m.get (address + 2))
      (m.get (address + 3)))
  else none

end Memory

end TextureScript.Wasm
