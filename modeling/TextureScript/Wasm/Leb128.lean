/-!
# Numbers in base 128

Modules write whole numbers in groups of seven bits, the lowest first; every byte but the last has
its top bit set. Signed numbers are written in two's complement, so the sign is the second bit of
the last byte. The writers take as few bytes as they can. The readers take any number of bytes that
the width allows, and refuse a last byte whose unused bits are not an extension of the number.
-/

namespace TextureScript.Wasm

/-- A natural number in as few groups as it takes. -/
def unsignedLeb (n : Nat) : List UInt8 :=
  if n < 128 then [UInt8.ofNat n] else UInt8.ofNat (n % 128 + 128) :: unsignedLeb (n / 128)

/-- An integer in as few groups as it takes. -/
def signedLeb (n : Int) : List UInt8 :=
  if -64 ≤ n ∧ n < 64 then [UInt8.ofNat (n % 128).toNat]
  else UInt8.ofNat ((n % 128).toNat + 128) :: signedLeb (n / 128)
termination_by n.natAbs
decreasing_by omega

/-- A reader takes what it reads from the front of some bytes, or refuses them. -/
abbrev Reader (α : Type) := List UInt8 → Option (α × List UInt8)

/-- Read a natural number of at most the given number of bits. -/
def readUnsigned (bits : Nat) : Reader Nat
  | [] => none
  | b :: bytes =>
    if b.toNat < 128 then
      if b.toNat < Nat.pow 2 bits then some (b.toNat, bytes) else none
    else if 7 < bits then do
      let (high, rest) ← readUnsigned (bits - 7) bytes
      some (128 * high + (b.toNat - 128), rest)
    else none

/-- Read an integer of at most the given number of bits, counting the sign. -/
def readSigned (bits : Nat) : Reader Int
  | [] => none
  | b :: bytes =>
    let n : Int := b.toNat
    let bound : Int := Nat.pow 2 (bits - 1)
    if n < 64 then
      if n < bound then some (n, bytes) else none
    else if n < 128 then
      if 128 - bound ≤ n then some (n - 128, bytes) else none
    else if 7 < bits then do
      let (high, rest) ← readSigned (bits - 7) bytes
      some (128 * high + (n - 128), rest)
    else none

/-- Read an unsigned 32-bit number. -/
def readU32 : Reader UInt32 := fun bytes => do
  let (n, rest) ← readUnsigned 32 bytes
  some (UInt32.ofNat n, rest)

/-- Read an unsigned 64-bit number. -/
def readU64 : Reader UInt64 := fun bytes => do
  let (n, rest) ← readUnsigned 64 bytes
  some (UInt64.ofNat n, rest)

/-- Read a signed 32-bit number. -/
def readI32 : Reader Int32 := fun bytes => do
  let (n, rest) ← readSigned 32 bytes
  some (Int32.ofInt n, rest)

/-- Read a signed 64-bit number. -/
def readI64 : Reader Int64 := fun bytes => do
  let (n, rest) ← readSigned 64 bytes
  some (Int64.ofInt n, rest)

/-- Reading a natural number uses at least one byte. -/
theorem readUnsigned_length_lt {bits n : Nat} {bytes rest : List UInt8}
    (h : readUnsigned bits bytes = some (n, rest)) : rest.length < bytes.length := by
  induction bytes generalizing bits n with
  | nil => simp [readUnsigned] at h
  | cons b bytes ih =>
    rw [readUnsigned] at h
    split at h
    · split at h
      · simp only [Option.some.injEq, Prod.mk.injEq] at h
        simp [← h.2]
      · simp at h
    · split at h
      · simp only [Option.bind_eq_bind, Option.bind_eq_some_iff, Option.some.injEq,
          Prod.exists, Prod.mk.injEq] at h
        obtain ⟨high, after, tail, _, rfl⟩ := h
        have shorter := ih tail
        simp only [List.length_cons]
        omega
      · simp at h

/-- Reading an integer uses at least one byte. -/
theorem readSigned_length_lt {bits : Nat} {n : Int} {bytes rest : List UInt8}
    (h : readSigned bits bytes = some (n, rest)) : rest.length < bytes.length := by
  induction bytes generalizing bits n with
  | nil => simp [readSigned] at h
  | cons b bytes ih =>
    rw [readSigned] at h
    simp only at h
    split at h
    · split at h
      · simp only [Option.some.injEq, Prod.mk.injEq] at h
        simp [← h.2]
      · simp at h
    · split at h
      · split at h
        · simp only [Option.some.injEq, Prod.mk.injEq] at h
          simp [← h.2]
        · simp at h
      · split at h
        · simp only [Option.bind_eq_bind, Option.bind_eq_some_iff, Option.some.injEq,
            Prod.exists, Prod.mk.injEq] at h
          obtain ⟨high, after, tail, _, rfl⟩ := h
          have shorter := ih tail
          simp only [List.length_cons]
          omega
        · simp at h

/-- Reading an unsigned 32-bit number uses at least one byte. -/
theorem readU32_length_lt {n : UInt32} {bytes rest : List UInt8}
    (h : readU32 bytes = some (n, rest)) : rest.length < bytes.length := by
  simp only [readU32, Option.bind_eq_bind, Option.bind_eq_some_iff, Option.some.injEq,
    Prod.exists, Prod.mk.injEq] at h
  obtain ⟨value, after, read, _, rfl⟩ := h
  exact readUnsigned_length_lt read

/-- Reading an unsigned 64-bit number uses at least one byte. -/
theorem readU64_length_lt {n : UInt64} {bytes rest : List UInt8}
    (h : readU64 bytes = some (n, rest)) : rest.length < bytes.length := by
  simp only [readU64, Option.bind_eq_bind, Option.bind_eq_some_iff, Option.some.injEq,
    Prod.exists, Prod.mk.injEq] at h
  obtain ⟨value, after, read, _, rfl⟩ := h
  exact readUnsigned_length_lt read

/-- Reading a signed 32-bit number uses at least one byte. -/
theorem readI32_length_lt {n : Int32} {bytes rest : List UInt8}
    (h : readI32 bytes = some (n, rest)) : rest.length < bytes.length := by
  simp only [readI32, Option.bind_eq_bind, Option.bind_eq_some_iff, Option.some.injEq,
    Prod.exists, Prod.mk.injEq] at h
  obtain ⟨value, after, read, _, rfl⟩ := h
  exact readSigned_length_lt read

/-- Reading a signed 64-bit number uses at least one byte. -/
theorem readI64_length_lt {n : Int64} {bytes rest : List UInt8}
    (h : readI64 bytes = some (n, rest)) : rest.length < bytes.length := by
  simp only [readI64, Option.bind_eq_bind, Option.bind_eq_some_iff, Option.some.injEq,
    Prod.exists, Prod.mk.injEq] at h
  obtain ⟨value, after, read, _, rfl⟩ := h
  exact readSigned_length_lt read

end TextureScript.Wasm
