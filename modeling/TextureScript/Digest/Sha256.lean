/-!
# SHA-256

The digest by which compiled modules are told apart. The message is padded to whole blocks of 64
bytes with a set bit, zeros and its length in bits; every block is mixed into eight words of state.
-/

namespace TextureScript.Sha256

/-- The round constants: the first 32 bits of the fractional parts of the cube roots of the first 64
primes. -/
def roundConstants : Array UInt32 := #[
  0x428a2f98, 0x71374491, 0xb5c0fbcf, 0xe9b5dba5, 0x3956c25b, 0x59f111f1, 0x923f82a4, 0xab1c5ed5,
  0xd807aa98, 0x12835b01, 0x243185be, 0x550c7dc3, 0x72be5d74, 0x80deb1fe, 0x9bdc06a7, 0xc19bf174,
  0xe49b69c1, 0xefbe4786, 0x0fc19dc6, 0x240ca1cc, 0x2de92c6f, 0x4a7484aa, 0x5cb0a9dc, 0x76f988da,
  0x983e5152, 0xa831c66d, 0xb00327c8, 0xbf597fc7, 0xc6e00bf3, 0xd5a79147, 0x06ca6351, 0x14292967,
  0x27b70a85, 0x2e1b2138, 0x4d2c6dfc, 0x53380d13, 0x650a7354, 0x766a0abb, 0x81c2c92e, 0x92722c85,
  0xa2bfe8a1, 0xa81a664b, 0xc24b8b70, 0xc76c51a3, 0xd192e819, 0xd6990624, 0xf40e3585, 0x106aa070,
  0x19a4c116, 0x1e376c08, 0x2748774c, 0x34b0bcb5, 0x391c0cb3, 0x4ed8aa4a, 0x5b9cca4f, 0x682e6ff3,
  0x748f82ee, 0x78a5636f, 0x84c87814, 0x8cc70208, 0x90befffa, 0xa4506ceb, 0xbef9a3f7, 0xc67178f2]

/-- The eight words of state. -/
structure State where
  a : UInt32
  b : UInt32
  c : UInt32
  d : UInt32
  e : UInt32
  f : UInt32
  g : UInt32
  h : UInt32
deriving DecidableEq, Repr, Inhabited

/-- The state before the first block: the first 32 bits of the fractional parts of the square roots
of the first eight primes. -/
def State.initial : State :=
  ⟨0x6a09e667, 0xbb67ae85, 0x3c6ef372, 0xa54ff53a, 0x510e527f, 0x9b05688c, 0x1f83d9ab, 0x5be0cd19⟩

/-- The word rotated to the right. -/
@[inline]
def rotate (x : UInt32) (count : UInt32) : UInt32 :=
  (x >>> count) ||| (x <<< (32 - count))

/-- The padding after a message of the given length in bytes. -/
def padding (length : Nat) : ByteArray :=
  let zeros := (119 - length % 64) % 64
  let bits := UInt64.ofNat (8 * length)
  let size := (List.range 8).map fun i => (bits >>> UInt64.ofNat (56 - 8 * i)).toUInt8
  ((0x80 :: List.replicate zeros 0) ++ size).toByteArray

/-- The byte at a place, or zero past the end. -/
@[inline]
def byteAt (bytes : ByteArray) (i : Nat) : UInt32 :=
  if h : i < bytes.size then (bytes[i]).toUInt32 else 0

/-- The word at a place, its highest byte first. -/
@[inline]
def wordAt (bytes : ByteArray) (i : Nat) : UInt32 :=
  (byteAt bytes i <<< 24) ||| (byteAt bytes (i + 1) <<< 16) ||| (byteAt bytes (i + 2) <<< 8) |||
    byteAt bytes (i + 3)

/-- The message schedule of the block that begins at a place: the sixteen words of the block, and
48 more that mix earlier ones. -/
def schedule (bytes : ByteArray) (start : Nat) : Array UInt32 :=
  let words := Nat.fold 16
    (fun i _ (words : Array UInt32) => words.push (wordAt bytes (start + 4 * i)))
    (Array.emptyWithCapacity 64)
  Nat.fold 48
    (fun i _ (words : Array UInt32) =>
      let early := words.getD (i + 1) 0
      let late := words.getD (i + 14) 0
      let mixEarly := rotate early 7 ^^^ rotate early 18 ^^^ (early >>> 3)
      let mixLate := rotate late 17 ^^^ rotate late 19 ^^^ (late >>> 10)
      words.push (words.getD i 0 + mixEarly + words.getD (i + 9) 0 + mixLate))
    words

/-- One round with its constant and its word of the schedule. -/
@[inline]
def State.round (s : State) (constant word : UInt32) : State :=
  let mixE := rotate s.e 6 ^^^ rotate s.e 11 ^^^ rotate s.e 25
  let choice := (s.e &&& s.f) ^^^ ((~~~ s.e) &&& s.g)
  let first := s.h + mixE + choice + constant + word
  let mixA := rotate s.a 2 ^^^ rotate s.a 13 ^^^ rotate s.a 22
  let majority := (s.a &&& s.b) ^^^ (s.a &&& s.c) ^^^ (s.b &&& s.c)
  ⟨first + mixA + majority, s.a, s.b, s.c, s.d + first, s.e, s.f, s.g⟩

/-- Mix the block that begins at a place into the state. -/
def State.absorb (s : State) (bytes : ByteArray) (start : Nat) : State :=
  let words := schedule bytes start
  let mixed := Nat.fold 64
    (fun i _ (s : State) => s.round (roundConstants.getD i 0) (words.getD i 0)) s
  ⟨s.a + mixed.a, s.b + mixed.b, s.c + mixed.c, s.d + mixed.d, s.e + mixed.e, s.f + mixed.f,
    s.g + mixed.g, s.h + mixed.h⟩

/-- The state after a whole message. -/
def finalState (message : ByteArray) : State :=
  let bytes := message ++ padding message.size
  Nat.fold (bytes.size / 64) (fun i _ (s : State) => s.absorb bytes (64 * i)) .initial

/-- A word as eight lowercase hexadecimal digits. -/
def hexWord (word : UInt32) : String :=
  String.ofList ((List.range 8).map fun i =>
    Nat.digitChar ((word.toNat >>> (4 * (7 - i))) % 16))

/-- The digest of a message as 64 lowercase hexadecimal digits. -/
def hexDigest (message : ByteArray) : String :=
  let s := finalState message
  String.join ([s.a, s.b, s.c, s.d, s.e, s.f, s.g, s.h].map hexWord)

end TextureScript.Sha256
