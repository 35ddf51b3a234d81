import TextureScript.Wasm.Memory

/-!
# Reading a memory after writing to it

A byte that is put at an address is read back there, and every other byte stays. From this follows
what is read after bytes, and words, were written one after the other.
-/

namespace TextureScript.Wasm

/-! ## Words and their bytes -/

/-- A byte of a word, put back in its place, has the bits of the word in that place only. -/
theorem getLsbD_byte (word : BitVec 32) (start : Nat) {i : Nat} (below : i < 32) :
    (((word >>> start).setWidth 8).setWidth 32 <<< start).getLsbD i =
      (decide (start ≤ i ∧ i < start + 8) && word.getLsbD i) := by
  simp only [BitVec.getLsbD_shiftLeft, BitVec.getLsbD_setWidth, BitVec.getLsbD_ushiftRight]
  by_cases after : start ≤ i
  · have place : start + (i - start) = i := by omega
    have lower : ¬i < start := by omega
    have inside : i - start < 32 := by omega
    have width : i - start < 8 ↔ i < start + 8 := by omega
    simp [below, after, place, lower, inside, width]
  · have lower : i < start := by omega
    simp [after, lower]

/-- The four bytes of a word make it up again. -/
theorem bytes_or_eq (word : BitVec 32) :
    ((word.setWidth 8).setWidth 32 ||| ((word >>> 8).setWidth 8).setWidth 32 <<< 8 |||
      ((word >>> 16).setWidth 8).setWidth 32 <<< 16 |||
      ((word >>> 24).setWidth 8).setWidth 32 <<< 24) = word := by
  apply BitVec.eq_of_getLsbD_eq
  intro i below
  have lowest := getLsbD_byte word 0 below
  rw [BitVec.ushiftRight_zero, BitVec.shiftLeft_zero] at lowest
  rw [BitVec.getLsbD_or, BitVec.getLsbD_or, BitVec.getLsbD_or, lowest, getLsbD_byte word 8 below,
    getLsbD_byte word 16 below, getLsbD_byte word 24 below]
  cases word.getLsbD i with
  | false => simp
  | true =>
    simp only [Bool.and_true, Bool.or_eq_true, decide_eq_true_eq]
    omega

theorem wordOfBytes_wordBytes (word : Int32) :
    wordOfBytes word.toUInt32.toUInt8 (word.toUInt32 >>> 8).toUInt8
      (word.toUInt32 >>> 16).toUInt8 (word.toUInt32 >>> 24).toUInt8 = word := by
  have bits : (word.toUInt32.toUInt8.toUInt32 ||| ((word.toUInt32 >>> 8).toUInt8.toUInt32 <<< 8) |||
      ((word.toUInt32 >>> 16).toUInt8.toUInt32 <<< 16) |||
      ((word.toUInt32 >>> 24).toUInt8.toUInt32 <<< 24)) = word.toUInt32 := by
    apply UInt32.toBitVec_inj.mp
    exact bytes_or_eq word.toUInt32.toBitVec
  rw [wordOfBytes, bits]
  rfl

theorem length_wordBytes (word : Int32) : (wordBytes word).length = 4 := rfl

namespace Memory

/-! ## Bytes -/

theorem get_eq_getD (m : Memory) (address : Nat) :
    m.get address = m.written.data[address]?.getD 0 := by
  unfold get
  split
  · rename_i inside
    rw [ByteArray.getElem_eq_getElem_data, Array.getElem?_eq_getElem inside, Option.getD_some]
  · rename_i outside
    rw [Array.getElem?_eq_none (Nat.le_of_not_lt outside), Option.getD_none]

theorem data_pad (bytes : ByteArray) (count : Nat) :
    (pad bytes count).data = bytes.data ++ Array.replicate (count - bytes.size) 0 := by
  unfold pad
  generalize count - bytes.size = missing
  induction missing with
  | zero => simp
  | succ missing ih =>
    rw [Nat.fold_succ, ByteArray.data_push, ih, Array.push_append]
    simp [Array.replicate_succ]

@[simp]
theorem size_set (m : Memory) (address : Nat) (b : UInt8) : (m.set address b).size = m.size := rfl

/-- A byte is read where it was put; every other byte stays. -/
theorem get_set (m : Memory) (address : Nat) (b : UInt8) (other : Nat) :
    (m.set address b).get other = if other = address then b else m.get other := by
  have data : (m.set address b).written.data =
      (pad m.written (address + 1)).data.setIfInBounds address b := rfl
  have room : address < (pad m.written (address + 1)).data.size := by
    rw [data_pad]
    simp
    omega
  rw [get_eq_getD, data, Array.getElem?_setIfInBounds]
  by_cases same : address = other
  · subst same
    rw [if_pos rfl, if_pos rfl, if_pos room, Option.getD_some]
  · rw [if_neg same, if_neg (fun equal => same equal.symm), data_pad, get_eq_getD,
      Array.getElem?_append]
    split
    · rfl
    · rename_i outside
      rw [Array.getElem?_eq_none (Nat.le_of_not_lt outside), Array.getElem?_replicate]
      split <;> rfl

/-! ## Bytes one after the other -/

theorem write_nil (m : Memory) (address : Nat) : m.write address [] = m := rfl

theorem write_cons (m : Memory) (address : Nat) (b : UInt8) (bytes : List UInt8) :
    m.write address (b :: bytes) = (m.set address b).write (address + 1) bytes := rfl

@[simp]
theorem size_write (m : Memory) (address : Nat) (bytes : List UInt8) :
    (m.write address bytes).size = m.size := by
  induction bytes generalizing m address with
  | nil => rfl
  | cons b bytes ih => rw [write_cons, ih, size_set]

/-- Bytes are read where they were written; every other byte stays. -/
theorem get_write (m : Memory) (address : Nat) (bytes : List UInt8) (other : Nat) :
    (m.write address bytes).get other =
      if address ≤ other ∧ other < address + bytes.length then bytes.getD (other - address) 0
      else m.get other := by
  induction bytes generalizing m address with
  | nil =>
    rw [write_nil, if_neg]
    simp only [List.length_nil]
    omega
  | cons b bytes ih =>
    rw [write_cons, ih, get_set, List.length_cons]
    by_cases later : address + 1 ≤ other ∧ other < address + 1 + bytes.length
    · have place : other - address = other - (address + 1) + 1 := by omega
      rw [if_pos later, if_pos (by omega), place, List.getD_cons_succ]
    · rw [if_neg later]
      by_cases first : other = address
      · rw [if_pos first, if_pos (by omega), first, Nat.sub_self, List.getD_cons_zero]
      · rw [if_neg first, if_neg (by omega)]

/-! ## Words one after the other -/

/-- Some bytes of a memory, from an address on. -/
def bytesAt (m : Memory) (address count : Nat) : List UInt8 :=
  (List.range count).map fun place => m.get (address + place)

@[simp]
theorem size_writeWord (m : Memory) (address : Nat) (word : Int32) :
    (m.writeWord address word).size = m.size :=
  m.size_write address _

theorem bytesAt_writeWord (m : Memory) (address : Nat) (word : Int32) :
    (m.writeWord address word).bytesAt address 4 = wordBytes word := by
  have each (place : Nat) (inside : place < 4) :
      (m.writeWord address word).get (address + place) = (wordBytes word).getD place 0 := by
    rw [writeWord, get_write, length_wordBytes, if_pos (by omega), Nat.add_sub_cancel_left]
  have four : List.range 4 = [0, 1, 2, 3] := rfl
  rw [bytesAt, four, List.map_cons, List.map_cons, List.map_cons, List.map_cons, List.map_nil,
    each 0 (by decide), each 1 (by decide), each 2 (by decide), each 3 (by decide)]
  rfl

theorem get_writeWord_of_outside (m : Memory) {address other : Nat} (word : Int32)
    (outside : other < address ∨ address + 4 ≤ other) :
    (m.writeWord address word).get other = m.get other := by
  rw [writeWord, get_write, length_wordBytes, if_neg (by omega)]

/-- The word at an address is the one whose bytes stand there. -/
theorem word?_of_bytesAt {m : Memory} {address : Nat} {word : Int32}
    (inside : address + 4 ≤ m.size) (bytes : m.bytesAt address 4 = wordBytes word) :
    m.word? address = some word := by
  have four : List.range 4 = [0, 1, 2, 3] := rfl
  rw [bytesAt, four] at bytes
  simp only [List.map_cons, List.map_nil, Nat.add_zero, wordBytes, List.cons.injEq,
    and_true] at bytes
  obtain ⟨first, second, third, fourth⟩ := bytes
  rw [word?, if_pos inside, first, second, third, fourth, wordOfBytes_wordBytes]

/-- Write words one after the other, the first of them as the word with the given number. -/
def writeWords (m : Memory) (start : Nat) : List Int32 → Memory
  | [] => m
  | word :: words => (m.writeWord (4 * start) word).writeWords (start + 1) words

@[simp]
theorem size_writeWords (m : Memory) (start : Nat) (words : List Int32) :
    (m.writeWords start words).size = m.size := by
  induction words generalizing m start with
  | nil => rfl
  | cons word words ih => rw [writeWords, ih, size_writeWord]

/-- Bytes that lie before the words, or after them, stay. -/
theorem get_writeWords_of_outside (m : Memory) {start address : Nat} {words : List Int32}
    (outside : address < 4 * start ∨ 4 * (start + words.length) ≤ address) :
    (m.writeWords start words).get address = m.get address := by
  induction words generalizing m start with
  | nil => rfl
  | cons word words ih =>
    rw [List.length_cons] at outside
    rw [writeWords, ih _ (by omega), get_writeWord_of_outside]
    omega

/-- Each word stands where it was written. -/
theorem bytesAt_writeWords (m : Memory) (start : Nat) {index : Nat} {words : List Int32}
    {word : Int32}
    (found : words[index]? = some word) :
    (m.writeWords start words).bytesAt (4 * (start + index)) 4 = wordBytes word := by
  induction words generalizing m start index with
  | nil => simp at found
  | cons first words ih =>
    cases index with
    | zero =>
      have same : first = word := Option.some.inj found
      subst same
      have kept : ((m.writeWord (4 * start) first).writeWords (start + 1) words).bytesAt
          (4 * start) 4 = (m.writeWord (4 * start) first).bytesAt (4 * start) 4 := by
        apply List.map_congr_left
        intro place inside
        have below := List.mem_range.mp inside
        exact get_writeWords_of_outside _ (by omega)
      rw [Nat.add_zero, writeWords, kept, bytesAt_writeWord]
    | succ index =>
      have rest : ((m.writeWord (4 * start) first).writeWords (start + 1) words).bytesAt
          (4 * (start + 1 + index)) 4 = wordBytes word := ih _ _ found
      have place : 4 * (start + (index + 1)) = 4 * (start + 1 + index) := by omega
      rw [place, writeWords]
      exact rest

end Memory

end TextureScript.Wasm
