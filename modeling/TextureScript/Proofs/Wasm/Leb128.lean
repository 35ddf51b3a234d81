import TextureScript.Wasm.Leb128

/-!
# Reading back numbers in base 128

A number that fits the width is read back from what was written for it, whatever bytes follow. The
inductions go over the groups: a number of several groups is its lowest seven bits and a number of
seven bits less.
-/

namespace TextureScript.Wasm

/-- A reader reads a value from some bytes when it takes just them, whatever follows. -/
def Reads {α : Type} (reader : Reader α) (bytes : List UInt8) (value : α) : Prop :=
  ∀ rest, reader (bytes ++ rest) = some (value, rest)

/-- A power of two is 128 times the power with an exponent of seven less. -/
theorem pow_of_seven_le {bits : Nat} (wide : 7 ≤ bits) :
    Nat.pow 2 bits = 128 * Nat.pow 2 (bits - 7) := by
  have split : bits = 7 + (bits - 7) := by omega
  calc Nat.pow 2 bits
      = Nat.pow 2 (7 + (bits - 7)) := by rw [← split]
    _ = 128 * Nat.pow 2 (bits - 7) := Nat.pow_add 2 7 (bits - 7)

/-- Powers of two with exponents up to seven are at most 128. -/
theorem pow_le_of_le_seven {bits : Nat} (narrow : bits ≤ 7) : Nat.pow 2 bits ≤ 128 :=
  Nat.pow_le_pow_right (n := 2) (by decide) narrow

/-- A natural number of at most the given number of bits is read back. -/
theorem readUnsigned_unsignedLeb (bits : Nat) {n : Nat} (fits : n < Nat.pow 2 bits) :
    Reads (readUnsigned bits) (unsignedLeb n) n := by
  intro rest
  induction n using Nat.strongRecOn generalizing bits with
  | ind n ih =>
    rw [unsignedLeb]
    by_cases small : n < 128
    · have byte : (UInt8.ofNat n).toNat = n := UInt8.toNat_ofNat_of_lt' (by rw [UInt8.size]; omega)
      rw [if_pos small, List.cons_append, readUnsigned, byte, if_pos small, if_pos fits]
      rfl
    · have byte : (UInt8.ofNat (n % 128 + 128)).toNat = n % 128 + 128 :=
        UInt8.toNat_ofNat_of_lt' (by rw [UInt8.size]; omega)
      have wide : 7 < bits := by
        apply Nat.lt_of_not_le
        intro narrow
        have := pow_le_of_le_seven narrow
        omega
      have power := pow_of_seven_le (Nat.le_of_lt wide)
      have high := ih (n / 128) (by omega) (bits - 7) (by omega)
      rw [if_neg small, List.cons_append, readUnsigned, byte, if_neg (by omega), if_pos wide, high]
      simp only [Option.bind_eq_bind, Option.bind_some, Option.some.injEq, Prod.mk.injEq, and_true]
      omega

/-- An integer of at most the given number of bits is read back. -/
theorem readSigned_signedLeb (bits : Nat) {n : Int} (least : -(Nat.pow 2 (bits - 1) : Int) ≤ n)
    (fits : n < (Nat.pow 2 (bits - 1) : Int)) : Reads (readSigned bits) (signedLeb n) n := by
  intro rest
  induction size : n.natAbs using Nat.strongRecOn generalizing bits n with
  | ind size' ih =>
    subst size
    rw [signedLeb]
    by_cases small : -64 ≤ n ∧ n < 64
    · have byte : (UInt8.ofNat (n % 128).toNat).toNat = (n % 128).toNat :=
        UInt8.toNat_ofNat_of_lt' (by rw [UInt8.size]; omega)
      rw [if_pos small, List.cons_append, readSigned]
      simp only [byte, List.nil_append]
      by_cases negative : n < 0
      · rw [if_neg (by omega), if_pos (by omega), if_pos (by omega)]
        simp only [Option.some.injEq, Prod.mk.injEq, and_true]
        omega
      · rw [if_pos (by omega), if_pos (by omega)]
        simp only [Option.some.injEq, Prod.mk.injEq, and_true]
        omega
    · have byte : (UInt8.ofNat ((n % 128).toNat + 128)).toNat = (n % 128).toNat + 128 :=
        UInt8.toNat_ofNat_of_lt' (by rw [UInt8.size]; omega)
      have wide : 7 < bits := by
        apply Nat.lt_of_not_le
        intro narrow
        have : Nat.pow 2 (bits - 1) ≤ 64 :=
          Nat.pow_le_pow_right (n := 2) (by decide) (by omega : bits - 1 ≤ 6)
        omega
      have power := pow_of_seven_le (by omega : 7 ≤ bits - 1)
      have exponent : bits - 1 - 7 = bits - 7 - 1 := by omega
      rw [exponent] at power
      have high := ih (n / 128).natAbs (by omega) (bits - 7) (n := n / 128) (by omega) (by omega)
        rfl
      rw [if_neg small, List.cons_append, readSigned]
      simp only [byte]
      rw [if_neg (by omega), if_neg (by omega), if_pos wide, high]
      simp only [Option.bind_eq_bind, Option.bind_some, Option.some.injEq, Prod.mk.injEq, and_true]
      omega

/-- A count below the limit of 32 bits is read back. -/
theorem readU32_unsignedLeb {n : Nat} (fits : n < UInt32.size) :
    Reads readU32 (unsignedLeb n) (UInt32.ofNat n) := by
  intro rest
  have read := readUnsigned_unsignedLeb 32 fits rest
  simp [readU32, read]

/-- An unsigned 64-bit number is read back. -/
theorem readU64_unsignedLeb (value : UInt64) : Reads readU64 (unsignedLeb value.toNat) value := by
  intro rest
  have read := readUnsigned_unsignedLeb 64 value.toNat_lt rest
  simp [readU64, read]

/-- A signed 32-bit number is read back. -/
theorem readI32_signedLeb (value : Int32) : Reads readI32 (signedLeb value.toInt) value := by
  intro rest
  have read := readSigned_signedLeb 32 value.le_toInt value.toInt_lt rest
  simp [readI32, read]

/-! ## How long numbers get -/

theorem length_unsignedLeb_le (groups : Nat) {n : Nat} (fits : n < 128 * Nat.pow 128 groups) :
    (unsignedLeb n).length ≤ groups + 1 := by
  induction groups generalizing n with
  | zero =>
    have small : n < 128 := fits
    rw [unsignedLeb, if_pos small]
    exact Nat.le_refl 1
  | succ groups ih =>
    rw [unsignedLeb]
    split
    · exact Nat.le_add_left 1 (groups + 1)
    · have power : Nat.pow 128 (groups + 1) = Nat.pow 128 groups * 128 := rfl
      have rest := ih (n := n / 128) (by omega)
      rw [List.length_cons]
      omega

theorem length_signedLeb_le (groups : Nat) {n : Int} (least : -(64 * Nat.pow 128 groups : Int) ≤ n)
    (fits : n < (64 * Nat.pow 128 groups : Int)) : (signedLeb n).length ≤ groups + 1 := by
  induction groups generalizing n with
  | zero =>
    have one : Nat.pow 128 0 = 1 := rfl
    rw [one] at least fits
    rw [signedLeb, if_pos (by omega)]
    exact Nat.le_refl 1
  | succ groups ih =>
    rw [signedLeb]
    split
    · exact Nat.le_add_left 1 (groups + 1)
    · have power : Nat.pow 128 (groups + 1) = Nat.pow 128 groups * 128 := rfl
      rw [power] at least fits
      have rest := ih (n := n / 128) (by omega) (by omega)
      rw [List.length_cons]
      omega

/-- A number of 32 bits takes at most five bytes. -/
theorem length_unsignedLeb_le_five {n : Nat} (fits : n < UInt32.size) :
    (unsignedLeb n).length ≤ 5 :=
  length_unsignedLeb_le 4 (Nat.lt_trans fits (by decide))

/-- A signed number of 32 bits takes at most five bytes. -/
theorem length_signedLeb_le_five (value : Int32) : (signedLeb value.toInt).length ≤ 5 := by
  have least := value.le_toInt
  have fits := value.toInt_lt
  apply length_signedLeb_le 4
  · have bound : (64 * Nat.pow 128 4 : Int) = 17179869184 := by decide
    omega
  · have bound : (64 * Nat.pow 128 4 : Int) = 17179869184 := by decide
    omega

end TextureScript.Wasm
