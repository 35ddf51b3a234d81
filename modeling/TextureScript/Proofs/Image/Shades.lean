import TextureScript.Proofs.Image.Geometry

/-!
# Laws of shades

The operations on colours clamp and round, and the laws say when this does no harm. Numbers of one
sign that are taken from a part of a colour move it in one direction, so it is clamped at one end
only, and clamping along the way is clamping at the end. Complementing swaps the two ends. The
weights of the brightness add up to one thousand, so the brightness of a grey is the grey itself and
no brightness is beyond the brightest part.
-/

namespace TextureScript

/-! ## Parts of colours -/

theorem toNat_clampByte (n : Int) : ((clampByte n).toNat : Int) = max 0 (min n 255) := by
  have bound : (max 0 (min n 255)).toNat < UInt8.size := by
    simp only [UInt8.size]
    omega
  rw [clampByte, UInt8.toNat_ofNat_of_lt' bound]
  omega

/-- A byte is what a number is clamped to when it has the clamped value. -/
theorem eq_clampByte {part : UInt8} {n : Int} (same : (part.toNat : Int) = max 0 (min n 255)) :
    part = clampByte n := by
  apply UInt8.toNat_inj.mp
  have clamped := toNat_clampByte n
  omega

/-- Taking two numbers of one sign from a part is taking their sum, clamped once or twice. -/
theorem clampByte_sub_sub {first second : Int}
    (oneSign : 0 ≤ first ∧ 0 ≤ second ∨ first ≤ 0 ∧ second ≤ 0) (part : UInt8) :
    clampByte ((clampByte (part.toNat - first)).toNat - second) =
      clampByte (part.toNat - (first + second)) := by
  have least : (0 : Int) ≤ part.toNat := Int.natCast_nonneg _
  have most : part.toNat < 256 := part.toNat_lt
  apply eq_clampByte
  rw [toNat_clampByte, toNat_clampByte]
  omega

theorem toNat_complement (part : UInt8) : (255 - part).toNat = 255 - part.toNat := by
  have most : part.toNat < 256 := part.toNat_lt
  apply UInt8.toNat_sub_of_le
  apply UInt8.le_iff_toNat_le.mpr
  show part.toNat ≤ 255
  omega

/-- The complement of a darkened part is the complement brightened by as much. -/
theorem complement_clampByte (part : UInt8) (taken : Int) :
    255 - clampByte (part.toNat - taken) = clampByte ((255 - part).toNat - -taken) := by
  have most : part.toNat < 256 := part.toNat_lt
  have clamped := toNat_clampByte (part.toNat - taken)
  apply eq_clampByte
  rw [toNat_complement, toNat_complement]
  omega

/-! ## Numbers of 32 bits -/

/-- A sum that fits into 32 bits is not wrapped. -/
theorem toInt_add_of_fits {first second : Int32}
    (least : -2147483648 ≤ first.toInt + second.toInt)
    (most : first.toInt + second.toInt ≤ 2147483647) :
    (first + second).toInt = first.toInt + second.toInt := by
  rw [Int32.toInt_add]
  apply Int.bmod_eq_of_le
  · omega
  · omega

/-- The least number is the only one whose negation is wrapped. -/
theorem toInt_neg_of_ne {number : Int32} (notLeast : number ≠ Int32.minValue) :
    (-number).toInt = -number.toInt := by
  have least : -2147483648 ≤ number.toInt := number.le_toInt
  have most : number.toInt < 2147483648 := number.toInt_lt
  have above : number.toInt ≠ -2147483648 := by
    intro same
    exact notLeast (Int32.toInt_inj.mp same)
  rw [Int32.toInt_neg]
  apply Int.bmod_eq_of_le
  · omega
  · omega

/-! ## Colours -/

namespace Color

theorem darken_darken {first second : Int32}
    (oneSign : 0 ≤ first.toInt ∧ 0 ≤ second.toInt ∨ first.toInt ≤ 0 ∧ second.toInt ≤ 0)
    (sum : (first + second).toInt = first.toInt + second.toInt) (c : Color) :
    (c.darken first).darken second = c.darken (first + second) := by
  simp only [darken, mapRgb, clampByte_sub_sub oneSign, sum]

theorem invert_darken {value : Int32} (negated : (-value).toInt = -value.toInt) (c : Color) :
    (c.darken value).invert = c.invert.darken (-value) := by
  simp only [darken, invert, mapRgb, complement_clampByte, negated]

/-- A colour is at most as bright as white. -/
theorem luma_le (c : Color) : c.luma ≤ 255 := by
  have red : c.red.toNat < 256 := c.red.toNat_lt
  have green : c.green.toNat < 256 := c.green.toNat_lt
  have blue : c.blue.toNat < 256 := c.blue.toNat_lt
  unfold luma
  omega

/-- The brightness of a colour fits into a part. -/
theorem toNat_luma (c : Color) : (UInt8.ofNat c.luma).toNat = c.luma := by
  have bound := c.luma_le
  apply UInt8.toNat_ofNat_of_lt'
  simp only [UInt8.size]
  omega

/-- A grey is as bright as its parts. -/
theorem luma_grey (part alpha : UInt8) : luma ⟨part, part, part, alpha⟩ = part.toNat := by
  simp only [luma]
  omega

theorem grayscale_grey (part alpha : UInt8) :
    grayscale ⟨part, part, part, alpha⟩ = ⟨part, part, part, alpha⟩ := by
  simp only [grayscale, luma_grey, UInt8.ofNat_toNat]

theorem grayscale_grayscale (c : Color) : c.grayscale.grayscale = c.grayscale :=
  grayscale_grey _ _

theorem grayscale_mask (channel : Channel) (c : Color) :
    (c.mask channel).grayscale = c.mask channel :=
  grayscale_grey _ _

/-- Showing a part twice is showing it once. Alpha is left out: it is opaque when it is shown. -/
theorem mask_mask {channel : Channel} (notAlpha : channel ≠ .alpha) (c : Color) :
    (c.mask channel).mask channel = c.mask channel := by
  cases channel with
  | alpha => exact absurd rfl notAlpha
  | _ => rfl

end Color

/-! ## Images -/

namespace Image

/-- Two images have as many bytes, and the same opacity in every pixel. -/
def SameAlpha (image other : Image) : Prop :=
  image.pixels.size = other.pixels.size ∧
    ∀ i, image.byteAt (pixelSize * i + 3) = other.byteAt (pixelSize * i + 3)

theorem colors_map {image : Image} (formed : image.IsWellFormed) (f : Color → Color) :
    (image.map f).colors = image.colors.map f := by
  have own := colors_ofColors image.width image.height image.color
  rw [ofColors_color formed] at own
  rw [map, colors_ofColors, own, List.map_map]
  rfl

/-- The last byte of a pixel is the opacity of its colour. -/
theorem byteAt_alpha (image : Image) (i : Nat) :
    image.byteAt (pixelSize * i + 3) = ((image.colors[i]?).map (·.alpha)).getD 0 := by
  rw [byteAt_eq_getD, colors, Color.getElem?_ofBytes, pixelSize, Nat.mul_comm 4 i]
  by_cases inside : i * 4 + 4 ≤ image.pixels.data.toList.length
  · rw [if_pos inside]
    rfl
  · rw [if_neg inside, List.getElem?_eq_none (by omega)]
    rfl

/-- Replacing colours by colours of the same opacity keeps the opacity of every pixel. -/
theorem sameAlpha_map {image : Image} (formed : image.IsWellFormed) {f : Color → Color}
    (keeps : ∀ c, (f c).alpha = c.alpha) : (image.map f).SameAlpha image := by
  constructor
  · have mapped : (image.map f).IsWellFormed := isWellFormed_ofColors _ _ _
    exact mapped.trans formed.symm
  · intro i
    rw [byteAt_alpha, byteAt_alpha, colors_map formed, List.getElem?_map, Option.map_map]
    congr 2
    funext c
    exact keeps c

end Image

end TextureScript
