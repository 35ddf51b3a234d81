import TextureScript.Proofs.Image.Colors

/-!
# Images that take their pixels from others

Flips and resizing make an image whose every pixel is a pixel of another one. Its column there
depends on its own column alone, and its row on its own row. Such a change of an image is a
sampling, and its laws are laws of the columns and rows that it takes: one sampling after another is
a sampling, a sampling that takes every pixel from its own place changes nothing, and it does not
matter whether colours are replaced before or after.
-/

namespace TextureScript

/-- Where an image takes its pixels from. -/
structure Sampling where
  /-- Pixels in a row. -/
  width : UInt32
  /-- Rows. -/
  height : UInt32
  /-- The column of the source that a column is taken from. -/
  column : Nat → Nat
  /-- The row of the source that a row is taken from. -/
  row : Nat → Nat

namespace Sampling

/-- The columns in reverse. -/
def flipHorizontal (width height : UInt32) : Sampling :=
  ⟨width, height, fun x => width.toNat - 1 - x, fun y => y⟩

/-- The rows in reverse. -/
def flipVertical (width height : UInt32) : Sampling :=
  ⟨width, height, fun x => x, fun y => height.toNat - 1 - y⟩

/-- The columns and rows at the same share of the sides, rounded down. -/
def resize (oldWidth oldHeight width height : UInt32) : Sampling :=
  ⟨width, height, fun x => x * oldWidth.toNat / width.toNat,
    fun y => y * oldHeight.toNat / height.toNat⟩

/-- The sampling that a second one makes of a first one. -/
def andThen (first second : Sampling) : Sampling :=
  ⟨second.width, second.height, fun x => first.column (second.column x),
    fun y => first.row (second.row y)⟩

/-- A sampling takes columns and rows that an image with the given sides has. -/
structure Within (sampling : Sampling) (width height : UInt32) : Prop where
  column : ∀ x < sampling.width.toNat, sampling.column x < width.toNat
  row : ∀ y < sampling.height.toNat, sampling.row y < height.toNat

theorem within_flipHorizontal (width height : UInt32) :
    (flipHorizontal width height).Within width height where
  column := by
    intro x inside
    have inside' : x < width.toNat := inside
    show width.toNat - 1 - x < width.toNat
    omega
  row := fun _ inside => inside

theorem within_flipVertical (width height : UInt32) :
    (flipVertical width height).Within width height where
  column := fun _ inside => inside
  row := by
    intro y inside
    have inside' : y < height.toNat := inside
    show height.toNat - 1 - y < height.toNat
    omega

/-- A share below one of a side is a place on that side. -/
theorem scaled_lt {old new i : Nat} (positive : 0 < old) (inside : i < new) :
    i * old / new < old :=
  Nat.div_lt_of_lt_mul (Nat.mul_lt_mul_of_pos_right inside positive)

theorem within_resize {oldWidth oldHeight : UInt32} (wide : 0 < oldWidth.toNat)
    (tall : 0 < oldHeight.toNat) (width height : UInt32) :
    (resize oldWidth oldHeight width height).Within oldWidth oldHeight where
  column := fun _ inside => scaled_lt wide inside
  row := fun _ inside => scaled_lt tall inside

end Sampling

namespace Image

/-! ## Samplings of an image -/

/-- The image that takes its pixels from another one. -/
def sample (image : Image) (sampling : Sampling) : Image :=
  ofColors sampling.width sampling.height fun x y =>
    image.color (sampling.column x) (sampling.row y)

theorem flipHorizontal_eq_sample (image : Image) :
    image.flipHorizontal = image.sample (.flipHorizontal image.width image.height) := rfl

theorem flipVertical_eq_sample (image : Image) :
    image.flipVertical = image.sample (.flipVertical image.width image.height) := rfl

theorem resize_eq_sample (image : Image) (width height : UInt32) :
    image.resize width height =
      image.sample (.resize image.width image.height width height) := rfl

/-- An image shows another one through a sampling: it has the sides of the sampling and four bytes
for every pixel, and each of its pixels is the one at a column and a row of the source, where the
source has bytes. -/
structure Shows (image source : Image) (sampling : Sampling) : Prop where
  width : image.width = sampling.width
  height : image.height = sampling.height
  size : image.pixels.size = 4 * image.width.toNat * image.height.toNat
  within : sampling.Within source.width source.height
  pixel : ∀ x < image.width.toNat, ∀ y < image.height.toNat, ∃ c,
    source.color? (sampling.column x) (sampling.row y) = some c ∧ image.color? x y = some c

/-- One sampling after another is a sampling of the first image. -/
theorem sample_sample (image : Image) {first second : Sampling}
    (within : second.Within first.width first.height) :
    (image.sample first).sample second = image.sample (first.andThen second) := by
  apply ofColors_congr
  intro x column y row
  exact color_ofColors _ (within.column x column) (within.row y row)

/-- Samplings that take the same columns and rows make the same image. -/
theorem sample_congr (image : Image) (first second : Sampling)
    (width : first.width = second.width) (height : first.height = second.height)
    (column : ∀ x < first.width.toNat, first.column x = second.column x)
    (row : ∀ y < first.height.toNat, first.row y = second.row y) :
    image.sample first = image.sample second := by
  unfold sample
  rw [← width, ← height]
  apply ofColors_congr
  intro x inColumns y inRows
  rw [column x inColumns, row y inRows]

/-- A sampling that takes every pixel from its own place changes nothing. -/
theorem sample_eq_self {image : Image} (formed : image.IsWellFormed) {sampling : Sampling}
    (width : sampling.width = image.width) (height : sampling.height = image.height)
    (column : ∀ x < image.width.toNat, sampling.column x = x)
    (row : ∀ y < image.height.toNat, sampling.row y = y) : image.sample sampling = image :=
  calc image.sample sampling
      = image.sample ⟨image.width, image.height, fun x => x, fun y => y⟩ :=
        sample_congr image _ _ width height (width ▸ column) (height ▸ row)
    _ = image := ofColors_color formed

/-- Colours may be replaced before or after a sampling. -/
theorem map_sample (f : Color → Color) (image : Image) {sampling : Sampling}
    (within : sampling.Within image.width image.height) :
    (image.sample sampling).map f = (image.map f).sample sampling := by
  apply ofColors_congr
  intro x column y row
  have before : (image.sample sampling).color x y =
      image.color (sampling.column x) (sampling.row y) := color_ofColors _ column row
  have after : (image.map f).color (sampling.column x) (sampling.row y) =
      f (image.color (sampling.column x) (sampling.row y)) :=
    color_ofColors _ (within.column x column) (within.row y row)
  rw [before, after]

end Image

end TextureScript
