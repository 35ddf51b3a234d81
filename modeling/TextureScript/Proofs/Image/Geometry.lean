import TextureScript.Proofs.Image.Sampling

/-!
# Flips, half a turn and resizing

Seen row by row, a flip reverses every row or the order of the rows, so both flips together reverse
the list of all pixels: the image is turned by half a turn, whichever flip comes first. Resizing
takes the column at the same share of the width and the row at the same share of the height, both
rounded down. Rounding loses nothing when a side is enlarged by a whole factor, and it does not tell
one resizing of both sides from one side after the other.
-/

namespace TextureScript

/-- The complement of the complement is the colour itself. -/
theorem Color.invert_invert (c : Color) : c.invert.invert = c := by
  have twice : ∀ part : UInt8, 255 - (255 - part) = part := by
    intro part
    grind
  simp only [invert, mapRgb, twice]

namespace Image

/-! ## Rows -/

/-- The rows of an image from the top, each from left to right. -/
def rows (image : Image) : List (List Color) :=
  (List.range image.height.toNat).map fun y =>
    (List.range image.width.toNat).map fun x => image.color x y

/-- What is listed row by row can be listed along one index, whose remainder by the width is the
column and whose quotient is the row. -/
theorem flatten_map_range {α : Type} (width height : Nat) (value : Nat → Nat → α) :
    ((List.range height).map fun y => (List.range width).map fun x => value x y).flatten =
      (List.range (width * height)).map fun i => value (i % width) (i / width) := by
  induction height with
  | zero => rfl
  | succ height ih =>
    rw [List.range_succ, List.map_append, List.flatten_append, ih, Nat.mul_succ, List.range_add,
      List.map_append, List.map_map]
    congr 1
    rw [List.map_singleton, List.flatten_singleton]
    apply List.map_congr_left
    intro x member
    have column : x < width := List.mem_range.mp member
    have wide : 0 < width := Nat.zero_lt_of_lt column
    simp only [Function.comp_apply, Nat.mul_add_mod, Nat.mod_eq_of_lt column,
      Nat.mul_add_div wide, Nat.div_eq_of_lt column, Nat.add_zero]

/-- The pixels of a well-formed image are those of its rows, one row after the other. -/
theorem colors_eq_flatten_rows {image : Image} (formed : image.IsWellFormed) :
    image.colors = image.rows.flatten :=
  calc image.colors = (ofColors image.width image.height image.color).colors := by
        rw [ofColors_color formed]
    _ = image.rows.flatten := by rw [colors_ofColors, rows, flatten_map_range]

theorem rows_sample (image : Image) (sampling : Sampling) :
    (image.sample sampling).rows =
      (List.range sampling.height.toNat).map fun y =>
        (List.range sampling.width.toNat).map fun x =>
          image.color (sampling.column x) (sampling.row y) := by
  apply List.map_congr_left
  intro y row
  apply List.map_congr_left
  intro x column
  exact color_ofColors _ (List.mem_range.mp column) (List.mem_range.mp row)

theorem reverse_map_range {α : Type} (count : Nat) (value : Nat → α) :
    ((List.range count).map value).reverse =
      (List.range count).map fun i => value (count - 1 - i) := by
  rw [← List.map_reverse, List.range_eq_range', List.reverse_range', List.map_map,
    ← List.range_eq_range']
  simp only [Function.comp_def, Nat.zero_add]

/-- A horizontal flip reverses every row. -/
theorem rows_flipHorizontal (image : Image) :
    image.flipHorizontal.rows = image.rows.map List.reverse := by
  rw [flipHorizontal_eq_sample, rows_sample, rows, List.map_map]
  apply List.map_congr_left
  intro y _
  exact (reverse_map_range _ fun x => image.color x y).symm

/-- A vertical flip reverses the order of the rows. -/
theorem rows_flipVertical (image : Image) : image.flipVertical.rows = image.rows.reverse := by
  rw [flipVertical_eq_sample, rows_sample]
  exact (reverse_map_range _ fun y => (List.range image.width.toNat).map fun x =>
    image.color x y).symm

/-- Well-formed images with the same sides and the same rows are the same. -/
theorem ext_rows {image other : Image} (formed : image.IsWellFormed) (formed' : other.IsWellFormed)
    (width : image.width = other.width) (height : image.height = other.height)
    (rows : image.rows = other.rows) : image = other := by
  apply ext_colors formed formed' width height
  rw [colors_eq_flatten_rows formed, colors_eq_flatten_rows formed', rows]

/-! ## Flips -/

theorem isWellFormed_flipHorizontal (image : Image) : image.flipHorizontal.IsWellFormed :=
  isWellFormed_ofColors _ _ _

theorem isWellFormed_flipVertical (image : Image) : image.flipVertical.IsWellFormed :=
  isWellFormed_ofColors _ _ _

theorem flipHorizontal_flipHorizontal {image : Image} (formed : image.IsWellFormed) :
    image.flipHorizontal.flipHorizontal = image := by
  apply ext_rows (isWellFormed_flipHorizontal image.flipHorizontal) formed rfl rfl
  rw [rows_flipHorizontal, rows_flipHorizontal, List.map_map, List.reverse_involutive.comp_self,
    List.map_id]

theorem flipVertical_flipVertical {image : Image} (formed : image.IsWellFormed) :
    image.flipVertical.flipVertical = image := by
  apply ext_rows (isWellFormed_flipVertical image.flipVertical) formed rfl rfl
  rw [rows_flipVertical, rows_flipVertical, List.reverse_reverse]

/-- The image turned by half a turn: its pixels in reverse. -/
def halfTurn (image : Image) : Image :=
  { image with pixels := ⟨(image.colors.reverse.flatMap Color.bytes).toArray⟩ }

theorem colors_halfTurn (image : Image) : image.halfTurn.colors = image.colors.reverse :=
  Color.ofBytes_flatMap _

theorem isWellFormed_halfTurn {image : Image} (formed : image.IsWellFormed) :
    image.halfTurn.IsWellFormed := by
  have counted := Color.length_flatMap_bytes image.colors.reverse
  rw [List.length_reverse, length_colors formed] at counted
  exact counted

/-- Reversing every row and then the order of the rows reverses the whole. -/
theorem flipVertical_flipHorizontal {image : Image} (formed : image.IsWellFormed) :
    image.flipHorizontal.flipVertical = image.halfTurn := by
  have turned := isWellFormed_flipVertical image.flipHorizontal
  apply ext_colors turned (isWellFormed_halfTurn formed) rfl rfl
  rw [colors_eq_flatten_rows turned, rows_flipVertical, rows_flipHorizontal,
    ← List.reverse_flatten, ← colors_eq_flatten_rows formed, colors_halfTurn]

/-- It does not matter which of the two comes first. -/
theorem flipHorizontal_flipVertical {image : Image} (formed : image.IsWellFormed) :
    image.flipVertical.flipHorizontal = image.halfTurn := by
  rw [← flipVertical_flipHorizontal formed]
  have first := isWellFormed_flipHorizontal image.flipVertical
  have second := isWellFormed_flipVertical image.flipHorizontal
  apply ext_rows first second rfl rfl
  rw [rows_flipHorizontal, rows_flipVertical, rows_flipVertical, rows_flipHorizontal,
    List.map_reverse]

/-! ## Replacing colours -/

theorem map_map (f g : Color → Color) (image : Image) :
    (image.map f).map g = image.map fun c => g (f c) := by
  apply ofColors_congr
  intro x column y row
  exact congrArg g (color_ofColors _ column row)

/-- Replacing every colour by itself changes nothing. -/
theorem map_eq_self {image : Image} (formed : image.IsWellFormed) {f : Color → Color}
    (same : ∀ c, f c = c) : image.map f = image :=
  calc image.map f = ofColors image.width image.height image.color :=
        ofColors_congr fun _ _ _ _ => same _
    _ = image := ofColors_color formed

theorem map_invert_map_invert {image : Image} (formed : image.IsWellFormed) :
    (image.map Color.invert).map Color.invert = image := by
  rw [map_map]
  exact map_eq_self formed Color.invert_invert

/-! ## Resizing -/

theorem resize_self {image : Image} (formed : image.IsWellFormed) :
    image.resize image.width image.height = image := by
  rw [resize_eq_sample]
  apply sample_eq_self formed rfl rfl
  · intro x column
    exact Nat.mul_div_cancel _ (Nat.zero_lt_of_lt column)
  · intro y row
    exact Nat.mul_div_cancel _ (Nat.zero_lt_of_lt row)

/-- A place on a side is found again after the side was enlarged by a whole factor. -/
theorem scaled_back {side factor i : Nat} (inside : i < side) (positive : 0 < factor * side) :
    i * (factor * side) / side * side / (factor * side) = i := by
  have enlarged : i * (factor * side) / side = i * factor := by
    rw [← Nat.mul_assoc, Nat.mul_div_cancel _ (Nat.zero_lt_of_lt inside)]
  rw [enlarged, Nat.mul_assoc, Nat.mul_div_cancel _ positive]

/-- An image that is enlarged by whole factors and brought back to its size is the same. -/
theorem resize_resize_of_factors {image : Image} (formed : image.IsWellFormed)
    {width height : UInt32} {across down : Nat} (wide : width.toNat = across * image.width.toNat)
    (tall : height.toNat = down * image.height.toNat) (someWidth : 0 < width.toNat)
    (someHeight : 0 < height.toNat) :
    (image.resize width height).resize image.width image.height = image := by
  rw [resize_eq_sample, resize_eq_sample,
    sample_sample image (Sampling.within_resize someWidth someHeight _ _)]
  apply sample_eq_self formed rfl rfl
  · intro x column
    show x * width.toNat / image.width.toNat * image.width.toNat / width.toNat = x
    rw [wide] at someWidth ⊢
    exact scaled_back column someWidth
  · intro y row
    show y * height.toNat / image.height.toNat * image.height.toNat / height.toNat = y
    rw [tall] at someHeight ⊢
    exact scaled_back row someHeight

/-- Resizing the columns and then the rows is resizing both. -/
theorem resize_resize_of_columns (image : Image) {width : UInt32} (someWidth : 0 < width.toNat)
    (someHeight : 0 < image.height.toNat) (height : UInt32) :
    (image.resize width image.height).resize width height = image.resize width height := by
  rw [resize_eq_sample, resize_eq_sample,
    sample_sample image (Sampling.within_resize someWidth someHeight _ _), resize_eq_sample]
  apply sample_congr image (.andThen _ _) (.resize _ _ _ _) rfl rfl
  · intro x _
    show x * width.toNat / width.toNat * image.width.toNat / width.toNat =
      x * image.width.toNat / width.toNat
    rw [Nat.mul_div_cancel _ someWidth]
  · intro y _
    show y * image.height.toNat / height.toNat * image.height.toNat / image.height.toNat =
      y * image.height.toNat / height.toNat
    rw [Nat.mul_div_cancel _ someHeight]

end Image

end TextureScript
