import Mathlib.Data.List.Basic
import TextureScript.Image

/-!
# Images seen through their colours

The bytes of an image, read four at a time, are the list of its colours, row by row. An image that
is made of a function of the coordinates lists what the function gives, and a well-formed image is
made of the function that reads its own colours. So well-formed images with the same sides are the
same as soon as they have the same colour at every column and row.
-/

namespace TextureScript

/-! ## Bytes and colours -/

namespace Color

/-- The bytes of a colour, in the order in which a pixel has them. -/
def bytes (c : Color) : List UInt8 :=
  [c.red, c.green, c.blue, c.alpha]

/-- The colours of bytes that are read four at a time; fewer than four at the end make none. -/
def ofBytes : List UInt8 → List Color
  | red :: green :: blue :: alpha :: rest => ⟨red, green, blue, alpha⟩ :: ofBytes rest
  | _ => []

/-- Bytes for at least one pixel are the bytes of a colour and others. -/
theorem exists_bytes_append {list : List UInt8} {count : Nat}
    (enough : list.length = count + Image.pixelSize) :
    ∃ (c : Color) (rest : List UInt8), list = c.bytes ++ rest ∧ rest.length = count := by
  obtain ⟨red, _, rfl, afterRed⟩ := List.length_eq_succ_iff.mp enough
  obtain ⟨green, _, rfl, afterGreen⟩ := List.length_eq_succ_iff.mp afterRed
  obtain ⟨blue, _, rfl, afterBlue⟩ := List.length_eq_succ_iff.mp afterGreen
  obtain ⟨alpha, rest, rfl, afterAlpha⟩ := List.length_eq_succ_iff.mp afterBlue
  exact ⟨⟨red, green, blue, alpha⟩, rest, rfl, afterAlpha⟩

/-- Bytes that were written colour by colour are read as these colours. -/
theorem ofBytes_flatMap (colors : List Color) : ofBytes (colors.flatMap bytes) = colors := by
  induction colors with
  | nil => rfl
  | cons c colors ih =>
    simp only [List.flatMap_cons, bytes, List.cons_append, List.nil_append, ofBytes, ih]

theorem length_flatMap_bytes (colors : List Color) :
    (colors.flatMap bytes).length = colors.length * Image.pixelSize := by
  induction colors with
  | nil => rfl
  | cons c colors ih =>
    rw [List.flatMap_cons, List.length_append, ih, List.length_cons, Nat.succ_mul, Nat.add_comm]
    rfl

/-- Bytes of whole pixels are the bytes of the colours that are read from them. -/
theorem flatMap_ofBytes {count : Nat} {list : List UInt8}
    (whole : list.length = count * Image.pixelSize) : (ofBytes list).flatMap bytes = list := by
  induction count generalizing list with
  | zero =>
    rw [Nat.zero_mul, List.length_eq_zero_iff] at whole
    subst whole
    rfl
  | succ count ih =>
    rw [Nat.succ_mul] at whole
    obtain ⟨c, rest, rfl, left⟩ := exists_bytes_append whole
    exact congrArg (c.bytes ++ ·) (ih left)

/-- The colour at a place of the list is read from four bytes, if there are so many. -/
theorem getElem?_ofBytes (list : List UInt8) (n : Nat) :
    (ofBytes list)[n]? =
      if n * 4 + 4 ≤ list.length then
        some ⟨(list[n * 4]?).getD 0, (list[n * 4 + 1]?).getD 0, (list[n * 4 + 2]?).getD 0,
          (list[n * 4 + 3]?).getD 0⟩
      else none := by
  fun_induction ofBytes list generalizing n with
  | case1 red green blue alpha rest ih =>
    cases n with
    | zero => simp
    | succ n =>
      have enough : n * 4 + 4 + 4 ≤ (red :: green :: blue :: alpha :: rest).length ↔
          n * 4 + 4 ≤ rest.length := by
        simp only [List.length_cons]
        omega
      simp only [Nat.succ_mul, enough, List.getElem?_cons_succ, ih]
  | case2 list short =>
    have few : ¬ n * 4 + 4 ≤ list.length := by
      intro many
      have enough : Image.pixelSize ≤ list.length := Nat.le_trans (Nat.le_add_left _ _) many
      obtain ⟨c, rest, rfl, -⟩ := exists_bytes_append (Nat.sub_add_cancel enough).symm
      exact short _ _ _ _ rest rfl
    rw [if_neg few, List.getElem?_nil]

end Color

/-! ## The colours of an image -/

namespace Image

/-- The pixels of an image in a list, row by row from the top. -/
def colors (image : Image) : List Color :=
  Color.ofBytes image.pixels.data.toList

theorem byteAt_eq_getD (image : Image) (i : Nat) :
    image.byteAt i = (image.pixels.data.toList[i]?).getD 0 := by
  unfold byteAt
  by_cases inside : i < image.pixels.size
  · rw [dif_pos inside, Array.getElem?_toList, Array.getElem?_eq_getElem inside]
    rfl
  · rw [dif_neg inside, Array.getElem?_toList, Array.getElem?_eq_none (Nat.le_of_not_lt inside)]
    rfl

/-- The colour at a column and a row, if there is one, stands in the list behind the rows above and
the columns on the left. -/
theorem color?_eq_getElem? (image : Image) (x y : Nat) :
    image.color? x y = image.colors[y * image.width.toNat + x]? := by
  simp only [color?, colors, color, colorFrom, byteAt_eq_getD, pixelStart, pixelSize,
    Color.getElem?_ofBytes]
  rfl

theorem color_of_color? {image : Image} {x y : Nat} {c : Color}
    (found : image.color? x y = some c) : image.color x y = c := by
  unfold color? at found
  split at found
  · exact Option.some.inj found
  · cases found

theorem toList_pushColor (bytes : ByteArray) (c : Color) :
    (pushColor bytes c).data.toList = bytes.data.toList ++ c.bytes := by
  simp only [pushColor, ByteArray.data_push, Array.toList_push, Color.bytes, List.append_assoc,
    List.cons_append, List.nil_append]

/-- The bytes of an image that is made of a function of the coordinates: those of one pixel after
the other. -/
theorem toList_ofColors (width height : UInt32) (color : Nat → Nat → Color) :
    (ofColors width height color).pixels.data.toList =
      ((List.range (width.toNat * height.toNat)).map fun i =>
        color (i % width.toNat) (i / width.toNat)).flatMap Color.bytes := by
  have pushed : ∀ (count : Nat) (start : ByteArray),
      (count.fold (fun i _ bytes => pushColor bytes (color (i % width.toNat) (i / width.toNat)))
        start).data.toList = start.data.toList ++ ((List.range count).map fun i =>
          color (i % width.toNat) (i / width.toNat)).flatMap Color.bytes := by
    intro count start
    induction count with
    | zero => simp
    | succ count ih =>
      rw [Nat.fold_succ, toList_pushColor, ih, List.range_succ]
      simp
  exact pushed _ _

/-- An image that is made of a function of the coordinates lists what the function gives. -/
theorem colors_ofColors (width height : UInt32) (color : Nat → Nat → Color) :
    (ofColors width height color).colors =
      (List.range (width.toNat * height.toNat)).map fun i =>
        color (i % width.toNat) (i / width.toNat) := by
  rw [colors, toList_ofColors, Color.ofBytes_flatMap]

/-- Every image that is made of a function of its coordinates has four bytes for every pixel. -/
theorem isWellFormed_ofColors (width height : UInt32) (color : Nat → Nat → Color) :
    (ofColors width height color).IsWellFormed := by
  have counted := congrArg List.length (toList_ofColors width height color)
  rw [Color.length_flatMap_bytes, List.length_map, List.length_range] at counted
  exact counted

/-- The bytes of a well-formed image are those of its colours. -/
theorem flatMap_colors {image : Image} (formed : image.IsWellFormed) :
    image.colors.flatMap Color.bytes = image.pixels.data.toList :=
  Color.flatMap_ofBytes formed

/-- A well-formed image has as many colours as its sides call for. -/
theorem length_colors {image : Image} (formed : image.IsWellFormed) :
    image.colors.length = image.pixelCount := by
  have counted := congrArg List.length (flatMap_colors formed)
  rw [Color.length_flatMap_bytes] at counted
  exact Nat.eq_of_mul_eq_mul_right (show 0 < pixelSize by decide) (counted.trans formed)

/-- Well-formed images with the same sides and the same colours are the same. -/
theorem ext_colors {image other : Image} (formed : image.IsWellFormed)
    (formed' : other.IsWellFormed) (width : image.width = other.width)
    (height : image.height = other.height) (colors : image.colors = other.colors) :
    image = other := by
  have bytes : image.pixels.data.toList = other.pixels.data.toList := by
    rw [← flatMap_colors formed, ← flatMap_colors formed', colors]
  have pixels : image.pixels = other.pixels := ByteArray.ext (Array.toList_inj.mp bytes)
  cases image
  cases other
  cases width
  cases height
  cases pixels
  rfl

/-- An image that fits its sides and has a pixel at least. -/
structure HasPixels (image : Image) : Prop where
  formed : image.IsWellFormed
  wide : 0 < image.width.toNat
  tall : 0 < image.height.toNat

theorem hasPixels_ofColors {width height : UInt32} (wide : 0 < width.toNat)
    (tall : 0 < height.toNat) (color : Nat → Nat → Color) :
    (ofColors width height color).HasPixels :=
  ⟨isWellFormed_ofColors width height color, wide, tall⟩

/-! ## The colour at a column and a row -/

/-- The columns and rows of an image have places in its list of pixels. -/
theorem place_lt {width height x y : Nat} (column : x < width) (row : y < height) :
    y * width + x < width * height :=
  calc y * width + x < y * width + width := Nat.add_lt_add_left column _
    _ = (y + 1) * width := (Nat.succ_mul _ _).symm
    _ ≤ height * width := Nat.mul_le_mul_right _ row
    _ = width * height := Nat.mul_comm _ _

/-- A well-formed image has bytes for the colour at each of its columns and rows. -/
theorem color?_eq_some {image : Image} (formed : image.IsWellFormed) {x y : Nat}
    (column : x < image.width.toNat) (row : y < image.height.toNat) :
    image.color? x y = some (image.color x y) := by
  apply if_pos
  rw [formed, pixelStart, byteCount, ← Nat.succ_mul]
  exact Nat.mul_le_mul_right _ (place_lt column row)

/-- An image that is made of a function of the coordinates has the colour at a column and a row that
the function gives. -/
theorem color?_ofColors {width height : UInt32} (color : Nat → Nat → Color) {x y : Nat}
    (column : x < width.toNat) (row : y < height.toNat) :
    (ofColors width height color).color? x y = some (color x y) := by
  have wide : 0 < width.toNat := Nat.zero_lt_of_lt column
  have remainder : (y * width.toNat + x) % width.toNat = x := by
    rw [Nat.mul_comm, Nat.mul_add_mod, Nat.mod_eq_of_lt column]
  have quotient : (y * width.toNat + x) / width.toNat = y := by
    rw [Nat.mul_comm, Nat.mul_add_div wide, Nat.div_eq_of_lt column, Nat.add_zero]
  rw [color?_eq_getElem?, colors_ofColors, List.getElem?_map,
    show (ofColors width height color).width = width from rfl,
    List.getElem?_range (place_lt column row), Option.map_some, remainder, quotient]

theorem color_ofColors {width height : UInt32} (color : Nat → Nat → Color) {x y : Nat}
    (column : x < width.toNat) (row : y < height.toNat) :
    (ofColors width height color).color x y = color x y :=
  color_of_color? (color?_ofColors color column row)

/-- Only the colours at columns and rows of an image matter. -/
theorem ofColors_congr {width height : UInt32} {color color' : Nat → Nat → Color}
    (same : ∀ x < width.toNat, ∀ y < height.toNat, color x y = color' x y) :
    ofColors width height color = ofColors width height color' := by
  have formed := isWellFormed_ofColors width height
  apply ext_colors (formed color) (formed color') rfl rfl
  rw [colors_ofColors, colors_ofColors]
  apply List.map_congr_left
  intro i member
  have inside : i < width.toNat * height.toNat := List.mem_range.mp member
  have wide : 0 < width.toNat := Nat.pos_of_mul_pos_right (Nat.zero_lt_of_lt inside)
  exact same _ (Nat.mod_lt _ wide) _ (Nat.div_lt_of_lt_mul inside)

/-- A well-formed image is made of the function that reads its colours. -/
theorem ofColors_color {image : Image} (formed : image.IsWellFormed) :
    ofColors image.width image.height image.color = image := by
  apply ext_colors (isWellFormed_ofColors _ _ _) formed rfl rfl
  rw [colors_ofColors]
  apply List.ext_getElem
  · rw [List.length_map, List.length_range, length_colors formed, pixelCount]
  · intro i _ inside
    rw [length_colors formed] at inside
    have wide : 0 < image.width.toNat := Nat.pos_of_mul_pos_right (Nat.zero_lt_of_lt inside)
    have found := color?_eq_some formed (Nat.mod_lt i wide) (Nat.div_lt_of_lt_mul inside)
    rw [color?_eq_getElem?, Nat.div_add_mod'] at found
    simp only [List.getElem_map, List.getElem_range]
    exact (List.getElem_of_getElem? found).2.symm

end Image

end TextureScript
