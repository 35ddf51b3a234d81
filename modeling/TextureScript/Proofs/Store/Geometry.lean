import TextureScript.Proofs.Image.Geometry
import TextureScript.Proofs.Store.Drawing

/-!
# Flips, resizing and colours on a store

The operations on images obey laws that do not mention stores: flips and resizing take each pixel
from a place of the source, replacing colours commutes with them, flips and inversion undo
themselves, both flips together are half a turn, and enlarging by whole factors can be undone. Each
law is a law of images, and calls make what the operations draw.
-/

namespace TextureScript.Store

/-- Three columns and two rows, no two pixels alike. -/
def sixPixels : Image where
  width := 3
  height := 2
  pixels :=
    ⟨#[0, 0, 255, 255, 10, 1, 254, 255, 20, 2, 253, 255,
      30, 3, 252, 128, 40, 4, 251, 128, 50, 5, 250, 128]⟩

theorem hasPixels_sixPixels : sixPixels.HasPixels :=
  ⟨rfl, by decide, by decide⟩

/-- It does not matter whether colours are replaced before or after a flip or resizing. -/
theorem pointwise_comm_geometric {recoloring moving : Operation} {value size : List Int32}
    {image recolored moved movedLast recoloredLast : Image}
    (isPointwise : recoloring ∈ Operation.pointwise) (isGeometric : moving ∈ Operation.geometric)
    (recolor : Makes recoloring value image recolored)
    (thenMove : Makes moving size recolored movedLast)
    (move : Makes moving size image moved)
    (thenRecolor : Makes recoloring value moved recoloredLast) : movedLast = recoloredLast := by
  obtain ⟨pixels, -, recolors, recolorsDrawn, rfl⟩ := makes_iff.mp recolor
  obtain ⟨-, -, moves, movesDrawn, rfl⟩ := makes_iff.mp move
  obtain ⟨f, rfl⟩ := Operation.draw?_pointwise isPointwise recolorsDrawn
  obtain ⟨sampling, samples, keeps⟩ := Operation.draw?_geometric isGeometric movesDrawn
  have within := keeps image.width image.height pixels.wide pixels.tall
  calc movedLast = moves (image.map f) := thenMove.eq_draw movesDrawn
    _ = (image.map f).sample (sampling image.width image.height) := samples (image.map f)
    _ = (image.sample (sampling image.width image.height)).map f :=
        (Image.map_sample f image within).symm
    _ = (moves image).map f := by rw [samples image]
    _ = recoloredLast := (thenRecolor.eq_draw recolorsDrawn).symm

/-- The six pixels are darkened and resized, in either order. -/
theorem pointwise_comm_geometric_sixPixels :
    ∃ recolored moved movedLast recoloredLast,
      Makes .darken [100] sixPixels recolored ∧ Makes .resize [5, 1] recolored movedLast ∧
      Makes .resize [5, 1] sixPixels moved ∧ Makes .darken [100] moved recoloredLast ∧
      movedLast = recoloredLast := by
  have recolor : Makes .darken [100] sixPixels _ := makes_redraw hasPixels_sixPixels rfl
  have thenMove : Makes .resize [5, 1] _ _ :=
    makes_resize recolor.hasPixels_result (by decide) (by decide)
  have move : Makes .resize [5, 1] sixPixels _ :=
    makes_resize hasPixels_sixPixels (by decide) (by decide)
  have thenRecolor : Makes .darken [100] _ _ := makes_redraw move.hasPixels_result rfl
  exact ⟨_, _, _, _, recolor, thenMove, move, thenRecolor,
    pointwise_comm_geometric (by decide) (by decide) recolor thenMove move thenRecolor⟩

/-- Each flip and inversion undoes itself. The two flips make the same image in either order: the
one that is turned by half a turn, with the list of all pixels in reverse. -/
theorem flips_and_inversion :
    (∀ operation ∈ [Operation.flipHorizontal, .flipVertical, .invertColor],
      ∀ image once twice, Makes operation [] image once → Makes operation [] once twice →
        twice = image) ∧
    ∀ image mirrored mirroredDown upended upendedAcross,
      Makes .flipHorizontal [] image mirrored → Makes .flipVertical [] mirrored mirroredDown →
      Makes .flipVertical [] image upended → Makes .flipHorizontal [] upended upendedAcross →
        mirroredDown = image.halfTurn ∧ upendedAcross = image.halfTurn ∧
          mirroredDown.colors = image.colors.reverse := by
  constructor
  · intro operation member image once twice first second
    have formed := first.hasPixels.formed
    simp only [List.mem_cons, List.not_mem_nil, or_false] at member
    rcases member with rfl | rfl | rfl
    · rw [second.eq_draw rfl, first.eq_draw rfl]
      exact Image.flipHorizontal_flipHorizontal formed
    · rw [second.eq_draw rfl, first.eq_draw rfl]
      exact Image.flipVertical_flipVertical formed
    · rw [second.eq_draw rfl, first.eq_draw rfl]
      exact Image.map_invert_map_invert formed
  · intro image mirrored mirroredDown upended upendedAcross across down down' across'
    have formed := across.hasPixels.formed
    have first : mirroredDown = image.halfTurn := by
      rw [down.eq_draw rfl, across.eq_draw rfl]
      exact Image.flipVertical_flipHorizontal formed
    have second : upendedAcross = image.halfTurn := by
      rw [across'.eq_draw rfl, down'.eq_draw rfl]
      exact Image.flipHorizontal_flipVertical formed
    exact ⟨first, second, by rw [first, Image.colors_halfTurn]⟩

/-- The six pixels are inverted twice, and turned by half a turn in both ways. -/
theorem flips_and_inversion_sixPixels :
    (∃ once twice, Makes .invertColor [] sixPixels once ∧ Makes .invertColor [] once twice ∧
      twice = sixPixels) ∧
    ∃ mirrored mirroredDown upended upendedAcross,
      Makes .flipHorizontal [] sixPixels mirrored ∧ Makes .flipVertical [] mirrored mirroredDown ∧
      Makes .flipVertical [] sixPixels upended ∧ Makes .flipHorizontal [] upended upendedAcross ∧
      mirroredDown = sixPixels.halfTurn ∧ upendedAcross = sixPixels.halfTurn ∧
      mirroredDown.colors = sixPixels.colors.reverse := by
  have invert : Makes .invertColor [] sixPixels _ := makes_redraw hasPixels_sixPixels rfl
  have again : Makes .invertColor [] _ _ := makes_redraw invert.hasPixels_result rfl
  have across : Makes .flipHorizontal [] sixPixels _ := makes_redraw hasPixels_sixPixels rfl
  have thenDown : Makes .flipVertical [] _ _ := makes_redraw across.hasPixels_result rfl
  have down : Makes .flipVertical [] sixPixels _ := makes_redraw hasPixels_sixPixels rfl
  have thenAcross : Makes .flipHorizontal [] _ _ := makes_redraw down.hasPixels_result rfl
  refine ⟨⟨_, _, invert, again, flips_and_inversion.1 _ (by decide) _ _ _ invert again⟩, ?_⟩
  exact ⟨_, _, _, _, across, thenDown, down, thenAcross,
    flips_and_inversion.2 _ _ _ _ _ across thenDown down thenAcross⟩

/-- An image that is enlarged by whole factors comes back when it is resized to its own size, and
resizing it to its own size changes nothing. Resizing to another width and then to another height is
resizing to both at once. -/
theorem resize_lossless_separable (image : Image) :
    (∀ (across down : Nat) (wide tall width height : Int32) (enlarged back : Image),
      wide.toInt = (across * image.width.toNat : Nat) →
      tall.toInt = (down * image.height.toNat : Nat) →
      width.toInt = image.width.toNat → height.toInt = image.height.toNat →
      Makes .resize [wide, tall] image enlarged →
      Makes .resize [width, height] enlarged back → back = image) ∧
    (∀ (width height : Int32) (same : Image),
      width.toInt = image.width.toNat → height.toInt = image.height.toNat →
      Makes .resize [width, height] image same → same = image) ∧
    ∀ (width height oldHeight : Int32) (partway stepwise direct : Image),
      oldHeight.toInt = image.height.toNat →
      Makes .resize [width, oldHeight] image partway →
      Makes .resize [width, height] partway stepwise →
      Makes .resize [width, height] image direct → stepwise = direct := by
  refine ⟨?_, ?_, ?_⟩
  · intro across down wide tall width height enlarged back isWide isTall isWidth isHeight enlarge
      shrink
    have formed := enlarge.hasPixels.formed
    obtain ⟨-, someWidth, someHeight⟩ := shrink.hasPixels
    cases enlarge.eq_draw rfl
    rw [shrink.eq_draw rfl, Operation.side_eq isWidth, Operation.side_eq isHeight]
    have sameWidth := Operation.toNat_side wide
    have sameHeight := Operation.toNat_side tall
    rw [isWide, Int.toNat_natCast] at sameWidth
    rw [isTall, Int.toNat_natCast] at sameHeight
    exact Image.resize_resize_of_factors formed sameWidth sameHeight someWidth someHeight
  · intro width height same isWidth isHeight keep
    have formed := keep.hasPixels.formed
    rw [keep.eq_draw rfl, Operation.side_eq isWidth, Operation.side_eq isHeight]
    exact Image.resize_self formed
  · intro width height oldHeight partway stepwise direct isHeight widen lengthen both
    obtain ⟨-, someWidth, someHeight⟩ := lengthen.hasPixels
    cases widen.eq_draw rfl
    rw [lengthen.eq_draw rfl, both.eq_draw rfl]
    rw [Operation.side_eq isHeight] at someWidth someHeight ⊢
    exact image.resize_resize_of_columns someWidth someHeight _

/-- The six pixels are made twice as wide and three times as tall and brought back, and resized one
side at a time. -/
theorem resize_lossless_separable_sixPixels :
    (∃ enlarged back, Makes .resize [6, 6] sixPixels enlarged ∧
      Makes .resize [3, 2] enlarged back ∧ back = sixPixels) ∧
    (∃ same, Makes .resize [3, 2] sixPixels same ∧ same = sixPixels) ∧
    ∃ partway stepwise direct, Makes .resize [2, 2] sixPixels partway ∧
      Makes .resize [2, 5] partway stepwise ∧ Makes .resize [2, 5] sixPixels direct ∧
      stepwise = direct := by
  have enlarge : Makes .resize [6, 6] sixPixels _ :=
    makes_resize hasPixels_sixPixels (by decide) (by decide)
  have shrink : Makes .resize [3, 2] _ _ :=
    makes_resize enlarge.hasPixels_result (by decide) (by decide)
  have keep : Makes .resize [3, 2] sixPixels _ :=
    makes_resize hasPixels_sixPixels (by decide) (by decide)
  have narrow : Makes .resize [2, 2] sixPixels _ :=
    makes_resize hasPixels_sixPixels (by decide) (by decide)
  have lengthen : Makes .resize [2, 5] _ _ :=
    makes_resize narrow.hasPixels_result (by decide) (by decide)
  have both : Makes .resize [2, 5] sixPixels _ :=
    makes_resize hasPixels_sixPixels (by decide) (by decide)
  obtain ⟨lossless, unchanged, separable⟩ := resize_lossless_separable sixPixels
  exact ⟨⟨_, _, enlarge, shrink,
      lossless 2 3 6 6 3 2 _ _ (by decide) (by decide) (by decide) (by decide) enlarge shrink⟩,
    ⟨_, keep, unchanged 3 2 _ (by decide) (by decide) keep⟩,
    ⟨_, _, _, narrow, lengthen, both,
      separable 2 5 2 _ _ _ (by decide) narrow lengthen both⟩⟩

end TextureScript.Store
