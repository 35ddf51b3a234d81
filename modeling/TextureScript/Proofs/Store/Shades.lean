import TextureScript.Proofs.Image.Shades
import TextureScript.Proofs.Store.Geometry

/-!
# Darkening, inversion, greys and masks on a store

What holds of every colour holds of every image: an operation on colours draws an image by replacing
the colour of each pixel, so two ways to draw an image agree when they agree on every colour, and
an operation that keeps the opacity of every colour keeps every fourth byte of an image.
-/

namespace TextureScript

/-- A mask draws an image by showing red, green or blue. -/
theorem Operation.draw?_mask {operation : Operation}
    (member : operation ∈ [maskRed, maskGreen, maskBlue]) :
    ∃ channel : Channel, channel ≠ .alpha ∧
      operation.draw? [] = some (Image.map (Color.mask channel)) := by
  simp only [List.mem_cons, List.not_mem_nil, or_false] at member
  rcases member with rfl | rfl | rfl
  · exact ⟨.red, by decide, rfl⟩
  · exact ⟨.green, by decide, rfl⟩
  · exact ⟨.blue, by decide, rfl⟩

namespace Store

variable {first second : Operation} {numbers numbers' : List Int32} {f g : Color → Color}
  {image once twice : Image}

/-- What two operations on colours make one after the other is made by replacing colours once. -/
theorem Makes.eq_map_map (firstDrawn : first.draw? numbers = some (Image.map f))
    (secondDrawn : second.draw? numbers' = some (Image.map g))
    (make : Makes first numbers image once) (makeNext : Makes second numbers' once twice) :
    twice = image.map fun c => g (f c) := by
  have drawn : once = image.map f := make.eq_draw firstDrawn
  rw [makeNext.eq_draw secondDrawn, drawn, Image.map_map]

/-- An operation on colours that changes nothing after another one makes the same image. -/
theorem Makes.eq_of_absorbs (firstDrawn : first.draw? numbers = some (Image.map f))
    (secondDrawn : second.draw? numbers' = some (Image.map g)) (absorbs : ∀ c, g (f c) = f c)
    (make : Makes first numbers image once) (makeNext : Makes second numbers' once twice) :
    twice = once := by
  have composed := Makes.eq_map_map firstDrawn secondDrawn make makeNext
  rw [composed, make.eq_draw firstDrawn]
  exact congrArg (Image.map · image) (funext absorbs)

/-- An operation that keeps the opacity of colours keeps that of images. -/
theorem Makes.sameAlpha (drawn : first.draw? numbers = some (Image.map f))
    (keeps : ∀ c, (f c).alpha = c.alpha) (make : Makes first numbers image once) :
    once.SameAlpha image := by
  rw [make.eq_draw drawn]
  exact Image.sameAlpha_map make.hasPixels.formed keeps

/-- The laws of shades. Darkening by two numbers of one sign is darkening by their sum, when that is
a number; inverting what was darkened is brightening the inverse by as much. Greys stay as they are
when they are made grey again, and so does a part that is shown again, or made grey. Darkening,
greys and inversion keep the opacity of every pixel. The brightness of a colour fits into a part. -/
theorem shade_laws :
    (∀ (v w : Int32) (image once twice direct : Image),
      (0 ≤ v.toInt ∧ 0 ≤ w.toInt ∨ v.toInt ≤ 0 ∧ w.toInt ≤ 0) →
      -2147483648 ≤ v.toInt + w.toInt → v.toInt + w.toInt ≤ 2147483647 →
      Makes .darken [v] image once → Makes .darken [w] once twice →
      Makes .darken [v + w] image direct → twice = direct) ∧
    (∀ (v : Int32) (image darkened invertedLast inverted darkenedLast : Image),
      v ≠ Int32.minValue →
      Makes .darken [v] image darkened → Makes .invertColor [] darkened invertedLast →
      Makes .invertColor [] image inverted → Makes .darken [-v] inverted darkenedLast →
        invertedLast = darkenedLast) ∧
    (∀ operation ∈ [Operation.grayscale, .maskRed, .maskGreen, .maskBlue],
      ∀ image once twice, Makes operation [] image once → Makes operation [] once twice →
        twice = once) ∧
    (∀ operation ∈ [Operation.maskRed, .maskGreen, .maskBlue],
      ∀ image masked grey, Makes operation [] image masked → Makes .grayscale [] masked grey →
        grey = masked) ∧
    (∀ image result, (∃ v, Makes .darken [v] image result) ∨ Makes .grayscale [] image result ∨
      Makes .invertColor [] image result → result.SameAlpha image) ∧
    ∀ c : Color, c.luma ≤ 255 ∧ (UInt8.ofNat c.luma).toNat = c.luma := by
  refine ⟨?_, ?_, ?_, ?_, ?_, fun c => ⟨c.luma_le, c.toNat_luma⟩⟩
  · intro v w image once twice direct oneSign least most darken darkenMore darkenAtOnce
    have sum := toInt_add_of_fits least most
    rw [Makes.eq_map_map rfl rfl darken darkenMore, darkenAtOnce.eq_draw rfl]
    exact congrArg (Image.map · image) (funext (Color.darken_darken oneSign sum))
  · intro v image darkened invertedLast inverted darkenedLast notLeast darken thenInvert invert
      thenBrighten
    have negated := toInt_neg_of_ne notLeast
    rw [Makes.eq_map_map rfl rfl darken thenInvert, Makes.eq_map_map rfl rfl invert thenBrighten]
    exact congrArg (Image.map · image) (funext (Color.invert_darken negated))
  · intro operation member image once twice make makeAgain
    rcases List.mem_cons.mp member with rfl | isMask
    · exact Makes.eq_of_absorbs rfl rfl Color.grayscale_grayscale make makeAgain
    · obtain ⟨channel, notAlpha, drawn⟩ := Operation.draw?_mask isMask
      exact Makes.eq_of_absorbs drawn drawn (Color.mask_mask notAlpha) make makeAgain
  · intro operation isMask image masked grey mask thenGrey
    obtain ⟨channel, -, drawn⟩ := Operation.draw?_mask isMask
    exact Makes.eq_of_absorbs drawn rfl (Color.grayscale_mask channel) mask thenGrey
  · rintro image result (⟨v, darken⟩ | grey | invert)
    · exact Makes.sameAlpha (f := Color.darken v) rfl (fun _ => rfl) darken
    · exact Makes.sameAlpha (f := Color.grayscale) rfl (fun _ => rfl) grey
    · exact Makes.sameAlpha (f := Color.invert) rfl (fun _ => rfl) invert

/-- The six pixels are brightened in two steps that end at the least number, darkened beyond black
and inverted, and masked and made grey. -/
theorem shade_laws_sixPixels :
    (∃ once twice direct, Makes .darken [-2147483600] sixPixels once ∧
      Makes .darken [-48] once twice ∧ Makes .darken [-2147483600 + -48] sixPixels direct ∧
      twice = direct) ∧
    (∃ darkened invertedLast inverted darkenedLast, Makes .darken [45] sixPixels darkened ∧
      Makes .invertColor [] darkened invertedLast ∧ Makes .invertColor [] sixPixels inverted ∧
      Makes .darken [-45] inverted darkenedLast ∧ invertedLast = darkenedLast) ∧
    (∃ once twice, Makes .grayscale [] sixPixels once ∧ Makes .grayscale [] once twice ∧
      twice = once) ∧
    (∃ masked grey, Makes .maskBlue [] sixPixels masked ∧ Makes .grayscale [] masked grey ∧
      grey = masked) ∧
    ∃ darkened, Makes .darken [45] sixPixels darkened ∧ darkened.SameAlpha sixPixels := by
  have brighten : Makes .darken [-2147483600] sixPixels _ := makes_redraw hasPixels_sixPixels rfl
  have brightenMore : Makes .darken [-48] _ _ := makes_redraw brighten.hasPixels_result rfl
  have brightenAtOnce : Makes .darken [-2147483600 + -48] sixPixels _ :=
    makes_redraw hasPixels_sixPixels rfl
  have darken : Makes .darken [45] sixPixels _ := makes_redraw hasPixels_sixPixels rfl
  have thenInvert : Makes .invertColor [] _ _ := makes_redraw darken.hasPixels_result rfl
  have invert : Makes .invertColor [] sixPixels _ := makes_redraw hasPixels_sixPixels rfl
  have thenBrighten : Makes .darken [-45] _ _ := makes_redraw invert.hasPixels_result rfl
  have grey : Makes .grayscale [] sixPixels _ := makes_redraw hasPixels_sixPixels rfl
  have greyAgain : Makes .grayscale [] _ _ := makes_redraw grey.hasPixels_result rfl
  have mask : Makes .maskBlue [] sixPixels _ := makes_redraw hasPixels_sixPixels rfl
  have thenGrey : Makes .grayscale [] _ _ := makes_redraw mask.hasPixels_result rfl
  obtain ⟨sums, inverses, idempotent, greyMasks, opacity, -⟩ := shade_laws
  exact ⟨⟨_, _, _, brighten, brightenMore, brightenAtOnce,
      sums _ _ _ _ _ _ (by decide) (by decide) (by decide) brighten brightenMore brightenAtOnce⟩,
    ⟨_, _, _, _, darken, thenInvert, invert, thenBrighten,
      inverses 45 _ _ _ _ _ (by decide) darken thenInvert invert thenBrighten⟩,
    ⟨_, _, grey, greyAgain, idempotent _ (by decide) _ _ _ grey greyAgain⟩,
    ⟨_, _, mask, thenGrey, greyMasks _ (by decide) _ _ _ mask thenGrey⟩,
    ⟨_, darken, opacity _ _ (.inl ⟨_, darken⟩)⟩⟩

end Store

end TextureScript
