import TextureScript.Proofs.Image.Sampling
import TextureScript.Proofs.Store.Refusals

/-!
# What operations make of images

An operation that succeeds keeps the image that it makes of its source. What it makes depends on the
source and on its numbers alone, and not on the store that it is called on; and whatever it would
make of an image, it does make on a store with room. So laws of images are laws of operations.
-/

namespace TextureScript

namespace Operation

/-- The operations that replace each colour by one that depends on it alone. -/
def pointwise : List Operation :=
  [darken, grayscale, invertColor, maskRed, maskGreen, maskBlue]

/-- The operations that take each pixel from a place of their source. -/
def geometric : List Operation :=
  [flipHorizontal, flipVertical, resize]

/-- The side of an image that a number asks for; a negative number asks for none. -/
def side (number : Int32) : UInt32 :=
  UInt32.ofNat number.toInt.toNat

theorem toNat_side (number : Int32) : (side number).toNat = number.toInt.toNat := by
  have bound := number.toInt_lt
  apply UInt32.toNat_ofNat_of_lt'
  simp only [UInt32.size]
  omega

/-- A number that is the length of a side asks for that side. -/
theorem side_eq {number : Int32} {length : UInt32} (asked : number.toInt = length.toNat) :
    side number = length := by
  apply UInt32.toNat_inj.mp
  rw [toNat_side, asked, Int.toNat_natCast]

variable {operation : Operation} {numbers : List Int32}

/-- What can be redrawn with its own sides: an image is flipped, or its colours are replaced. -/
theorem redraw?_cases {redraw : Image → Image}
    (redrawn : operation.redraw? numbers = some redraw) :
    (operation = .flipHorizontal ∧ numbers = [] ∧ redraw = Image.flipHorizontal) ∨
    (operation = .flipVertical ∧ numbers = [] ∧ redraw = Image.flipVertical) ∨
    (operation ∈ pointwise ∧ numbers.length + 1 = operation.arity ∧
      ∃ f, redraw = Image.map f) := by
  rcases numbers with _ | ⟨value, _ | ⟨next, rest⟩⟩
  · cases operation with
    | flipHorizontal => exact .inl ⟨rfl, rfl, (Option.some.inj redrawn).symm⟩
    | flipVertical => exact .inr (.inl ⟨rfl, rfl, (Option.some.inj redrawn).symm⟩)
    | resize | darken | blankImage => cases redrawn
    | _ => exact .inr (.inr ⟨by decide, rfl, _, (Option.some.inj redrawn).symm⟩)
  · cases operation with
    | darken => exact .inr (.inr ⟨by decide, rfl, _, (Option.some.inj redrawn).symm⟩)
    | _ => cases redrawn
  · cases operation with
    | _ => cases redrawn

/-- An image that is redrawn has the sides of its source, and pixels if that has any. -/
theorem hasPixels_redraw {redraw : Image → Image}
    (redrawn : operation.redraw? numbers = some redraw) {source : Image}
    (pixels : source.HasPixels) : (redraw source).HasPixels := by
  obtain ⟨-, -, rfl⟩ | ⟨-, -, rfl⟩ | ⟨-, -, f, rfl⟩ := redraw?_cases redrawn
  all_goals exact Image.hasPixels_ofColors pixels.wide pixels.tall _

/-- What an operation with the given numbers makes of an image. -/
def draw? : Operation → List Int32 → Option (Image → Image)
  | .resize, [width, height] => some fun image => image.resize (side width) (side height)
  | operation, numbers => operation.redraw? numbers

theorem draw?_of_redraw? {redraw : Image → Image}
    (redrawn : operation.redraw? numbers = some redraw) :
    operation.draw? numbers = some redraw := by
  unfold draw?
  split
  · cases redrawn
  · exact redrawn

theorem draw?_cases {draw : Image → Image} (drawn : operation.draw? numbers = some draw) :
    (∃ width height, operation = .resize ∧ numbers = [width, height] ∧
      draw = fun image => image.resize (side width) (side height)) ∨
    operation.redraw? numbers = some draw := by
  unfold draw? at drawn
  split at drawn
  · exact .inl ⟨_, _, rfl, rfl, (Option.some.inj drawn).symm⟩
  · exact .inr drawn

/-- The first word of an operation that redraws images stands for its source. -/
theorem imageWord?_of_pointwise (member : operation ∈ pointwise) (word : Int32) :
    operation.imageWord? (word :: numbers) = some word := by
  cases operation with
  | blankImage => exact absurd member (by decide)
  | _ => rfl

/-- The numbers of an operation come after the word for its source, and there are as many as it
takes. -/
theorem draw?_complete {draw : Image → Image} (drawn : operation.draw? numbers = some draw)
    (word : Int32) :
    operation.imageWord? (word :: numbers) = some word ∧
      (word :: numbers).length = operation.arity := by
  obtain ⟨width, height, rfl, rfl, -⟩ | redrawn := draw?_cases drawn
  · exact ⟨rfl, rfl⟩
  · obtain ⟨rfl, rfl, -⟩ | ⟨rfl, rfl, -⟩ | ⟨member, complete, -⟩ := redraw?_cases redrawn
    · exact ⟨rfl, rfl⟩
    · exact ⟨rfl, rfl⟩
    · exact ⟨imageWord?_of_pointwise member word, complete⟩

/-- An operation that is pointwise replaces colours. -/
theorem draw?_pointwise (member : operation ∈ pointwise) {draw : Image → Image}
    (drawn : operation.draw? numbers = some draw) : ∃ f, draw = Image.map f := by
  obtain ⟨width, height, rfl, -, -⟩ | redrawn := draw?_cases drawn
  · exact absurd member (by decide)
  · obtain ⟨rfl, -, -⟩ | ⟨rfl, -, -⟩ | ⟨-, -, replaces⟩ := redraw?_cases redrawn
    · exact absurd member (by decide)
    · exact absurd member (by decide)
    · exact replaces

/-- An operation that is geometric is a sampling, which keeps to its source if that has pixels. -/
theorem draw?_geometric (member : operation ∈ geometric) {draw : Image → Image}
    (drawn : operation.draw? numbers = some draw) :
    ∃ sampling : UInt32 → UInt32 → Sampling,
      (∀ image, draw image = image.sample (sampling image.width image.height)) ∧
      ∀ width height, 0 < width.toNat → 0 < height.toNat →
        (sampling width height).Within width height := by
  have apart : ∀ other ∈ pointwise, other ∉ geometric := by decide
  obtain ⟨width, height, -, -, rfl⟩ | redrawn := draw?_cases drawn
  · exact ⟨fun width height => .resize width height _ _, fun image => image.resize_eq_sample _ _,
      fun _ _ wide tall => Sampling.within_resize wide tall _ _⟩
  · obtain ⟨-, -, rfl⟩ | ⟨-, -, rfl⟩ | ⟨replaces, -⟩ := redraw?_cases redrawn
    · exact ⟨.flipHorizontal, Image.flipHorizontal_eq_sample,
        fun width height _ _ => Sampling.within_flipHorizontal width height⟩
    · exact ⟨.flipVertical, Image.flipVertical_eq_sample,
        fun width height _ _ => Sampling.within_flipVertical width height⟩
    · exact absurd member (apart operation replaces)

end Operation

namespace Store

/-! ## What a call keeps -/

variable {store after : Store} {operation : Operation} {word : Int32} {numbers : List Int32}
  {made : Handle}

theorem imageAt_of_get {handle : Handle} {source : Image}
    (named : handleArgument word = .ok handle) (found : store.get handle = .ok source) :
    store.imageAt word = some source := by
  apply imageAt_eq_some.mpr
  refine ⟨handle, ?_, ?_⟩
  · unfold handleArgument at named
    split at named
    · rename_i stands
      cases named
      exact stands
    · cases named
  · unfold get at found
    split at found
    · rename_i there
      cases found
      exact there
    · cases found

theorem dimensions_eq_side {config : StoreConfig} {width height : Int32} {sides : UInt32 × UInt32}
    (checked : config.dimensions width.toInt height.toInt = .ok sides) :
    sides = (Operation.side width, Operation.side height) := by
  unfold StoreConfig.dimensions at checked
  simp only at checked
  split at checked
  · exact (Except.ok.inj checked).symm
  · cases checked

theorem prepare_draws {image : Image} (works : operation.imageWord? (word :: numbers) = some word)
    (prepared : store.prepare operation (word :: numbers) = .ok image) :
    ∃ source draw, store.imageAt word = some source ∧ operation.draw? numbers = some draw ∧
      image = draw source := by
  generalize given : word :: numbers = args at works prepared
  unfold prepare at prepared
  split at prepared
  · cases given
    simp only [except_bind_ok] at prepared
    obtain ⟨handle, named, sides, checked, -, -, source, found, drawn⟩ := prepared
    cases dimensions_eq_side checked
    exact ⟨source, _, imageAt_of_get named found, rfl, (Except.ok.inj drawn).symm⟩
  · cases works
  · cases given
    split at prepared
    · rename_i redraw redrawn
      simp only [except_bind_ok] at prepared
      obtain ⟨handle, named, source, found, -, -, drawn⟩ := prepared
      exact ⟨source, redraw, imageAt_of_get named found, Operation.draw?_of_redraw? redrawn,
        (Except.ok.inj drawn).symm⟩
    · cases prepared
  · cases given

/-- An image that a store may keep has pixels. -/
theorem Admits.hasPixels {image : Image} (admitted : store.Admits image) : image.HasPixels :=
  ⟨admitted.formed, admitted.width.1, admitted.height.1⟩

/-- A call that succeeds keeps what the operation makes of its source. -/
theorem call_draws (works : operation.imageWord? (word :: numbers) = some word)
    (called : store.call operation (word :: numbers) = .ok (made, after)) :
    ∃ source draw, store.imageAt word = some source ∧ operation.draw? numbers = some draw ∧
      store.Admits (draw source) ∧ after.image? made = some (draw source) := by
  have complete : (word :: numbers).length = operation.arity := by
    by_contra incomplete
    obtain ⟨fault, failed⟩ := store.call_of_incomplete incomplete
    rw [failed] at called
    cases called
  rw [call_eq_prepare store complete, except_bind_ok] at called
  obtain ⟨image, prepared, inserted⟩ := called
  obtain ⟨source, draw, held, drawn, rfl⟩ := prepare_draws works prepared
  obtain ⟨admitted, -, -, -, rfl, rfl⟩ := insert_eq_ok.mp inserted
  exact ⟨source, draw, held, drawn, admitted, List.lookup_cons_self⟩

/-! ## Images made of images -/

/-- An operation with some numbers makes one image of another: on some reachable store that holds
the one, a call keeps the other. -/
inductive Makes (operation : Operation) (numbers : List Int32) (source result : Image) : Prop where
  | call {store after : Store} {word : Int32} {made : Handle} (reachable : store.Reachable)
      (works : operation.imageWord? (word :: numbers) = some word)
      (held : store.imageAt word = some source)
      (called : store.call operation (word :: numbers) = .ok (made, after))
      (kept : after.image? made = some result) : Makes operation numbers source result

/-- An operation that redraws its source checks the sides of the source. -/
theorem sides?_of_redraw? {source : Image} {redraw : Image → Image}
    (redrawn : operation.redraw? numbers = some redraw) (held : store.imageAt word = some source) :
    store.sides? operation (word :: numbers) =
      some ((source.width.toNat : Int), (source.height.toNat : Int)) := by
  have works := (Operation.draw?_complete (Operation.draw?_of_redraw? redrawn) word).1
  cases operation with
  | resize | blankImage => cases redrawn
  | _ => simp only [sides?, works, Option.bind_some, held, Option.map_some]

/-- The sides of what an operation draws are the sides that it checks. -/
theorem sides?_of_draw? {source : Image} {draw : Image → Image}
    (held : store.imageAt word = some source) (drawn : operation.draw? numbers = some draw)
    (pixels : (draw source).HasPixels) :
    store.sides? operation (word :: numbers) =
      some (((draw source).width.toNat : Int), ((draw source).height.toNat : Int)) := by
  obtain ⟨width, height, rfl, rfl, rfl⟩ | redrawn := Operation.draw?_cases drawn
  · have sameWidth := Operation.toNat_side width
    have sameHeight := Operation.toNat_side height
    have someWidth : 0 < (Operation.side width).toNat := pixels.wide
    have someHeight : 0 < (Operation.side height).toNat := pixels.tall
    show some (width.toInt, height.toInt) =
      some (((Operation.side width).toNat : Int), ((Operation.side height).toNat : Int))
    rw [sameWidth, sameHeight]
    congr 2 <;> omega
  · rw [sides?_of_redraw? redrawn held]
    obtain ⟨-, -, rfl⟩ | ⟨-, -, rfl⟩ | ⟨-, -, f, rfl⟩ := Operation.redraw?_cases redrawn
    all_goals rfl

/-- Limits that leave room for two images of any size. -/
def roomy : StoreConfig where
  maxDimension := 4294967295
  maxImages := 2
  maxTotalBytes := 1180591620717411303424

theorem allowsSide_roomy {side : UInt32} (positive : 0 < side.toNat) : roomy.AllowsSide side := by
  have bound := side.toNat_lt
  have limit : roomy.maxDimension.toNat = 4294967295 := rfl
  exact ⟨positive, by omega⟩

theorem byteCount_le_roomy (width height : UInt32) :
    2 * Image.byteCount width height ≤ roomy.maxTotalBytes := by
  have wide : width.toNat ≤ 4294967295 := Nat.le_of_lt_succ width.toNat_lt
  have tall : height.toNat ≤ 4294967295 := Nat.le_of_lt_succ height.toNat_lt
  calc 2 * Image.byteCount width height
      ≤ 2 * (4294967295 * 4294967295 * 4) :=
        Nat.mul_le_mul_left _ (Nat.mul_le_mul_right _ (Nat.mul_le_mul wide tall))
    _ ≤ roomy.maxTotalBytes := by decide

/-- An image with pixels is kept by a store with room. -/
theorem insert_roomy {image : Image} (pixels : image.HasPixels) :
    insert { config := roomy } image = .ok (⟨0⟩, keepNew { config := roomy } image) := by
  have enough := byteCount_le_roomy image.width image.height
  have room : 0 + image.pixels.size ≤ roomy.maxTotalBytes := by
    rw [pixels.formed]
    omega
  exact insert_eq_ok.mpr ⟨⟨allowsSide_roomy pixels.wide, allowsSide_roomy pixels.tall,
    pixels.formed⟩, room, by decide, by decide, rfl, rfl⟩

/-- What an operation draws of an image is what a call makes of it, on a store with room. -/
theorem makes_draw {source : Image} {draw : Image → Image} (pixels : source.HasPixels)
    (drawn : operation.draw? numbers = some draw) (pixels' : (draw source).HasPixels) :
    Makes operation numbers source (draw source) := by
  let store : Store := keepNew { config := roomy } source
  have reachable : store.Reachable := by
    refine ⟨roomy, [.insert source], ?_⟩
    show store = settle { config := roomy } (insert { config := roomy } source)
    rw [insert_roomy pixels]
    rfl
  have held : store.imageAt 0 = some source := rfl
  obtain ⟨works, complete⟩ := Operation.draw?_complete drawn 0
  have live : ∀ word, operation.imageWord? (0 :: numbers) = some word → store.Live word := by
    intro word taken
    cases works.symm.trans taken
    exact ⟨⟨0⟩, source, rfl, rfl⟩
  have grants : store.Grants operation (0 :: numbers) := by
    refine ⟨live, ⟨_, _, sides?_of_draw? held drawn pixels', ?_⟩, Nat.one_lt_two,
      show (0 + 1 : UInt32) < 2147483647 by decide⟩
    obtain ⟨widthMin, widthMax⟩ := allowsSide_roomy pixels'.wide
    obtain ⟨heightMin, heightMax⟩ := allowsSide_roomy pixels'.tall
    have enough := byteCount_le_roomy source.width source.height
    have enough' := byteCount_le_roomy (draw source).width (draw source).height
    have limits : store.config = roomy := rfl
    have bytes : store.totalBytes = 0 + source.pixels.size := rfl
    rw [pixels.formed] at bytes
    rw [limits, bytes, ← byteCount_eq]
    omega
  have passes := (reachable.invariant.firstFault?_eq_none_iff complete).mpr grants
  obtain ⟨⟨made, after⟩, called⟩ := (reachable.invariant.yields_call complete).ok_iff.mpr passes
  obtain ⟨_, _, found, drawn', -, kept⟩ := call_draws works called
  cases held.symm.trans found
  cases drawn.symm.trans drawn'
  exact .call reachable works held called kept

/-- Every image with pixels can be redrawn with its own sides. -/
theorem makes_redraw {source : Image} {redraw : Image → Image} (pixels : source.HasPixels)
    (redrawn : operation.redraw? numbers = some redraw) :
    Makes operation numbers source (redraw source) :=
  makes_draw pixels (Operation.draw?_of_redraw? redrawn) (Operation.hasPixels_redraw redrawn pixels)

/-- Every image with pixels can be resized to any sides that are not zero. -/
theorem makes_resize {source : Image} {width height : Int32} (pixels : source.HasPixels)
    (wide : 0 < width.toInt) (tall : 0 < height.toInt) :
    Makes .resize [width, height] source
      (source.resize (Operation.side width) (Operation.side height)) := by
  have someWidth : 0 < (Operation.side width).toNat := by
    rw [Operation.toNat_side]
    omega
  have someHeight : 0 < (Operation.side height).toNat := by
    rw [Operation.toNat_side]
    omega
  have drawn : Operation.resize.draw? [width, height] =
      some fun image => image.resize (Operation.side width) (Operation.side height) := rfl
  exact makes_draw pixels drawn (Image.hasPixels_ofColors someWidth someHeight _)

/-- What calls make of images, on whatever stores, is what the operations draw, as long as there are
pixels. -/
theorem makes_iff {source result : Image} :
    Makes operation numbers source result ↔
      source.HasPixels ∧ result.HasPixels ∧
        ∃ draw, operation.draw? numbers = some draw ∧ result = draw source := by
  constructor
  · rintro ⟨reachable, works, held, called, kept⟩
    obtain ⟨handle, -, there⟩ := imageAt_eq_some.mp held
    have admitted := reachable.invariant.admitted _ (mem_images_of_image? there)
    obtain ⟨_, draw, found, drawn, admitted', kept'⟩ := call_draws works called
    cases held.symm.trans found
    cases kept.symm.trans kept'
    exact ⟨admitted.hasPixels, admitted'.hasPixels, draw, drawn, rfl⟩
  · rintro ⟨pixels, pixels', draw, drawn, rfl⟩
    exact makes_draw pixels drawn pixels'

namespace Makes

variable {source result : Image}

theorem hasPixels (makes : Makes operation numbers source result) : source.HasPixels :=
  (makes_iff.mp makes).1

theorem hasPixels_result (makes : Makes operation numbers source result) : result.HasPixels :=
  (makes_iff.mp makes).2.1

theorem eq_draw {draw : Image → Image} (makes : Makes operation numbers source result)
    (drawn : operation.draw? numbers = some draw) : result = draw source := by
  obtain ⟨-, -, draw', drawn', same⟩ := makes_iff.mp makes
  cases drawn.symm.trans drawn'
  exact same

end Makes

end Store

end TextureScript
