import TextureScript.Proofs.Store.Alike
import TextureScript.Proofs.Store.History

/-!
# Why operations are refused

An operation is refused by the first of its checks that fails, and the order of the checks depends
on the operation. A check asks one thing of the store: that a word stands for a handle, that the
handle has an image, that the sides are possible, that there is room for the bytes, or that there is
room for one more image. What an operation makes passes the checks on new images once more when it
is kept; after the checks of the operation only the last one, on the number of images and handles,
can still fail there.
-/

namespace TextureScript

/-- The word for the image that an operation works on, if it takes one. -/
def Operation.imageWord? : Operation → List Int32 → Option Int32
  | .blankImage, _ => none
  | _, args => args.head?

/-- What the operations that keep the size of an image make of it. -/
def Operation.redraw? : Operation → List Int32 → Option (Image → Image)
  | .darken, [value] => some (Image.map (Color.darken value))
  | .grayscale, [] => some (Image.map Color.grayscale)
  | .invertColor, [] => some (Image.map Color.invert)
  | .flipHorizontal, [] => some Image.flipHorizontal
  | .flipVertical, [] => some Image.flipVertical
  | .maskRed, [] => some (Image.map (Color.mask .red))
  | .maskGreen, [] => some (Image.map (Color.mask .green))
  | .maskBlue, [] => some (Image.map (Color.mask .blue))
  | _, _ => none

namespace Store

/-! ## Checks in order -/

/-- What is asked of the store before an operation keeps its image. -/
inductive Check where
  /-- The word for the image stands for a handle. -/
  | named
  /-- The handle has an image. -/
  | live
  /-- The sides of the new image are possible. -/
  | sides
  /-- There is room for the bytes of the new image. -/
  | room
  /-- There is room for one more image, and a handle for it. -/
  | slot
deriving DecidableEq, Repr

/-- The checks that an operation makes before it makes its image, in order. -/
def Check.ofOperation : Operation → List Check
  | .resize => [named, sides, room, live]
  | .blankImage => [sides, room]
  | _ => [named, live, room]

/-- The sides of the image that an operation makes: those that are asked for, or else those of the
image that it works on. -/
def sides? (store : Store) : Operation → List Int32 → Option (Int × Int)
  | .resize, [_, width, height] => some (width.toInt, height.toInt)
  | .blankImage, [_, _, _, _, width, height] => some (width.toInt, height.toInt)
  | operation, args =>
    ((operation.imageWord? args).bind store.imageAt).map fun source =>
      (source.width.toNat, source.height.toNat)

/-- What a check says when it fails. -/
def Check.fault? (store : Store) (operation : Operation) (args : List Int32) :
    Check → Option StoreFault
  | named =>
    (operation.imageWord? args).bind fun word =>
      if (Handle.ofWire? word).isSome then none else some (.unknownHandle ⟨word.toUInt32⟩)
  | live =>
    (operation.imageWord? args).bind fun word =>
      if (store.imageAt word).isSome then none else some (.unknownHandle ⟨word.toUInt32⟩)
  | sides =>
    (store.sides? operation args).bind fun (width, height) =>
      if 1 ≤ width ∧ width ≤ store.config.maxDimension.toNat ∧
          1 ≤ height ∧ height ≤ store.config.maxDimension.toNat then none
      else some (.invalidDimension width height store.config.maxDimension)
  | room =>
    (store.sides? operation args).bind fun (width, height) =>
      if store.totalBytes + 4 * width * height ≤ store.config.maxTotalBytes then none
      else some (.byteLimitExceeded (4 * width * height).toNat store.config.maxTotalBytes)
  | slot =>
    if store.images.length < store.config.maxImages ∧ store.next.number < Handle.unset.number then
      none
    else some (.full store.config.maxImages)

/-- The fault of the first check of an operation that fails; the check on the number of images comes
last. -/
def firstFault? (store : Store) (operation : Operation) (args : List Int32) : Option StoreFault :=
  (Check.ofOperation operation ++ [Check.slot]).findSome? (Check.fault? store operation args)

/-- All that an operation asks of a store is given. -/
structure Grants (store : Store) (operation : Operation) (args : List Int32) : Prop where
  /-- The image that it works on is there. -/
  live : ∀ word, operation.imageWord? args = some word → store.Live word
  /-- The sides of the new image are possible, and there is room for its bytes. -/
  fits : ∃ width height, store.sides? operation args = some (width, height) ∧
    (1 ≤ width ∧ width ≤ store.config.maxDimension.toNat) ∧
    (1 ≤ height ∧ height ≤ store.config.maxDimension.toNat) ∧
    store.totalBytes + 4 * width * height ≤ store.config.maxTotalBytes
  /-- There is room for one more image. -/
  count : store.images.length < store.config.maxImages
  /-- There is a handle for it. -/
  next : store.next.number < Handle.unset.number

/-! ## Making an image and keeping it -/

/-- The image that an operation makes, after the checks of its own. -/
def prepare (store : Store) : Operation → List Int32 → Except StoreFault Image
  | .resize, [image, width, height] => do
    let handle ← handleArgument image
    let (width, height) ← store.config.dimensions width.toInt height.toInt
    store.ensureRoom width height
    let source ← store.get handle
    .ok (source.resize width height)
  | .blankImage, [red, green, blue, alpha, width, height] => do
    let (width, height) ← store.config.dimensions width.toInt height.toInt
    store.ensureRoom width height
    .ok (.filled width height
      ⟨clampByte red.toInt, clampByte green.toInt, clampByte blue.toInt, clampByte alpha.toInt⟩)
  | operation, image :: others =>
    match operation.redraw? others with
    | some redraw => do
      let source ← store.get (← handleArgument image)
      store.ensureRoom source.width source.height
      .ok (redraw source)
    | none => .error (.argumentCount operation (others.length + 1))
  | operation, [] => .error (.argumentCount operation 0)

/-- An operation with as many arguments as it takes makes its image, and then keeps it like any
other image. -/
theorem call_eq_prepare (store : Store) {operation : Operation} {args : List Int32}
    (complete : args.length = operation.arity) :
    store.call operation args = store.prepare operation args >>= store.insert := by
  have derived : ∀ (word : Int32) (redraw : Image → Image),
      (handleArgument word >>= (store.derive · fun image => .ok (redraw image))) =
        (do
          let source ← store.get (← handleArgument word)
          store.ensureRoom source.width source.height
          .ok (redraw source)) >>= store.insert := by
    intro word redraw
    simp only [derive, bind_assoc]
  cases operation with
  | resize =>
    obtain ⟨image, width, height, rfl⟩ := List.length_eq_three.mp complete
    simp only [call, prepare, resize, bind_assoc]
    rfl
  | darken =>
    obtain ⟨image, value, rfl⟩ := List.length_eq_two.mp complete
    exact derived image _
  | blankImage =>
    obtain ⟨red, green, blue, alpha, width, height, rfl⟩ := blankImage_arguments complete
    simp only [call, prepare, blank, bind_assoc]
    rfl
  | _ =>
    obtain ⟨image, rfl⟩ := List.length_eq_one_iff.mp complete
    exact derived image _

/-- An operation with another number of arguments is refused. -/
theorem call_of_incomplete (store : Store) {operation : Operation} {args : List Int32}
    (incomplete : args.length ≠ operation.arity) :
    ∃ fault, store.call operation args = .error fault := by
  unfold call
  split
  case h_11 => exact ⟨_, rfl⟩
  all_goals exact absurd rfl incomplete

/-! ## What comes of the checks -/

/-- What comes of some checks: the fault that is foretold, or else a good value. -/
inductive Yields {α : Type} (Good : α → Prop) :
    Option StoreFault → Except StoreFault α → Prop where
  | refused (fault : StoreFault) : Yields Good (some fault) (.error fault)
  | passed {value : α} (good : Good value) : Yields Good none (.ok value)

/-- Checks that follow others have their say once the others have passed. -/
theorem Yields.bind {α β : Type} {Good : α → Prop} {Fine : β → Prop}
    {fault? later? : Option StoreFault} {first : Except StoreFault α}
    {next : α → Except StoreFault β} (before : Yields Good fault? first)
    (after : ∀ value, Good value → Yields Fine later? (next value)) :
    Yields Fine (fault?.or later?) (first >>= next) := by
  cases before with
  | refused fault => exact .refused fault
  | passed good => exact after _ good

theorem Yields.mono {α : Type} {Good Fine : α → Prop} {fault? : Option StoreFault}
    {outcome : Except StoreFault α} (yields : Yields Good fault? outcome)
    (weaker : ∀ value, Good value → Fine value) : Yields Fine fault? outcome := by
  cases yields with
  | refused fault => exact .refused fault
  | passed good => exact .passed (weaker _ good)

/-- A condition that is checked. -/
theorem Yields.ite {α : Type} {Good : α → Prop} {condition : Prop} [Decidable condition]
    {value : α} (fault : StoreFault) (good : condition → Good value) :
    Yields Good (if condition then none else some fault)
      (if condition then .ok value else .error fault) := by
  by_cases holds : condition
  · rw [if_pos holds, if_pos holds]
    exact .passed (good holds)
  · rw [if_neg holds, if_neg holds]
    exact .refused fault

variable {store : Store} {operation : Operation} {args : List Int32}

theorem yields_named {word : Int32} (taken : operation.imageWord? args = some word) :
    Yields (Handle.ofWire? word = some ·) (Check.named.fault? store operation args)
      (handleArgument word) := by
  simp only [Check.fault?, taken, Option.bind_some, handleArgument]
  cases named : Handle.ofWire? word with
  | none => exact .refused _
  | some handle => exact .passed rfl

theorem yields_live {word : Int32} {handle : Handle} (taken : operation.imageWord? args = some word)
    (named : Handle.ofWire? word = some handle) :
    Yields (store.image? handle = some ·) (Check.live.fault? store operation args)
      (store.get handle) := by
  have number : handle = ⟨word.toUInt32⟩ := by
    unfold Handle.ofWire? at named
    split at named
    · simp at named
    · simpa using named.symm
  simp only [Check.fault?, taken, Option.bind_some, imageAt, named, get]
  cases store.image? handle with
  | none => exact number ▸ .refused _
  | some source => exact .passed rfl

/-- Sides pass when they are possible, and are the same then as words without a sign. -/
theorem yields_sides {width height : Int}
    (shaped : store.sides? operation args = some (width, height)) :
    Yields
      (fun sides : UInt32 × UInt32 => store.config.AllowsSide sides.1 ∧
        store.config.AllowsSide sides.2 ∧
        (sides.1.toNat : Int) = width ∧ (sides.2.toNat : Int) = height)
      (Check.sides.fault? store operation args) (store.config.dimensions width height) := by
  simp only [Check.fault?, shaped, Option.bind_some]
  exact .ite _ fun possible => StoreConfig.dimensions_eq_ok (if_pos possible)

theorem byteCount_eq (width height : UInt32) :
    (Image.byteCount width height : Int) = 4 * width.toNat * height.toNat := by
  simp only [Image.byteCount, Image.pixelSize, Int.natCast_mul]
  rw [Int.mul_comm, Int.mul_assoc]
  rfl

theorem yields_room {width height : UInt32}
    (shaped : store.sides? operation args = some ((width.toNat : Int), (height.toNat : Int))) :
    Yields
      (fun _ : Unit =>
        store.totalBytes + Image.byteCount width height ≤ store.config.maxTotalBytes)
      (Check.room.fault? store operation args) (store.ensureRoom width height) := by
  have counted := byteCount_eq width height
  have requested : (4 * width.toNat * height.toNat : Int).toNat = Image.byteCount width height := by
    omega
  have same : (store.totalBytes : Int) + 4 * width.toNat * height.toNat ≤
      store.config.maxTotalBytes ↔
        store.totalBytes - 0 + Image.byteCount width height ≤ store.config.maxTotalBytes := by
    omega
  simp only [Check.fault?, shaped, Option.bind_some, same, requested]
  exact .ite _ id

/-- An image that is ready to be kept: it has the sides that were checked, the store admits it, and
there is room for its bytes. -/
structure Ready (store : Store) (operation : Operation) (args : List Int32) (image : Image) :
    Prop where
  shaped : store.sides? operation args =
    some ((image.width.toNat : Int), (image.height.toNat : Int))
  admitted : store.Admits image
  room : store.totalBytes + image.pixels.size ≤ store.config.maxTotalBytes

/-- An image that is made of a function of its coordinates is ready when its sides are possible and
there is room for the bytes that they call for. -/
theorem Ready.ofColors {width height : UInt32}
    (shaped : store.sides? operation args = some ((width.toNat : Int), (height.toNat : Int)))
    (allowedWidth : store.config.AllowsSide width) (allowedHeight : store.config.AllowsSide height)
    (room : store.totalBytes + Image.byteCount width height ≤ store.config.maxTotalBytes)
    (color : Nat → Nat → Color) :
    store.Ready operation args (Image.ofColors width height color) := by
  have formed := Image.isWellFormed_ofColors width height color
  refine ⟨shaped, ⟨allowedWidth, allowedHeight, formed⟩, ?_⟩
  rw [formed]
  exact room

/-- The fault of the first check that fails, one check at a time. -/
theorem findFault_cons (check : Check) (checks : List Check) :
    (check :: checks).findSome? (Check.fault? store operation args) =
      (check.fault? store operation args).or
        (checks.findSome? (Check.fault? store operation args)) := by
  rw [List.findSome?_cons]
  cases check.fault? store operation args <;> rfl

theorem yields_resize (image width height : Int32) :
    Yields (store.Ready .resize [image, width, height])
      ((Check.ofOperation .resize).findSome? (Check.fault? store .resize [image, width, height]))
      (store.prepare .resize [image, width, height]) := by
  simp only [Check.ofOperation, findFault_cons]
  refine (yields_named rfl).bind fun handle named => ?_
  refine (yields_sides rfl).bind fun sides checked => ?_
  obtain ⟨allowedWidth, allowedHeight, sameWidth, sameHeight⟩ := checked
  have shaped : store.sides? .resize [image, width, height] =
      some ((sides.1.toNat : Int), (sides.2.toNat : Int)) := by
    rw [sameWidth, sameHeight]
    rfl
  refine (yields_room shaped).bind fun _ room => ?_
  refine (yields_live rfl named).bind fun source _ => ?_
  exact .passed (.ofColors shaped allowedWidth allowedHeight room _)

theorem yields_blank (red green blue alpha width height : Int32) :
    Yields (store.Ready .blankImage [red, green, blue, alpha, width, height])
      ((Check.ofOperation .blankImage).findSome?
        (Check.fault? store .blankImage [red, green, blue, alpha, width, height]))
      (store.prepare .blankImage [red, green, blue, alpha, width, height]) := by
  simp only [Check.ofOperation, findFault_cons]
  refine (yields_sides rfl).bind fun sides checked => ?_
  obtain ⟨allowedWidth, allowedHeight, sameWidth, sameHeight⟩ := checked
  have shaped : store.sides? .blankImage [red, green, blue, alpha, width, height] =
      some ((sides.1.toNat : Int), (sides.2.toNat : Int)) := by
    rw [sameWidth, sameHeight]
    rfl
  refine (yields_room shaped).bind fun _ room => ?_
  exact .passed (.ofColors shaped allowedWidth allowedHeight room _)

/-- The operations that keep the size of an image: the sides of an image of the store are possible,
so they need no check. -/
theorem Invariant.yields_redraw (invariant : store.Invariant) {word : Int32}
    (taken : operation.imageWord? args = some word)
    (shaped : store.sides? operation args =
      (store.imageAt word).map fun source =>
        ((source.width.toNat : Int), (source.height.toNat : Int)))
    (color : Image → Nat → Nat → Color) :
    Yields (store.Ready operation args)
      ([Check.named, Check.live, Check.room].findSome? (Check.fault? store operation args))
      (do
        let source ← store.get (← handleArgument word)
        store.ensureRoom source.width source.height
        .ok (Image.ofColors source.width source.height (color source))) := by
  simp only [findFault_cons]
  refine (yields_named taken).bind fun handle named => ?_
  refine (yields_live taken named).bind fun source found => ?_
  have admitted := invariant.admitted _ (mem_images_of_image? found)
  rw [imageAt_eq_some.mpr ⟨handle, named, found⟩, Option.map_some] at shaped
  refine (yields_room shaped).bind fun _ room => ?_
  exact .passed (.ofColors shaped admitted.width admitted.height room _)

theorem Invariant.yields_prepare (invariant : store.Invariant)
    (complete : args.length = operation.arity) :
    Yields (store.Ready operation args)
      ((Check.ofOperation operation).findSome? (Check.fault? store operation args))
      (store.prepare operation args) := by
  cases operation with
  | resize =>
    obtain ⟨image, width, height, rfl⟩ := List.length_eq_three.mp complete
    exact yields_resize image width height
  | darken =>
    obtain ⟨image, value, rfl⟩ := List.length_eq_two.mp complete
    exact invariant.yields_redraw rfl rfl fun source x y => Color.darken value (source.color x y)
  | blankImage =>
    obtain ⟨red, green, blue, alpha, width, height, rfl⟩ := blankImage_arguments complete
    exact yields_blank red green blue alpha width height
  | _ =>
    obtain ⟨image, rfl⟩ := List.length_eq_one_iff.mp complete
    exact invariant.yields_redraw rfl rfl _

/-! ## Keeping the image -/

/-- The checks on new images that an image passes again when it is kept. -/
theorem Ready.rechecked {image : Image} (ready : store.Ready operation args image) :
    (∃ sides, store.config.dimensions image.width.toNat image.height.toNat = .ok sides) ∧
      Image.ofBytes image.width image.height image.pixels = .ok image ∧
      store.checkBytes image.pixels.size 0 = .ok () :=
  ⟨StoreConfig.dimensions_sides.mpr ⟨ready.admitted.width, ready.admitted.height⟩,
    Image.ofBytes_eq_ok.mpr ⟨rfl, ready.admitted.formed⟩, checkBytes_eq_ok.mpr ready.room⟩

theorem Invariant.next_lt_iff (invariant : store.Invariant) :
    store.next.number < Handle.unset.number ↔ store.next ≠ Handle.unset := by
  constructor
  · intro below same
    rw [same] at below
    exact UInt32.lt_irrefl _ below
  · intro free
    obtain ⟨larger, possible⟩ := next_number_lt invariant free
    exact UInt32.lt_of_lt_of_le larger possible

theorem Invariant.yields_insert (invariant : store.Invariant) {image : Image}
    (ready : store.Ready operation args image) :
    Yields (· = (store.next, store.keepNew image)) (Check.slot.fault? store operation args)
      (store.insert image) := by
  obtain ⟨⟨sides, checked⟩, made, room⟩ := ready.rechecked
  have full : (store.config.maxImages ≤ store.images.length ∨ store.next.isUnset = true) ↔
      ¬(store.images.length < store.config.maxImages ∧
        store.next.number < Handle.unset.number) := by
    rw [invariant.next_lt_iff, Handle.isUnset, beq_iff_eq, not_and_or, Nat.not_lt, not_not]
  simp only [Store.insert, checked, made, room, Check.fault?, full, ite_not]
  exact .ite _ fun _ => rfl

/-- An operation gives the fault of the first of its checks that fails, or keeps an image that is
ready. -/
theorem Invariant.yields_call (invariant : store.Invariant)
    (complete : args.length = operation.arity) :
    Yields (fun made => ∃ image, store.Ready operation args image ∧
        made = (store.next, store.keepNew image))
      (store.firstFault? operation args) (store.call operation args) := by
  have last : store.firstFault? operation args =
      ((Check.ofOperation operation).findSome? (Check.fault? store operation args)).or
        (Check.slot.fault? store operation args) := by
    rw [firstFault?, List.findSome?_append, findFault_cons, List.findSome?_nil, Option.or_none]
  rw [last, call_eq_prepare store complete]
  refine (invariant.yields_prepare complete).bind fun image ready => ?_
  exact (invariant.yields_insert ready).mono fun made same => ⟨image, ready, same⟩

/-! ## The exact conditions -/

theorem Yields.error_iff {α : Type} {Good : α → Prop} {fault? : Option StoreFault}
    {outcome : Except StoreFault α} (yields : Yields Good fault? outcome) (fault : StoreFault) :
    outcome = .error fault ↔ fault? = some fault := by
  cases yields <;> simp

theorem Yields.ok_iff {α : Type} {Good : α → Prop} {fault? : Option StoreFault}
    {outcome : Except StoreFault α} (yields : Yields Good fault? outcome) :
    (∃ value, outcome = .ok value) ↔ fault? = none := by
  cases yields <;> simp

theorem Yields.exists_good {α : Type} {Good : α → Prop} {outcome : Except StoreFault α}
    (yields : Yields Good none outcome) : ∃ value, Good value := by
  cases yields with
  | passed good => exact ⟨_, good⟩

theorem Yields.good_of_ok {α : Type} {Good : α → Prop} {fault? : Option StoreFault}
    {outcome : Except StoreFault α} {value : α} (yields : Yields Good fault? outcome)
    (passed : outcome = .ok value) : Good value := by
  cases yields with
  | refused fault => simp at passed
  | passed good => exact Except.ok.inj passed ▸ good

/-- When all that an operation asks is given, no check fails, whether the operation makes it or
not. -/
theorem Grants.fault?_eq_none (grants : store.Grants operation args) (check : Check) :
    check.fault? store operation args = none := by
  obtain ⟨width, height, shaped, widthBounds, heightBounds, room⟩ := grants.fits
  cases check with
  | named =>
    refine Option.bind_eq_none_iff.mpr fun word taken => if_pos ?_
    obtain ⟨handle, image, named, -⟩ := grants.live word taken
    exact Option.isSome_of_eq_some named
  | live =>
    refine Option.bind_eq_none_iff.mpr fun word taken => if_pos ?_
    obtain ⟨handle, image, named, found⟩ := grants.live word taken
    exact Option.isSome_of_eq_some (imageAt_eq_some.mpr ⟨handle, named, found⟩)
  | sides =>
    rw [Check.fault?, shaped]
    exact if_pos ⟨widthBounds.1, widthBounds.2, heightBounds⟩
  | room =>
    rw [Check.fault?, shaped]
    exact if_pos room
  | slot => exact if_pos ⟨grants.count, grants.next⟩

/-- Every operation that takes an image checks that the image is there. -/
theorem live_mem_ofOperation {word : Int32} (taken : operation.imageWord? args = some word) :
    Check.live ∈ Check.ofOperation operation := by
  cases operation with
  | blankImage => simp [Operation.imageWord?] at taken
  | _ => decide

/-- No check fails exactly when all that the operation asks is given. -/
theorem Invariant.firstFault?_eq_none_iff (invariant : store.Invariant)
    (complete : args.length = operation.arity) :
    store.firstFault? operation args = none ↔ store.Grants operation args := by
  constructor
  · intro passes
    have pass : ∀ check ∈ Check.ofOperation operation ++ [Check.slot],
        check.fault? store operation args = none := List.findSome?_eq_none_iff.mp passes
    have yields := invariant.yields_call complete
    rw [passes] at yields
    obtain ⟨made, image, ready, -⟩ := yields.exists_good
    have slot := pass .slot (List.mem_append_right _ List.mem_cons_self)
    simp only [Check.fault?, ite_eq_left_iff, reduceCtorEq, imp_false, not_not] at slot
    refine ⟨?_, ⟨_, _, ready.shaped, ?_⟩, slot.1, slot.2⟩
    · intro word taken
      have live := pass .live (List.mem_append_left _ (live_mem_ofOperation taken))
      simp only [Check.fault?, taken, Option.bind_some, ite_eq_left_iff, reduceCtorEq, imp_false,
        not_not] at live
      obtain ⟨source, found⟩ := Option.isSome_iff_exists.mp live
      obtain ⟨handle, named, there⟩ := imageAt_eq_some.mp found
      exact ⟨handle, source, named, there⟩
    · have counted := byteCount_eq image.width image.height
      have room := ready.room
      rw [ready.admitted.formed] at room
      obtain ⟨widthMin, widthMax⟩ := ready.admitted.width
      obtain ⟨heightMin, heightMax⟩ := ready.admitted.height
      omega
  · intro grants
    exact List.findSome?_eq_none_iff.mpr fun check _ => grants.fault?_eq_none check

end Store

end TextureScript
