import TextureScript.Store.Operations

/-!
# What the operations of a store do

Everything that changes a store comes down to few changes of its fields: a new image under the next
handle, another image under the handle of an input, fewer images, other names. Each of them is
described once, with what it takes to be granted. Every operation of the catalogue does no more than
keep one new image.
-/

namespace TextureScript

/-- A chain of two checks succeeds when both do. -/
theorem except_bind_ok {ε α β : Type} {first : Except ε α} {next : α → Except ε β} {value : β} :
    (first >>= next) = .ok value ↔ ∃ found, first = .ok found ∧ next found = .ok value := by
  cases first with
  | error fault => simp [bind, Except.bind]
  | ok found => simp [bind, Except.bind]

/-- A side of an image is possible when it is at least one and at most the limit. -/
def StoreConfig.AllowsSide (config : StoreConfig) (side : UInt32) : Prop :=
  1 ≤ side.toNat ∧ side.toNat ≤ config.maxDimension.toNat

/-- The sides that pass the check are the given ones, both of them within the limits. -/
theorem StoreConfig.dimensions_eq_ok {config : StoreConfig} {width height : Int}
    {sides : UInt32 × UInt32} (checked : config.dimensions width height = .ok sides) :
    config.AllowsSide sides.1 ∧ config.AllowsSide sides.2 ∧
      (sides.1.toNat : Int) = width ∧ (sides.2.toNat : Int) = height := by
  unfold StoreConfig.dimensions at checked
  simp only at checked
  split at checked
  · rename_i bounds
    obtain ⟨widthPositive, widthBound, heightPositive, heightBound⟩ := bounds
    have limit := config.maxDimension.toNat_lt
    simp only [Except.ok.injEq] at checked
    subst checked
    have sameWidth : (UInt32.ofNat width.toNat).toNat = width.toNat :=
      UInt32.toNat_ofNat_of_lt' (by simp only [UInt32.size]; omega)
    have sameHeight : (UInt32.ofNat height.toNat).toNat = height.toNat :=
      UInt32.toNat_ofNat_of_lt' (by simp only [UInt32.size]; omega)
    simp only [StoreConfig.AllowsSide, sameWidth, sameHeight]
    omega
  · simp at checked

/-- The sides of an image pass the check exactly when they are within the limits. -/
theorem StoreConfig.dimensions_sides {config : StoreConfig} {width height : UInt32} :
    (∃ sides, config.dimensions width.toNat height.toNat = .ok sides) ↔
      config.AllowsSide width ∧ config.AllowsSide height := by
  constructor
  · rintro ⟨sides, checked⟩
    obtain ⟨first, second, sameWidth, sameHeight⟩ := StoreConfig.dimensions_eq_ok checked
    have widthEq : sides.1 = width := UInt32.toNat_inj.mp (by omega)
    have heightEq : sides.2 = height := UInt32.toNat_inj.mp (by omega)
    exact ⟨widthEq ▸ first, heightEq ▸ second⟩
  · rintro ⟨⟨widthPositive, widthBound⟩, ⟨heightPositive, heightBound⟩⟩
    refine ⟨_, if_pos ⟨?_, ?_, ?_, ?_⟩⟩ <;> omega

/-- Bytes make an image exactly when their number fits the sides. -/
theorem Image.ofBytes_eq_ok {width height : UInt32} {pixels : ByteArray} {image : Image} :
    Image.ofBytes width height pixels = .ok image ↔
      image = ⟨width, height, pixels⟩ ∧ image.IsWellFormed := by
  unfold Image.ofBytes
  split
  · rename_i fits
    simp only [Except.ok.injEq]
    constructor
    · rintro rfl
      exact ⟨rfl, fits⟩
    · rintro ⟨rfl, -⟩
      rfl
  · rename_i misfit
    simp only [reduceCtorEq, false_iff, not_and]
    rintro rfl formed
    exact misfit formed

namespace Store

/-- An image may be kept in a store: its sides are possible and it has the bytes they call for. -/
structure Admits (store : Store) (image : Image) : Prop where
  /-- The width is within the limits. -/
  width : store.config.AllowsSide image.width
  /-- The height is within the limits. -/
  height : store.config.AllowsSide image.height
  /-- There are four bytes for every pixel. -/
  formed : image.IsWellFormed

/-- The store with one more image, under the next handle. -/
def keepNew (store : Store) (image : Image) : Store :=
  { store with
    images := (store.next, image) :: store.images
    next := ⟨store.next.number + 1⟩
    totalBytes := store.totalBytes + image.pixels.size }

/-- There is room for bytes exactly when they fit into the limit after others are given up. -/
theorem checkBytes_eq_ok {store : Store} {requested freed : Nat} {passed : Unit} :
    store.checkBytes requested freed = .ok passed ↔
      store.totalBytes - freed + requested ≤ store.config.maxTotalBytes := by
  unfold checkBytes
  split <;> simp_all

/-- An image is kept exactly when it is admitted and there is room for its bytes, for one more image
and for one more handle; it is then the only change. -/
theorem insert_eq_ok {store after : Store} {image : Image} {handle : Handle} :
    store.insert image = .ok (handle, after) ↔
      store.Admits image ∧
      store.totalBytes + image.pixels.size ≤ store.config.maxTotalBytes ∧
      store.images.length < store.config.maxImages ∧ store.next ≠ Handle.unset ∧
      handle = store.next ∧ after = store.keepNew image := by
  simp only [insert, except_bind_ok, checkBytes_eq_ok, Image.ofBytes_eq_ok, Nat.sub_zero]
  constructor
  · rintro ⟨sides, checked, made, ⟨rfl, formed⟩, passed, room, kept⟩
    split at kept
    · simp at kept
    · rename_i free
      simp only [Handle.isUnset, beq_iff_eq, not_or, Nat.not_le] at free
      simp only [Except.ok.injEq, Prod.mk.injEq] at kept
      obtain ⟨width, height⟩ := StoreConfig.dimensions_sides.mp ⟨sides, checked⟩
      exact ⟨⟨width, height, formed⟩, room, free.1, free.2, kept.1.symm, kept.2.symm⟩
  · rintro ⟨admitted, room, count, unset, rfl, rfl⟩
    obtain ⟨sides, checked⟩ :=
      StoreConfig.dimensions_sides.mpr ⟨admitted.width, admitted.height⟩
    refine ⟨sides, checked, image, ⟨rfl, admitted.formed⟩, (), room, if_neg ?_⟩
    simp only [Handle.isUnset, beq_iff_eq, not_or, Nat.not_le]
    exact ⟨count, unset⟩

/-- An image made of another one is kept like any other image. -/
theorem derive_inserts {store after : Store} {source handle : Handle}
    {make : Image → Except StoreFault Image}
    (derived : store.derive source make = .ok (handle, after)) :
    ∃ image, store.insert image = .ok (handle, after) := by
  simp only [derive, except_bind_ok] at derived
  obtain ⟨_, -, _, -, image, -, kept⟩ := derived
  exact ⟨image, kept⟩

/-- A resized image is kept like any other image. -/
theorem resize_inserts {store after : Store} {source handle : Handle} {width height : Int32}
    (resized : store.resize source width height = .ok (handle, after)) :
    ∃ image, store.insert image = .ok (handle, after) := by
  simp only [resize, except_bind_ok] at resized
  obtain ⟨sides, -, _, -, original, -, kept⟩ := resized
  exact ⟨original.resize sides.1 sides.2, kept⟩

/-- An image of one colour is kept like any other image. -/
theorem blank_inserts {store after : Store} {handle : Handle}
    {red green blue alpha width height : Int32}
    (made : store.blank red green blue alpha width height = .ok (handle, after)) :
    ∃ image, store.insert image = .ok (handle, after) := by
  simp only [blank, except_bind_ok] at made
  obtain ⟨sides, -, _, -, kept⟩ := made
  exact ⟨_, kept⟩

/-- Whatever the operation, all that it does to the store is to keep one new image. -/
theorem call_inserts {store after : Store} {operation : Operation} {args : List Int32}
    {handle : Handle} (called : store.call operation args = .ok (handle, after)) :
    ∃ image, store.insert image = .ok (handle, after) := by
  unfold call at called
  split at called
  all_goals try simp only [except_bind_ok] at called
  case h_1 =>
    obtain ⟨_, -, resized⟩ := called
    exact resize_inserts resized
  case h_3 => exact blank_inserts called
  case h_11 => simp at called
  all_goals
    obtain ⟨_, -, derived⟩ := called
    exact derive_inserts derived

/-- A call by a module leaves the store as it is or keeps one new image. -/
theorem dispatch_inserts (store : Store) (operation : Operation) (args : List Int32) :
    (store.dispatch operation args).2 = store ∨
      ∃ handle image, store.insert image = .ok (handle, (store.dispatch operation args).2) := by
  unfold dispatch
  split
  · exact .inl rfl
  · split
    · rename_i handle after called
      obtain ⟨image, kept⟩ := call_inserts called
      exact .inr ⟨handle, image, kept⟩
    · exact .inl rfl

/-- Another image is put under a handle exactly when there is room for it once the bytes of the old
one are given up. -/
theorem replaceImage_eq_ok {store after : Store} {handle : Handle} {image : Image} :
    store.replaceImage handle image = .ok after ↔
      store.totalBytes - ((store.image? handle).map (·.pixels.size)).getD 0 + image.pixels.size ≤
          store.config.maxTotalBytes ∧
      after =
        { store with
          images := store.images.map fun entry =>
            if entry.1 = handle then (handle, image) else entry
          totalBytes := store.totalBytes -
            ((store.image? handle).map (·.pixels.size)).getD 0 + image.pixels.size } := by
  simp only [replaceImage, except_bind_ok, checkBytes_eq_ok, Except.ok.injEq]
  constructor
  · rintro ⟨_, room, rfl⟩
    exact ⟨room, rfl⟩
  · rintro ⟨room, rfl⟩
    exact ⟨(), room, rfl⟩

/-- Adding an input puts an admitted image under the handle that has the name, or keeps it as a new
image and gives it the name. -/
theorem addInput_cases {store after : Store} {name : String} {width height : UInt32}
    {pixels : ByteArray} {handle : Handle}
    (added : store.addInput name width height pixels = .ok (handle, after)) :
    ∃ image, store.Admits image ∧
      ((store.inputHandle? name = some handle ∧ store.replaceImage handle image = .ok after) ∨
        (store.inputHandle? name = none ∧ ∃ kept, store.insert image = .ok (handle, kept) ∧
          after = { kept with inputs := kept.inputs ++ [⟨name, handle⟩] })) := by
  simp only [addInput, except_bind_ok, Image.ofBytes_eq_ok] at added
  obtain ⟨sides, checked, image, ⟨rfl, formed⟩, added⟩ := added
  obtain ⟨allowedWidth, allowedHeight⟩ := StoreConfig.dimensions_sides.mp ⟨sides, checked⟩
  refine ⟨_, ⟨allowedWidth, allowedHeight, formed⟩, ?_⟩
  split at added
  · rename_i found known
    simp only [except_bind_ok, Except.ok.injEq, Prod.mk.injEq] at added
    obtain ⟨_, replaced, rfl, rfl⟩ := added
    exact .inl ⟨known, replaced⟩
  · rename_i unknown
    simp only [except_bind_ok, Except.ok.injEq, Prod.mk.injEq, Prod.exists] at added
    obtain ⟨_, kept, inserted, rfl, rfl⟩ := added
    exact .inr ⟨unknown, kept, inserted, rfl⟩

end Store

end TextureScript
