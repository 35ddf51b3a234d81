import TextureScript.Proofs.Store.Outcomes

/-!
# The invariant of the store

The invariant ties the count of bytes, the limits, the handles and the inputs of a store together.
Every change of a store that is granted keeps it.
-/

namespace TextureScript.Store

/-- What holds of a store whatever was asked of it before. -/
structure Invariant (store : Store) : Prop where
  /-- The bytes of all images are counted. -/
  bytes : store.totalBytes = bytesOf store.images
  /-- The bytes keep to their limit. -/
  budget : store.totalBytes ≤ store.config.maxTotalBytes
  /-- The images keep to theirs. -/
  count : store.images.length ≤ store.config.maxImages
  /-- Every image has possible sides and the bytes that they call for. -/
  admitted : ∀ entry ∈ store.images, store.Admits entry.2
  /-- No two images have one handle. -/
  handles : (store.images.map (·.1)).Nodup
  /-- Every handle in use is below the next one. -/
  below : ∀ entry ∈ store.images, entry.1.number < store.next.number
  /-- The next handle is at most the one that names no image. -/
  next_le : store.next.number ≤ Handle.unset.number
  /-- No two inputs have one name. -/
  inputNames : (store.inputs.map (·.name)).Nodup
  /-- No two inputs have one handle. -/
  inputHandles : (store.inputs.map (·.handle)).Nodup
  /-- The image of every input is there. -/
  inputsKept : ∀ input ∈ store.inputs, (store.image? input.handle).isSome

/-- An image found under a handle is one of the images of the store. -/
theorem mem_images_of_image? {store : Store} {handle : Handle} {image : Image}
    (found : store.image? handle = some image) : (handle, image) ∈ store.images := by
  obtain ⟨before, after, split, -⟩ := List.lookup_eq_some_iff.mp found
  rw [split]
  simp

/-- A handle is found exactly when an image stands under it. -/
theorem image?_isSome {store : Store} {handle : Handle} :
    (store.image? handle).isSome ↔ handle ∈ store.images.map (·.1) := by
  simp only [image?, List.lookup_isSome_iff, List.mem_map]
  constructor
  · rintro ⟨entry, member, same⟩
    exact ⟨entry, member, (eq_of_beq same).symm⟩
  · rintro ⟨entry, member, rfl⟩
    exact ⟨entry, member, by simp⟩

/-- The input that a name finds is one of the inputs and has the name. -/
theorem mem_inputs_of_inputHandle? {store : Store} {name : String} {handle : Handle}
    (found : store.inputHandle? name = some handle) : ⟨name, handle⟩ ∈ store.inputs := by
  simp only [inputHandle?, Option.map_eq_some_iff] at found
  obtain ⟨input, first, rfl⟩ := found
  have named : input.name = name := by simpa using List.find?_some first
  subst named
  exact List.mem_of_find?_eq_some first

/-- A name that finds no handle is the name of no input. -/
theorem not_mem_names_of_inputHandle? {store : Store} {name : String}
    (missing : store.inputHandle? name = none) : name ∉ store.inputs.map (·.name) := by
  simp only [inputHandle?, Option.map_eq_none_iff, List.find?_eq_none, beq_iff_eq] at missing
  simp only [List.mem_map, not_exists, not_and]
  exact missing

/-! ## Counting bytes -/

@[simp]
theorem bytesOf_cons (entry : Handle × Image) (images : List (Handle × Image)) :
    bytesOf (entry :: images) = entry.2.pixels.size + bytesOf images := rfl

/-- No image has more bytes than all together. -/
theorem size_le_bytesOf {entry : Handle × Image} {images : List (Handle × Image)}
    (member : entry ∈ images) : entry.2.pixels.size ≤ bytesOf images := by
  induction images with
  | nil => simp at member
  | cons first images ih =>
    rw [bytesOf_cons]
    rcases List.mem_cons.mp member with rfl | later
    · omega
    · have := ih later
      omega

/-- Images under other handles are not touched when the image under a handle is replaced. -/
theorem replace_of_not_mem {handle : Handle} {image : Image} {images : List (Handle × Image)}
    (absent : handle ∉ images.map (·.1)) :
    (images.map fun entry => if entry.1 = handle then (handle, image) else entry) = images := by
  induction images with
  | nil => rfl
  | cons first images ih =>
    simp only [List.map_cons, List.mem_cons, not_or] at absent
    rw [List.map_cons, if_neg (fun same => absent.1 same.symm), ih absent.2]

/-- Replacing an image trades its bytes for those of the new one. -/
theorem bytesOf_replace {handle : Handle} {old : Image} {images : List (Handle × Image)}
    (distinct : (images.map (·.1)).Nodup) (member : (handle, old) ∈ images) (image : Image) :
    bytesOf (images.map fun entry => if entry.1 = handle then (handle, image) else entry) +
      old.pixels.size = bytesOf images + image.pixels.size := by
  induction images with
  | nil => simp at member
  | cons first images ih =>
    simp only [List.map_cons, List.nodup_cons] at distinct
    rcases List.mem_cons.mp member with rfl | later
    · simp only [List.map_cons, ↓reduceIte, bytesOf_cons, replace_of_not_mem distinct.1]
      omega
    · have different : first.1 ≠ handle := by
        rintro rfl
        exact distinct.1 (List.mem_map.mpr ⟨_, later, rfl⟩)
      have rest := ih distinct.2 later
      simp only [List.map_cons, if_neg different, bytesOf_cons]
      omega

/-- Removing an image gives up its bytes. -/
theorem bytesOf_remove {handle : Handle} {old : Image} {images : List (Handle × Image)}
    (distinct : (images.map (·.1)).Nodup) (member : (handle, old) ∈ images) :
    bytesOf (images.filter (·.1 ≠ handle)) + old.pixels.size = bytesOf images := by
  induction images with
  | nil => simp at member
  | cons first images ih =>
    simp only [List.map_cons, List.nodup_cons] at distinct
    rcases List.mem_cons.mp member with rfl | later
    · have untouched : images.filter (·.1 ≠ handle) = images := by
        rw [List.filter_eq_self]
        intro entry inside
        simp only [ne_eq, decide_not, Bool.not_eq_eq_eq_not, Bool.not_true, decide_eq_false_iff_not]
        rintro rfl
        exact distinct.1 (List.mem_map.mpr ⟨_, inside, rfl⟩)
      rw [List.filter_cons_of_neg (by simp), untouched, bytesOf_cons]
      exact Nat.add_comm _ _
    · have different : first.1 ≠ handle := by
        rintro rfl
        exact distinct.1 (List.mem_map.mpr ⟨_, later, rfl⟩)
      have rest := ih distinct.2 later
      rw [List.filter_cons_of_pos (by simpa using different), bytesOf_cons, bytesOf_cons]
      omega

/-- Fewer images have fewer bytes. -/
theorem bytesOf_filter_le (images : List (Handle × Image)) (keep : Handle × Image → Bool) :
    bytesOf (images.filter keep) ≤ bytesOf images := by
  induction images with
  | nil => simp
  | cons first images ih =>
    rw [List.filter_cons]
    split <;> simp only [bytesOf_cons] <;> omega

/-! ## Every request keeps the invariant -/

/-- A store that holds nothing satisfies the invariant. -/
theorem invariant_empty (config : StoreConfig) : Invariant { config } where
  bytes := rfl
  budget := Nat.zero_le _
  count := Nat.zero_le _
  admitted := by simp
  handles := by simp
  below := by simp
  next_le := show (0 : UInt32) ≤ 2147483647 by decide
  inputNames := by simp
  inputHandles := by simp
  inputsKept := by simp

/-- A handle below the next one stays below the one after it, and that one is still possible. -/
theorem next_number_lt {store : Store} (invariant : store.Invariant)
    (free : store.next ≠ Handle.unset) :
    store.next.number < store.next.number + 1 ∧
      store.next.number + 1 ≤ Handle.unset.number := by
  have bound : store.next.number.toNat ≤ 2147483647 := UInt32.le_iff_toNat_le.mp invariant.next_le
  have different : store.next.number.toNat ≠ 2147483647 := by
    intro same
    apply free
    have number : store.next.number = Handle.unset.number := UInt32.toNat_inj.mp same
    cases next : store.next with
    | mk given =>
      rw [next] at number
      exact congrArg Handle.mk number
  have sum : (store.next.number + 1).toNat = store.next.number.toNat + 1 := by
    rw [UInt32.toNat_add, show (1 : UInt32).toNat = 1 from rfl, Nat.mod_eq_of_lt (by omega)]
  rw [UInt32.lt_iff_toNat_lt, UInt32.le_iff_toNat_le, sum]
  exact ⟨by omega, show _ ≤ 2147483647 by omega⟩

/-- The next handle is not in use. -/
theorem next_not_mem {store : Store} (invariant : store.Invariant) :
    store.next ∉ store.images.map (·.1) := by
  intro member
  obtain ⟨entry, inside, same⟩ := List.mem_map.mp member
  have lower := invariant.below entry inside
  rw [same] at lower
  exact UInt32.lt_irrefl _ lower

/-- No input has the next handle. -/
theorem next_not_mem_inputs {store : Store} (invariant : store.Invariant) :
    store.next ∉ store.inputs.map (·.handle) := by
  intro member
  obtain ⟨input, inside, same⟩ := List.mem_map.mp member
  have kept := invariant.inputsKept input inside
  rw [same] at kept
  exact next_not_mem invariant (image?_isSome.mp kept)

/-- Keeping a new image keeps the invariant. -/
theorem Invariant.insert {store after : Store} {image : Image} {handle : Handle}
    (invariant : store.Invariant) (inserted : store.insert image = .ok (handle, after)) :
    after.Invariant := by
  obtain ⟨admitted, room, count, free, -, rfl⟩ := insert_eq_ok.mp inserted
  obtain ⟨larger, possible⟩ := next_number_lt invariant free
  exact {
    bytes := by
      simp only [keepNew, bytesOf_cons, invariant.bytes]
      omega
    budget := room
    count := count
    admitted := by
      intro entry member
      rcases List.mem_cons.mp member with rfl | earlier
      · exact ⟨admitted.width, admitted.height, admitted.formed⟩
      · have old := invariant.admitted entry earlier
        exact ⟨old.width, old.height, old.formed⟩
    handles := List.nodup_cons.mpr ⟨next_not_mem invariant, invariant.handles⟩
    below := by
      intro entry member
      rcases List.mem_cons.mp member with rfl | earlier
      · exact larger
      · exact UInt32.lt_trans (invariant.below entry earlier) larger
    next_le := possible
    inputNames := invariant.inputNames
    inputHandles := invariant.inputHandles
    inputsKept := by
      intro input member
      have kept := image?_isSome.mp (invariant.inputsKept input member)
      exact image?_isSome.mpr (List.mem_cons_of_mem _ kept) }

/-- Putting an admitted image under a handle in use keeps the invariant. -/
theorem Invariant.replaceImage {store after : Store} {handle : Handle} {old image : Image}
    (invariant : store.Invariant) (known : store.image? handle = some old)
    (admitted : store.Admits image) (replaced : store.replaceImage handle image = .ok after) :
    after.Invariant := by
  obtain ⟨room, rfl⟩ := replaceImage_eq_ok.mp replaced
  have member := mem_images_of_image? known
  have freed := size_le_bytesOf member
  have traded := bytesOf_replace invariant.handles member image
  simp only [known, Option.map_some, Option.getD_some] at room ⊢
  -- replacing leaves the list of handles as it is
  have sameHandles : (store.images.map fun entry =>
      if entry.1 = handle then (handle, image) else entry).map (·.1) =
        store.images.map (·.1) := by
    rw [List.map_map]
    apply List.map_congr_left
    intro entry _
    simp only [Function.comp_apply]
    split
    · rename_i same
      exact same.symm
    · rfl
  exact {
    bytes := by
      have counted := invariant.bytes
      simp only at freed ⊢
      omega
    budget := room
    count := by simpa using invariant.count
    admitted := by
      intro entry inside
      obtain ⟨original, earlier, rfl⟩ := List.mem_map.mp inside
      split
      · exact ⟨admitted.width, admitted.height, admitted.formed⟩
      · have formed := invariant.admitted original earlier
        exact ⟨formed.width, formed.height, formed.formed⟩
    handles := by
      simp only [sameHandles]
      exact invariant.handles
    below := by
      intro entry inside
      obtain ⟨original, earlier, rfl⟩ := List.mem_map.mp inside
      have lower := invariant.below original earlier
      split
      · rename_i same
        rw [same] at lower
        exact lower
      · exact lower
    next_le := invariant.next_le
    inputNames := invariant.inputNames
    inputHandles := invariant.inputHandles
    inputsKept := by
      intro input inside
      have kept := image?_isSome.mp (invariant.inputsKept input inside)
      exact image?_isSome.mpr (sameHandles ▸ kept) }

/-- Naming the newest image keeps the invariant, when the name is free and the image is no input. -/
theorem Invariant.nameInput {store : Store} {name : String} {handle : Handle}
    (invariant : store.Invariant) (free : name ∉ store.inputs.map (·.name))
    (unnamed : handle ∉ store.inputs.map (·.handle)) (kept : (store.image? handle).isSome) :
    Invariant { store with inputs := store.inputs ++ [⟨name, handle⟩] } :=
  { bytes := invariant.bytes
    budget := invariant.budget
    count := invariant.count
    admitted := fun entry member =>
      have old := invariant.admitted entry member
      ⟨old.width, old.height, old.formed⟩
    handles := invariant.handles
    below := invariant.below
    next_le := invariant.next_le
    inputNames := by
      simp only [List.map_append, List.map_cons, List.map_nil, List.nodup_append]
      refine ⟨invariant.inputNames, by simp, ?_⟩
      intro earlier member new last
      rw [List.mem_singleton.mp last]
      rintro rfl
      exact free member
    inputHandles := by
      simp only [List.map_append, List.map_cons, List.map_nil, List.nodup_append]
      refine ⟨invariant.inputHandles, by simp, ?_⟩
      intro earlier member new last
      rw [List.mem_singleton.mp last]
      rintro rfl
      exact unnamed member
    inputsKept := by
      intro input member
      rcases List.mem_append.mp member with earlier | last
      · exact invariant.inputsKept input earlier
      · rw [List.mem_singleton.mp last]
        exact kept }

/-- Adding an input keeps the invariant. -/
theorem Invariant.addInput {store after : Store} {name : String} {width height : UInt32}
    {pixels : ByteArray} {handle : Handle} (invariant : store.Invariant)
    (added : store.addInput name width height pixels = .ok (handle, after)) :
    after.Invariant := by
  obtain ⟨image, admitted, ⟨known, replaced⟩ | ⟨unknown, kept, inserted, rfl⟩⟩ :=
    addInput_cases added
  · have present := invariant.inputsKept _ (mem_inputs_of_inputHandle? known)
    obtain ⟨old, found⟩ := Option.isSome_iff_exists.mp present
    exact invariant.replaceImage found admitted replaced
  · have grown := invariant.insert inserted
    obtain ⟨-, -, -, -, rfl, rfl⟩ := insert_eq_ok.mp inserted
    apply grown.nameInput
    · exact not_mem_names_of_inputHandle? unknown
    · exact next_not_mem_inputs invariant
    · exact image?_isSome.mpr (by simp [keepNew])

/-- Keeping only some images and some inputs, among them the images of those inputs, keeps the
invariant. -/
theorem Invariant.retain {store : Store} {keep : Handle × Image → Bool} {inputs : List InputImage}
    (invariant : store.Invariant) (fewer : inputs.Sublist store.inputs)
    (spared : ∀ input ∈ inputs, ∀ entry ∈ store.images, entry.1 = input.handle → keep entry) :
    Invariant
      { store with
        images := store.images.filter keep
        inputs
        totalBytes := bytesOf (store.images.filter keep) } :=
  { bytes := rfl
    budget := by
      have less := bytesOf_filter_le store.images keep
      have counted := invariant.bytes
      have limit := invariant.budget
      simp only
      omega
    count := Nat.le_trans (List.length_filter_le _ _) invariant.count
    admitted := fun entry member =>
      have old := invariant.admitted entry (List.mem_filter.mp member).1
      ⟨old.width, old.height, old.formed⟩
    handles := List.Nodup.sublist (List.filter_sublist.map _) invariant.handles
    below := fun entry member => invariant.below entry (List.mem_filter.mp member).1
    next_le := invariant.next_le
    inputNames := List.Nodup.sublist (fewer.map _) invariant.inputNames
    inputHandles := List.Nodup.sublist (fewer.map _) invariant.inputHandles
    inputsKept := by
      intro input member
      have kept := image?_isSome.mp (invariant.inputsKept input (fewer.subset member))
      obtain ⟨entry, inside, same⟩ := List.mem_map.mp kept
      apply image?_isSome.mpr
      exact List.mem_map.mpr
        ⟨entry, List.mem_filter.mpr ⟨inside, spared input member entry inside same⟩, same⟩ }

/-- Removing the images that are no inputs keeps the invariant. -/
theorem Invariant.clearGenerated {store : Store} (invariant : store.Invariant) :
    store.clearGenerated.Invariant := by
  apply invariant.retain (List.Sublist.refl _)
  intro input member entry _ same
  exact List.any_eq_true.mpr ⟨input, member, by simp [same]⟩

/-- Once the input that a name finds is erased, no input has its handle any more. -/
theorem handle_ne_of_mem_eraseP {inputs : List InputImage} {name : String} {found left : InputImage}
    (distinct : (inputs.map (·.handle)).Nodup)
    (first : inputs.find? (·.name == name) = some found)
    (remaining : left ∈ inputs.eraseP (·.name == name)) : left.handle ≠ found.handle := by
  induction inputs with
  | nil => simp at first
  | cons input inputs ih =>
    simp only [List.map_cons, List.nodup_cons] at distinct
    by_cases named : input.name == name
    · simp only [List.find?_cons, named, Option.some.injEq] at first
      simp only [List.eraseP_cons, named, cond_true] at remaining
      subst first
      intro same
      exact distinct.1 (List.mem_map.mpr ⟨left, remaining, same⟩)
    · simp only [List.find?_cons, Bool.eq_false_iff.mpr named] at first
      simp only [List.eraseP_cons, Bool.eq_false_iff.mpr named, cond_false] at remaining
      rcases List.mem_cons.mp remaining with rfl | later
      · intro same
        exact distinct.1 (List.mem_map.mpr ⟨found, List.mem_of_find?_eq_some first, same.symm⟩)
      · exact ih distinct.2 first later

/-- Removing an input keeps the invariant. -/
theorem Invariant.removeInput {store : Store} (invariant : store.Invariant) (name : String) :
    (store.removeInput name).2.Invariant := by
  unfold Store.removeInput
  split
  · exact invariant
  · rename_i handle named
    have present := invariant.inputsKept _ (mem_inputs_of_inputHandle? named)
    obtain ⟨image, found⟩ : ∃ image, store.image? handle = some image :=
      Option.isSome_iff_exists.mp present
    have given := bytesOf_remove invariant.handles (mem_images_of_image? found)
    have counted : store.totalBytes - image.pixels.size =
        bytesOf (store.images.filter (·.1 ≠ handle)) := by
      have := invariant.bytes
      omega
    simp only [image?] at found ⊢
    simp only [found, counted]
    apply invariant.retain List.eraseP_sublist
    intro input member entry _ same
    simp only [inputHandle?, Option.map_eq_some_iff] at named
    obtain ⟨erased, first, rfl⟩ := named
    simp only [same, ne_eq, decide_not, Bool.not_eq_eq_eq_not, Bool.not_true,
      decide_eq_false_iff_not]
    exact handle_ne_of_mem_eraseP invariant.inputHandles first member

/-- Renaming an input does not change the handles of the inputs, nor their order. -/
theorem map_handle_rename (inputs : List InputImage) (old new : String) :
    (inputs.map fun input => if input.name = old then { input with name := new } else input).map
      (·.handle) = inputs.map (·.handle) := by
  rw [List.map_map]
  apply List.map_congr_left
  intro input _
  simp only [Function.comp_apply]
  split <;> rfl

/-- Renaming an input to a free name keeps the names distinct. -/
theorem nodup_rename {inputs : List InputImage} {old new : String}
    (distinct : (inputs.map (·.name)).Nodup) (free : new ∉ inputs.map (·.name)) :
    ((inputs.map fun input => if input.name = old then { input with name := new } else input).map
      (·.name)).Nodup := by
  induction inputs with
  | nil => simp
  | cons input inputs ih =>
    simp only [List.map_cons, List.nodup_cons, List.mem_cons, not_or] at distinct free ⊢
    refine ⟨?_, ih distinct.2 free.2⟩
    intro member
    obtain ⟨renamed, inside, same⟩ := List.mem_map.mp member
    obtain ⟨other, earlier, rfl⟩ := List.mem_map.mp inside
    have otherName : other.name ∈ inputs.map (·.name) := List.mem_map.mpr ⟨other, earlier, rfl⟩
    by_cases otherOld : other.name = old
    · by_cases inputOld : input.name = old
      · exact distinct.1 (inputOld ▸ otherOld ▸ otherName)
      · rw [if_pos otherOld, if_neg inputOld] at same
        exact free.1 same
    · by_cases inputOld : input.name = old
      · rw [if_neg otherOld, if_pos inputOld] at same
        exact free.2 ((show other.name = new from same) ▸ otherName)
      · rw [if_neg otherOld, if_neg inputOld] at same
        exact distinct.1 (same ▸ otherName)

/-- Renaming an input keeps the invariant. -/
theorem Invariant.renameInput {store after : Store} {old new : String}
    (invariant : store.Invariant) (renamed : store.renameInput old new = .ok after) :
    after.Invariant := by
  unfold Store.renameInput at renamed
  split at renamed
  · cases renamed
    exact invariant
  split at renamed
  · cases renamed
  split at renamed
  · rename_i different taken _
    cases renamed
    have free : new ∉ store.inputs.map (·.name) := by
      apply not_mem_names_of_inputHandle?
      simpa [containsInput] using taken
    exact {
      bytes := invariant.bytes
      budget := invariant.budget
      count := invariant.count
      admitted := fun entry member =>
        have formed := invariant.admitted entry member
        ⟨formed.width, formed.height, formed.formed⟩
      handles := invariant.handles
      below := invariant.below
      next_le := invariant.next_le
      inputNames := nodup_rename invariant.inputNames free
      inputHandles := by
        simp only [map_handle_rename]
        exact invariant.inputHandles
      inputsKept := by
        intro input member
        have sameHandle : input.handle ∈ store.inputs.map (·.handle) := by
          rw [← map_handle_rename store.inputs old new]
          exact List.mem_map.mpr ⟨input, member, rfl⟩
        obtain ⟨original, earlier, same⟩ := List.mem_map.mp sameHandle
        have kept := invariant.inputsKept original earlier
        rw [same] at kept
        exact kept }
  · cases renamed

end TextureScript.Store
