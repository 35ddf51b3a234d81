import Std.Data.TreeMap.Lemmas
import TextureScript.Store.Export

/-!
# What an export holds

Textures and material channels end up in one map from categories to maps from names to images.
Collecting the outputs of a module is the same as adding, one after the other, the images of the
slots that hold live handles: first those of the textures, then those of the channels. So an entry
is the image that was added last under its category and its name, an image is counted once for every
key that is new when it is added, and no category is empty.
-/

namespace TextureScript

/-- The images of one category by their names. -/
abbrev NamedImages := Std.TreeMap String Image

namespace ExportedImages

/-- The image exported under a category and a name. -/
def image? (exported : ExportedImages) (category name : String) : Option Image :=
  exported[category]?.bind (·[name]?)

/-- How many images are exported, over all categories. -/
def count (exported : ExportedImages) : Nat :=
  exported.toList.foldr (fun entry total => entry.2.size + total) 0

/-- No category is there without an image. -/
def NoneEmpty (exported : ExportedImages) : Prop :=
  ∀ (category : String) (entries : NamedImages), exported[category]? = some entries →
    entries.isEmpty = false

/-- An export shows a table of images when it has exactly the images of the table, and no category
without an image. -/
structure Shows (exported : ExportedImages) (table : String → String → Option Image) : Prop where
  /-- The images are those of the table. -/
  images : ∀ category name, exported.image? category name = table category name
  /-- No category is empty. -/
  noneEmpty : exported.NoneEmpty

/-- Add images under their categories and names, one after the other. -/
def addAll (exported : ExportedImages) (outputs : List ((String × String) × Image)) :
    ExportedImages :=
  outputs.foldl (fun exported output => exported.add output.1.1 output.1.2 output.2) exported

theorem addAll_append (exported : ExportedImages)
    (first second : List ((String × String) × Image)) :
    exported.addAll (first ++ second) = (exported.addAll first).addAll second :=
  List.foldl_append

/-- An added image is found under its category and name; all other entries stay. -/
theorem image?_add (exported : ExportedImages) (category name : String) (image : Image)
    (category' name' : String) :
    (exported.add category name image).image? category' name' =
      if category = category' ∧ name = name' then some image
      else exported.image? category' name' := by
  unfold add image?
  rw [Std.TreeMap.getElem?_insert]
  by_cases same : category = category'
  · subst same
    simp only [Std.ReflCmp.compare_self, ↓reduceIte, Option.bind_some, Std.TreeMap.getElem?_insert,
      Std.LawfulEqCmp.compare_eq_iff_eq, true_and]
    split
    · rfl
    · rw [Std.TreeMap.getD_eq_getD_getElem?]
      cases exported[category]? with
      | none => simp
      | some entries => rfl
  · simp [same]

/-- After some images were added, an entry is the last of them with its key, or what it was. -/
theorem image?_addAll (outputs : List ((String × String) × Image)) (exported : ExportedImages)
    (category name : String) :
    (exported.addAll outputs).image? category name =
      (outputs.reverse.lookup (category, name)).or (exported.image? category name) := by
  induction outputs generalizing exported with
  | nil => simp [addAll]
  | cons output outputs ih =>
    have step : exported.addAll (output :: outputs) =
      (exported.add output.1.1 output.1.2 output.2).addAll outputs := rfl
    rw [step, ih, image?_add, List.reverse_cons, List.lookup_append, Option.or_assoc]
    congr 1
    obtain ⟨⟨category', name'⟩, image⟩ := output
    by_cases same : category' = category ∧ name' = name
    · obtain ⟨rfl, rfl⟩ := same
      simp
    · have different : ((category, name) == (category', name')) = false := by
        apply Bool.eq_false_iff.mpr
        intro equal
        cases eq_of_beq equal
        exact same ⟨rfl, rfl⟩
      simp [List.lookup_cons, different, same]

/-- Adding an image leaves no category empty. -/
theorem NoneEmpty.add {exported : ExportedImages} (filled : exported.NoneEmpty)
    (category name : String) (image : Image) : (exported.add category name image).NoneEmpty := by
  intro category' entries found
  unfold ExportedImages.add at found
  rw [Std.TreeMap.getElem?_insert] at found
  split at found
  · cases found
    exact Std.TreeMap.isEmpty_insert
  · exact filled category' entries found

/-- Adding images leaves no category empty. -/
theorem NoneEmpty.addAll {exported : ExportedImages} (filled : exported.NoneEmpty)
    (outputs : List ((String × String) × Image)) : (exported.addAll outputs).NoneEmpty := by
  induction outputs generalizing exported with
  | nil => exact filled
  | cons output outputs ih => exact ih (filled.add output.1.1 output.1.2 output.2)

/-- An empty export has no empty category. -/
theorem noneEmpty_empty : NoneEmpty {} := by
  intro category entries found
  simp at found

/-! ## Counting images -/

/-- The images of some categories together. -/
def countOf (categories : List (String × NamedImages)) : Nat :=
  categories.foldr (fun entry total => entry.2.size + total) 0

theorem count_eq_countOf (exported : ExportedImages) :
    exported.count = countOf exported.toList := rfl

@[simp]
theorem countOf_cons (entry : String × NamedImages)
    (categories : List (String × NamedImages)) :
    countOf (entry :: categories) = entry.2.size + countOf categories := rfl

/-- The order of the categories does not matter for the count. -/
theorem countOf_perm {first second : List (String × NamedImages)}
    (perm : first.Perm second) : countOf first = countOf second := by
  induction perm with
  | nil => rfl
  | cons entry _ ih => rw [countOf_cons, countOf_cons, ih]
  | swap a b rest =>
    simp only [countOf_cons]
    omega
  | trans _ _ ih ih' => exact ih.trans ih'

/-- Leaving one category out takes its images off the count. -/
theorem countOf_remove {categories : List (String × NamedImages)} {category : String}
    {entries : NamedImages} (distinct : (categories.map (·.1)).Nodup)
    (member : (category, entries) ∈ categories) :
    countOf (categories.filter (¬category == ·.1)) + entries.size = countOf categories := by
  induction categories with
  | nil => simp at member
  | cons first categories ih =>
    simp only [List.map_cons, List.nodup_cons] at distinct
    rcases List.mem_cons.mp member with rfl | later
    · have untouched : categories.filter (¬category == ·.1) = categories := by
        rw [List.filter_eq_self]
        intro entry inside
        simp only [beq_iff_eq, decide_eq_true_eq]
        rintro rfl
        exact distinct.1 (List.mem_map.mpr ⟨_, inside, rfl⟩)
      rw [List.filter_cons_of_neg (by simp), untouched, countOf_cons]
      exact Nat.add_comm _ _
    · have different : category ≠ first.1 := by
        rintro rfl
        exact distinct.1 (List.mem_map.mpr ⟨_, later, rfl⟩)
      have rest := ih distinct.2 later
      rw [List.filter_cons_of_pos (by simpa using different), countOf_cons, countOf_cons]
      omega

/-- The categories of an export are distinct. -/
theorem nodup_categories (exported : ExportedImages) : (exported.toList.map (·.1)).Nodup := by
  rw [Std.TreeMap.map_fst_toList_eq_keys]
  apply List.Pairwise.imp _ Std.TreeMap.distinct_keys
  intro first second different same
  exact different (by simp [same])

/-- Putting entries under a category trades the images that were there for the new ones. -/
theorem count_insert (exported : ExportedImages) (category : String) (entries : NamedImages) :
    count (exported.insert category entries) + (exported.getD category {}).size =
      exported.count + entries.size := by
  rw [count_eq_countOf, countOf_perm Std.TreeMap.toList_insert_perm, countOf_cons,
    Std.TreeMap.getD_eq_getD_getElem?, count_eq_countOf]
  cases found : exported[category]? with
  | none =>
    have untouched : exported.toList.filter (¬category == ·.1) = exported.toList := by
      rw [List.filter_eq_self]
      intro entry inside
      have known := Std.TreeMap.mem_toList_iff_getElem?_eq_some.mp inside
      simp only [beq_iff_eq, decide_eq_true_eq]
      rintro rfl
      rw [found] at known
      cases known
    rw [untouched]
    simp only [Option.getD_none, Std.TreeMap.size_emptyc]
    omega
  | some old =>
    have member := Std.TreeMap.mem_toList_iff_getElem?_eq_some.mpr found
    have rest := countOf_remove exported.nodup_categories member
    simp only [Option.getD_some]
    omega

/-- An added image is counted when nothing stood under its category and name. -/
theorem count_add (exported : ExportedImages) (category name : String) (image : Image) :
    (exported.add category name image).count =
      exported.count + if (exported.image? category name).isSome then 0 else 1 := by
  have traded := exported.count_insert category ((exported.getD category {}).insert name image)
  rw [Std.TreeMap.size_insert] at traded
  have known : (exported.getD category {}).contains name = true ↔
      (exported.image? category name).isSome = true := by
    rw [Std.TreeMap.contains_eq_isSome_getElem?, Std.TreeMap.getD_eq_getD_getElem?, image?]
    cases exported[category]? with
    | none => simp
    | some entries => rfl
  unfold add
  by_cases taken : (exported.image? category name).isSome = true
  · rw [if_pos (known.mpr taken)] at traded
    rw [if_pos taken]
    omega
  · rw [if_neg (fun member => taken (known.mp member))] at traded
    rw [if_neg taken]
    omega

/-- Images under distinct keys are counted, except those whose keys were taken before. -/
theorem count_addAll {outputs : List ((String × String) × Image)}
    (distinct : (outputs.map (·.1)).Nodup) (exported : ExportedImages) :
    (exported.addAll outputs).count +
        outputs.countP (fun output => (exported.image? output.1.1 output.1.2).isSome) =
      exported.count + outputs.length := by
  induction outputs generalizing exported with
  | nil => simp [addAll]
  | cons output outputs ih =>
    have step : exported.addAll (output :: outputs) =
      (exported.add output.1.1 output.1.2 output.2).addAll outputs := rfl
    simp only [List.map_cons, List.nodup_cons] at distinct
    have rest := ih distinct.2 (exported.add output.1.1 output.1.2 output.2)
    -- the keys of the later outputs differ from the one that was just added
    have sameTaken : outputs.countP (fun later =>
          ((exported.add output.1.1 output.1.2 output.2).image? later.1.1 later.1.2).isSome) =
        outputs.countP (fun later => (exported.image? later.1.1 later.1.2).isSome) := by
      apply List.countP_congr
      intro later inside
      rw [image?_add, if_neg]
      rintro ⟨sameCategory, sameName⟩
      apply distinct.1
      exact List.mem_map.mpr ⟨later, inside, Prod.ext sameCategory.symm sameName.symm⟩
    rw [sameTaken, count_add] at rest
    rw [step, List.countP_cons, List.length_cons]
    by_cases taken : (exported.image? output.1.1 output.1.2).isSome = true
    · rw [if_pos taken] at rest ⊢
      omega
    · rw [if_neg taken] at rest ⊢
      omega

end ExportedImages

/-! ## Collecting outputs -/

/-- The image whose handle a slot holds, if the store has it. -/
def Store.slotImage? (store : Store) (memory : Wasm.Memory) (offset : UInt32) : Option Image :=
  (readSlot memory offset).bind store.image?

/-- The textures among the outputs of a module whose slots hold live handles, under their keys. -/
def Store.liveTextures (store : Store) (compiled : CompiledModule) (memory : Wasm.Memory) :
    List ((String × String) × Image) :=
  compiled.textureSlots.toList.filterMap fun slot =>
    (store.slotImage? memory slot.offset).map ((texturesCategory, slot.name), ·)

/-- The channels among the outputs of a module whose slots hold live handles, under their keys. -/
def Store.liveChannels (store : Store) (compiled : CompiledModule) (memory : Wasm.Memory) :
    List ((String × String) × Image) :=
  compiled.materialSlots.toList.filterMap fun slot =>
    (store.slotImage? memory slot.offset).map ((slot.material, slot.channel), ·)

/-- What is put under a category in place of its only content is all that is there. -/
theorem insert_insert_empty (category : String) (first second : NamedImages) :
    (({} : ExportedImages).insert category first).insert category second =
      ({} : ExportedImages).insert category second := by
  apply congrArg Std.TreeMap.mk
  simp only [Std.DTreeMap.insert, EmptyCollection.emptyCollection, Std.TreeMap.empty,
    Std.TreeMap.insert, Std.DTreeMap.empty, Std.DTreeMap.Internal.Impl.empty,
    Std.DTreeMap.Internal.Impl.insert]
  simp

/-- Textures that are gathered under their names and then put under their category are the same as
textures that are added one after the other. -/
theorem addAll_textures (images : List (String × Image)) (category : String) (start : NamedImages) :
    ExportedImages.addAll (({} : ExportedImages).insert category start)
        (images.map fun image => ((category, image.1), image.2)) =
      ({} : ExportedImages).insert category
        (images.foldl (fun entries image => entries.insert image.1 image.2) start) := by
  induction images generalizing start with
  | nil => rfl
  | cons image images ih =>
    rw [List.foldl_cons, ← ih]
    change ExportedImages.addAll (ExportedImages.add
      (({} : ExportedImages).insert category start) category image.1 image.2) _ = _
    rw [ExportedImages.add, Std.TreeMap.getD_insert_self, insert_insert_empty]

/-- Requested images are gathered under their names, those that the store does not have left out. -/
theorem Store.exportImages_eq (store : Store) (requested : List (String × Handle)) :
    store.exportImages requested =
      (requested.filterMap fun request => (store.image? request.2).map (request.1, ·)).foldl
        (fun entries image => entries.insert image.1 image.2) {} := by
  rw [List.foldl_filterMap, Store.exportImages]
  congr 1
  funext entries request
  cases found : store.image? request.2 <;> simp [found]

/-- Inserting images leaves no map empty that was not. -/
theorem isEmpty_foldl_insert (images : List (String × Image)) (start : NamedImages)
    (filled : start.isEmpty = false) :
    (images.foldl (fun entries image => entries.insert image.1 image.2) start).isEmpty = false := by
  induction images generalizing start with
  | nil => exact filled
  | cons image images ih => exact ih _ Std.TreeMap.isEmpty_insert

/-- A category whose images are gathered first, and which is left out without any, is the category
to which the images are added one after the other. -/
theorem gathered_eq_addAll (images : List (String × Image)) (category : String) :
    (if (images.foldl (fun entries image => entries.insert image.1 image.2)
        ({} : NamedImages)).isEmpty then ({} : ExportedImages)
      else ({} : ExportedImages).insert category
        (images.foldl (fun entries image => entries.insert image.1 image.2) {})) =
      ExportedImages.addAll {} (images.map fun image => ((category, image.1), image.2)) := by
  cases images with
  | nil => simp [ExportedImages.addAll]
  | cons image images =>
    have filled := isEmpty_foldl_insert images (({} : NamedImages).insert image.1 image.2)
      Std.TreeMap.isEmpty_insert
    simp only [List.foldl_cons, filled, Bool.false_eq_true, ↓reduceIte]
    rw [← addAll_textures]
    change _ = ExportedImages.addAll (ExportedImages.add {} category image.1 image.2) _
    simp [ExportedImages.add]

/-- Channels with live slots are added one after the other; the others are passed over. -/
theorem Store.addAll_liveChannels (store : Store) (compiled : CompiledModule)
    (memory : Wasm.Memory) (exported : ExportedImages) :
    exported.addAll (store.liveChannels compiled memory) =
      compiled.materialSlots.foldl
        (fun exported slot =>
          match store.slotImage? memory slot.offset with
          | some image => exported.add slot.material slot.channel image
          | none => exported) exported := by
  rw [ExportedImages.addAll, Store.liveChannels, List.foldl_filterMap, ← Array.foldl_toList]
  congr 1
  funext exported slot
  cases found : store.slotImage? memory slot.offset <;> simp

/-- The outputs of a module are the images of its live slots, added one after the other: the
textures first, the channels after them. -/
theorem Store.collect_eq (store : Store) (compiled : CompiledModule) (memory : Wasm.Memory) :
    store.collect compiled memory =
      ExportedImages.addAll {}
        (store.liveTextures compiled memory ++ store.liveChannels compiled memory) := by
  have gathered : store.exportImages (compiled.textureSlots.toList.filterMap fun slot =>
        (readSlot memory slot.offset).map (slot.name, ·)) =
      (compiled.textureSlots.toList.filterMap fun slot =>
        (store.slotImage? memory slot.offset).map (slot.name, ·)).foldl
          (fun entries image => entries.insert image.1 image.2) {} := by
    rw [store.exportImages_eq, List.filterMap_filterMap]
    congr 2
    funext slot
    cases handle : readSlot memory slot.offset <;> simp [Store.slotImage?, handle]
  have named : store.liveTextures compiled memory =
      (compiled.textureSlots.toList.filterMap fun slot =>
        (store.slotImage? memory slot.offset).map (slot.name, ·)).map
          fun image => ((texturesCategory, image.1), image.2) := by
    rw [List.map_filterMap]
    simp only [Store.liveTextures, Option.map_map]
    rfl
  unfold Store.collect
  simp only [gathered, gathered_eq_addAll, ← named]
  rw [ExportedImages.addAll_append]
  exact (store.addAll_liveChannels compiled memory _).symm

/-- Under a category and a name stands the image of the last channel with that key, or else of the
last texture. -/
theorem Store.image?_collect (store : Store) (compiled : CompiledModule) (memory : Wasm.Memory)
    (category name : String) :
    (store.collect compiled memory).image? category name =
      ((store.liveChannels compiled memory).reverse.lookup (category, name)).or
        ((store.liveTextures compiled memory).reverse.lookup (category, name)) := by
  rw [store.collect_eq, ExportedImages.image?_addAll, List.reverse_append, List.lookup_append]
  simp [ExportedImages.image?]

/-- No category of the outputs of a module is empty. -/
theorem Store.noneEmpty_collect (store : Store) (compiled : CompiledModule)
    (memory : Wasm.Memory) : (store.collect compiled memory).NoneEmpty := by
  rw [store.collect_eq]
  exact ExportedImages.noneEmpty_empty.addAll _

end TextureScript
