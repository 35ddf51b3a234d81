import TextureScript.Proofs.Assembly.Acceptance
import TextureScript.Proofs.Compiler.Acceptance
import TextureScript.Proofs.Plan.Resolution
import TextureScript.Proofs.Store.Export

/-!
# Which outputs of a compiled script are exported

Resolving keeps the channels of a script apart, and its textures, but not the ones from the others:
a material may be called like the category of textures. A channel of such a material takes the entry
of the texture with its name. These are the only outputs that are lost, so every output is exported
exactly when there is no such pair of live outputs.
-/

namespace TextureScript

/-- No two channels of a compiled script have one key, and no two textures. -/
structure CompiledModule.SlotsDistinct (compiled : CompiledModule) : Prop where
  /-- Channels differ in their materials or their names. -/
  channels :
    (compiled.materialSlots.toList.map fun slot => (slot.material, slot.channel)).Nodup
  /-- Textures differ in their names. -/
  textures : (compiled.textureSlots.toList.map (·.name)).Nodup

/-- What does not depend on the numbers of slots is the same for slots and for outputs. -/
theorem map_mapIdx_eq_map {α β γ : Type} {slot : Nat → α → β} {ofSlot : β → γ} {ofOutput : α → γ}
    (same : ∀ index output, ofSlot (slot index output) = ofOutput output) (outputs : List α) :
    (outputs.mapIdx slot).map ofSlot = outputs.map ofOutput := by
  apply List.ext_getElem
  · simp
  · intro index _ _
    simp [same]

theorem Plan.materialSlots_keys (plan : Plan) :
    (plan.materialSlots.toList.map fun slot => (slot.material, slot.channel)) =
      plan.channels.toList.map fun output => (output.material, output.channel) := by
  rw [materialSlots, Array.toList_mapIdx]
  apply map_mapIdx_eq_map
  intro _ _
  rfl

theorem Plan.textureSlots_names (plan : Plan) :
    plan.textureSlots.toList.map (·.name) = plan.textures.toList.map (·.name) := by
  rw [textureSlots, Array.toList_mapIdx]
  apply map_mapIdx_eq_map
  intro _ _
  rfl

/-- The slots of a compiled script are distinct. -/
theorem slotsDistinct_of_compiled {content name : String} {inputs : List InputImage}
    {compiled : CompiledModule}
    (accepted : (compile content name inputs).compiled = some compiled) :
    compiled.SlotsDistinct := by
  obtain ⟨-, assembled⟩ := compiled_eq_some.mp accepted
  obtain ⟨-, rfl⟩ := Plan.assemble_eq_ok.mp assembled
  have distinct := (SourceText.ofString name content).script.resolve_outputsDistinct inputs
  constructor
  · rw [Plan.compiledModule, Plan.materialSlots_keys]
    exact distinct.channels
  · rw [Plan.compiledModule, Plan.textureSlots_names]
    exact distinct.textures

namespace Store

variable (store : Store) (compiled : CompiledModule) (memory : Wasm.Memory)

/-- How many slots hold live handles. -/
def liveSlotCount : Nat :=
  compiled.textureSlots.toList.countP (fun slot => (store.slotImage? memory slot.offset).isSome) +
    compiled.materialSlots.toList.countP (fun slot => (store.slotImage? memory slot.offset).isSome)

/-- Every output whose slot holds a live handle is exported, with an entry of its own. -/
structure ExportsEveryOutput : Prop where
  /-- There are as many images as live slots. -/
  count : (store.collect compiled memory).count = store.liveSlotCount compiled memory
  /-- The image of a texture stands under the category of textures and its name. -/
  textures : ∀ slot ∈ compiled.textureSlots.toList, ∀ image,
    store.slotImage? memory slot.offset = some image →
      (store.collect compiled memory).image? texturesCategory slot.name = some image
  /-- The image of a channel stands under its material and its name. -/
  channels : ∀ slot ∈ compiled.materialSlots.toList, ∀ image,
    store.slotImage? memory slot.offset = some image →
      (store.collect compiled memory).image? slot.material slot.channel = some image
  /-- No category is empty. -/
  noneEmpty : (store.collect compiled memory).NoneEmpty

/-- Whether a live texture has a key. -/
def hasLiveTexture (category name : String) : Bool :=
  compiled.textureSlots.toList.any fun slot =>
    (store.slotImage? memory slot.offset).isSome &&
      (texturesCategory, slot.name) == (category, name)

/-- The live channels that take the entry of a live texture. -/
def overriding : List MaterialSlot :=
  compiled.materialSlots.toList.filter fun slot =>
    (store.slotImage? memory slot.offset).isSome &&
      store.hasLiveTexture compiled memory slot.material slot.channel

variable {store compiled memory}

theorem mem_liveTextures {key : String × String} {image : Image} :
    (key, image) ∈ store.liveTextures compiled memory ↔
      ∃ slot ∈ compiled.textureSlots.toList, (texturesCategory, slot.name) = key ∧
        store.slotImage? memory slot.offset = some image := by
  simp only [liveTextures, List.mem_filterMap, Option.map_eq_some_iff, Prod.mk.injEq]
  constructor
  · rintro ⟨slot, member, _, live, same, rfl⟩
    exact ⟨slot, member, same, live⟩
  · rintro ⟨slot, member, same, live⟩
    exact ⟨slot, member, image, live, same, rfl⟩

theorem mem_liveChannels {key : String × String} {image : Image} :
    (key, image) ∈ store.liveChannels compiled memory ↔
      ∃ slot ∈ compiled.materialSlots.toList, (slot.material, slot.channel) = key ∧
        store.slotImage? memory slot.offset = some image := by
  simp only [liveChannels, List.mem_filterMap, Option.map_eq_some_iff, Prod.mk.injEq]
  constructor
  · rintro ⟨slot, member, _, live, same, rfl⟩
    exact ⟨slot, member, same, live⟩
  · rintro ⟨slot, member, same, live⟩
    exact ⟨slot, member, image, live, same, rfl⟩

/-- The keys of the live ones among some slots are some of the keys of all slots, in order. -/
theorem keys_filterMap_sublist {α : Type} (slots : List α) (key : α → String × String)
    (image? : α → Option Image) :
    ((slots.filterMap fun slot => (image? slot).map (key slot, ·)).map (·.1)).Sublist
      (slots.map key) := by
  induction slots with
  | nil => exact List.Sublist.slnil
  | cons slot slots ih =>
    cases live : image? slot with
    | none => simpa [live] using ih.cons (key slot)
    | some image => simpa [live] using ih.cons_cons (key slot)

/-- Live outputs are counted by their slots. -/
theorem countP_filterMap_keys {α : Type} (slots : List α) (key : α → String × String)
    (image? : α → Option Image) (counts : String × String → Bool) :
    (slots.filterMap fun slot => (image? slot).map (key slot, ·)).countP (fun output =>
        counts output.1) =
      slots.countP fun slot => (image? slot).isSome && counts (key slot) := by
  rw [List.countP_filterMap]
  congr 1
  funext slot
  cases image? slot <;> simp

theorem length_filterMap_keys {α : Type} (slots : List α) (key : α → String × String)
    (image? : α → Option Image) :
    (slots.filterMap fun slot => (image? slot).map (key slot, ·)).length =
      slots.countP fun slot => (image? slot).isSome := by
  simpa using countP_filterMap_keys slots key image? fun _ => true

/-- Live textures have distinct keys. -/
theorem nodup_liveTextures (store : Store) (memory : Wasm.Memory)
    (distinct : compiled.SlotsDistinct) :
    ((store.liveTextures compiled memory).map (·.1)).Nodup := by
  have keys : (compiled.textureSlots.toList.map fun slot =>
      (texturesCategory, slot.name)).Nodup := by
    have names := distinct.textures
    rw [List.Nodup, List.pairwise_map] at names ⊢
    apply names.imp
    intro first second different same
    exact different (congrArg Prod.snd same)
  exact keys.sublist (keys_filterMap_sublist _ _ _)

/-- Live channels have distinct keys. -/
theorem nodup_liveChannels (store : Store) (memory : Wasm.Memory)
    (distinct : compiled.SlotsDistinct) :
    ((store.liveChannels compiled memory).map (·.1)).Nodup :=
  distinct.channels.sublist (keys_filterMap_sublist _ _ _)

/-- Among outputs with distinct keys the one with a given key is found. -/
theorem lookup_reverse_of_mem {outputs : List ((String × String) × Image)}
    {key : String × String} {image : Image} (distinct : (outputs.map (·.1)).Nodup)
    (member : (key, image) ∈ outputs) : outputs.reverse.lookup key = some image := by
  induction outputs with
  | nil => simp at member
  | cons output outputs ih =>
    simp only [List.map_cons, List.nodup_cons] at distinct
    rw [List.reverse_cons, List.lookup_append]
    rcases List.mem_cons.mp member with rfl | later
    · have absent : outputs.reverse.lookup key = none := by
        rw [List.lookup_eq_none_iff]
        intro other inside
        have different : other.1 ≠ key := by
          rintro rfl
          exact distinct.1 (List.mem_map.mpr ⟨other, List.mem_reverse.mp inside, rfl⟩)
        simpa using different.symm
      simp [absent]
    · rw [ih distinct.2 later, Option.some_or]

/-- The image of a live channel stands under its material and its name. -/
theorem image?_of_channel (distinct : compiled.SlotsDistinct) {slot : MaterialSlot} {image : Image}
    (member : slot ∈ compiled.materialSlots.toList)
    (live : store.slotImage? memory slot.offset = some image) :
    (store.collect compiled memory).image? slot.material slot.channel = some image := by
  have found := lookup_reverse_of_mem (nodup_liveChannels store memory distinct)
    (mem_liveChannels.mpr ⟨slot, member, rfl, live⟩)
  rw [image?_collect, found, Option.some_or]

/-- The image of a live texture stands under its name, unless a live channel takes its entry. -/
theorem image?_of_texture (distinct : compiled.SlotsDistinct) {slot : TextureSlot} {image : Image}
    (member : slot ∈ compiled.textureSlots.toList)
    (live : store.slotImage? memory slot.offset = some image)
    (kept : ∀ channel ∈ store.overriding compiled memory, channel.channel ≠ slot.name) :
    (store.collect compiled memory).image? texturesCategory slot.name = some image := by
  have found := lookup_reverse_of_mem (nodup_liveTextures store memory distinct)
    (mem_liveTextures.mpr ⟨slot, member, rfl, live⟩)
  have absent : (store.liveChannels compiled memory).reverse.lookup (texturesCategory, slot.name) =
      none := by
    rw [List.lookup_eq_none_iff]
    rintro ⟨key, other⟩ inside
    obtain ⟨channel, listed, rfl, channelLive⟩ := mem_liveChannels.mp (List.mem_reverse.mp inside)
    simp only [ne_eq, bne_iff_ne, Prod.mk.injEq, not_and]
    intro sameCategory sameName
    refine kept channel ?_ sameName.symm
    simp only [overriding, hasLiveTexture, List.mem_filter, List.any_eq_true, Bool.and_eq_true,
      beq_iff_eq, Prod.mk.injEq]
    exact ⟨listed, by simp [channelLive], slot, member, by simp [live], sameCategory, sameName⟩
  rw [image?_collect, absent, found, Option.none_or]

/-- An entry is there after the textures were added exactly when a live texture has its key. -/
theorem isSome_image?_liveTextures (category name : String) :
    ((ExportedImages.addAll {} (store.liveTextures compiled memory)).image? category name).isSome =
      store.hasLiveTexture compiled memory category name := by
  have empty : ExportedImages.image? {} category name = none := by
    simp [ExportedImages.image?]
  rw [ExportedImages.image?_addAll, empty, Option.or_none, Bool.eq_iff_iff, List.lookup_isSome_iff]
  simp only [hasLiveTexture, List.any_eq_true, Bool.and_eq_true, Option.isSome_iff_exists,
    beq_iff_eq]
  constructor
  · rintro ⟨⟨key, image⟩, inside, same⟩
    obtain ⟨slot, member, rfl, live⟩ := mem_liveTextures.mp (List.mem_reverse.mp inside)
    exact ⟨slot, member, ⟨image, live⟩, same.symm⟩
  · rintro ⟨slot, member, ⟨image, live⟩, same⟩
    exact ⟨((texturesCategory, slot.name), image),
      List.mem_reverse.mpr (mem_liveTextures.mpr ⟨slot, member, rfl, live⟩), same.symm⟩

/-- Every live output is counted but for the textures whose entries are taken. -/
theorem count_collect (store : Store) (memory : Wasm.Memory)
    (distinct : compiled.SlotsDistinct) :
    (store.collect compiled memory).count + (store.overriding compiled memory).length =
      store.liveSlotCount compiled memory := by
  have textures := ExportedImages.count_addAll (nodup_liveTextures store memory distinct) {}
  have channels := ExportedImages.count_addAll (nodup_liveChannels store memory distinct)
    (ExportedImages.addAll {} (store.liveTextures compiled memory))
  -- nothing is taken before the textures are added
  have untaken : (store.liveTextures compiled memory).countP
      (fun output => (ExportedImages.image? {} output.1.1 output.1.2).isSome) = 0 := by
    simp [ExportedImages.image?]
  have none : ExportedImages.count {} = 0 := rfl
  have overrides : (store.liveChannels compiled memory).countP (fun output =>
        ((ExportedImages.addAll {} (store.liveTextures compiled memory)).image?
          output.1.1 output.1.2).isSome) = (store.overriding compiled memory).length := by
    simp only [isSome_image?_liveTextures]
    rw [overriding, ← List.countP_eq_length_filter]
    exact countP_filterMap_keys _ _ _ fun key =>
      store.hasLiveTexture compiled memory key.1 key.2
  have liveTextureCount : (store.liveTextures compiled memory).length =
      compiled.textureSlots.toList.countP
        fun slot => (store.slotImage? memory slot.offset).isSome :=
    length_filterMap_keys _ _ _
  have liveChannelCount : (store.liveChannels compiled memory).length =
      compiled.materialSlots.toList.countP
        fun slot => (store.slotImage? memory slot.offset).isSome :=
    length_filterMap_keys _ _ _
  rw [collect_eq, ExportedImages.addAll_append, liveSlotCount]
  omega

/-- Every live output of a compiled script is exported exactly when no live channel takes the entry
of a live texture. Whether or not one does, live channels are exported, live textures whose entries
are not taken are exported, each entry that is taken costs one image, and no category is empty. -/
theorem exportsEveryOutput_iff {content name : String} {inputs : List InputImage}
    {compiled : CompiledModule} (accepted : (compile content name inputs).compiled = some compiled)
    (store : Store) (memory : Wasm.Memory) :
    (store.ExportsEveryOutput compiled memory ↔ store.overriding compiled memory = []) ∧
      (store.collect compiled memory).count + (store.overriding compiled memory).length =
        store.liveSlotCount compiled memory ∧
      (∀ slot ∈ compiled.materialSlots.toList, ∀ image,
        store.slotImage? memory slot.offset = some image →
          (store.collect compiled memory).image? slot.material slot.channel = some image) ∧
      (∀ slot ∈ compiled.textureSlots.toList, ∀ image,
        store.slotImage? memory slot.offset = some image →
          (∀ channel ∈ store.overriding compiled memory, channel.channel ≠ slot.name) →
            (store.collect compiled memory).image? texturesCategory slot.name = some image) ∧
      (store.collect compiled memory).NoneEmpty := by
  have distinct := slotsDistinct_of_compiled accepted
  have counted := count_collect store memory distinct
  refine ⟨⟨?_, ?_⟩, counted, fun slot member image live => image?_of_channel distinct member live,
    fun slot member image live kept => image?_of_texture distinct member live kept,
    store.noneEmpty_collect compiled memory⟩
  · intro exported
    rw [exported.count] at counted
    exact List.eq_nil_of_length_eq_zero (by omega)
  · intro untaken
    rw [untaken, List.length_nil, Nat.add_zero] at counted
    refine ⟨counted, ?_, fun slot member image live => image?_of_channel distinct member live,
      store.noneEmpty_collect compiled memory⟩
    intro slot member image live
    apply image?_of_texture distinct member live
    simp [untaken]

/-- A store with a black image under the name `a` and a white one that was made of it. -/
def twoImages : Store where
  images := [(⟨1⟩, .filled 1 1 ⟨255, 255, 255, 255⟩), (⟨0⟩, .filled 1 1 ⟨0, 0, 0, 255⟩)]
  inputs := [⟨"a", ⟨0⟩⟩]
  next := ⟨2⟩
  totalBytes := 8

/-- Under distinct categories both images are exported. -/
theorem exportsEveryOutput_stone :
    ∃ compiled,
      (compile "(stone, a, PBRMetalness) = invert_color(a); export a;" defaultScriptName
        twoImages.inputs).compiled = some compiled ∧
      twoImages.ExportsEveryOutput compiled (.ofBytes ⟨#[1, 0, 0, 0, 0, 0, 0, 0]⟩) := by
  have evaluated : (compile "(stone, a, PBRMetalness) = invert_color(a); export a;"
      defaultScriptName twoImages.inputs).compiled.map (fun compiled =>
        twoImages.overriding compiled (.ofBytes ⟨#[1, 0, 0, 0, 0, 0, 0, 0]⟩)) = some [] := by
    decide +kernel
  obtain ⟨compiled, accepted, untaken⟩ := Option.map_eq_some_iff.mp evaluated
  exact ⟨compiled, accepted, (exportsEveryOutput_iff accepted _ _).1.mpr untaken⟩

/-- A material that is called like the category of textures takes the entry of a texture. -/
theorem not_exportsEveryOutput_textures :
    ∃ compiled,
      (compile "(textures, a, PBRMetalness) = invert_color(a); export a;" defaultScriptName
        twoImages.inputs).compiled = some compiled ∧
      ¬twoImages.ExportsEveryOutput compiled (.ofBytes ⟨#[1, 0, 0, 0, 0, 0, 0, 0]⟩) := by
  have evaluated : (compile "(textures, a, PBRMetalness) = invert_color(a); export a;"
      defaultScriptName twoImages.inputs).compiled.map (fun compiled =>
        (twoImages.overriding compiled (.ofBytes ⟨#[1, 0, 0, 0, 0, 0, 0, 0]⟩)).length) =
      some 1 := by
    decide +kernel
  obtain ⟨compiled, accepted, taken⟩ := Option.map_eq_some_iff.mp evaluated
  refine ⟨compiled, accepted, ?_⟩
  intro exported
  have counted := count_collect twoImages
    (.ofBytes ⟨#[1, 0, 0, 0, 0, 0, 0, 0]⟩) (slotsDistinct_of_compiled accepted)
  rw [exported.count] at counted
  omega

end Store

end TextureScript
