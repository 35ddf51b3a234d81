import Std.Data.TreeMap
import TextureScript.Compiled
import TextureScript.Store
import TextureScript.Wasm.Memory

/-!
# Exporting outputs

After a run the slots of a module hold the handles of its outputs. Images are exported by category
and name: textures together under one category, material channels under the name of their material.
A slot that holds no handle of an image in the store is left out, and so is a category without
images.
-/

namespace TextureScript

/-- The category of textures. -/
def texturesCategory : String := "textures"

/-- Images by category and name. -/
abbrev ExportedImages := Std.TreeMap String (Std.TreeMap String Image)

/-- The image of an input or output by its name, the last one counting. -/
def Store.exportImages (store : Store) (requested : List (String × Handle)) :
    Std.TreeMap String Image :=
  requested.foldl
    (fun images (name, handle) =>
      match store.image? handle with
      | some image => images.insert name image
      | none => images)
    {}

/-- The handle that a slot holds. -/
def readSlot (memory : Wasm.Memory) (offset : UInt32) : Option Handle :=
  (memory.word? offset.toNat).bind Handle.ofWire?

/-- Add an image under a category and a name. -/
def ExportedImages.add (exported : ExportedImages) (category name : String) (image : Image) :
    ExportedImages :=
  exported.insert category ((exported.getD category {}).insert name image)

/-- The outputs of a module, read from its memory. -/
def Store.collect (store : Store) (compiled : CompiledModule) (memory : Wasm.Memory) :
    ExportedImages :=
  let textures := store.exportImages
    (compiled.textureSlots.toList.filterMap fun slot =>
      (readSlot memory slot.offset).map (slot.name, ·))
  let exported : ExportedImages :=
    if textures.isEmpty then {} else ({} : ExportedImages).insert texturesCategory textures
  compiled.materialSlots.foldl
    (fun exported slot =>
      match (readSlot memory slot.offset).bind store.image? with
      | some image => exported.add slot.material slot.channel image
      | none => exported)
    exported

end TextureScript
