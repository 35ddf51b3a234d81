import TextureScript.Material

/-!
# Compiled scripts

A compiled script is the bytes of a module and where its outputs are found: each output has a slot,
a word in the module's memory that holds the handle of an image after the run.
-/

namespace TextureScript

/-- Where the image for a channel of a material is found. -/
structure MaterialSlot where
  /-- The address of the slot. -/
  offset : UInt32
  /-- The name of the material. -/
  material : String
  /-- The channel. -/
  channel : String
  /-- The type of the material. -/
  materialType : MaterialType
deriving DecidableEq, Repr, Inhabited

/-- Where the image for a texture is found. -/
structure TextureSlot where
  /-- The address of the slot. -/
  offset : UInt32
  /-- The name of the texture. -/
  name : String
deriving DecidableEq, Repr, Inhabited

/-- A compiled script. -/
structure CompiledModule where
  /-- The bytes of the module. -/
  wasm : ByteArray
  /-- The slots of the material channels. -/
  materialSlots : Array MaterialSlot
  /-- The slots of the textures. -/
  textureSlots : Array TextureSlot
  /-- The digest of the bytes. -/
  digest : String
deriving Inhabited

end TextureScript
