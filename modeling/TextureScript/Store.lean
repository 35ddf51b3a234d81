import TextureScript.Handle
import TextureScript.Image
import TextureScript.Operation

/-!
# The image store

The store keeps images under handles. Handles count up from zero and are not used again until the
store is reset. Inputs are images with a name; adding an image under a name that is taken replaces
the image and keeps the handle. The store limits the sides of an image, the number of images and the
bytes of all of them together. An operation on the store that fails gives no new store, so it
changes nothing.
-/

namespace TextureScript

/-- Why the store refuses something. -/
inductive StoreFault where
  /-- A side is below one or above the limit. -/
  | invalidDimension (width height : Int) (max : UInt32)
  /-- No image has the handle. -/
  | unknownHandle (handle : Handle)
  /-- The bytes do not fit the sides. -/
  | pixelLengthMismatch (expected actual : Nat)
  /-- There is no room for another image. -/
  | full (max : Nat)
  /-- The bytes would exceed the limit. -/
  | byteLimitExceeded (requested limit : Nat)
  /-- No input has the name. -/
  | unknownInput (name : String)
  /-- Another input has the name. -/
  | nameTaken (name : String)
  /-- An operation is given the wrong number of arguments. -/
  | argumentCount (operation : Operation) (given : Nat)
  /-- Colours have no such channel. -/
  | noSuchChannel (index : Nat)
deriving DecidableEq, Repr, Inhabited

/-- What a fault says. -/
def StoreFault.message : StoreFault → String
  | invalidDimension width height max =>
    s!"invalid dimension {width}x{height} (each side must be 1..={max})"
  | unknownHandle handle => s!"unknown image handle {handle.render}"
  | pixelLengthMismatch expected actual => s!"expected {expected} RGBA bytes, got {actual}"
  | full max => s!"image store is full ({max} images)"
  | byteLimitExceeded requested limit =>
    s!"storing {requested} more bytes would exceed the {limit}-byte image budget"
  | unknownInput name => s!"no input image named '{name}'"
  | nameTaken name => s!"an input image named '{name}' already exists, choose another name"
  | argumentCount operation given =>
    s!"host error: {operation.name} takes {operation.arity} arguments, got {given}"
  | noSuchChannel index => s!"colours have no channel {index}"

/-- The limits of a store. -/
structure StoreConfig where
  /-- The longest side. -/
  maxDimension : UInt32 := 8192
  /-- The most images. -/
  maxImages : Nat := 4096
  /-- The most bytes of all images together. -/
  maxTotalBytes : Nat := 1073741824
deriving DecidableEq, Repr, Inhabited

/-- Check the sides of an image. -/
def StoreConfig.dimensions (config : StoreConfig) (width height : Int) :
    Except StoreFault (UInt32 × UInt32) :=
  let max : Int := config.maxDimension.toNat
  if 1 ≤ width ∧ width ≤ max ∧ 1 ≤ height ∧ height ≤ max then
    .ok (UInt32.ofNat width.toNat, UInt32.ofNat height.toNat)
  else .error (.invalidDimension width height config.maxDimension)

/-- Make an image of bytes that fit its sides. -/
def Image.ofBytes (width height : UInt32) (pixels : ByteArray) : Except StoreFault Image :=
  if pixels.size = byteCount width height then .ok ⟨width, height, pixels⟩
  else .error (.pixelLengthMismatch (byteCount width height) pixels.size)

/-- Images under handles, some of them with names. -/
structure Store where
  /-- The limits. -/
  config : StoreConfig := {}
  /-- The images, the newest first. -/
  images : List (Handle × Image) := []
  /-- The inputs, in the order in which they were added. -/
  inputs : List InputImage := []
  /-- The handle of the next image. -/
  next : Handle := ⟨0⟩
  /-- The bytes of all images. -/
  totalBytes : Nat := 0
deriving Inhabited

namespace Store

/-- The image under a handle. -/
def image? (store : Store) (handle : Handle) : Option Image :=
  store.images.lookup handle

/-- The image under a handle, which has to be there. -/
def get (store : Store) (handle : Handle) : Except StoreFault Image :=
  match store.image? handle with
  | some image => .ok image
  | none => .error (.unknownHandle handle)

/-- Check that there is room for some bytes when others are given up. -/
def checkBytes (store : Store) (requested freed : Nat) : Except StoreFault Unit :=
  if store.totalBytes - freed + requested ≤ store.config.maxTotalBytes then .ok ()
  else .error (.byteLimitExceeded requested store.config.maxTotalBytes)

/-- Check that there is room for an image with the given sides. -/
def ensureRoom (store : Store) (width height : UInt32) : Except StoreFault Unit :=
  store.checkBytes (Image.byteCount width height) 0

/-- Keep an image under the next handle. -/
def insert (store : Store) (image : Image) : Except StoreFault (Handle × Store) := do
  let _ ← store.config.dimensions image.width.toNat image.height.toNat
  let _ ← Image.ofBytes image.width image.height image.pixels
  store.checkBytes image.pixels.size 0
  if store.config.maxImages ≤ store.images.length ∨ store.next.isUnset then
    .error (.full store.config.maxImages)
  else
    .ok (store.next,
      { store with
        images := (store.next, image) :: store.images
        next := ⟨store.next.number + 1⟩
        totalBytes := store.totalBytes + image.pixels.size })

/-- The handle of the input with a name. -/
def inputHandle? (store : Store) (name : String) : Option Handle :=
  (store.inputs.find? (·.name == name)).map (·.handle)

/-- Whether there is an input with a name. -/
def containsInput (store : Store) (name : String) : Bool :=
  (store.inputHandle? name).isSome

/-- The names of the inputs, in the order in which they were added. -/
def inputNames (store : Store) : List String :=
  store.inputs.map (·.name)

/-- Put another image under a handle. -/
def replaceImage (store : Store) (handle : Handle) (image : Image) :
    Except StoreFault Store := do
  let freed := ((store.image? handle).map (·.pixels.size)).getD 0
  store.checkBytes image.pixels.size freed
  .ok
    { store with
      images := store.images.map fun entry => if entry.1 = handle then (handle, image) else entry
      totalBytes := store.totalBytes - freed + image.pixels.size }

/-- Add an input, or replace the image of the input that has the name. -/
def addInput (store : Store) (name : String) (width height : UInt32) (pixels : ByteArray) :
    Except StoreFault (Handle × Store) := do
  let _ ← store.config.dimensions width.toNat height.toNat
  let image ← Image.ofBytes width height pixels
  match store.inputHandle? name with
  | some handle =>
    let store ← store.replaceImage handle image
    .ok (handle, store)
  | none =>
    let (handle, store) ← store.insert image
    .ok (handle, { store with inputs := store.inputs ++ [⟨name, handle⟩] })

/-- Give an input another name. -/
def renameInput (store : Store) (old new : String) : Except StoreFault Store :=
  if old = new then .ok store
  else if store.containsInput new then .error (.nameTaken new)
  else if store.containsInput old then
    .ok
      { store with
        inputs := store.inputs.map fun input =>
          if input.name = old then { input with name := new } else input }
  else .error (.unknownInput old)

/-- Remove an input and its image, and give the image. -/
def removeInput (store : Store) (name : String) : Option Image × Store :=
  match store.inputHandle? name with
  | none => (none, store)
  | some handle =>
    let store := { store with inputs := store.inputs.eraseP (·.name == name) }
    match store.image? handle with
    | none => (none, store)
    | some image =>
      (some image,
        { store with
          images := store.images.filter (·.1 ≠ handle)
          totalBytes := store.totalBytes - image.pixels.size })

/-- The bytes of some images together. -/
def bytesOf (images : List (Handle × Image)) : Nat :=
  images.foldr (fun entry total => entry.2.pixels.size + total) 0

/-- Remove every image that is not an input. Handles are not used again. -/
def clearGenerated (store : Store) : Store :=
  let images := store.images.filter fun entry => store.inputs.any (·.handle == entry.1)
  { store with images, totalBytes := bytesOf images }

/-- Remove everything, and count handles from zero again. -/
def reset (store : Store) : Store :=
  { config := store.config }

end Store

end TextureScript
