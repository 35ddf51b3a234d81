import TextureScript.Store

/-!
# Operations on the store

An operation reads an image of the store, if it takes one, and keeps its result as a new image, so
that earlier handles keep their images. Room for the result is checked before the result is made. A
compiled module calls operations with words: a failure comes back as the word for no image, and an
operation that is given that word as its image answers with it.
-/

namespace TextureScript.Store

/-- The handle that a word stands for, which has to stand for one. -/
def handleArgument (raw : Int32) : Except StoreFault Handle :=
  match Handle.ofWire? raw with
  | some handle => .ok handle
  | none => .error (.unknownHandle ⟨raw.toUInt32⟩)

/-- Keep an image made of another one and of the same size. -/
def derive (store : Store) (handle : Handle) (make : Image → Except StoreFault Image) :
    Except StoreFault (Handle × Store) := do
  let source ← store.get handle
  store.ensureRoom source.width source.height
  store.insert (← make source)

/-- Keep an image with every colour replaced. -/
def mapColors (store : Store) (handle : Handle) (f : Color → Color) :
    Except StoreFault (Handle × Store) :=
  store.derive handle fun image => .ok (image.map f)

/-- Keep an image at another size. -/
def resize (store : Store) (handle : Handle) (width height : Int32) :
    Except StoreFault (Handle × Store) := do
  let (width, height) ← store.config.dimensions width.toInt height.toInt
  store.ensureRoom width height
  let source ← store.get handle
  store.insert (source.resize width height)

/-- Keep an image of one colour. -/
def blank (store : Store) (red green blue alpha width height : Int32) :
    Except StoreFault (Handle × Store) := do
  let (width, height) ← store.config.dimensions width.toInt height.toInt
  store.ensureRoom width height
  let color : Color :=
    ⟨clampByte red.toInt, clampByte green.toInt, clampByte blue.toInt, clampByte alpha.toInt⟩
  store.insert (.filled width height color)

/-- Keep one channel of an image, given by its place in a pixel, as an opaque grey. -/
def maskChannel (store : Store) (handle : Handle) (index : Nat) :
    Except StoreFault (Handle × Store) :=
  store.derive handle fun image =>
    match Channel.ofIndex? index with
    | some channel => .ok (image.map (Color.mask channel))
    | none => .error (.noSuchChannel index)

/-- Perform an operation of the catalogue with words as arguments. -/
def call (store : Store) (operation : Operation) (args : List Int32) :
    Except StoreFault (Handle × Store) :=
  match operation, args with
  | .resize, [image, width, height] => do
    store.resize (← handleArgument image) width height
  | .darken, [image, value] => do
    store.mapColors (← handleArgument image) (Color.darken value)
  | .blankImage, [red, green, blue, alpha, width, height] =>
    store.blank red green blue alpha width height
  | .grayscale, [image] => do
    store.mapColors (← handleArgument image) Color.grayscale
  | .invertColor, [image] => do
    store.mapColors (← handleArgument image) Color.invert
  | .flipHorizontal, [image] => do
    store.derive (← handleArgument image) fun image => .ok image.flipHorizontal
  | .flipVertical, [image] => do
    store.derive (← handleArgument image) fun image => .ok image.flipVertical
  | .maskRed, [image] => do
    store.mapColors (← handleArgument image) (Color.mask .red)
  | .maskGreen, [image] => do
    store.mapColors (← handleArgument image) (Color.mask .green)
  | .maskBlue, [image] => do
    store.mapColors (← handleArgument image) (Color.mask .blue)
  | operation, args => .error (.argumentCount operation args.length)

/-- Whether an operation is given the word for no image as one of its images. -/
def hasUnsetImage (operation : Operation) (args : List Int32) : Bool :=
  (operation.params.zip args).any fun (param, raw) =>
    param.kind == .image && raw == Handle.unset.toWire

/-- Perform an operation for a compiled module: the answer is the word for the new image, or the
word for no image. -/
def dispatch (store : Store) (operation : Operation) (args : List Int32) : Int32 × Store :=
  if hasUnsetImage operation args then (Handle.unset.toWire, store)
  else
    match store.call operation args with
    | .ok (handle, store) => (handle.toWire, store)
    | .error _ => (Handle.unset.toWire, store)

end TextureScript.Store
