/-!
# The operation catalogue

Scripts build images with ten fixed operations. The order of the catalogue is the order in which
every compiled module imports them, so an operation's place is also its function index.
-/

namespace TextureScript

/-- The two kinds of value that a script handles. -/
inductive Kind where
  | image
  | number
deriving DecidableEq, Repr, Inhabited

namespace Kind

/-- The name of a kind in messages and signatures. -/
def name : Kind → String
  | .image => "image"
  | .number => "number"

/-- The name of a kind after its indefinite article. -/
def withArticle : Kind → String
  | .image => "an image"
  | .number => "a number"

end Kind

/-- A parameter of an operation. -/
structure Parameter where
  /-- The name shown in signatures. -/
  name : String
  /-- The kind of value it takes. -/
  kind : Kind
deriving DecidableEq, Repr, Inhabited

/-- The image operations that a script can call. -/
inductive Operation where
  | resize
  | darken
  | blankImage
  | grayscale
  | invertColor
  | flipHorizontal
  | flipVertical
  | maskRed
  | maskGreen
  | maskBlue
deriving DecidableEq, Repr, Inhabited

namespace Operation

/-- The catalogue, in import order. -/
def all : List Operation :=
  [resize, darken, blankImage, grayscale, invertColor, flipHorizontal, flipVertical,
    maskRed, maskGreen, maskBlue]

/-- The name by which scripts call an operation and modules import it. -/
def name : Operation → String
  | resize => "resize"
  | darken => "darken"
  | blankImage => "blank_image"
  | grayscale => "grayscale"
  | invertColor => "invert_color"
  | flipHorizontal => "flip_horizontal"
  | flipVertical => "flip_vertical"
  | maskRed => "mask_channel_r"
  | maskGreen => "mask_channel_g"
  | maskBlue => "mask_channel_b"

/-- The operation with a given name. -/
def ofName? (name : String) : Option Operation :=
  all.find? (·.name == name)

/-- The parameters of an operation, in order. -/
def params : Operation → List Parameter
  | resize => [⟨"image", .image⟩, ⟨"new_width", .number⟩, ⟨"new_height", .number⟩]
  | darken => [⟨"image", .image⟩, ⟨"value", .number⟩]
  | blankImage =>
    [⟨"r", .number⟩, ⟨"g", .number⟩, ⟨"b", .number⟩, ⟨"a", .number⟩,
      ⟨"width", .number⟩, ⟨"height", .number⟩]
  | _ => [⟨"image", .image⟩]

/-- How many arguments an operation takes. -/
def arity (op : Operation) : Nat :=
  op.params.length

/-- The place of an operation in the catalogue, which is its function index in every module. -/
def importIndex : Operation → Nat
  | resize => 0
  | darken => 1
  | blankImage => 2
  | grayscale => 3
  | invertColor => 4
  | flipHorizontal => 5
  | flipVertical => 6
  | maskRed => 7
  | maskGreen => 8
  | maskBlue => 9

/-- The place of an operation's function type among the types of every module: the entry point's
type comes first, then one type for each number of arguments that occurs. -/
def typeIndex (op : Operation) : Nat :=
  match op.arity with
  | 1 => 1
  | 2 => 2
  | 3 => 3
  | _ => 4

/-- What an operation does, for readers of the reference. -/
def description : Operation → String
  | resize => "Nearest-neighbour resample to new_width × new_height"
  | darken => "Subtract value from R, G and B, clamped to [0, 255]; a negative value brightens"
  | blankImage => "New width × height image filled with one RGBA colour"
  | grayscale => "Replace R, G and B with luminance (0.299R + 0.587G + 0.114B)"
  | invertColor => "255 minus each of R, G and B; alpha unchanged"
  | flipHorizontal => "Mirror left to right"
  | flipVertical => "Mirror top to bottom"
  | maskRed => "Broadcast the red channel into R, G and B; alpha opaque"
  | maskGreen => "Broadcast the green channel into R, G and B; alpha opaque"
  | maskBlue => "Broadcast the blue channel into R, G and B; alpha opaque"

/-- A statement that uses an operation. -/
def usage : Operation → String
  | resize => "small = resize(albedo, 256, 256);"
  | darken => "shadow = darken(albedo, 40);"
  | blankImage => "white = blank_image(255, 255, 255, 255, 512, 512);"
  | grayscale => "rough = grayscale(albedo);"
  | invertColor => "gloss = invert_color(rough);"
  | flipHorizontal => "mirrored = flip_horizontal(albedo);"
  | flipVertical => "upside = flip_vertical(albedo);"
  | maskRed => "metal = mask_channel_r(packed);"
  | maskGreen => "rough = mask_channel_g(packed);"
  | maskBlue => "ao = mask_channel_b(packed);"

/-- The signature of an operation: its parameters with their kinds, and its result. -/
def signature (op : Operation) : String :=
  let params := String.intercalate ", " (op.params.map fun p => s!"{p.name}: {p.kind.name}")
  s!"{op.name}({params}) -> {Kind.image.name}"

end Operation

end TextureScript
