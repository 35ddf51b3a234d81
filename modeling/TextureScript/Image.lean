/-!
# Images

An image is a width, a height and four bytes for every pixel, row by row from the top: red, green,
blue and alpha. Nothing in the type ties the number of bytes to the sides; an image that the store
holds satisfies `Image.IsWellFormed`. Images are made pixel by pixel from a function of the
coordinates, so an operation is described by where the colour of each pixel comes from.
-/

namespace TextureScript

/-- The colour of a pixel. -/
structure Color where
  /-- Red. -/
  red : UInt8
  /-- Green. -/
  green : UInt8
  /-- Blue. -/
  blue : UInt8
  /-- Opacity. -/
  alpha : UInt8
deriving DecidableEq, Repr, Inhabited

/-- A raster image. -/
structure Image where
  /-- Pixels in a row. -/
  width : UInt32
  /-- Rows. -/
  height : UInt32
  /-- The bytes of the pixels. -/
  pixels : ByteArray
deriving Inhabited

namespace Image

/-- The number of bytes of a pixel. -/
def pixelSize : Nat := 4

/-- The number of bytes of an image with the given sides. -/
def byteCount (width height : UInt32) : Nat :=
  width.toNat * height.toNat * pixelSize

/-- An image has four bytes for every pixel. -/
def IsWellFormed (image : Image) : Prop :=
  image.pixels.size = byteCount image.width image.height

/-- The number of pixels that the sides of an image call for. -/
def pixelCount (image : Image) : Nat :=
  image.width.toNat * image.height.toNat

/-- The byte at a place, or zero past the end. -/
def byteAt (image : Image) (i : Nat) : UInt8 :=
  if h : i < image.pixels.size then image.pixels[i] else 0

/-- The colour whose first byte is at a place. -/
def colorFrom (image : Image) (i : Nat) : Color :=
  ⟨image.byteAt i, image.byteAt (i + 1), image.byteAt (i + 2), image.byteAt (i + 3)⟩

/-- The place of the first byte of a pixel. -/
def pixelStart (image : Image) (x y : Nat) : Nat :=
  (y * image.width.toNat + x) * pixelSize

/-- The colour at a column and a row. -/
def color (image : Image) (x y : Nat) : Color :=
  image.colorFrom (image.pixelStart x y)

/-- The colour at a column and a row, if the image has bytes there. A column beyond the width runs
on into the rows below. -/
def color? (image : Image) (x y : Nat) : Option Color :=
  if image.pixelStart x y + pixelSize ≤ image.pixels.size then some (image.color x y) else none

/-- Bytes with those of one more pixel. -/
def pushColor (bytes : ByteArray) (c : Color) : ByteArray :=
  (((bytes.push c.red).push c.green).push c.blue).push c.alpha

/-- The image whose colour at each column and row is given by a function. -/
def ofColors (width height : UInt32) (color : Nat → Nat → Color) : Image where
  width := width
  height := height
  pixels :=
    (width.toNat * height.toNat).fold
      (fun i _ bytes => pushColor bytes (color (i % width.toNat) (i / width.toNat)))
      (ByteArray.emptyWithCapacity (byteCount width height))

/-- An image of one colour. -/
def filled (width height : UInt32) (c : Color) : Image :=
  ofColors width height fun _ _ => c

/-- The image with every colour replaced. -/
def map (f : Color → Color) (image : Image) : Image :=
  ofColors image.width image.height fun x y => f (image.color x y)

/-- The image flipped left to right. -/
def flipHorizontal (image : Image) : Image :=
  ofColors image.width image.height fun x y => image.color (image.width.toNat - 1 - x) y

/-- The image flipped top to bottom. -/
def flipVertical (image : Image) : Image :=
  ofColors image.width image.height fun x y => image.color x (image.height.toNat - 1 - y)

/-- The image at another size, every pixel taking the nearest one at or before its place. -/
def resize (image : Image) (width height : UInt32) : Image :=
  ofColors width height fun x y =>
    image.color (x * image.width.toNat / width.toNat) (y * image.height.toNat / height.toNat)

end Image

/-- The byte nearest to a number. -/
def clampByte (n : Int) : UInt8 :=
  UInt8.ofNat (max 0 (min n 255)).toNat

/-- One of the four parts of a colour. -/
inductive Channel where
  | red
  | green
  | blue
  | alpha
deriving DecidableEq, Repr, Inhabited

/-- The channel with a given place in a pixel. -/
def Channel.ofIndex? : Nat → Option Channel
  | 0 => some red
  | 1 => some green
  | 2 => some blue
  | 3 => some alpha
  | _ => none

namespace Color

/-- The part of a colour that a channel names. -/
def get (c : Color) : Channel → UInt8
  | .red => c.red
  | .green => c.green
  | .blue => c.blue
  | .alpha => c.alpha

/-- The colour with red, green and blue replaced one by one. -/
def mapRgb (f : UInt8 → UInt8) (c : Color) : Color :=
  ⟨f c.red, f c.green, f c.blue, c.alpha⟩

/-- The colour with a number taken from red, green and blue; a negative number brightens. -/
def darken (value : Int32) (c : Color) : Color :=
  c.mapRgb fun part => clampByte (part.toNat - value.toInt)

/-- The complement of a colour. -/
def invert (c : Color) : Color :=
  c.mapRgb (255 - ·)

/-- The brightness of a colour, rounded to the nearest whole number. -/
def luma (c : Color) : Nat :=
  (299 * c.red.toNat + 587 * c.green.toNat + 114 * c.blue.toNat + 500) / 1000

/-- The grey of the same brightness. -/
def grayscale (c : Color) : Color :=
  let luma := UInt8.ofNat c.luma
  ⟨luma, luma, luma, c.alpha⟩

/-- One part of a colour as an opaque grey. -/
def mask (channel : Channel) (c : Color) : Color :=
  let part := c.get channel
  ⟨part, part, part, 255⟩

end Color

end TextureScript
