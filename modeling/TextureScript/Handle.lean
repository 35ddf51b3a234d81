/-!
# Handles

A handle names an image of the store. Compiled modules pass handles as signed 32-bit words; the
largest such word is kept back to say that there is no image, and a negative word names none either.
-/

namespace TextureScript

/-- The number under which the store keeps an image. -/
structure Handle where
  /-- The number itself. -/
  number : UInt32
deriving DecidableEq, Repr, Inhabited

namespace Handle

/-- The handle that names no image. -/
def unset : Handle := ⟨2147483647⟩

/-- Whether a handle is the one that names no image. -/
def isUnset (h : Handle) : Bool :=
  h == unset

/-- The word that stands for a handle in a compiled module. -/
def toWire (h : Handle) : Int32 :=
  h.number.toInt32

/-- The handle that a word stands for; negative words and the one for `unset` stand for none. -/
def ofWire? (raw : Int32) : Option Handle :=
  if raw < 0 ∨ raw = unset.toWire then none else some ⟨raw.toUInt32⟩

/-- A handle is shown as its number after a hash. -/
def render (h : Handle) : String :=
  s!"#{h.number}"

end Handle

/-- An image that a script can refer to by name. -/
structure InputImage where
  /-- The name scripts use. -/
  name : String
  /-- The image that the name stands for. -/
  handle : Handle
deriving DecidableEq, Repr, Inhabited

end TextureScript
