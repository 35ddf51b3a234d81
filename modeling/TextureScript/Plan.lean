import TextureScript.Handle
import TextureScript.Material
import TextureScript.Operation
import TextureScript.Source.Span

/-!
# Plans

A plan is a script without names: inputs have become handles, and every value that takes work has
become a numbered binding, in the order in which the bindings are evaluated. Channels and textures
say which values leave the script.
-/

namespace TextureScript

/-- A value that needs no work. -/
inductive Operand where
  /-- An input image. -/
  | input (handle : Handle)
  /-- The value of the binding with the given number. -/
  | result (index : UInt32)
  /-- A number. -/
  | number (value : Int32)
deriving DecidableEq, Repr, Inhabited

/-- What a binding evaluates to. -/
inductive Value where
  /-- The result of an operation. -/
  | call (operation : Operation) (args : List Operand)
  /-- A value that is already there. -/
  | copy (operand : Operand)
deriving DecidableEq, Repr, Inhabited

/-- A step of a plan: a value that is computed once and can be referred to by its number. -/
structure Binding where
  /-- The name in the script; a call within a call has none. -/
  name : Option String
  /-- The kind of the value. -/
  kind : Kind
  /-- The value. -/
  value : Value
  /-- Where the value stands in the script. -/
  span : Span
deriving DecidableEq, Repr, Inhabited

/-- An image that is routed to a channel of a material. -/
structure ChannelOutput where
  /-- The name of the material. -/
  material : String
  /-- The channel. -/
  channel : String
  /-- The type of the material. -/
  materialType : MaterialType
  /-- The image. -/
  source : Operand
deriving DecidableEq, Repr, Inhabited

/-- An image that is exported as a texture. -/
structure TextureOutput where
  /-- The name of the texture. -/
  name : String
  /-- The image. -/
  source : Operand
deriving DecidableEq, Repr, Inhabited

/-- What a script does, step by step, and what it puts out. -/
structure Plan where
  /-- The steps, in order of evaluation. -/
  bindings : Array Binding := #[]
  /-- The material channels, in order of declaration. -/
  channels : Array ChannelOutput := #[]
  /-- The textures, in order of export. -/
  textures : Array TextureOutput := #[]
deriving DecidableEq, Repr, Inhabited

end TextureScript
