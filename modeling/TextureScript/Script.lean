import TextureScript.Source.Span

/-!
# Scripts

A script is a list of statements in source order. A statement binds a name to a value, routes a
value to a channel of a material, or exports names as textures. Values are numbers, names and calls
of operations. Every node records the span it was read from.
-/

namespace TextureScript

/-- A name and where it stands. -/
structure Name where
  /-- The name itself. -/
  text : String
  /-- Where it stands. -/
  span : Span
deriving DecidableEq, Repr, Inhabited

/-- A value as it is written. -/
inductive Expr where
  /-- A signed 32-bit number. -/
  | number (value : Int32) (span : Span)
  /-- A reference to a binding or an input. -/
  | name (text : String) (span : Span)
  /-- A call of an operation. -/
  | call (callee : Name) (args : List Expr) (span : Span)
deriving Repr, Inhabited

/-- Where a value stands. -/
def Expr.span : Expr → Span
  | number _ span => span
  | name _ span => span
  | call _ _ span => span

/-- A statement of a script. -/
inductive Statement where
  /-- Bind a name to a value. -/
  | bind (target : Name) (value : Expr) (span : Span)
  /-- Route an image to a channel of a material of the named type. -/
  | channel (material channel materialType : Name) (value : Expr) (span : Span)
  /-- Expose images as textures of their own. -/
  | exports (names : List Name) (span : Span)
deriving Repr, Inhabited

/-- Where a statement stands. -/
def Statement.span : Statement → Span
  | bind _ _ span => span
  | channel _ _ _ _ span => span
  | exports _ span => span

/-- A whole script. -/
structure Script where
  /-- The statements in source order. -/
  statements : List Statement
  /-- Where the script stands. -/
  span : Span
deriving Repr, Inhabited

end TextureScript
