import TextureScript.Assembly
import TextureScript.Json
import TextureScript.Material
import TextureScript.Operation

/-!
# The script reference

Two texts describe the language to its users: a reference for reading and a table for tools. Both
are made from the catalogue, so they cannot fall behind it.
-/

namespace TextureScript

namespace Reference

/-- What the reference says before it lists the operations. -/
def preamble : String :=
  String.join (List.map (· ++ "\n")
    ["# Coocoo script reference",
      "",
      "Scripts build material textures from input images. Statements end with `;`.",
      "Comments: `// line` and `/* block */`.",
      "",
      "```",
      "name = intrinsic(arg, ...);              // bind a result (single assignment)",
      "(material, channel, MaterialType) = x;   // route an image to a material channel",
      "export a, b;                             // expose images as standalone textures",
      "```",
      "",
      "Arguments are input image names, earlier bindings, whole numbers or nested",
      "calls. Images are referenced by handle; a failed operation yields no image and",
      "the channels fed by it are left out of the export.",
      ""])

/-- The entry of an operation. -/
def operationEntry (op : Operation) : String :=
  s!"- `{op.signature}`\n  {op.description}\n  e.g. `{op.usage}`\n"

/-- The entry of a material type. -/
def materialEntry (m : MaterialType) : String :=
  let channels := String.intercalate ", " m.channels
  s!"- `{m.tag}`: {channels}\n"

end Reference

open Reference in
/-- The reference for reading. -/
def scriptReference : String :=
  preamble ++ "## Intrinsics\n\n" ++ String.join (Operation.all.map operationEntry) ++
    "\n## Material types\n\n" ++ String.join (MaterialType.known.map materialEntry)

namespace Reference

/-- The record of a parameter. -/
def parameterRecord (p : Parameter) : Json :=
  .object [("name", .string p.name), ("kind", .string p.kind.name)]

/-- The record of an operation. -/
def operationRecord (op : Operation) : Json :=
  .object
    [("name", .string op.name), ("import_index", .integer op.importIndex),
      ("signature", .string op.signature), ("params", .array (op.params.map parameterRecord)),
      ("description", .string op.description), ("example", .string op.usage)]

/-- The record of a material type. -/
def materialRecord (m : MaterialType) : Json :=
  .object [("name", .string m.tag), ("channels", .array (m.channels.map .string))]

end Reference

open Reference in
/-- The table for tools. -/
def operationTable : String :=
  Json.pretty
    (.object
      [("version", .string Assembly.version), ("import_module", .string Wasm.importGroup),
        ("intrinsics", .array (Operation.all.map operationRecord)),
        ("material_types", .array (MaterialType.known.map materialRecord))])

end TextureScript
