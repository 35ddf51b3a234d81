import TextureScript.Compiler
import TextureScript.Json
import TextureScript.Store

/-!
# The tooling format

How the values that tools exchange with the compiler are written as documents and read back. Fields
that are not known are passed over. A diagnostic is always an object, because the fields of its span
stand among its own; any other record may also be an array of its fields in order. An advice or a
module that is not there is not written.
-/

namespace TextureScript

namespace Severity

/-- The names of the severities. -/
def variants : List (String × Severity) :=
  [("error", .error), ("warning", .warning)]

/-- A severity is written as its name. -/
def toJson : Severity → Json
  | .error => .string "error"
  | .warning => .string "warning"

/-- Read a severity. -/
def ofJson? (document : Json) : Option Severity :=
  document.variant? variants

end Severity

namespace Category

/-- A category is written as its name. -/
def toJson (c : Category) : Json :=
  .string c.name

/-- Read a category. -/
def ofJson? (document : Json) : Option Category :=
  document.variant? ([form, call, scope, material, structural].map fun c => (c.name, c))

end Category

namespace Kind

/-- A kind is written as its name. -/
def toJson (k : Kind) : Json :=
  .string k.name

/-- Read a kind. -/
def ofJson? (document : Json) : Option Kind :=
  document.variant? ([image, number].map fun k => (k.name, k))

end Kind

namespace Operation

/-- An operation is written as its name. -/
def toJson (op : Operation) : Json :=
  .string op.name

/-- Read an operation. -/
def ofJson? (document : Json) : Option Operation :=
  document.variant? (all.map fun op => (op.name, op))

end Operation

namespace MaterialType

/-- A material type is written as its tag. -/
def toJson (m : MaterialType) : Json :=
  .string m.tag

/-- Read a material type. -/
def ofJson? (document : Json) : Option MaterialType :=
  document.string?.map ofTag

end MaterialType

namespace Span

/-- The names of the fields of a span. -/
def fieldNames : List String := ["line", "column", "end_line", "end_column"]

/-- The fields of a span. -/
def fields (s : Span) : List (String × Json) :=
  [("line", .integer s.start.line.toNat), ("column", .integer s.start.column.toNat),
    ("end_line", .integer s.stop.line.toNat), ("end_column", .integer s.stop.column.toNat)]

/-- A span is written as its two positions. -/
def toJson (s : Span) : Json :=
  .object s.fields

/-- Read a span from its fields. -/
def ofFields? : List (Option Json) → Option Span
  | [line, column, endLine, endColumn] => do
    let line ← (← line).uint32?
    let column ← (← column).uint32?
    let endLine ← (← endLine).uint32?
    let endColumn ← (← endColumn).uint32?
    some ⟨⟨line, column⟩, ⟨endLine, endColumn⟩⟩
  | _ => none

/-- Read a span. -/
def ofJson? (document : Json) : Option Span :=
  (document.record? fieldNames 4).bind ofFields?

end Span

namespace Diagnostic

/-- A diagnostic is written with the fields of its span among its own. -/
def toJson (d : Diagnostic) : Json :=
  .object
    ([("file", .string d.file), ("code", .integer d.code.number.toNat),
        ("severity", d.severity.toJson), ("category", d.category.toJson),
        ("message", .string d.message)] ++
      d.span.fields ++ [("source_line", .string d.sourceLine)] ++
      match d.suggestion with
      | some suggestion => [("suggestion", .string suggestion)]
      | none => [])

/-- Read a diagnostic. -/
def ofJson? : Json → Option Diagnostic
  | .object fields => do
    let file ← (← fields.lookup "file").string?
    let code ← (← fields.lookup "code").uint16?
    let severity ← Severity.ofJson? (← fields.lookup "severity")
    let category ← Category.ofJson? (← fields.lookup "category")
    let message ← (← fields.lookup "message").string?
    let span ← Span.ofFields? (Span.fieldNames.map fun name => fields.lookup name)
    let sourceLine ← (← fields.lookup "source_line").string?
    let suggestion ← Json.optional? Json.string? (fields.lookup "suggestion")
    some ⟨file, ⟨code⟩, severity, category, message, span, sourceLine, suggestion⟩
  | _ => none

end Diagnostic

namespace Report

/-- A report is written with its counts. -/
def toJson (r : Report) : Json :=
  .object
    [("errors", .array (r.errors.toList.map Diagnostic.toJson)),
      ("warnings", .array (r.warnings.toList.map Diagnostic.toJson)),
      ("total_errors", .integer r.totalErrors), ("total_warnings", .integer r.totalWarnings)]

/-- Read a report. -/
def ofJson? (document : Json) : Option Report := do
  match ← document.record? ["errors", "warnings", "total_errors", "total_warnings"] 4 with
  | [errors, warnings, totalErrors, totalWarnings] =>
    let errors ← (← errors).list? Diagnostic.ofJson?
    let warnings ← (← warnings).list? Diagnostic.ofJson?
    let totalErrors ← (← totalErrors).count?
    let totalWarnings ← (← totalWarnings).count?
    some ⟨errors.toArray, warnings.toArray, totalErrors, totalWarnings⟩
  | _ => none

end Report

namespace Json

/-- Bytes are written as a list of numbers. -/
def ofBytes (bytes : ByteArray) : Json :=
  .array (bytes.data.toList.map fun b => .integer b.toNat)

/-- Read bytes. -/
def bytes? (document : Json) : Option ByteArray :=
  (document.list? uint8?).map List.toByteArray

end Json

namespace MaterialSlot

/-- A slot is written with what it is for. -/
def toJson (s : MaterialSlot) : Json :=
  .object
    [("offset", .integer s.offset.toNat), ("material", .string s.material),
      ("channel", .string s.channel), ("material_type", s.materialType.toJson)]

/-- Read a slot. -/
def ofJson? (document : Json) : Option MaterialSlot := do
  match ← document.record? ["offset", "material", "channel", "material_type"] 4 with
  | [offset, material, channel, materialType] =>
    let offset ← (← offset).uint32?
    let material ← (← material).string?
    let channel ← (← channel).string?
    let materialType ← MaterialType.ofJson? (← materialType)
    some ⟨offset, material, channel, materialType⟩
  | _ => none

end MaterialSlot

namespace TextureSlot

/-- A slot is written with what it is for. -/
def toJson (s : TextureSlot) : Json :=
  .object [("offset", .integer s.offset.toNat), ("name", .string s.name)]

/-- Read a slot. -/
def ofJson? (document : Json) : Option TextureSlot := do
  match ← document.record? ["offset", "name"] 2 with
  | [offset, name] =>
    let offset ← (← offset).uint32?
    let name ← (← name).string?
    some ⟨offset, name⟩
  | _ => none

end TextureSlot

namespace CompiledModule

/-- A compiled script is written with its slots and its digest. -/
def toJson (c : CompiledModule) : Json :=
  .object
    [("wasm", .ofBytes c.wasm),
      ("material_slots", .array (c.materialSlots.toList.map MaterialSlot.toJson)),
      ("texture_slots", .array (c.textureSlots.toList.map TextureSlot.toJson)),
      ("wasm_sha256", .string c.digest)]

/-- Read a compiled script. -/
def ofJson? (document : Json) : Option CompiledModule := do
  match ← document.record? ["wasm", "material_slots", "texture_slots", "wasm_sha256"] 4 with
  | [wasm, materialSlots, textureSlots, digest] =>
    let wasm ← (← wasm).bytes?
    let materialSlots ← (← materialSlots).list? MaterialSlot.ofJson?
    let textureSlots ← (← textureSlots).list? TextureSlot.ofJson?
    let digest ← (← digest).string?
    some ⟨wasm, materialSlots.toArray, textureSlots.toArray, digest⟩
  | _ => none

end CompiledModule

/-- The outcome of a compilation as tools see it. -/
structure CompileResult where
  /-- Whether there is a compiled script. -/
  success : Bool
  /-- The compiled script. -/
  compiled : Option CompiledModule
  /-- The problems found. -/
  report : Report
deriving Inhabited

/-- What tools see of a compilation. -/
def Compilation.result (c : Compilation) : CompileResult :=
  ⟨c.compiled.isSome, c.compiled, c.report⟩

namespace CompileResult

/-- An outcome is written without a module when there is none. -/
def toJson (r : CompileResult) : Json :=
  .object
    ([("success", .bool r.success)] ++
      (match r.compiled with
        | some compiled => [("module", compiled.toJson)]
        | none => []) ++
      [("errors", r.report.toJson)])

/-- Read an outcome. -/
def ofJson? (document : Json) : Option CompileResult := do
  match ← document.record? ["success", "module", "errors"] 3 with
  | [success, compiled, report] =>
    let success ← (← success).bool?
    let compiled ← Json.optional? CompiledModule.ofJson? compiled
    let report ← Report.ofJson? (← report)
    some ⟨success, compiled, report⟩
  | _ => none

end CompileResult

namespace InputImage

/-- An input is written with its handle. -/
def toJson (i : InputImage) : Json :=
  .object [("name", .string i.name), ("handle", .integer i.handle.number.toNat)]

/-- Read an input. -/
def ofJson? (document : Json) : Option InputImage := do
  match ← document.record? ["name", "handle"] 2 with
  | [name, handle] =>
    let name ← (← name).string?
    let handle ← (← handle).uint32?
    some ⟨name, ⟨handle⟩⟩
  | _ => none

end InputImage

namespace Image

/-- An image is written with its sides. -/
def toJson (image : Image) : Json :=
  .object
    [("width", .integer image.width.toNat), ("height", .integer image.height.toNat),
      ("pixels", .ofBytes image.pixels)]

/-- Read an image. Its bytes need not fit its sides. -/
def ofJson? (document : Json) : Option Image := do
  match ← document.record? ["width", "height", "pixels"] 3 with
  | [width, height, pixels] =>
    let width ← (← width).uint32?
    let height ← (← height).uint32?
    let pixels ← (← pixels).bytes?
    some ⟨width, height, pixels⟩
  | _ => none

end Image

namespace StoreConfig

/-- Limits are written with all their fields. -/
def toJson (c : StoreConfig) : Json :=
  .object
    [("max_dimension", .integer c.maxDimension.toNat), ("max_images", .integer c.maxImages),
      ("max_total_bytes", .integer c.maxTotalBytes)]

/-- Read limits; those that are missing are the usual ones. -/
def ofJson? (document : Json) : Option StoreConfig := do
  match ← document.record? ["max_dimension", "max_images", "max_total_bytes"] 0 with
  | [maxDimension, maxImages, maxTotalBytes] =>
    let usual : StoreConfig := {}
    let maxDimension ← Json.defaulted? Json.uint32? usual.maxDimension maxDimension
    let maxImages ← Json.defaulted? Json.count? usual.maxImages maxImages
    let maxTotalBytes ← Json.defaulted? Json.count? usual.maxTotalBytes maxTotalBytes
    some ⟨maxDimension, maxImages, maxTotalBytes⟩
  | _ => none

end StoreConfig

end TextureScript
