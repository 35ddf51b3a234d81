import TextureScript.Proofs.Store.Export
import TextureScript.Script
import TextureScript.Store.Run

/-!
# What a script means

A script is followed statement by statement, without a plan and without a machine. A number stands
for itself, a name for the value that was bound to it or for the handle of the input with that name.
The arguments of a call are evaluated from left to right, and then the host performs the operation.
Channels and exports record values, and in the end the recorded values that are handles of images in
the store are exported. A name without a meaning, or a call of an operation that does not exist, has
no value.
-/

namespace TextureScript

mutual

/-- The value of an expression, and the state of the host after it. -/
def Expr.eval {σ : Type} (perform : Wasm.Host σ) (meaning : String → Option Int32) :
    Expr → σ → Option (Int32 × σ)
  | .number value _, host => some (value, host)
  | .name text _, host => (meaning text).map (·, host)
  | .call callee args _, host => do
    let operation ← Operation.ofName? callee.text
    let (words, host) ← evalAll perform meaning args host
    some (perform operation words host)

/-- The values of some expressions, evaluated from left to right. -/
def Expr.evalAll {σ : Type} (perform : Wasm.Host σ) (meaning : String → Option Int32) :
    List Expr → σ → Option (List Int32 × σ)
  | [], host => some ([], host)
  | arg :: args, host => do
    let (word, host) ← eval perform meaning arg host
    let (words, host) ← evalAll perform meaning args host
    some (word :: words, host)

end

/-- How far a script was followed. -/
structure Progress (σ : Type) where
  /-- The values of the bound names, the newest first. -/
  values : List (String × Int32) := []
  /-- The values recorded for channels, by material and channel, in order. -/
  channels : List ((String × String) × Int32) := []
  /-- The values recorded for textures, by name, in order. -/
  textures : List (String × Int32) := []
  /-- The state of the host. -/
  host : σ

namespace Progress

/-- What a name stands for: a bound value, or else an input. -/
def meaning {σ : Type} (p : Progress σ) (inputs : List InputImage) (name : String) :
    Option Int32 :=
  (p.values.lookup name).or ((inputs.find? (·.name == name)).map (·.handle.toWire))

/-- Record the value of a name as a texture. -/
def recordTexture {σ : Type} (inputs : List InputImage) (p : Progress σ) (name : Name) :
    Option (Progress σ) :=
  (p.meaning inputs name.text).map fun word =>
    { p with textures := p.textures ++ [(name.text, word)] }

/-- Follow a statement. -/
def follow {σ : Type} (perform : Wasm.Host σ) (inputs : List InputImage) (p : Progress σ) :
    Statement → Option (Progress σ)
  | .bind target value _ =>
    (value.eval perform (p.meaning inputs) p.host).map fun (word, host) =>
      { p with values := (target.text, word) :: p.values, host }
  | .channel material channel _ value _ =>
    (value.eval perform (p.meaning inputs) p.host).map fun (word, host) =>
      { p with channels := p.channels ++ [((material.text, channel.text), word)], host }
  | .exports names _ => names.foldlM (recordTexture inputs) p

end Progress

/-- Follow a script from its first statement to its last. -/
def Script.interpret {σ : Type} (script : Script) (perform : Wasm.Host σ)
    (inputs : List InputImage) (host : σ) : Option (Progress σ) :=
  script.statements.foldlM (Progress.follow perform inputs) { host }

namespace Progress

/-- The image that a recorded value stands for, if the store has it. -/
def imageOf? (p : Progress Store) (word : Int32) : Option Image :=
  (Handle.ofWire? word).bind p.host.image?

/-- The recorded textures that are images, under their keys. -/
def textureImages (p : Progress Store) : List ((String × String) × Image) :=
  p.textures.filterMap fun output =>
    (p.imageOf? output.2).map ((texturesCategory, output.1), ·)

/-- The recorded channels that are images, under their keys. -/
def channelImages (p : Progress Store) : List ((String × String) × Image) :=
  p.channels.filterMap fun output => (p.imageOf? output.2).map (output.1, ·)

/-- The export of a script: textures first, so that a channel with the same key wins. -/
def exported (p : Progress Store) : ExportedImages :=
  .addAll {} (p.textureImages ++ p.channelImages)

/-- The image that a script exports under a category and a name: that of the last channel with this
key, or else that of the last texture. -/
def image? (p : Progress Store) (category name : String) : Option Image :=
  (p.channelImages.reverse.lookup (category, name)).or
    (p.textureImages.reverse.lookup (category, name))

/-- The export holds exactly the images of the recorded outputs, and no empty category. -/
theorem exported_shows (p : Progress Store) : p.exported.Shows p.image? where
  images := by
    intro category name
    have empty : ExportedImages.image? {} category name = none := by
      simp [ExportedImages.image?]
    rw [exported, ExportedImages.image?_addAll, List.reverse_append, List.lookup_append, empty,
      Option.or_none]
    rfl
  noneEmpty := ExportedImages.noneEmpty_empty.addAll _

end Progress

end TextureScript
