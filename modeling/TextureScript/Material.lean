/-!
# Material types

A material type says which channels a renderer expects. Scripts carry the tag of a material type
through to the compiled module; a tag that no renderer knows is kept as it was written.
-/

namespace TextureScript

/-- The rendering workflow that a material is made for. -/
inductive MaterialType where
  | pbrMetalness
  | pbrSpecular
  | unityStandardSpecular
  /-- A tag that is none of the above. -/
  | other (tag : String)
deriving DecidableEq, Repr, Inhabited

namespace MaterialType

/-- The material types whose channels are listed. -/
def known : List MaterialType :=
  [pbrMetalness, pbrSpecular, unityStandardSpecular]

/-- The tag by which scripts name a material type. -/
def tag : MaterialType → String
  | pbrMetalness => "PBRMetalness"
  | pbrSpecular => "PBRSpecular"
  | unityStandardSpecular => "UnityStandardSpecular"
  | other tag => tag

/-- The material type that a tag names. -/
def ofTag (tag : String) : MaterialType :=
  if tag = "PBRMetalness" then pbrMetalness
  else if tag = "PBRSpecular" then pbrSpecular
  else if tag = "UnityStandardSpecular" then unityStandardSpecular
  else other tag

/-- Whether the channels of a material type are listed. -/
def isKnown : MaterialType → Bool
  | other _ => false
  | _ => true

/-- The channels that a renderer expects, none of them for a tag that is not known. -/
def channels : MaterialType → List String
  | pbrMetalness =>
    ["diffuse", "metalness", "normal", "transparency", "roughness", "ao", "displacement",
      "emissive", "cavity", "subsurface_scattering"]
  | pbrSpecular =>
    ["albedo", "specular", "normal", "transparency", "glossiness", "ao", "displacement",
      "emissive", "cavity", "subsurface_scattering"]
  | unityStandardSpecular => ["albedo", "specular", "normal", "height", "ao", "emissive"]
  | other _ => []

/-- Whether a material type lists a channel. -/
def hasChannel (m : MaterialType) (channel : String) : Bool :=
  m.channels.contains channel

end MaterialType

end TextureScript
