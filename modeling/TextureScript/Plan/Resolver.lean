import TextureScript.Diagnostic
import TextureScript.Plan
import TextureScript.Scope
import TextureScript.Script
import TextureScript.Text.EditDistance

/-!
# Resolving

Resolving walks over the statements of a script in order, gives every name its meaning, checks every
call, and collects the plan. A problem never stops the walk. A value that has a problem yields
nothing, and whatever is made of it yields nothing either, so that each problem is reported once, at
its root.
-/

namespace TextureScript

/-- The first declarations of material channels. -/
abbrev DeclaredChannels :=
  Std.TreeMap (String × String) Span (@compare (String × String) lexOrd)

/-- How far resolving has come. -/
structure Resolution where
  /-- The meaning of the names so far. -/
  scope : Scope
  /-- The plan so far. -/
  plan : Plan := {}
  /-- The problems so far. -/
  findings : Array Finding := #[]
  /-- Where each material channel was first declared. -/
  channels : DeclaredChannels := {}
  /-- Where each texture was first exported. -/
  textures : Std.TreeMap String Span := {}

namespace Resolution

/-- An operand with the kind of its value. -/
abbrev Typed := Operand × Kind

/-- Report a problem. -/
def report (r : Resolution) (finding : Finding) : Resolution :=
  { r with findings := r.findings.push finding }

/-- Add a step to the plan; its number is how many there were before. -/
def addBinding (r : Resolution) (binding : Binding) : Resolution :=
  { r with plan.bindings := r.plan.bindings.push binding }

/-- The number of the next step of the plan. -/
def nextIndex (r : Resolution) : UInt32 :=
  UInt32.ofNat r.plan.bindings.size

/-- The problem of a name without a meaning. -/
def unresolvedFinding (scope : Scope) (name : String) (span : Span) : Finding where
  code := .unresolvedIdentifier
  message := s!"'{name}' is neither a binding nor an input image"
  span := span
  suggestion := didYouMean name scope.names

/-- The value that a name stands for. -/
def resolveName (r : Resolution) (name : String) (span : Span) : Option Typed × Resolution :=
  match r.scope.lookup name with
  | some (.input handle) => (some (.input handle, .image), r)
  | some (.bound index kind) => (some (.result index, kind), r)
  | some .poisoned => (none, r)
  | none => (none, r.report (unresolvedFinding r.scope name span))

/-- The problem of a call of an operation that does not exist. -/
def unknownFunctionFinding (callee : Name) : Finding where
  code := .unknownFunction
  message := s!"unknown function '{callee.text}'"
  span := callee.span
  suggestion := didYouMean callee.text (Operation.all.map (·.name))

/-- The problem of a call with the wrong number of arguments. -/
def arityFinding (op : Operation) (given : Nat) (span : Span) : Finding where
  code := .arityMismatch
  message :=
    let plural := if op.arity = 1 then "" else "s"
    s!"{op.name} expects {op.arity} argument{plural}, got {given}"
  span := span
  suggestion := some op.signature

/-- The problem of an argument of the wrong kind. -/
def argumentKindFinding (op : Operation) (param : Parameter) (kind : Kind) (span : Span) :
    Finding where
  code := .argumentKindMismatch
  message :=
    s!"argument '{param.name}' of {op.name} must be {param.kind.withArticle}, " ++
      s!"got {kind.withArticle}"
  span := span
  suggestion := some op.signature

/-- Check the arguments of a call one by one against the parameters. The operands are there when
every argument has a value of the right kind. -/
def checkArguments (op : Operation) (r : Resolution) :
    List (Expr × Option Typed) → List Parameter → Option (List Operand) × Resolution
  | (arg, lowered) :: args, param :: params =>
    let (operand, r) :=
      match lowered with
      | some (operand, kind) =>
        if kind = param.kind then (some operand, r)
        else (none, r.report (argumentKindFinding op param kind arg.span))
      | none => (none, r)
    let (operands, r) := checkArguments op r args params
    (operand.bind fun operand => operands.map (operand :: ·), r)
  | _, _ => (some [], r)

/-- The value of a call whose arguments are resolved. -/
def resolveCall (r : Resolution) (callee : Name) (args : List (Expr × Option Typed)) (span : Span) :
    Option Value × Resolution :=
  match Operation.ofName? callee.text with
  | none => (none, r.report (unknownFunctionFinding callee))
  | some op =>
    if args.length = op.arity then
      let (operands, r) := checkArguments op r args op.params
      (operands.map (.call op), r)
    else (none, r.report (arityFinding op args.length span))

mutual

/-- The value of an expression as an operand; a call becomes a step of the plan without a name. -/
def resolveOperand (r : Resolution) : Expr → Option Typed × Resolution
  | .number value _ => (some (.number value, .number), r)
  | .name text span => r.resolveName text span
  | .call callee args span =>
    let (args, r) := resolveOperands r args
    match r.resolveCall callee args span with
    | (some value, r) =>
      (some (.result r.nextIndex, .image), r.addBinding ⟨none, .image, value, span⟩)
    | (none, r) => (none, r)

/-- The values of some expressions, from left to right, each beside its expression. -/
def resolveOperands (r : Resolution) : List Expr → List (Expr × Option Typed) × Resolution
  | [] => ([], r)
  | arg :: args =>
    let (operand, r) := resolveOperand r arg
    let (operands, r) := resolveOperands r args
    ((arg, operand) :: operands, r)

end

/-- The value of an expression as the right-hand side of a binding. -/
def resolveValue (r : Resolution) (e : Expr) : Option (Value × Kind) × Resolution :=
  match e with
  | .call callee args span =>
    let (args, r) := resolveOperands r args
    let (value, r) := r.resolveCall callee args span
    (value.map (·, .image), r)
  | e =>
    let (operand, r) := resolveOperand r e
    (operand.map fun (operand, kind) => (.copy operand, kind), r)

/-- The problem of a number where an image has to leave the script. -/
def notAnImageFinding (span : Span) : Finding where
  code := .notAnImage
  message := "only images can be written to a material channel or texture"
  span := span

/-- The value of an expression that leaves the script, which has to be an image. -/
def resolveOutput (r : Resolution) (e : Expr) : Option Operand × Resolution :=
  match resolveOperand r e with
  | (some (operand, .image), r) => (some operand, r)
  | (some (_, .number), r) => (none, r.report (notAnImageFinding e.span))
  | (none, r) => (none, r)

/-- The problem of binding a name that already has a meaning. -/
def conflictFinding (target : Name) : Conflict → Finding
  | .input =>
    { code := .duplicateBinding
      message := s!"'{target.text}' is an input image and cannot be rebound"
      span := target.span
      suggestion := some "choose a different name for the result" }
  | .binding first =>
    { code := .duplicateBinding
      message := s!"'{target.text}' is already bound at line {first.start.line}"
      span := target.span
      suggestion := some "bindings are single-assignment; introduce a new name" }

/-- Resolve a binding. Its value becomes a step of the plan even when the name is taken. -/
def resolveBinding (r : Resolution) (target : Name) (value : Expr) (span : Span) : Resolution :=
  let (symbol, r) :=
    match resolveValue r value with
    | (some (value, kind), r) =>
      (Symbol.bound r.nextIndex kind, r.addBinding ⟨some target.text, kind, value, span⟩)
    | (none, r) => (Symbol.poisoned, r)
  match r.scope.define target.text symbol target.span with
  | .ok scope => { r with scope }
  | .error conflict => r.report (conflictFinding target conflict)

/-- The warning about a channel of a material type that is not known or does not list it. -/
def materialFinding? (channel materialType : Name) : Option Finding :=
  let known := MaterialType.ofTag materialType.text
  if !known.isKnown then
    let tags := MaterialType.known.map (·.tag)
    some
      { code := .unknownMaterialType
        severity := .warning
        message := s!"unknown material type '{materialType.text}'"
        span := materialType.span
        suggestion :=
          let listed := String.intercalate ", " tags
          some ((didYouMean materialType.text tags).getD s!"known material types: {listed}") }
  else if !known.hasChannel channel.text then
    some
      { code := .unknownChannel
        severity := .warning
        message := s!"material type {known.tag} has no '{channel.text}' channel"
        span := channel.span
        suggestion :=
          let listed := String.intercalate ", " known.channels
          some ((didYouMean channel.text known.channels).getD s!"{known.tag} channels: {listed}") }
  else none

/-- The problem of a material channel that is declared again. -/
def duplicateChannelFinding (material channel : String) (first span : Span) : Finding where
  code := .duplicateChannel
  message :=
    s!"channel '{channel}' of material '{material}' is already declared at line {first.start.line}"
  span := span

/-- Resolve a channel declaration. A declaration counts even when its value has a problem. -/
def resolveChannel (r : Resolution) (material channel materialType : Name) (value : Expr)
    (span : Span) : Resolution :=
  let r :=
    match materialFinding? channel materialType with
    | some finding => r.report finding
    | none => r
  let (source, r) := resolveOutput r value
  let key := (material.text, channel.text)
  match r.channels[key]? with
  | some first => r.report (duplicateChannelFinding material.text channel.text first span)
  | none =>
    let r := { r with channels := r.channels.insert key span }
    match source with
    | none => r
    | some source =>
      let output := ⟨material.text, channel.text, .ofTag materialType.text, source⟩
      { r with plan.channels := r.plan.channels.push output }

/-- The problem of a texture that is exported again. -/
def duplicateTextureFinding (name : Name) (first : Span) : Finding where
  code := .duplicateChannel
  message := s!"texture '{name.text}' is already exported at line {first.start.line}"
  span := name.span

/-- Resolve one exported name. An export counts even when its value has a problem. -/
def resolveExport (r : Resolution) (name : Name) : Resolution :=
  match r.textures[name.text]? with
  | some first => r.report (duplicateTextureFinding name first)
  | none =>
    let r := { r with textures := r.textures.insert name.text name.span }
    match resolveOutput r (.name name.text name.span) with
    | (some source, r) =>
      { r with plan.textures := r.plan.textures.push ⟨name.text, source⟩ }
    | (none, r) => r

/-- Resolve a statement. -/
def resolveStatement (r : Resolution) : Statement → Resolution
  | .bind target value span => r.resolveBinding target value span
  | .channel material channel materialType value span =>
    r.resolveChannel material channel materialType value span
  | .exports names _ => names.foldl resolveExport r

end Resolution

/-- Resolve a script against its inputs. -/
def Script.resolve (script : Script) (inputs : List InputImage) : Resolution :=
  script.statements.foldl Resolution.resolveStatement { scope := .ofInputs inputs }

end TextureScript
