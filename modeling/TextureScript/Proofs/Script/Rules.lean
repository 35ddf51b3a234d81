import TextureScript.Handle
import TextureScript.Material
import TextureScript.Operation
import TextureScript.Proofs.Lists
import TextureScript.Script

/-!
# The rules of scripts

The rules say which scripts have a meaning, without saying how to find out. A value has a kind after
the statements before it: every name in it is an input or bound before, every call names an
operation and gives it arguments of the kinds that it takes. A name is bound once, a channel and a
texture are declared once, and only images leave a script. What a script asks for is counted and
listed here as well: its calls, its bindings, its channels and its textures.
-/

namespace TextureScript

/-! ## What a script lists -/

namespace Statement

/-- The name that a statement binds, and where the statement stands. -/
def bound : Statement → List (String × Span)
  | .bind target _ span => [(target.text, span)]
  | _ => []

/-- The channel that a statement declares, with its material. -/
def channels : Statement → List (String × String × MaterialType)
  | .channel material name materialType _ _ =>
    [(material.text, name.text, .ofTag materialType.text)]
  | _ => []

/-- The textures that a statement exports. -/
def textures : Statement → List String
  | .exports names _ => names.map (·.text)
  | _ => []

end Statement

/-- The names that statements bind. -/
def boundNames (statements : List Statement) : List String :=
  (statements.flatMap Statement.bound).map (·.1)

/-- The channels that statements declare. -/
def channelKeys (statements : List Statement) : List (String × String) :=
  (statements.flatMap Statement.channels).map fun declared => (declared.1, declared.2.1)

/-- The textures that statements export. -/
def textureNames (statements : List Statement) : List String :=
  statements.flatMap Statement.textures

/-! ## What a script asks for -/

mutual

/-- The number of calls in a value. -/
def Expr.callNodes : Expr → Nat
  | .number .. => 0
  | .name .. => 0
  | .call _ args _ => callNodesOfAll args + 1

/-- The number of calls in some values. -/
def Expr.callNodesOfAll : List Expr → Nat
  | [] => 0
  | value :: values => value.callNodes + callNodesOfAll values

end

/-- The number of calls in a statement. -/
def Statement.callNodes : Statement → Nat
  | .bind _ value _ => value.callNodes
  | .channel _ _ _ value _ => value.callNodes
  | .exports _ _ => 0

/-- Whether a statement binds a value without a call. -/
def Statement.isCallFreeBinding : Statement → Bool
  | .bind _ value _ => value.callNodes == 0
  | _ => false

/-- The number of calls in some statements. -/
def callNodes : List Statement → Nat
  | [] => 0
  | statement :: statements => statement.callNodes + callNodes statements

/-- The number of statements that bind a value without a call. -/
def callFreeBindings (statements : List Statement) : Nat :=
  statements.countP Statement.isCallFreeBinding

/-! ## Rules -/

/-- The kind of a value after some statements. -/
inductive Expr.HasKind (inputs : List InputImage) : List Statement → Expr → Kind → Prop where
  /-- A literal is a number. -/
  | number {earlier : List Statement} {value : Int32} {span : Span} :
      HasKind inputs earlier (.number value span) .number
  /-- An input is an image. -/
  | input {earlier : List Statement} {text : String} {span : Span}
      (listed : text ∈ inputs.map (·.name)) : HasKind inputs earlier (.name text span) .image
  /-- A name that was bound before has the kind of its value. -/
  | bound {earlier before after : List Statement} {target : Name} {value : Expr}
      {text : String} {place span : Span} {kind : Kind}
      (split : earlier = before ++ .bind target value place :: after) (same : target.text = text)
      (has : HasKind inputs before value kind) : HasKind inputs earlier (.name text span) kind
  /-- A call of an operation with arguments of the right kinds is an image. -/
  | call {earlier : List Statement} {callee : Name} {args : List Expr} {span : Span}
      {op : Operation} (named : Operation.ofName? callee.text = some op)
      (count : args.length = op.arity)
      (each : ∀ pair ∈ args.zip op.params, HasKind inputs earlier pair.1 pair.2.kind) :
      HasKind inputs earlier (.call callee args span) .image

/-- The rules for one statement after others. A bound name is not an input and was not bound before,
and its value has a kind; the value of a channel and every exported name is an image. -/
def Statement.Follows (inputs : List InputImage) (earlier : List Statement) : Statement → Prop
  | .bind target value _ =>
    (target.text ∉ inputs.map (·.name) ∧ target.text ∉ boundNames earlier) ∧
      ∃ kind, value.HasKind inputs earlier kind
  | .channel _ _ _ value _ => value.HasKind inputs earlier .image
  | .exports names _ =>
    ∀ name ∈ names, (Expr.name name.text name.span).HasKind inputs earlier .image

/-- Statements that follow the rules, against some inputs. -/
structure ValidStatements (inputs : List InputImage) (statements : List Statement) : Prop where
  /-- Each statement follows the rules after those before it. -/
  each : ∀ earlier statement later, statements = earlier ++ statement :: later →
    statement.Follows inputs earlier
  /-- No channel is declared twice. -/
  channels : (channelKeys statements).Nodup
  /-- No texture is exported twice. -/
  textures : (textureNames statements).Nodup

/-- A script that follows the rules, against some inputs. -/
def Script.Valid (inputs : List InputImage) (script : Script) : Prop :=
  ValidStatements inputs script.statements

/-! ## One statement more -/

theorem boundNames_concat (statements : List Statement) (statement : Statement) :
    boundNames (statements ++ [statement]) =
      boundNames statements ++ statement.bound.map (·.1) := by
  simp [boundNames]

theorem channelKeys_concat (statements : List Statement) (statement : Statement) :
    channelKeys (statements ++ [statement]) =
      channelKeys statements ++
        statement.channels.map fun declared => (declared.1, declared.2.1) := by
  simp [channelKeys]

theorem textureNames_concat (statements : List Statement) (statement : Statement) :
    textureNames (statements ++ [statement]) = textureNames statements ++ statement.textures := by
  simp [textureNames]

theorem callNodes_concat (statements : List Statement) (statement : Statement) :
    callNodes (statements ++ [statement]) = callNodes statements + statement.callNodes := by
  induction statements with
  | nil => simp [callNodes]
  | cons first statements ih =>
    simp only [List.cons_append, callNodes, ih]
    omega

theorem mem_boundNames {statements : List Statement} {text : String} :
    text ∈ boundNames statements ↔ ∃ before target value span after,
      statements = before ++ .bind target value span :: after ∧ target.text = text := by
  constructor
  · intro member
    obtain ⟨⟨_, place⟩, listed, rfl⟩ := List.mem_map.mp member
    obtain ⟨statement, among, binds⟩ := List.mem_flatMap.mp listed
    obtain ⟨before, after, rfl⟩ := List.append_of_mem among
    cases statement with
    | bind target value span =>
      cases List.mem_singleton.mp binds
      exact ⟨before, target, value, _, after, rfl, rfl⟩
    | channel | exports => exact absurd binds List.not_mem_nil
  · rintro ⟨before, target, value, span, after, rfl, rfl⟩
    simp [boundNames, Statement.bound]

/-- A name with a kind is an input or bound. -/
theorem Expr.HasKind.known {inputs : List InputImage} {earlier : List Statement} {text : String}
    {span : Span} {kind : Kind} (has : HasKind inputs earlier (.name text span) kind) :
    text ∈ inputs.map (·.name) ∨ text ∈ boundNames earlier := by
  cases has with
  | input listed => exact .inl listed
  | bound split same _ => exact .inr (mem_boundNames.mpr ⟨_, _, _, _, _, split, same⟩)

/-- A call has a kind when it names an operation and its arguments have the kinds of the parameters,
one by one. -/
theorem Expr.hasKind_call {inputs : List InputImage} {earlier : List Statement} {callee : Name}
    {args : List Expr} {span : Span} {kind : Kind} :
    HasKind inputs earlier (.call callee args span) kind ↔
      kind = .image ∧ ∃ op, Operation.ofName? callee.text = some op ∧ args.length = op.arity ∧
        ∀ pair ∈ args.zip op.params, pair.1.HasKind inputs earlier pair.2.kind := by
  constructor
  · intro has
    cases has with
    | call named count each => exact ⟨rfl, _, named, count, each⟩
  · rintro ⟨rfl, op, named, count, each⟩
    exact .call named count each

/-- A name has the kind that it had before a statement, or the kind of the value that the statement
binds it to. -/
theorem Expr.hasKind_name_concat {inputs : List InputImage} {statements : List Statement}
    {statement : Statement} {text : String} {span : Span} {kind : Kind} :
    HasKind inputs (statements ++ [statement]) (.name text span) kind ↔
      HasKind inputs statements (.name text span) kind ∨
        ∃ target value place, statement = .bind target value place ∧ target.text = text ∧
          HasKind inputs statements value kind := by
  constructor
  · intro has
    cases has with
    | input listed => exact .inl (.input listed)
    | bound split same has =>
      rcases concat_eq_append_cons_iff.mp split with ⟨rfl, rfl, rfl⟩ | ⟨others, rfl, rfl⟩
      · exact .inr ⟨_, _, _, rfl, same, has⟩
      · exact .inl (.bound rfl same has)
  · rintro (has | ⟨target, value, place, rfl, same, has⟩)
    · cases has with
      | input listed => exact .input listed
      | @bound _ before after target value _ place _ _ split same has =>
        have split' : statements ++ [statement] =
            before ++ .bind target value place :: (after ++ [statement]) := by
          simp [split]
        exact .bound split' same has
    · exact .bound rfl same has

/-- Statements follow the rules exactly when all but the last do, the last does after them, and it
declares nothing again. -/
theorem validStatements_concat {inputs : List InputImage} {statements : List Statement}
    {statement : Statement} :
    ValidStatements inputs (statements ++ [statement]) ↔
      ValidStatements inputs statements ∧ statement.Follows inputs statements ∧
        (channelKeys (statements ++ [statement])).Nodup ∧
        (textureNames (statements ++ [statement])).Nodup := by
  constructor
  · rintro ⟨each, channels, textures⟩
    have fewerChannels := channels
    have fewerTextures := textures
    rw [channelKeys_concat] at fewerChannels
    rw [textureNames_concat] at fewerTextures
    refine ⟨⟨?_, fewerChannels.sublist (List.sublist_append_left _ _),
      fewerTextures.sublist (List.sublist_append_left _ _)⟩, each statements statement [] rfl,
      channels, textures⟩
    rintro earlier other later rfl
    exact each earlier other (later ++ [statement]) (by simp)
  · rintro ⟨⟨each, -, -⟩, follows, channels, textures⟩
    refine ⟨?_, channels, textures⟩
    intro earlier other later split
    rcases concat_eq_append_cons_iff.mp split with ⟨rfl, rfl, rfl⟩ | ⟨others, rfl, rfl⟩
    · exact follows
    · exact each earlier other others rfl

theorem validStatements_bind {inputs : List InputImage} {statements : List Statement}
    {target : Name} {value : Expr} {span : Span} :
    ValidStatements inputs (statements ++ [.bind target value span]) ↔
      ValidStatements inputs statements ∧
        (Statement.bind target value span).Follows inputs statements := by
  rw [validStatements_concat, channelKeys_concat, textureNames_concat]
  constructor
  · rintro ⟨valid, follows, -, -⟩
    exact ⟨valid, follows⟩
  · rintro ⟨valid, follows⟩
    refine ⟨valid, follows, ?_, ?_⟩
    · simpa [Statement.channels] using valid.channels
    · simpa [Statement.textures] using valid.textures

theorem validStatements_channel {inputs : List InputImage} {statements : List Statement}
    {material channel materialType : Name} {value : Expr} {span : Span} :
    ValidStatements inputs (statements ++ [.channel material channel materialType value span]) ↔
      ValidStatements inputs statements ∧ value.HasKind inputs statements .image ∧
        (material.text, channel.text) ∉ channelKeys statements := by
  rw [validStatements_concat, channelKeys_concat, textureNames_concat, Statement.channels,
    List.map_singleton, nodup_concat_iff]
  constructor
  · rintro ⟨valid, follows, ⟨-, unlisted⟩, -⟩
    exact ⟨valid, follows, unlisted⟩
  · rintro ⟨valid, follows, unlisted⟩
    refine ⟨valid, follows, ⟨valid.channels, unlisted⟩, ?_⟩
    simpa [Statement.textures] using valid.textures

theorem validStatements_exports_nil {inputs : List InputImage} {statements : List Statement}
    {span : Span} :
    ValidStatements inputs (statements ++ [.exports [] span]) ↔
      ValidStatements inputs statements := by
  rw [validStatements_concat, channelKeys_concat, textureNames_concat]
  constructor
  · exact And.left
  · intro valid
    refine ⟨valid, nofun, ?_, ?_⟩
    · simpa [Statement.channels] using valid.channels
    · simpa [Statement.textures] using valid.textures

/-- An export statement follows the rules name by name. -/
theorem validStatements_exports_concat {inputs : List InputImage} {statements : List Statement}
    {names : List Name} {name : Name} {span : Span} :
    ValidStatements inputs (statements ++ [.exports (names ++ [name]) span]) ↔
      ValidStatements inputs (statements ++ [.exports names span]) ∧
        (Expr.name name.text name.span).HasKind inputs statements .image ∧
        name.text ∉ textureNames (statements ++ [.exports names span]) := by
  have keys : channelKeys (statements ++ [.exports (names ++ [name]) span]) =
      channelKeys (statements ++ [.exports names span]) := by
    rw [channelKeys_concat, channelKeys_concat]
    rfl
  have textures : textureNames (statements ++ [.exports (names ++ [name]) span]) =
      textureNames (statements ++ [.exports names span]) ++ [name.text] := by
    simp [textureNames_concat, Statement.textures]
  rw [validStatements_concat, validStatements_concat, keys, textures, nodup_concat_iff]
  simp only [Statement.Follows, List.forall_mem_append, List.forall_mem_singleton]
  constructor
  · rintro ⟨valid, ⟨others, image⟩, channels, distinct, unlisted⟩
    exact ⟨⟨valid, others, channels, distinct⟩, image, unlisted⟩
  · rintro ⟨⟨valid, others, channels, distinct⟩, image, unlisted⟩
    exact ⟨valid, ⟨others, image⟩, channels, distinct, unlisted⟩

end TextureScript
