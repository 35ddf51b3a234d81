import TextureScript.Proofs.Plan.Variation
import TextureScript.Proofs.Script.Grammar
import TextureScript.Proofs.Script.Rules

/-!
# The names of a script

The names that stand for images and numbers are those that a script binds, uses and exports. Names
of operations, materials, channels and material types are apart from them, even where they are
spelled alike. Giving a script's names other meanings, or other spellings, are variations in which
only these names count.
-/

namespace TextureScript

/-! ## Names that occur -/

mutual

/-- The names that are used in a value. -/
def Expr.names : Expr → List String
  | .number .. => []
  | .name text _ => [text]
  | .call _ args _ => namesOfAll args

/-- The names that are used in some values. -/
def Expr.namesOfAll : List Expr → List String
  | [] => []
  | value :: values => value.names ++ namesOfAll values

end

/-- The names that are bound, used and exported in a statement. -/
def Statement.names : Statement → List String
  | .bind target value _ => target.text :: value.names
  | .channel _ _ _ value _ => value.names
  | .exports names _ => names.map (·.text)

/-- The names that are bound, used and exported in a script. -/
def Script.names (script : Script) : List String :=
  script.statements.flatMap Statement.names

/-- A name has a meaning after some statements when it is an input or bound by one of them. -/
abbrev Known (inputs : List InputImage) (earlier : List Statement) (text : String) : Prop :=
  text ∈ inputs.map (·.name) ∨ text ∈ boundNames earlier

/-! ## Other names -/

/-- A name under another text. -/
def Name.rename (rename : String → String) (name : Name) : Name :=
  { name with text := rename name.text }

mutual

/-- A value in which names are called differently. -/
def Expr.rename (rename : String → String) : Expr → Expr
  | .number value span => .number value span
  | .name text span => .name (rename text) span
  | .call callee args span => .call callee (renameAll rename args) span

/-- Values in which names are called differently. -/
def Expr.renameAll (rename : String → String) : List Expr → List Expr
  | [] => []
  | value :: values => value.rename rename :: renameAll rename values

end

/-- A statement in which names are called differently. -/
def Statement.rename (rename : String → String) : Statement → Statement
  | .bind target value span => .bind (target.rename rename) (value.rename rename) span
  | .channel material channelName materialType value span =>
    .channel material channelName materialType (value.rename rename) span
  | .exports names span => .exports (names.map (Name.rename rename)) span

/-- A script in which names are called differently. -/
def Script.rename (rename : String → String) (script : Script) : Script :=
  { script with statements := script.statements.map (Statement.rename rename) }

/-! ## The same script with other meanings -/

variable {v : Variation}

/-- A variation that leaves spans and some names as they are. -/
structure Variation.Keeps (v : Variation) (names : List String) : Prop where
  /-- Nothing has to move. -/
  moves : ∀ span, v.Moves span span
  /-- The names occur and stay. -/
  named : ∀ text ∈ names, v.Occurs text ∧ v.rename text = text

mutual

theorem Expr.varies_self (e : Expr) (keeps : v.Keeps e.names) : e.Varies v e := by
  cases e with
  | number value span => exact .number (keeps.moves span)
  | name text span =>
    obtain ⟨occurs, same⟩ := keeps.named text List.mem_cons_self
    have varies : (Expr.name text span).Varies v (.name (v.rename text) span) :=
      .name occurs (keeps.moves span)
    rwa [same] at varies
  | call callee args span =>
    exact .call ⟨rfl, keeps.moves _⟩ (Expr.varies_selfAll args keeps) (keeps.moves _)

theorem Expr.varies_selfAll (args : List Expr) (keeps : v.Keeps (namesOfAll args)) :
    List.Forall₂ (Expr.Varies v) args args := by
  cases args with
  | nil => exact .nil
  | cons arg args =>
    obtain ⟨moves, named⟩ := keeps
    obtain ⟨here, later⟩ := List.forall_mem_append.mp named
    exact .cons (Expr.varies_self arg ⟨moves, here⟩) (Expr.varies_selfAll args ⟨moves, later⟩)

end

theorem Name.varies_self {name : Name} (moves : ∀ span, v.Moves span span)
    (named : v.Occurs name.text ∧ v.rename name.text = name.text) : name.Varies v name :=
  ⟨named.1, named.2.symm, moves _⟩

theorem Statement.varies_self (statement : Statement) (keeps : v.Keeps statement.names) :
    statement.Varies v statement := by
  obtain ⟨moves, named⟩ := keeps
  cases statement with
  | bind target value span =>
    obtain ⟨here, later⟩ := List.forall_mem_cons.mp named
    exact .bind (Name.varies_self moves here) (value.varies_self ⟨moves, later⟩) (moves _)
  | channel material channelName materialType value span =>
    exact .channel ⟨rfl, moves _⟩ ⟨rfl, moves _⟩ ⟨rfl, moves _⟩ (value.varies_self ⟨moves, named⟩)
      (moves _)
  | exports names span =>
    refine .exports (List.forall₂_same.mpr ?_)
    intro name member
    exact Name.varies_self moves (named _ (List.mem_map_of_mem member))

/-- A script varies to itself when all its names stay. -/
theorem Script.varies_self (script : Script) (keeps : v.Keeps script.names) :
    List.Forall₂ (Statement.Varies v) script.statements script.statements := by
  refine List.forall₂_same.mpr ?_
  intro statement member
  refine statement.varies_self ⟨keeps.moves, ?_⟩
  intro text inside
  exact keeps.named text (List.mem_flatMap.mpr ⟨statement, member, inside⟩)

/-! ## The same script with other names -/

/-- A variation that renames: parts of the script may stand anywhere, and problems may be worded in
any way but stay as serious as they are. -/
def Variation.naming (Occurs : String → Prop) (rename : String → String) : Variation where
  Occurs := Occurs
  rename := rename
  Moves _ _ := True
  Rewords finding other := other.severity = finding.severity

/-- A renaming is lawful when it keeps the names that occur apart. -/
theorem Variation.lawful_naming {Occurs : String → Prop} {rename : String → String}
    (apart : ∀ first second, Occurs first → Occurs second → rename first = rename second →
      first = second) : (naming Occurs rename).Lawful where
  apart := apart
  moved _ _ _ := rfl
  unresolved _ _ _ _ _ _ _ _ := rfl
  conflict _ _ _ _ _ conflicts := by
    cases conflicts <;> rfl
  channel _ _ _ _ _ _ _ _ := rfl
  texture _ _ _ _ _ _ := rfl

/-- Lists whose items have the same images, one by one, are related as such items are. -/
theorem forall₂_of_map_eq_map {α β γ : Type} {R : α → β → Prop} {f : α → γ} {g : β → γ}
    {items : List α} {others : List β} (related : ∀ item ∈ items, ∀ other, g other = f item →
      R item other) (same : others.map g = items.map f) : List.Forall₂ R items others := by
  induction items generalizing others with
  | nil =>
    rw [List.map_eq_nil_iff.mp same]
    exact .nil
  | cons item items ih =>
    obtain ⟨other, rest, rfl, here, later⟩ := List.map_eq_cons_iff.mp same
    obtain ⟨first, each⟩ := List.forall_mem_cons.mp related
    exact .cons (first other here) (ih each later)

section

variable {Occurs : String → Prop} {rename : String → String}

theorem Name.varies_of_unplaced {name other : Name} (occurs : Occurs name.text)
    (same : other.unplaced = (name.rename rename).unplaced) :
    name.Varies (.naming Occurs rename) other := by
  have text : other.text = rename name.text := congrArg (·.text) same
  exact ⟨occurs, text, trivial⟩

theorem Name.moves_of_unplaced {name other : Name} (same : other.unplaced = name.unplaced) :
    name.Moves (.naming Occurs rename) other := by
  have text : other.text = name.text := congrArg (·.text) same
  exact ⟨text, trivial⟩

mutual

/-- A value that is read as the renamed one differs as the renaming allows. -/
theorem Expr.varies_of_unplaced {e other : Expr} (occurs : ∀ text ∈ e.names, Occurs text)
    (same : other.unplaced = (e.rename rename).unplaced) :
    e.Varies (.naming Occurs rename) other := by
  cases e with
  | number value span =>
    cases other with
    | number value' span' =>
      obtain rfl : value' = value := by simpa [unplaced, Expr.rename] using same
      exact .number trivial
    | name | call => simp [unplaced, Expr.rename] at same
  | name text span =>
    cases other with
    | name text' span' =>
      obtain rfl : text' = rename text := by simpa [unplaced, Expr.rename] using same
      exact .name (occurs text List.mem_cons_self) trivial
    | number | call => simp [unplaced, Expr.rename] at same
  | call callee args span =>
    cases other with
    | call callee' args' span' =>
      simp only [unplaced, Expr.rename, Expr.call.injEq, and_true] at same
      obtain ⟨named, each⟩ := same
      exact .call (Name.moves_of_unplaced named) (Expr.varies_of_unplacedAll occurs each) trivial
    | number | name => simp [unplaced, Expr.rename] at same

theorem Expr.varies_of_unplacedAll {args others : List Expr}
    (occurs : ∀ text ∈ namesOfAll args, Occurs text)
    (same : unplacedAll others = unplacedAll (renameAll rename args)) :
    List.Forall₂ (Expr.Varies (.naming Occurs rename)) args others := by
  cases args with
  | nil =>
    cases others with
    | nil => exact .nil
    | cons other others => simp [unplacedAll, renameAll] at same
  | cons arg args =>
    cases others with
    | nil => simp [unplacedAll, renameAll] at same
    | cons other others =>
      simp only [unplacedAll, renameAll, List.cons.injEq] at same
      obtain ⟨here, later⟩ := List.forall_mem_append.mp occurs
      exact .cons (Expr.varies_of_unplaced here same.1) (Expr.varies_of_unplacedAll later same.2)

end

theorem Statement.varies_of_unplaced {statement other : Statement}
    (occurs : ∀ text ∈ statement.names, Occurs text)
    (same : other.unplaced = (statement.rename rename).unplaced) :
    statement.Varies (.naming Occurs rename) other := by
  cases statement with
  | bind target value span =>
    cases other with
    | bind target' value' span' =>
      simp only [unplaced, Statement.rename, Statement.bind.injEq, and_true] at same
      obtain ⟨here, later⟩ := List.forall_mem_cons.mp occurs
      exact .bind (Name.varies_of_unplaced here same.1) (Expr.varies_of_unplaced later same.2)
        trivial
    | channel | exports => simp [unplaced, Statement.rename] at same
  | channel material channelName materialType value span =>
    cases other with
    | channel material' channelName' materialType' value' span' =>
      simp only [unplaced, Statement.rename, Statement.channel.injEq, and_true] at same
      obtain ⟨ofMaterial, named, typed, value⟩ := same
      exact .channel (Name.moves_of_unplaced ofMaterial) (Name.moves_of_unplaced named)
        (Name.moves_of_unplaced typed) (Expr.varies_of_unplaced occurs value) trivial
    | bind | exports => simp [unplaced, Statement.rename] at same
  | exports names span =>
    cases other with
    | exports names' span' =>
      simp only [unplaced, Statement.rename, Statement.exports.injEq, and_true,
        List.map_map] at same
      refine .exports (forall₂_of_map_eq_map ?_ same)
      intro name member name' named
      exact Name.varies_of_unplaced (occurs _ (List.mem_map_of_mem member)) named
    | bind | channel => simp [unplaced, Statement.rename] at same

/-- A script that is read as the renamed one differs as the renaming allows. -/
theorem Script.varies_of_unplaced {script other : Script}
    (occurs : ∀ text ∈ script.names, Occurs text)
    (same : other.unplaced = (script.rename rename).unplaced) :
    List.Forall₂ (Statement.Varies (.naming Occurs rename)) script.statements
      other.statements := by
  have statements : other.statements.map Statement.unplaced =
      script.statements.map (Statement.unplaced ∘ Statement.rename rename) := by
    rw [← List.map_map]
    exact congrArg Script.statements same
  refine forall₂_of_map_eq_map ?_ statements
  intro statement member other' isSame
  refine Statement.varies_of_unplaced ?_ isSame
  intro text inside
  exact occurs text (List.mem_flatMap.mpr ⟨statement, member, inside⟩)

end

end TextureScript
