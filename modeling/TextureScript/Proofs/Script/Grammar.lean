import TextureScript.Script
import TextureScript.Token

/-!
# The grammar of scripts

A derivation says which tokens a script is read from, and which tree they stand for:

    script    := statement*
    statement := NAME "=" value ";"
               | "(" NAME "," NAME "," NAME ")" "=" value ";"
               | "export" NAME ("," NAME)* ";"
    value     := NAME "(" [value ("," value)*] ")" | NAME | ["-"] NUMBER

A number is derived only if it is a signed 32-bit number with its sign. The grammar sets no limit to
how deep values are; their depth is counted here. A script is also written out again, as the
lexemes of one of its derivations.
-/

namespace TextureScript

/-- The token of a name. -/
def Name.token (name : Name) : Token :=
  ⟨.name name.text, name.span⟩

/-- One or more items with commas between them. -/
inductive Separated {α : Type} (Item : List Token → α → Prop) : List Token → List α → Prop where
  /-- The last item. -/
  | last {ts : List Token} {value : α} (item : Item ts value) : Separated Item ts [value]
  /-- An item and a comma before other items. -/
  | more {ts rest : List Token} {value : α} {values : List α} {comma : Span}
      (item : Item ts value) (others : Separated Item rest values) :
      Separated Item (ts ++ ⟨.comma, comma⟩ :: rest) (value :: values)

/-- A name is one token. -/
def Name.Derives (ts : List Token) (name : Name) : Prop :=
  ts = [name.token]

/-- The tokens of a value. -/
inductive Expr.Derives : List Token → Expr → Prop where
  /-- A number that fits. -/
  | number {magnitude : UInt32} {value : Int32} {span : Span}
      (fits : value.toInt = magnitude.toNat) :
      Derives [⟨.number magnitude, span⟩] (.number value span)
  /-- A number that fits with its minus sign. -/
  | negative {magnitude : UInt32} {value : Int32} {sign span : Span}
      (fits : value.toInt = -magnitude.toNat) :
      Derives [⟨.minus, sign⟩, ⟨.number magnitude, span⟩] (.number value (sign.merge span))
  /-- A name that stands for a value. -/
  | name {text : String} {span : Span} : Derives [⟨.name text, span⟩] (.name text span)
  /-- A call without arguments. -/
  | plain {callee : Name} {left right : Span} :
      Derives [callee.token, ⟨.leftParen, left⟩, ⟨.rightParen, right⟩]
        (.call callee [] (callee.span.merge right))
  /-- A call with arguments. -/
  | call {callee : Name} {left right : Span} {inner : List Token} {args : List Expr}
      (arguments : Separated Derives inner args) :
      Derives (callee.token :: ⟨.leftParen, left⟩ :: inner ++ [⟨.rightParen, right⟩])
        (.call callee args (callee.span.merge right))

/-- The tokens of a statement. -/
inductive Statement.Derives : List Token → Statement → Prop where
  /-- A binding. -/
  | bind {target : Name} {equals last : Span} {inner : List Token} {value : Expr}
      (derived : value.Derives inner) :
      Derives (target.token :: ⟨.equals, equals⟩ :: inner ++ [⟨.semicolon, last⟩])
        (.bind target value (target.span.merge last))
  /-- A channel declaration. -/
  | channel {material channel materialType : Name} {left comma comma' right equals last : Span}
      {inner : List Token} {value : Expr} (derived : value.Derives inner) :
      Derives (⟨.leftParen, left⟩ :: material.token :: ⟨.comma, comma⟩ :: channel.token ::
          ⟨.comma, comma'⟩ :: materialType.token :: ⟨.rightParen, right⟩ :: ⟨.equals, equals⟩ ::
          inner ++ [⟨.semicolon, last⟩])
        (.channel material channel materialType value (left.merge last))
  /-- An export statement. -/
  | exports {word last : Span} {inner : List Token} {names : List Name}
      (derived : Separated Name.Derives inner names) :
      Derives (⟨.exportWord, word⟩ :: inner ++ [⟨.semicolon, last⟩])
        (.exports names (word.merge last))

/-- The tokens of statements one after the other. -/
inductive Statement.DeriveAll : List Token → List Statement → Prop where
  /-- No statement. -/
  | nil : DeriveAll [] []
  /-- A statement before others. -/
  | cons {ts rest : List Token} {statement : Statement} {statements : List Statement}
      (first : statement.Derives ts) (others : DeriveAll rest statements) :
      DeriveAll (ts ++ rest) (statement :: statements)

/-- Where a script stands: from its first token to its last, and from the beginning to the end mark
if it is empty. -/
def Script.spanOf (stop : Token) (ts : List Token) : Span :=
  (ts.headD stop).span.merge ((ts.getLast?.map (·.span)).getD (.point 1 1))

/-- The tokens of a script before the end mark. -/
structure Script.Derives (stop : Token) (ts : List Token) (script : Script) : Prop where
  /-- The statements use up all tokens. -/
  statements : Statement.DeriveAll ts script.statements
  /-- Where the script stands. -/
  span : script.span = spanOf stop ts

/-! ## Depth -/

mutual

/-- The number of levels of a value: one for itself, and those of its deepest argument. -/
def Expr.depth : Expr → Nat
  | .number .. => 1
  | .name .. => 1
  | .call _ args _ => depths args + 1

/-- The number of levels of the deepest of some values. -/
def Expr.depths : List Expr → Nat
  | [] => 0
  | value :: values => max value.depth (depths values)

end

/-- The number of levels of the value of a statement. -/
def Statement.depth : Statement → Nat
  | .bind _ value _ => value.depth
  | .channel _ _ _ value _ => value.depth
  | .exports _ _ => 0

/-- The values of a script have at most a given number of levels. -/
def Script.Within (limit : Nat) (script : Script) : Prop :=
  ∀ statement ∈ script.statements, statement.depth ≤ limit

/-! ## Writing scripts -/

/-- Lists of lexemes with commas between them. -/
def commaSeparated : List (List Lexeme) → List Lexeme
  | [] => []
  | [item] => item
  | item :: items => item ++ .comma :: commaSeparated items

mutual

/-- The lexemes of a value. -/
def Expr.lexemes : Expr → List Lexeme
  | .number value _ =>
    if value < 0 then [.minus, .number (.ofNat value.toInt.natAbs)]
    else [.number (.ofNat value.toInt.natAbs)]
  | .name text _ => [.name text]
  | .call callee args _ =>
    .name callee.text :: .leftParen :: commaSeparated (lexemesOfAll args) ++ [.rightParen]

/-- The lexemes of each of some values. -/
def Expr.lexemesOfAll : List Expr → List (List Lexeme)
  | [] => []
  | value :: values => value.lexemes :: lexemesOfAll values

end

/-- The lexemes of a statement. -/
def Statement.lexemes : Statement → List Lexeme
  | .bind target value _ => .name target.text :: .equals :: value.lexemes ++ [.semicolon]
  | .channel material channelName materialType value _ =>
    .leftParen :: .name material.text :: .comma :: .name channelName.text :: .comma ::
      .name materialType.text :: .rightParen :: .equals :: value.lexemes ++ [.semicolon]
  | .exports names _ =>
    .exportWord :: commaSeparated (names.map fun name => [.name name.text]) ++ [.semicolon]

/-- The lexemes of a script. -/
def Script.lexemes (script : Script) : List Lexeme :=
  script.statements.flatMap Statement.lexemes

/-! ## Scripts without places -/

/-- A name without its place. -/
def Name.unplaced (name : Name) : Name :=
  { name with span := default }

mutual

/-- A value without the places of its parts. -/
def Expr.unplaced : Expr → Expr
  | .number value _ => .number value default
  | .name text _ => .name text default
  | .call callee args _ => .call callee.unplaced (unplacedAll args) default

/-- Values without the places of their parts. -/
def Expr.unplacedAll : List Expr → List Expr
  | [] => []
  | value :: values => value.unplaced :: unplacedAll values

end

/-- A statement without the places of its parts. -/
def Statement.unplaced : Statement → Statement
  | .bind target value _ => .bind target.unplaced value.unplaced default
  | .channel material channelName materialType value _ =>
    .channel material.unplaced channelName.unplaced materialType.unplaced value.unplaced default
  | .exports names _ => .exports (names.map Name.unplaced) default

/-- A script without the places of its parts. -/
def Script.unplaced (script : Script) : Script :=
  ⟨script.statements.map Statement.unplaced, default⟩

/-! ## What is written can be derived -/

/-- Tokens of the lexemes that something is written with are the tokens of it, up to places. -/
def Rederives {α β : Type} (Item : List Token → α → Prop) (write : α → List Lexeme)
    (shape : α → β) (item : α) : Prop :=
  ∀ ts : List Token, ts.map (·.lexeme) = write item →
    ∃ value, Item ts value ∧ shape value = shape item

theorem map_lexeme_eq_cons {ts : List Token} {lexeme : Lexeme} {rest : List Lexeme} :
    ts.map (·.lexeme) = lexeme :: rest ↔
      ∃ span others, ts = ⟨lexeme, span⟩ :: others ∧ others.map (·.lexeme) = rest := by
  constructor
  · intro written
    obtain ⟨t, others, rfl, rfl, rest⟩ := List.map_eq_cons_iff.mp written
    exact ⟨t.span, others, rfl, rest⟩
  · rintro ⟨span, others, rfl, rfl⟩
    rfl

theorem map_lexeme_eq_concat {ts : List Token} {lexeme : Lexeme} {inner : List Lexeme} :
    ts.map (·.lexeme) = inner ++ [lexeme] ↔
      ∃ others span, ts = others ++ [⟨lexeme, span⟩] ∧ others.map (·.lexeme) = inner := by
  constructor
  · intro written
    obtain ⟨others, last, rfl, inner, last⟩ := List.map_eq_append_iff.mp written
    obtain ⟨span, none, rfl, nothing⟩ := map_lexeme_eq_cons.mp last
    rw [List.map_eq_nil_iff.mp nothing]
    exact ⟨others, span, rfl, inner⟩
  · rintro ⟨others, span, rfl, rfl⟩
    simp

/-- A list that is written with commas is derived item by item. -/
theorem exists_separated {α β : Type} {Item : List Token → α → Prop} {write : α → List Lexeme}
    {shape : α → β} {items : List α} (nonempty : items ≠ [])
    (rederives : ∀ item ∈ items, Rederives Item write shape item) (ts : List Token)
    (written : ts.map (·.lexeme) = commaSeparated (items.map write)) :
    ∃ values, Separated Item ts values ∧ values.map shape = items.map shape := by
  induction items generalizing ts with
  | nil => exact absurd rfl nonempty
  | cons item items ih =>
    obtain ⟨here, there⟩ := List.forall_mem_cons.mp rederives
    cases items with
    | nil =>
      obtain ⟨value, derived, same⟩ := here ts written
      exact ⟨[value], .last derived, congrArg (fun s => [s]) same⟩
    | cons next items =>
      simp only [List.map_cons, commaSeparated, List.map_eq_append_iff,
        map_lexeme_eq_cons] at written
      obtain ⟨first, _, rfl, firstWritten, comma, others, rfl, othersWritten⟩ := written
      obtain ⟨value, derived, same⟩ := here first firstWritten
      obtain ⟨values, derivedAll, allSame⟩ := ih (by simp) there others othersWritten
      exact ⟨value :: values, .more derived derivedAll, by rw [List.map_cons, same, allSame]; rfl⟩

theorem Expr.lexemesOfAll_eq_map (values : List Expr) :
    lexemesOfAll values = values.map Expr.lexemes := by
  induction values with
  | nil => rfl
  | cons value values ih => simp [lexemesOfAll, ih]

theorem Expr.unplacedAll_eq_map (values : List Expr) :
    unplacedAll values = values.map Expr.unplaced := by
  induction values with
  | nil => rfl
  | cons value values ih => simp [unplacedAll, ih]

theorem Expr.rederives_number (value : Int32) (span : Span) :
    Rederives Expr.Derives Expr.lexemes Expr.unplaced (.number value span) := by
  intro ts written
  have least := value.le_toInt
  have most := value.toInt_lt
  have fits : (UInt32.ofNat value.toInt.natAbs).toNat = value.toInt.natAbs :=
    UInt32.toNat_ofNat_of_lt' (by simp [UInt32.size]; omega)
  unfold lexemes at written
  split at written
  · rename_i negative
    have below : value.toInt < 0 := Int32.lt_iff_toInt_lt.mp negative
    simp only [map_lexeme_eq_cons, List.map_eq_nil_iff] at written
    obtain ⟨sign, _, rfl, place, _, rfl, rfl⟩ := written
    exact ⟨.number value (sign.merge place), .negative (by omega), rfl⟩
  · rename_i negative
    have above : ¬value.toInt < 0 := fun below => negative (Int32.lt_iff_toInt_lt.mpr below)
    simp only [map_lexeme_eq_cons, List.map_eq_nil_iff] at written
    obtain ⟨place, _, rfl, rfl⟩ := written
    exact ⟨.number value place, .number (by omega), rfl⟩

theorem Expr.rederives_call (callee : Name) {args : List Expr} (span : Span)
    (rederives : ∀ arg ∈ args, Rederives Expr.Derives Expr.lexemes Expr.unplaced arg) :
    Rederives Expr.Derives Expr.lexemes Expr.unplaced (.call callee args span) := by
  intro ts written
  simp only [lexemes, lexemesOfAll_eq_map, List.cons_append, map_lexeme_eq_cons,
    map_lexeme_eq_concat] at written
  obtain ⟨start, _, rfl, left, _, rfl, inner, right, rfl, written⟩ := written
  cases args with
  | nil =>
    rw [List.map_eq_nil_iff.mp written]
    exact ⟨_, @Derives.plain ⟨callee.text, start⟩ left right, rfl⟩
  | cons arg args =>
    obtain ⟨values, derived, same⟩ := exists_separated (by simp) rederives inner written
    refine ⟨_, @Derives.call ⟨callee.text, start⟩ left right inner values derived, ?_⟩
    simp only [unplaced, unplacedAll_eq_map, same]
    rfl

mutual

/-- Every value can be derived from the tokens it is written with. -/
theorem Expr.rederives (value : Expr) :
    Rederives Expr.Derives Expr.lexemes Expr.unplaced value := by
  cases value with
  | number value span => exact Expr.rederives_number value span
  | name text span =>
    intro ts written
    simp only [lexemes, map_lexeme_eq_cons, List.map_eq_nil_iff] at written
    obtain ⟨place, _, rfl, rfl⟩ := written
    exact ⟨.name text place, .name, rfl⟩
  | call callee args span => exact Expr.rederives_call callee span (Expr.rederives_all args)

theorem Expr.rederives_all (values : List Expr) :
    ∀ value ∈ values, Rederives Expr.Derives Expr.lexemes Expr.unplaced value := by
  cases values with
  | nil => exact nofun
  | cons value values =>
    exact List.forall_mem_cons.mpr ⟨Expr.rederives value, Expr.rederives_all values⟩

end

theorem Name.rederives (name : Name) :
    Rederives Name.Derives (fun name => [.name name.text]) Name.unplaced name := by
  intro ts written
  simp only [map_lexeme_eq_cons, List.map_eq_nil_iff] at written
  obtain ⟨place, _, rfl, rfl⟩ := written
  exact ⟨⟨name.text, place⟩, rfl, rfl⟩

/-- A statement names what it exports, if it is an export statement. -/
def Statement.NamesExports : Statement → Prop
  | .exports names _ => names ≠ []
  | _ => True

theorem Statement.Derives.namesExports {ts : List Token} {statement : Statement}
    (derived : statement.Derives ts) : statement.NamesExports := by
  cases derived with
  | bind | channel => exact trivial
  | exports derived =>
    cases derived with
    | last | more => exact List.cons_ne_nil _ _

theorem Statement.namesExports_unplaced {statement : Statement} :
    statement.unplaced.NamesExports ↔ statement.NamesExports := by
  cases statement with
  | bind | channel => exact Iff.rfl
  | exports names => simp [unplaced, NamesExports]

/-- Every statement can be derived from the tokens it is written with, unless it exports nothing. -/
theorem Statement.rederives {statement : Statement} (named : statement.NamesExports) :
    Rederives Statement.Derives Statement.lexemes Statement.unplaced statement := by
  intro ts written
  cases statement with
  | bind target value span =>
    simp only [lexemes, List.cons_append, map_lexeme_eq_cons, map_lexeme_eq_concat] at written
    obtain ⟨start, _, rfl, equals, _, rfl, inner, last, rfl, written⟩ := written
    obtain ⟨derived, isDerived, same⟩ := value.rederives inner written
    refine ⟨_, @Derives.bind ⟨target.text, start⟩ equals last inner derived isDerived, ?_⟩
    simp only [unplaced, same]
    rfl
  | channel material name materialType value span =>
    simp only [lexemes, List.cons_append, map_lexeme_eq_cons, map_lexeme_eq_concat] at written
    obtain ⟨left, _, rfl, materialPlace, _, rfl, comma, _, rfl, namePlace, _, rfl, comma', _, rfl,
      typePlace, _, rfl, right, _, rfl, equals, _, rfl, inner, last, rfl, written⟩ := written
    obtain ⟨derived, isDerived, same⟩ := value.rederives inner written
    refine ⟨_, @Derives.channel ⟨material.text, materialPlace⟩ ⟨name.text, namePlace⟩
      ⟨materialType.text, typePlace⟩ left comma comma' right equals last inner derived isDerived,
      ?_⟩
    simp only [unplaced, same]
    rfl
  | exports names span =>
    simp only [lexemes, List.cons_append, map_lexeme_eq_cons, map_lexeme_eq_concat] at written
    obtain ⟨word, _, rfl, inner, last, rfl, written⟩ := written
    obtain ⟨derived, isDerived, same⟩ :=
      exists_separated named (fun name _ => name.rederives) inner written
    refine ⟨.exports derived _, .exports isDerived, ?_⟩
    simp only [unplaced, same]

theorem Statement.exists_deriveAll {statements : List Statement}
    (named : ∀ statement ∈ statements, statement.NamesExports) (ts : List Token)
    (written : ts.map (·.lexeme) = statements.flatMap Statement.lexemes) :
    ∃ derived, Statement.DeriveAll ts derived ∧
      derived.map Statement.unplaced = statements.map Statement.unplaced := by
  induction statements generalizing ts with
  | nil =>
    rw [List.map_eq_nil_iff.mp written]
    exact ⟨[], .nil, rfl⟩
  | cons statement statements ih =>
    obtain ⟨here, there⟩ := List.forall_mem_cons.mp named
    rw [List.flatMap_cons] at written
    obtain ⟨first, others, rfl, firstWritten, othersWritten⟩ := List.map_eq_append_iff.mp written
    obtain ⟨derived, isDerived, same⟩ := Statement.rederives here first firstWritten
    obtain ⟨later, areDerived, allSame⟩ := ih there others othersWritten
    exact ⟨derived :: later, .cons isDerived areDerived, by rw [List.map_cons, same, allSame]; rfl⟩

mutual

/-- The places of its parts do not matter for how deep a value is. -/
theorem Expr.depth_unplaced (value : Expr) : value.unplaced.depth = value.depth := by
  cases value with
  | number | name => rfl
  | call callee args span => exact congrArg (· + 1) (Expr.depths_unplacedAll args)

theorem Expr.depths_unplacedAll (values : List Expr) :
    Expr.depths (Expr.unplacedAll values) = Expr.depths values := by
  cases values with
  | nil => rfl
  | cons value values =>
    simp only [Expr.unplacedAll, Expr.depths, Expr.depth_unplaced value,
      Expr.depths_unplacedAll values]

end

theorem Statement.depth_unplaced (statement : Statement) :
    statement.unplaced.depth = statement.depth := by
  cases statement with
  | bind _ value _ | channel _ _ _ value _ => exact value.depth_unplaced
  | exports => rfl

/-- Scripts that differ only in places are equally deep. -/
theorem Statement.depth_le_of_unplaced {limit : Nat} {statements others : List Statement}
    (same : others.map Statement.unplaced = statements.map Statement.unplaced)
    (shallow : ∀ statement ∈ statements, statement.depth ≤ limit) :
    ∀ statement ∈ others, statement.depth ≤ limit := by
  intro statement member
  have there : statement.unplaced ∈ statements.map Statement.unplaced :=
    same ▸ List.mem_map_of_mem member
  obtain ⟨other, member, isSame⟩ := List.mem_map.mp there
  rw [← statement.depth_unplaced, ← isSame, other.depth_unplaced]
  exact shallow other member

end TextureScript
