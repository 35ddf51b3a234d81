import TextureScript.Diagnostic
import TextureScript.Proofs.Script.Names

/-!
# Where scripts can go wrong

A script is walked over part by part: every use of a name, every call with its arguments, every
value that leaves the script, every name that is bound and everything that is declared. Each part
can have one problem of its own, which depends on the statements before it and not on what else is
wrong. Whether a kind is right is asked only of values that have one: a value fails when a part of
it has a problem, or when it names a binding whose value failed, and then it has no kind.
-/

namespace TextureScript

/-! ## Kinds -/

/-- What names stand for: nothing, a binding that failed, or a value of a kind. -/
abbrev Meanings := String → Option (Option Kind)

/-- The kind of a call of an operation with arguments of some kinds, if those are right. -/
def callKind? (callee : String) (kinds : List (Option Kind)) : Option Kind :=
  match Operation.ofName? callee with
  | some op => if kinds = op.params.map (some ·.kind) then some .image else none
  | none => none

mutual

/-- The kind of a value, unless the value fails. -/
def Expr.kind? (names : Meanings) : Expr → Option Kind
  | .number .. => some .number
  | .name text _ => (names text).join
  | .call callee args _ => callKind? callee.text (kindsOfAll names args)

/-- The kinds of some values. -/
def Expr.kindsOfAll (names : Meanings) : List Expr → List (Option Kind)
  | [] => []
  | value :: values => value.kind? names :: kindsOfAll names values

end

/-- What names stand for after a statement. A name keeps its first meaning, and a binding whose
value fails takes its name. -/
def Statement.give (names : Meanings) : Statement → Meanings
  | .bind target value _ => fun text =>
    (names text).or (if text = target.text then some (value.kind? names) else none)
  | _ => names

/-- What names stand for after some statements, against some inputs. -/
def meanings (inputs : List InputImage) (earlier : List Statement) : Meanings :=
  earlier.foldl Statement.give fun text =>
    if text ∈ inputs.map (·.name) then some (some .image) else none

/-- A name stands for a binding whose value failed. -/
def FailedBinding (inputs : List InputImage) (earlier : List Statement) (text : String) : Prop :=
  ∃ before target value place after, earlier = before ++ .bind target value place :: after ∧
    target.text = text ∧ ¬Known inputs before text ∧ value.kind? (meanings inputs before) = none

/-! ## Parts -/

/-- A part of a script that can have a problem. -/
inductive Part where
  /-- A name that is used or exported. -/
  | use (text : String) (span : Span)
  /-- A call with a number of arguments. -/
  | call (callee : Name) (count : Nat) (span : Span)
  /-- An argument of a call, and the kind that is asked for. -/
  | argument (value : Expr) (expected : Kind)
  /-- A value that leaves the script. -/
  | output (value : Expr)
  /-- A name that is bound. -/
  | target (name : Name)
  /-- A channel that is declared. -/
  | channel (material channel : String) (span : Span)
  /-- A texture that is exported after others. -/
  | texture (name : Name) (before : List String)

/-- The arguments of a call of an operation, if there are as many as the operation takes. -/
def argumentParts (callee : Name) (args : List Expr) : List Part :=
  match Operation.ofName? callee.text with
  | some op =>
    if args.length = op.arity then
      List.zipWith (fun arg param => .argument arg param.kind) args op.params
    else []
  | none => []

mutual

/-- The parts of a value: those of the arguments of a call come before the call. -/
def Expr.parts : Expr → List Part
  | .number .. => []
  | .name text span => [.use text span]
  | .call callee args span =>
    partsOfAll args ++ .call callee args.length span :: argumentParts callee args

/-- The parts of some values. -/
def Expr.partsOfAll : List Expr → List Part
  | [] => []
  | value :: values => value.parts ++ partsOfAll values

end

/-- The parts of an export statement after other exports. Only the first export of a name uses
it. -/
def exportParts (before : List String) : List Name → List Part
  | [] => []
  | name :: names =>
    .texture name before ::
      (if name.text ∈ before then []
        else [.use name.text name.span, .output (.name name.text name.span)]) ++
      exportParts (before ++ [name.text]) names

/-- The parts of a statement after some exports. -/
def Statement.parts (before : List String) : Statement → List Part
  | .bind target value _ => value.parts ++ [.target target]
  | .channel material channelName _ value span =>
    value.parts ++ [.output value, .channel material.text channelName.text span]
  | .exports names _ => exportParts before names

/-- A part of a script and the statements before the one it stands in. -/
structure Site where
  /-- The statements before. -/
  earlier : List Statement
  /-- The part. -/
  part : Part

/-- The sites of some statements after others. -/
def sitesFrom (earlier : List Statement) : List Statement → List Site
  | [] => []
  | statement :: later =>
    (statement.parts (textureNames earlier)).map (⟨earlier, ·⟩) ++
      sitesFrom (earlier ++ [statement]) later

/-- The sites of a script in the order in which it is walked over. -/
def Script.sites (script : Script) : List Site :=
  sitesFrom [] script.statements

/-! ## Problems -/

/-- The kind of a problem, and where it is. -/
structure Problem where
  /-- The kind of problem. -/
  code : Code
  /-- Where it is. -/
  span : Span
deriving DecidableEq, Repr

/-- The problem of a value that has a kind other than the one that is asked for. -/
def kindProblem? (kind : Option Kind) (expected : Kind) (problem : Problem) : Option Problem :=
  kind.bind fun kind => if kind = expected then none else some problem

/-- The problem of a part after some statements, if it has one. -/
def Part.problem? (inputs : List InputImage) (earlier : List Statement) : Part → Option Problem
  | .use text span =>
    if Known inputs earlier text then none else some ⟨.unresolvedIdentifier, span⟩
  | .call callee count span =>
    match Operation.ofName? callee.text with
    | none => some ⟨.unknownFunction, callee.span⟩
    | some op => if count = op.arity then none else some ⟨.arityMismatch, span⟩
  | .argument value expected =>
    kindProblem? (value.kind? (meanings inputs earlier)) expected
      ⟨.argumentKindMismatch, value.span⟩
  | .output value =>
    kindProblem? (value.kind? (meanings inputs earlier)) .image ⟨.notAnImage, value.span⟩
  | .target name =>
    if Known inputs earlier name.text then some ⟨.duplicateBinding, name.span⟩ else none
  | .channel material channelName span =>
    if (material, channelName) ∈ channelKeys earlier then some ⟨.duplicateChannel, span⟩ else none
  | .texture name before =>
    if name.text ∈ before then some ⟨.duplicateChannel, name.span⟩ else none

/-- The problem of a site, if it has one. -/
def Site.problem? (inputs : List InputImage) (site : Site) : Option Problem :=
  site.part.problem? inputs site.earlier

/-! ## Meanings -/

section

variable {inputs : List InputImage} {earlier : List Statement} {text : String}

theorem meanings_concat (inputs : List InputImage) (earlier : List Statement)
    (statement : Statement) :
    meanings inputs (earlier ++ [statement]) = statement.give (meanings inputs earlier) := by
  simp [meanings]

/-- Names without a meaning are those that are not known. -/
theorem meanings_eq_none : meanings inputs earlier text = none ↔ ¬Known inputs earlier text := by
  induction earlier using List.reverseRecOn with
  | nil => simp [meanings, Known, boundNames]
  | append_singleton earlier statement ih =>
    rw [meanings_concat, Known, boundNames_concat, List.mem_append, ← or_assoc, not_or, ← ih]
    cases statement with
    | bind target value span => simp [Statement.give, Statement.bound]
    | channel | exports => simp [Statement.give, Statement.bound]

theorem failedBinding_concat {statement : Statement} :
    FailedBinding inputs (earlier ++ [statement]) text ↔
      FailedBinding inputs earlier text ∨ ∃ target value span, statement = .bind target value span ∧
        target.text = text ∧ ¬Known inputs earlier text ∧
        value.kind? (meanings inputs earlier) = none := by
  constructor
  · rintro ⟨before, target, value, place, after, split, bound⟩
    rcases concat_eq_append_cons_iff.mp split with ⟨rfl, rfl, -⟩ | ⟨others, -, rfl⟩
    · exact .inr ⟨target, value, place, rfl, bound⟩
    · exact .inl ⟨before, target, value, place, others, rfl, bound⟩
  · rintro (⟨before, target, value, place, after, rfl, bound⟩ | ⟨target, value, span, rfl, bound⟩)
    · exact ⟨before, target, value, place, after ++ [statement], by simp, bound⟩
    · exact ⟨earlier, target, value, span, [], rfl, bound⟩

/-- Names that stand for nothing usable are those of bindings that failed. -/
theorem meanings_eq_failed :
    meanings inputs earlier text = some none ↔ FailedBinding inputs earlier text := by
  induction earlier using List.reverseRecOn with
  | nil => simp [meanings, FailedBinding]
  | append_singleton earlier statement ih =>
    rw [meanings_concat, failedBinding_concat, ← ih, ← meanings_eq_none]
    cases statement with
    | channel | exports => simp [Statement.give]
    | bind target value span =>
      cases before : meanings inputs earlier text with
      | some meaning => simp [Statement.give, before]
      | none =>
        by_cases same : target.text = text
        · simp [Statement.give, before, same]
        · simp [Statement.give, before, same, Ne.symm same]

/-! ## Values that fail -/

theorem Expr.kindsOfAll_eq_map (names : Meanings) (values : List Expr) :
    kindsOfAll names values = values.map (Expr.kind? names) := by
  induction values with
  | nil => rfl
  | cons value values ih => simp [kindsOfAll, ih]

/-- Some part has a problem. -/
def Troubled (inputs : List InputImage) (earlier : List Statement) (parts : List Part) : Prop :=
  ∃ part ∈ parts, (part.problem? inputs earlier).isSome

/-- Some name stands for a binding that failed. -/
def NamesFailed (inputs : List InputImage) (earlier : List Statement) (names : List String) :
    Prop :=
  ∃ text ∈ names, FailedBinding inputs earlier text

/-- Arguments do not have the kinds that are asked for exactly when one of them fails or has a
problem of its own. -/
theorem kinds_ne_iff {args : List Expr} {params : List Parameter}
    (count : args.length = params.length) :
    args.map (Expr.kind? (meanings inputs earlier)) ≠ params.map (some ·.kind) ↔
      none ∈ args.map (Expr.kind? (meanings inputs earlier)) ∨
        Troubled inputs earlier
          (List.zipWith (fun arg param => Part.argument arg param.kind) args params) := by
  induction args generalizing params with
  | nil =>
    cases params with
    | nil => simp [Troubled]
    | cons => cases count
  | cons arg args ih =>
    cases params with
    | nil => cases count
    | cons param params =>
      have rest := ih (Nat.succ.inj count)
      simp only [Troubled, List.map_cons, List.zipWith_cons_cons, List.mem_cons, ne_eq,
        List.cons.injEq, not_and_or] at rest ⊢
      rw [rest]
      cases kind : arg.kind? (meanings inputs earlier) with
      | none => simp [Part.problem?, kind]
      | some found =>
        by_cases right : found = param.kind
        · simp [Part.problem?, kindProblem?, kind, right]
        · simp [Part.problem?, kindProblem?, kind, right]

theorem troubled_append {parts more : List Part} :
    Troubled inputs earlier (parts ++ more) ↔
      Troubled inputs earlier parts ∨ Troubled inputs earlier more := by
  simp only [Troubled, List.mem_append, or_and_right, exists_or]

theorem namesFailed_append {names more : List String} :
    NamesFailed inputs earlier (names ++ more) ↔
      NamesFailed inputs earlier names ∨ NamesFailed inputs earlier more := by
  simp only [NamesFailed, List.mem_append, or_and_right, exists_or]

/-- A call fails when one of its arguments does, or when it has a problem with its operation or with
the kinds of its arguments. -/
theorem callKind?_eq_none (callee : Name) (args : List Expr) (span : Span) :
    callKind? callee.text (args.map (Expr.kind? (meanings inputs earlier))) = none ↔
      none ∈ args.map (Expr.kind? (meanings inputs earlier)) ∨
        Troubled inputs earlier (.call callee args.length span :: argumentParts callee args) := by
  unfold callKind? argumentParts
  cases named : Operation.ofName? callee.text with
  | none => simp [Troubled, Part.problem?, named]
  | some op =>
    by_cases count : args.length = op.arity
    · have kinds : args.map (Expr.kind? (meanings inputs earlier)) ≠
          op.params.map (some ·.kind) ↔ _ := kinds_ne_iff count
      simp only [Troubled, count, ↓reduceIte, List.mem_cons, exists_eq_or_imp] at kinds ⊢
      rw [or_left_comm, ← kinds]
      simp [Part.problem?, named]
    · have differ : args.map (Expr.kind? (meanings inputs earlier)) ≠
          op.params.map (some ·.kind) := by
        intro same
        have lengths := congrArg List.length same
        rw [List.length_map, List.length_map] at lengths
        exact count lengths
      simp [Troubled, Part.problem?, named, count, differ]

mutual

/-- A value has no kind exactly when a part of it has a problem or it names a binding that
failed. -/
theorem Expr.kind?_eq_none (e : Expr) :
    e.kind? (meanings inputs earlier) = none ↔
      Troubled inputs earlier e.parts ∨ NamesFailed inputs earlier e.names := by
  cases e with
  | number value span => simp [kind?, parts, names, Troubled, NamesFailed]
  | name text span =>
    have undetermined : (Expr.name text span).kind? (meanings inputs earlier) = none ↔
        meanings inputs earlier text = none ∨ meanings inputs earlier text = some none := by
      simp only [kind?, Option.join_eq_none_iff]
    rw [undetermined, meanings_eq_none, meanings_eq_failed]
    simp [parts, names, Troubled, NamesFailed, Part.problem?]
  | call callee args span =>
    rw [kind?, kindsOfAll_eq_map, callKind?_eq_none callee args span, Expr.kinds_eq_none args,
      parts, names, troubled_append]
    exact or_right_comm

theorem Expr.kinds_eq_none (args : List Expr) :
    none ∈ args.map (Expr.kind? (meanings inputs earlier)) ↔
      Troubled inputs earlier (partsOfAll args) ∨ NamesFailed inputs earlier (namesOfAll args) := by
  cases args with
  | nil => simp [partsOfAll, namesOfAll, Troubled, NamesFailed]
  | cons arg args =>
    rw [List.map_cons, List.mem_cons, eq_comm, Expr.kind?_eq_none arg, Expr.kinds_eq_none args,
      partsOfAll, namesOfAll, troubled_append, namesFailed_append]
    exact or_or_or_comm

end

end

end TextureScript
