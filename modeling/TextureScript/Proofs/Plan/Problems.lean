import TextureScript.Proofs.Plan.Checking
import TextureScript.Proofs.Script.Sites

/-!
# Problems are reported at their root, once

Resolving reports the problems of the sites of a script, one by one in the order of the walk, and no
other error. Along the walk the scope knows of every name what it stands for after the statements so
far, and of every binding that failed that it failed; so a value comes out with its kind, or with
nothing if it fails, and nothing is reported about what is made of a value that failed.
-/

namespace TextureScript

/-- The names of a scope stand for what they stand for after some statements. -/
def Scope.Means (inputs : List InputImage) (earlier : List Statement) (scope : Scope) : Prop :=
  ∀ text, (scope.lookup text).map Symbol.kind? = meanings inputs earlier text

namespace Scope.Means

variable {inputs : List InputImage} {earlier : List Statement} {scope : Scope} {target : Name}
  {value : Expr} {span : Span}

/-- The names that are found are those that are known. -/
theorem lookup_eq_none (means : scope.Means inputs earlier) (text : String) :
    scope.lookup text = none ↔ ¬Known inputs earlier text := by
  rw [← meanings_eq_none, ← means text, Option.map_eq_none_iff]

/-- A binding gives its name a meaning. -/
theorem define_ok (means : scope.Means inputs earlier) {symbol : Symbol} {defined : Scope}
    (kind : symbol.kind? = value.kind? (meanings inputs earlier))
    (ok : scope.define target.text symbol target.span = .ok defined) :
    defined.Means inputs (earlier ++ [.bind target value span]) := by
  intro text
  rw [Scope.lookup_define ok, meanings_concat, Statement.give]
  by_cases same : text = target.text
  · have fresh : meanings inputs earlier target.text = none := by
      rw [← means target.text, Scope.lookup_eq_none_of_ok ok]
      rfl
    simp [same, fresh, kind]
  · simp [same, means text]

/-- A binding of a name that is known leaves its meaning. -/
theorem define_error (means : scope.Means inputs earlier)
    (taken : Known inputs earlier target.text) :
    scope.Means inputs (earlier ++ [.bind target value span]) := by
  intro text
  rw [means text, meanings_concat, Statement.give]
  by_cases same : text = target.text
  · have hasMeaning : meanings inputs earlier target.text ≠ none :=
      fun none => meanings_eq_none.mp none taken
    obtain ⟨meaning, found⟩ := Option.ne_none_iff_exists'.mp hasMeaning
    simp [same, found]
  · simp [same]

end Scope.Means

namespace Resolution

/-- The errors reported so far. -/
def errors (r : Resolution) : List Problem :=
  (r.findings.toList.filter (·.severity = .error)).map fun finding => ⟨finding.code, finding.span⟩

/-- Between two points of the walk the problems of some parts are reported. -/
def Reports (inputs : List InputImage) (earlier : List Statement) (before after : Resolution)
    (parts : List Part) : Prop :=
  after.errors = before.errors ++ parts.filterMap (Part.problem? inputs earlier)

section

variable {inputs : List InputImage} {earlier : List Statement} {r : Resolution}

theorem Reports.refl (r : Resolution) : Reports inputs earlier r r [] :=
  (List.append_nil _).symm

theorem Reports.append {first second third : Resolution} {parts more : List Part}
    (here : Reports inputs earlier first second parts)
    (later : Reports inputs earlier second third more) :
    Reports inputs earlier first third (parts ++ more) := by
  unfold Reports at *
  rw [later, here, List.append_assoc, List.filterMap_append]

/-- A part with a problem is reported. -/
theorem reports_problem {part : Part} {finding : Finding} (isError : finding.severity = .error)
    (problem : part.problem? inputs earlier = some ⟨finding.code, finding.span⟩) :
    Reports inputs earlier r (r.report finding) [part] := by
  simp [Reports, errors, report, isError, problem]

/-- A part without a problem is passed over. -/
theorem reports_nothing {part : Part} (fine : part.problem? inputs earlier = none) :
    Reports inputs earlier r r [part] := by
  simp [Reports, fine]

/-! ## Values -/

theorem resolveName_reports (means : r.scope.Means inputs earlier) (text : String) (span : Span) :
    (r.resolveName text span).1.map (·.2) = (meanings inputs earlier text).join ∧
      Reports inputs earlier r (r.resolveName text span).2 [.use text span] := by
  unfold resolveName
  rw [← means text]
  cases found : r.scope.lookup text with
  | none =>
    exact ⟨rfl, reports_problem rfl (if_neg ((means.lookup_eq_none text).mp found))⟩
  | some symbol =>
    have known : Known inputs earlier text := by
      by_contra unknown
      rw [(means.lookup_eq_none text).mpr unknown] at found
      cases found
    have fine : Reports inputs earlier r r [.use text span] := reports_nothing (if_pos known)
    cases symbol <;> exact ⟨rfl, fine⟩

/-- Arguments are checked one by one. They are all right when they have the kinds of the
parameters. -/
theorem checkArguments_reports (op : Operation) {args : List (Expr × Option Typed)}
    (kinds : ∀ arg ∈ args, arg.2.map (·.2) = arg.1.kind? (meanings inputs earlier))
    {params : List Parameter} (count : args.length = params.length) :
    ((checkArguments op r args params).1.isSome ↔
        args.map (fun arg => arg.1.kind? (meanings inputs earlier)) =
          params.map (some ·.kind)) ∧
      Reports inputs earlier r (checkArguments op r args params).2
        (List.zipWith (fun arg param => .argument arg.1 param.kind) args params) := by
  induction args generalizing r params with
  | nil =>
    cases params with
    | nil => exact ⟨by simp [checkArguments], .refl r⟩
    | cons => cases count
  | cons arg args ih =>
    obtain ⟨arg, lowered⟩ := arg
    cases params with
    | nil => cases count
    | cons param params =>
      obtain ⟨here, later⟩ := List.forall_mem_cons.mp kinds
      have fewer : args.length = params.length := Nat.succ.inj count
      simp only [checkArguments, List.map_cons, List.cons.injEq, List.zipWith_cons_cons]
      cases lowered with
      | none =>
        obtain ⟨-, reports⟩ := ih (r := r) later fewer
        have undetermined : arg.kind? (meanings inputs earlier) = none := here.symm
        have fine : Part.problem? inputs earlier (.argument arg param.kind) = none := by
          simp [Part.problem?, kindProblem?, undetermined]
        refine ⟨?_, (reports_nothing fine).append reports⟩
        simp [undetermined]
      | some typed =>
        obtain ⟨operand, kind⟩ := typed
        have determined : arg.kind? (meanings inputs earlier) = some kind := here.symm
        by_cases right : kind = param.kind
        · obtain ⟨all, reports⟩ := ih (r := r) later fewer
          have fine : Part.problem? inputs earlier (.argument arg param.kind) = none := by
            simp [Part.problem?, kindProblem?, determined, right]
          simp only [right, ↓reduceIte]
          refine ⟨?_, (reports_nothing fine).append reports⟩
          simpa [determined, right] using all
        · obtain ⟨-, reports⟩ :=
            ih (r := r.report (argumentKindFinding op param kind arg.span)) later fewer
          have problem : Part.problem? inputs earlier (.argument arg param.kind) =
              some ⟨.argumentKindMismatch, arg.span⟩ := by
            simp [Part.problem?, kindProblem?, determined, right]
          simp only [right, ↓reduceIte]
          refine ⟨?_, (reports_problem rfl problem).append reports⟩
          simp [determined, right]

/-- A call of which the arguments are resolved is an image, or fails. -/
theorem resolveCall_reports (callee : Name) {args : List (Expr × Option Typed)} {values : List Expr}
    (listed : args.map (·.1) = values)
    (kinds : ∀ arg ∈ args, arg.2.map (·.2) = arg.1.kind? (meanings inputs earlier)) (span : Span) :
    (r.resolveCall callee args span).1.map (fun _ => Kind.image) =
        callKind? callee.text (values.map (Expr.kind? (meanings inputs earlier))) ∧
      Reports inputs earlier r (r.resolveCall callee args span).2
        (.call callee values.length span :: argumentParts callee values) := by
  subst listed
  unfold resolveCall callKind? argumentParts
  cases named : Operation.ofName? callee.text with
  | none =>
    have problem : Part.problem? inputs earlier (.call callee args.length span) =
        some ⟨.unknownFunction, callee.span⟩ := by
      simp [Part.problem?, named]
    simp only [List.length_map]
    exact ⟨rfl, reports_problem rfl problem⟩
  | some op =>
    by_cases count : args.length = op.arity
    · obtain ⟨all, reports⟩ := checkArguments_reports (r := r) op kinds count
      have fine : Part.problem? inputs earlier (.call callee args.length span) = none := by
        simp [Part.problem?, named, count]
      simp only [List.length_map, count, ↓reduceIte, List.map_map, List.zipWith_map_left]
      refine ⟨?_, count ▸ (reports_nothing fine).append reports⟩
      change Option.map _ ((checkArguments op r args op.params).1.map _) =
        if args.map (fun arg => arg.1.kind? (meanings inputs earlier)) = _ then _ else _
      rw [← if_congr all rfl rfl]
      cases (checkArguments op r args op.params).1 <;> rfl
    · have problem : Part.problem? inputs earlier (.call callee args.length span) =
          some ⟨.arityMismatch, span⟩ := by
        simp [Part.problem?, named, count]
      have differ : (args.map (·.1)).map (Expr.kind? (meanings inputs earlier)) ≠
          op.params.map (some ·.kind) := by
        intro same
        have lengths := congrArg List.length same
        simp only [List.length_map] at lengths
        exact count lengths
      simp only [List.length_map, count, differ, ↓reduceIte]
      exact ⟨rfl, reports_problem rfl problem⟩

mutual

/-- A value comes out with its kind, or with nothing if it fails. -/
theorem resolveOperand_reports {r : Resolution} (means : r.scope.Means inputs earlier) (e : Expr) :
    (r.resolveOperand e).1.map (·.2) = e.kind? (meanings inputs earlier) ∧
      Reports inputs earlier r (r.resolveOperand e).2 e.parts := by
  cases e with
  | number value span =>
    simp only [resolveOperand]
    exact ⟨rfl, .refl r⟩
  | name text span =>
    simp only [resolveOperand]
    exact resolveName_reports means text span
  | call callee args span =>
    obtain ⟨listed, kinds, reports⟩ := resolveOperands_reports means args
    obtain ⟨kind, called⟩ := resolveCall_reports (r := (r.resolveOperands args).2) callee listed
      kinds span
    have both := reports.append called
    simp only [resolveOperand, Expr.kind?, Expr.kindsOfAll_eq_map, Expr.parts]
    rw [← kind]
    generalize (r.resolveOperands args).2.resolveCall callee (r.resolveOperands args).1 span =
      found at both ⊢
    obtain ⟨_ | value, after⟩ := found
    · exact ⟨rfl, both⟩
    · exact ⟨rfl, both⟩

/-- Values come out with their kinds, from left to right. -/
theorem resolveOperands_reports {r : Resolution} (means : r.scope.Means inputs earlier)
    (args : List Expr) :
    (r.resolveOperands args).1.map (·.1) = args ∧
      (∀ arg ∈ (r.resolveOperands args).1,
        arg.2.map (·.2) = arg.1.kind? (meanings inputs earlier)) ∧
      Reports inputs earlier r (r.resolveOperands args).2 (Expr.partsOfAll args) := by
  cases args with
  | nil =>
    simp only [resolveOperands]
    exact ⟨rfl, nofun, .refl r⟩
  | cons arg args =>
    obtain ⟨kind, reports⟩ := resolveOperand_reports means arg
    have still : (r.resolveOperand arg).2.scope.Means inputs earlier := by
      rwa [(r.resolveOperand_extends arg).scope]
    obtain ⟨listed, kinds, later⟩ := resolveOperands_reports still args
    simp only [resolveOperands, List.map_cons, List.forall_mem_cons, listed, Expr.partsOfAll]
    exact ⟨trivial, ⟨kind, kinds⟩, reports.append later⟩

end

theorem resolveValue_reports (means : r.scope.Means inputs earlier) (e : Expr) :
    (r.resolveValue e).1.map (·.2) = e.kind? (meanings inputs earlier) ∧
      Reports inputs earlier r (r.resolveValue e).2 e.parts := by
  cases e with
  | number value span =>
    obtain ⟨kind, reports⟩ := resolveOperand_reports means (.number value span)
    simp only [resolveValue, Option.map_map]
    exact ⟨kind, reports⟩
  | name text span =>
    obtain ⟨kind, reports⟩ := resolveOperand_reports means (.name text span)
    simp only [resolveValue, Option.map_map]
    exact ⟨kind, reports⟩
  | call callee args span =>
    obtain ⟨listed, kinds, reports⟩ := resolveOperands_reports means args
    obtain ⟨kind, called⟩ := resolveCall_reports (r := (r.resolveOperands args).2) callee listed
      kinds span
    refine ⟨?_, reports.append called⟩
    rw [Expr.kind?, Expr.kindsOfAll_eq_map, ← kind, resolveValue, Option.map_map]
    rfl

/-- A value that leaves the script is reported when it is a number, and not when it failed. -/
theorem resolveOutput_reports (means : r.scope.Means inputs earlier) (e : Expr) :
    Reports inputs earlier r (r.resolveOutput e).2 (e.parts ++ [.output e]) := by
  obtain ⟨kind, reports⟩ := resolveOperand_reports means e
  have output : Part.problem? inputs earlier (.output e) =
    kindProblem? (e.kind? (meanings inputs earlier)) .image ⟨.notAnImage, e.span⟩ := rfl
  rw [← kind] at output
  unfold resolveOutput
  generalize r.resolveOperand e = found at reports output ⊢
  obtain ⟨_ | ⟨operand, _ | _⟩, after⟩ := found
  · exact reports.append (reports_nothing output)
  · exact reports.append (reports_nothing output)
  · exact reports.append (reports_problem rfl output)

/-! ## Statements -/

section

variable {κ : Type} {cmp : κ → κ → Ordering} {places : Std.TreeMap κ Span cmp} {keys : List κ}
  {key : κ}

/-- What is declared again is listed again, and has its place already. -/
theorem listed_again (listed : ∀ other, places[other]? = none ↔ other ∉ keys) (again : key ∈ keys) :
    ∀ other, places[other]? = none ↔ other ∉ keys ++ [key] := by
  intro other
  rw [List.mem_append, List.mem_singleton]
  refine (listed other).trans (not_congr (or_iff_left_of_imp ?_).symm)
  rintro rfl
  exact again

/-- What is declared is listed, and gets a place. -/
theorem listed_insert [Std.TransCmp cmp] [Std.LawfulEqCmp cmp]
    (listed : ∀ other, places[other]? = none ↔ other ∉ keys) (span : Span) :
    ∀ other, (places.insert key span)[other]? = none ↔ other ∉ keys ++ [key] := by
  intro other
  rw [List.mem_append, List.mem_singleton, Std.TreeMap.getElem?_insert]
  by_cases same : key = other
  · simp [same]
  · simp [same, Ne.symm same, listed other]

end

/-- What a resolution knows of the statements so far, and of the textures exported so far. -/
structure Follows (inputs : List InputImage) (earlier : List Statement) (exported : List String)
    (r : Resolution) : Prop where
  /-- Names stand for what they stand for after the statements. -/
  scope : r.scope.Means inputs earlier
  /-- The channels are those of the statements. -/
  channels : ∀ key : String × String, r.channels[key]? = none ↔ key ∉ channelKeys earlier
  /-- The textures are those exported. -/
  textures : ∀ text, r.textures[text]? = none ↔ text ∉ exported

variable {exported : List String}

theorem Follows.of_extends {after : Resolution}
    (follows : r.Follows inputs earlier exported) (extended : r.Extends after) :
    after.Follows inputs earlier exported where
  scope := by
    rw [extended.scope]
    exact follows.scope
  channels := by
    rw [extended.channels]
    exact follows.channels
  textures := by
    rw [extended.textures]
    exact follows.textures

theorem resolveBinding_reports (follows : r.Follows inputs earlier exported)
    (target : Name) (value : Expr) (span : Span) :
    (r.resolveBinding target value span).Follows inputs (earlier ++ [.bind target value span])
        exported ∧
      Reports inputs earlier r (r.resolveBinding target value span)
        (value.parts ++ [.target target]) := by
  obtain ⟨kind, reports⟩ := resolveValue_reports follows.scope value
  have extended := r.resolveValue_extends value
  obtain ⟨symbol, after, added, defined⟩ := r.resolveBinding_cases target value span
  -- whether or not a step is added, the name gets the kind of its value
  obtain ⟨symbolKind, extended, reports⟩ : symbol.kind? = value.kind? (meanings inputs earlier) ∧
      r.Extends after ∧ Reports inputs earlier r after value.parts := by
    rw [← kind]
    rcases added with ⟨result, found, isFound, rfl, rfl⟩ | ⟨isNone, rfl, rfl⟩
    · rw [isFound]
      exact ⟨rfl, extended.trans (addBinding_extends _ _), reports⟩
    · rw [isNone]
      exact ⟨rfl, extended, reports⟩
  have middle := follows.of_extends extended
  have channelKeys : channelKeys (earlier ++ [.bind target value span]) = channelKeys earlier := by
    simp [channelKeys_concat, Statement.channels]
  have channels : ∀ key : String × String,
      after.channels[key]? = none ↔ key ∉ TextureScript.channelKeys
        (earlier ++ [.bind target value span]) := by
    rw [channelKeys]
    exact middle.channels
  rcases defined with ⟨scope, ok, found⟩ | ⟨conflict, failed, found⟩
  · have fresh := (middle.scope.lookup_eq_none target.text).mp (Scope.lookup_eq_none_of_ok ok)
    rw [found]
    exact ⟨⟨middle.scope.define_ok symbolKind ok, channels, middle.textures⟩,
      reports.append (reports_nothing (if_neg fresh))⟩
  · have taken : Known inputs earlier target.text := by
      by_contra unknown
      exact Scope.lookup_ne_none_of_error failed ((middle.scope.lookup_eq_none _).mpr unknown)
    have error : (conflictFinding target conflict).severity = .error ∧
        (conflictFinding target conflict).code = .duplicateBinding ∧
        (conflictFinding target conflict).span = target.span := by
      cases conflict <;> exact ⟨rfl, rfl, rfl⟩
    obtain ⟨isError, code, place⟩ := error
    have problem : Part.problem? inputs earlier (.target target) =
        some ⟨(conflictFinding target conflict).code, (conflictFinding target conflict).span⟩ := by
      rw [code, place]
      exact if_pos taken
    rw [found]
    exact ⟨⟨middle.scope.define_error taken, channels, middle.textures⟩,
      reports.append (reports_problem isError problem)⟩

/-- What is said about the type of a material is a warning. -/
theorem checkMaterial_reports (channel materialType : Name) :
    Reports inputs earlier r (r.checkMaterial channel materialType) [] := by
  unfold checkMaterial
  cases found : materialFinding? channel materialType with
  | none => exact .refl r
  | some finding => simp [Reports, errors, report, severity_materialFinding? found]

theorem resolveChannel_reports (follows : r.Follows inputs earlier exported)
    (material channel materialType : Name) (value : Expr) (span : Span) :
    (r.resolveChannel material channel materialType value span).Follows inputs
        (earlier ++ [.channel material channel materialType value span]) exported ∧
      Reports inputs earlier r (r.resolveChannel material channel materialType value span)
        (value.parts ++ [.output value, .channel material.text channel.text span]) := by
  have checked := follows.of_extends (r.checkMaterial_extends channel materialType)
  obtain ⟨source, after, output, outcome⟩ :=
    r.resolveChannel_cases material channel materialType value span
  have extended := (r.checkMaterial channel materialType).resolveOutput_extends value
  have reports := (checkMaterial_reports channel materialType).append
    (resolveOutput_reports checked.scope value)
  rw [output] at extended reports
  have middle := checked.of_extends extended
  have scope : after.scope.Means inputs
      (earlier ++ [.channel material channel materialType value span]) := by
    rw [Scope.Means, meanings_concat]
    exact middle.scope
  have keys : channelKeys (earlier ++ [.channel material channel materialType value span]) =
      channelKeys earlier ++ [(material.text, channel.text)] := by
    simp [channelKeys_concat, Statement.channels]
  have parts : value.parts ++ [.output value, .channel material.text channel.text span] =
    [] ++ (value.parts ++ [.output value]) ++ [.channel material.text channel.text span] :=
    List.append_cons _ _ _
  rw [parts]
  rcases outcome with ⟨first, again, found⟩ | ⟨fresh, found⟩
  · have declared : (material.text, channel.text) ∈ channelKeys earlier := by
      by_contra undeclared
      rw [(middle.channels _).mpr undeclared] at again
      cases again
    rw [found]
    refine ⟨⟨scope, ?_, middle.textures⟩,
      reports.append (reports_problem rfl (if_pos declared))⟩
    rw [keys]
    exact listed_again middle.channels declared
  · have undeclared := (middle.channels _).mp fresh
    rw [found]
    refine ⟨⟨scope, ?_, middle.textures⟩, reports.append (reports_nothing (if_neg undeclared))⟩
    rw [keys]
    exact listed_insert middle.channels span

theorem resolveExport_reports (follows : r.Follows inputs earlier exported)
    (name : Name) :
    (r.resolveExport name).Follows inputs earlier (exported ++ [name.text]) ∧
      Reports inputs earlier r (r.resolveExport name) (exportParts exported [name]) := by
  simp only [exportParts, List.append_nil]
  rcases r.resolveExport_cases name with
    ⟨first, again, found⟩ | ⟨fresh, source, after, output, found⟩
  · have listed : name.text ∈ exported := by
      by_contra unlisted
      rw [(follows.textures _).mpr unlisted] at again
      cases again
    rw [found, if_pos listed]
    exact ⟨⟨follows.scope, follows.channels, listed_again follows.textures listed⟩,
      reports_problem rfl (if_pos listed)⟩
  · have unlisted := (follows.textures _).mp fresh
    have declared : Follows inputs earlier (exported ++ [name.text])
        { r with textures := r.textures.insert name.text name.span } :=
      ⟨follows.scope, follows.channels, listed_insert follows.textures name.span⟩
    have extended := resolveOutput_extends
      { r with textures := r.textures.insert name.text name.span } (.name name.text name.span)
    have reports := resolveOutput_reports declared.scope (.name name.text name.span)
    rw [output] at extended reports
    have passed : Reports inputs earlier r
      { r with textures := r.textures.insert name.text name.span } [.texture name exported] :=
      reports_nothing (if_neg unlisted)
    obtain ⟨scope, channels, textures⟩ := declared.of_extends extended
    rw [found, if_neg unlisted]
    exact ⟨⟨scope, channels, textures⟩, passed.append reports⟩

/-- The names of an export statement are resolved one after the other. -/
theorem resolveExports_reports (follows : r.Follows inputs earlier exported)
    (names : List Name) :
    (names.foldl resolveExport r).Follows inputs earlier (exported ++ names.map (·.text)) ∧
      Reports inputs earlier r (names.foldl resolveExport r) (exportParts exported names) := by
  induction names generalizing r exported with
  | nil =>
    rw [List.map_nil, List.append_nil]
    exact ⟨follows, .refl r⟩
  | cons name names ih =>
    obtain ⟨exports, here⟩ := resolveExport_reports follows name
    obtain ⟨all, later⟩ := ih exports
    have parts : exportParts exported (name :: names) =
        exportParts exported [name] ++ exportParts (exported ++ [name.text]) names := by
      simp only [exportParts, List.append_nil]
    rw [parts, List.map_cons, List.append_cons]
    exact ⟨all, here.append later⟩

/-- A statement is resolved: the problems of its parts are reported, and it counts as an earlier
statement from then on. -/
theorem resolveStatement_reports (follows : r.Follows inputs earlier (textureNames earlier))
    (statement : Statement) :
    (r.resolveStatement statement).Follows inputs (earlier ++ [statement])
        (textureNames (earlier ++ [statement])) ∧
      Reports inputs earlier r (r.resolveStatement statement)
        (statement.parts (textureNames earlier)) := by
  rw [textureNames_concat]
  cases statement with
  | bind target value span =>
    simp only [Statement.textures, List.append_nil]
    exact resolveBinding_reports follows target value span
  | channel material channel materialType value span =>
    simp only [Statement.textures, List.append_nil]
    exact resolveChannel_reports follows material channel materialType value span
  | exports names span =>
    obtain ⟨⟨scope, channels, textures⟩, reports⟩ := resolveExports_reports follows names
    refine ⟨⟨?_, ?_, textures⟩, reports⟩
    · rw [Scope.Means, meanings_concat]
      exact scope
    · simp only [channelKeys_concat, Statement.channels, List.map_nil, List.append_nil]
      exact channels

/-- The problems of all sites are reported in their order. -/
theorem errors_foldl (follows : r.Follows inputs earlier (textureNames earlier))
    (statements : List Statement) :
    (statements.foldl resolveStatement r).errors =
      r.errors ++ (sitesFrom earlier statements).filterMap (Site.problem? inputs) := by
  induction statements generalizing r earlier with
  | nil => simp [sitesFrom]
  | cons statement statements ih =>
    obtain ⟨later, reports⟩ := resolveStatement_reports follows statement
    rw [List.foldl_cons, ih later, reports, sitesFrom, List.filterMap_append, List.filterMap_map,
      List.append_assoc]
    rfl

theorem follows_ofInputs (inputs : List InputImage) :
    Follows inputs [] (textureNames []) { scope := .ofInputs inputs } := by
  refine ⟨?_, by simp [channelKeys], by simp [textureNames]⟩
  intro text
  rcases Scope.lookup_ofInputs_cases inputs text with ⟨listed, handle, found⟩ | ⟨unlisted, found⟩
  · simp only [found, meanings, List.foldl_nil, listed, ↓reduceIte]
    rfl
  · simp only [found, meanings, List.foldl_nil, unlisted, ↓reduceIte]
    rfl

end

end Resolution

/-- Every problem is reported exactly once, at its root. The errors that resolving reports are the
problems of the sites of the script, in the order of the walk, each site having one problem at most.
A value has a kind, which can be wrong, unless a part of it has a problem or it names a binding that
failed. Using a binding that failed is no problem. -/
theorem Script.errors_resolve (script : Script) (inputs : List InputImage) :
    (script.resolve inputs).errors = script.sites.filterMap (Site.problem? inputs) ∧
    (∀ (earlier : List Statement) (value : Expr),
      value.kind? (meanings inputs earlier) = none ↔
        (∃ part ∈ value.parts, (part.problem? inputs earlier).isSome) ∨
          ∃ text ∈ value.names, FailedBinding inputs earlier text) ∧
    ∀ (earlier : List Statement) (text : String) (span : Span), FailedBinding inputs earlier text →
      (Part.use text span).problem? inputs earlier = none ∧
      (∀ expected, (Part.argument (.name text span) expected).problem? inputs earlier = none) ∧
      (Part.output (.name text span)).problem? inputs earlier = none := by
  refine ⟨Resolution.errors_foldl (Resolution.follows_ofInputs inputs) script.statements,
    fun earlier value => value.kind?_eq_none, ?_⟩
  intro earlier text span failed
  have standing := meanings_eq_failed.mpr failed
  have known : Known inputs earlier text := by
    by_contra unknown
    rw [meanings_eq_none.mpr unknown] at standing
    cases standing
  have undetermined : (Expr.name text span).kind? (meanings inputs earlier) = none := by
    rw [Expr.kind?, standing]
    rfl
  refine ⟨if_pos known, ?_, ?_⟩
  · intro expected
    simp [Part.problem?, kindProblem?, undetermined]
  · simp [Part.problem?, kindProblem?, undetermined]

/-- A script with a binding that fails, a binding made of it, and exports of both. -/
def Script.cascade : Script :=
  ⟨[.bind ⟨"a", .point 1 1⟩
      (.call ⟨"darken", .point 1 5⟩ [.name "b" (.point 1 12)] (.point 1 5)) (.point 1 1),
    .bind ⟨"c", .point 2 1⟩
      (.call ⟨"darken", .point 2 5⟩ [.name "a" (.point 2 12), .name "a" (.point 2 15)]
        (.point 2 5)) (.point 2 1),
    .exports [⟨"a", .point 3 8⟩, ⟨"c", .point 3 11⟩, ⟨"a", .point 3 14⟩] (.point 3 1)],
    .point 1 1⟩

/-- The unknown name, the missing argument and the repeated export are reported, and nothing is
about the uses of what failed. -/
theorem Script.errors_resolve_cascade :
    (cascade.resolve []).errors =
        [⟨.unresolvedIdentifier, .point 1 12⟩, ⟨.arityMismatch, .point 1 5⟩,
          ⟨.duplicateChannel, .point 3 14⟩] ∧
      FailedBinding [] cascade.statements "a" ∧
      (Part.use "a" (.point 3 8)).problem? [] cascade.statements = none := by
  have failed : FailedBinding [] cascade.statements "a" :=
    ⟨[], _, _, _, _, rfl, rfl, by decide, by decide⟩
  refine ⟨?_, failed, ((errors_resolve cascade []).2.2 _ _ _ failed).1⟩
  rw [(errors_resolve cascade []).1]
  decide

end TextureScript
