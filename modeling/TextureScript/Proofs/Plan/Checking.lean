import TextureScript.Proofs.Compiler.Acceptance
import TextureScript.Proofs.Plan.Resolution
import TextureScript.Proofs.Scope
import TextureScript.Proofs.Script.Rules

/-!
# Resolving decides the rules

At every point of the walk one of two things holds. The part of the script that was resolved follows
the rules, no error is reported, and the scope and the plan say what the statements say. Or the part
breaks the rules and an error is reported, which stays. So a script is resolved without an error
exactly when it follows the rules.
-/

namespace TextureScript

/-- A scope knows the names after some statements, and the kinds of their values. -/
structure Scope.Reads (inputs : List InputImage) (earlier : List Statement) (scope : Scope) :
    Prop where
  /-- A name has a meaning when it is an input or bound. -/
  known : ∀ name, scope.lookup name = none ↔
    name ∉ inputs.map (·.name) ∧ name ∉ boundNames earlier
  /-- A name with a meaning has the one kind that the rules give it. -/
  kinds : ∀ name symbol, scope.lookup name = some symbol → ∃ kind, symbol.kind? = some kind ∧
    ∀ span other, (Expr.name name span).HasKind inputs earlier other ↔ other = kind

/-- The names of the steps that have one, and where their values stand. -/
def namedSteps (steps : List Binding) : List (String × Span) :=
  steps.filterMap fun step => step.name.map (·, step.span)

/-- A plan holds what some statements ask for. -/
structure Plan.Mirrors (statements : List Statement) (plan : Plan) : Prop where
  /-- There is a step for every call, and one for every binding without a call. -/
  steps : plan.bindings.size = callNodes statements + callFreeBindings statements
  /-- The steps with a name are the bindings, in order. -/
  named : namedSteps plan.bindings.toList = statements.flatMap Statement.bound
  /-- The channels are those that are declared, in order. -/
  channels : plan.channels.toList.map
    (fun output => (output.material, output.channel, output.materialType)) =
      statements.flatMap Statement.channels
  /-- The textures are those that are exported, in order. -/
  textures : plan.textures.toList.map (·.name) = textureNames statements

namespace Resolution

/-- Something follows the rules and a fact holds, or it breaks them and an error is reported. -/
def Decides (follows : Prop) (after : Resolution) (found : Prop) : Prop :=
  (follows ∧ found) ∨ (¬follows ∧ ¬OnlyWarnings after.findings)

/-- Values are resolved without a problem, and their calls become steps without a name. -/
structure Adds (before after : Resolution) (calls : Nat) : Prop where
  /-- Nothing is reported. -/
  findings : after.findings = before.findings
  /-- There is a step for each call. -/
  steps : ∃ added, after.plan.bindings.toList = before.plan.bindings.toList ++ added ∧
    added.length = calls ∧ ∀ step ∈ added, step.name = none

theorem Adds.refl (r : Resolution) : r.Adds r 0 :=
  ⟨rfl, [], by simp, rfl, by simp⟩

theorem Adds.trans {first second third : Resolution} {calls calls' : Nat}
    (earlier : first.Adds second calls) (later : second.Adds third calls') :
    first.Adds third (calls + calls') := by
  obtain ⟨added, steps, count, unnamed⟩ := earlier.steps
  obtain ⟨added', steps', count', unnamed'⟩ := later.steps
  refine ⟨later.findings.trans earlier.findings, added ++ added', ?_, ?_, ?_⟩
  · rw [steps', steps, List.append_assoc]
  · rw [List.length_append, count, count']
  · intro step member
    exact (List.mem_append.mp member).elim (unnamed step) (unnamed' step)

theorem adds_addBinding (r : Resolution) {binding : Binding} (unnamed : binding.name = none) :
    r.Adds (r.addBinding binding) 1 :=
  ⟨rfl, [binding], by simp [addBinding], rfl, by simpa using unnamed⟩

/-! ## Values -/

section Values

variable {inputs : List InputImage} {earlier : List Statement} {r : Resolution}

/-- What comes of a value: an operand of the only kind that the rules give it. -/
def OperandFound (inputs : List InputImage) (earlier : List Statement) (r : Resolution) (e : Expr) :
    Prop :=
  ∃ operand kind, (r.resolveOperand e).1 = some (operand, kind) ∧
    (∀ other, e.HasKind inputs earlier other ↔ other = kind) ∧
    r.Adds (r.resolveOperand e).2 e.callNodes

/-- What comes of some values: operands of the only kinds that the rules give them. -/
def OperandsFound (inputs : List InputImage) (earlier : List Statement) (r : Resolution)
    (args : List Expr) : Prop :=
  ∃ typed : List Typed, (r.resolveOperands args).1.map (·.2) = typed.map some ∧
    (∀ params : List Parameter, args.length = params.length →
      ((∀ pair ∈ args.zip params, pair.1.HasKind inputs earlier pair.2.kind) ↔
        typed.map (·.2) = params.map (·.kind))) ∧
    r.Adds (r.resolveOperands args).2 (Expr.callNodesOfAll args)

theorem resolveName_decides (reads : r.scope.Reads inputs earlier) (text : String) (span : Span) :
    Decides (∃ kind, (Expr.name text span).HasKind inputs earlier kind)
      (r.resolveOperand (.name text span)).2 (OperandFound inputs earlier r (.name text span)) := by
  simp only [OperandFound, resolveOperand, resolveName]
  cases found : r.scope.lookup text with
  | none =>
    refine .inr ⟨?_, not_onlyWarnings_report rfl⟩
    rintro ⟨kind, has⟩
    obtain ⟨noInput, unbound⟩ := (reads.known text).mp found
    exact has.known.elim noInput unbound
  | some symbol =>
    obtain ⟨kind, isKind, only⟩ := reads.kinds text symbol found
    cases symbol with
    | poisoned => cases isKind
    | input handle =>
      cases isKind
      exact .inl ⟨⟨.image, (only span .image).mpr rfl⟩, _, _, rfl, only span, .refl r⟩
    | bound index kind =>
      cases isKind
      exact .inl ⟨⟨kind, (only span kind).mpr rfl⟩, _, _, rfl, only span, .refl r⟩

/-- Arguments with operands are checked one by one against the parameters. -/
theorem checkArguments_decides (op : Operation) (r : Resolution)
    {lowered : List (Expr × Option Typed)} {typed : List Typed} {params : List Parameter}
    (values : lowered.map (·.2) = typed.map some) (count : typed.length = params.length) :
    Decides (typed.map (·.2) = params.map (·.kind)) (checkArguments op r lowered params).2
      (checkArguments op r lowered params = (some (typed.map (·.1)), r)) := by
  induction typed generalizing lowered params r with
  | nil =>
    rw [List.map_eq_nil_iff.mp values, List.eq_nil_of_length_eq_zero count.symm]
    exact .inl ⟨rfl, rfl⟩
  | cons first typed ih =>
    obtain ⟨operand, kind⟩ := first
    obtain ⟨⟨arg, lower⟩, rest, rfl, head, tail⟩ := List.map_eq_cons_iff.mp values
    have found : lower = some (operand, kind) := head
    subst found
    cases params with
    | nil => cases count
    | cons param params =>
      unfold checkArguments
      by_cases same : kind = param.kind
      · simp only [same, ↓reduceIte, List.map_cons, List.cons.injEq, true_and]
        rcases ih r tail (Nat.succ.inj count) with ⟨kinds, checked⟩ | ⟨differ, unclean⟩
        · exact .inl ⟨kinds, by rw [checked]; rfl⟩
        · exact .inr ⟨differ, unclean⟩
      · simp only [same, ↓reduceIte, List.map_cons, List.cons.injEq, false_and]
        refine .inr ⟨id, ?_⟩
        intro clean
        exact not_onlyWarnings_report rfl
          (onlyWarnings_of_grows clean (checkArguments_extends op rest params _).grows)

theorem length_resolveOperands (r : Resolution) (args : List Expr) :
    (r.resolveOperands args).1.length = args.length := by
  induction args generalizing r with
  | nil => simp [resolveOperands]
  | cons arg args ih => simp [resolveOperands, ih]

/-- The arguments of a call with a kind have kinds. -/
theorem exists_kind_of_each {args : List Expr} {params : List Parameter}
    (count : args.length = params.length)
    (each : ∀ pair ∈ args.zip params, pair.1.HasKind inputs earlier pair.2.kind) :
    ∀ arg ∈ args, ∃ kind, arg.HasKind inputs earlier kind := by
  intro arg member
  rw [← List.map_fst_zip (Nat.le_of_eq count)] at member
  obtain ⟨pair, among, rfl⟩ := List.mem_map.mp member
  exact ⟨_, each pair among⟩

/-- A call is decided by its arguments, its name and the parameters of its operation. -/
theorem resolveCall_decides (callee : Name) {args : List Expr} (span : Span)
    (operands : Decides (∀ arg ∈ args, ∃ kind, arg.HasKind inputs earlier kind)
      (r.resolveOperands args).2 (OperandsFound inputs earlier r args)) :
    Decides (∃ kind, (Expr.call callee args span).HasKind inputs earlier kind)
      ((r.resolveOperands args).2.resolveCall callee (r.resolveOperands args).1 span).2
      ((∀ other, (Expr.call callee args span).HasKind inputs earlier other ↔ other = .image) ∧
        ∃ value, (r.resolveOperands args).2.resolveCall callee (r.resolveOperands args).1 span =
          (some value, (r.resolveOperands args).2) ∧
        r.Adds (r.resolveOperands args).2 (Expr.callNodesOfAll args)) := by
  rcases operands with ⟨-, typed, values, kinds, adds⟩ | ⟨kindless, unclean⟩
  · have count : typed.length = args.length := by
      have same := congrArg List.length values
      rw [List.length_map, List.length_map, length_resolveOperands] at same
      exact same.symm
    unfold resolveCall
    simp only [Expr.hasKind_call, length_resolveOperands]
    cases named : Operation.ofName? callee.text with
    | none => exact .inr ⟨by simp, not_onlyWarnings_report rfl⟩
    | some op =>
      by_cases right : args.length = op.arity
      · rcases checkArguments_decides op (r.resolveOperands args).2 values (count.trans right) with
          ⟨same, checked⟩ | ⟨differ, unclean⟩
        · have each := (kinds op.params right).mpr same
          simp only [if_pos right, checked]
          exact .inl ⟨⟨.image, rfl, op, rfl, right, each⟩,
            fun other => ⟨And.left, fun image => ⟨image, op, rfl, right, each⟩⟩, _, rfl, adds⟩
        · simp only [if_pos right]
          refine .inr ⟨?_, unclean⟩
          rintro ⟨_, -, other, ⟨⟩, -, each⟩
          exact differ ((kinds op.params right).mp each)
      · simp only [if_neg right]
        refine .inr ⟨?_, not_onlyWarnings_report rfl⟩
        rintro ⟨_, -, other, ⟨⟩, count, -⟩
        exact right count
  · refine .inr ⟨?_, ?_⟩
    · rintro ⟨kind, has⟩
      obtain ⟨-, op, -, count, each⟩ := Expr.hasKind_call.mp has
      exact kindless (exists_kind_of_each count each)
    · intro clean
      exact unclean (onlyWarnings_of_grows clean (resolveCall_extends _ _ _ _).grows)

mutual

/-- A value has a kind, and is resolved as an operand of that kind, or has none, and an error is
reported. -/
theorem resolveOperand_decides {r : Resolution} (reads : r.scope.Reads inputs earlier) :
    (e : Expr) → Decides (∃ kind, e.HasKind inputs earlier kind) (r.resolveOperand e).2
      (OperandFound inputs earlier r e)
  | .number value span => by
    simp only [OperandFound, resolveOperand]
    refine .inl ⟨⟨.number, .number⟩, _, _, rfl, ?_, .refl r⟩
    intro other
    constructor
    · rintro ⟨⟩
      rfl
    · rintro rfl
      exact .number
  | .name text span => resolveName_decides reads text span
  | .call callee args span => by
    have call := resolveCall_decides callee span (resolveOperands_decides reads args)
    simp only [OperandFound, resolveOperand]
    rcases call with ⟨has, only, value, called, adds⟩ | ⟨kindless, unclean⟩
    · simp only [called]
      exact .inl ⟨has, _, _, rfl, only, adds.trans (adds_addBinding _ rfl)⟩
    · refine .inr ⟨kindless, ?_⟩
      rcases called : (r.resolveOperands args).2.resolveCall callee (r.resolveOperands args).1 span
        with ⟨_ | value, after⟩
      all_goals
        rw [called] at unclean
        exact unclean

/-- All values have kinds, and are resolved as operands of these kinds, or one has none, and an
error is reported. -/
theorem resolveOperands_decides {r : Resolution} (reads : r.scope.Reads inputs earlier) :
    (args : List Expr) → Decides (∀ arg ∈ args, ∃ kind, arg.HasKind inputs earlier kind)
      (r.resolveOperands args).2 (OperandsFound inputs earlier r args)
  | [] => by
    simp only [OperandsFound, resolveOperands]
    refine .inl ⟨nofun, [], rfl, ?_, .refl r⟩
    intro params count
    rw [List.eq_nil_of_length_eq_zero count.symm]
    simp
  | arg :: args => by
    have first := resolveOperand_decides reads arg
    have extended := r.resolveOperand_extends arg
    have others := resolveOperands_decides (extended.scope ▸ reads) args
    simp only [OperandsFound, resolveOperands, List.forall_mem_cons]
    rcases first with ⟨has, operand, kind, found, only, adds⟩ | ⟨kindless, unclean⟩
    · rcases others with ⟨all, typed, values, kinds, adds'⟩ | ⟨kindless, unclean⟩
      · refine .inl ⟨⟨has, all⟩, (operand, kind) :: typed, ?_, ?_, adds.trans adds'⟩
        · rw [List.map_cons, List.map_cons, found, values]
        · intro params count
          cases params with
          | nil => cases count
          | cons param params =>
            rw [List.zip_cons_cons, List.forall_mem_cons, only, kinds params (Nat.succ.inj count),
              List.map_cons, List.map_cons, List.cons.injEq, eq_comm]
      · exact .inr ⟨fun all => kindless all.2, unclean⟩
    · refine .inr ⟨fun all => kindless all.1, ?_⟩
      intro clean
      exact unclean (onlyWarnings_of_grows clean (resolveOperands_extends _ args).grows)

end

/-- The value of a binding has a kind, and its inner calls become steps, or it has none, and an
error is reported. -/
theorem resolveValue_decides (reads : r.scope.Reads inputs earlier) (e : Expr) :
    Decides (∃ kind, e.HasKind inputs earlier kind) (r.resolveValue e).2
      (∃ value kind inner, (r.resolveValue e).1 = some (value, kind) ∧
        (∀ other, e.HasKind inputs earlier other ↔ other = kind) ∧
        r.Adds (r.resolveValue e).2 inner ∧
        inner + 1 = e.callNodes + if e.callNodes == 0 then 1 else 0) := by
  cases e with
  | call callee args span =>
    simp only [resolveValue]
    rcases resolveCall_decides callee span (resolveOperands_decides reads args) with
      ⟨has, only, value, called, adds⟩ | ⟨kindless, unclean⟩
    · rw [called]
      exact .inl ⟨has, value, .image, _, rfl, only, adds, by simp [Expr.callNodes]⟩
    · exact .inr ⟨kindless, unclean⟩
  | number | name =>
    simp only [resolveValue]
    rcases resolveOperand_decides reads _ with
      ⟨has, operand, kind, found, only, adds⟩ | ⟨kindless, unclean⟩
    · rw [found]
      exact .inl ⟨has, _, kind, _, rfl, only, adds, by simp [Expr.callNodes]⟩
    · exact .inr ⟨kindless, unclean⟩

/-- An output is an image, or an error is reported. -/
theorem resolveOutput_decides (reads : r.scope.Reads inputs earlier) (e : Expr) :
    Decides (e.HasKind inputs earlier .image) (r.resolveOutput e).2
      (∃ operand, (r.resolveOutput e).1 = some operand ∧
        r.Adds (r.resolveOutput e).2 e.callNodes) := by
  unfold resolveOutput
  rcases resolveOperand_decides reads e with
    ⟨has, operand, kind, found, only, adds⟩ | ⟨kindless, unclean⟩
  · rcases resolved : r.resolveOperand e with ⟨_, after⟩
    rw [resolved] at found adds
    subst found
    cases kind with
    | image => exact .inl ⟨(only .image).mpr rfl, operand, rfl, adds⟩
    | number =>
      refine .inr ⟨?_, not_onlyWarnings_report rfl⟩
      intro image
      cases (only .image).mp image
  · refine .inr ⟨fun image => kindless ⟨_, image⟩, ?_⟩
    rcases resolved : r.resolveOperand e with ⟨_ | ⟨operand, _ | _⟩, after⟩
    all_goals
      rw [resolved] at unclean
    · exact unclean
    · exact unclean
    · exact fun clean => unclean (onlyWarnings_of_grows clean (report_extends _ _).grows)

end Values

end Resolution

/-! ## Names -/

theorem Scope.reads_ofInputs (inputs : List InputImage) : (ofInputs inputs).Reads inputs [] := by
  constructor
  · intro name
    rcases lookup_ofInputs_cases inputs name with ⟨listed, handle, found⟩ | ⟨unlisted, found⟩
    · rw [found]
      exact ⟨nofun, fun unknown => absurd listed unknown.1⟩
    · rw [found]
      exact ⟨fun _ => ⟨unlisted, List.not_mem_nil⟩, fun _ => rfl⟩
  · intro name symbol found
    rcases lookup_ofInputs_cases inputs name with ⟨listed, handle, input⟩ | ⟨_, none⟩
    · rw [input] at found
      cases found
      refine ⟨.image, rfl, ?_⟩
      intro span other
      constructor
      · intro has
        cases has with
        | input => rfl
        | bound split => simp at split
      · rintro rfl
        exact .input listed
    · rw [none] at found
      cases found

/-- A statement that binds no name leaves the scope. -/
theorem Scope.reads_concat {inputs : List InputImage} {earlier : List Statement} {scope : Scope}
    {statement : Statement} (none : statement.bound = []) :
    scope.Reads inputs (earlier ++ [statement]) ↔ scope.Reads inputs earlier := by
  have names : boundNames (earlier ++ [statement]) = boundNames earlier := by
    rw [boundNames_concat, none, List.map_nil, List.append_nil]
  have kinds : ∀ text span kind,
      (Expr.name text span).HasKind inputs (earlier ++ [statement]) kind ↔
        (Expr.name text span).HasKind inputs earlier kind := by
    intro text span kind
    rw [Expr.hasKind_name_concat]
    refine or_iff_left ?_
    rintro ⟨target, value, place, rfl, -, -⟩
    cases none
  constructor
  · rintro ⟨known, only⟩
    rw [names] at known
    simp only [kinds] at only
    exact ⟨known, only⟩
  · rintro ⟨known, only⟩
    refine ⟨names ▸ known, ?_⟩
    simp only [kinds]
    exact only

/-- A name that is bound for the first time has the kind of its value. -/
theorem Scope.Reads.define {inputs : List InputImage} {earlier : List Statement}
    {scope defined : Scope} {target : Name} {value : Expr} {span place : Span} {symbol : Symbol}
    {kind : Kind} (reads : scope.Reads inputs earlier)
    (fresh : target.text ∉ inputs.map (·.name) ∧ target.text ∉ boundNames earlier)
    (stands : symbol.kind? = some kind)
    (only : ∀ other, value.HasKind inputs earlier other ↔ other = kind)
    (ok : scope.define target.text symbol place = .ok defined) :
    defined.Reads inputs (earlier ++ [.bind target value span]) := by
  constructor
  · intro name
    rw [lookup_define ok, boundNames_concat]
    by_cases same : name = target.text
    · simp [same, Statement.bound]
    · simp [same, Statement.bound, reads.known name]
  · intro name other found
    simp only [Expr.hasKind_name_concat]
    rw [lookup_define ok] at found
    by_cases same : name = target.text
    · rw [if_pos same] at found
      cases found
      refine ⟨kind, stands, ?_⟩
      intro span other
      constructor
      · rintro (has | ⟨_, _, _, ⟨⟩, -, has⟩)
        · exact absurd (same ▸ has.known) (not_or.mpr fresh)
        · exact (only other).mp has
      · rintro rfl
        exact .inr ⟨_, _, _, rfl, same.symm, (only _).mpr rfl⟩
    · rw [if_neg same] at found
      obtain ⟨kind, isKind, only⟩ := reads.kinds name other found
      refine ⟨kind, isKind, ?_⟩
      intro span other
      rw [or_iff_left, only]
      rintro ⟨_, _, _, ⟨⟩, here, -⟩
      exact same here.symm

/-! ## Statements -/

theorem namedSteps_append (steps more : List Binding) :
    namedSteps (steps ++ more) = namedSteps steps ++ namedSteps more :=
  List.filterMap_append

theorem namedSteps_eq_nil {steps : List Binding} (unnamed : ∀ step ∈ steps, step.name = none) :
    namedSteps steps = [] := by
  rw [namedSteps, List.filterMap_eq_nil_iff]
  intro step member
  rw [unnamed step member]
  rfl

theorem callFreeBindings_concat (statements : List Statement) (statement : Statement) :
    callFreeBindings (statements ++ [statement]) =
      callFreeBindings statements + if statement.isCallFreeBinding then 1 else 0 := by
  simp [callFreeBindings, List.countP_append, List.countP_singleton]

/-- A plan that holds what some statements ask for holds what one more asks for, when its steps and
its outputs are added. -/
theorem Plan.Mirrors.concat {statements : List Statement} {statement : Statement}
    {plan after : Plan} (mirrors : plan.Mirrors statements) {added : List Binding}
    (steps : after.bindings.toList = plan.bindings.toList ++ added)
    (count : added.length = statement.callNodes + if statement.isCallFreeBinding then 1 else 0)
    (named : namedSteps added = statement.bound)
    (channels : after.channels.toList.map
      (fun output => (output.material, output.channel, output.materialType)) =
        plan.channels.toList.map
          (fun output => (output.material, output.channel, output.materialType)) ++
            statement.channels)
    (textures : after.textures.toList.map (·.name) =
      plan.textures.toList.map (·.name) ++ statement.textures) :
    after.Mirrors (statements ++ [statement]) := by
  constructor
  · have size := congrArg List.length steps
    rw [List.length_append, Array.length_toList, Array.length_toList] at size
    rw [callNodes_concat, callFreeBindings_concat, size, mirrors.steps, count]
    omega
  · rw [steps, namedSteps_append, mirrors.named, named]
    simp
  · rw [channels, mirrors.channels]
    simp
  · rw [textures, mirrors.textures, textureNames_concat]

/-- One more exported name is one more texture. -/
theorem Plan.Mirrors.exports {statements : List Statement} {names : List Name} {name : Name}
    {span : Span} {plan after : Plan}
    (mirrors : plan.Mirrors (statements ++ [.exports names span]))
    (steps : after.bindings.toList = plan.bindings.toList)
    (channels : after.channels = plan.channels)
    (textures : after.textures.toList.map (·.name) =
      plan.textures.toList.map (·.name) ++ [name.text]) :
    after.Mirrors (statements ++ [.exports (names ++ [name]) span]) := by
  constructor
  · have size := congrArg List.length steps
    rw [Array.length_toList, Array.length_toList] at size
    rw [size, mirrors.steps]
    simp only [callNodes_concat, callFreeBindings_concat]
    rfl
  · rw [steps, mirrors.named]
    simp [Statement.bound]
  · rw [channels, mirrors.channels]
    simp [Statement.channels]
  · rw [textures, mirrors.textures]
    simp [textureNames_concat, Statement.textures]

namespace Resolution

/-- A resolution without errors knows what the statements so far say. -/
structure Reflects (inputs : List InputImage) (statements : List Statement) (r : Resolution) :
    Prop where
  /-- The scope knows the names. -/
  reads : r.scope.Reads inputs statements
  /-- The channels that are declared are known. -/
  channels : ∀ key, key ∈ r.channels ↔ key ∈ channelKeys statements
  /-- The textures that are exported are known. -/
  textures : ∀ name, name ∈ r.textures ↔ name ∈ textureNames statements
  /-- There is no error. -/
  clean : OnlyWarnings r.findings
  /-- The plan holds what was asked for. -/
  mirrors : r.plan.Mirrors statements

section Statements

variable {inputs : List InputImage} {earlier : List Statement} {r : Resolution}

/-- A name that is bound for the first time is added, with the steps of its value. -/
theorem Reflects.bind (reflects : r.Reflects inputs earlier) {after : Resolution} {target : Name}
    {value : Expr} {result : Value} {span : Span} {kind : Kind} {symbol : Symbol} {scope : Scope}
    {inner : Nat} (extended : r.Extends after) (adds : r.Adds after inner)
    (count : inner + 1 = value.callNodes + if value.callNodes == 0 then 1 else 0)
    (only : ∀ other, value.HasKind inputs earlier other ↔ other = kind)
    (stands : symbol.kind? = some kind)
    (ok : r.scope.define target.text symbol target.span = .ok scope) :
    Reflects inputs (earlier ++ [.bind target value span])
      { after.addBinding ⟨some target.text, kind, result, span⟩ with scope } := by
  have fresh := (reflects.reads.known target.text).mp (Scope.lookup_eq_none_of_ok ok)
  obtain ⟨added, steps, length, unnamed⟩ := adds.steps
  constructor
  · exact reflects.reads.define fresh stands only ok
  · simpa [channelKeys_concat, Statement.channels, extended.channels, addBinding] using
      reflects.channels
  · simpa [textureNames_concat, Statement.textures, extended.textures, addBinding] using
      reflects.textures
  · exact adds.findings ▸ reflects.clean
  · have allSteps :
        (after.addBinding ⟨some target.text, kind, result, span⟩).plan.bindings.toList =
        r.plan.bindings.toList ++ (added ++ [⟨some target.text, kind, result, span⟩]) := by
      rw [addBinding, Array.toList_push, steps, List.append_assoc]
    refine reflects.mirrors.concat allSteps ?_ ?_ ?_ ?_
    · rw [List.length_append, length]
      exact count
    · rw [namedSteps_append, namedSteps_eq_nil unnamed]
      rfl
    · simp [addBinding, extended.planChannels, Statement.channels]
    · simp [addBinding, extended.planTextures, Statement.textures]

theorem resolveBinding_decides (reflects : r.Reflects inputs earlier) (target : Name)
    (value : Expr) (span : Span) :
    Decides ((Statement.bind target value span).Follows inputs earlier)
      (r.resolveBinding target value span)
      (Reflects inputs (earlier ++ [.bind target value span])
        (r.resolveBinding target value span)) := by
  have extended := r.resolveValue_extends value
  obtain ⟨symbol, after, added, defined⟩ := r.resolveBinding_cases target value span
  rcases resolveValue_decides reflects.reads value with
    ⟨has, result, kind, inner, found, only, adds, count⟩ | ⟨kindless, unclean⟩
  · rw [found] at added
    rcases added with ⟨_, _, ⟨⟩, rfl, rfl⟩ | ⟨⟨⟩, -, -⟩
    have scope :
        ((r.resolveValue value).2.addBinding ⟨some target.text, kind, result, span⟩).scope =
          r.scope := extended.scope
    rw [scope] at defined
    rcases defined with ⟨defined, ok, resolved⟩ | ⟨conflict, failed, resolved⟩
    · have fresh := (reflects.reads.known target.text).mp (Scope.lookup_eq_none_of_ok ok)
      rw [resolved]
      exact .inl ⟨⟨fresh, has⟩, reflects.bind extended adds count only rfl ok⟩
    · refine .inr ⟨?_, ?_⟩
      · rintro ⟨fresh, -⟩
        exact Scope.lookup_ne_none_of_error failed ((reflects.reads.known target.text).mpr fresh)
      · rw [resolved]
        exact not_onlyWarnings_report (by cases conflict <;> rfl)
  · refine .inr ⟨fun follows => kindless follows.2, ?_⟩
    intro clean
    have kept := r.resolveValue_grows_resolveBinding target value span
    exact unclean (onlyWarnings_of_grows clean kept)

/-- What is said about the type of a material is a warning. -/
theorem severity_materialFinding? {channel materialType : Name} {finding : Finding}
    (found : materialFinding? channel materialType = some finding) :
    finding.severity = .warning := by
  unfold materialFinding? at found
  simp only at found
  split at found
  · cases found
    rfl
  · split at found
    · cases found
      rfl
    · cases found

theorem Reflects.checkMaterial (reflects : r.Reflects inputs earlier)
    (channel materialType : Name) :
    (r.checkMaterial channel materialType).Reflects inputs earlier := by
  unfold Resolution.checkMaterial
  split
  · rename_i finding found
    refine ⟨reflects.reads, reflects.channels, reflects.textures, ?_, reflects.mirrors⟩
    intro other member
    rw [report, Array.toList_push] at member
    rcases List.mem_append.mp member with old | new
    · exact reflects.clean other old
    · rw [List.mem_singleton.mp new]
      exact severity_materialFinding? found
  · exact reflects

/-- A channel that is declared for the first time is added, with the steps of its value. -/
theorem Reflects.addChannel (reflects : r.Reflects inputs earlier) {after : Resolution}
    {material channel materialType : Name} {value : Expr} {span : Span} {operand : Operand}
    (extended : r.Extends after) (adds : r.Adds after value.callNodes) :
    Reflects inputs (earlier ++ [.channel material channel materialType value span])
      { after with
        channels := after.channels.insert (material.text, channel.text) span
        plan.channels := after.plan.channels ++ ((some operand).toArray.map fun source =>
          ⟨material.text, channel.text, .ofTag materialType.text, source⟩) } := by
  obtain ⟨added, steps, length, unnamed⟩ := adds.steps
  constructor
  · rw [Scope.reads_concat rfl]
    exact extended.scope ▸ reflects.reads
  · intro key
    rw [Std.TreeMap.mem_insert, Std.LawfulEqCmp.compare_eq_iff_eq, extended.channels,
      reflects.channels, channelKeys_concat, List.mem_append, or_comm]
    simp [Statement.channels, eq_comm]
  · intro name
    rw [textureNames_concat]
    simpa [Statement.textures, extended.textures] using reflects.textures name
  · exact adds.findings ▸ reflects.clean
  · refine reflects.mirrors.concat steps ?_ ?_ ?_ ?_
    · rw [length]
      rfl
    · exact namedSteps_eq_nil unnamed
    · simp [extended.planChannels, Statement.channels]
    · simp [extended.planTextures, Statement.textures]

theorem resolveChannel_decides (reflects : r.Reflects inputs earlier)
    (material channel materialType : Name) (value : Expr) (span : Span) :
    Decides
      (value.HasKind inputs earlier .image ∧
        (material.text, channel.text) ∉ channelKeys earlier)
      (r.resolveChannel material channel materialType value span)
      (Reflects inputs (earlier ++ [.channel material channel materialType value span])
        (r.resolveChannel material channel materialType value span)) := by
  have checked := reflects.checkMaterial channel materialType
  have extended := (r.checkMaterial channel materialType).resolveOutput_extends value
  obtain ⟨source, after, output, outcome⟩ :=
    r.resolveChannel_cases material channel materialType value span
  rcases resolveOutput_decides checked.reads value with
    ⟨image, operand, found, adds⟩ | ⟨noImage, unclean⟩
  · simp only [output] at found adds extended
    rcases outcome with ⟨first, again, resolved⟩ | ⟨fresh, resolved⟩
    · refine .inr ⟨?_, ?_⟩
      · rintro ⟨-, unlisted⟩
        rw [extended.channels] at again
        rw [← checked.channels, Std.TreeMap.mem_iff_isSome_getElem?, again] at unlisted
        exact unlisted rfl
      · rw [resolved]
        exact not_onlyWarnings_report rfl
    · have unlisted : (material.text, channel.text) ∉ channelKeys earlier := by
        rw [extended.channels] at fresh
        rw [← checked.channels, Std.TreeMap.mem_iff_isSome_getElem?, fresh]
        simp
      rw [resolved, found]
      exact .inl ⟨⟨image, unlisted⟩, checked.addChannel extended adds⟩
  · refine .inr ⟨fun follows => noImage follows.1, ?_⟩
    intro clean
    have kept := r.resolveOutput_grows_resolveChannel material channel materialType value span
    exact unclean (onlyWarnings_of_grows clean kept)

/-- A texture that is exported for the first time is added. -/
theorem Reflects.addTexture {names : List Name} {span : Span}
    (reflects : r.Reflects inputs (earlier ++ [.exports names span])) {after : Resolution}
    {name : Name} {operand : Operand}
    (extended : Extends { r with textures := r.textures.insert name.text name.span } after)
    (adds : Adds { r with textures := r.textures.insert name.text name.span } after 0) :
    Reflects inputs (earlier ++ [.exports (names ++ [name]) span])
      { after with
        plan.textures := after.plan.textures ++ (some operand).toArray.map (⟨name.text, ·⟩) } := by
  obtain ⟨added, steps, length, -⟩ := adds.steps
  rw [List.eq_nil_of_length_eq_zero length, List.append_nil] at steps
  constructor
  · rw [Scope.reads_concat rfl, extended.scope]
    exact (Scope.reads_concat rfl).mp reflects.reads
  · intro key
    simpa [channelKeys_concat, Statement.channels, extended.channels] using reflects.channels key
  · intro other
    rw [extended.textures, Std.TreeMap.mem_insert, Std.LawfulEqCmp.compare_eq_iff_eq,
      reflects.textures, or_comm]
    simp [textureNames_concat, Statement.textures, eq_comm, or_assoc]
  · exact adds.findings ▸ reflects.clean
  · refine reflects.mirrors.exports steps extended.planChannels ?_
    simp [extended.planTextures]

/-- One more name of an export statement is decided like the others. -/
theorem resolveExport_decides {names : List Name} {span : Span}
    (reflects : r.Reflects inputs (earlier ++ [.exports names span])) (name : Name) :
    Decides
      ((Expr.name name.text name.span).HasKind inputs earlier .image ∧
        name.text ∉ textureNames (earlier ++ [.exports names span]))
      (r.resolveExport name)
      (Reflects inputs (earlier ++ [.exports (names ++ [name]) span]) (r.resolveExport name)) := by
  rcases r.resolveExport_cases name with
    ⟨first, again, resolved⟩ | ⟨fresh, source, after, output, resolved⟩
  · refine .inr ⟨?_, ?_⟩
    · rintro ⟨-, unlisted⟩
      rw [← reflects.textures, Std.TreeMap.mem_iff_isSome_getElem?, again] at unlisted
      exact unlisted rfl
    · rw [resolved]
      exact not_onlyWarnings_report rfl
  · have unlisted : name.text ∉ textureNames (earlier ++ [.exports names span]) := by
      rw [← reflects.textures, Std.TreeMap.mem_iff_isSome_getElem?, fresh]
      simp
    have reads : Scope.Reads inputs earlier
        { r with textures := r.textures.insert name.text name.span : Resolution }.scope :=
      (Scope.reads_concat rfl).mp reflects.reads
    have extended := resolveOutput_extends
      { r with textures := r.textures.insert name.text name.span } (.name name.text name.span)
    rw [resolved]
    rcases resolveOutput_decides reads (.name name.text name.span) with
      ⟨image, operand, found, adds⟩ | ⟨noImage, unclean⟩
    · simp only [output] at found adds extended
      rw [found]
      exact .inl ⟨⟨image, unlisted⟩, reflects.addTexture extended adds⟩
    · simp only [output] at unclean
      exact .inr ⟨fun follows => noImage follows.1, unclean⟩

/-! ## Scripts -/

/-- The statements so far follow the rules, and the resolution says what they say, or they break the
rules, and an error is reported. -/
def Checked (inputs : List InputImage) (statements : List Statement) (r : Resolution) : Prop :=
  Decides (ValidStatements inputs statements) r (Reflects inputs statements r)

theorem Decides.congr {follows follows' found : Prop} {after : Resolution}
    (decides : Decides follows after found) (same : follows' ↔ follows) :
    Decides follows' after found := by
  rw [Decides, same]
  exact decides

/-- One more exported name is checked. -/
theorem Checked.resolveExport {names : List Name} {span : Span}
    (checked : Checked inputs (earlier ++ [.exports names span]) r) (name : Name) :
    Checked inputs (earlier ++ [.exports (names ++ [name]) span]) (r.resolveExport name) := by
  rcases checked with ⟨valid, reflects⟩ | ⟨invalid, unclean⟩
  · exact (resolveExport_decides reflects name).congr
      (validStatements_exports_concat.trans (and_iff_right valid))
  · refine .inr ⟨fun valid => invalid (validStatements_exports_concat.mp valid).1, ?_⟩
    exact fun clean => unclean (onlyWarnings_of_grows clean (r.resolveExport_grows name))

/-- The names of an export statement are checked one after the other. -/
theorem Checked.resolveExports {names : List Name} {span : Span}
    (checked : Checked inputs (earlier ++ [.exports names span]) r) (more : List Name) :
    Checked inputs (earlier ++ [.exports (names ++ more) span])
      (more.foldl Resolution.resolveExport r) := by
  induction more generalizing names r with
  | nil =>
    rw [List.append_nil]
    exact checked
  | cons name more ih =>
    have later := ih (checked.resolveExport name)
    rw [List.append_assoc] at later
    exact later

/-- An export statement begins without names. -/
theorem Reflects.exports_nil (reflects : r.Reflects inputs earlier) (span : Span) :
    r.Reflects inputs (earlier ++ [.exports [] span]) := by
  constructor
  · exact (Scope.reads_concat rfl).mpr reflects.reads
  · simpa [channelKeys_concat, Statement.channels] using reflects.channels
  · simpa [textureNames_concat, Statement.textures] using reflects.textures
  · exact reflects.clean
  · refine reflects.mirrors.concat (List.append_nil _).symm rfl rfl ?_ ?_
    · simp [Statement.channels]
    · simp [Statement.textures]

/-- One more statement is checked. -/
theorem Checked.resolveStatement (checked : Checked inputs earlier r) (statement : Statement) :
    Checked inputs (earlier ++ [statement]) (r.resolveStatement statement) := by
  rcases checked with ⟨valid, reflects⟩ | ⟨invalid, unclean⟩
  · cases statement with
    | bind target value span =>
      exact (resolveBinding_decides reflects target value span).congr
        (validStatements_bind.trans (and_iff_right valid))
    | channel material channel materialType value span =>
      exact (resolveChannel_decides reflects material channel materialType value span).congr
        (validStatements_channel.trans (and_iff_right valid))
    | exports names span =>
      have start : Checked inputs (earlier ++ [.exports [] span]) r :=
        .inl ⟨validStatements_exports_nil.mpr valid, reflects.exports_nil span⟩
      exact start.resolveExports names
  · refine .inr ⟨fun valid => invalid (validStatements_concat.mp valid).1, ?_⟩
    exact fun clean => unclean (onlyWarnings_of_grows clean (r.resolveStatement_grows statement))

/-- All statements are checked. -/
theorem Checked.foldl (checked : Checked inputs earlier r) (statements : List Statement) :
    Checked inputs (earlier ++ statements) (statements.foldl Resolution.resolveStatement r) := by
  induction statements generalizing earlier r with
  | nil =>
    rw [List.append_nil]
    exact checked
  | cons statement statements ih =>
    have later := ih (checked.resolveStatement statement)
    rw [List.append_assoc] at later
    exact later

/-- Without statements there is nothing to break. -/
theorem checked_nil (inputs : List InputImage) :
    Checked inputs [] { scope := .ofInputs inputs } := by
  refine .inl ⟨⟨?_, List.nodup_nil, List.nodup_nil⟩, ?_⟩
  · intro earlier statement later split
    simp at split
  · exact ⟨Scope.reads_ofInputs inputs, by simp [channelKeys], by simp [textureNames],
      fun finding member => absurd member List.not_mem_nil, rfl, rfl, rfl, rfl⟩

end Statements

end Resolution

/-- Resolving decides the rules. No error is found in a script exactly when it follows them. Then
there is one step for every call and one for every binding without a call, the steps with a name are
the bindings, and the channels and the textures are those of the script, all in source order. -/
theorem Script.resolve_decides_rules (script : Script) (inputs : List InputImage) :
    (OnlyWarnings (script.resolve inputs).findings ↔ script.Valid inputs) ∧
      (script.Valid inputs → (script.resolve inputs).plan.Mirrors script.statements) := by
  have checked : Resolution.Checked inputs script.statements (script.resolve inputs) :=
    (Resolution.checked_nil inputs).foldl script.statements
  rcases checked with ⟨valid, reflects⟩ | ⟨invalid, unclean⟩
  · exact ⟨iff_of_true reflects.clean valid, fun _ => reflects.mirrors⟩
  · exact ⟨iff_of_false unclean invalid, fun valid => absurd valid invalid⟩

/-- A number that is copied once and then given to an operation, as its last argument. -/
def Script.copiedNumber (callee : String) (args : List Expr) : Script :=
  ⟨[.bind ⟨"n", default⟩ (.number 3 default) default,
    .bind ⟨"m", default⟩ (.name "n" default) default,
    .bind ⟨"a", default⟩ (.call ⟨callee, default⟩ (args ++ [.name "m" default]) default) default,
    .exports [⟨"a", default⟩] default], default⟩

/-- The copied number can be given where a number is asked for, and not where an image is. -/
theorem Script.resolve_decides_rules_copiedNumber :
    (copiedNumber "darken" [.name "sky" default]).Valid [⟨"sky", ⟨0⟩⟩] ∧
      ((copiedNumber "darken" [.name "sky" default]).resolve [⟨"sky", ⟨0⟩⟩]).plan.Mirrors
        (copiedNumber "darken" [.name "sky" default]).statements ∧
      ¬(copiedNumber "grayscale" []).Valid [⟨"sky", ⟨0⟩⟩] := by
  have valid : (copiedNumber "darken" [.name "sky" default]).Valid [⟨"sky", ⟨0⟩⟩] := by
    apply (resolve_decides_rules _ _).1.mp
    unfold OnlyWarnings
    decide
  refine ⟨valid, (resolve_decides_rules _ _).2 valid, ?_⟩
  rw [← (resolve_decides_rules _ _).1, OnlyWarnings]
  decide

end TextureScript
