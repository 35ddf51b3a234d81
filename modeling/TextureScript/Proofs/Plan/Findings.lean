import TextureScript.Proofs.Plan.Resolution
import TextureScript.Proofs.Script.Spans

/-!
# Where resolving finds problems

A problem that resolving finds stands where a part of the script stands, and only unknown material
types and channels are warnings. Along the walk over a script whose parts stand at places that are
allowed, all findings do so too.
-/

namespace TextureScript

namespace Resolution

/-- All findings so far are at places that are allowed, and as serious as their codes say. -/
def Within (Placed : Span → Prop) (r : Resolution) : Prop :=
  ∀ finding ∈ r.findings.toList, finding.Within Placed

namespace Within

variable {Placed : Span → Prop} {r : Resolution}

theorem report (within : r.Within Placed) {finding : Finding} (found : finding.Within Placed) :
    (r.report finding).Within Placed :=
  forall_mem_push within found

theorem resolveName (within : r.Within Placed) (name : String) {span : Span}
    (here : Placed span) : (r.resolveName name span).2.Within Placed := by
  unfold Resolution.resolveName
  split
  · exact within
  · exact within
  · exact within
  · exact within.report (.ofError here rfl (show ¬Code.IsWarning .unresolvedIdentifier by decide))

theorem checkArguments (within : r.Within Placed) (op : Operation)
    {args : List (Expr × Option Typed)} (each : ∀ arg ∈ args, arg.1.Within Placed)
    (params : List Parameter) :
    (Resolution.checkArguments op r args params).2.Within Placed := by
  induction args generalizing r params with
  | nil => exact within
  | cons arg args ih =>
    obtain ⟨arg, lowered⟩ := arg
    obtain ⟨here, later⟩ := List.forall_mem_cons.mp each
    cases params with
    | nil => exact within
    | cons param params =>
      unfold Resolution.checkArguments
      cases lowered with
      | none => exact ih within later params
      | some typed =>
        obtain ⟨operand, kind⟩ := typed
        by_cases same : kind = param.kind
        · simp only [same, ↓reduceIte]
          exact ih within later params
        · simp only [same, ↓reduceIte]
          exact ih (within.report (.ofError here.span rfl
            (show ¬Code.IsWarning .argumentKindMismatch by decide))) later params

theorem resolveCall (within : r.Within Placed) {callee : Name} (named : Placed callee.span)
    {args : List (Expr × Option Typed)} (each : ∀ arg ∈ args, arg.1.Within Placed) {span : Span}
    (here : Placed span) : (r.resolveCall callee args span).2.Within Placed := by
  unfold Resolution.resolveCall
  split
  · exact within.report (.ofError named rfl (show ¬Code.IsWarning .unknownFunction by decide))
  · split
    · exact within.checkArguments _ each _
    · exact within.report (.ofError here rfl (show ¬Code.IsWarning .arityMismatch by decide))

end Within

mutual

/-- A value is resolved. -/
theorem within_resolveOperand {Placed : Span → Prop} {r : Resolution} (within : r.Within Placed) :
    (e : Expr) → e.Within Placed → (r.resolveOperand e).2.Within Placed
  | .number value span, _ => by
    simp only [resolveOperand]
    exact within
  | .name text span, placed => by
    simp only [resolveOperand]
    exact within.resolveName text placed.span
  | .call callee args span, placed => by
    cases placed with
    | call named each here =>
      obtain ⟨operands, after⟩ := within_resolveOperands within args each
      have called := after.resolveCall named operands here
      simp only [resolveOperand]
      split
      · rename_i found
        rw [found] at called
        exact called
      · rename_i found
        rw [found] at called
        exact called

/-- Values are resolved, each beside its expression. -/
theorem within_resolveOperands {Placed : Span → Prop} {r : Resolution} (within : r.Within Placed) :
    (args : List Expr) → (∀ arg ∈ args, arg.Within Placed) →
      (∀ arg ∈ (r.resolveOperands args).1, arg.1.Within Placed) ∧
        (r.resolveOperands args).2.Within Placed
  | [], _ => by
    simp only [resolveOperands]
    exact ⟨nofun, within⟩
  | arg :: args, each => by
    obtain ⟨here, later⟩ := List.forall_mem_cons.mp each
    obtain ⟨operands, after⟩ :=
      within_resolveOperands (within_resolveOperand within arg here) args later
    simp only [resolveOperands]
    exact ⟨List.forall_mem_cons.mpr ⟨here, operands⟩, after⟩

end

namespace Within

variable {Placed : Span → Prop} {r : Resolution}

theorem resolveValue (within : r.Within Placed) {e : Expr} (placed : e.Within Placed) :
    (r.resolveValue e).2.Within Placed := by
  cases placed with
  | call named each here =>
    obtain ⟨operands, after⟩ := within_resolveOperands within _ each
    exact after.resolveCall named operands here
  | number here =>
    simp only [Resolution.resolveValue]
    exact within_resolveOperand within _ (.number here)
  | name here =>
    simp only [Resolution.resolveValue]
    exact within_resolveOperand within _ (.name here)

theorem resolveOutput (within : r.Within Placed) {e : Expr} (placed : e.Within Placed) :
    (r.resolveOutput e).2.Within Placed := by
  have resolved := within_resolveOperand within e placed
  unfold Resolution.resolveOutput
  split
  all_goals
    rename_i found
    rw [found] at resolved
  · exact resolved
  · exact resolved.report
      (.ofError placed.span rfl (show ¬Code.IsWarning .notAnImage by decide))
  · exact resolved

theorem resolveBinding (within : r.Within Placed) {target : Name} (named : Placed target.span)
    {value : Expr} (placed : value.Within Placed) (span : Span) :
    (r.resolveBinding target value span).Within Placed := by
  have resolved := within.resolveValue placed
  obtain ⟨symbol, after, added, defined⟩ := r.resolveBinding_cases target value span
  have met : after.Within Placed := by
    rcases added with ⟨result, kind, _, _, rfl⟩ | ⟨_, _, rfl⟩
    · exact resolved
    · exact resolved
  rcases defined with ⟨scope, _, found⟩ | ⟨conflict, _, found⟩
  · rw [found]
    exact met
  · rw [found]
    apply met.report
    cases conflict with
    | input => exact .ofError named rfl (show ¬Code.IsWarning .duplicateBinding by decide)
    | binding first =>
      exact .ofError named rfl (show ¬Code.IsWarning .duplicateBinding by decide)

/-- What is wrong with a material type or its channel is a warning. -/
theorem checkMaterial (within : r.Within Placed) {channel materialType : Name}
    (named : Placed channel.span) (typed : Placed materialType.span) :
    (r.checkMaterial channel materialType).Within Placed := by
  unfold Resolution.checkMaterial materialFinding?
  by_cases unknown : (!(MaterialType.ofTag materialType.text).isKnown) = true
  · simp only [unknown, ↓reduceIte]
    exact within.report ⟨typed, iff_of_true rfl (.inl rfl)⟩
  · by_cases unlisted : (!(MaterialType.ofTag materialType.text).hasChannel channel.text) = true
    · simp only [unknown, unlisted, ↓reduceIte]
      exact within.report ⟨named, iff_of_true rfl (.inr rfl)⟩
    · simp only [unknown, unlisted]
      exact within

theorem resolveChannel (within : r.Within Placed) {material channel materialType : Name}
    (named : Placed channel.span) (typed : Placed materialType.span) {value : Expr}
    (placed : value.Within Placed) {span : Span} (here : Placed span) :
    (r.resolveChannel material channel materialType value span).Within Placed := by
  have resolved := (within.checkMaterial named typed).resolveOutput placed
  obtain ⟨source, after, output, outcome⟩ :=
    r.resolveChannel_cases material channel materialType value span
  rw [output] at resolved
  rcases outcome with ⟨first, _, found⟩ | ⟨_, found⟩
  · rw [found]
    exact resolved.report (.ofError here rfl (show ¬Code.IsWarning .duplicateChannel by decide))
  · rw [found]
    exact resolved

theorem resolveExport (within : r.Within Placed) {name : Name} (here : Placed name.span) :
    (r.resolveExport name).Within Placed := by
  rcases r.resolveExport_cases name with ⟨first, _, found⟩ | ⟨_, source, after, output, found⟩
  · rw [found]
    exact within.report (.ofError here rfl (show ¬Code.IsWarning .duplicateChannel by decide))
  · have declared : Within Placed { r with textures := r.textures.insert name.text name.span } :=
      within
    have value : Expr.Within Placed (.name name.text name.span) := .name here
    have resolved := declared.resolveOutput value
    rw [output] at resolved
    rw [found]
    exact resolved

/-- A walk whose steps keep this keeps it. -/
theorem foldl {α : Type} {step : Resolution → α → Resolution} {items : List α}
    (keeps : ∀ (r : Resolution) (item : α), item ∈ items → r.Within Placed →
      (step r item).Within Placed) (within : r.Within Placed) :
    (items.foldl step r).Within Placed := by
  induction items generalizing r with
  | nil => exact within
  | cons item items ih =>
    exact ih (fun r later member => keeps r later (List.mem_cons_of_mem _ member))
      (keeps r item List.mem_cons_self within)

theorem resolveStatement (within : r.Within Placed) {statement : Statement}
    (placed : statement.Within Placed) : (r.resolveStatement statement).Within Placed := by
  cases placed with
  | bind named valued => exact within.resolveBinding named valued _
  | channel _ named typed valued here => exact within.resolveChannel named typed valued here
  | exports each =>
    exact foldl (fun _ name member within => within.resolveExport (each name member)) within

end Within

end Resolution

/-- Resolving a script whose parts stand at places that are allowed finds problems at such places,
and only unknown material types and channels are warnings. -/
theorem Script.within_resolve {Placed : Span → Prop} {script : Script}
    (placed : ∀ statement ∈ script.statements, statement.Within Placed)
    (inputs : List InputImage) : (script.resolve inputs).Within Placed :=
  Resolution.Within.foldl
    (fun _ statement member within => within.resolveStatement (placed statement member)) nofun

end TextureScript
