import TextureScript.Proofs.Assembly.Validity

/-!
# Which fault of a plan is reported

What assembling demands of a plan can be listed in the order in which its code is written: for every
call its number of arguments and then its operands, and for every output its source. The fault that
is reported is that of the first demand in this list that is not met. A plan that meets them all is
given code that is typed, so its module is valid unless the function has too many locals.
-/

namespace TextureScript

open Assembly

/-! ## The demands of a plan -/

/-- Something that is demanded of a plan before code is written for it. -/
inductive Demand where
  /-- A call has the number of arguments that its operation takes. -/
  | arguments (operation : Operation) (given : Nat)
  /-- An operand that refers to a step refers to one that exists. -/
  | operand (source : Operand)

/-- A demand is not met among a number of steps, and the fault says how. -/
inductive Demand.Fails (steps : Nat) : Demand → AssemblyFault → Prop where
  /-- There are too few or too many arguments. -/
  | arguments {operation : Operation} {given : Nat} (wrong : given ≠ operation.arity) :
      Fails steps (.arguments operation given) (.wrongArity operation given)
  /-- There is no such step. -/
  | operand {index : UInt32} (missing : steps ≤ index.toNat) :
      Fails steps (.operand (.result index)) (.unresolvedResult index)

/-- The demands of a value: the number of arguments of a call comes before its operands. -/
def Value.demands : Value → List Demand
  | call operation args => .arguments operation args.length :: args.map .operand
  | copy source => [.operand source]

/-- The demands of a plan in the order in which its code is written: the steps, the channels, the
textures. -/
def Plan.demands (plan : Plan) : List Demand :=
  plan.bindings.toList.flatMap (·.value.demands) ++
    plan.channels.toList.map (.operand ·.source) ++ plan.textures.toList.map (.operand ·.source)

/-- A fault is that of the first demand of a plan that is not met: those before it are. -/
def Plan.FirstFault (plan : Plan) (fault : AssemblyFault) : Prop :=
  ∃ met failed later, plan.demands = met ++ failed :: later ∧
    (∀ demand ∈ met, ∀ other, ¬demand.Fails plan.bindings.size other) ∧
    failed.Fails plan.bindings.size fault

/-! ## Demands are checked in order -/

/-- The fault of a demand that is not met. -/
def Demand.fault? (steps : Nat) : Demand → Option AssemblyFault
  | arguments operation given =>
    if given = operation.arity then none else some (.wrongArity operation given)
  | operand source => source.fault? steps

theorem Demand.fault?_eq_some {steps : Nat} {demand : Demand} {fault : AssemblyFault} :
    demand.fault? steps = some fault ↔ demand.Fails steps fault := by
  constructor
  · intro found
    cases demand with
    | arguments operation given =>
      by_cases right : given = operation.arity
      · simp [Demand.fault?, right] at found
      · rw [Demand.fault?, if_neg right] at found
        cases found
        exact .arguments right
    | operand source =>
      cases source with
      | input | number => cases found
      | result index =>
        by_cases below : index.toNat < steps
        · simp [Demand.fault?, Operand.fault?, below] at found
        · rw [Demand.fault?, Operand.fault?, if_neg below] at found
          cases found
          exact .operand (Nat.le_of_not_lt below)
  · intro fails
    cases fails with
    | arguments wrong => exact if_neg wrong
    | operand missing => exact if_neg (Nat.not_lt.mpr missing)

theorem Demand.fault?_eq_none {steps : Nat} {demand : Demand} :
    demand.fault? steps = none ↔ ∀ fault, ¬demand.Fails steps fault := by
  simp only [Option.eq_none_iff_forall_ne_some, ne_eq, Demand.fault?_eq_some]

/-- The fault of a value is that of its first demand that is not met. -/
theorem Value.fault?_eq_findSome? (steps : Nat) (value : Value) :
    value.fault? steps = value.demands.findSome? (Demand.fault? steps) := by
  cases value with
  | copy source => simp [Value.fault?, Value.demands, Demand.fault?]
  | call operation args =>
    have operands : args.findSome? (Operand.fault? steps) =
        (args.map Demand.operand).findSome? (Demand.fault? steps) := by
      rw [List.findSome?_map]
      rfl
    rw [Value.demands, List.findSome?_cons, Value.fault?, operands]
    by_cases right : args.length = operation.arity
    · rw [Demand.fault?, if_pos right, if_pos right]
    · rw [Demand.fault?, if_neg right, if_neg right]

/-- Looking through the pieces of a list one by one is looking through the list. -/
theorem findSome?_flatMap {α β γ : Type} (items : List α) (piece : α → List β)
    (test : β → Option γ) :
    (items.flatMap piece).findSome? test =
      items.findSome? fun item => (piece item).findSome? test := by
  induction items with
  | nil => rfl
  | cons item items ih =>
    rw [List.flatMap_cons, List.findSome?_append, List.findSome?_cons, ih]
    cases (piece item).findSome? test <;> rfl

/-- The fault of a plan is that of its first demand that is not met. -/
theorem Plan.fault?_eq_findSome? (plan : Plan) :
    plan.fault? = plan.demands.findSome? (Demand.fault? plan.bindings.size) := by
  have operands : Operand.fault? plan.bindings.size =
      Demand.fault? plan.bindings.size ∘ Demand.operand := rfl
  have values : (fun binding : Binding => binding.value.fault? plan.bindings.size) =
      fun binding => binding.value.demands.findSome? (Demand.fault? plan.bindings.size) :=
    funext fun binding => binding.value.fault?_eq_findSome? _
  simp only [fault?, demands, outputs, List.findSome?_append, findSome?_flatMap, values, operands,
    List.findSome?_map, Option.or_assoc]
  rfl

theorem Plan.fault?_eq_some {plan : Plan} {fault : AssemblyFault} :
    plan.fault? = some fault ↔ plan.FirstFault fault := by
  rw [fault?_eq_findSome?, List.findSome?_eq_some_iff]
  constructor
  · rintro ⟨met, failed, later, split, found, sound⟩
    exact ⟨met, failed, later, split, fun demand member => Demand.fault?_eq_none.mp
      (sound demand member), Demand.fault?_eq_some.mp found⟩
  · rintro ⟨met, failed, later, split, sound, fails⟩
    exact ⟨met, failed, later, split, Demand.fault?_eq_some.mpr fails,
      fun demand member => Demand.fault?_eq_none.mpr (sound demand member)⟩

/-! ## The outcome of assembling -/

namespace Plan

variable {plan : Plan}

/-- A module whose function has too many locals is not valid. -/
theorem isValid_module_of_many (numbered : plan.bindings.size < UInt32.size)
    (many : Wasm.maxLocals < plan.bindings.size) : plan.module.isValid = false := by
  have count := plan.localCount_body_of_lt numbered
  have invalid : plan.body.isValid plan.module (.ofWords 0 0) = false := by
    simp [Wasm.Body.isValid, count, Wasm.FunctionType.ofWords, Nat.not_le.mpr many]
  have bodies : plan.module.bodiesValid = false := by
    change (true && ((true && plan.body.isValid plan.module (.ofWords 0 0)) && true)) = false
    rw [invalid]
    rfl
  unfold Wasm.Module.isValid
  rw [bodies, Bool.and_false, Bool.false_and]

/-- A plan with a slot for every output whose steps can be numbered is refused for its fault. -/
theorem assemble_eq_error_of_fault? {fault : AssemblyFault} (slots : plan.slotCount ≤ maxSlots)
    (numbered : plan.bindings.size < UInt32.size) (found : plan.fault? = some fault) :
    plan.assemble = .error fault := by
  rw [assemble, if_neg (Nat.not_lt.mpr slots), if_neg (Nat.not_le.mpr numbered), found]

/-- A plan without a fault that has more steps than a function has locals is refused for them. -/
theorem assemble_eq_error_of_many (slots : plan.slotCount ≤ maxSlots)
    (numbered : plan.bindings.size < UInt32.size) (sound : plan.fault? = none)
    (many : Wasm.maxLocals < plan.bindings.size) :
    plan.assemble = .error (.tooManyLocals plan.localsOffset) := by
  rw [assemble, if_neg (Nat.not_lt.mpr slots), if_neg (Nat.not_le.mpr numbered), sound]
  exact if_pos many

/-- Assembling a plan whose steps can be numbered decides in this order: too many outputs; the first
demand in the order of its code that is not met; more steps than a function may have locals, and
only then the module is not valid. All other plans are assembled, and their modules are valid. -/
theorem assemble_refuses_first (plan : Plan) (numbered : plan.bindings.size < 4294967296) :
    (262144 < plan.channels.size + plan.textures.size →
      plan.assemble = .error (.tooManySlots (plan.channels.size + plan.textures.size))) ∧
    (plan.channels.size + plan.textures.size ≤ 262144 →
      (∀ fault, plan.FirstFault fault → plan.assemble = .error fault) ∧
      ((∀ fault, ¬plan.FirstFault fault) →
        (50000 < plan.bindings.size →
          plan.assemble = .error (.tooManyLocals plan.localsOffset) ∧
            plan.module.isValid = false) ∧
        (plan.bindings.size ≤ 50000 →
          plan.assemble = .ok plan.compiledModule ∧ plan.module.isValid = true))) := by
  refine ⟨fun many => if_pos many, fun slots => ⟨fun fault first => ?_, fun noFault => ?_⟩⟩
  · exact assemble_eq_error_of_fault? slots numbered (fault?_eq_some.mpr first)
  · have sound : plan.fault? = none := by
      rw [Option.eq_none_iff_forall_ne_some]
      intro fault found
      exact noFault fault (fault?_eq_some.mp found)
    refine ⟨fun many => ?_, fun few => ?_⟩
    · exact ⟨assemble_eq_error_of_many slots numbered sound many,
        isValid_module_of_many numbered many⟩
    · obtain ⟨values, outputs⟩ := fault?_eq_none.mp sound
      have accepted : plan.Assembles := ⟨slots, few, values, outputs⟩
      exact ⟨assemble_eq_ok.mpr ⟨accepted, rfl⟩, accepted.isValid_module⟩

/-- A plan with many faults: a call of two arguments is given one that does not exist, and then
there are a call without arguments and an output of a step that does not exist. -/
def faulty : Plan where
  bindings := #[⟨some "a", .image, .copy (.input ⟨0⟩), .point 1 1⟩,
    ⟨some "b", .image, .call .darken [.result 9], .point 2 1⟩,
    ⟨some "c", .image, .call .grayscale [], .point 3 1⟩]
  textures := #[⟨"c", .result 7⟩]

/-- The number of arguments is reported, not the argument, nor a fault that comes later; the plan of
nothing is assembled. -/
theorem assemble_refuses_first_faulty :
    faulty.FirstFault (.wrongArity .darken 1) ∧
      faulty.assemble = .error (.wrongArity .darken 1) ∧
      assemble {} = .ok (compiledModule {}) := by
  have first : faulty.FirstFault (.wrongArity .darken 1) := by
    refine ⟨[.operand (.input ⟨0⟩)], .arguments .darken 1, _, rfl, ?_, .arguments (by decide)⟩
    intro demand member other fails
    rw [List.mem_singleton.mp member] at fails
    cases fails
  have none : ∀ fault, ¬FirstFault {} fault := by
    rintro fault ⟨met, failed, later, split, -⟩
    simp [demands] at split
  have refused := ((assemble_refuses_first faulty (by decide)).2 (by decide)).1 _ first
  have assembled := ((assemble_refuses_first {} (by decide)).2 (by decide)).2 none
  exact ⟨first, refused, (assembled.2 (by decide)).1⟩

end Plan

end TextureScript
