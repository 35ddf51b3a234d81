import TextureScript.Proofs.Assembly.Validity
import TextureScript.Proofs.Plan.Evaluation
import TextureScript.Proofs.Wasm.Memory

/-!
# The code of a plan does what the plan means

Between the pieces of its code the machine of a plan is determined by the evaluation of the plan:
the stack is empty, the locals hold the values of the steps so far and zeros after them, and the
state of the host is that of the evaluation. A piece for a step takes the machine of an evaluation
to the machine of the next one, and a piece for an output writes one word.
-/

namespace TextureScript

open Assembly

/-! ## Pieces of code -/

section

variable {ε α β : Type} {step : β → α → Except ε β} {s after : β}

/-- Code that starts with an instruction that succeeds goes on after it. -/
theorem foldlM_cons_ok {first : α} {rest : List α} (done : step s first = .ok after) :
    (first :: rest).foldlM step s = rest.foldlM step after := by
  rw [List.foldlM_cons, done]
  rfl

/-- Code that starts with a piece that succeeds goes on after it. -/
theorem foldlM_append_ok {piece rest : List α} (done : piece.foldlM step s = .ok after) :
    (piece ++ rest).foldlM step s = rest.foldlM step after := by
  rw [List.foldlM_append, done]
  rfl

end

/-- The locals after some steps: the values so far, and zeros for the steps to come. -/
def paddedLocals (count : Nat) (values : List Int32) : Array Int32 :=
  (values ++ List.replicate (count - values.length) 0).toArray

theorem getElem?_paddedLocals {count index : Nat} (values : List Int32) (below : index < count) :
    (paddedLocals count values)[index]? = some (values.getD index 0) := by
  unfold paddedLocals
  rw [List.getElem?_toArray, List.getElem?_append, List.getD_eq_getElem?_getD]
  split
  · rename_i inside
    rw [List.getElem?_eq_getElem inside, Option.getD_some]
  · rename_i outside
    rw [List.getElem?_replicate, if_pos (by omega), List.getElem?_eq_none (by omega),
      Option.getD_none]

theorem size_paddedLocals {count : Nat} {values : List Int32} (few : values.length ≤ count) :
    (paddedLocals count values).size = count := by
  simp [paddedLocals]
  omega

/-- Putting a value into the first local that waits for one makes it the value of the next step. -/
theorem setIfInBounds_paddedLocals {count : Nat} {values : List Int32} (value : Int32)
    (room : values.length < count) :
    (paddedLocals count values).setIfInBounds values.length value =
      paddedLocals count (values ++ [value]) := by
  have waiting : count - values.length = count - (values ++ [value]).length + 1 := by
    rw [List.length_append, List.length_singleton]
    omega
  unfold paddedLocals
  rw [List.setIfInBounds_toArray, List.set_append_right _ _ (Nat.le_refl _), Nat.sub_self, waiting,
    List.replicate_succ, List.set_cons_zero, List.append_assoc, List.singleton_append]

/-- A way to call functions performs operations when it calls the host for the imported ones. -/
def Performs {σ : Type} (call : Wasm.Caller σ) (perform : Wasm.Host σ) : Prop :=
  ∀ (operation : Operation) (args : List Int32) (world : Wasm.World σ),
    call (UInt32.ofNat operation.importIndex) args world =
      .ok ([(perform operation args world.host).1],
        ⟨world.memories, (perform operation args world.host).2⟩)

/-- A machine admits a module when it has room for its memories and for a call of each of its
functions while an operation is performed. -/
structure Wasm.Capacity.Admits (c : Wasm.Capacity) (m : Wasm.Module) : Prop where
  /-- A call can be made. -/
  calls : 0 < c.calls
  /-- The functions are not too large. -/
  frames : ∀ f ∈ m.ownFunctions, f.frame.fits c = true
  /-- There are cells for a function and for an operation that it calls. -/
  cells : ∀ f ∈ m.ownFunctions, ∀ operation ∈ Operation.all,
    f.frame.cells + max operation.arity 1 ≤ c.cells
  /-- The memories are not too large. -/
  memories : ∀ limits ∈ m.memories, limits.min.toNat * Wasm.pageSize ≤ c.memory

instance (c : Wasm.Capacity) (m : Wasm.Module) : Decidable (c.Admits m) :=
  decidable_of_iff
    (0 < c.calls ∧ (∀ f ∈ m.ownFunctions, f.frame.fits c = true) ∧
      (∀ f ∈ m.ownFunctions, ∀ operation ∈ Operation.all,
        f.frame.cells + max operation.arity 1 ≤ c.cells) ∧
      ∀ limits ∈ m.memories, limits.min.toNat * Wasm.pageSize ≤ c.memory)
    ⟨fun ⟨calls, frames, cells, memories⟩ => ⟨calls, frames, cells, memories⟩,
      fun ⟨calls, frames, cells, memories⟩ => ⟨calls, frames, cells, memories⟩⟩

/-- A machine accepts bytes when they stand for a module that it admits. -/
def Wasm.Capacity.Accepts (c : Wasm.Capacity) (bytes : List UInt8) : Prop :=
  ∃ m ∈ Wasm.Module.decode? bytes, c.Admits m

theorem Operation.mem_all (operation : Operation) : operation ∈ Operation.all := by
  cases operation <;> decide

namespace Plan

variable {σ : Type} {plan : Plan} {perform : Wasm.Host σ} {call : Wasm.Caller σ}

/-- The machine of a plan after some steps. -/
def machine (plan : Plan) (memories : Array Wasm.Memory) (e : Evaluation σ) : Wasm.Machine σ :=
  ⟨[], paddedLocals plan.bindings.size e.values, ⟨memories, e.host⟩⟩

/-- An operand pushes its value. -/
theorem step_operand (call : Wasm.Caller σ) {operand : Operand}
    (sound : operand.WellFormed plan.bindings.size) (values stack : List Int32)
    (world : Wasm.World σ) :
    operand.instruction.step plan.linked call
        ⟨stack, paddedLocals plan.bindings.size values, world⟩ =
      .ok ⟨operand.value values :: stack, paddedLocals plan.bindings.size values, world⟩ := by
  cases operand with
  | input handle => rfl
  | number value => rfl
  | result index =>
    have found := getElem?_paddedLocals values sound
    simp only [Operand.instruction, Wasm.Instruction.step, found]
    rfl

/-- Operands push their values, the last of them topmost. -/
theorem run_operands (call : Wasm.Caller σ) {operands : List Operand}
    (sound : ∀ operand ∈ operands, operand.WellFormed plan.bindings.size)
    (values stack : List Int32) (world : Wasm.World σ) :
    (operands.map Operand.instruction).foldlM (Wasm.Instruction.step plan.linked call)
        ⟨stack, paddedLocals plan.bindings.size values, world⟩ =
      .ok ⟨(operands.map (Operand.value values)).reverse ++ stack,
        paddedLocals plan.bindings.size values, world⟩ := by
  induction operands generalizing stack with
  | nil => rfl
  | cons operand operands ih =>
    have others := ih (fun other member => sound other (List.mem_cons_of_mem _ member))
      (operand.value values :: stack)
    rw [List.map_cons, foldlM_cons_ok (step_operand call (sound operand List.mem_cons_self) _ _ _),
      others, List.map_cons, List.reverse_cons, List.append_assoc]
    rfl

/-- The arguments of a call are found on the stack. -/
theorem takeArguments_reverse (words stack : List Int32) :
    Wasm.takeArguments words.length (words.reverse ++ stack) = some (words, stack) := by
  rw [Wasm.takeArguments, if_pos (by simp)]
  simp

theorem operations_linked (operation : Operation) :
    plan.linked.operations[(UInt32.ofNat operation.importIndex).toNat]? = some operation := by
  cases operation <;> rfl

/-- The code of a step pushes its value, and the host performs its call. -/
theorem run_value (performs : Performs call perform) {binding : Binding}
    (sound : binding.value.WellFormed plan.bindings.size) (memories : Array Wasm.Memory)
    (e : Evaluation σ) :
    ∃ value, (e.step perform binding).values = e.values ++ [value] ∧
      binding.value.code.foldlM (Wasm.Instruction.step plan.linked call)
          (plan.machine memories e) =
        .ok ⟨[value], paddedLocals plan.bindings.size e.values,
          ⟨memories, (e.step perform binding).host⟩⟩ := by
  cases shape : binding.value with
  | copy operand =>
    rw [shape] at sound
    refine ⟨operand.value e.values, by simp [Evaluation.step, shape], ?_⟩
    have pushed := step_operand call sound e.values [] ⟨memories, e.host⟩
    rw [Value.code, machine, foldlM_cons_ok pushed]
    simp only [Evaluation.step, shape]
    rfl
  | call operation args =>
    rw [shape] at sound
    refine ⟨(perform operation (args.map (Operand.value e.values)) e.host).1,
      by simp [Evaluation.step, shape], ?_⟩
    have pushed := run_operands call sound.2 e.values [] ⟨memories, e.host⟩
    have arity : plan.linked.arity? (UInt32.ofNat operation.importIndex) = some args.length := by
      rw [Wasm.Linked.arity?, operations_linked, sound.1]
    have taken := takeArguments_reverse (args.map (Operand.value e.values)) []
    rw [List.length_map] at taken
    have called : (Wasm.Instruction.call (UInt32.ofNat operation.importIndex)).step plan.linked call
        ⟨(args.map (Operand.value e.values)).reverse ++ [],
          paddedLocals plan.bindings.size e.values, ⟨memories, e.host⟩⟩ =
        .ok ⟨[(perform operation (args.map (Operand.value e.values)) e.host).1],
          paddedLocals plan.bindings.size e.values,
          ⟨memories, (perform operation (args.map (Operand.value e.values)) e.host).2⟩⟩ := by
      simp only [Wasm.Instruction.step, arity, Option.bind_some, taken,
        performs operation (args.map (Operand.value e.values)) ⟨memories, e.host⟩]
      rfl
    rw [Value.code, machine, foldlM_append_ok pushed, foldlM_cons_ok called]
    simp only [Evaluation.step, shape]
    rfl

/-- The code of a step takes the machine of an evaluation to that of the next one. -/
theorem run_bindingCode (accepted : plan.Assembles) (performs : Performs call perform)
    {binding : Binding} (sound : binding.value.WellFormed plan.bindings.size)
    (memories : Array Wasm.Memory) {e : Evaluation σ}
    (room : e.values.length < plan.bindings.size) :
    (bindingCode e.values.length binding).foldlM (Wasm.Instruction.step plan.linked call)
        (plan.machine memories e) =
      .ok (plan.machine memories (e.step perform binding)) := by
  obtain ⟨value, values, ran⟩ := run_value performs sound memories e
  have number : (UInt32.ofNat e.values.length).toNat = e.values.length :=
    UInt32.toNat_ofNat_of_lt' (Nat.lt_trans room accepted.steps_lt)
  have inside : e.values.length < (paddedLocals plan.bindings.size e.values).size := by
    rw [size_paddedLocals (Nat.le_of_lt room)]
    exact room
  have set : (Wasm.Instruction.localSet (UInt32.ofNat e.values.length)).step plan.linked call
      ⟨[value], paddedLocals plan.bindings.size e.values,
        ⟨memories, (e.step perform binding).host⟩⟩ =
      .ok (plan.machine memories (e.step perform binding)) := by
    simp only [Wasm.Instruction.step, number, if_pos inside,
      setIfInBounds_paddedLocals value room, ← values]
    rfl
  rw [bindingCode, foldlM_append_ok ran, foldlM_cons_ok set]
  rfl

/-- The code of some steps takes the machine of an evaluation to that of the evaluation after
them. The pieces are numbered on from the steps that are done. -/
theorem run_bindings (accepted : plan.Assembles) (performs : Performs call perform)
    (memories : Array Wasm.Memory) {bindings : List Binding}
    (sound : ∀ binding ∈ bindings, binding.value.WellFormed plan.bindings.size)
    {e : Evaluation σ} (room : e.values.length + bindings.length ≤ plan.bindings.size) :
    (bindings.mapIdx fun index => bindingCode (e.values.length + index)).flatten.foldlM
        (Wasm.Instruction.step plan.linked call) (plan.machine memories e) =
      .ok (plan.machine memories (e.run perform bindings)) := by
  induction bindings generalizing e with
  | nil => rfl
  | cons binding bindings ih =>
    rw [List.length_cons] at room
    have first := run_bindingCode accepted performs (sound binding List.mem_cons_self) memories
      (by omega : e.values.length < plan.bindings.size)
    have count := e.length_values_step perform binding
    have others := ih (fun other member => sound other (List.mem_cons_of_mem _ member))
      (by omega : (e.step perform binding).values.length + bindings.length ≤ plan.bindings.size)
    have numbers : (fun index => bindingCode (e.values.length + (index + 1))) =
        fun index => bindingCode ((e.step perform binding).values.length + index) := by
      funext index
      rw [count]
      congr 1
      omega
    rw [List.mapIdx_cons, List.flatten_cons, Nat.add_zero, foldlM_append_ok first, numbers, others]
    rfl

/-! ## Outputs -/

/-- The code of an output writes its value into its slot. -/
theorem run_slotCode (call : Wasm.Caller σ) (accepted : plan.Assembles) {source : Operand}
    (sound : source.WellFormed plan.bindings.size) {index : Nat} (listed : index < plan.slotCount)
    {memory : Wasm.Memory} (room : 4 * index + 4 ≤ memory.size) (e : Evaluation σ) :
    (slotCode index source).foldlM (Wasm.Instruction.step plan.linked call)
        (plan.machine #[memory] e) =
      .ok (plan.machine #[memory.writeWord (4 * index) (source.value e.values)] e) := by
  have address : (slotOffset index).toInt32.toUInt32.toNat = 4 * index :=
    accepted.slotOffset_toNat listed
  have pushed := step_operand call sound e.values [(slotOffset index).toInt32]
    ⟨#[memory], e.host⟩
  have stored : (⟨#[memory], e.host⟩ : Wasm.World σ).store? 0 (4 * index)
      (source.value e.values) =
      some ⟨#[memory.writeWord (4 * index) (source.value e.values)], e.host⟩ :=
    if_pos (decide_eq_true room)
  have wrote : (Wasm.Instruction.store 2 0 0).step plan.linked call
      ⟨[source.value e.values, (slotOffset index).toInt32],
        paddedLocals plan.bindings.size e.values, ⟨#[memory], e.host⟩⟩ =
      .ok (plan.machine #[memory.writeWord (4 * index) (source.value e.values)] e) := by
    simp only [Wasm.Instruction.step, address, UInt32.toNat_zero, UInt64.toNat_zero, Nat.add_zero,
      stored]
    rfl
  have placed : (Wasm.Instruction.const (slotOffset index).toInt32).step plan.linked call
      (plan.machine #[memory] e) =
      .ok ⟨[(slotOffset index).toInt32], paddedLocals plan.bindings.size e.values,
        ⟨#[memory], e.host⟩⟩ := rfl
  rw [slotCode, foldlM_cons_ok placed, foldlM_cons_ok pushed, foldlM_cons_ok wrote]
  rfl

/-- The code of some outputs writes their values into their slots, one after the other. -/
theorem run_outputs (call : Wasm.Caller σ) (accepted : plan.Assembles) (e : Evaluation σ)
    {outputs : List Operand}
    (sound : ∀ source ∈ outputs, source.WellFormed plan.bindings.size) {start : Nat}
    (listed : start + outputs.length ≤ plan.slotCount) {memory : Wasm.Memory}
    (room : 4 * plan.slotCount ≤ memory.size) :
    (outputs.mapIdx fun index => slotCode (start + index)).flatten.foldlM
        (Wasm.Instruction.step plan.linked call) (plan.machine #[memory] e) =
      .ok (plan.machine #[memory.writeWords start (outputs.map (Operand.value e.values))] e) := by
  induction outputs generalizing start memory with
  | nil => rfl
  | cons source outputs ih =>
    rw [List.length_cons] at listed
    have first := run_slotCode call accepted (sound source List.mem_cons_self)
      (by omega : start < plan.slotCount) (by omega : 4 * start + 4 ≤ memory.size) e
    have others := ih (fun other member => sound other (List.mem_cons_of_mem _ member))
      (by omega : start + 1 + outputs.length ≤ plan.slotCount)
      (by simpa using room : 4 * plan.slotCount ≤
        (memory.writeWord (4 * start) (source.value e.values)).size)
    have numbers : (fun index => slotCode (start + (index + 1))) =
        fun index => slotCode (start + 1 + index) := by
      funext index
      congr 1
      omega
    rw [List.mapIdx_cons, List.flatten_cons, Nat.add_zero, foldlM_append_ok first, numbers, others,
      List.map_cons, Wasm.Memory.writeWords]

/-! ## The whole run -/

/-- The memory of a plan after the run. -/
def finalMemory (plan : Plan) (e : Evaluation σ) : Wasm.Memory :=
  plan.initialMemory.writeWords 0 (plan.outputs.map (Operand.value e.values))

theorem size_initialMemory (plan : Plan) :
    plan.initialMemory.size = pagesForSlots plan.slotCount * Wasm.pageSize :=
  Wasm.Memory.size_write _ _ _

/-- The code of a plan evaluates the plan and writes its outputs. -/
theorem run_code (accepted : plan.Assembles) (performs : Performs call perform) (host : σ) :
    plan.code.foldlM (Wasm.Instruction.step plan.linked call)
        (plan.machine #[plan.initialMemory] { host }) =
      .ok (plan.machine #[plan.finalMemory (plan.evaluate perform host)]
        (plan.evaluate perform host)) := by
  have steps : (plan.bindings.toList.mapIdx bindingCode).flatten.foldlM
      (Wasm.Instruction.step plan.linked call) (plan.machine #[plan.initialMemory] { host }) =
      .ok (plan.machine #[plan.initialMemory] (plan.evaluate perform host)) := by
    have ran := run_bindings accepted performs #[plan.initialMemory] accepted.values
      (by simp : ({ host } : Evaluation σ).values.length + plan.bindings.toList.length ≤
        plan.bindings.size)
    simp only [List.length_nil, Nat.zero_add] at ran
    exact ran
  have outputs : (plan.outputs.mapIdx slotCode).flatten.foldlM
      (Wasm.Instruction.step plan.linked call)
      (plan.machine #[plan.initialMemory] (plan.evaluate perform host)) =
      .ok (plan.machine #[plan.finalMemory (plan.evaluate perform host)]
        (plan.evaluate perform host)) := by
    have room : 4 * plan.slotCount ≤ plan.initialMemory.size := by
      rw [size_initialMemory]
      exact slots_le_pages plan.slotCount
    have ran := run_outputs call accepted (plan.evaluate perform host) accepted.outputs
      (by rw [length_outputs]; omega : 0 + plan.outputs.length ≤ plan.slotCount) room
    simp only [Nat.zero_add] at ran
    exact ran
  rw [code, foldlM_append_ok steps, outputs]

theorem performs_call {calls cells : Nat}
    (room : ∀ operation : Operation, max operation.arity 1 ≤ cells) :
    Performs (plan.linked.call perform calls cells) perform := by
  intro operation args world
  unfold Wasm.Linked.call
  simp only [operations_linked, if_pos (room operation)]

/-- A call of the function of a plan evaluates the plan and writes its outputs. -/
theorem call_entry (perform : Wasm.Host σ) (accepted : plan.Assembles) {calls cells : Nat}
    (allowed : 0 < calls)
    (room : ∀ operation : Operation, plan.function.frame.cells + max operation.arity 1 ≤ cells)
    (host : σ) :
    plan.linked.call perform calls cells 10 [] ⟨#[plan.initialMemory], host⟩ =
      .ok ([], ⟨#[plan.finalMemory (plan.evaluate perform host)],
        (plan.evaluate perform host).host⟩) := by
  obtain ⟨further, rfl⟩ : ∃ further, calls = further + 1 := ⟨calls - 1, by omega⟩
  have fits : plan.function.frame.cells ≤ cells := by
    have := room .resize
    omega
  have performs : Performs (plan.linked.call perform further
      (cells - plan.function.frame.cells)) perform := by
    apply performs_call
    intro operation
    have := room operation
    omega
  have imported : plan.linked.operations[(10 : UInt32).toNat]? = none := rfl
  have own : plan.linked.functions[(10 : UInt32).toNat - plan.linked.operations.size]? =
    some plan.function := rfl
  have locals : ([].toArray ++ Array.replicate plan.function.body.localCount 0 : Array Int32) =
      paddedLocals plan.bindings.size [] := by
    have count : plan.function.body.localCount = plan.bindings.size :=
      localCount_body plan accepted
    rw [count, paddedLocals]
    simp
  have ran : plan.function.body.code.foldlM (Wasm.Instruction.step plan.linked
      (plan.linked.call perform further (cells - plan.function.frame.cells)))
      ⟨[], paddedLocals plan.bindings.size [], ⟨#[plan.initialMemory], host⟩⟩ =
      .ok (plan.machine #[plan.finalMemory (plan.evaluate perform host)]
        (plan.evaluate perform host)) := run_code accepted performs host
  unfold Wasm.Linked.call
  simp only [imported, own, if_pos fits, Wasm.Linked.runBody, locals, ran]
  rfl

theorem fits_module {c : Wasm.Capacity} (admits : c.Admits plan.module) :
    plan.module.fits plan.linked c = true := by
  have frame := admits.frames plan.function (List.mem_singleton.mpr rfl)
  have memories : plan.module.memories.all (·.min.toNat * Wasm.pageSize ≤ c.memory) = true := by
    rw [List.all_eq_true]
    intro limits member
    exact decide_eq_true (admits.memories limits member)
  have functions : plan.linked.functions.all (·.frame.fits c) = true := by
    simpa [linked] using frame
  rw [Wasm.Module.fits, functions, memories]
  rfl

/-- A machine that admits the module of an assembled plan runs it to its end. -/
theorem run_module (accepted : plan.Assembles) {c : Wasm.Capacity} (admits : c.Admits plan.module)
    (perform : Wasm.Host σ) (host : σ) :
    plan.module.run c perform host =
      (.ok (plan.finalMemory (plan.evaluate perform host)), (plan.evaluate perform host).host) := by
  have called := call_entry perform accepted admits.calls
    (fun operation => admits.cells plan.function (List.mem_singleton.mpr rfl) operation
      operation.mem_all) host
  have started : plan.linked.start c perform 10 ⟨#[plan.initialMemory], host⟩ =
      .ok ⟨#[plan.finalMemory (plan.evaluate perform host)],
        (plan.evaluate perform host).host⟩ := by
    rw [Wasm.Linked.start, called]
    rfl
  have none : plan.module.start = none := rfl
  have exported (memory : Wasm.Memory) : plan.module.exportedMemory? #[memory] = some memory := rfl
  rw [Wasm.Module.run, accepted.isValid_module]
  simp only [Bool.not_true, Bool.false_eq_true, ↓reduceIte, link?_module,
    initialMemories?_module accepted, fits_module admits, Wasm.Module.execute, none, entry?_module,
    started, exported]

theorem bytes_compiledModule (plan : Plan) :
    plan.compiledModule.wasm.data.toList = plan.module.encode := by
  simp only [compiledModule, List.toList_data_toByteArray]

/-- The bytes of an assembled plan are accepted where its module is admitted. -/
theorem Assembles.accepts_iff (accepted : plan.Assembles) {c : Wasm.Capacity} :
    c.Accepts plan.compiledModule.wasm.data.toList ↔ c.Admits plan.module := by
  rw [bytes_compiledModule, Wasm.Capacity.Accepts, accepted.decode_encode]
  simp

/-- The bytes of an assembled plan run to their end. -/
theorem runBytes_module (accepted : plan.Assembles) {c : Wasm.Capacity}
    (accepts : c.Accepts plan.compiledModule.wasm.data.toList) (perform : Wasm.Host σ) (host : σ) :
    Wasm.runBytes plan.compiledModule.wasm.data.toList c perform host =
      (.ok (plan.finalMemory (plan.evaluate perform host)), (plan.evaluate perform host).host) := by
  rw [bytes_compiledModule, Wasm.runBytes, accepted.decode_encode]
  exact run_module accepted (accepted.accepts_iff.mp accepts) perform host

end Plan

end TextureScript
