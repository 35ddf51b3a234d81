import TextureScript.Proofs.Compiler.Unset
import TextureScript.Proofs.Store.Alike
import TextureScript.Proofs.Store.Handles
import TextureScript.Proofs.Store.Session

/-!
# Runs can be repeated

A run leaves the images that it made in the store, and once these are cleared the store is as it was
except that handles were used up. A second run then gets other handles for its images. Step by step
the two runs hold words for the same images, so every limit decides in the same way in both, and
both export the same images.
-/

namespace TextureScript

/-! ## Clearing what was added -/

namespace Store

/-- Every image of the store is that of an input. -/
def OnlyInputs (store : Store) : Prop :=
  ∀ entry ∈ store.images, ∃ input ∈ store.inputs, input.handle = entry.1

/-- When a store that had inputs only has grown, clearing it leaves what it was, except that handles
were used up. -/
theorem Grows.clearGenerated_eq {before after : Store} (grows : before.Grows after)
    (invariant : before.Invariant) (onlyInputs : before.OnlyInputs) :
    after.clearGenerated = { before with next := after.next } := by
  obtain ⟨added, split, above⟩ := grows.images
  have cleared : after.images.filter (fun entry => before.inputs.any (·.handle == entry.1)) =
      before.images := by
    have new : added.filter (fun entry => before.inputs.any (·.handle == entry.1)) = [] := by
      rw [List.filter_eq_nil_iff]
      intro entry member isInput
      obtain ⟨input, listed, same⟩ := List.any_eq_true.mp isInput
      obtain ⟨image, found⟩ := Option.isSome_iff_exists.mp (invariant.inputsKept input listed)
      have below := invariant.below _ (mem_images_of_image? found)
      rw [eq_of_beq same] at below
      exact UInt32.not_lt.mpr (above entry member) below
    have old : before.images.filter (fun entry => before.inputs.any (·.handle == entry.1)) =
        before.images := by
      rw [List.filter_eq_self]
      intro entry member
      obtain ⟨input, listed, same⟩ := onlyInputs entry member
      exact List.any_eq_true.mpr ⟨input, listed, beq_iff_eq.mpr same⟩
    rw [split, List.filter_append, new, old, List.nil_append]
  simp only [clearGenerated, grows.config, grows.inputs, cleared, invariant.bytes]

/-- Whatever a module does to a store that had inputs only, clearing the store afterwards leaves
what it was, except that handles were used up. -/
theorem Invariant.clearGenerated_run {store after : Store} (invariant : store.Invariant)
    (onlyInputs : store.OnlyInputs) {compiled : CompiledModule} {capacity : Wasm.Capacity}
    {outcome : Except Wasm.RunFault ExportedImages}
    (ran : store.run compiled capacity = (outcome, after)) :
    after.clearGenerated = { store with next := after.next } ∧
      Invariant { store with next := after.next } := by
  obtain ⟨kept, grows⟩ := invariant.grows_run compiled capacity
  rw [ran] at kept grows
  have cleared := grows.clearGenerated_eq invariant onlyInputs
  exact ⟨cleared, cleared ▸ kept.clearGenerated⟩

/-! ## Words that mean the same -/

/-- A word that is live or stands for no image means the same after a new image is kept. -/
theorem Invariant.imageAt_keepNew {store : Store} (invariant : store.Invariant) {word : Int32}
    (settled : word = Handle.unset.toWire ∨ store.Live word) (image : Image) :
    (store.keepNew image).imageAt word = store.imageAt word := by
  rcases settled with rfl | ⟨handle, source, named, found⟩
  · simp only [imageAt_unset]
  · simp only [imageAt, named, Option.bind_some]
    exact lookup_keepNew image (invariant.below _ (mem_images_of_image? found))

/-- The word of the next handle stands for the image that is kept under it. -/
theorem Invariant.imageAt_next {store : Store} (invariant : store.Invariant)
    (free : store.next ≠ Handle.unset) (image : Image) :
    (store.keepNew image).imageAt store.next.toWire = some image := by
  obtain ⟨larger, possible⟩ := next_number_lt invariant free
  rw [imageAt, Handle.ofWire?_toWire (UInt32.lt_of_lt_of_le larger possible), Option.bind_some]
  simp [Store.image?, keepNew]

/-- A call uses up at most one handle. -/
theorem next_dispatch_le (store : Store) (operation : Operation) (args : List Int32) :
    (store.dispatch operation args).2.next.number.toNat ≤ store.next.number.toNat + 1 := by
  rcases dispatch_inserts store operation args with unchanged | ⟨handle, image, inserted⟩
  · rw [unchanged]
    exact Nat.le_succ _
  · obtain ⟨-, -, -, -, -, same⟩ := insert_eq_ok.mp inserted
    rw [same]
    exact Nat.le_trans (Nat.le_of_eq (UInt32.toNat_add _ _)) (Nat.mod_le _ _)

theorem ne_unset_of_lt {store : Store}
    (below : store.next.number.toNat < Handle.unset.number.toNat) : store.next ≠ Handle.unset := by
  intro same
  rw [same] at below
  exact Nat.lt_irrefl _ below

end Store

/-! ## Two evaluations in step -/

/-- A plan uses up at most one handle for every step. -/
theorem Plan.next_evaluateUpTo_le (plan : Plan) (store : Store) (count : Nat) :
    (plan.evaluateUpTo Store.host store count).host.next.number.toNat ≤
      store.next.number.toNat + count := by
  induction count with
  | zero => exact Nat.le_refl _
  | succ number ih =>
    cases found : plan.bindings.toList[number]? with
    | none =>
      rw [evaluateUpTo, List.take_add_one, found, Option.toList_none, List.append_nil]
      exact Nat.le_succ_of_le ih
    | some step =>
      rw [evaluateUpTo_succ found, Evaluation.step]
      cases step.value with
      | copy source => exact Nat.le_succ_of_le ih
      | call operation args =>
        exact Nat.le_trans (Store.next_dispatch_le _ operation _) (Nat.succ_le_succ ih)

/-- The value that was added last is that of the last step. -/
theorem Operand.value_result_concat {index : UInt32} {values : List Int32} {word : Int32}
    (last : index.toNat = values.length) :
    (Operand.result index).value (values ++ [word]) = word := by
  simp [Operand.value, last]

/-- Two evaluations of the same steps hold the same images, maybe under different handles. -/
structure Evaluation.Twins (inputs : List InputImage) (steps : List Binding)
    (e twin : Evaluation Store) : Prop where
  /-- The stores are alike. -/
  alike : e.host.Alike twin.host
  /-- Every operand means the same in both. -/
  operands : ∀ (operand : Operand) (kind : Kind), operand.IsGiven inputs →
    operand.kind? steps = some kind → e.host.SameValue twin.host kind
      (operand.value e.values) (operand.value twin.values)

namespace Evaluation.Twins

variable {inputs : List InputImage} {steps : List Binding} {e twin : Evaluation Store}

/-- Before the first step the stores may differ in the handles that were used up. -/
theorem start (store : Store) (next : Handle) :
    Twins store.inputs [] { host := store } { host := { store with next } } := by
  refine ⟨⟨rfl, rfl, rfl⟩, ?_⟩
  intro operand kind given isKind
  cases operand with
  | input handle =>
    cases isKind
    rfl
  | number value =>
    cases isKind
    rfl
  | result index => cases isKind

/-- The arguments of a call mean the same in both. -/
theorem sameArguments (twins : e.Twins inputs steps twin) {params : List Parameter}
    {args : List Operand} (given : ∀ arg ∈ args, arg.IsGiven inputs)
    (kinds : args.map (Operand.kind? steps) = params.map (some ·.kind)) :
    e.host.SameArguments twin.host params (args.map (Operand.value e.values))
      (args.map (Operand.value twin.values)) := by
  induction args generalizing params with
  | nil =>
    rw [List.map_eq_nil_iff.mp kinds.symm]
    exact .nil
  | cons arg args ih =>
    cases params with
    | nil => cases kinds
    | cons param params =>
      obtain ⟨kind, others⟩ := List.cons.inj kinds
      exact .cons (twins.operands arg _ (given arg List.mem_cons_self) kind)
        (ih (fun other member => given other (List.mem_cons_of_mem _ member)) others)

/-- A step can be added whose values mean the same, if everything before it still does. -/
theorem concat {after after' : Evaluation Store} {step : Binding} {word other : Int32}
    (length : e.values.length = steps.length) (length' : twin.values.length = steps.length)
    (values : after.values = e.values ++ [word]) (values' : after'.values = twin.values ++ [other])
    (alike : after.host.Alike after'.host)
    (kept : ∀ (operand : Operand) (kind : Kind), operand.IsGiven inputs →
      operand.kind? steps = some kind → after.host.SameValue after'.host kind
        (operand.value e.values) (operand.value twin.values))
    (added : after.host.SameValue after'.host step.kind word other) :
    after.Twins inputs (steps ++ [step]) after' := by
  refine ⟨alike, ?_⟩
  intro operand kind given isKind
  rw [values, values']
  cases operand with
  | input handle => exact kept (.input handle) kind given isKind
  | number value =>
    cases isKind
    rfl
  | result index =>
    obtain ⟨found, isStep, rfl⟩ := Option.map_eq_some_iff.mp isKind
    -- the step that is referred to was there before, or it is the new one
    by_cases earlier : index.toNat < steps.length
    · have among : (Operand.result index).kind? steps = some found.kind := by
        rw [List.getElem?_append_left earlier] at isStep
        exact congrArg (Option.map _) isStep
      have before : (Operand.result index).WellFormed e.values.length := length ▸ earlier
      have before' : (Operand.result index).WellFormed twin.values.length := length' ▸ earlier
      rw [Operand.value_of_prefix before (List.prefix_append _ _),
        Operand.value_of_prefix before' (List.prefix_append _ _)]
      exact kept _ _ given among
    · have last : index.toNat = steps.length := by
        have inside := (List.getElem?_eq_some_iff.mp isStep).1
        rw [List.length_append, List.length_singleton] at inside
        omega
      rw [last, List.getElem?_concat_length] at isStep
      cases isStep
      rw [Operand.value_result_concat (last.trans length.symm),
        Operand.value_result_concat (last.trans length'.symm)]
      exact added

/-! ### One step

The two evaluations began on stores with the same inputs, and neither store has used up its
handles. -/

section Step

variable {store store' : Store} (twins : e.Twins store.inputs steps twin)
  (tracks : e.Tracks store steps) (tracks' : twin.Tracks store' steps)
  (invariant : store.Invariant) (invariant' : store'.Invariant)
  (sameInputs : store'.inputs = store.inputs)

include twins tracks tracks' invariant invariant' sameInputs

/-- Operands still mean the same after both stores have kept the same image. -/
theorem sameValue_keepNew (image : Image) {operand : Operand} {kind : Kind}
    (given : operand.IsGiven store.inputs) (isKind : operand.kind? steps = some kind) :
    (e.host.keepNew image).SameValue (twin.host.keepNew image) kind
      (operand.value e.values) (operand.value twin.values) := by
  have same := twins.operands operand kind given isKind
  cases kind with
  | number => exact same
  | image =>
    have settled := tracks.operand invariant given isKind
    have settled' := tracks'.operand invariant' (sameInputs ▸ given) isKind
    rw [Store.SameValue, tracks.invariant.imageAt_keepNew settled,
      tracks'.invariant.imageAt_keepNew settled']
    exact same

/-- Evaluating a step that is made of those before it keeps two evaluations in step. -/
theorem step (free : e.host.next ≠ Handle.unset) (free' : twin.host.next ≠ Handle.unset)
    {step : Binding} (given : ∀ operand ∈ step.value.operands, operand.IsGiven store.inputs)
    (checks : step.value.Checks steps step.kind) :
    (e.step Store.host step).Twins store.inputs (steps ++ [step]) (twin.step Store.host step) := by
  unfold Evaluation.step
  cases value : step.value with
  | copy source =>
    rw [value] at given checks
    exact concat tracks.length tracks'.length rfl rfl twins.alike twins.operands
      (twins.operands source step.kind (given source List.mem_cons_self) checks)
  | call operation args =>
    rw [value] at given checks
    have same : e.host.SameArguments twin.host operation.params
        (args.map (Operand.value e.values)) (args.map (Operand.value twin.values)) :=
      twins.sameArguments given checks.2
    rcases twins.alike.dispatch free free' same with ⟨failed, failed'⟩ | ⟨image, kept, kept'⟩
    · simp only [Store.host, failed, failed']
      refine concat tracks.length tracks'.length rfl rfl twins.alike twins.operands ?_
      rw [checks.1, Store.SameValue, Store.imageAt_unset, Store.imageAt_unset]
    · simp only [Store.host, kept, kept']
      refine concat tracks.length tracks'.length rfl rfl (twins.alike.keepNew image) ?_ ?_
      · intro operand kind among isKind
        exact twins.sameValue_keepNew tracks tracks' invariant invariant' sameInputs image among
          isKind
      · rw [checks.1, Store.SameValue, tracks.invariant.imageAt_next free,
          tracks'.invariant.imageAt_next free']

end Step

end Evaluation.Twins

namespace Resolution

variable {store : Store} {r : Resolution}

/-- Two evaluations of a resolved plan on stores with the same images, one of which has used up more
handles, stay in step as long as there are handles. -/
theorem twins_evaluateUpTo (sound : r.Sound) (uses : r.UsesInputs store.inputs)
    (invariant : store.Invariant) {next : Handle}
    (invariant' : Store.Invariant { store with next })
    {count : Nat} (room : store.next.number.toNat + count ≤ Handle.unset.number.toNat)
    (room' : next.number.toNat + count ≤ Handle.unset.number.toNat) :
    (r.plan.evaluateUpTo Store.host store count).Twins store.inputs
      (r.plan.bindings.toList.take count)
      (r.plan.evaluateUpTo Store.host { store with next } count) := by
  induction count with
  | zero => exact .start store next
  | succ number ih =>
    have earlier := ih (Nat.le_of_succ_le room) (Nat.le_of_succ_le room')
    cases found : r.plan.bindings.toList[number]? with
    | none =>
      simp only [Plan.evaluateUpTo, List.take_add_one, found, Option.toList_none, List.append_nil]
      exact earlier
    | some step =>
      have given := uses.steps step (Array.mem_toList_iff.mp (List.mem_of_getElem? found))
      rw [Plan.evaluateUpTo_succ found, Plan.evaluateUpTo_succ found, List.take_add_one, found,
        Option.toList_some]
      -- the steps before used up one handle each at most, so there is one left for this step
      have used := r.plan.next_evaluateUpTo_le store number
      have used' := r.plan.next_evaluateUpTo_le { store with next } number
      have tracks := r.tracks_evaluateUpTo sound uses invariant number
      have uses' : r.UsesInputs (Store.inputs { store with next }) := uses
      have tracks' := r.tracks_evaluateUpTo sound uses' invariant' number
      exact earlier.step tracks tracks' invariant invariant' rfl
        (Store.ne_unset_of_lt (Nat.lt_of_le_of_lt used room))
        (Store.ne_unset_of_lt (Nat.lt_of_le_of_lt used' room')) given (sound.checks found)

/-- What is collected after two evaluations in step is the same. -/
theorem collect_eq_of_twins (sound : r.Sound) (uses : r.UsesInputs store.inputs)
    {e twin : Evaluation Store} (twins : e.Twins store.inputs r.plan.bindings.toList twin)
    {compiled : CompiledModule} {memory memory' : Wasm.Memory}
    (stored : e.Stored r.plan compiled memory) (stored' : twin.Stored r.plan compiled memory') :
    e.host.collect compiled memory = twin.host.collect compiled memory' := by
  have textures :
      e.host.liveTextures compiled memory = twin.host.liveTextures compiled memory' := by
    rw [stored.liveTextures_eq, stored'.liveTextures_eq]
    apply List.filterMap_congr
    intro output member
    have among := Array.mem_toList_iff.mp member
    exact congrArg (Option.map _) (twins.operands _ .image (uses.textures output among)
      (sound.textures output among))
  have channels :
      e.host.liveChannels compiled memory = twin.host.liveChannels compiled memory' := by
    rw [stored.liveChannels_eq, stored'.liveChannels_eq]
    apply List.filterMap_congr
    intro output member
    have among := Array.mem_toList_iff.mp member
    exact congrArg (Option.map _) (twins.operands _ .image (uses.channels output among)
      (sound.channels output among))
  rw [Store.collect_eq, Store.collect_eq, textures, channels]

end Resolution

/-! ## Two runs -/

/-- The run of an assembled plan collects the outputs of its evaluation. -/
theorem Plan.Assembles.run_compiledModule {plan : Plan} (assembles : plan.Assembles)
    {capacity : Wasm.Capacity} (accepts : capacity.Accepts plan.compiledModule.wasm.data.toList)
    (store : Store) :
    store.run plan.compiledModule capacity =
      (.ok ((plan.evaluate Store.host store).host.collect plan.compiledModule
        (plan.finalMemory (plan.evaluate Store.host store))),
        (plan.evaluate Store.host store).host) := by
  rw [Store.run, Plan.runBytes_module assembles accepts]

/-- A script that is compiled for a reachable store with inputs only can be run again: when the
images that a run has made are cleared, a second run exports the same images. Each time the store is
left as it was, except that handles were used up; there have to be two for every step of the
plan. -/
theorem Store.run_again {content name : String} {store : Store} (reachable : store.Reachable)
    (onlyInputs : store.OnlyInputs) {compiled : CompiledModule}
    (compiles : (compile content name store.inputs).compiled = some compiled)
    (room : store.next.number.toNat + 2 * (resolvedPlan content name store.inputs).bindings.size ≤
      Handle.unset.number.toNat)
    {capacity : Wasm.Capacity} (accepts : capacity.Accepts compiled.wasm.data.toList) :
    ∃ (exported : ExportedImages) (first second : Store),
      store.run compiled capacity = (.ok exported, first) ∧
      first.clearGenerated = { store with next := first.next } ∧
      first.clearGenerated.run compiled capacity = (.ok exported, second) ∧
      second.clearGenerated = { store with next := second.next } := by
  obtain ⟨-, assembled⟩ := compiled_eq_some.mp compiles
  obtain ⟨assembles, rfl⟩ := Plan.assemble_eq_ok.mp assembled
  let r := (SourceText.ofString name content).script.resolve store.inputs
  have sound : r.Sound := Script.sound_resolve _ _ assembles.steps_lt
  have uses : r.UsesInputs store.inputs := Script.resolve_usesInputs _ _
  have invariant := reachable.invariant
  have ran := assembles.run_compiledModule accepts store
  obtain ⟨cleared, invariant'⟩ := invariant.clearGenerated_run onlyInputs ran
  have again := assembles.run_compiledModule accepts
    { store with next := (r.plan.evaluate host store).host.next }
  obtain ⟨cleared', -⟩ := invariant'.clearGenerated_run onlyInputs again
  refine ⟨_, _, _, ran, cleared, ?_, cleared'⟩
  have used := r.plan.next_evaluateUpTo_le store r.plan.bindings.size
  rw [Plan.evaluateUpTo_size] at used
  -- the first run uses up one handle for every step at most, and so leaves one for each
  change store.next.number.toNat + 2 * r.plan.bindings.size ≤ Handle.unset.number.toNat at room
  have enough : (r.plan.evaluate host store).host.next.number.toNat + r.plan.bindings.size ≤
    Handle.unset.number.toNat := by omega
  have twins := Resolution.twins_evaluateUpTo sound uses invariant invariant' (by omega) enough
  rw [Plan.evaluateUpTo_size, Plan.evaluateUpTo_size, ← Array.length_toList,
    List.take_length] at twins
  have collected := Resolution.collect_eq_of_twins sound uses twins
    (assembles.stored_finalMemory _) (assembles.stored_finalMemory _)
  rw [cleared, again]
  exact congrArg (fun exported => (Except.ok exported, _)) collected.symm

/-- A store with a black image under the name `a` and room for one other image. -/
def Store.tight : Store :=
  serveAll { config := { maxImages := 2 } } [.addInput "a" 1 1 ⟨#[0, 0, 0, 255]⟩]

/-- A script that makes two images. -/
def twoTextures : String :=
  "x = invert_color(a); y = invert_color(x); export x, y;"

/-- Run twice on the tight store, the script uses up a handle for its first texture each time, and
both times there is no room for its second one. -/
theorem Store.run_again_tight :
    ∃ (compiled : CompiledModule) (exported : ExportedImages) (first second : Store),
      (compile twoTextures defaultScriptName tight.inputs).compiled = some compiled ∧
      tight.run compiled = (.ok exported, first) ∧ first.next = ⟨2⟩ ∧
      first.clearGenerated.run compiled = (.ok exported, second) ∧
      second.clearGenerated = { tight with next := second.next } := by
  have evaluated : (compile twoTextures defaultScriptName tight.inputs).compiled.isSome = true := by
    decide +kernel
  obtain ⟨used, room⟩ :
      ((resolvedPlan twoTextures defaultScriptName tight.inputs).evaluate host tight).host.next =
        ⟨2⟩ ∧
      tight.next.number.toNat +
          2 * (resolvedPlan twoTextures defaultScriptName tight.inputs).bindings.size ≤
        Handle.unset.number.toNat := by
    decide +kernel
  have reachable : tight.Reachable := ⟨_, _, rfl⟩
  have onlyInputs : tight.OnlyInputs := by
    intro entry member
    rw [List.mem_singleton.mp member]
    exact ⟨_, List.mem_cons_self, rfl⟩
  obtain ⟨compiled, compiles⟩ := Option.isSome_iff_exists.mp evaluated
  obtain ⟨-, assembled⟩ := compiled_eq_some.mp compiles
  obtain ⟨assembles, rfl⟩ := Plan.assemble_eq_ok.mp assembled
  have accepts : ({} : Wasm.Capacity).Accepts (resolvedPlan twoTextures defaultScriptName
      tight.inputs).compiledModule.wasm.data.toList := by
    apply assembles.accepts_iff.mpr
    decide +kernel
  obtain ⟨exported, first, second, ran, -, again, cleared⟩ :=
    run_again reachable onlyInputs compiles room accepts
  have left : first =
      ((resolvedPlan twoTextures defaultScriptName tight.inputs).evaluate host tight).host :=
    congrArg Prod.snd (ran.symm.trans (assembles.run_compiledModule accepts tight))
  exact ⟨_, exported, first, second, compiles, ran, left ▸ used, again, cleared⟩

end TextureScript
