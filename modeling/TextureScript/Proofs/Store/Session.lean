import TextureScript.Proofs.Store.History
import TextureScript.Proofs.Wasm.Calls
import TextureScript.Store.Run

/-!
# Sessions survive their runs

A session hands its store to the module that it runs and takes it back afterwards. Whatever the
module does, it can only call operations, and an operation leaves the images of the store alone and
adds at most one. So the store only grows: what was in it before the run is in it after the run,
also when the module is refused or stops halfway.
-/

namespace TextureScript

namespace Store

/-! ## Stores that grow -/

/-- A store has grown into another one by new images alone, under handles that were not yet handed
out. -/
structure Grows (before after : Store) : Prop where
  /-- The limits are the same. -/
  config : after.config = before.config
  /-- The inputs are the same. -/
  inputs : after.inputs = before.inputs
  /-- Handles are counted up. -/
  next : before.next.number ≤ after.next.number
  /-- The old images are still there, behind the new ones. -/
  images : ∃ added, after.images = added ++ before.images ∧
    ∀ entry ∈ added, before.next.number ≤ entry.1.number

namespace Grows

theorem refl (store : Store) : store.Grows store :=
  ⟨rfl, rfl, UInt32.le_refl _, [], rfl, nofun⟩

theorem trans {first second third : Store} (earlier : first.Grows second)
    (later : second.Grows third) : first.Grows third := by
  obtain ⟨older, split, olderAbove⟩ := earlier.images
  obtain ⟨newer, split', newerAbove⟩ := later.images
  refine ⟨later.config.trans earlier.config, later.inputs.trans earlier.inputs,
    UInt32.le_trans earlier.next later.next, newer ++ older, ?_, ?_⟩
  · rw [split', split, List.append_assoc]
  · intro entry member
    rcases List.mem_append.mp member with new | old
    · exact UInt32.le_trans earlier.next (newerAbove entry new)
    · exact olderAbove entry old

/-- The image under a handle that was handed out before is not touched. -/
theorem image? {before after : Store} (grows : before.Grows after) {handle : Handle}
    (below : handle.number < before.next.number) : after.image? handle = before.image? handle := by
  obtain ⟨added, split, above⟩ := grows.images
  have absent : added.lookup handle = none := by
    rw [List.lookup_eq_none_iff]
    intro entry member
    rw [bne_iff_ne]
    rintro rfl
    exact UInt32.not_lt.mpr (above entry member) below
  simp only [Store.image?, split, List.lookup_append, absent, Option.none_or]

end Grows

/-- An operation that a module calls lets the store grow. -/
theorem Invariant.grows_dispatch {store : Store} (invariant : store.Invariant)
    (operation : Operation) (args : List Int32) :
    store.Grows (store.dispatch operation args).2 := by
  rcases dispatch_inserts store operation args with unchanged | ⟨handle, image, inserted⟩
  · rw [unchanged]
    exact .refl store
  · obtain ⟨-, -, -, free, -, same⟩ := insert_eq_ok.mp inserted
    have larger := (next_number_lt invariant free).1
    rw [same]
    refine ⟨rfl, rfl, UInt32.le_of_lt larger, [(store.next, image)], rfl, ?_⟩
    intro entry member
    rw [List.mem_singleton.mp member]
    exact UInt32.le_refl _

/-- Any calls of operations keep the invariant and let the store grow. -/
theorem Invariant.grows_performAll {store : Store} (invariant : store.Invariant)
    (calls : List (Operation × List Int32)) :
    (host.performAll store calls).Invariant ∧ store.Grows (host.performAll store calls) := by
  induction calls generalizing store with
  | nil => exact ⟨invariant, .refl store⟩
  | cons call calls ih =>
    obtain ⟨kept, grows⟩ := ih (invariant.serve (.dispatch call.1 call.2))
    exact ⟨kept, (invariant.grows_dispatch call.1 call.2).trans grows⟩

/-- Every run of a module keeps the invariant and lets the store grow, however it ends. -/
theorem Invariant.grows_run {store : Store} (invariant : store.Invariant)
    (compiled : CompiledModule) (capacity : Wasm.Capacity) :
    (store.run compiled capacity).2.Invariant ∧ store.Grows (store.run compiled capacity).2 := by
  obtain ⟨calls, left⟩ := Wasm.reaches_runBytes compiled.wasm.data.toList capacity host store
  have same : (store.run compiled capacity).2 = host.performAll store calls := by
    rw [← left]
    unfold Store.run
    split <;> simp [*]
  rw [same]
  exact invariant.grows_performAll calls

/-- What a session can count on after a run. -/
structure Keeps (before after : Store) : Prop where
  /-- The limits are the same. -/
  config : after.config = before.config
  /-- The inputs are the same. -/
  inputs : after.inputs = before.inputs
  /-- Every image is there and unchanged. -/
  images : ∀ handle image, before.image? handle = some image → after.image? handle = some image
  /-- The other images have handles that had not been handed out. -/
  added : ∀ handle image, after.image? handle = some image →
    before.image? handle = some image ∨ before.next.number ≤ handle.number
  /-- The store is in order. -/
  invariant : after.Invariant

theorem Grows.keeps {before after : Store} (grows : before.Grows after)
    (sound : before.Invariant) (invariant : after.Invariant) : before.Keeps after where
  config := grows.config
  inputs := grows.inputs
  images := fun handle image found =>
    (grows.image? (sound.below _ (mem_images_of_image? found))).trans found
  added := by
    intro handle image found
    by_cases below : handle.number < before.next.number
    · exact .inl ((grows.image? below).symm.trans found)
    · exact .inr (UInt32.not_lt.mp below)
  invariant := invariant

end Store

/-! ## Sessions -/

/-- A session keeps a store from one run to the next. -/
structure Session where
  /-- The store. -/
  store : Store := {}

namespace Session

/-- Something that is done to a session in place; what it has changed stays when it fails. -/
abbrev Action (α : Type) := ExceptT Wasm.RunFault (StateM Session) α

/-- The outcome of an action, and the session that it leaves. -/
def Action.on {α : Type} (action : Action α) (session : Session) :
    Except Wasm.RunFault α × Session :=
  (ExceptT.run action).run session

/-- Take the store out of the session, which has an empty one meanwhile. -/
def take : Action Store :=
  modifyGet fun session => (session.store, {})

/-- Put a store into the session. -/
def restore (store : Store) : Action Unit :=
  set { store : Session }

/-- What a module does after it was read and linked: it calls some operations, and then it ends with
a memory or stops. A module that cannot be set up stops before its first call. -/
structure Behaviour where
  /-- The operations that it calls, with their arguments. -/
  calls : List (Operation × List Int32)
  /-- How it ends. -/
  ending : Except Wasm.RunFault Wasm.Memory

/-- Run a compiled module that behaves in the given way. A module that cannot be read or linked is
refused while the session still has its store; any other works on the store that was taken out. -/
def run (compiled : CompiledModule) (prepared : Except Wasm.RunFault Behaviour) :
    Action ExportedImages := do
  let behaviour ← prepared
  let store ← take
  let left := Store.host.performAll store behaviour.calls
  restore left
  let memory ← behaviour.ending
  return left.collect compiled memory

/-- A module that is refused leaves the session as it was. -/
theorem on_run_error (session : Session) (compiled : CompiledModule) (fault : Wasm.RunFault) :
    (run compiled (.error fault)).on session = (.error fault, session) := rfl

/-- Whether a module ends or stops, its store is put back. -/
theorem on_run_ok (session : Session) (compiled : CompiledModule) (behaviour : Behaviour) :
    (run compiled (.ok behaviour)).on session =
      (behaviour.ending.map
          (Store.host.performAll session.store behaviour.calls |>.collect compiled),
        ⟨Store.host.performAll session.store behaviour.calls⟩) := by
  obtain ⟨calls, ending⟩ := behaviour
  cases ending with
  | error fault => rfl
  | ok memory => rfl

/-- Every run on the machine is the run of a module that behaves in some way. -/
theorem exists_behaviour (session : Session) (compiled : CompiledModule)
    (capacity : Wasm.Capacity) :
    ∃ prepared, (run compiled prepared).on session =
      ((session.store.run compiled capacity).1, ⟨(session.store.run compiled capacity).2⟩) := by
  obtain ⟨calls, left⟩ :=
    Wasm.reaches_runBytes compiled.wasm.data.toList capacity Store.host session.store
  rcases outcome : Wasm.runBytes compiled.wasm.data.toList capacity Store.host session.store with
    ⟨ending, after⟩
  rw [outcome] at left
  refine ⟨.ok ⟨calls, ending⟩, ?_⟩
  rw [on_run_ok, ← left, Store.run, outcome]
  cases ending with
  | error fault => rfl
  | ok memory => rfl

/-- A run does not damage the session, whatever the module does: whether it is refused, stops or
ends, and whatever operations it calls with whatever words, the session has its store afterwards,
with the same limits and inputs, all images that were in it, new images only under new handles, and
everything in order. The runs on the machine are among these. -/
theorem run_keeps_store {session : Session} (reachable : session.store.Reachable)
    (compiled : CompiledModule) :
    (∀ prepared, session.store.Keeps ((run compiled prepared).on session).2.store) ∧
      ∀ capacity, ∃ prepared, (run compiled prepared).on session =
        ((session.store.run compiled capacity).1, ⟨(session.store.run compiled capacity).2⟩) := by
  refine ⟨?_, exists_behaviour session compiled⟩
  have invariant := reachable.invariant
  intro prepared
  cases prepared with
  | error fault =>
    rw [on_run_error]
    exact (Store.Grows.refl _).keeps invariant invariant
  | ok behaviour =>
    obtain ⟨kept, grows⟩ := invariant.grows_performAll behaviour.calls
    rw [on_run_ok]
    exact grows.keeps invariant kept

/-- A session with a black image under the name `a`. -/
def withBlackInput : Session :=
  ⟨Store.serveAll {} [.addInput "a" 1 1 ⟨#[0, 0, 0, 255]⟩]⟩

/-- A module that inverts an image, asks for an image that is not there and then traps leaves the
black image in the session, and the white one beside it. -/
theorem run_keeps_store_trapped :
    let after := ((run ⟨.empty, #[], #[], ""⟩ (.ok ⟨[(.invertColor, [0]), (.darken, [-7, 3])],
      .error (.trapped .unreachable)⟩)).on withBlackInput).2.store
    after.image? ⟨0⟩ = some ⟨1, 1, ⟨#[0, 0, 0, 255]⟩⟩ ∧
      after.image? ⟨1⟩ = some ⟨1, 1, ⟨#[255, 255, 255, 255]⟩⟩ ∧ after.Invariant := by
  have reachable : withBlackInput.store.Reachable := ⟨_, _, rfl⟩
  have keeps := (run_keeps_store reachable ⟨.empty, #[], #[], ""⟩).1
    (.ok ⟨[(.invertColor, [0]), (.darken, [-7, 3])], .error (.trapped .unreachable)⟩)
  exact ⟨keeps.images ⟨0⟩ _ rfl, rfl, keeps.invariant⟩

end Session

end TextureScript
