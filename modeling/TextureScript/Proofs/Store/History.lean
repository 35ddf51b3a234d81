import TextureScript.Proofs.Store.Invariant

/-!
# Histories of a store

A request that is refused leaves the store as it is, and one that is granted keeps the invariant. So
the invariant holds after any requests, in any order.
-/

namespace TextureScript.Store

/-- What can be asked of a store that may change it. -/
inductive Request where
  /-- Add an input, or replace the image of the input that has the name. -/
  | addInput (name : String) (width height : UInt32) (pixels : ByteArray)
  /-- Keep an image. -/
  | insert (image : Image)
  /-- Perform an operation of the catalogue. -/
  | call (operation : Operation) (args : List Int32)
  /-- Perform an operation of the catalogue for a compiled module. -/
  | dispatch (operation : Operation) (args : List Int32)
  /-- Keep one channel of an image. -/
  | maskChannel (handle : Handle) (index : Nat)
  /-- Give an input another name. -/
  | renameInput (old new : String)
  /-- Remove an input and its image. -/
  | removeInput (name : String)
  /-- Remove every image that is not an input. -/
  | clearGenerated
  /-- Remove everything. -/
  | reset

/-- The store that is left by a request with the given outcome: a request that is refused changes
nothing. -/
def settle {α : Type} (store : Store) : Except StoreFault (α × Store) → Store
  | .ok (_, after) => after
  | .error _ => store

/-- The store after a request, granted or refused. -/
def serve (store : Store) : Request → Store
  | .addInput name width height pixels => store.settle (store.addInput name width height pixels)
  | .insert image => store.settle (store.insert image)
  | .call operation args => store.settle (store.call operation args)
  | .dispatch operation args => (store.dispatch operation args).2
  | .maskChannel handle index => store.settle (store.maskChannel handle index)
  | .renameInput old new => store.settle ((store.renameInput old new).map ((), ·))
  | .removeInput name => (store.removeInput name).2
  | .clearGenerated => store.clearGenerated
  | .reset => store.reset

/-- The store after some requests, one after the other. -/
def serveAll (store : Store) (requests : List Request) : Store :=
  requests.foldl serve store

/-- A store is reachable when some requests lead to it from an empty store. -/
def Reachable (store : Store) : Prop :=
  ∃ config requests, store = serveAll { config } requests

/-- A request that keeps the invariant when it is granted keeps it in any case. -/
theorem Invariant.settle {α : Type} {store : Store} {outcome : Except StoreFault (α × Store)}
    (invariant : store.Invariant)
    (granted : ∀ value after, outcome = .ok (value, after) → after.Invariant) :
    (store.settle outcome).Invariant := by
  cases outcome with
  | error fault => exact invariant
  | ok result => exact granted result.1 result.2 rfl

/-- One request keeps the invariant. -/
theorem Invariant.serve {store : Store} (invariant : store.Invariant) (request : Request) :
    (store.serve request).Invariant := by
  cases request with
  | addInput name width height pixels =>
    exact invariant.settle fun _ _ added => invariant.addInput added
  | insert image => exact invariant.settle fun _ _ inserted => invariant.insert inserted
  | call operation args =>
    apply invariant.settle
    intro handle after called
    obtain ⟨image, inserted⟩ := call_inserts called
    exact invariant.insert inserted
  | dispatch operation args =>
    rcases dispatch_inserts store operation args with unchanged | ⟨handle, image, inserted⟩
    · change (store.dispatch operation args).2.Invariant
      rw [unchanged]
      exact invariant
    · exact invariant.insert inserted
  | maskChannel handle index =>
    apply invariant.settle
    intro made after derived
    obtain ⟨image, inserted⟩ := derive_inserts derived
    exact invariant.insert inserted
  | renameInput old new =>
    apply invariant.settle
    intro _ after renamed
    cases outcome : store.renameInput old new with
    | error fault => simp [outcome, Except.map] at renamed
    | ok result =>
      simp only [outcome, Except.map, Except.ok.injEq, Prod.mk.injEq, true_and] at renamed
      exact renamed ▸ invariant.renameInput outcome
  | removeInput name => exact invariant.removeInput name
  | clearGenerated => exact invariant.clearGenerated
  | reset => exact invariant_empty store.config

/-- Any number of requests keep the invariant. -/
theorem Invariant.serveAll {store : Store} (invariant : store.Invariant)
    (requests : List Request) : (store.serveAll requests).Invariant := by
  induction requests generalizing store with
  | nil => exact invariant
  | cons request requests ih => exact ih (invariant.serve request)

/-- The invariant holds of every reachable store. -/
theorem Reachable.invariant {store : Store} (reachable : store.Reachable) : store.Invariant := by
  obtain ⟨config, requests, rfl⟩ := reachable
  exact (invariant_empty config).serveAll requests

/-- A request that keeps the limits when it is granted keeps them in any case. -/
theorem settle_config {α : Type} {store : Store} {outcome : Except StoreFault (α × Store)}
    (granted : ∀ value after, outcome = .ok (value, after) → after.config = store.config) :
    (store.settle outcome).config = store.config := by
  cases outcome with
  | error fault => rfl
  | ok result => exact granted result.1 result.2 rfl

/-- Keeping an image does not change the limits. -/
theorem insert_config {store after : Store} {image : Image} {handle : Handle}
    (inserted : store.insert image = .ok (handle, after)) : after.config = store.config := by
  obtain ⟨-, -, -, -, -, rfl⟩ := insert_eq_ok.mp inserted
  rfl

/-- No request changes the limits. -/
theorem serve_config (store : Store) (request : Request) :
    (store.serve request).config = store.config := by
  cases request with
  | addInput name width height pixels =>
    apply settle_config
    intro handle after added
    obtain ⟨image, -, ⟨-, replaced⟩ | ⟨-, kept, inserted, rfl⟩⟩ := addInput_cases added
    · obtain ⟨-, rfl⟩ := replaceImage_eq_ok.mp replaced
      rfl
    · exact (insert_config inserted : kept.config = store.config)
  | insert image => exact settle_config fun _ _ inserted => insert_config inserted
  | call operation args =>
    apply settle_config
    intro handle after called
    obtain ⟨image, inserted⟩ := call_inserts called
    exact insert_config inserted
  | dispatch operation args =>
    change (store.dispatch operation args).2.config = store.config
    rcases dispatch_inserts store operation args with unchanged | ⟨handle, image, inserted⟩
    · rw [unchanged]
    · exact insert_config inserted
  | maskChannel handle index =>
    apply settle_config
    intro made after derived
    obtain ⟨image, inserted⟩ := derive_inserts derived
    exact insert_config inserted
  | renameInput old new =>
    apply settle_config
    intro _ after renamed
    unfold renameInput at renamed
    split at renamed
    · cases renamed
      rfl
    split at renamed
    · cases renamed
    split at renamed
    · cases renamed
      rfl
    · cases renamed
  | removeInput name =>
    simp only [serve, removeInput]
    split
    · rfl
    · split <;> rfl
  | clearGenerated => rfl
  | reset => rfl

/-- The limits of a store are those that it was made with. -/
theorem serveAll_config (store : Store) (requests : List Request) :
    (store.serveAll requests).config = store.config := by
  induction requests generalizing store with
  | nil => rfl
  | cons request requests ih => exact (ih (store.serve request)).trans (serve_config store request)

/-- After any requests to an empty store, granted or refused, the limits that it was made with hold,
its bytes are counted, its images are well formed, and its handles and inputs are in order. So the
bytes of an image that is replaced or removed are always part of the count, and taking them off it
never goes below zero. -/
theorem invariant_after_requests (config : StoreConfig) (requests : List Request) :
    (serveAll { config } requests).config = config ∧
      (serveAll { config } requests).Invariant ∧
      ∀ handle image, (serveAll { config } requests).image? handle = some image →
        image.pixels.size ≤ (serveAll { config } requests).totalBytes := by
  have invariant := (invariant_empty config).serveAll requests
  refine ⟨serveAll_config _ requests, invariant, ?_⟩
  intro handle image found
  rw [invariant.bytes]
  exact size_le_bytesOf (mem_images_of_image? found)

end TextureScript.Store
