import TextureScript.Proofs.Store.Dispatch
import TextureScript.Proofs.Store.History

/-!
# Handles are stable

A store counts its handles up and takes none of them back, so a new image gets a handle above all
that were handed out since the store was last reset. What a request does is said once, together with
the handle that it answers with. It follows that the image under a handle stays what it is until the
input under that handle is replaced, and that a handle whose image was dropped names no image any
more, whatever is asked for later.
-/

namespace TextureScript.Store

/-! ## What is handed out -/

/-- The handle that a request answers with, if it is granted and gives one. -/
def answer? (store : Store) : Request → Option Handle
  | .addInput name width height pixels =>
    (store.addInput name width height pixels).toOption.map (·.1)
  | .insert image => (store.insert image).toOption.map (·.1)
  | .call operation args => (store.call operation args).toOption.map (·.1)
  | .dispatch operation args => Handle.ofWire? (store.dispatch operation args).1
  | .maskChannel handle index => (store.maskChannel handle index).toOption.map (·.1)
  | .renameInput _ _ | .removeInput _ | .clearGenerated | .reset => none

/-- A request asks for a new handle, unless it adds an input under a name that is taken. -/
def MakesNew (store : Store) : Request → Prop
  | .addInput name _ _ _ => store.inputHandle? name = none
  | _ => True

/-- A store with the handles that it has handed out since it was last reset. -/
structure Ledger where
  /-- The store. -/
  store : Store
  /-- The handles, the latest first. -/
  issued : List Handle := []

namespace Ledger

/-- Serve a request, and write down the handle that is handed out. -/
def serve (ledger : Ledger) (request : Request) : Ledger where
  store := ledger.store.serve request
  issued :=
    match request with
    | .reset => []
    | request => (ledger.store.answer? request).toList ++ ledger.issued

/-- The ledger of some requests to an empty store. -/
def ofRequests (config : StoreConfig) (requests : List Request) : Ledger :=
  requests.foldl serve { store := { config } }

theorem store_ofRequests (config : StoreConfig) (requests : List Request) :
    (ofRequests config requests).store = serveAll { config } requests := by
  have along : ∀ ledger : Ledger,
      (requests.foldl serve ledger).store = ledger.store.serveAll requests := by
    induction requests with
    | nil => exact fun _ => rfl
    | cons request requests ih => exact fun ledger => ih (ledger.serve request)
  exact along _

end Ledger

/-! ## What a request does -/

/-- What a request can do, with the handle that it answers with and the store that it leaves. -/
inductive Served (store : Store) : Request → Option Handle → Store → Prop where
  /-- Nothing changes. -/
  | unchanged {request : Request} : Served store request none store
  /-- A new image is kept, and perhaps named. -/
  | kept {request : Request} {image : Image} {inputs : List InputImage}
      (new : store.MakesNew request) (free : store.next ≠ Handle.unset) :
      Served store request (some store.next) { store.keepNew image with inputs }
  /-- The image of an input is replaced. -/
  | replaced {name : String} {width height : UInt32} {pixels : ByteArray} {handle : Handle}
      {totalBytes : Nat} (known : store.inputHandle? name = some handle) :
      Served store (.addInput name width height pixels) (some handle)
        { store with
          images := store.images.map fun entry =>
            if entry.1 = handle then (handle, ⟨width, height, pixels⟩) else entry
          totalBytes }
  /-- An input gets another name. -/
  | renamed {old new : String} {inputs : List InputImage} :
      Served store (.renameInput old new) none { store with inputs }
  /-- An input is removed together with its image. -/
  | removed {name : String} {handle : Handle} {inputs : List InputImage} {totalBytes : Nat}
      (known : store.inputHandle? name = some handle) :
      Served store (.removeInput name) none
        { store with images := store.images.filter (·.1 ≠ handle), inputs, totalBytes }
  /-- All images but the inputs are removed. -/
  | cleared : Served store .clearGenerated none store.clearGenerated
  /-- Everything is removed. -/
  | reset : Served store .reset none store.reset

/-- A request that is refused or keeps one new image, and answers with the handle of that image. -/
theorem served_of_inserts {store : Store} {request : Request}
    {outcome : Except StoreFault (Handle × Store)} (new : store.MakesNew request)
    (inserts : ∀ handle after, outcome = .ok (handle, after) →
      ∃ image, store.insert image = .ok (handle, after)) :
    store.Served request (outcome.toOption.map (·.1)) (store.settle outcome) := by
  cases outcome with
  | error fault => exact .unchanged
  | ok result =>
    obtain ⟨image, inserted⟩ := inserts result.1 result.2 rfl
    obtain ⟨-, -, -, free, handle, after⟩ := insert_eq_ok.mp inserted
    simp only [Except.toOption, Option.map_some, settle, handle, after]
    exact .kept new free

theorem served_addInput (store : Store) (name : String) (width height : UInt32)
    (pixels : ByteArray) :
    store.Served (.addInput name width height pixels)
      (store.answer? (.addInput name width height pixels))
      (store.serve (.addInput name width height pixels)) := by
  simp only [answer?, serve]
  cases outcome : store.addInput name width height pixels with
  | error fault => exact .unchanged
  | ok result =>
    simp only [addInput, except_bind_ok, Image.ofBytes_eq_ok] at outcome
    obtain ⟨sides, -, image, ⟨rfl, -⟩, added⟩ := outcome
    split at added
    · rename_i handle known
      simp only [except_bind_ok, replaceImage_eq_ok, Except.ok.injEq] at added
      obtain ⟨after, ⟨-, rfl⟩, rfl⟩ := added
      exact .replaced known
    · rename_i unknown
      simp only [except_bind_ok, Except.ok.injEq, Prod.exists] at added
      obtain ⟨handle, after, inserted, rfl⟩ := added
      obtain ⟨-, -, -, free, rfl, rfl⟩ := insert_eq_ok.mp inserted
      exact .kept unknown free

theorem Invariant.served_dispatch {store : Store} (invariant : store.Invariant)
    (operation : Operation) (args : List Int32) :
    store.Served (.dispatch operation args) (store.answer? (.dispatch operation args))
      (store.serve (.dispatch operation args)) := by
  simp only [answer?, Store.serve]
  cases called : store.call operation args with
  | error fault =>
    simp only [dispatch_of_call_error called, Handle.ofWire?_unset]
    exact .unchanged
  | ok result =>
    obtain ⟨image, inserted⟩ := call_inserts called
    obtain ⟨-, -, -, free, handle, after⟩ := insert_eq_ok.mp inserted
    have below : store.next.number < Handle.unset.number := by
      obtain ⟨larger, possible⟩ := next_number_lt invariant free
      exact UInt32.lt_of_lt_of_le larger possible
    simp only [dispatch_of_call_ok called, handle, after, Handle.ofWire?_toWire below]
    exact .kept trivial free

theorem served_renameInput (store : Store) (old new : String) :
    store.Served (.renameInput old new) none (store.serve (.renameInput old new)) := by
  simp only [serve, Store.renameInput]
  by_cases same : old = new
  · rw [if_pos same]
    exact .unchanged
  · by_cases taken : store.containsInput new
    · rw [if_neg same, if_pos taken]
      exact .unchanged
    · by_cases known : store.containsInput old
      · rw [if_neg same, if_neg taken, if_pos known]
        exact .renamed
      · rw [if_neg same, if_neg taken, if_neg known]
        exact .unchanged

theorem Invariant.served_removeInput {store : Store} (invariant : store.Invariant)
    (name : String) :
    store.Served (.removeInput name) none (store.serve (.removeInput name)) := by
  simp only [Store.serve, Store.removeInput]
  cases known : store.inputHandle? name with
  | none => exact .unchanged
  | some handle =>
    have present := invariant.inputsKept _ (mem_inputs_of_inputHandle? known)
    obtain ⟨image, found⟩ := Option.isSome_iff_exists.mp present
    simp only [image?] at found ⊢
    simp only [found]
    exact .removed known

/-- Every request does one of these things. -/
theorem Invariant.served {store : Store} (invariant : store.Invariant) (request : Request) :
    store.Served request (store.answer? request) (store.serve request) := by
  cases request with
  | addInput name width height pixels => exact served_addInput store name width height pixels
  | insert image => exact served_of_inserts trivial fun _ _ inserted => ⟨image, inserted⟩
  | call operation args => exact served_of_inserts trivial fun _ _ called => call_inserts called
  | dispatch operation args => exact invariant.served_dispatch operation args
  | maskChannel handle index =>
    exact served_of_inserts trivial fun _ _ derived => derive_inserts derived
  | renameInput old new => exact served_renameInput store old new
  | removeInput name => exact invariant.served_removeInput name
  | clearGenerated => exact .cleared
  | reset => exact .reset

/-! ## New handles are the largest -/

/-- Every handle that was handed out is below the next one. -/
def Ledger.Below (ledger : Ledger) : Prop :=
  ∀ handle ∈ ledger.issued, handle.number < ledger.store.next.number

/-- A handle that is handed out was below the next handle before the request, or was that handle;
afterwards it is below the next one, and so is every handle that was before. -/
theorem Served.issues {store after : Store} {request : Request} {answer : Option Handle}
    (invariant : store.Invariant) (served : store.Served request answer after)
    (noReset : request ≠ .reset) :
    store.next.number ≤ after.next.number ∧
      ∀ handle ∈ answer, handle.number < after.next.number := by
  cases served with
  | unchanged | renamed | removed | cleared => exact ⟨UInt32.le_refl _, nofun⟩
  | kept new free =>
    have larger := (next_number_lt invariant free).1
    refine ⟨UInt32.le_of_lt larger, ?_⟩
    rintro handle ⟨⟩
    exact larger
  | replaced known =>
    refine ⟨UInt32.le_refl _, ?_⟩
    rintro handle ⟨⟩
    have present := invariant.inputsKept _ (mem_inputs_of_inputHandle? known)
    obtain ⟨image, found⟩ := Option.isSome_iff_exists.mp present
    exact invariant.below _ (mem_images_of_image? found)
  | reset => exact absurd rfl noReset

theorem Ledger.Below.serve {ledger : Ledger} (below : ledger.Below)
    (invariant : ledger.store.Invariant) (request : Request) : (ledger.serve request).Below := by
  by_cases isReset : request = .reset
  · subst isReset
    exact nofun
  · obtain ⟨grows, answered⟩ := (invariant.served request).issues invariant isReset
    have written : (ledger.serve request).issued =
        (ledger.store.answer? request).toList ++ ledger.issued := by
      cases request <;> first | rfl | exact absurd rfl isReset
    intro handle member
    rw [written, List.mem_append, Option.mem_toList] at member
    rcases member with answer | earlier
    · exact answered handle answer
    · exact UInt32.lt_of_lt_of_le (below handle earlier) grows

/-- After any requests to an empty store, every handle that was handed out since the last reset is
below the next one. -/
theorem Ledger.below_ofRequests (config : StoreConfig) (requests : List Request) :
    (ofRequests config requests).Below := by
  have along : ∀ ledger : Ledger, ledger.store.Invariant → ledger.Below →
      (requests.foldl Ledger.serve ledger).Below := by
    induction requests with
    | nil => exact fun _ _ below => below
    | cons request requests ih =>
      intro ledger invariant below
      exact ih _ (invariant.serve request) (below.serve invariant request)
  exact along _ (invariant_empty config) nofun

/-- A request that asks for a new handle answers with the next one. -/
theorem Served.answer_eq_next {store after : Store} {request : Request} {handle : Handle}
    (served : store.Served request (some handle) after) (new : store.MakesNew request) :
    handle = store.next := by
  cases served with
  | kept => rfl
  | replaced known =>
    have unknown : store.inputHandle? _ = none := new
    rw [known] at unknown
    cases unknown

/-! ## The image under a handle -/

/-- Leaving out the images under some handles leaves the others where they are. -/
theorem lookup_filter (keep : Handle → Bool) (images : List (Handle × Image)) (handle : Handle) :
    (images.filter fun entry => keep entry.1).lookup handle =
      if keep handle then images.lookup handle else none := by
  induction images with
  | nil => simp
  | cons entry images ih =>
    obtain ⟨first, image⟩ := entry
    by_cases same : handle = first
    · subst same
      by_cases kept : keep handle
      · simp [kept]
      · simp [kept, ih]
    · have different : (handle == first) = false := by simpa using same
      by_cases kept : keep first
      · simp [kept, List.lookup_cons, different, ih]
      · simp [kept, List.lookup_cons, different, ih]

/-- Replacing the image under a handle changes the image under that handle only, and adds none. -/
theorem lookup_replace (images : List (Handle × Image)) (replaced : Handle) (image : Image)
    (handle : Handle) :
    (images.map fun entry => if entry.1 = replaced then (replaced, image) else entry).lookup
        handle =
      if handle = replaced then (images.lookup handle).map fun _ => image
      else images.lookup handle := by
  induction images with
  | nil => simp
  | cons entry images ih =>
    obtain ⟨first, old⟩ := entry
    by_cases same : handle = first
    · subst same
      by_cases here : handle = replaced
      · subst here
        simp
      · simp [here]
    · have different : (handle == first) = false := by simpa using same
      by_cases here : first = replaced
      · subst here
        simp [List.lookup_cons, different, ih]
      · simp [here, List.lookup_cons, different, ih]

/-- A request replaces the image under a handle: it adds an input under the name of the input that
has the handle, and is granted. -/
def Replaces (store : Store) (handle : Handle) : Request → Prop
  | .addInput name width height pixels =>
    store.inputHandle? name = some handle ∧
      store.answer? (.addInput name width height pixels) = some handle
  | _ => False

/-- A request drops a handle: it removes the input that has the handle, or every image that is no
input when the handle is not that of an input. -/
def Drops (store : Store) (handle : Handle) : Request → Prop
  | .removeInput name => store.inputHandle? name = some handle
  | .clearGenerated => handle ∉ store.inputs.map (·.handle)
  | _ => False

/-- Among some requests to a store, one of them finds the store in a state where an event
happens. -/
def Happens (store : Store) (requests : List Request) (event : Store → Request → Prop) : Prop :=
  ∃ earlier request later, requests = earlier ++ request :: later ∧
    event (store.serveAll earlier) request

theorem Happens.cons {store : Store} {request : Request} {requests : List Request}
    {event : Store → Request → Prop} (happens : (store.serve request).Happens requests event) :
    store.Happens (request :: requests) event := by
  obtain ⟨earlier, found, later, rfl, occurs⟩ := happens
  exact ⟨request :: earlier, found, later, rfl, occurs⟩

theorem lookup_keepNew {store : Store} {handle : Handle} (image : Image)
    (below : handle.number < store.next.number) :
    (store.keepNew image).images.lookup handle = store.images.lookup handle := by
  have older : (handle == store.next) = false := by
    apply Bool.eq_false_iff.mpr
    intro same
    rw [eq_of_beq same] at below
    exact UInt32.lt_irrefl _ below
  simp only [keepNew, List.lookup_cons, older]

/-- Clearing a store leaves the images of the inputs where they are. -/
theorem lookup_clearGenerated (store : Store) (handle : Handle) :
    store.clearGenerated.images.lookup handle =
      if handle ∈ store.inputs.map (·.handle) then store.images.lookup handle else none := by
  have named : store.inputs.any (·.handle == handle) = true ↔
      handle ∈ store.inputs.map (·.handle) := by
    simp only [List.any_eq_true, beq_iff_eq, List.mem_map]
  rw [clearGenerated, lookup_filter fun other => store.inputs.any (·.handle == other)]
  simp only [named]

/-- A request leaves what stands under a handle that was handed out as it is, puts another image in
the place of the one there, or drops the handle. -/
theorem Invariant.image?_serve {store : Store} (invariant : store.Invariant) {request : Request}
    (noReset : request ≠ .reset) {handle : Handle} (below : handle.number < store.next.number) :
    (store.serve request).image? handle = store.image? handle ∨
      (store.Replaces handle request ∧ ∃ image,
        (store.serve request).image? handle = (store.image? handle).map fun _ => image) ∨
      (store.Drops handle request ∧ (store.serve request).image? handle = none) := by
  have served := invariant.served request
  generalize answered : store.answer? request = answer at served
  generalize store.serve request = after at served ⊢
  simp only [image?]
  cases served with
  | unchanged | renamed => exact .inl rfl
  | kept new free => exact .inl (lookup_keepNew _ below)
  | @replaced _ _ _ _ changed _ known =>
    rw [lookup_replace]
    by_cases same : handle = changed
    · subst same
      exact .inr (.inl ⟨⟨known, answered⟩, _, if_pos rfl⟩)
    · exact .inl (if_neg same)
  | @removed _ gone _ _ known =>
    rw [lookup_filter fun other => decide (other ≠ gone)]
    by_cases same : handle = gone
    · subst same
      exact .inr (.inr ⟨known, by simp⟩)
    · exact .inl (if_pos (by simpa using same))
  | cleared =>
    rw [lookup_clearGenerated]
    by_cases input : handle ∈ store.inputs.map (·.handle)
    · exact .inl (if_pos input)
    · exact .inr (.inr ⟨input, if_neg input⟩)
  | reset => exact absurd rfl noReset

/-- A handle that is dropped has no image afterwards. -/
theorem Invariant.image?_of_drops {store : Store} (invariant : store.Invariant)
    {request : Request} {handle : Handle} (drops : store.Drops handle request) :
    (store.serve request).image? handle = none := by
  cases request with
  | removeInput name =>
    have known : store.inputHandle? name = some handle := drops
    have present := invariant.inputsKept _ (mem_inputs_of_inputHandle? known)
    obtain ⟨image, found⟩ := Option.isSome_iff_exists.mp present
    simp only [image?] at found
    simp only [Store.serve, Store.removeInput, known, image?, found]
    rw [lookup_filter fun other => decide (other ≠ handle)]
    simp
  | clearGenerated => exact (lookup_clearGenerated store handle).trans (if_neg drops)
  | _ => cases drops

/-- A handle that was handed out stays below the next one. -/
theorem Invariant.below_serve {store : Store} (invariant : store.Invariant) {request : Request}
    (noReset : request ≠ .reset) {handle : Handle} (below : handle.number < store.next.number) :
    handle.number < (store.serve request).next.number :=
  UInt32.lt_of_lt_of_le below ((invariant.served request).issues invariant noReset).1

/-- A handle that was handed out and names no image never gets one, as long as the store is not
reset. -/
theorem Invariant.image?_serveAll_none {store : Store} (invariant : store.Invariant)
    {requests : List Request} (noReset : Request.reset ∉ requests) {handle : Handle}
    (below : handle.number < store.next.number) (missing : store.image? handle = none) :
    (store.serveAll requests).image? handle = none := by
  induction requests generalizing store with
  | nil => exact missing
  | cons request requests ih =>
    rw [List.mem_cons, not_or] at noReset
    have still : (store.serve request).image? handle = none := by
      rcases invariant.image?_serve (Ne.symm noReset.1) below with
        same | ⟨-, image, mapped⟩ | ⟨-, gone⟩
      · rw [same, missing]
      · rw [mapped, missing, Option.map_none]
      · exact gone
    exact ih (invariant.serve request) noReset.2 (invariant.below_serve (Ne.symm noReset.1) below)
      still

/-- An image that is still found under its handle after some requests is the same, unless one of
them replaced it. -/
theorem Invariant.image?_serveAll {store : Store} (invariant : store.Invariant)
    {requests : List Request} (noReset : Request.reset ∉ requests) {handle : Handle}
    {image other : Image} (found : store.image? handle = some image)
    (later : (store.serveAll requests).image? handle = some other) :
    other = image ∨ store.Happens requests (·.Replaces handle) := by
  induction requests generalizing store with
  | nil => exact .inl (Option.some.inj (later.symm.trans found))
  | cons request requests ih =>
    rw [List.mem_cons, not_or] at noReset
    have kept := invariant.serve request
    have below := invariant.below _ (mem_images_of_image? found)
    rcases invariant.image?_serve (Ne.symm noReset.1) below with
      same | ⟨replaces, -⟩ | ⟨-, missing⟩
    · exact (ih kept noReset.2 (same.trans found) later).imp_right .cons
    · exact .inr ⟨[], request, requests, rfl, replaces⟩
    · have gone := kept.image?_serveAll_none noReset.2
        (invariant.below_serve (Ne.symm noReset.1) below) missing
      cases gone.symm.trans later

theorem get_eq_error {store : Store} {handle : Handle} (missing : store.image? handle = none) :
    store.get handle = .error (.unknownHandle handle) := by
  simp only [get, missing]

/-- Handles are stable. After any requests to an empty store, a request for a new handle is answered
with one that is larger than all that were handed out since the last reset. Until the next reset,
an image that is found under its handle is the one that was there before, unless the input that had
the handle was replaced; a handle loses its image exactly when it is dropped, and it is unknown from
then on. -/
theorem handles_stable (config : StoreConfig) (past : List Request) :
    let ledger := Ledger.ofRequests config past
    ledger.store = serveAll { config } past ∧
    (∀ request handle, ledger.store.MakesNew request →
      ledger.store.answer? request = some handle →
        ∀ earlier ∈ ledger.issued, earlier.number < handle.number) ∧
    ∀ handle image, ledger.store.image? handle = some image →
      ∀ later, Request.reset ∉ later →
        (∀ other, (ledger.store.serveAll later).image? handle = some other →
          other = image ∨ ledger.store.Happens later (·.Replaces handle)) ∧
        ∀ request, request ≠ .reset →
          ((ledger.store.serve request).image? handle = none ↔
            ledger.store.Drops handle request) ∧
          (ledger.store.Drops handle request →
            ((ledger.store.serve request).serveAll later).get handle =
              .error (.unknownHandle handle)) := by
  intro ledger
  have kept : ledger.store.Invariant := by
    rw [Ledger.store_ofRequests]
    exact (invariant_empty config).serveAll past
  refine ⟨Ledger.store_ofRequests config past, ?_, ?_⟩
  · intro request handle new answered earlier member
    have served := kept.served request
    rw [answered] at served
    rw [served.answer_eq_next new]
    exact Ledger.below_ofRequests config past earlier member
  · intro handle image found later noReset
    refine ⟨fun other => kept.image?_serveAll noReset found, ?_⟩
    intro request notReset
    have below := kept.below _ (mem_images_of_image? found)
    refine ⟨⟨?_, kept.image?_of_drops⟩, ?_⟩
    · intro gone
      rcases kept.image?_serve notReset below with same | ⟨-, image, mapped⟩ | ⟨drops, -⟩
      · cases found.symm.trans (same.symm.trans gone)
      · rw [mapped, found] at gone
        cases gone
      · exact drops
    · intro drops
      exact get_eq_error ((kept.serve request).image?_serveAll_none noReset
        (kept.below_serve notReset below) (kept.image?_of_drops drops))

/-- An input that is removed and added again gets a new handle, and its old one stays unknown. -/
theorem handles_stable_addedAgain :
    let store := serveAll {} [.addInput "a" 1 1 ⟨#[0, 0, 0, 255]⟩, .removeInput "a",
      .addInput "a" 1 1 ⟨#[0, 0, 0, 255]⟩]
    store.inputHandle? "a" = some ⟨1⟩ ∧ store.get ⟨0⟩ = .error (.unknownHandle ⟨0⟩) := by
  obtain ⟨-, -, stable⟩ := handles_stable {} [.addInput "a" 1 1 ⟨#[0, 0, 0, 255]⟩]
  have found : (Ledger.ofRequests {} [.addInput "a" 1 1 ⟨#[0, 0, 0, 255]⟩]).store.image? ⟨0⟩ =
    some ⟨1, 1, ⟨#[0, 0, 0, 255]⟩⟩ := rfl
  obtain ⟨-, dropped⟩ := stable ⟨0⟩ _ found [.addInput "a" 1 1 ⟨#[0, 0, 0, 255]⟩] (by simp)
  exact ⟨rfl, (dropped (.removeInput "a") nofun).2 rfl⟩

end TextureScript.Store
