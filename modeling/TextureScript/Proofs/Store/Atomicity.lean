import TextureScript.Proofs.Store.Dispatch
import TextureScript.Proofs.Store.History

/-!
# Requests are all or nothing

A store that is updated in place is read and written field by field, and whatever a request has
written when it fails stays written. Carried out in this way, every request still comes to the
outcome that it has as a function of the store, and a request that fails leaves the store as it was:
all of its checks come before its first write. An operation that succeeds keeps one new image under
the next handle and touches nothing else, and the word that a compiled module gets for it tells
whether it succeeded.
-/

namespace TextureScript

/-- A request that updates a store in place; what it writes stays when it fails. -/
abbrev Update (α : Type) := ExceptT StoreFault (StateM Store) α

namespace Update

/-- The outcome of an update, and the store that it leaves. -/
def on {α : Type} (update : Update α) (store : Store) : Except StoreFault α × Store :=
  (ExceptT.run update).run store

/-! ## Requests in place -/

/-- Keep an image under the next handle. -/
def insert (image : Image) : Update Handle := do
  let store ← get
  let _ ← store.config.dimensions image.width.toNat image.height.toNat
  let _ ← Image.ofBytes image.width image.height image.pixels
  store.checkBytes image.pixels.size 0
  if store.config.maxImages ≤ store.images.length then
    throw (.full store.config.maxImages)
  let handle := store.next
  if handle.isUnset then
    throw (.full store.config.maxImages)
  modify fun store => { store with next := ⟨store.next.number + 1⟩ }
  modify fun store => { store with totalBytes := store.totalBytes + image.pixels.size }
  modify fun store => { store with images := (handle, image) :: store.images }
  return handle

/-- Add an input, or replace the image of the input that has the name. -/
def addInput (name : String) (width height : UInt32) (pixels : ByteArray) : Update Handle := do
  let store ← get
  let _ ← store.config.dimensions width.toNat height.toNat
  let image ← Image.ofBytes width height pixels
  match store.inputHandle? name with
  | some handle =>
    let freed := ((store.image? handle).map (·.pixels.size)).getD 0
    store.checkBytes image.pixels.size freed
    modify fun store => { store with totalBytes := store.totalBytes - freed + image.pixels.size }
    modify fun store =>
      { store with
        images := store.images.map fun entry =>
          if entry.1 = handle then (handle, image) else entry }
    return handle
  | none =>
    let handle ← insert image
    modify fun store => { store with inputs := store.inputs ++ [⟨name, handle⟩] }
    return handle

/-- Give an input another name. -/
def renameInput (old new : String) : Update Unit := do
  if old = new then
    return
  let store ← get
  if store.containsInput new then
    throw (.nameTaken new)
  if !store.containsInput old then
    throw (.unknownInput old)
  modify fun store =>
    { store with
      inputs := store.inputs.map fun input =>
        if input.name = old then { input with name := new } else input }

/-- Keep an image made of another one and of the same size. -/
def derive (handle : Handle) (make : Image → Except StoreFault Image) : Update Handle := do
  let store ← get
  let source ← store.get handle
  store.ensureRoom source.width source.height
  insert (← make source)

/-- Keep an image with every colour replaced. -/
def mapColors (handle : Handle) (f : Color → Color) : Update Handle :=
  derive handle fun image => .ok (image.map f)

/-- Keep an image at another size. -/
def resize (handle : Handle) (width height : Int32) : Update Handle := do
  let store ← get
  let (width, height) ← store.config.dimensions width.toInt height.toInt
  store.ensureRoom width height
  let source ← store.get handle
  insert (source.resize width height)

/-- Keep an image of one colour. -/
def blank (red green blue alpha width height : Int32) : Update Handle := do
  let store ← get
  let (width, height) ← store.config.dimensions width.toInt height.toInt
  store.ensureRoom width height
  let color : Color :=
    ⟨clampByte red.toInt, clampByte green.toInt, clampByte blue.toInt, clampByte alpha.toInt⟩
  insert (.filled width height color)

open Store (handleArgument hasUnsetImage)

/-- Perform an operation of the catalogue with words as arguments. -/
def call (operation : Operation) (args : List Int32) : Update Handle :=
  match operation, args with
  | .blankImage, [red, green, blue, alpha, width, height] =>
    blank red green blue alpha width height
  | .resize, [image, width, height] => do
    resize (← handleArgument image) width height
  | .darken, [image, value] => do
    mapColors (← handleArgument image) (Color.darken value)
  | .grayscale, [image] => do
    mapColors (← handleArgument image) Color.grayscale
  | .invertColor, [image] => do
    mapColors (← handleArgument image) Color.invert
  | .flipHorizontal, [image] => do
    derive (← handleArgument image) fun image => .ok image.flipHorizontal
  | .flipVertical, [image] => do
    derive (← handleArgument image) fun image => .ok image.flipVertical
  | .maskRed, [image] => do
    mapColors (← handleArgument image) (Color.mask .red)
  | .maskGreen, [image] => do
    mapColors (← handleArgument image) (Color.mask .green)
  | .maskBlue, [image] => do
    mapColors (← handleArgument image) (Color.mask .blue)
  | operation, args => throw (.argumentCount operation args.length)

/-- Perform an operation for a compiled module. -/
def dispatch (operation : Operation) (args : List Int32) : StateM Store Int32 := do
  if hasUnsetImage operation args then
    return Handle.unset.toWire
  match ← (call operation args).run with
  | .ok handle => return handle.toWire
  | .error _ => return Handle.unset.toWire

/-! ## Checks before writes -/

/-- An update carries out a request all or nothing: it leaves the store that a granted request
gives, and after a request that is refused the store is what it was. -/
def CarriesOut {α : Type} (update : Update α) (store : Store) :
    Except StoreFault (α × Store) → Prop
  | .ok (value, after) => update.on store = (.ok value, after)
  | .error fault => update.on store = (.error fault, store)

/-- An update that succeeds hands its value and the store it leaves to the next one. -/
theorem on_bind_ok {α β : Type} {update : Update α} {next : α → Update β} {store after : Store}
    {value : α} (succeeds : update.on store = (.ok value, after)) :
    (update >>= next).on store = (next value).on after := by
  simp only [on] at succeeds ⊢
  simp only [ExceptT.run_bind, StateT.run_bind, succeeds]
  rfl

/-- An update that fails ends the request, with the store it leaves. -/
theorem on_bind_error {α β : Type} {update : Update α} {next : α → Update β} {store after : Store}
    {fault : StoreFault} (fails : update.on store = (.error fault, after)) :
    (update >>= next).on store = (.error fault, after) := by
  simp only [on] at fails ⊢
  simp only [ExceptT.run_bind, StateT.run_bind, fails]
  rfl

/-- Reading the store writes nothing. -/
theorem CarriesOut.read {α : Type} {store : Store} {next : Store → Update α}
    {outcome : Except StoreFault (α × Store)} (rest : (next store).CarriesOut store outcome) :
    ((get : Update Store) >>= next).CarriesOut store outcome := by
  cases outcome with
  | error fault => exact rest
  | ok result => exact rest

/-- A check writes nothing, and the request goes on if it is passed. -/
theorem CarriesOut.check {α β : Type} {store : Store} {check : Except StoreFault α}
    {next : α → Update β} {outcome : α → Except StoreFault (β × Store)}
    (passed : ∀ value, (next value).CarriesOut store (outcome value)) :
    ((liftM check : Update α) >>= next).CarriesOut store (check >>= outcome) := by
  cases check with
  | error fault => rfl
  | ok value => exact passed value

theorem carriesOut_insert (store : Store) (image : Image) :
    (insert image).CarriesOut store (store.insert image) := by
  unfold insert Store.insert
  apply CarriesOut.read
  apply CarriesOut.check
  intro _
  apply CarriesOut.check
  intro _
  apply CarriesOut.check
  intro _
  by_cases full : store.config.maxImages ≤ store.images.length
  · simp only [full, true_or, ↓reduceIte]
    rfl
  · by_cases unset : store.next.isUnset
    · simp only [full, unset, or_true, ↓reduceIte]
      rfl
    · simp only [full, unset, Bool.false_eq_true, or_self, ↓reduceIte]
      rfl

theorem carriesOut_addInput (store : Store) (name : String) (width height : UInt32)
    (pixels : ByteArray) :
    (addInput name width height pixels).CarriesOut store
      (store.addInput name width height pixels) := by
  unfold addInput Store.addInput
  apply CarriesOut.read
  apply CarriesOut.check
  intro _
  apply CarriesOut.check
  intro image
  cases store.inputHandle? name with
  | some handle =>
    simp only [Store.replaceImage, bind_assoc]
    apply CarriesOut.check
    intro _
    rfl
  | none =>
    -- the name is written only once the image is kept
    have kept := carriesOut_insert store image
    cases inserted : store.insert image with
    | error fault =>
      rw [inserted] at kept
      exact on_bind_error kept
    | ok result =>
      rw [inserted] at kept
      exact on_bind_ok kept

theorem carriesOut_renameInput (store : Store) (old new : String) :
    (renameInput old new).CarriesOut store ((store.renameInput old new).map ((), ·)) := by
  unfold renameInput Store.renameInput
  by_cases same : old = new
  · simp only [same, ↓reduceIte]
    rfl
  · simp only [same, ↓reduceIte]
    apply CarriesOut.read
    by_cases taken : store.containsInput new
    · simp only [taken, ↓reduceIte]
      rfl
    · by_cases known : store.containsInput old
      · simp only [taken, known, Bool.not_true, Bool.false_eq_true, ↓reduceIte]
        rfl
      · simp only [taken, known, Bool.not_false, Bool.false_eq_true, ↓reduceIte]
        rfl

theorem carriesOut_derive (store : Store) (handle : Handle)
    (make : Image → Except StoreFault Image) :
    (derive handle make).CarriesOut store (store.derive handle make) := by
  unfold derive Store.derive
  apply CarriesOut.read
  apply CarriesOut.check
  intro source
  apply CarriesOut.check
  intro _
  apply CarriesOut.check
  intro image
  exact carriesOut_insert store image

theorem carriesOut_resize (store : Store) (handle : Handle) (width height : Int32) :
    (resize handle width height).CarriesOut store (store.resize handle width height) := by
  unfold resize Store.resize
  apply CarriesOut.read
  apply CarriesOut.check
  intro sides
  apply CarriesOut.check
  intro _
  apply CarriesOut.check
  intro source
  exact carriesOut_insert store _

theorem carriesOut_blank (store : Store) (red green blue alpha width height : Int32) :
    (blank red green blue alpha width height).CarriesOut store
      (store.blank red green blue alpha width height) := by
  unfold blank Store.blank
  apply CarriesOut.read
  apply CarriesOut.check
  intro sides
  apply CarriesOut.check
  intro _
  exact carriesOut_insert store _

theorem carriesOut_call (store : Store) (operation : Operation) (args : List Int32) :
    (call operation args).CarriesOut store (store.call operation args) := by
  unfold call Store.call
  split
  case h_1 => exact carriesOut_blank store _ _ _ _ _ _
  case h_2 =>
    apply CarriesOut.check
    intro handle
    exact carriesOut_resize store handle _ _
  case h_11 =>
    simp only
    rfl
  all_goals
    apply CarriesOut.check
    intro handle
    exact carriesOut_derive store handle _

/-- An operation performed for a compiled module gives the same word and leaves the same store as it
does as a function of the store. -/
theorem run_dispatch (store : Store) (operation : Operation) (args : List Int32) :
    (dispatch operation args).run store = store.dispatch operation args := by
  unfold dispatch
  by_cases unset : hasUnsetImage operation args
  · simp only [unset, Store.dispatch, ↓reduceIte]
    rfl
  · have carried := carriesOut_call store operation args
    simp only [unset, Bool.false_eq_true, ↓reduceIte, StateT.run_bind]
    cases called : store.call operation args with
    | error fault =>
      rw [called] at carried
      have ended : (call operation args).run.run store = (.error fault, store) := carried
      rw [ended, Store.dispatch_of_call_error called]
      rfl
    | ok result =>
      rw [called] at carried
      have ended : (call operation args).run.run store = (.ok result.1, result.2) := carried
      rw [ended, Store.dispatch_of_call_ok called]
      rfl

end Update

/-! ## Copy on write -/

/-- All that was added to a store is one image, under the next handle. -/
structure Store.AddsImage (before after : Store) (handle : Handle) (image : Image) : Prop where
  /-- The new image has the handle that was the next one. -/
  named : handle = before.next
  /-- No image had it before. -/
  fresh : before.image? handle = none
  /-- The handle after it is the next one. -/
  next : after.next.number.toNat = before.next.number.toNat + 1
  /-- The bytes of the new image are counted. -/
  bytes : after.totalBytes = before.totalBytes + image.pixels.size
  /-- The new image joins the others. -/
  images : after.images = (handle, image) :: before.images
  /-- The inputs are the same. -/
  inputs : after.inputs = before.inputs
  /-- The limits are the same. -/
  config : after.config = before.config

theorem Store.Invariant.addsImage {store after : Store} {image : Image} {handle : Handle}
    (invariant : store.Invariant) (inserted : store.insert image = .ok (handle, after)) :
    store.AddsImage after handle image := by
  obtain ⟨-, -, -, free, rfl, rfl⟩ := insert_eq_ok.mp inserted
  have absent : store.image? store.next = none := by
    rw [← Option.not_isSome_iff_eq_none, image?_isSome]
    exact next_not_mem invariant
  have larger : store.next.number.toNat < (store.next.number + 1).toNat :=
    UInt32.lt_iff_toNat_lt.mp (next_number_lt invariant free).1
  have counted : (store.next.number + 1).toNat = store.next.number.toNat + 1 := by
    rw [UInt32.toNat_add, show (1 : UInt32).toNat = 1 from rfl] at larger ⊢
    omega
  exact ⟨rfl, absent, counted, rfl, rfl, rfl, rfl⟩

/-- Requests to a reachable store are all or nothing, also when they are carried out in place: one
that is refused leaves the store as it was. An operation that succeeds adds one image under the next
handle and nothing else. A compiled module that calls the operation gets the word of that handle; it
gets the word for no image exactly when the operation fails, and the store is then as it was. -/
theorem Store.requests_atomic {store : Store} (reachable : store.Reachable) :
    (∀ name width height pixels, (Update.addInput name width height pixels).CarriesOut store
      (store.addInput name width height pixels)) ∧
    (∀ image, (Update.insert image).CarriesOut store (store.insert image)) ∧
    (∀ old new, (Update.renameInput old new).CarriesOut store
      ((store.renameInput old new).map ((), ·))) ∧
    ∀ operation args,
      (Update.call operation args).CarriesOut store (store.call operation args) ∧
      (∀ handle after, store.call operation args = .ok (handle, after) →
        ∃ image, store.AddsImage after handle image) ∧
      (Update.dispatch operation args).run store = store.dispatch operation args ∧
      ((store.dispatch operation args).1 = Handle.unset.toWire ↔
        ∃ fault, store.call operation args = .error fault) ∧
      (∀ fault, store.call operation args = .error fault →
        store.dispatch operation args = (Handle.unset.toWire, store)) ∧
      ∀ handle after, store.call operation args = .ok (handle, after) →
        store.dispatch operation args = (handle.toWire, after) := by
  refine ⟨Update.carriesOut_addInput store, Update.carriesOut_insert store,
    Update.carriesOut_renameInput store, ?_⟩
  intro operation args
  refine ⟨Update.carriesOut_call store operation args, ?_, Update.run_dispatch store operation args,
    dispatch_eq_unset_iff, fun _ => dispatch_of_call_error, fun _ _ => dispatch_of_call_ok⟩
  intro handle after called
  obtain ⟨image, inserted⟩ := call_inserts called
  exact ⟨image, reachable.invariant.addsImage inserted⟩

/-- A store that holds one black pixel and has no room for another image. -/
def Store.fullStore : Store :=
  serveAll { config := { maxImages := 1 } } [.addInput "a" 1 1 ⟨#[0, 0, 0, 255]⟩]

/-- In place, inverting the image of a full store fails and leaves the store as it was. -/
theorem Store.requests_atomic_fullStore :
    (Update.call .invertColor [0]).on fullStore = (.error (.full 1), fullStore) ∧
      fullStore.dispatch .invertColor [0] = (Handle.unset.toWire, fullStore) := by
  have refused : fullStore.call .invertColor [0] = .error (.full 1) := by rfl
  have reachable : fullStore.Reachable := ⟨_, _, rfl⟩
  obtain ⟨-, -, -, operations⟩ := requests_atomic reachable
  obtain ⟨carried, -, -, -, failed, -⟩ := operations .invertColor [0]
  rw [refused] at carried
  exact ⟨carried, failed _ refused⟩

end TextureScript
