import Mathlib.Data.List.Basic
import TextureScript.Proofs.Image.Colors
import TextureScript.Proofs.Store.Invariant

/-!
# Calls by compiled modules

A compiled module gets a word for every operation that it calls: the word of the new image, or the
one for no image. The word tells whether the operation succeeded, since no image is ever kept under
the handle that is set apart, and an operation that is given no image would have failed in any case.
An operation on an image of the store is refused only because a limit of the store is reached: what
it makes always fits its sides.
-/

namespace TextureScript

/-! ## Words of handles -/

namespace Handle

theorem toWire_inj {first second : Handle} : first.toWire = second.toWire ↔ first = second := by
  constructor
  · intro same
    obtain ⟨first⟩ := first
    obtain ⟨second⟩ := second
    have numbers : first.toInt32.toUInt32 = second.toInt32.toUInt32 := congrArg _ same
    rw [UInt32.toUInt32_toInt32, UInt32.toUInt32_toInt32] at numbers
    exact congrArg Handle.mk numbers
  · exact congrArg toWire

/-- A word for a handle below the one that names no image stands for that handle. -/
theorem ofWire?_toWire {handle : Handle} (below : handle.number < unset.number) :
    ofWire? handle.toWire = some handle := by
  have bound : handle.number.toNat < 2147483647 := UInt32.lt_iff_toNat_lt.mp below
  have value : handle.toWire.toInt = handle.number.toNat :=
    BitVec.toInt_eq_toNat_of_lt (show 2 * handle.number.toNat < 2 ^ 32 by omega)
  have nonnegative : ¬ handle.toWire < 0 := by
    rw [Int32.lt_iff_toInt_lt, value, Int32.toInt_zero]
    omega
  have named : handle.toWire ≠ unset.toWire := by
    intro same
    rw [toWire_inj.mp same] at below
    exact UInt32.lt_irrefl _ below
  rw [ofWire?, if_neg (by simp only [nonnegative, named, or_self, not_false_iff])]
  simp only [toWire, UInt32.toUInt32_toInt32]

@[simp]
theorem ofWire?_unset : ofWire? unset.toWire = none :=
  if_pos (.inr rfl)

end Handle

/-! ## Live words -/

namespace Store

/-- A word is live when it stands for an image of the store. -/
def Live (store : Store) (word : Int32) : Prop :=
  ∃ handle image, Handle.ofWire? word = some handle ∧ store.image? handle = some image

/-- The word of a handle that is in use is live. -/
theorem Invariant.live_toWire {store : Store} (invariant : store.Invariant) {handle : Handle}
    {image : Image} (found : store.image? handle = some image) : store.Live handle.toWire := by
  have below := invariant.below _ (mem_images_of_image? found)
  have bound : handle.number < Handle.unset.number :=
    UInt32.lt_of_lt_of_le below invariant.next_le
  exact ⟨handle, image, Handle.ofWire?_toWire bound, found⟩

theorem Invariant.live_input {store : Store} (invariant : store.Invariant) {input : InputImage}
    (member : input ∈ store.inputs) : store.Live input.handle.toWire := by
  obtain ⟨image, found⟩ := Option.isSome_iff_exists.mp (invariant.inputsKept input member)
  exact invariant.live_toWire found

/-- A live word stays live when a new image is kept. -/
theorem Live.insert {store after : Store} {word : Int32} {image : Image} {handle : Handle}
    (live : store.Live word) (inserted : store.insert image = .ok (handle, after)) :
    after.Live word := by
  obtain ⟨-, -, -, -, -, rfl⟩ := insert_eq_ok.mp inserted
  obtain ⟨named, source, stands, found⟩ := live
  have present : (Store.image? (store.keepNew image) named).isSome := by
    rw [image?_isSome]
    exact List.mem_cons_of_mem _ (image?_isSome.mp (Option.isSome_of_eq_some found))
  obtain ⟨kept, there⟩ := Option.isSome_iff_exists.mp present
  exact ⟨named, kept, stands, there⟩

/-- The word of a new image is live. -/
theorem Invariant.live_insert {store after : Store} {image : Image} {handle : Handle}
    (invariant : store.Invariant) (inserted : store.insert image = .ok (handle, after)) :
    after.Live handle.toWire := by
  have grown := invariant.insert inserted
  obtain ⟨-, -, -, -, rfl, rfl⟩ := insert_eq_ok.mp inserted
  exact grown.live_toWire (show Store.image? (store.keepNew image) store.next = some image by
    simp [Store.image?, keepNew])

end Store

/-! ## Faults of operations -/

/-- A fault that says that a limit of the store is reached. -/
def StoreFault.IsLimit : StoreFault → Prop
  | invalidDimension _ _ _ | byteLimitExceeded _ _ | full _ => True
  | _ => False

/-- A chain of two checks fails when the first does, or the second after it. -/
theorem except_bind_error {ε α β : Type} {first : Except ε α} {next : α → Except ε β} {fault : ε} :
    (first >>= next) = .error fault ↔
      first = .error fault ∨ ∃ found, first = .ok found ∧ next found = .error fault := by
  cases first with
  | error fault => simp [bind, Except.bind]
  | ok found => simp [bind, Except.bind]

namespace Store

theorem dimensions_isLimit {config : StoreConfig} {width height : Int} {fault : StoreFault}
    (failed : config.dimensions width height = .error fault) : fault.IsLimit := by
  unfold StoreConfig.dimensions at failed
  simp only at failed
  split at failed
  · cases failed
  · cases failed
    trivial

theorem checkBytes_isLimit {store : Store} {requested freed : Nat} {fault : StoreFault}
    (failed : store.checkBytes requested freed = .error fault) : fault.IsLimit := by
  unfold checkBytes at failed
  split at failed
  · cases failed
  · cases failed
    trivial

/-- An image that fits its sides is refused only by a limit. -/
theorem insert_isLimit {store : Store} {image : Image} {fault : StoreFault}
    (formed : image.IsWellFormed) (failed : store.insert image = .error fault) :
    fault.IsLimit := by
  have made : Image.ofBytes image.width image.height image.pixels = .ok image :=
    Image.ofBytes_eq_ok.mpr ⟨rfl, formed⟩
  simp only [insert, made, except_bind_error, reduceCtorEq, false_or] at failed
  obtain sides | ⟨-, -, -, -, bytes | ⟨-, -, room⟩⟩ := failed
  · exact dimensions_isLimit sides
  · exact checkBytes_isLimit bytes
  · split at room
    · cases room
      trivial
    · cases room

/-- An image that is made of an image of the store and fits its sides is refused only by a limit. -/
theorem derive_isLimit {store : Store} {handle : Handle} {source : Image}
    {make : Image → Image} {fault : StoreFault} (live : store.image? handle = some source)
    (formed : (make source).IsWellFormed)
    (failed : store.derive handle (fun image => .ok (make image)) = .error fault) :
    fault.IsLimit := by
  simp only [derive, get, live, except_bind_error, reduceCtorEq, Except.ok.injEq,
    false_or] at failed
  obtain ⟨_, rfl, bytes | ⟨-, -, _, rfl, kept⟩⟩ := failed
  · exact checkBytes_isLimit bytes
  · exact insert_isLimit formed kept

theorem resize_isLimit {store : Store} {handle : Handle} {source : Image} {width height : Int32}
    {fault : StoreFault} (live : store.image? handle = some source)
    (failed : store.resize handle width height = .error fault) : fault.IsLimit := by
  simp only [resize, get, live, except_bind_error, reduceCtorEq, Except.ok.injEq,
    false_or] at failed
  obtain sides | ⟨_, -, bytes | ⟨-, -, _, rfl, kept⟩⟩ := failed
  · exact dimensions_isLimit sides
  · exact checkBytes_isLimit bytes
  · exact insert_isLimit (Image.isWellFormed_ofColors _ _ _) kept

theorem blank_isLimit {store : Store} {red green blue alpha width height : Int32}
    {fault : StoreFault} (failed : store.blank red green blue alpha width height = .error fault) :
    fault.IsLimit := by
  simp only [blank, except_bind_error] at failed
  obtain sides | ⟨_, -, bytes | ⟨-, -, kept⟩⟩ := failed
  · exact dimensions_isLimit sides
  · exact checkBytes_isLimit bytes
  · exact insert_isLimit (Image.isWellFormed_ofColors _ _ _) kept

theorem handleArgument_of_ofWire? {word : Int32} {handle : Handle}
    (named : Handle.ofWire? word = some handle) : handleArgument word = .ok handle := by
  simp only [handleArgument, named]

/-- The arguments of a blank image: its color and its sides. -/
theorem blankImage_arguments {args : List Int32}
    (complete : args.length = Operation.blankImage.arity) :
    ∃ red green blue alpha width height, args = [red, green, blue, alpha, width, height] := by
  obtain ⟨red, _, rfl, afterRed⟩ := List.length_eq_succ_iff.mp complete
  obtain ⟨green, _, rfl, afterGreen⟩ := List.length_eq_succ_iff.mp afterRed
  obtain ⟨blue, _, rfl, afterBlue⟩ := List.length_eq_succ_iff.mp afterGreen
  obtain ⟨alpha, width, height, rfl⟩ := List.length_eq_three.mp afterBlue
  exact ⟨red, green, blue, alpha, width, height, rfl⟩

/-- An operation that is given as many arguments as it takes, live words for its images among them,
is refused only by a limit. -/
theorem call_isLimit {store : Store} {operation : Operation} {args : List Int32}
    {fault : StoreFault} (complete : args.length = operation.arity)
    (live : ∀ entry ∈ operation.params.zip args, entry.1.kind = .image → store.Live entry.2)
    (failed : store.call operation args = .error fault) : fault.IsLimit := by
  cases operation with
  | resize =>
    obtain ⟨image, width, height, rfl⟩ := List.length_eq_three.mp complete
    obtain ⟨handle, source, named, found⟩ := live _ List.mem_cons_self rfl
    rw [call, handleArgument_of_ofWire? named] at failed
    exact resize_isLimit found failed
  | darken =>
    obtain ⟨image, value, rfl⟩ := List.length_eq_two.mp complete
    obtain ⟨handle, source, named, found⟩ := live _ List.mem_cons_self rfl
    rw [call, handleArgument_of_ofWire? named] at failed
    exact derive_isLimit found (Image.isWellFormed_ofColors _ _ _) failed
  | blankImage =>
    obtain ⟨red, green, blue, alpha, width, height, rfl⟩ := blankImage_arguments complete
    exact blank_isLimit failed
  | _ =>
    obtain ⟨image, rfl⟩ := List.length_eq_one_iff.mp complete
    obtain ⟨handle, source, named, found⟩ := live _ List.mem_cons_self rfl
    rw [call, handleArgument_of_ofWire? named] at failed
    exact derive_isLimit found (Image.isWellFormed_ofColors _ _ _) failed

/-! ## What a module gets -/

/-- An operation that is given no image in the place of one fails. -/
theorem call_of_hasUnsetImage {operation : Operation} {args : List Int32} (store : Store)
    (unset : hasUnsetImage operation args) : ∃ fault, store.call operation args = .error fault := by
  unfold call
  split
  case h_3 => simp [hasUnsetImage, Operation.params] at unset
  case h_11 => exact ⟨_, rfl⟩
  all_goals
    simp [hasUnsetImage, Operation.params] at unset
    subst unset
    exact ⟨_, rfl⟩

theorem dispatch_of_call_error {store : Store} {operation : Operation} {args : List Int32}
    {fault : StoreFault} (failed : store.call operation args = .error fault) :
    store.dispatch operation args = (Handle.unset.toWire, store) := by
  unfold dispatch
  split
  · rfl
  · simp only [failed]

theorem dispatch_of_call_ok {store after : Store} {operation : Operation} {args : List Int32}
    {handle : Handle} (called : store.call operation args = .ok (handle, after)) :
    store.dispatch operation args = (handle.toWire, after) := by
  unfold dispatch
  split
  · rename_i unset
    obtain ⟨fault, failed⟩ := call_of_hasUnsetImage store unset
    simp [failed] at called
  · simp only [called]

/-- The word for no image comes back exactly when the operation fails. -/
theorem dispatch_eq_unset_iff {store : Store} {operation : Operation} {args : List Int32} :
    (store.dispatch operation args).1 = Handle.unset.toWire ↔
      ∃ fault, store.call operation args = .error fault := by
  cases called : store.call operation args with
  | error fault => simp [dispatch_of_call_error called]
  | ok result =>
    obtain ⟨image, inserted⟩ := call_inserts called
    obtain ⟨-, -, -, free, same, -⟩ := insert_eq_ok.mp inserted
    simp [dispatch_of_call_ok called, Handle.toWire_inj, same, free]

/-- An operation fails by itself when a limit of the store is reached, and it cannot but fail when
it is given no image in the place of one. -/
def FailsOn (store : Store) (operation : Operation) (args : List Int32) : Prop :=
  hasUnsetImage operation args = true ∨
    ∃ fault, store.call operation args = .error fault ∧ fault.IsLimit

theorem FailsOn.dispatch {store : Store} {operation : Operation} {args : List Int32}
    (fails : store.FailsOn operation args) :
    store.dispatch operation args = (Handle.unset.toWire, store) := by
  rcases fails with unset | ⟨fault, failed, -⟩
  · obtain ⟨fault, failed⟩ := call_of_hasUnsetImage store unset
    exact dispatch_of_call_error failed
  · exact dispatch_of_call_error failed

/-- A call by a module on words that are live or stand for no image fails for one of these reasons
and leaves the store as it is, or gives a live word and keeps every other word live. -/
theorem Invariant.dispatch_cases {store : Store} (invariant : store.Invariant)
    {operation : Operation} {args : List Int32} (complete : args.length = operation.arity)
    (images : ∀ entry ∈ operation.params.zip args, entry.1.kind = .image →
      entry.2 = Handle.unset.toWire ∨ store.Live entry.2) :
    (store.FailsOn operation args ∧
      store.dispatch operation args = (Handle.unset.toWire, store)) ∨
    (¬store.FailsOn operation args ∧
      (store.dispatch operation args).2.Invariant ∧
      (store.dispatch operation args).2.Live (store.dispatch operation args).1 ∧
      ∀ word, store.Live word → (store.dispatch operation args).2.Live word) := by
  cases called : store.call operation args with
  | error fault =>
    refine .inl ⟨?_, dispatch_of_call_error called⟩
    by_cases unset : hasUnsetImage operation args = true
    · exact .inl unset
    · refine .inr ⟨fault, called, call_isLimit complete ?_ called⟩
      intro entry member isImage
      refine (images entry member isImage).resolve_left ?_
      intro same
      simp only [hasUnsetImage, List.any_eq_true, not_exists, not_and] at unset
      exact unset entry member (by simp [isImage, same])
  | ok result =>
    obtain ⟨image, inserted⟩ := call_inserts called
    rw [dispatch_of_call_ok called]
    refine .inr ⟨?_, invariant.insert inserted, invariant.live_insert inserted,
      fun word live => live.insert inserted⟩
    rintro (unset | ⟨fault, failed, -⟩)
    · obtain ⟨fault, failed⟩ := call_of_hasUnsetImage store unset
      simp [failed] at called
    · simp [failed] at called

end Store

end TextureScript
