import TextureScript.Proofs.Store.Dispatch

/-!
# Calls on stores that are alike

Two stores are alike when all limits leave as much room in one as in the other. They may keep their
images under other handles, and they may have handed out other handles before. An operation that is
given the same images decides in the same way on both of them, and keeps the same image if it keeps
one. Only the handle of the new image is another one, so both stores need a handle to give.
-/

namespace TextureScript.Store

/-- The limits leave as much room in one store as in the other. -/
structure Alike (first second : Store) : Prop where
  /-- The limits are the same. -/
  config : first.config = second.config
  /-- There are as many images. -/
  count : first.images.length = second.images.length
  /-- The images have as many bytes. -/
  totalBytes : first.totalBytes = second.totalBytes

/-- The image that a word stands for. -/
def imageAt (store : Store) (word : Int32) : Option Image :=
  (Handle.ofWire? word).bind store.image?

theorem imageAt_eq_some {store : Store} {word : Int32} {image : Image} :
    store.imageAt word = some image ↔
      ∃ handle, Handle.ofWire? word = some handle ∧ store.image? handle = some image :=
  Option.bind_eq_some_iff

@[simp]
theorem imageAt_unset (store : Store) : store.imageAt Handle.unset.toWire = none := by
  rw [imageAt, Handle.ofWire?_unset, Option.bind_none]

/-- Words of a kind mean the same in two stores: numbers are equal, and images are the same. -/
def SameValue (first second : Store) : Kind → Int32 → Int32 → Prop
  | .image, word, other => first.imageAt word = second.imageAt other
  | .number, word, other => word = other

/-- Words for some parameters mean the same in two stores. -/
inductive SameArguments (first second : Store) :
    List Parameter → List Int32 → List Int32 → Prop where
  | nil : SameArguments first second [] [] []
  | cons {param : Parameter} {params : List Parameter} {word other : Int32}
      {words others : List Int32} (head : first.SameValue second param.kind word other)
      (tail : SameArguments first second params words others) :
      SameArguments first second (param :: params) (word :: words) (other :: others)

/-- Two requests have the same outcome on two stores: both are refused, or both keep an image that
is the same. -/
inductive Matches (first second : Store) :
    Except StoreFault (Handle × Store) → Except StoreFault (Handle × Store) → Prop where
  /-- Both are refused, maybe with different words. -/
  | refused (fault fault' : StoreFault) : Matches first second (.error fault) (.error fault')
  /-- Both keep the image under their next handle. -/
  | kept (image : Image) : Matches first second (.ok (first.next, first.keepNew image))
      (.ok (second.next, second.keepNew image))

variable {first second : Store}

/-- A check that both requests begin with does not tell them apart. -/
theorem Matches.check {α : Type} {check : Except StoreFault α}
    {next next' : α → Except StoreFault (Handle × Store)}
    (rest : ∀ found, Matches first second (next found) (next' found)) :
    Matches first second (check >>= next) (check >>= next') := by
  cases check with
  | error fault => exact .refused fault fault
  | ok found => exact rest found

namespace Alike

theorem checkBytes (alike : first.Alike second) (requested freed : Nat) :
    first.checkBytes requested freed = second.checkBytes requested freed := by
  simp only [Store.checkBytes, alike.config, alike.totalBytes]

theorem ensureRoom (alike : first.Alike second) (width height : UInt32) :
    first.ensureRoom width height = second.ensureRoom width height :=
  alike.checkBytes _ _

/-- Stores that keep the same image stay alike. -/
theorem keepNew (alike : first.Alike second) (image : Image) :
    (first.keepNew image).Alike (second.keepNew image) where
  config := alike.config
  count := congrArg (· + 1) alike.count
  totalBytes := congrArg (· + image.pixels.size) alike.totalBytes

variable (alike : first.Alike second) (free : first.next ≠ Handle.unset)
  (free' : second.next ≠ Handle.unset)

include alike free free'

theorem insert (image : Image) :
    Matches first second (first.insert image) (second.insert image) := by
  simp only [Store.insert, alike.checkBytes, alike.config, alike.count]
  refine .check fun _ => .check fun _ => .check fun _ => ?_
  simp only [Handle.isUnset, beq_iff_eq, free, free', or_false]
  split
  · exact .refused _ _
  · have kept : Matches first second _ _ := .kept image
    simpa only [Store.keepNew, alike.config] using kept

/-- An image that is made of the same image in the same way is kept in both stores or in none. -/
theorem derive {handle handle' : Handle} {source : Image}
    (found : first.image? handle = some source) (found' : second.image? handle' = some source)
    (make : Image → Except StoreFault Image) :
    Matches first second (first.derive handle make) (second.derive handle' make) := by
  simp only [Store.derive, get, found, found', alike.ensureRoom]
  exact .check fun _ => .check fun _ => .check fun _ => alike.insert free free' _

theorem resize {handle handle' : Handle} {source : Image}
    (found : first.image? handle = some source) (found' : second.image? handle' = some source)
    (width height : Int32) :
    Matches first second (first.resize handle width height)
      (second.resize handle' width height) := by
  simp only [Store.resize, get, found, found', alike.ensureRoom, alike.config]
  exact .check fun _ => .check fun _ => .check fun _ => alike.insert free free' _

theorem blank (red green blue alpha width height : Int32) :
    Matches first second (first.blank red green blue alpha width height)
      (second.blank red green blue alpha width height) := by
  simp only [Store.blank, alike.ensureRoom, alike.config]
  exact .check fun _ => .check fun _ => alike.insert free free' _

end Alike

/-! ## Operations on an image -/

theorem derive_of_missing {store : Store} {handle : Handle} (missing : store.image? handle = none)
    (make : Image → Except StoreFault Image) :
    ∃ fault, store.derive handle make = .error fault := by
  refine ⟨.unknownHandle handle, ?_⟩
  simp only [derive, get, missing]
  rfl

theorem resize_of_missing {store : Store} {handle : Handle} (missing : store.image? handle = none)
    (width height : Int32) : ∃ fault, store.resize handle width height = .error fault := by
  simp only [resize, except_bind_error, get, missing]
  cases store.config.dimensions width.toInt height.toInt with
  | error fault => exact ⟨fault, .inl rfl⟩
  | ok sides =>
    cases room : store.ensureRoom sides.1 sides.2 with
    | error fault => exact ⟨fault, .inr ⟨sides, rfl, .inl room⟩⟩
    | ok passed => exact ⟨_, .inr ⟨sides, rfl, .inr ⟨passed, room, .inl rfl⟩⟩⟩

/-- A request about an image has the same outcome for words that stand for the same image, if it has
it for the handles of that image and is refused without an image. -/
theorem Matches.handleArgument {word other : Int32}
    (same : first.imageAt word = second.imageAt other)
    {request : Store → Handle → Except StoreFault (Handle × Store)}
    (missing : ∀ store handle, store.image? handle = none →
      ∃ fault, request store handle = .error fault)
    (present : ∀ handle handle' source, first.image? handle = some source →
      second.image? handle' = some source →
        Matches first second (request first handle) (request second handle')) :
    Matches first second (handleArgument word >>= request first)
      (handleArgument other >>= request second) := by
  -- without an image a word is refused, whether it stands for a handle or not
  have refuses : ∀ (store : Store) (raw : Int32), store.imageAt raw = none →
      ∃ fault, (Store.handleArgument raw >>= request store) = .error fault := by
    intro store raw none
    cases named : Handle.ofWire? raw with
    | none => exact ⟨_, by simp only [Store.handleArgument, named]; rfl⟩
    | some handle =>
      rw [imageAt, named, Option.bind_some] at none
      rw [handleArgument_of_ofWire? named]
      exact missing store handle none
  cases image : second.imageAt other with
  | none =>
    obtain ⟨fault, failed⟩ := refuses first word (same.trans image)
    obtain ⟨fault', failed'⟩ := refuses second other image
    rw [failed, failed']
    exact .refused fault fault'
  | some source =>
    obtain ⟨handle, named, found⟩ := imageAt_eq_some.mp (same.trans image)
    obtain ⟨handle', named', found'⟩ := imageAt_eq_some.mp image
    rw [handleArgument_of_ofWire? named, handleArgument_of_ofWire? named']
    exact present handle handle' source found found'

namespace Alike

variable (alike : first.Alike second) (free : first.next ≠ Handle.unset)
  (free' : second.next ≠ Handle.unset)

include alike free free'

theorem deriveAt {word other : Int32} (same : first.imageAt word = second.imageAt other)
    (make : Image → Except StoreFault Image) :
    Matches first second (handleArgument word >>= (first.derive · make))
      (handleArgument other >>= (second.derive · make)) :=
  .handleArgument same (fun _ _ missing => derive_of_missing missing make)
    fun _ _ _ found found' => alike.derive free free' found found' make

/-- An operation has the same outcome on stores that are alike, when its arguments mean the same. -/
theorem call {operation : Operation} {args args' : List Int32}
    (same : SameArguments first second operation.params args args') :
    Matches first second (first.call operation args) (second.call operation args') := by
  cases operation with
  | resize =>
    obtain _ | ⟨image, _ | ⟨width, _ | ⟨height, ⟨⟩⟩⟩⟩ := same
    cases width
    cases height
    exact .handleArgument image (fun _ _ missing => resize_of_missing missing _ _)
      fun _ _ _ found found' => alike.resize free free' found found' _ _
  | darken =>
    obtain _ | ⟨image, _ | ⟨value, ⟨⟩⟩⟩ := same
    cases value
    exact alike.deriveAt free free' image _
  | blankImage =>
    obtain _ | ⟨red, _ | ⟨green, _ | ⟨blue, _ | ⟨alpha, _ | ⟨width, _ | ⟨height, ⟨⟩⟩⟩⟩⟩⟩⟩ := same
    cases red
    cases green
    cases blue
    cases alpha
    cases width
    cases height
    exact alike.blank free free' _ _ _ _ _ _
  | _ =>
    obtain _ | ⟨image, ⟨⟩⟩ := same
    exact alike.deriveAt free free' image _

/-- A module that calls an operation on stores that are alike gets no image from both of them, and
both stay as they are, or both keep the same image and answer with the word for their next
handle. -/
theorem dispatch {operation : Operation} {args args' : List Int32}
    (same : SameArguments first second operation.params args args') :
    (first.dispatch operation args = (Handle.unset.toWire, first) ∧
      second.dispatch operation args' = (Handle.unset.toWire, second)) ∨
    ∃ image, first.dispatch operation args = (first.next.toWire, first.keepNew image) ∧
      second.dispatch operation args' = (second.next.toWire, second.keepNew image) := by
  have outcomes := alike.call free free' same
  generalize called : first.call operation args = outcome at outcomes
  generalize called' : second.call operation args' = outcome' at outcomes
  cases outcomes with
  | refused fault fault' =>
    exact .inl ⟨dispatch_of_call_error called, dispatch_of_call_error called'⟩
  | kept image =>
    exact .inr ⟨image, dispatch_of_call_ok called, dispatch_of_call_ok called'⟩

end Alike

end TextureScript.Store
