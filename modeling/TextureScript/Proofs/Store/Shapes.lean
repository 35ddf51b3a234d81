import TextureScript.Compiler
import TextureScript.Proofs.Store.Export
import TextureScript.Proofs.Store.Refusals
import TextureScript.Proofs.Wasm.Agreement
import TextureScript.Store.Run

/-!
# Pixels do not steer a run

Two stores have the same shapes when they differ in the bytes of their images at most: they have the
same limits, inputs, handles and sides. Every check of an operation is about shapes, and so are the
sides of what it makes. So operations answer alike on such stores and leave such stores, a module
does the same with both, and what it exports has the same names and the same sides.
-/

namespace TextureScript

/-- The sides of an image. -/
def Image.sides (image : Image) : UInt32 × UInt32 :=
  (image.width, image.height)

namespace Store

/-- Two stores differ in the bytes of their images at most. -/
structure SameShapes (first second : Store) : Prop where
  /-- The limits are the same. -/
  config : first.config = second.config
  /-- The inputs are the same. -/
  inputs : first.inputs = second.inputs
  /-- The next handle is the same. -/
  next : first.next = second.next
  /-- The images have as many bytes. -/
  totalBytes : first.totalBytes = second.totalBytes
  /-- Under every handle there are images with the same sides, or none. -/
  images : ∀ handle, (first.image? handle).map Image.sides = (second.image? handle).map Image.sides

namespace SameShapes

variable {first second : Store} (same : first.SameShapes second)
include same

theorem isSome_image? (handle : Handle) :
    (first.image? handle).isSome = (second.image? handle).isSome := by
  rw [← Option.isSome_map (f := Image.sides), same.images, Option.isSome_map]

/-- There are as many images, since no handle has two. -/
theorem length_images (invariant : first.Invariant) (invariant' : second.Invariant) :
    first.images.length = second.images.length := by
  have handles : (first.images.map (·.1)).Perm (second.images.map (·.1)) := by
    rw [List.perm_ext_iff_of_nodup invariant.handles invariant'.handles]
    intro handle
    rw [← image?_isSome, ← image?_isSome, same.isSome_image?]
  have counted := handles.length_eq
  rw [List.length_map, List.length_map] at counted
  exact counted

theorem imageAt (word : Int32) :
    (first.imageAt word).map Image.sides = (second.imageAt word).map Image.sides := by
  unfold Store.imageAt
  cases Handle.ofWire? word with
  | none => rfl
  | some handle => exact same.images handle

theorem isSome_imageAt (word : Int32) :
    (first.imageAt word).isSome = (second.imageAt word).isSome := by
  rw [← Option.isSome_map (f := Image.sides), same.imageAt, Option.isSome_map]

/-- The sides of what an operation makes depend on shapes only. -/
theorem sides? (operation : Operation) (args : List Int32) :
    first.sides? operation args = second.sides? operation args := by
  have derived : ∀ word? : Option Int32,
      (word?.bind first.imageAt).map (fun source =>
          ((source.width.toNat : Int), (source.height.toNat : Int))) =
        (word?.bind second.imageAt).map fun source =>
          ((source.width.toNat : Int), (source.height.toNat : Int)) := by
    intro word?
    cases word? with
    | none => rfl
    | some word =>
      have sides := congrArg (Option.map fun sides : UInt32 × UInt32 =>
        ((sides.1.toNat : Int), (sides.2.toNat : Int))) (same.imageAt word)
      rw [Option.map_map, Option.map_map] at sides
      exact sides
  unfold Store.sides?
  split
  · rfl
  · rfl
  · exact derived _

/-- Every check says the same on stores with the same shapes. -/
theorem fault? (invariant : first.Invariant) (invariant' : second.Invariant)
    (operation : Operation) (args : List Int32) (check : Check) :
    check.fault? first operation args = check.fault? second operation args := by
  cases check with
  | named => rfl
  | live => simp only [Check.fault?, same.isSome_imageAt]
  | sides => simp only [Check.fault?, same.sides?, same.config]
  | room => simp only [Check.fault?, same.sides?, same.config, same.totalBytes]
  | slot =>
    simp only [Check.fault?, same.config, same.next, same.length_images invariant invariant']

theorem firstFault? (invariant : first.Invariant) (invariant' : second.Invariant)
    (operation : Operation) (args : List Int32) :
    first.firstFault? operation args = second.firstFault? operation args := by
  unfold Store.firstFault?
  congr 1
  funext check
  exact same.fault? invariant invariant' operation args check

/-- Stores that keep images of the same sides go on to have the same shapes. -/
theorem keepNew {image image' : Image} (sides : image.sides = image'.sides)
    (sizes : image.pixels.size = image'.pixels.size) :
    (first.keepNew image).SameShapes (second.keepNew image') where
  config := same.config
  inputs := same.inputs
  next := by simp only [Store.keepNew, same.next]
  totalBytes := by simp only [Store.keepNew, same.totalBytes, sizes]
  images := by
    intro handle
    have older := same.images handle
    simp only [image?] at older
    simp only [image?, Store.keepNew, List.lookup_cons, same.next]
    cases handle == second.next with
    | true => exact congrArg some sides
    | false => exact older

end SameShapes

/-! ## Operations -/

/-- Images that are ready on stores with the same shapes have the same sides, and so as many
bytes. -/
theorem Ready.same {first second : Store} (same : first.SameShapes second) {operation : Operation}
    {args : List Int32} {image image' : Image} (ready : first.Ready operation args image)
    (ready' : second.Ready operation args image') :
    image.sides = image'.sides ∧ image.pixels.size = image'.pixels.size := by
  have shaped := ready.shaped
  rw [same.sides?, ready'.shaped, Option.some.injEq, Prod.mk.injEq, Int.ofNat_inj, Int.ofNat_inj,
    UInt32.toNat_inj, UInt32.toNat_inj] at shaped
  refine ⟨Prod.ext shaped.1.symm shaped.2.symm, ?_⟩
  rw [ready.admitted.formed, ready'.admitted.formed, shaped.1, shaped.2]

/-- A call by a module is answered in the same way on stores with the same shapes, and they go on to
have the same shapes. -/
theorem SameShapes.dispatch {first second : Store} (same : first.SameShapes second)
    (invariant : first.Invariant) (invariant' : second.Invariant) (operation : Operation)
    (args : List Int32) :
    (first.dispatch operation args).1 = (second.dispatch operation args).1 ∧
      (first.dispatch operation args).2.SameShapes (second.dispatch operation args).2 := by
  have refused : ∀ fault fault', first.call operation args = .error fault →
      second.call operation args = .error fault' →
        (first.dispatch operation args).1 = (second.dispatch operation args).1 ∧
          (first.dispatch operation args).2.SameShapes (second.dispatch operation args).2 := by
    intro fault fault' failed failed'
    rw [dispatch_of_call_error failed, dispatch_of_call_error failed']
    exact ⟨rfl, same⟩
  by_cases complete : args.length = operation.arity
  · have yields := invariant.yields_call complete
    have yields' := invariant'.yields_call complete
    rw [same.firstFault? invariant invariant'] at yields
    cases fault? : second.firstFault? operation args with
    | some fault =>
      exact refused fault fault ((yields.error_iff fault).mpr fault?)
        ((yields'.error_iff fault).mpr fault?)
    | none =>
      obtain ⟨made, called⟩ := yields.ok_iff.mpr fault?
      obtain ⟨made', called'⟩ := yields'.ok_iff.mpr fault?
      obtain ⟨image, ready, rfl⟩ := yields.good_of_ok called
      obtain ⟨image', ready', rfl⟩ := yields'.good_of_ok called'
      obtain ⟨sides, sizes⟩ := Ready.same same ready ready'
      rw [dispatch_of_call_ok called, dispatch_of_call_ok called']
      exact ⟨congrArg Handle.toWire same.next, same.keepNew sides sizes⟩
  · obtain ⟨fault, failed⟩ := first.call_of_incomplete complete
    obtain ⟨fault', failed'⟩ := second.call_of_incomplete complete
    exact refused fault fault' failed failed'

/-- The store as a host cannot be told from another one with the same shapes. -/
theorem host_agree : host.Agree host fun first second =>
    first.Invariant ∧ second.Invariant ∧ first.SameShapes second := by
  intro operation args first second related
  obtain ⟨invariant, invariant', same⟩ := related
  obtain ⟨answer, after⟩ := same.dispatch invariant invariant' operation args
  exact ⟨answer, invariant.serve (.dispatch operation args),
    invariant'.serve (.dispatch operation args), after⟩

end Store

/-! ## Exports -/

/-- Two exports have the same categories, and in them the same names with images of the same
sides. -/
structure ExportedImages.SameShapes (first second : ExportedImages) : Prop where
  /-- The categories are the same. -/
  categories : ∀ category, category ∈ first ↔ category ∈ second
  /-- Under every name there are images with the same sides, or none. -/
  images : ∀ category name,
    (first.image? category name).map Image.sides = (second.image? category name).map Image.sides

/-- In an export without empty categories, a category is there when an image is. -/
theorem ExportedImages.NoneEmpty.mem_iff {exported : ExportedImages} (filled : exported.NoneEmpty)
    (category : String) :
    category ∈ exported ↔ ∃ name, (exported.image? category name).isSome := by
  rw [Std.TreeMap.mem_iff_isSome_getElem?]
  unfold ExportedImages.image?
  cases found : exported[category]? with
  | none => simp
  | some entries =>
    obtain ⟨name, member⟩ := Std.TreeMap.isEmpty_eq_false_iff_exists_mem.mp (filled _ _ found)
    rw [Std.TreeMap.mem_iff_isSome_getElem?] at member
    simp only [Option.isSome_some, Option.bind_some, true_iff]
    exact ⟨name, member⟩

/-- Replacing the values of a list of pairs replaces what is found. -/
theorem lookup_map_value {κ α β : Type} [BEq κ] (f : α → β) (entries : List (κ × α)) (key : κ) :
    (entries.map fun entry => (entry.1, f entry.2)).lookup key = (entries.lookup key).map f := by
  induction entries with
  | nil => rfl
  | cons entry entries ih =>
    obtain ⟨first, value⟩ := entry
    simp only [List.map_cons, List.lookup_cons]
    cases key == first with
    | true => rfl
    | false => exact ih

namespace Store.SameShapes

variable {first second : Store} (same : first.SameShapes second)
include same

theorem slotImage? (memory : Wasm.Memory) (offset : UInt32) :
    (first.slotImage? memory offset).map Image.sides =
      (second.slotImage? memory offset).map Image.sides := by
  unfold Store.slotImage?
  cases readSlot memory offset with
  | none => rfl
  | some handle => exact same.images handle

/-- What slots of one sort hold, looked up by key: the sides of the last one that counts are the
same. -/
theorem lookup_slots {α : Type} (slots : List α) (key : α → String × String) (offset : α → UInt32)
    (memory : Wasm.Memory) (category name : String) :
    ((slots.filterMap fun slot =>
        (first.slotImage? memory (offset slot)).map (key slot, ·)).reverse.lookup
          (category, name)).map Image.sides =
      ((slots.filterMap fun slot =>
        (second.slotImage? memory (offset slot)).map (key slot, ·)).reverse.lookup
          (category, name)).map Image.sides := by
  have shapes : ∀ slot, ((first.slotImage? memory (offset slot)).map (key slot, ·)).map
        (fun entry : (String × String) × Image => (entry.1, entry.2.sides)) =
      ((second.slotImage? memory (offset slot)).map (key slot, ·)).map
        fun entry => (entry.1, entry.2.sides) := by
    intro slot
    have sides := congrArg (Option.map (Prod.mk (key slot))) (same.slotImage? memory (offset slot))
    rw [Option.map_map, Option.map_map] at sides ⊢
    exact sides
  simp only [← lookup_map_value, List.map_reverse, List.map_filterMap, shapes]

/-- What is collected from the same memory has the same names and the same sides. -/
theorem collect (compiled : CompiledModule) (memory : Wasm.Memory) :
    (first.collect compiled memory).SameShapes (second.collect compiled memory) := by
  have images : ∀ category name,
      ((first.collect compiled memory).image? category name).map Image.sides =
        ((second.collect compiled memory).image? category name).map Image.sides := by
    intro category name
    rw [first.image?_collect, second.image?_collect, Option.map_or, Option.map_or]
    congr 1
    · exact same.lookup_slots _ (fun slot : MaterialSlot => (slot.material, slot.channel)) _ memory
        category name
    · exact same.lookup_slots _ (fun slot : TextureSlot => (texturesCategory, slot.name)) _ memory
        category name
  refine ⟨fun category => ?_, images⟩
  rw [(first.noneEmpty_collect compiled memory).mem_iff,
    (second.noneEmpty_collect compiled memory).mem_iff]
  have present : ∀ name, ((first.collect compiled memory).image? category name).isSome =
      ((second.collect compiled memory).image? category name).isSome := by
    intro name
    rw [← Option.isSome_map (f := Image.sides), images, Option.isSome_map]
  simp only [present]

end Store.SameShapes

/-! ## Runs -/

namespace Store

/-- The outcomes of two runs: the same fault, or exports with the same shapes. -/
inductive OutcomesAlike :
    Except Wasm.RunFault ExportedImages → Except Wasm.RunFault ExportedImages → Prop where
  | stopped (fault : Wasm.RunFault) : OutcomesAlike (.error fault) (.error fault)
  | exported {first second : ExportedImages} (same : first.SameShapes second) :
      OutcomesAlike (.ok first) (.ok second)

/-- The pixels of the images do not steer a run: on two stores that differ in them alone, a module
makes the same calls of the store with the same answers, ends with the same memory or for the same
reason, leaves stores that differ in pixels alone, and exports images with the same categories,
names and sides. -/
theorem run_ignores_pixels {first second : Store} (reachable : first.Reachable)
    (reachable' : second.Reachable) (same : first.SameShapes second) (compiled : CompiledModule)
    (capacity : Wasm.Capacity) :
    Wasm.callsOf compiled.wasm.data.toList capacity host first =
        Wasm.callsOf compiled.wasm.data.toList capacity host second ∧
      (Wasm.runBytes compiled.wasm.data.toList capacity host first).1 =
        (Wasm.runBytes compiled.wasm.data.toList capacity host second).1 ∧
      (first.run compiled capacity).2.SameShapes (second.run compiled capacity).2 ∧
      OutcomesAlike (first.run compiled capacity).1 (second.run compiled capacity).1 := by
  have related := And.intro reachable.invariant (And.intro reachable'.invariant same)
  refine ⟨Wasm.callsOf_eq_of_agree _ capacity host_agree related, ?_⟩
  obtain ⟨ending, -, -, after⟩ :=
    Wasm.agree_runBytes compiled.wasm.data.toList capacity host_agree related
  refine ⟨ending, ?_⟩
  unfold run
  generalize Wasm.runBytes compiled.wasm.data.toList capacity host first = ran at ending after ⊢
  generalize Wasm.runBytes compiled.wasm.data.toList capacity host second = ran' at ending after ⊢
  obtain ⟨ended, left⟩ := ran
  obtain ⟨_, left'⟩ := ran'
  cases ending
  cases ended with
  | error fault => exact ⟨after, .stopped fault⟩
  | ok memory => exact ⟨after, .exported (after.collect compiled memory)⟩

/-- A store with an image of one grey pixel under the name `a`. -/
def grayInput (level : UInt8) : Store :=
  serveAll {} [.addInput "a" 1 1 ⟨#[level, level, level, 255]⟩]

/-- A script that makes an image and asks for one without a column. -/
def invertAndShrink : String :=
  "x = invert_color(a); y = resize(x, 0, 1); export x, y;"

/-- On a black pixel and on a white one, the script makes the same two calls, the second of them
without success. -/
theorem run_ignores_pixels_gray :
    ∃ compiled : CompiledModule,
      (compile invertAndShrink defaultScriptName (grayInput 0).inputs).compiled = some compiled ∧
      Wasm.callsOf compiled.wasm.data.toList {} host (grayInput 255) =
        [⟨.invertColor, [0], 1⟩, ⟨.resize, [1, 0, 1], Handle.unset.toWire⟩] ∧
      ((grayInput 0).run compiled).2.SameShapes ((grayInput 255).run compiled).2 := by
  have evaluated : (compile invertAndShrink defaultScriptName (grayInput 0).inputs).compiled.map
      (fun compiled => Wasm.callsOf compiled.wasm.data.toList {} host (grayInput 0)) =
        some [⟨.invertColor, [0], 1⟩, ⟨.resize, [1, 0, 1], Handle.unset.toWire⟩] := by
    decide +kernel
  have same : (grayInput 0).SameShapes (grayInput 255) := by
    have images : ∀ level, (grayInput level).images =
        [(⟨0⟩, ⟨1, 1, ⟨#[level, level, level, 255]⟩⟩)] := fun _ => rfl
    refine ⟨rfl, rfl, rfl, rfl, fun handle => ?_⟩
    simp only [image?, images, List.lookup_cons, List.lookup_nil]
    cases handle == ⟨0⟩ with
    | true => rfl
    | false => rfl
  have reachable : ∀ level, (grayInput level).Reachable := fun _ => ⟨_, _, rfl⟩
  obtain ⟨compiled, compiles, calls⟩ := Option.map_eq_some_iff.mp evaluated
  have alike := run_ignores_pixels (reachable 0) (reachable 255) same compiled {}
  exact ⟨compiled, compiles, alike.1.symm.trans calls, alike.2.2.1⟩

end Store

end TextureScript
