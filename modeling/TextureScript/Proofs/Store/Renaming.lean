import Mathlib.Data.List.Find
import TextureScript.Proofs.Store.History

/-!
# Renaming inputs

A granted request to rename an input changes one entry of the list of inputs and nothing else: the
names of inputs are distinct, so the entry that a name finds is the only one that has it. Every
other name therefore finds what it found before, at the same place. A request is answered before it
is known whether there is such an input when both names are the same, so a name that no input has
can be renamed to itself; this is the only request that is granted although it should be refused.
-/

namespace TextureScript

/-- An input under another name, if it has the old one. -/
def InputImage.rename (old new : String) (input : InputImage) : InputImage :=
  if input.name = old then { input with name := new } else input

namespace InputImage

variable {old new : String}

theorem name_rename (input : InputImage) :
    (input.rename old new).name = if input.name = old then new else input.name := by
  unfold rename
  split <;> rfl

theorem handle_rename (input : InputImage) : (input.rename old new).handle = input.handle := by
  unfold rename
  split <;> rfl

/-- A name apart from the two is given to an input neither by renaming nor taken from it. -/
theorem name_rename_eq {name : String} (notOld : name ≠ old) (notNew : name ≠ new)
    (input : InputImage) : (input.rename old new).name = name ↔ input.name = name := by
  rw [name_rename]
  by_cases isOld : input.name = old
  · rw [if_pos isOld, isOld]
    exact ⟨fun same => absurd same.symm notNew, fun same => absurd same.symm notOld⟩
  · rw [if_neg isOld]

/-- Where the new name was free, an input has it after renaming if it had the old one before. -/
theorem name_rename_eq_new (input : InputImage) (free : input.name ≠ new) :
    (input.rename old new).name = new ↔ input.name = old := by
  rw [name_rename]
  by_cases isOld : input.name = old
  · rw [if_pos isOld]
    exact ⟨fun _ => isOld, fun _ => rfl⟩
  · rw [if_neg isOld]
    exact ⟨fun same => absurd same free, fun same => absurd same isOld⟩

/-- When names are distinct, renaming changes the entry with the old name, and only that. -/
theorem map_rename_eq_set {inputs : List InputImage} (distinct : (inputs.map (·.name)).Nodup)
    {place : Nat} {handle : Handle} (here : inputs[place]? = some ⟨old, handle⟩) :
    inputs.map (rename old new) = inputs.set place ⟨new, handle⟩ := by
  have inside : place < inputs.length := (List.getElem?_eq_some_iff.mp here).1
  apply List.ext_getElem?
  intro i
  rw [List.getElem?_map, List.getElem?_set]
  by_cases same : place = i
  · subst same
    rw [if_pos rfl, if_pos inside, here]
    exact congrArg some (if_pos rfl)
  · rw [if_neg same]
    cases found : inputs[i]? with
    | none => rfl
    | some input =>
      -- an input at another place with the old name would make the names repeat
      have other : input.name ≠ old := by
        intro isOld
        have first : (inputs.map (·.name))[place]? = some old := by
          rw [List.getElem?_map, here, Option.map_some]
        have second : (inputs.map (·.name))[i]? = some old := by
          rw [List.getElem?_map, found, Option.map_some, isOld]
        have bound : place < (inputs.map (·.name)).length := by rwa [List.length_map]
        exact same ((List.getElem?_inj bound distinct).mp (first.trans second.symm))
      exact congrArg some (if_neg other)

end InputImage

namespace Store

variable {store after : Store} {old new : String}

/-! ## What a request to rename does -/

/-- The four outcomes of a request to rename, in the order in which they are decided. -/
theorem renameInput_cases (store : Store) (old new : String) :
    (old = new ∧ store.renameInput old new = .ok store) ∨
    (old ≠ new ∧ store.containsInput new = true ∧
      store.renameInput old new = .error (.nameTaken new)) ∨
    (old ≠ new ∧ store.containsInput new = false ∧ store.containsInput old = true ∧
      store.renameInput old new =
        .ok { store with inputs := store.inputs.map (.rename old new) }) ∨
    (old ≠ new ∧ store.containsInput new = false ∧ store.containsInput old = false ∧
      store.renameInput old new = .error (.unknownInput old)) := by
  unfold renameInput
  by_cases same : old = new
  · exact .inl ⟨same, if_pos same⟩
  rw [if_neg same]
  cases taken : store.containsInput new with
  | true => exact .inr (.inl ⟨same, rfl, rfl⟩)
  | false =>
    cases known : store.containsInput old with
    | true => exact .inr (.inr (.inl ⟨same, rfl, rfl, rfl⟩))
    | false => exact .inr (.inr (.inr ⟨same, rfl, rfl, rfl⟩))

theorem containsInput_eq_false {name : String} :
    store.containsInput name = false ↔ ∀ input ∈ store.inputs, input.name ≠ name := by
  simp only [containsInput, inputHandle?, Option.isSome_map, Bool.eq_false_iff, ne_eq,
    List.find?_isSome, beq_iff_eq, not_exists, not_and]

/-- What a granted request to rename an input leaves behind. -/
structure Renamed (store : Store) (old new : String) (after : Store) : Prop where
  /-- The new name has the handle that the old one had. -/
  handle : after.inputHandle? new = store.inputHandle? old
  /-- The old name is free, unless it is the new one. -/
  gone : old ≠ new → after.containsInput old = false
  /-- Every other name has the handle that it had, at the place that it had. -/
  others : ∀ name, name ≠ old → name ≠ new →
    after.inputHandle? name = store.inputHandle? name ∧
      after.inputNames.idxOf? name = store.inputNames.idxOf? name
  /-- The entry of the input is changed in its place, and no other entry is. -/
  inPlace : ∀ place handle, store.inputs[place]? = some ⟨old, handle⟩ →
    after.inputs = store.inputs.set place ⟨new, handle⟩
  /-- Nothing but the inputs changes. -/
  rest : after = { store with inputs := after.inputs }

/-- Renaming an input to itself leaves behind what it should. -/
theorem renamed_self (store : Store) (name : String) : store.Renamed name name store where
  handle := rfl
  gone := fun different => absurd rfl different
  others := fun _ _ _ => ⟨rfl, rfl⟩
  inPlace := by
    intro place handle here
    obtain ⟨inside, entry⟩ := List.getElem?_eq_some_iff.mp here
    rw [← entry, List.set_getElem_self]
  rest := rfl

/-- Looking a name up among renamed inputs is looking up the inputs that are renamed to it. -/
theorem inputHandle?_rename (inputs : List InputImage) (old new name : String) :
    inputHandle? { store with inputs := inputs.map (.rename old new) } name =
      (inputs.find? fun input => (input.rename old new).name == name).map (·.handle) := by
  simp only [inputHandle?, List.find?_map, Option.map_map]
  congr 1
  funext input
  exact input.handle_rename

theorem renamed_map (distinct : (store.inputs.map (·.name)).Nodup) (different : old ≠ new)
    (free : store.containsInput new = false) :
    store.Renamed old new { store with inputs := store.inputs.map (.rename old new) } where
  handle := by
    have free := containsInput_eq_false.mp free
    rw [inputHandle?_rename, inputHandle?]
    congr 1
    apply List.find?_congr
    intro input member
    simp only [InputImage.name_rename_eq_new input (free input member), Bool.beq_eq_decide_eq]
  gone := by
    intro _
    rw [containsInput_eq_false]
    intro input member
    obtain ⟨original, -, rfl⟩ := List.mem_map.mp member
    rw [InputImage.name_rename]
    by_cases isOld : original.name = old
    · rw [if_pos isOld]
      exact different.symm
    · rw [if_neg isOld]
      exact isOld
  others := by
    intro name notOld notNew
    constructor
    · rw [inputHandle?_rename, inputHandle?]
      simp only [Bool.beq_eq_decide_eq, InputImage.name_rename_eq notOld notNew]
    · simp only [inputNames, List.idxOf?, List.map_map, List.findIdx?_map]
      congr 1
      funext input
      simp only [Function.comp_apply, Bool.beq_eq_decide_eq,
        InputImage.name_rename_eq notOld notNew]
  inPlace := fun _ _ here => InputImage.map_rename_eq_set distinct here
  rest := rfl

/-! ## Renaming is exact but for one request -/

/-- What is expected of a request to rename an input. -/
structure RenamesExactly (store : Store) (old new : String) : Prop where
  /-- It is granted exactly for the name of an input, and a name that is the same or free. -/
  granted : (∃ after, store.renameInput old new = .ok after) ↔
    store.containsInput old = true ∧ (new = old ∨ store.containsInput new = false)
  /-- Once it is granted, the input has the new name and all else is as it was. -/
  renamed : ∀ after, store.renameInput old new = .ok after → store.Renamed old new after
  /-- It is refused for a name that no input has, and leaves the store as it is. -/
  refused : store.containsInput old = false →
    (∃ fault, store.renameInput old new = .error fault) ∧
      store.serve (.renameInput old new) = store

/-- A granted request leaves behind what it should. -/
theorem renamed_of_renameInput (distinct : (store.inputs.map (·.name)).Nodup)
    (granted : store.renameInput old new = .ok after) : store.Renamed old new after := by
  rcases store.renameInput_cases old new with
    ⟨rfl, outcome⟩ | ⟨-, -, outcome⟩ | ⟨different, free, -, outcome⟩ | ⟨-, -, -, outcome⟩
  · rw [outcome] at granted
    cases granted
    exact store.renamed_self old
  · rw [outcome] at granted
    cases granted
  · rw [outcome] at granted
    cases granted
    exact renamed_map distinct different free
  · rw [outcome] at granted
    cases granted

/-- A request that is refused leaves the store as it is. -/
theorem serve_renameInput_of_error {fault : StoreFault}
    (refused : store.renameInput old new = .error fault) :
    store.serve (.renameInput old new) = store := by
  simp only [serve, refused, Except.map, settle]

/-- A request with two different names does what is expected of it. -/
theorem renamesExactly_of_ne (distinct : (store.inputs.map (·.name)).Nodup)
    (different : old ≠ new) : store.RenamesExactly old new := by
  have renamed : ∀ after, store.renameInput old new = .ok after → store.Renamed old new after :=
    fun _ granted => renamed_of_renameInput distinct granted
  rcases store.renameInput_cases old new with
    ⟨same, -⟩ | ⟨-, taken, outcome⟩ | ⟨-, free, known, outcome⟩ | ⟨-, free, unknown, outcome⟩
  · exact absurd same different
  · refine ⟨?_, renamed, fun _ => ⟨⟨_, outcome⟩, serve_renameInput_of_error outcome⟩⟩
    simp [outcome, taken, different.symm]
  · refine ⟨?_, renamed, fun unknown => ?_⟩
    · simp [outcome, free, known]
    · rw [known] at unknown
      cases unknown
  · refine ⟨?_, renamed, fun _ => ⟨⟨_, outcome⟩, serve_renameInput_of_error outcome⟩⟩
    simp [outcome, unknown]

/-- Renaming does what is expected of it, unless a name that no input has is renamed to itself. A
name is always renamed to itself, and nothing changes. -/
theorem renamesExactly_iff (reachable : store.Reachable) (old new : String) :
    (store.RenamesExactly old new ↔ (old = new → store.containsInput old = true)) ∧
      (old = new → store.renameInput old new = .ok store) := by
  have unchanged : old = new → store.renameInput old new = .ok store := fun same => if_pos same
  refine ⟨⟨?_, ?_⟩, unchanged⟩
  · intro expected same
    exact (expected.granted.mp ⟨store, unchanged same⟩).1
  · intro known
    by_cases same : old = new
    · have granted := unchanged same
      have registered := known same
      subst same
      refine ⟨?_, fun _ => renamed_of_renameInput reachable.invariant.inputNames, ?_⟩
      · simp [granted, registered]
      · intro unknown
        rw [registered] at unknown
        cases unknown
    · exact renamesExactly_of_ne reachable.invariant.inputNames same

/-- A store with two inputs. -/
def twoNames : Store :=
  serveAll {} [.addInput "a" 1 1 ⟨#[0, 0, 0, 255]⟩, .addInput "b" 1 1 ⟨#[9, 9, 9, 255]⟩]

/-- The first of two inputs is renamed to a free name, and to its own; the name of the second, and
an unknown name, are refused. -/
theorem renamesExactly_iff_twoNames :
    twoNames.Reachable ∧ twoNames.RenamesExactly "a" "c" ∧ twoNames.RenamesExactly "a" "a" ∧
      twoNames.RenamesExactly "a" "b" ∧ twoNames.RenamesExactly "c" "d" := by
  have reachable : twoNames.Reachable := ⟨{}, _, rfl⟩
  refine ⟨reachable, ?_, ?_, ?_, ?_⟩
  · exact (renamesExactly_iff reachable "a" "c").1.mpr (by decide)
  · exact (renamesExactly_iff reachable "a" "a").1.mpr fun _ => rfl
  · exact (renamesExactly_iff reachable "a" "b").1.mpr (by decide)
  · exact (renamesExactly_iff reachable "c" "d").1.mpr (by decide)

/-- An empty store grants the request to rename an input to its own name, although there is none. -/
theorem not_renamesExactly_unknownName :
    Reachable {} ∧ containsInput {} "a" = false ∧ renameInput {} "a" "a" = .ok {} ∧
      ¬RenamesExactly {} "a" "a" := by
  refine ⟨⟨{}, [], rfl⟩, rfl, rfl, ?_⟩
  intro expected
  have registered := (expected.granted.mp ⟨_, rfl⟩).1
  cases registered

end Store

end TextureScript
