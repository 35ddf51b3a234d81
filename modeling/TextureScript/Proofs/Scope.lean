import Mathlib.Data.List.Induction
import Std.Data.TreeMap.Lemmas
import TextureScript.Plan
import TextureScript.Scope

/-!
# What names stand for

A scope is seen through its look-up. The inputs are there from the start, under their names, and a
name is bound exactly when it has no meaning yet.
-/

namespace TextureScript

/-- The operand that a symbol stands for, with its kind. -/
def Symbol.operand? : Symbol → Option (Operand × Kind)
  | .input handle => some (.input handle, .image)
  | .bound index kind => some (.result index, kind)
  | .poisoned => none

/-- The image that a name stands for among some inputs; of two inputs with one name the later
counts. -/
def InputImage.assigned (inputs : List InputImage) (name : String) : Option Handle :=
  (inputs.reverse.find? (·.name == name)).map (·.handle)

theorem InputImage.assigned_eq_none {inputs : List InputImage} {name : String} :
    assigned inputs name = none ↔ name ∉ inputs.map (·.name) := by
  simp [assigned]

namespace Scope

/-- Binding a name gives it a meaning, and leaves the others. -/
theorem lookup_define {scope defined : Scope} {name : String} {symbol : Symbol} {span : Span}
    (ok : scope.define name symbol span = .ok defined) (other : String) :
    defined.lookup other = if other = name then some symbol else scope.lookup other := by
  unfold define at ok
  split at ok
  · cases ok
  · cases ok
  · cases ok
    unfold lookup
    rw [Std.TreeMap.getElem?_insert]
    by_cases same : name = other
    · simp [same]
    · simp [same, Ne.symm same]

/-- An input is found under its name, when no other input has it. -/
theorem lookup_ofInputs {inputs : List InputImage} (distinct : (inputs.map (·.name)).Nodup)
    (name : String) :
    (ofInputs inputs).lookup name =
      (inputs.find? (·.name == name)).map fun input => .input input.handle := by
  -- the entries that are there count for the names that no input has
  have entries : ∀ entries : Std.TreeMap String Entry,
      (inputs.foldl (fun entries i => entries.insert i.name ⟨.input i.handle, none⟩)
        entries)[name]? =
        ((inputs.find? (·.name == name)).map fun i => ⟨.input i.handle, none⟩).or
          entries[name]? := by
    induction inputs with
    | nil => simp
    | cons input inputs ih =>
      intro entries
      obtain ⟨unlisted, distinct⟩ := List.nodup_cons.mp distinct
      rw [List.foldl_cons, ih distinct, Std.TreeMap.getElem?_insert, List.find?_cons]
      by_cases same : input.name = name
      · have absent : inputs.find? (·.name == name) = none := by
          rw [List.find?_eq_none]
          intro other member equal
          exact unlisted (List.mem_map.mpr ⟨other, member, (eq_of_beq equal).trans same.symm⟩)
        simp [same, absent]
      · have differs : (input.name == name) = false := beq_false_of_ne same
        simp [same, differs]
  have found := entries {}
  simp only [Std.TreeMap.getElem?_emptyc, Option.or_none] at found
  unfold lookup ofInputs
  rw [found, Option.map_map]
  rfl

/-- What an input name stands for is given by the last input that has it. -/
theorem entries_ofInputs (inputs : List InputImage) (name : String) :
    (ofInputs inputs).entries[name]? =
      (InputImage.assigned inputs name).map fun handle => ⟨.input handle, none⟩ := by
  -- taking the inputs from the back, the last insertion is the one that counts
  induction inputs using List.reverseRecOn with
  | nil => simp [ofInputs, InputImage.assigned]
  | append_singleton inputs input ih =>
    simp only [ofInputs, InputImage.assigned] at ih ⊢
    simp only [List.foldl_append, List.foldl_cons, List.foldl_nil, List.reverse_append,
      List.reverse_cons, List.reverse_nil, List.nil_append, List.singleton_append, List.find?_cons]
    rw [Std.TreeMap.getElem?_insert, ih]
    by_cases same : input.name = name
    · simp [same]
    · have differs : (input.name == name) = false := beq_false_of_ne same
      simp [same, differs]

/-- The names with a meaning at the start are those of the inputs. -/
theorem lookup_ofInputs_cases (inputs : List InputImage) (name : String) :
    (name ∈ inputs.map (·.name) ∧ ∃ handle, (ofInputs inputs).lookup name = some (.input handle)) ∨
      (name ∉ inputs.map (·.name) ∧ (ofInputs inputs).lookup name = none) := by
  unfold lookup
  rw [entries_ofInputs]
  cases assigned : InputImage.assigned inputs name with
  | none => exact .inr ⟨InputImage.assigned_eq_none.mp assigned, rfl⟩
  | some handle =>
    refine .inl ⟨?_, handle, rfl⟩
    by_contra unlisted
    rw [InputImage.assigned_eq_none.mpr unlisted] at assigned
    cases assigned

/-- A name that is bound had no meaning. -/
theorem lookup_eq_none_of_ok {scope defined : Scope} {name : String} {symbol : Symbol} {span : Span}
    (ok : scope.define name symbol span = .ok defined) : scope.lookup name = none := by
  unfold define at ok
  unfold lookup
  split at ok
  · cases ok
  · cases ok
  · simp [*]

/-- A name that cannot be bound has a meaning. -/
theorem lookup_ne_none_of_error {scope : Scope} {name : String} {symbol : Symbol} {span : Span}
    {conflict : Conflict} (failed : scope.define name symbol span = .error conflict) :
    scope.lookup name ≠ none := by
  unfold define at failed
  unfold lookup
  split at failed
  · simp [*]
  · simp [*]
  · cases failed

end Scope

end TextureScript
