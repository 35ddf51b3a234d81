import Mathlib.Order.Lattice.Nat
import TextureScript.Proofs.Text.EditDistance

/-!
# The nearest name

Names that are too far from what was written, or are what was written, are left out before the
nearest one is looked for. This does not change which one is found: a name that is too far is
farther than any that is near enough. The search goes along the list and changes its mind only for a
name that is strictly nearer, so it ends with the first of the nearest ones.
-/

namespace TextureScript

namespace NearName

/-- The least number of edits that turn one text into another. -/
noncomputable def fewestEdits (s t : String) : Nat :=
  sInf {count | EditDistance.Edits count s.toList t.toList}

theorem editDistance_eq_fewestEdits (s t : String) : editDistance s t = fewestEdits s t :=
  (EditDistance.isLeast_editDistance s t).csInf_eq.symm

/-- A third of the characters of what was written, but not less than one and not more than three. -/
def farthest (query : String) : Nat :=
  max 1 (min 3 (query.length / 3))

theorem tolerance_eq_farthest (query : String) : tolerance query = farthest query := by
  unfold tolerance farthest
  omega

/-- A candidate other than what was written that is nearest to it, and the earliest of these. -/
structure IsFirstNearest (query : String) (candidates : List String) (name : String) : Prop where
  /-- It is not what was written. -/
  other : name ≠ query
  /-- No candidate other than what was written is nearer. -/
  nearest : ∀ candidate ∈ candidates, candidate ≠ query →
    fewestEdits query name ≤ fewestEdits query candidate
  /-- It is a candidate, and those before it are farther or are what was written. -/
  first : ∃ before after, candidates = before ++ name :: after ∧
    ∀ candidate ∈ before, candidate ≠ query →
      fewestEdits query name < fewestEdits query candidate

/-! ## The search along a list -/

/-- A measured candidate is less far than those before it and not farther than those behind it. -/
def FirstLeast (measured : List (Nat × String)) (best : Nat × String) : Prop :=
  ∃ before after, measured = before ++ best :: after ∧
    (∀ m ∈ before, best.1 < m.1) ∧ ∀ m ∈ after, best.1 ≤ m.1

/-- One more candidate is measured against the best one so far. -/
theorem FirstLeast.nearer {measured : List (Nat × String)} {best : Nat × String}
    (found : FirstLeast measured best) (candidate : Nat × String) :
    ∃ next, nearer (some best) candidate = some next ∧
      FirstLeast (measured ++ [candidate]) next := by
  obtain ⟨before, after, rfl, farther, notNearer⟩ := found
  by_cases less : candidate.1 < best.1
  · refine ⟨candidate, if_pos less, before ++ best :: after, [], rfl, ?_, nofun⟩
    intro m member
    rcases List.mem_append.mp member with earlier | later
    · exact Nat.lt_trans less (farther m earlier)
    · rcases List.mem_cons.mp later with rfl | behind
      · exact less
      · exact Nat.lt_of_lt_of_le less (notNearer m behind)
  · refine ⟨best, if_neg less, before, after ++ [candidate], by simp, farther, ?_⟩
    intro m member
    rcases List.mem_append.mp member with behind | last
    · exact notNearer m behind
    · rw [List.mem_singleton.mp last]
      exact Nat.le_of_not_lt less

theorem FirstLeast.foldl {measured : List (Nat × String)} {best : Nat × String}
    (found : FirstLeast measured best) (others : List (Nat × String)) :
    ∃ last, others.foldl NearName.nearer (some best) = some last ∧
      FirstLeast (measured ++ others) last := by
  induction others generalizing measured best with
  | nil => exact ⟨best, rfl, by rwa [List.append_nil]⟩
  | cons candidate others ih =>
    obtain ⟨next, chosen, foundNext⟩ := found.nearer candidate
    obtain ⟨last, rest, foundLast⟩ := ih foundNext
    rw [List.append_assoc] at foundLast
    exact ⟨last, by rw [List.foldl_cons, chosen, rest], foundLast⟩

theorem exists_firstLeast {measured : List (Nat × String)} (some : measured ≠ []) :
    ∃ best, measured.foldl nearer none = .some best ∧ FirstLeast measured best := by
  obtain ⟨candidate, others, rfl⟩ := List.exists_cons_of_ne_nil some
  have alone : FirstLeast [candidate] candidate := ⟨[], [], rfl, nofun, nofun⟩
  exact alone.foldl others

/-! ## Candidates that are near enough -/

/-- A candidate with its distance, if it is near enough and not what was written. -/
def measure? (query candidate : String) : Option (Nat × String) :=
  if candidate ≠ query ∧ editDistance query candidate ≤ tolerance query then
    some (editDistance query candidate, candidate)
  else none

variable {query candidate : String} {candidates : List String}

theorem measure?_eq_some {measured : Nat × String} :
    measure? query candidate = some measured ↔
      (candidate ≠ query ∧ editDistance query candidate ≤ tolerance query) ∧
        (editDistance query candidate, candidate) = measured := by
  rw [measure?, Option.ite_none_right_eq_some, Option.some.injEq]

/-- A candidate that is left out is too far, or is what was written. -/
theorem tolerance_lt_of_measure? (left : measure? query candidate = none)
    (other : candidate ≠ query) : tolerance query < editDistance query candidate := by
  apply Nat.lt_of_not_le
  intro near
  have kept := measure?_eq_some.mpr ⟨⟨other, near⟩, rfl⟩
  rw [left] at kept
  cases kept

/-- The search goes along the candidates that are near enough. -/
theorem nearestName_eq_foldl (query : String) (candidates : List String) :
    nearestName query candidates =
      ((candidates.filterMap (measure? query)).foldl nearer none).map (·.2) := by
  have kept : ((candidates.filter (· != query)).map fun candidate =>
      (editDistance query candidate, candidate)).filter (·.1 ≤ tolerance query) =
        candidates.filterMap (measure? query) := by
    induction candidates with
    | nil => rfl
    | cons candidate candidates ih =>
      by_cases same : candidate = query
      · simp [measure?, same, ← ih]
      · by_cases near : editDistance query candidate ≤ tolerance query
        · simp [measure?, same, near, ← ih]
        · simp [measure?, same, near, ← ih]
  rw [nearestName, kept]

theorem filterMap_measure?_eq_nil (query : String) (candidates : List String) :
    candidates.filterMap (measure? query) = [] ↔
      ¬∃ candidate ∈ candidates, candidate ≠ query ∧
        editDistance query candidate ≤ tolerance query := by
  rw [List.filterMap_eq_nil_iff]
  constructor
  · rintro left ⟨candidate, member, other, near⟩
    have far := tolerance_lt_of_measure? (left candidate member) other
    omega
  · intro none candidate member
    exact if_neg fun near => none ⟨candidate, member, near⟩

/-- The first of the least distances among candidates that are near enough is the first of the least
among all. -/
theorem FirstLeast.isFirstNearest {best : Nat × String}
    (found : FirstLeast (candidates.filterMap (measure? query)) best) :
    IsFirstNearest query candidates best.2 := by
  obtain ⟨farther, notNearer, kept, less, least⟩ := found
  obtain ⟨front, back, rfl, rfl, later⟩ := List.filterMap_eq_append_iff.mp kept
  obtain ⟨left, name, after, rfl, leftOut, measured, rfl⟩ := List.filterMap_eq_cons_iff.mp later
  obtain ⟨⟨other, near⟩, rfl⟩ := measure?_eq_some.mp measured
  have before : ∀ candidate ∈ front ++ left, candidate ≠ query →
      editDistance query name < editDistance query candidate := by
    intro candidate member different
    cases kind : measure? query candidate with
    | none => exact Nat.lt_of_le_of_lt near (tolerance_lt_of_measure? kind different)
    | some m =>
      -- what was measured before the name stands in front of what was left out
      rcases List.mem_append.mp member with inFront | inLeft
      · obtain ⟨-, rfl⟩ := measure?_eq_some.mp kind
        exact less _ (List.mem_filterMap.mpr ⟨candidate, inFront, kind⟩)
      · rw [leftOut candidate inLeft] at kind
        cases kind
  have behind : ∀ candidate ∈ after, candidate ≠ query →
      editDistance query name ≤ editDistance query candidate := by
    intro candidate member different
    cases kind : measure? query candidate with
    | none => exact Nat.le_of_lt (Nat.lt_of_le_of_lt near (tolerance_lt_of_measure? kind different))
    | some m =>
      obtain ⟨-, rfl⟩ := measure?_eq_some.mp kind
      exact least _ (List.mem_filterMap.mpr ⟨candidate, member, kind⟩)
  simp only [editDistance_eq_fewestEdits] at before behind
  refine ⟨other, fun candidate member different => ?_, front ++ left, after, by simp, before⟩
  rw [← List.append_assoc] at member
  rcases List.mem_append.mp member with earlier | later
  · exact Nat.le_of_lt (before candidate earlier different)
  · rcases List.mem_cons.mp later with rfl | last
    · exact Nat.le_refl _
    · exact behind candidate last different

/-- There is no nearest name exactly when no candidate other than what was written is within a third
of its characters, at least one and at most three. Otherwise the nearest name is the first of the
candidates that are nearest to what was written among all that differ from it. -/
theorem nearestName_first (query : String) (candidates : List String) :
    (nearestName query candidates = none ↔
      ¬∃ candidate ∈ candidates, candidate ≠ query ∧
        fewestEdits query candidate ≤ farthest query) ∧
      ((∃ candidate ∈ candidates, candidate ≠ query ∧
        fewestEdits query candidate ≤ farthest query) →
          ∃ name, nearestName query candidates = some name ∧
            IsFirstNearest query candidates name) := by
  have empty := filterMap_measure?_eq_nil query candidates
  simp only [editDistance_eq_fewestEdits, tolerance_eq_farthest] at empty
  have found : candidates.filterMap (measure? query) ≠ [] →
      ∃ name, nearestName query candidates = some name ∧
        IsFirstNearest query candidates name := by
    intro nonempty
    obtain ⟨best, chosen, least⟩ := exists_firstLeast nonempty
    refine ⟨best.2, ?_, least.isFirstNearest⟩
    rw [nearestName_eq_foldl, chosen, Option.map_some]
  refine ⟨?_, fun near => found fun none => empty.mp none near⟩
  rw [← empty]
  constructor
  · intro none
    by_contra nonempty
    obtain ⟨name, chosen, -⟩ := found nonempty
    rw [none] at chosen
    cases chosen
  · intro none
    rw [nearestName_eq_foldl, none]
    rfl

example : nearestName "flip" ["flop", "flip", "flap", "flips"] = some "flop" := by decide

end NearName

end TextureScript
