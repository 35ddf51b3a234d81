import Mathlib.Order.Bounds.Basic
import Mathlib.Order.MinMax
import TextureScript.Text.EditDistance

/-!
# The edit distance counts edits

An edit inserts, deletes or replaces one character, anywhere in a text. The rows that are computed
one after the other are those of a table: its entry for two texts is found from the entries for the
texts without their last characters. Such an entry is the least number of edits between the two
texts. Following the recurrence back gives as many edits as the entry says; and no edit of the first
text changes the entry by more than one, so that fewer edits never suffice. Edits can be undone, put
one after the other and read from the other end of the texts, which gives the laws of a distance.
-/

namespace TextureScript

namespace EditDistance

/-! ## Edits -/

/-- One text becomes another by a single edit. -/
inductive Edit : List Char → List Char → Prop where
  /-- A character is inserted. -/
  | insert (before after : List Char) (c : Char) : Edit (before ++ after) (before ++ c :: after)
  /-- A character is deleted. -/
  | delete (before after : List Char) (c : Char) : Edit (before ++ c :: after) (before ++ after)
  /-- A character is replaced by one that may be any. -/
  | replace (before after : List Char) (c d : Char) :
      Edit (before ++ c :: after) (before ++ d :: after)

/-- One text becomes another by the given number of edits, one after the other. -/
inductive Edits : Nat → List Char → List Char → Prop where
  /-- No edit. -/
  | none (s : List Char) : Edits 0 s s
  /-- An edit before others. -/
  | more {count : Nat} {s t u : List Char} (first : Edit s t) (others : Edits count t u) :
      Edits (count + 1) s u

namespace Edit

variable {s t : List Char}

/-- An edit can be undone. -/
theorem symm (edit : Edit s t) : Edit t s := by
  cases edit with
  | insert before after c => exact .delete before after c
  | delete before after c => exact .insert before after c
  | replace before after c d => exact .replace before after d c

/-- An edit is an edit behind a further character. -/
theorem cons (c : Char) (edit : Edit s t) : Edit (c :: s) (c :: t) := by
  cases edit with
  | insert before after d => exact .insert (c :: before) after d
  | delete before after d => exact .delete (c :: before) after d
  | replace before after d e => exact .replace (c :: before) after d e

/-- An edit is an edit of the texts read from the other end. -/
theorem reverse (edit : Edit s t) : Edit s.reverse t.reverse := by
  cases edit with
  | insert before after c =>
    simpa using insert after.reverse before.reverse c
  | delete before after c =>
    simpa using delete after.reverse before.reverse c
  | replace before after c d =>
    simpa using replace after.reverse before.reverse c d

/-- An edit changes the length by at most one. -/
theorem length_le (edit : Edit s t) : s.length ≤ t.length + 1 := by
  cases edit with
  | insert | delete | replace =>
    simp only [List.length_append, List.length_cons]
    omega

end Edit

namespace Edits

variable {m n : Nat} {s t u : List Char}

theorem single (edit : Edit s t) : Edits 1 s t :=
  .more edit (.none t)

theorem trans (first : Edits m s t) (second : Edits n t u) : Edits (m + n) s u := by
  induction first with
  | none s => rwa [Nat.zero_add]
  | @more count _ _ _ edit _ ih =>
    have moved : count + 1 + n = count + n + 1 := by omega
    rw [moved]
    exact .more edit (ih second)

theorem symm (edits : Edits n s t) : Edits n t s := by
  induction edits with
  | none s => exact .none s
  | more edit _ ih => exact ih.trans (single edit.symm)

theorem cons (c : Char) (edits : Edits n s t) : Edits n (c :: s) (c :: t) := by
  induction edits with
  | none s => exact .none (c :: s)
  | more edit _ ih => exact .more (edit.cons c) ih

theorem reverse (edits : Edits n s t) : Edits n s.reverse t.reverse := by
  induction edits with
  | none s => exact .none s.reverse
  | more edit _ ih => exact .more edit.reverse ih

theorem reverse_iff : Edits n s.reverse t.reverse ↔ Edits n s t := by
  refine ⟨fun edits => ?_, reverse⟩
  simpa using edits.reverse

theorem eq_of_zero (edits : Edits 0 s t) : s = t := by
  cases edits with
  | none => rfl

theorem length_le (edits : Edits n s t) : s.length ≤ t.length + n := by
  induction edits with
  | none => exact Nat.le_refl _
  | more edit _ ih =>
    have first := edit.length_le
    omega

end Edits

/-! ## The table -/

/-- The entry of the table for two texts. The texts are given from their ends, as the table goes on
with one more character at the end of a text. -/
def entry : List Char → List Char → Nat
  | [], t => t.length
  | c :: s, [] => (c :: s).length
  | c :: s, d :: t =>
    min (min (entry (c :: s) t + 1) (entry s (d :: t) + 1)) (entry s t + if c = d then 0 else 1)
termination_by s t => s.length + t.length

@[simp] theorem entry_nil_left (t : List Char) : entry [] t = t.length := by
  rw [entry]

@[simp] theorem entry_nil_right (s : List Char) : entry s [] = s.length := by
  cases s with
  | nil => rw [entry]
  | cons c s => rw [entry]

theorem entry_cons_cons (c d : Char) (s t : List Char) :
    entry (c :: s) (d :: t) = min (min (entry (c :: s) t + 1) (entry s (d :: t) + 1))
      (entry s t + if c = d then 0 else 1) := by
  rw [entry]

/-- The entries of a row behind the one for `r`, as far as the second text goes on. -/
def entriesBehind (s r : List Char) : List Char → List Nat
  | [] => []
  | d :: t => entry s (d :: r) :: entriesBehind s (d :: r) t

/-- The row of the table for a text, given from its end. -/
def row (s t : List Char) : List Nat :=
  entry s [] :: entriesBehind s [] t

/-- The entries of a row come out right one after the other, if the entry to the left and the one
above that are right. -/
theorem rowFrom_entriesBehind (c : Char) (s r t : List Char) :
    rowFrom c (entry (c :: s) r) (entry s r) t (entriesBehind s r t) =
      entriesBehind (c :: s) r t := by
  induction t generalizing r with
  | nil => rfl
  | cons d t ih =>
    rw [entriesBehind, entriesBehind, rowFrom, ← entry_cons_cons]
    exact congrArg _ (ih (d :: r))

theorem nextRow_row (c : Char) (s t : List Char) : nextRow t (row s t) c = row (c :: s) t := by
  have first : entry s [] + 1 = entry (c :: s) [] := by
    rw [entry_nil_right, entry_nil_right, List.length_cons]
  rw [row, row, nextRow, first, rowFrom_entriesBehind]

theorem foldl_nextRow (p s t : List Char) :
    s.foldl (nextRow t) (row p t) = row (s.reverse ++ p) t := by
  induction s generalizing p with
  | nil => rfl
  | cons c s ih =>
    rw [List.foldl_cons, nextRow_row, ih, List.reverse_cons, List.append_assoc]
    rfl

/-- The first row counts the characters of the second text. -/
theorem row_nil (t : List Char) : row [] t = List.range (t.length + 1) := by
  have counting : ∀ r, entry [] r :: entriesBehind [] r t =
      List.range' r.length (t.length + 1) := by
    induction t with
    | nil =>
      intro r
      rw [entry_nil_left]
      rfl
    | cons d t ih =>
      intro r
      rw [entriesBehind, ih (d :: r), entry_nil_left, List.length_cons, List.length_cons]
      rfl
  rw [row, counting [], List.range_eq_range']
  rfl

theorem getLast?_entriesBehind (s r t : List Char) :
    (entry s r :: entriesBehind s r t).getLast? = some (entry s (t.reverse ++ r)) := by
  induction t generalizing r with
  | nil => rfl
  | cons d t ih =>
    rw [entriesBehind, List.getLast?_cons_cons, ih (d :: r), List.reverse_cons, List.append_assoc]
    rfl

/-- Computing row after row ends with the entry for the two texts. -/
theorem editDistance_eq_entry (s t : String) :
    editDistance s t = entry s.toList.reverse t.toList.reverse := by
  have last := getLast?_entriesBehind s.toList.reverse [] t.toList
  rw [editDistance, lastRow, ← row_nil, foldl_nextRow, List.append_nil, row, last, List.append_nil]
  rfl

/-! ## As many edits as an entry says -/

theorem edits_nil (s : List Char) : Edits s.length s [] := by
  induction s with
  | nil => exact .none []
  | cons c s ih => exact .more (.delete [] s c) ih

/-- There are as many edits between two texts as the entry for them says. -/
theorem edits_entry (s t : List Char) : Edits (entry s t) s t := by
  fun_induction entry s t with
  | case1 t => exact (edits_nil t).symm
  | case2 c s => exact edits_nil (c :: s)
  | case3 c s d t insertion deletion both =>
    have replacement : Edits (entry s t + if c = d then 0 else 1) (c :: s) (d :: t) := by
      by_cases same : c = d
      · rw [if_pos same, same]
        exact both.cons d
      · rw [if_neg same]
        exact (both.cons c).trans (.single (.replace [] t c d))
    have inserted : Edits (entry (c :: s) t + 1) (c :: s) (d :: t) :=
      insertion.trans (.single (.insert [] t d))
    have deleted : Edits (entry s (d :: t) + 1) (c :: s) (d :: t) :=
      .more (.delete [] s c) deletion
    rcases min_choice (min (entry (c :: s) t + 1) (entry s (d :: t) + 1))
      (entry s t + if c = d then 0 else 1) with least | least
    · rw [least]
      rcases min_choice (entry (c :: s) t + 1) (entry s (d :: t) + 1) with less | less
      · rwa [less]
      · rwa [less]
    · rwa [least]

/-! ## No fewer edits -/

theorem cost_le_one (c d : Char) : (if c = d then 0 else 1) ≤ 1 := by
  split
  · exact Nat.zero_le 1
  · exact Nat.le_refl 1

theorem entry_cons_left_le (c : Char) (s t : List Char) : entry (c :: s) t ≤ entry s t + 1 := by
  cases t with
  | nil => simp
  | cons d t =>
    rw [entry_cons_cons]
    omega

theorem entry_cons_right_le (d : Char) (s t : List Char) : entry s (d :: t) ≤ entry s t + 1 := by
  cases s with
  | nil => simp
  | cons c s =>
    rw [entry_cons_cons]
    omega

theorem entry_cons_cons_le (c d : Char) (s t : List Char) :
    entry (c :: s) (d :: t) ≤ entry s t + 1 := by
  have cost := cost_le_one c d
  rw [entry_cons_cons]
  omega

theorem entry_self (s : List Char) : entry s s = 0 := by
  induction s with
  | nil => simp
  | cons c s ih =>
    rw [entry_cons_cons, if_pos rfl, ih]
    omega

/-- All entries for one text are at most one above those for another. -/
def Near (s s' : List Char) : Prop :=
  ∀ t, entry s t ≤ entry s' t + 1

theorem near_delete (c : Char) (s : List Char) : Near (c :: s) s :=
  entry_cons_left_le c s

theorem near_insert (c : Char) (s : List Char) : Near s (c :: s) := by
  intro t
  induction t with
  | nil =>
    rw [entry_nil_right, entry_nil_right, List.length_cons]
    omega
  | cons d t ih =>
    have right := entry_cons_right_le d s t
    rw [entry_cons_cons]
    omega

theorem near_replace (c d : Char) (s : List Char) : Near (c :: s) (d :: s) := by
  intro t
  induction t with
  | nil =>
    rw [entry_nil_right, entry_nil_right, List.length_cons, List.length_cons]
    omega
  | cons e t ih =>
    have left := entry_cons_left_le c s (e :: t)
    have right := entry_cons_right_le e (c :: s) t
    have both := entry_cons_cons_le c e s t
    rw [entry_cons_cons d]
    omega

/-- What is near stays near behind a further character. -/
theorem Near.cons {s s' : List Char} (near : Near s s') (c : Char) : Near (c :: s) (c :: s') := by
  intro t
  induction t with
  | nil =>
    have lengths := near []
    simp only [entry_nil_right, List.length_cons] at lengths ⊢
    omega
  | cons d t ih =>
    have above := near (d :: t)
    have diagonal := near t
    rw [entry_cons_cons, entry_cons_cons]
    omega

theorem Near.append {s s' : List Char} (near : Near s s') (before : List Char) :
    Near (before ++ s) (before ++ s') := by
  induction before with
  | nil => exact near
  | cons c before ih => exact ih.cons c

/-- An edit changes no entry by more than one. -/
theorem Edit.near {s s' : List Char} (edit : Edit s s') : Near s s' := by
  cases edit with
  | insert before after c => exact (near_insert c after).append before
  | delete before after c => exact (near_delete c after).append before
  | replace before after c d => exact (near_replace c d after).append before

/-- An entry is at most the number of any edits between the two texts. -/
theorem Edits.entry_le {n : Nat} {s t : List Char} (edits : Edits n s t) : entry s t ≤ n := by
  induction edits with
  | none s => exact Nat.le_of_eq (entry_self s)
  | @more count s t u edit _ ih =>
    have first := edit.near u
    omega

theorem entry_le_max (s t : List Char) : entry s t ≤ max s.length t.length := by
  fun_induction entry s t with
  | case1 t => exact Nat.le_max_right _ _
  | case2 c s => exact Nat.le_max_left _ _
  | case3 c s d t _ _ both =>
    have cost := cost_le_one c d
    simp only [List.length_cons] at both ⊢
    omega

/-! ## The distance -/

/-- The distance of two texts is the least number of edits between them. -/
theorem isLeast_editDistance (s t : String) :
    IsLeast {count | Edits count s.toList t.toList} (editDistance s t) := by
  rw [editDistance_eq_entry]
  constructor
  · exact Edits.reverse_iff.mp (edits_entry _ _)
  · intro count edits
    exact (Edits.reverse edits).entry_le

end EditDistance

open EditDistance

/-- The edit distance of two texts is the least number of insertions, deletions and replacements of
single characters that turn one into the other. So it is zero for equal texts only, the same in both
directions and never longer than by way of a third text; and it is at least the difference of the
two numbers of characters and at most the greater one. -/
theorem editDistance_counts_edits (s t : String) :
    IsLeast {count | Edits count s.toList t.toList} (editDistance s t) ∧
      (editDistance s t = 0 ↔ s = t) ∧
      editDistance s t = editDistance t s ∧
      (∀ u : String, editDistance s u ≤ editDistance s t + editDistance t u) ∧
      max s.length t.length - min s.length t.length ≤ editDistance s t ∧
      editDistance s t ≤ max s.length t.length := by
  have edits (s t : String) : Edits (editDistance s t) s.toList t.toList :=
    (isLeast_editDistance s t).1
  have least (s t : String) {count : Nat} (others : Edits count s.toList t.toList) :
      editDistance s t ≤ count := (isLeast_editDistance s t).2 others
  refine ⟨isLeast_editDistance s t, ⟨fun zero => ?_, ?_⟩, ?_, fun u => ?_, ?_, ?_⟩
  · have none := edits s t
    rw [zero] at none
    exact String.toList_inj.mp none.eq_of_zero
  · rintro rfl
    exact Nat.le_zero.mp (least s s (.none s.toList))
  · exact Nat.le_antisymm (least s t (edits t s).symm) (least t s (edits s t).symm)
  · exact least s u ((edits s t).trans (edits t u))
  · have there := (edits s t).length_le
    have back := (edits s t).symm.length_le
    rw [String.length_toList, String.length_toList] at there back
    omega
  · have bound := entry_le_max s.toList.reverse t.toList.reverse
    rw [← editDistance_eq_entry, List.length_reverse, List.length_reverse, String.length_toList,
      String.length_toList] at bound
    exact bound

example : editDistance "kitten" "sitting" = 3 := by decide

end TextureScript
