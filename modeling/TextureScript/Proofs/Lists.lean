/-!
# Lists that grow at the end

Plans and scripts grow by one item at the end. An item of the longer list is the new one or an old
one, and the items stay distinct exactly when the new one is not among the old ones.
-/

namespace TextureScript

/-- An item of a list with a last one is the last one, or among the others. -/
theorem concat_eq_append_cons_iff {α : Type} {items earlier later : List α} {last item : α} :
    items ++ [last] = earlier ++ item :: later ↔
      (earlier = items ∧ item = last ∧ later = []) ∨
        ∃ others, later = others ++ [last] ∧ items = earlier ++ item :: others := by
  constructor
  · intro split
    rcases List.eq_nil_or_concat later with rfl | ⟨others, final, rfl⟩
    · obtain ⟨rfl, same⟩ := List.append_inj' split rfl
      cases same
      exact .inl ⟨rfl, rfl, rfl⟩
    · have split' : items ++ [last] = (earlier ++ item :: others) ++ [final] := by
        simpa using split
      obtain ⟨rfl, same⟩ := List.append_inj' split' rfl
      cases same
      exact .inr ⟨others, by simp, rfl⟩
  · rintro (⟨rfl, rfl, rfl⟩ | ⟨others, rfl, rfl⟩)
    · rfl
    · simp

theorem nodup_concat_iff {α : Type} {items : List α} {item : α} :
    (items ++ [item]).Nodup ↔ items.Nodup ∧ item ∉ items := by
  rw [List.nodup_append]
  constructor
  · rintro ⟨distinct, -, apart⟩
    exact ⟨distinct, fun member => apart item member item (List.mem_singleton_self item) rfl⟩
  · rintro ⟨distinct, unlisted⟩
    refine ⟨distinct, by simp, ?_⟩
    rintro other member last isLast rfl
    exact unlisted (List.mem_singleton.mp isLast ▸ member)

/-- What holds of all items and of a new one holds of all items with the new one. -/
theorem forall_mem_push {α : Type} {Good : α → Prop} {done : Array α} {value : α}
    (before : ∀ earlier ∈ done.toList, Good earlier) (good : Good value) :
    ∀ item ∈ (done.push value).toList, Good item := by
  intro item member
  rw [Array.toList_push] at member
  rcases List.mem_append.mp member with earlier | last
  · exact before item earlier
  · rw [List.mem_singleton.mp last]
    exact good

end TextureScript
