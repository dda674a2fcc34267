import Mathlib.Data.List.Induction

/-!
# In the order in which they are first seen

`List.eraseDups` keeps of each element the first. What one more element at the end does to it (`eraseDups_concat`) is
what an induction over a history needs, where the last call or write comes last.
-/

namespace FeedQuery

section FirstSeen

variable {α β : Type} [DecidableEq α] [DecidableEq β]

/-- An element at the end is new, or it was seen. -/
theorem eraseDups_concat (l : List α) (a : α) :
    (l ++ [a]).eraseDups = if a ∈ l then l.eraseDups else l.eraseDups ++ [a] := by
  rw [List.eraseDups_append]
  by_cases h : a ∈ l <;> simp [h, List.removeAll, List.eraseDups_cons]

theorem nodup_eraseDups (l : List α) : l.eraseDups.Nodup := by
  induction l using List.reverseRecOn with
  | nil => exact List.nodup_nil
  | append_singleton l a ih =>
    rw [eraseDups_concat]
    split
    · exact ih
    · next h =>
      refine List.nodup_append.2 ⟨ih, by simp, fun b hb c hc he => h ?_⟩
      rw [← List.mem_singleton.1 hc, ← he]
      exact List.mem_eraseDups.1 hb

/-- What different elements are read as is different where no two of them are read alike. -/
theorem filterMap_eraseDups {f : α → Option β} (hf : ∀ a b u, f a = some u → f b = some u → a = b) (l : List α) :
    l.eraseDups.filterMap f = (l.filterMap f).eraseDups := by
  induction l using List.reverseRecOn with
  | nil => rfl
  | append_singleton l a ih =>
    rw [eraseDups_concat, List.filterMap_append]
    cases ha : f a with
    | none => split <;> simp [ih, ha]
    | some u =>
      have hmem : u ∈ l.filterMap f ↔ a ∈ l := by
        rw [List.mem_filterMap]
        exact ⟨fun ⟨b, hb, hu⟩ => hf b a u hu ha ▸ hb, fun h => ⟨a, h, ha⟩⟩
      simp only [List.filterMap_cons, ha, List.filterMap_nil, eraseDups_concat, hmem]
      split
      · exact ih
      · rw [List.filterMap_append, ih]
        simp [ha]

end FirstSeen

end FeedQuery
