import Mathlib.Data.List.Nodup

/-!
Change tracking for a set of keys edited one key at a time. `added` and
`removed` describe the current set relative to a base set. Adding records the
key; removing a recorded addition cancels it, and otherwise records a removal.
A base key that was removed and added again stays in both lists, so that the
replacement of an item is visible.
-/

namespace GraphEngine.ChangeSets

open List

universe u
variable {Key : Type u} [DecidableEq Key]

/-- The cancel-out rule for a removal: the new `added` and `removed`. -/
def noteRemoved (key : Key) (added removed : List Key) : List Key × List Key :=
  if key ∈ added then (added.erase key, removed) else (added, removed ++ [key])

theorem noteRemoved_append {key : Key} {front : List Key} (apart : key ∉ front)
    (frontRemoved added removed : List Key) :
    noteRemoved key (front ++ added) (frontRemoved ++ removed) =
      (front ++ (noteRemoved key added removed).1,
        frontRemoved ++ (noteRemoved key added removed).2) := by
  unfold noteRemoved
  by_cases cancels : key ∈ added
  · simp [cancels, erase_append_right _ apart]
  · simp [cancels, apart]

/-- `added` and `removed` account exactly for the difference between `base` and
`current`. The last field is what makes a cancelled addition sound: only a
removed base key can be added again. -/
structure Exact (base current added removed : List Key) : Prop where
  addedDistinct : added.Nodup
  removedDistinct : removed.Nodup
  removedBase : ∀ key ∈ removed, key ∈ base
  addedCurrent : ∀ key ∈ added, key ∈ current
  accounted : ∀ key, key ∈ current ↔ (key ∈ base ∧ key ∉ removed) ∨ key ∈ added
  readded : ∀ key ∈ added, key ∈ base → key ∈ removed

omit [DecidableEq Key] in
theorem exact_refl (base : List Key) : Exact base base [] [] := by
  constructor <;> simp

omit [DecidableEq Key] in
theorem exact_add {base current next added removed : List Key} {key : Key}
    (tracked : Exact base current added removed) (fresh : key ∉ current)
    (grown : ∀ other, other ∈ next ↔ other ∈ current ∨ other = key) :
    Exact base next (added ++ [key]) removed where
  addedDistinct := by
    have absent : key ∉ added := fun member => fresh (tracked.addedCurrent key member)
    simpa [nodup_append, tracked.addedDistinct] using
      fun other member (same : other = key) => absent (same ▸ member)
  removedDistinct := tracked.removedDistinct
  removedBase := tracked.removedBase
  addedCurrent := forall_mem_append.mpr
    ⟨fun other old => (grown other).mpr (.inl (tracked.addedCurrent other old)),
      forall_mem_singleton.mpr ((grown key).mpr (.inr rfl))⟩
  accounted := by
    intro other
    rw [grown, tracked.accounted]
    simp [or_assoc]
  readded := by
    refine forall_mem_append.mpr ⟨tracked.readded, forall_mem_singleton.mpr ?_⟩
    intro inBase
    by_contra kept
    exact fresh ((tracked.accounted key).mpr (.inl ⟨inBase, kept⟩))

theorem exact_remove {base current next added removed : List Key} {key : Key}
    (tracked : Exact base current added removed) (present : key ∈ current)
    (shrunk : ∀ other, other ∈ next ↔ other ∈ current ∧ other ≠ key) :
    Exact base next (noteRemoved key added removed).1 (noteRemoved key added removed).2 := by
  unfold noteRemoved
  by_cases cancels : key ∈ added
  · simp only [cancels, ↓reduceIte]
    constructor
    · exact tracked.addedDistinct.erase key
    · exact tracked.removedDistinct
    · exact tracked.removedBase
    · intro other member
      rw [tracked.addedDistinct.mem_erase_iff] at member
      exact (shrunk other).mpr ⟨tracked.addedCurrent other member.2, member.1⟩
    · intro other
      rw [shrunk, tracked.accounted, tracked.addedDistinct.mem_erase_iff]
      constructor
      · rintro ⟨old | new, different⟩
        · exact .inl old
        · exact .inr ⟨different, new⟩
      · rintro (old | ⟨different, new⟩)
        · refine ⟨.inl old, ?_⟩
          rintro rfl
          exact old.2 (tracked.readded other cancels old.1)
        · exact ⟨.inr new, different⟩
    · intro other member inBase
      exact tracked.readded other (mem_of_mem_erase member) inBase
  · have inBase : key ∈ base ∧ key ∉ removed := by
      rcases (tracked.accounted key).mp present with old | new
      · exact old
      · exact absurd new cancels
    simp only [cancels, ↓reduceIte]
    constructor
    · exact tracked.addedDistinct
    · simpa [nodup_append, tracked.removedDistinct] using
        fun other member (same : other = key) => inBase.2 (same ▸ member)
    · refine forall_mem_append.mpr ⟨tracked.removedBase, forall_mem_singleton.mpr ?_⟩
      exact inBase.1
    · intro other member
      refine (shrunk other).mpr ⟨tracked.addedCurrent other member, ?_⟩
      rintro rfl
      exact cancels member
    · intro other
      rw [shrunk, tracked.accounted]
      simp only [mem_append, mem_singleton, not_or]
      constructor
      · rintro ⟨old | new, different⟩
        · exact .inl ⟨old.1, old.2, different⟩
        · exact .inr new
      · rintro (⟨old, kept, different⟩ | new)
        · exact ⟨.inl ⟨old, kept⟩, different⟩
        · refine ⟨.inr new, ?_⟩
          rintro rfl
          exact cancels new
    · intro other member old
      exact mem_append_left _ (tracked.readded other member old)

end GraphEngine.ChangeSets
