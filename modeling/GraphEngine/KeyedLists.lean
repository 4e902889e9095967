import Mathlib.Data.List.Nodup
import Mathlib.Data.List.Perm.Basic

/-!
Lists whose entries carry a key. A lookup returns the first entry with the
wanted key and an erasure drops the first one, as a scan over a vector does.
With pairwise distinct keys both become statements about membership. A region
is a Boolean predicate on keys; restricting a list to a region keeps the order
of the surviving entries, so two lists can be compared on a region by equality.
-/

namespace GraphEngine.KeyedLists

open List

universe u v
variable {Item : Type u} {Key : Type v} {key : Item → Key} {wanted : Key} {items : List Item}
  {item : Item}

def restrict (key : Item → Key) (region : Key → Bool) (items : List Item) : List Item :=
  items.filter fun item => region (key item)

variable {region : Key → Bool} {left right : List Item}

theorem mem_restrict :
    item ∈ restrict key region items ↔ item ∈ items ∧ region (key item) = true := by
  simp [restrict]

variable (same : restrict key region left = restrict key region right)

include same in
theorem mem_of_restrict (here : region (key item) = true) : item ∈ left ↔ item ∈ right := by
  have both := congrArg (item ∈ ·) same
  simpa [mem_restrict, here] using both

theorem restrict_append (region : Key → Bool) (left right : List Item) :
    restrict key region (left ++ right) = restrict key region left ++ restrict key region right :=
  filter_append left right

theorem restrict_singleton_outside (apart : region (key item) = false) :
    restrict key region [item] = [] := by
  simp [restrict, apart]

theorem restrict_filter (region : Key → Bool) (keep : Item → Bool) (items : List Item) :
    restrict key region (items.filter keep) = (restrict key region items).filter keep := by
  simp [restrict, Bool.and_comm]

include same in
theorem filter_eq_of_restrict {keep : Item → Bool}
    (leftInside : ∀ item ∈ left, keep item = true → region (key item) = true)
    (rightInside : ∀ item ∈ right, keep item = true → region (key item) = true) :
    left.filter keep = right.filter keep := by
  have narrow : ∀ items : List Item,
      (∀ item ∈ items, keep item = true → region (key item) = true) →
      items.filter keep = (restrict key region items).filter keep := by
    intro items inside
    rw [restrict, filter_filter]
    apply filter_congr
    intro item member
    cases kept : keep item with
    | false => simp
    | true => simp [inside item member kept]
  rw [narrow left leftInside, narrow right rightInside, same]

theorem restrict_narrow {smaller : Key → Bool} (narrower : ∀ k, smaller k = true → region k = true)
    (same : restrict key region left = restrict key region right) :
    restrict key smaller left = restrict key smaller right :=
  filter_eq_of_restrict same (fun _ _ => narrower _) fun _ _ => narrower _

variable [DecidableEq Key]

def lookup (key : Item → Key) (wanted : Key) (items : List Item) : Option Item :=
  items.find? fun item => key item = wanted

def erase (key : Item → Key) (wanted : Key) (items : List Item) : List Item :=
  items.eraseP fun item => key item = wanted

theorem lookup_some (found : lookup key wanted items = some item) :
    item ∈ items ∧ key item = wanted := by
  have hit := find?_some found
  exact ⟨mem_of_find?_eq_some found, by simpa using hit⟩

theorem lookup_none : lookup key wanted items = none ↔ wanted ∉ items.map key := by
  simp [lookup]

theorem lookup_isSome : (lookup key wanted items).isSome = true ↔ wanted ∈ items.map key := by
  simp [lookup]

variable (distinct : (items.map key).Nodup)
include distinct

theorem lookup_eq_some :
    lookup key wanted items = some item ↔ item ∈ items ∧ key item = wanted := by
  constructor
  · exact lookup_some
  · rintro ⟨member, same⟩
    cases found : lookup key wanted items with
    | none =>
      have absent := lookup_none.mp found
      exact absurd (mem_map.mpr ⟨item, member, same⟩) absent
    | some other =>
      obtain ⟨otherIn, otherKey⟩ := lookup_some found
      rw [inj_on_of_nodup_map distinct otherIn member (otherKey.trans same.symm)]

omit distinct in
theorem erase_sublist (wanted : Key) (items : List Item) : (erase key wanted items).Sublist items :=
  eraseP_sublist

theorem erase_eq_filter (wanted : Key) :
    erase key wanted items = items.filter fun item => key item ≠ wanted := by
  induction items with
  | nil => rfl
  | cons head rest ih =>
    simp only [map_cons, nodup_cons] at distinct
    by_cases hit : key head = wanted
    · have kept : ∀ item ∈ rest, key item ≠ wanted := by
        intro item member same
        exact distinct.1 (mem_map.mpr ⟨item, member, same.trans hit.symm⟩)
      have kept : rest.filter (fun item => key item ≠ wanted) = rest :=
        filter_eq_self.mpr (by simpa using kept)
      simpa [erase, hit] using kept.symm
    · have tail := ih distinct.2
      simp only [erase] at tail ⊢
      simp [hit, tail]

theorem mem_erase : item ∈ erase key wanted items ↔ item ∈ items ∧ key item ≠ wanted := by
  simp [erase_eq_filter distinct]

theorem mem_keys_erase {other : Key} :
    other ∈ (erase key wanted items).map key ↔ other ∈ items.map key ∧ other ≠ wanted := by
  constructor
  · intro member
    obtain ⟨item, inside, rfl⟩ := mem_map.mp member
    obtain ⟨old, different⟩ := (mem_erase distinct).mp inside
    exact ⟨mem_map_of_mem old, different⟩
  · rintro ⟨member, different⟩
    obtain ⟨item, inside, rfl⟩ := mem_map.mp member
    exact mem_map_of_mem ((mem_erase distinct).mpr ⟨inside, different⟩)

omit distinct

variable (inside : region wanted = true)
include inside

theorem lookup_restrict (items : List Item) :
    lookup key wanted (restrict key region items) = lookup key wanted items := by
  rw [lookup, restrict, find?_filter]
  congr 1
  funext item
  by_cases hit : key item = wanted
  · simp [hit, inside]
  · simp [hit]

include same in
theorem lookup_of_restrict : lookup key wanted left = lookup key wanted right := by
  rw [← lookup_restrict inside left, same, lookup_restrict inside]

theorem restrict_erase_inside (items : List Item) : restrict key region (erase key wanted items) =
      erase key wanted (restrict key region items) := by
  rw [erase, erase, restrict, restrict, eraseP_filter]
  congr 2
  funext item
  by_cases hit : key item = wanted
  · simp [hit, inside]
  · simp [hit]

omit inside

theorem restrict_erase_outside (outside : region wanted = false) (items : List Item) :
    restrict key region (erase key wanted items) = restrict key region items := by
  induction items with
  | nil => rfl
  | cons head rest ih =>
    simp only [erase, restrict] at ih ⊢
    by_cases hit : key head = wanted
    · simp [hit, outside]
    · simp [filter_cons, hit, ih]

end GraphEngine.KeyedLists
