import Mathlib.Algebra.GroupWithZero.Nat
import Mathlib.Algebra.Order.BigOperators.Group.List
import Mathlib.Data.List.Sort
import GraphEngine.KeyedLists
import GraphEngine.OrderedMaps

/-!
Amounts by key, as lists of entries with 64-bit amounts. `merge` sorts a list and
sums neighbours of one key; `deduct` takes amounts away, down to zero. Both are
read through `weight`, the sum of a key's amounts as a natural number. Costs of
keyed items add up; two lists that agree on some keys differ by the rest.
-/

namespace GraphEngine.KeyedSums

open KeyedLists OrderedMaps Option
open List hiding keys lookup

universe u v
variable {Key : Type u} [LinearOrder Key]

abbrev Amounts (Key : Type u) := List (Key × UInt64)

def byKey (left right : Key × UInt64) : Prop := left.1 ≤ right.1

instance : DecidableRel (@byKey Key _) := fun left right =>
  inferInstanceAs (Decidable (left.1 ≤ right.1))

instance : Std.Total (@byKey Key _) := ⟨fun left right => le_total left.1 right.1⟩

instance : IsTrans (Key × UInt64) byKey := ⟨fun _ _ _ => le_trans⟩

/-- One turn of the summing loop: zero amounts are skipped, an amount of the last
key is added to it. -/
def collect (out : Amounts Key) (entry : Key × UInt64) : Amounts Key :=
  if entry.2 = 0 then out
  else
    match out.getLast? with
    | some last =>
      if last.1 = entry.1 then out.dropLast ++ [(last.1, last.2 + entry.2)] else out ++ [entry]
    | none => [entry]

def merge (amounts : Amounts Key) : Amounts Key := (amounts.insertionSort byKey).foldl collect []

/-- Takes one amount from the first entry of its key. -/
def deductOne (delta : Key × UInt64) : Amounts Key → Amounts Key
  | [] => []
  | entry :: rest =>
    if entry.1 = delta.1 then
      (entry.1, if delta.2 < entry.2 then entry.2 - delta.2 else 0) :: rest
    else entry :: deductOne delta rest

def deduct (deltas amounts : Amounts Key) : Amounts Key :=
  deltas.foldl (fun left delta => deductOne delta left) amounts

def weight (key : Key) (amounts : Amounts Key) : Nat :=
  ((amounts.filter fun entry => entry.1 = key).map fun entry => entry.2.toNat).sum

/-- Ascending distinct keys, no zero amount. -/
structure Canonical (amounts : Amounts Key) : Prop where
  ordered : Ordered amounts
  nonzero : ∀ entry ∈ amounts, entry.2 ≠ 0

variable (key : Key)

@[simp] theorem weight_nil : weight key [] = 0 := rfl

theorem weight_cons (entry : Key × UInt64) (rest : Amounts Key) : weight key (entry :: rest) =
      (if entry.1 = key then entry.2.toNat else 0) + weight key rest := by
  by_cases same : entry.1 = key <;> simp [weight, same]

@[simp] theorem weight_append (left right : Amounts Key) :
    weight key (left ++ right) = weight key left + weight key right := by
  simp [weight]

variable {right : Amounts Key}

theorem weight_perm {left : Amounts Key} (same : left.Perm right) (key : Key) :
    weight key left = weight key right :=
  ((same.filter _).map _).sum_eq

theorem weight_flatMap {Item : Type v} (amounts : Item → Amounts Key) (items : List Item) :
    weight key (items.flatMap amounts) = (items.map fun item => weight key (amounts item)).sum := by
  induction items with
  | nil => rfl
  | cons item rest ih => rw [flatMap_cons, weight_append, ih, map_cons, sum_cons]

theorem weight_le_total (amounts : Amounts Key) :
    weight key amounts ≤ (amounts.map fun entry => entry.2.toNat).sum :=
  ((filter_sublist (p := fun entry : Key × UInt64 => entry.1 = key)).map _).sum_le_sum
    fun _ _ => Nat.zero_le _

variable {amounts : Amounts Key}

theorem weight_absent {key : Key} (absent : key ∉ keys amounts) : weight key amounts = 0 := by
  have none : amounts.filter (fun entry => entry.1 = key) = [] := by
    rw [filter_eq_nil_iff]
    intro entry member
    simp only [decide_eq_true_eq]
    rintro rfl
    exact absent (mem_map.mpr ⟨entry, member, rfl⟩)
  rw [weight, none]
  rfl

theorem weight_ordered (ordered : Ordered amounts) (key : Key) :
    weight key amounts = ((find key amounts).getD 0).toNat := by
  induction amounts with
  | nil => rfl
  | cons entry rest ih =>
    obtain ⟨first, tail⟩ := pairwise_cons.mp ordered
    rw [weight_cons]
    by_cases same : entry.1 = key
    · have absent : key ∉ keys rest := fun later => (first key later).ne same
      simp [same, weight_absent absent, find]
    · have other : key ≠ entry.1 := Ne.symm same
      simp [same, other, ih tail, find]

theorem weight_lt (ordered : Ordered amounts) (key : Key) : weight key amounts < 2 ^ 64 := by
  rw [weight_ordered ordered]
  exact UInt64.toNat_lt _

theorem canonical_ext {left : Amounts Key} (leftCanonical : Canonical left)
    (rightCanonical : Canonical right) (same : ∀ key, weight key left = weight key right) :
    left = right := by
  have members : ∀ {first second : Amounts Key}, Canonical first → Canonical second →
      (∀ key, weight key first = weight key second) → ∀ entry ∈ first, entry ∈ second := by
    intro first second firstCanonical secondCanonical agree entry member
    have found := (find_eq_some firstCanonical.ordered).mpr member
    have weights := agree entry.1
    rw [weight_ordered firstCanonical.ordered, weight_ordered secondCanonical.ordered, found,
      getD_some] at weights
    have amount := UInt64.toNat_inj.mp weights
    cases foundSecond : find entry.1 second with
    | none =>
      rw [foundSecond] at amount
      exact absurd amount (firstCanonical.nonzero entry member)
    | some other =>
      rw [foundSecond, getD_some] at amount
      rw [← amount] at foundSecond
      exact mem_of_find foundSecond
  have distinct : ∀ {amounts : Amounts Key}, Canonical amounts → amounts.Nodup := fun canonical =>
    List.Nodup.of_map Prod.fst (canonical.ordered.imp fun below => ne_of_lt below)
  have perm : left.Perm right := (perm_ext_iff_of_nodup (distinct leftCanonical)
    (distinct rightCanonical)).mpr fun entry =>
      ⟨members leftCanonical rightCanonical same entry,
        members rightCanonical leftCanonical (fun key => (same key).symm) entry⟩
  have sorted : ∀ {amounts : Amounts Key}, Canonical amounts →
      amounts.Pairwise (fun first second => first.1 < second.1) := fun canonical =>
    pairwise_map.mp canonical.ordered
  exact perm.eq_of_pairwise (fun _ _ _ _ below above => absurd above below.asymm)
    (sorted leftCanonical) (sorted rightCanonical)

/-! The summing loop, on entries in ascending key order: what it has collected so
far stays below what is to come. -/

def Below (out amounts : Amounts Key) : Prop := ∀ done ∈ out, ∀ entry ∈ amounts, done.1 ≤ entry.1

theorem collect_cases (out : Amounts Key) (entry : Key × UInt64) :
    (entry.2 = 0 ∧ collect out entry = out) ∨
    (entry.2 ≠ 0 ∧ ∃ init last, out = init ++ [last] ∧ last.1 = entry.1 ∧
      collect out entry = init ++ [(last.1, last.2 + entry.2)]) ∨
    (entry.2 ≠ 0 ∧ (∀ last, out.getLast? = some last → last.1 ≠ entry.1) ∧
      collect out entry = out ++ [entry]) := by
  unfold collect
  by_cases zero : entry.2 = 0
  · exact .inl ⟨zero, if_pos zero⟩
  · rw [if_neg zero]
    cases back : out.getLast? with
    | none =>
      have empty : out = [] := getLast?_eq_none_iff.mp back
      exact .inr (.inr ⟨zero, nofun, by simp [empty]⟩)
    | some last =>
      obtain ⟨init, split⟩ := getLast?_eq_some_iff.mp back
      by_cases same : last.1 = entry.1
      · refine Or.inr (.inl ⟨zero, init, last, split, same, ?_⟩)
        simp [same, split]
      · refine Or.inr (.inr ⟨zero, ?_, by simp [same]⟩)
        rintro _ ⟨⟩
        exact same

theorem weight_collect (out : Amounts Key) (entry : Key × UInt64) :
    weight key (collect out entry) % 2 ^ 64 = weight key (out ++ [entry]) % 2 ^ 64 := by
  rcases collect_cases out entry with ⟨zero, same⟩ | ⟨-, init, last, rfl, joined, same⟩ | ⟨-, -, same⟩
  · simp [same, weight_cons, zero]
  · simp only [same, weight_append, weight_cons, weight_nil, joined]
    by_cases hit : entry.1 = key
    · simp only [hit, ↓reduceIte, UInt64.toNat_add]
      omega
    · simp [hit]
  · rw [same]

variable {out : Amounts Key} {entry : Key × UInt64}

theorem collect_ordered (ordered : Ordered out) (below : Below out [entry]) :
    Ordered (collect out entry) := by
  rcases collect_cases out entry with
    ⟨-, same⟩ | ⟨-, init, last, rfl, -, same⟩ | ⟨-, different, same⟩
  · rwa [same]
  · rw [same]
    simpa [Ordered, keys] using ordered
  · rw [same]
    simp only [Ordered, keys, map_append, map_cons, map_nil,
      pairwise_append, pairwise_singleton, mem_singleton, true_and]
    refine ⟨ordered, ?_⟩
    rintro key member _ rfl
    obtain ⟨done, inside, rfl⟩ := mem_map.mp member
    refine lt_of_le_of_ne (below done inside entry mem_cons_self) ?_
    -- Keys ascend, so an equal key could only be the last one.
    intro equal
    obtain ⟨last, back⟩ := ne_none_iff_exists'.mp
      (fun empty => ne_nil_of_mem inside (getLast?_eq_none_iff.mp empty))
    obtain ⟨init, rfl⟩ := getLast?_eq_some_iff.mp back
    rcases mem_append.mp inside with earlier | atEnd
    · have before : done.1 < last.1 := by
        have split := (pairwise_append.mp (pairwise_map.mp ordered)).2.2
        exact split done earlier last mem_cons_self
      exact absurd (below last (by simp) entry mem_cons_self) (not_le.mpr (equal ▸ before))
    · rw [mem_singleton.mp atEnd] at equal
      exact different last back equal

theorem mem_keys_collect {key : Key}
    (member : key ∈ keys (collect out entry)) : key ∈ keys out ∨ (entry.1 = key ∧ entry.2 ≠ 0) := by
  rcases collect_cases out entry with
    ⟨-, same⟩ | ⟨-, init, last, rfl, -, same⟩ | ⟨nonzero, -, same⟩
  · exact .inl (same ▸ member)
  · left
    simpa [same, keys] using member
  · rw [same] at member
    simp only [keys, map_append, map_cons, map_nil, mem_append, mem_singleton] at member
    rcases member with old | new
    · exact .inl old
    · exact .inr ⟨new.symm, nonzero⟩

theorem below_collect {rest : Amounts Key} (below : Below out (entry :: rest))
    (first : ∀ later ∈ rest, entry.1 ≤ later.1) : Below (collect out entry) rest := by
  intro done member later inside
  have known := mem_keys_collect (mem_map.mpr ⟨done, member, rfl⟩)
  rcases known with old | ⟨same, -⟩
  · obtain ⟨earlier, inOut, same⟩ := mem_map.mp old
    rw [← same]
    exact below earlier inOut later (mem_cons_of_mem _ inside)
  · rw [← same]
    exact first later inside

theorem foldl_collect (sorted : amounts.Pairwise byKey) :
    ∀ {out : Amounts Key}, Ordered out → Below out amounts → Ordered (amounts.foldl collect out) ∧
      (∀ key, weight key (amounts.foldl collect out) % 2 ^ 64 =
        weight key (out ++ amounts) % 2 ^ 64) ∧ ∀ key ∈ keys (amounts.foldl collect out),
        key ∈ keys out ∨ ∃ entry ∈ amounts, entry.1 = key ∧ entry.2 ≠ 0 := by
  induction amounts with
  | nil =>
    intro out ordered _
    exact ⟨ordered, fun key => by simp, fun key member => Or.inl member⟩
  | cons entry rest ih =>
    intro out ordered below
    obtain ⟨first, tail⟩ := pairwise_cons.mp sorted
    have belowEntry : Below out [entry] := by
      intro done member later inside
      rw [mem_singleton.mp inside]
      exact below done member entry mem_cons_self
    obtain ⟨after, weights, known⟩ :=
      ih tail (collect_ordered ordered belowEntry) (below_collect below first)
    refine ⟨after, ?_, ?_⟩
    · intro key
      have step := weight_collect key out entry
      rw [foldl_cons, weights key]
      simp only [weight_append, weight_cons, weight_nil] at step ⊢
      omega
    · intro key member
      rcases known key member with collected | ⟨later, inside, rest⟩
      · rcases mem_keys_collect collected with old | new
        · exact .inl old
        · exact .inr ⟨entry, mem_cons_self, new⟩
      · exact .inr ⟨later, mem_cons_of_mem _ inside, rest⟩

theorem merge_spec (amounts : Amounts Key) : Ordered (merge amounts) ∧
      (∀ key, weight key (merge amounts) % 2 ^ 64 = weight key amounts % 2 ^ 64) ∧
      ∀ key ∈ keys (merge amounts), ∃ entry ∈ amounts, entry.1 = key ∧ entry.2 ≠ 0 := by
  have perm := perm_insertionSort byKey amounts
  have start : Ordered ([] : Amounts Key) := List.Pairwise.nil
  obtain ⟨ordered, weights, known⟩ :=
    foldl_collect (pairwise_insertionSort byKey amounts) start nofun
  refine ⟨ordered, ?_, ?_⟩
  · intro key
    rw [merge, weights key, nil_append, weight_perm perm key]
  · intro key member
    rcases known key member with impossible | ⟨entry, inside, rest⟩
    · cases impossible
    · exact ⟨entry, perm.mem_iff.mp inside, rest⟩

theorem merge_ordered (amounts : Amounts Key) : Ordered (merge amounts) := (merge_spec amounts).1

@[simp] theorem weight_merge (amounts : Amounts Key) :
    weight key (merge amounts) = weight key amounts % 2 ^ 64 := by
  rw [← (merge_spec amounts).2.1 key, Nat.mod_eq_of_lt (weight_lt (merge_ordered amounts) key)]

theorem toNat_le_weight (member : entry ∈ amounts) : entry.2.toNat ≤ weight entry.1 amounts := by
  apply le_sum_of_mem
  exact mem_map.mpr ⟨entry, mem_filter.mpr ⟨member, by simp⟩, rfl⟩

theorem merge_canonical (fits : ∀ key, weight key amounts < 2 ^ 64) :
    Canonical (merge amounts) := by
  refine ⟨merge_ordered amounts, ?_⟩
  intro entry member zero
  obtain ⟨source, inside, same, nonzero⟩ :=
    (merge_spec amounts).2.2 entry.1 (mem_map.mpr ⟨entry, member, rfl⟩)
  have found := (find_eq_some (merge_ordered amounts)).mpr member
  have weighs := weight_merge entry.1 amounts
  rw [weight_ordered (merge_ordered amounts), found, zero,
    Nat.mod_eq_of_lt (fits entry.1)] at weighs
  have positive := toNat_le_weight inside
  rw [same, ← weighs] at positive
  exact nonzero (UInt64.toNat_inj.mp (Nat.le_zero.mp positive))

/-- Merging again removes the zero entries that wrapped sums leave. -/
theorem merge_merge_canonical (amounts : Amounts Key) : Canonical (merge (merge amounts)) :=
  merge_canonical fun key => weight_lt (merge_ordered amounts) key

/-! Deductions. -/

theorem keys_deductOne (delta : Key × UInt64) (amounts : Amounts Key) :
    keys (deductOne delta amounts) = keys amounts := by
  induction amounts with
  | nil => rfl
  | cons entry rest ih =>
    unfold deductOne
    split
    · rfl
    · simpa [keys] using ih

theorem deductOne_ordered {delta : Key × UInt64} (ordered : Ordered amounts) :
    Ordered (deductOne delta amounts) := by
  unfold Ordered
  rw [keys_deductOne]
  exact ordered

theorem toNat_saturating (held taken : UInt64) :
    (if taken < held then held - taken else 0).toNat = held.toNat - taken.toNat := by
  split
  · next below =>
      rw [UInt64.toNat_sub_of_le _ _ (UInt64.le_of_lt below)]
  rename_i above
  have le : held.toNat ≤ taken.toNat := UInt64.le_iff_toNat_le.mp (UInt64.not_lt.mp above)
  simp only [UInt64.toNat_zero]
  omega

theorem weight_deductOne (delta : Key × UInt64) (ordered : Ordered amounts) (key : Key) :
    weight key (deductOne delta amounts) = weight key amounts - weight key [delta] := by
  induction amounts with
  | nil => simp [deductOne]
  | cons entry rest ih =>
    obtain ⟨first, tail⟩ := pairwise_cons.mp ordered
    unfold deductOne
    by_cases same : entry.1 = delta.1
    · rw [if_pos same, weight_cons, weight_cons, weight_cons, toNat_saturating]
      by_cases hit : entry.1 = key
      · have absent : key ∉ keys rest := fun later => (first key later).ne hit
        simp [hit, ← same, weight_absent absent]
      · have other : delta.1 ≠ key := same ▸ hit
        simp [hit, other]
    · rw [if_neg same, weight_cons, weight_cons, ih tail, weight_cons]
      by_cases hit : entry.1 = key
      · have other : delta.1 ≠ key := fun equal => same (hit.trans equal.symm)
        simp [other]
      · simp [hit]

theorem deduct_spec (deltas : Amounts Key) (ordered : Ordered amounts) :
    Ordered (deduct deltas amounts) ∧
      ∀ key, weight key (deduct deltas amounts) = weight key amounts - weight key deltas := by
  induction deltas generalizing amounts with
  | nil => exact ⟨ordered, fun key => rfl⟩
  | cons delta rest ih =>
    obtain ⟨after, weights⟩ := ih (deductOne_ordered ordered)
    refine ⟨after, ?_⟩
    intro key
    have step := weight_deductOne delta ordered key
    rw [deduct, foldl_cons, ← deduct, weights key, step]
    simp only [weight_cons, weight_nil]
    omega

/-! Costs of keyed items. -/

section Costs

variable {Item : Type v} {key : Item → Key} {olds news : List Item} {oldCost newCost : Item → Nat}

theorem sum_split (keep : Item → Bool) (cost : Item → Nat) (items : List Item) :
    ((items.filter keep).map cost).sum + ((items.filter fun item => !keep item).map cost).sum =
      (items.map cost).sum := by
  rw [← sum_append, ← map_append]
  exact ((filter_append_perm keep items).map cost).sum_eq

theorem sum_lookup (cost : Item → Nat) {items : List Item} (distinct : (items.map key).Nodup)
    {ids : List Key} (idsDistinct : ids.Nodup) (known : ∀ id ∈ ids, id ∈ items.map key) :
    ((items.filter fun item => key item ∈ ids).map cost).sum =
      (ids.map fun id => (lookup key id items).elim 0 cost).sum := by
  have filtered : ((items.filter fun item => key item ∈ ids).map key).Nodup :=
    distinct.sublist (filter_sublist.map key)
  have perm : ((items.filter fun item => key item ∈ ids).map key).Perm ids := by
    rw [perm_ext_iff_of_nodup filtered idsDistinct]
    intro id
    simp only [List.mem_map, mem_filter, decide_eq_true_eq]
    constructor
    · rintro ⟨item, ⟨-, listed⟩, rfl⟩
      exact listed
    · intro listed
      obtain ⟨item, member, rfl⟩ := mem_map.mp (known id listed)
      exact ⟨item, ⟨member, listed⟩, rfl⟩
  rw [← (perm.map fun id => (lookup key id items).elim 0 cost).sum_eq, List.map_map]
  congr 1
  refine map_congr_left fun item member => ?_
  have found := (lookup_eq_some distinct).mpr ⟨(mem_filter.mp member).1, rfl⟩
  rw [Function.comp_apply, found, elim_some]

theorem sum_exchange {shared : List Key} (sharedDistinct : shared.Nodup)
    (oldDistinct : (olds.map key).Nodup) (newDistinct : (news.map key).Nodup)
    (agree : ∀ id ∈ shared, ∃ old new, lookup key id olds = some old ∧
      lookup key id news = some new ∧ oldCost old = newCost new) :
    (olds.map oldCost).sum + ((news.filter fun item => key item ∉ shared).map newCost).sum =
      (news.map newCost).sum + ((olds.filter fun item => key item ∉ shared).map oldCost).sum := by
  have known : ∀ {items : List Item} {id : Key} {item : Item}, lookup key id items = some item →
      id ∈ items.map key := fun found => lookup_isSome.mp (found ▸ rfl)
  have common : ((olds.filter fun item => key item ∈ shared).map oldCost).sum =
      ((news.filter fun item => key item ∈ shared).map newCost).sum := by
    rw [sum_lookup oldCost oldDistinct sharedDistinct, sum_lookup newCost newDistinct sharedDistinct]
    · congr 1
      refine map_congr_left fun id listed => ?_
      obtain ⟨old, new, foundOld, foundNew, same⟩ := agree id listed
      rw [foundOld, foundNew, elim_some, elim_some, same]
    · intro id listed
      obtain ⟨old, new, -, foundNew, -⟩ := agree id listed
      exact known foundNew
    · intro id listed
      obtain ⟨old, new, foundOld, -⟩ := agree id listed
      exact known foundOld
  have splitOld := sum_split (fun item => key item ∈ shared) oldCost olds
  have splitNew := sum_split (fun item => key item ∈ shared) newCost news
  simp only [← decide_not] at splitOld splitNew
  omega

end Costs

end GraphEngine.KeyedSums
