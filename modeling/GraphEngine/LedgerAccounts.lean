import Mathlib.Data.List.Induction
import GraphEngine.Ledgers

/-!
What reserving and returning do to the accounts of a ledger, dimension by
dimension, as long as no sum leaves 64 bits.
-/

namespace GraphEngine.LedgerAccounts

open OrderedMaps KeyedSums Ledgers Ledger Option

section Lists

universe u
variable {Key : Type u} [LinearOrder Key]
variable {change : Key × UInt64 → Option (Key × UInt64)} {amounts : Amounts Key}

theorem weight_filterMap
    (keeps : ∀ entry changed, change entry = some changed → changed.1 = entry.1)
    (ordered : Ordered amounts) (key : Key) : weight key (amounts.filterMap change) =
      ((find key amounts).bind fun amount => change (key, amount)).elim 0
        fun changed => changed.2.toNat := by
  induction amounts with
  | nil => rfl
  | cons entry rest ih =>
    obtain ⟨name, amount⟩ := entry
    obtain ⟨first, tail⟩ := List.pairwise_cons.mp ordered
    rw [List.filterMap_cons]
    by_cases same : key = name
    · subst same
      have absent : find key rest = none := find_none.mpr fun later => (first key later).ne rfl
      have nothing : weight key (rest.filterMap change) = 0 := by
        rw [ih tail, absent]
        rfl
      simp only [find, if_true, bind_some]
      cases changed : change (key, amount) with
      | none => exact nothing
      | some entry =>
        rw [weight_cons, if_pos (keeps _ _ changed), nothing]
        rfl
    · simp only [find, same, if_false]
      rw [← ih tail]
      cases changed : change (name, amount) with
      | none => rfl
      | some entry =>
        have other : entry.1 ≠ key := by
          rw [keeps _ _ changed]
          exact Ne.symm same
        rw [weight_cons, if_neg other, Nat.zero_add]

theorem filterMap_ordered
    (keeps : ∀ entry changed, change entry = some changed → changed.1 = entry.1)
    (ordered : Ordered amounts) : Ordered (amounts.filterMap change) := by
  have pairs : amounts.Pairwise fun first second => first.1 < second.1 :=
    List.pairwise_map.mp ordered
  refine List.pairwise_map.mpr (pairs.filterMap change ?_)
  intro first second below changed became other turned
  rw [keeps _ _ became, keeps _ _ turned]
  exact below

end Lists

theorem account_take (ledger : Ledger) (amount : ResourceAmount) (dimension : Dimension) :
    (ledger.take amount).account dimension =
      if dimension = amount.1 then
        { ledger.account dimension with
          reserved := (ledger.account dimension).reserved + amount.2
          peak := max (ledger.account dimension).peak
            ((ledger.account dimension).reserved + amount.2) }
      else ledger.account dimension := by
  unfold take
  simp only [account, find_assign]
  split
  · next same =>
      subst same
      rfl
  · rfl

theorem account_giveBack (ledger : Ledger) (amount : ResourceAmount) (dimension : Dimension) :
    (ledger.giveBack amount).account dimension =
      if dimension = amount.1 then
        { ledger.account dimension with
          reserved := if amount.2 < (ledger.account dimension).reserved
            then (ledger.account dimension).reserved - amount.2 else 0 }
      else ledger.account dimension := by
  unfold giveBack
  cases found : find amount.1 ledger with
  | none =>
    -- An unknown account has nothing reserved, so nothing is taken from it.
    by_cases same : dimension = amount.1
    · subst same
      simp [account, found]
    · simp [same]
  | some held =>
    simp only [account, find_assign]
    split
    · next same =>
        subst same
        simp [found]
    · rfl

def reservedOf (ledger : Ledger) (dimension : Dimension) : Nat :=
  (ledger.account dimension).reserved.toNat

def peakOf (ledger : Ledger) (dimension : Dimension) : Nat := (ledger.account dimension).peak.toNat

theorem toNat_max (left right : UInt64) : (max left right).toNat = max left.toNat right.toNat := by
  show (if left ≤ right then right else left).toNat = _
  split
  · next below => exact (max_eq_right (UInt64.le_iff_toNat_le.mp below)).symm
  rename_i above
  have le := UInt64.le_iff_toNat_le.not.mp above
  omega

variable {amount : ResourceAmount} {ledger : Ledger} {dimension : Dimension}
  {current actual : ResourceAmounts}

theorem take_spec (fits : reservedOf ledger dimension + weight dimension [amount] < 2 ^ 64)
    (marked : reservedOf ledger dimension ≤ peakOf ledger dimension) :
    reservedOf (ledger.take amount) dimension =
        reservedOf ledger dimension + weight dimension [amount] ∧
      peakOf (ledger.take amount) dimension =
        max (peakOf ledger dimension) (reservedOf (ledger.take amount) dimension) ∧
      ((ledger.take amount).account dimension).capacity = (ledger.account dimension).capacity := by
  rw [weight_cons, weight_nil, Nat.add_zero] at fits ⊢
  simp only [reservedOf, peakOf] at fits marked ⊢
  rw [account_take]
  by_cases same : dimension = amount.1
  · subst same
    rw [if_pos rfl] at fits ⊢
    simp only [toNat_max, UInt64.toNat_add, if_true, Nat.mod_eq_of_lt fits, and_self]
  · rw [if_neg same, if_neg (Ne.symm same)]
    exact ⟨rfl, (max_eq_left marked).symm, rfl⟩

theorem takeAll_spec (amounts : ResourceAmounts)
    (fits : reservedOf ledger dimension + weight dimension amounts < 2 ^ 64)
    (marked : reservedOf ledger dimension ≤ peakOf ledger dimension) :
    reservedOf (amounts.foldl take ledger) dimension =
        reservedOf ledger dimension + weight dimension amounts ∧
      peakOf (amounts.foldl take ledger) dimension =
        max (peakOf ledger dimension) (reservedOf (amounts.foldl take ledger) dimension) ∧
      ((amounts.foldl take ledger).account dimension).capacity =
        (ledger.account dimension).capacity := by
  induction amounts using List.reverseRecOn with
  | nil => exact ⟨rfl, (max_eq_left marked).symm, rfl⟩
  | append_singleton rest amount ih =>
    rw [weight_append] at fits ⊢
    obtain ⟨total, high, limit⟩ := ih (by omega)
    rw [List.foldl_append, List.foldl_cons, List.foldl_nil]
    obtain ⟨reserved, peak, capacity⟩ := @take_spec amount (rest.foldl take ledger) dimension
      (by omega) (by omega)
    refine ⟨?_, ?_, capacity.trans limit⟩
    · exact reserved.trans (by omega)
    · exact peak.trans (by omega)

theorem giveBack_spec (ledger : Ledger) (amount : ResourceAmount) (dimension : Dimension) :
    reservedOf (ledger.giveBack amount) dimension =
        reservedOf ledger dimension - weight dimension [amount] ∧
      peakOf (ledger.giveBack amount) dimension = peakOf ledger dimension ∧
      ((ledger.giveBack amount).account dimension).capacity =
        (ledger.account dimension).capacity := by
  rw [weight_cons]
  simp only [reservedOf, peakOf]
  rw [account_giveBack]
  by_cases same : dimension = amount.1
  · rw [if_pos same, if_pos same.symm]
    exact ⟨toNat_saturating _ _, rfl, rfl⟩
  · rw [if_neg same, if_neg (Ne.symm same)]
    exact ⟨rfl, rfl, rfl⟩

theorem release_spec (amounts : ResourceAmounts) (ledger : Ledger) (dimension : Dimension) :
    reservedOf (ledger.release amounts) dimension =
        reservedOf ledger dimension - weight dimension amounts ∧
      peakOf (ledger.release amounts) dimension = peakOf ledger dimension ∧
      ((ledger.release amounts).account dimension).capacity =
        (ledger.account dimension).capacity := by
  unfold release
  induction amounts using List.reverseRecOn with
  | nil => exact ⟨rfl, rfl, rfl⟩
  | append_singleton rest amount ih =>
    obtain ⟨total, high, limit⟩ := ih
    rw [List.foldl_append, weight_append]
    obtain ⟨reserved, peak, capacity⟩ := giveBack_spec (rest.foldl giveBack ledger) amount dimension
    exact ⟨reserved.trans (by omega), peak.trans high, capacity.trans limit⟩

def Within (ledger : Ledger) (dimension : Dimension) : Prop :=
  ∀ capacity, (ledger.account dimension).capacity = some capacity →
    reservedOf ledger dimension ≤ capacity.toNat

theorem available_of_no_shortfall {capacity : UInt64}
    (limited : (ledger.account amount.1).capacity = some capacity)
    (enough : ledger.shortfall amount = none) :
    amount.2.toNat ≤ capacity.toNat - reservedOf ledger amount.1 := by
  have fits : amount.2 ≤ if (ledger.account amount.1).reserved < capacity
      then capacity - (ledger.account amount.1).reserved else 0 := by
    by_contra short
    simp [shortfall, limited, available, short] at enough
  have below := UInt64.le_iff_toNat_le.mp fits
  rwa [toNat_saturating] at below

variable {amounts : ResourceAmounts}

theorem tryReserve_ok {after : Ledger} {purpose : String}
    (done : ledger.tryReserve amounts purpose = .ok after) :
    after = amounts.foldl take ledger ∧ ∀ amount ∈ amounts, ledger.shortfall amount = none := by
  unfold tryReserve at done
  split at done
  · cases done
  rename_i none_short
  cases done
  refine ⟨rfl, ?_⟩
  intro amount member
  have := List.filter_eq_nil_iff.mp none_short amount member
  simpa using this

theorem tryReserve_within {after : Ledger} {purpose : String} (ordered : Ordered amounts)
    (fits : reservedOf ledger dimension + weight dimension amounts < 2 ^ 64)
    (marked : reservedOf ledger dimension ≤ peakOf ledger dimension)
    (within : Within ledger dimension) (done : ledger.tryReserve amounts purpose = .ok after) :
    Within after dimension := by
  obtain ⟨rfl, enough⟩ := tryReserve_ok done
  obtain ⟨reserved, _, limit⟩ := takeAll_spec amounts fits marked
  intro capacity limited
  rw [limit] at limited
  rw [reserved, weight_ordered ordered]
  cases found : find dimension amounts with
  | none => simpa using within capacity limited
  | some amount =>
    have available : amount.toNat ≤ capacity.toNat - reservedOf ledger dimension :=
      available_of_no_shortfall limited (enough _ (mem_of_find found))
    have inside := within capacity limited
    rw [getD_some]
    omega

/-! The two halves of a resize. -/

theorem keeps_key {test : ResourceAmount → Prop} [DecidablePred test]
    {next : ResourceAmount → UInt64} (entry changed : ResourceAmount)
    (became : (if test entry then some (entry.1, next entry) else none) = some changed) :
    changed.1 = entry.1 := by
  split at became <;> cases became
  rfl

theorem growth_ordered (ordered : Ordered actual) : Ordered (growth current actual) :=
  filterMap_ordered keeps_key ordered

theorem weight_growth (currentOrdered : Ordered current) (actualOrdered : Ordered actual)
    (dimension : Dimension) : weight dimension (growth current actual) =
      weight dimension actual - weight dimension current := by
  rw [growth, weight_filterMap keeps_key actualOrdered, weight_ordered currentOrdered,
    weight_ordered actualOrdered]
  cases found : find dimension actual with
  | none => simp
  | some amount =>
    simp only [bind_some, getD_some]
    rw [← toNat_saturating]
    split <;> rfl

theorem weight_shrinkage (currentOrdered : Ordered current) (actualOrdered : Ordered actual)
    (dimension : Dimension) : weight dimension (shrinkage current actual) =
      weight dimension current - weight dimension actual := by
  have dropped : current.filter (fun amount => (find amount.1 actual).isNone) =
      current.filterMap fun amount =>
        if (find amount.1 actual).isNone then some (amount.1, amount.2) else none := by
    rw [← List.filterMap_eq_filter]
    rfl
  rw [shrinkage, weight_append, weight_filterMap keeps_key actualOrdered, dropped,
    weight_filterMap keeps_key currentOrdered, weight_ordered currentOrdered,
    weight_ordered actualOrdered]
  cases named : find dimension actual with
  | none => cases find dimension current <;> simp [named]
  | some amount =>
    have kept : (((find dimension current).bind fun held =>
        if (find dimension actual).isNone then some (dimension, held) else none).elim 0
          fun changed => changed.2.toNat) = 0 := by
      cases find dimension current <;> simp [named]
    simp only [bind_some, getD_some, kept]
    rw [← toNat_saturating]
    split <;> rfl

/-! A call on a ledger, read in one dimension. -/

/-- What is reserved becomes `total`, the high-water mark follows, and a capacity
that was kept is kept. -/
structure Moves (before after : Ledger) (dimension : Dimension) (total : Nat) : Prop where
  reserved : reservedOf after dimension = total
  peak : peakOf after dimension = max (peakOf before dimension) total
  within : Within after dimension

theorem weight_mergeAmounts (fits : weight dimension amounts < 2 ^ 64) :
    weight dimension (mergeAmounts amounts) = weight dimension amounts := by
  rw [mergeAmounts, weight_merge, Nat.mod_eq_of_lt fits]

section Calls

variable {after : Ledger} {amounts lease : ResourceAmounts} {purpose : String}
  (marked : reservedOf ledger dimension ≤ peakOf ledger dimension)
  (within : Within ledger dimension)

include marked within

theorem moves_self : Moves ledger ledger dimension (reservedOf ledger dimension) :=
  ⟨rfl, (max_eq_left marked).symm, within⟩

theorem moves_tryReserve (ordered : Ordered amounts)
    (fits : reservedOf ledger dimension + weight dimension amounts < 2 ^ 64)
    (done : ledger.tryReserve amounts purpose = .ok after) :
    Moves ledger after dimension (reservedOf ledger dimension + weight dimension amounts) := by
  have kept := tryReserve_within ordered fits marked within done
  obtain ⟨rfl, -⟩ := tryReserve_ok done
  obtain ⟨reserved, peak, -⟩ := takeAll_spec amounts fits marked
  exact ⟨reserved, reserved ▸ peak, kept⟩

theorem moves_release (amounts : ResourceAmounts) : Moves ledger (ledger.release amounts) dimension
      (reservedOf ledger dimension - weight dimension amounts) := by
  obtain ⟨reserved, peak, capacity⟩ := release_spec amounts ledger dimension
  refine ⟨reserved, ?_, ?_⟩
  · omega
  · intro limit limited
    have below := within limit (capacity ▸ limited)
    omega

theorem moves_reserve (fits : reservedOf ledger dimension + weight dimension amounts < 2 ^ 64)
    (done : ledger.reserve amounts purpose = .ok (after, lease)) :
    Moves ledger after dimension (reservedOf ledger dimension + weight dimension amounts) := by
  have merged := weight_mergeAmounts ((Nat.le_add_left _ _).trans_lt fits)
  rw [← merged] at fits ⊢
  exact moves_tryReserve marked within (merge_ordered amounts) fits (reserve_ok done).1

/-- A resize: growth is taken before shrinkage is returned, in different dimensions. -/
theorem moves_commitLease (ordered : Ordered current)
    (held : weight dimension current ≤ reservedOf ledger dimension)
    (asked : weight dimension actual < 2 ^ 64)
    (fits : reservedOf ledger dimension - weight dimension current + weight dimension actual <
      2 ^ 64) (done : ledger.commitLease current actual purpose = .ok (after, lease)) :
    Moves ledger after dimension
      (reservedOf ledger dimension - weight dimension current + weight dimension actual) := by
  have merged := weight_mergeAmounts asked
  have below : reservedOf ledger dimension < 2 ^ 64 := UInt64.toNat_lt _
  have canonical : Ordered (mergeAmounts actual) := merge_ordered actual
  have grows := weight_growth ordered canonical dimension
  have shrinks := weight_shrinkage ordered canonical dimension
  obtain ⟨grown, taken, rfl, -⟩ := commitLease_ok done
  have room : reservedOf ledger dimension +
      weight dimension (growth current (mergeAmounts actual)) < 2 ^ 64 := by omega
  have first := moves_tryReserve marked within (growth_ordered canonical) room taken
  have above : reservedOf grown dimension ≤ peakOf grown dimension := by
    rw [first.peak, first.reserved]
    exact le_max_right _ _
  have second := moves_release above first.within (shrinkage current (mergeAmounts actual))
  have total : reservedOf grown dimension -
        weight dimension (shrinkage current (mergeAmounts actual)) =
      reservedOf ledger dimension - weight dimension current + weight dimension actual := by
    rw [first.reserved]
    omega
  rw [total] at second
  refine ⟨second.reserved, ?_, second.within⟩
  rw [second.peak, first.peak]
  omega

end Calls

end GraphEngine.LedgerAccounts
