import GraphEngine.Sessions

/-!
What reserving and returning do to a session's lease, dimension by dimension. A
lease is always canonical: resizing merges twice.
-/

namespace GraphEngine.SessionLeases

open OrderedMaps KeyedSums Ledgers Sessions

/-- The lease is a merged list whenever there is one. -/
def LeaseCanonical (session : Session) : Prop :=
  ∀ amounts, session.lease = some amounts → Canonical amounts

/-- The lease has room for the amounts in 64 bits. -/
def Fits (session : Session) (delta : ResourceAmounts) : Prop :=
  ∀ amounts, session.lease = some amounts → ∀ dimension,
    weight dimension amounts + weight dimension delta < 2 ^ 64

theorem growth_nil {current actual : ResourceAmounts} (currentOrdered : Ordered current)
    (actualOrdered : Ordered actual)
    (below : ∀ dimension, weight dimension actual ≤ weight dimension current) :
    Ledger.growth current actual = [] := by
  unfold Ledger.growth
  rw [List.filterMap_eq_nil_iff]
  intro amount member
  have found := (find_eq_some actualOrdered).mpr member
  have le := below amount.1
  rw [weight_ordered actualOrdered, weight_ordered currentOrdered, found] at le
  have enough : ¬(find amount.1 current).getD 0 < amount.2 :=
    UInt64.not_lt.mpr (UInt64.le_iff_toNat_le.mpr le)
  simp [enough]

variable {session : Session} {delta : ResourceAmounts} {purpose : String}

theorem reserveResources_frame {after : Session}
    (done : session.reserveResources delta purpose = .ok after) :
    after = { session with ledger := after.ledger, lease := after.lease } ∧
      after.lease.isSome = session.lease.isSome := by
  unfold Session.reserveResources at done
  split at done
  · cases done
    exact ⟨rfl, rfl⟩
  split at done
  · cases done
    exact ⟨rfl, rfl⟩
  rename_i amounts held
  split at done
  · cases done
  · cases done
    exact ⟨rfl, by rw [held]; rfl⟩

variable {amounts : ResourceAmounts}

theorem reserveResources_weight {after : Session} (canonical : Canonical amounts)
    (held : session.lease = some amounts)
    (done : session.reserveResources delta purpose = .ok after) :
    ∃ resized, after.lease = some resized ∧ Canonical resized ∧
      ∀ dimension, weight dimension resized =
        (weight dimension amounts + weight dimension delta) % 2 ^ 64 := by
  unfold Session.reserveResources at done
  split at done
  · next empty =>
      cases done
      refine ⟨amounts, held, canonical, ?_⟩
      intro dimension
      rw [empty, weight_nil, Nat.add_zero, Nat.mod_eq_of_lt (weight_lt canonical.ordered dimension)]
  · rw [held] at done
    dsimp only at done
    split at done
    · cases done
    rename_i ledger resized committed
    cases done
    obtain ⟨_, -, -, rfl⟩ := Ledger.commitLease_ok committed
    refine ⟨_, rfl, merge_merge_canonical _, ?_⟩
    intro dimension
    simp [mergeAmounts]

theorem returnResources_frame (session : Session) (delta : ResourceAmounts) :
    session.returnResources delta = { session with
      ledger := (session.returnResources delta).ledger
      lease := (session.returnResources delta).lease } := by
  unfold Session.returnResources
  split
  · rfl
  split
  · rfl
  · split <;> rfl

theorem returnResources_none (unleased : session.lease = none) (delta : ResourceAmounts) :
    session.returnResources delta = session := by
  unfold Session.returnResources
  rw [unleased]
  split <;> rfl

theorem returnResources_weight (canonical : Canonical amounts) (held : session.lease = some amounts)
    (delta : ResourceAmounts) :
    ∃ resized, (session.returnResources delta).lease = some resized ∧ Canonical resized ∧
      ∀ dimension, weight dimension resized = weight dimension amounts - weight dimension delta := by
  unfold Session.returnResources
  split
  · next empty =>
      refine ⟨amounts, held, canonical, ?_⟩
      intro dimension
      rw [empty, weight_nil, Nat.sub_zero]
  · rw [held]
    obtain ⟨ordered, weights⟩ := deduct_spec delta canonical.ordered
    have below : ∀ dimension, weight dimension (deduct delta amounts) < 2 ^ 64 := weight_lt ordered
    have merged : ∀ dimension, weight dimension (mergeAmounts (mergeAmounts (deduct delta amounts))) =
        weight dimension amounts - weight dimension delta := by
      intro dimension
      simp only [mergeAmounts, weight_merge, Nat.mod_mod]
      rw [Nat.mod_eq_of_lt (below dimension), weights dimension]
    obtain ⟨ledger, committed⟩ := Ledger.commitLease_shrinks session.ledger "retire"
      (growth_nil canonical.ordered (merge_ordered _)
        (fun dimension => (merged dimension).trans_le (Nat.sub_le _ _)))
    dsimp only
    rw [committed]
    exact ⟨_, rfl, merge_merge_canonical _, merged⟩

theorem returned_lease {reserved : Session} (later : Session) (canonical : LeaseCanonical session)
    (ordered : Ordered delta) (reserves : session.reserveResources delta purpose = .ok reserved)
    (kept : later.lease = reserved.lease) :
    (later.returnResources delta).lease = session.lease ↔ Fits session delta := by
  cases held : session.lease with
  | none =>
    have unleased : later.lease = none := by
      rw [kept, ← Option.isNone_iff_eq_none, ← Option.isSome_eq_false_iff,
        (reserveResources_frame reserves).2, held]
      rfl
    rw [returnResources_none unleased]
    refine ⟨fun _ amounts impossible => ?_, fun _ => unleased⟩
    rw [held] at impossible
    cases impossible
  | some amounts =>
    have before := canonical amounts held
    obtain ⟨grown, heldGrown, grownCanonical, grows⟩ := reserveResources_weight before held reserves
    obtain ⟨back, heldBack, backCanonical, shrinks⟩ :=
      returnResources_weight grownCanonical (kept.trans heldGrown) delta
    rw [heldBack, Option.some.injEq]
    constructor
    · rintro rfl found heldFound dimension
      rw [held, Option.some.injEq] at heldFound
      have small := weight_lt ordered dimension
      have grown := grows dimension
      have shrunk := shrinks dimension
      rw [← heldFound]
      omega
    · intro fits
      refine canonical_ext backCanonical before fun dimension => ?_
      rw [shrinks dimension, grows dimension, Nat.mod_eq_of_lt (fits amounts held dimension)]
      omega

end GraphEngine.SessionLeases
