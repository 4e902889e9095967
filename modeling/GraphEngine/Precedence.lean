import Mathlib.Data.List.Nodup

/-!
The order in which a list without repetitions names its items, and sequences whose
items carry a key of such a list and never go back to an earlier key.
-/

namespace GraphEngine.Precedence

open List

variable {Key Item : Type}

def Precedes (order : List Key) (first second : Key) : Prop := [first, second].Sublist order

variable {order : List Key} {second first : Key}

theorem Precedes.first_mem (precedes : Precedes order first second) : first ∈ order :=
  precedes.subset (by simp)

theorem Precedes.second_mem (precedes : Precedes order first second) : second ∈ order :=
  precedes.subset (by simp)

theorem precedes_cons {head : Key} (precedes : Precedes (head :: order) first second) :
    (first = head ∧ second ∈ order) ∨ Precedes order first second := by
  cases precedes with
  | cons _ later => exact .inr later
  | cons_cons _ later => exact .inl ⟨rfl, singleton_sublist.mp later⟩

theorem precedes_last {last : Key} (distinct : (order ++ [last]).Nodup) :
    ¬ Precedes (order ++ [last]) last second := by
  intro precedes
  obtain ⟨early, late, split, before, after⟩ := sublist_append_iff.mp precedes
  cases early with
  | nil =>
    cases split
    simpa using after.length_le
  | cons head rest =>
    obtain ⟨rfl, -⟩ := cons.inj split
    exact (nodup_append.mp distinct).2.2 _ (before.subset mem_cons_self) _
      mem_cons_self rfl

theorem Precedes.restrict {shorter : List Key} (sublist : shorter.Sublist order)
    (distinct : order.Nodup) (precedes : Precedes order first second) (keptFirst : first ∈ shorter)
    (keptSecond : second ∈ shorter) : Precedes shorter first second := by
  induction sublist with
  | slnil => simp at keptFirst
  | cons head rest step =>
    rw [nodup_cons] at distinct
    rcases precedes_cons precedes with ⟨rfl, -⟩ | later
    · exact absurd (rest.subset keptFirst) distinct.1
    · exact step distinct.2 later keptFirst keptSecond
  | cons_cons head rest step =>
    rw [nodup_cons] at distinct
    have apart : ∀ {key}, key ∈ _ → key ≠ head := fun member same => distinct.1 (same ▸ member)
    rcases precedes_cons precedes with ⟨rfl, after⟩ | later
    · have kept := (mem_cons.mp keptSecond).resolve_left (apart after)
      exact List.Sublist.cons_cons _ (singleton_sublist.mpr kept)
    · have one := (mem_cons.mp keptFirst).resolve_left (apart later.first_mem)
      have two := (mem_cons.mp keptSecond).resolve_left (apart later.second_mem)
      exact (step distinct.2 later one two).cons head

theorem Precedes.left {front back : List Key} (distinct : (front ++ back).Nodup)
    (precedes : Precedes (front ++ back) first second) (inside : second ∈ front) :
    Precedes front first second := by
  obtain ⟨early, late, split, before, after⟩ := sublist_append_iff.mp precedes
  have apart := (nodup_append.mp distinct).2.2 second inside second
  match early, late, split, before, after with
  | [], _, rfl, _, after | [_], _, rfl, _, after =>
    exact absurd rfl (apart (after.subset (by simp)))
  | [_, _], _, rfl, before, _ => exact before

theorem Precedes.find_skips (distinct : order.Nodup) {test : Key → Bool} {found : Key}
    (search : order.find? test = some found) (precedes : Precedes order first found) :
    test first = false := by
  induction order with
  | nil => simp at search
  | cons head rest step =>
    rw [nodup_cons] at distinct
    by_cases passes : test head = true
    · rw [find?_cons_of_pos passes] at search
      cases search
      rcases precedes_cons precedes with ⟨-, again⟩ | later
      · exact absurd again distinct.1
      · exact absurd later.second_mem distinct.1
    · rw [find?_cons_of_neg passes] at search
      rcases precedes_cons precedes with ⟨rfl, -⟩ | later
      · simpa using passes
      · exact step distinct.2 search later

def Forward (order : List Key) (key : Item → Key) (items : List Item) : Prop :=
  items.Pairwise fun earlier later => ¬ Precedes order (key later) (key earlier)

theorem Forward.tail {head : Key} {key : Item → Key} {items : List Item}
    (forward : Forward (head :: order) key items) : Forward order key items :=
  forward.imp fun never precedes => never (List.Sublist.cons head precedes)

theorem filter_split (test : Item → Bool) {items : List Item}
    (falls : items.Pairwise fun earlier later => test later → test earlier) :
    items = items.filter test ++ items.filter fun item => !test item := by
  induction items with
  | nil => rfl
  | cons item later ih =>
    obtain ⟨here, falls⟩ := pairwise_cons.mp falls
    have kept := ih falls
    cases passes : test item with
    | true => simpa [passes] using kept
    | false =>
      have none : later.filter test = [] := by
        rw [filter_eq_nil_iff]
        intro other member hit
        simp [here other member hit] at passes
      simpa [passes, none] using kept

theorem forward_grouped [DecidableEq Key] {key : Item → Key} (distinct : order.Nodup)
    (items : List Item) (forward : Forward order key items)
    (listed : ∀ item ∈ items, key item ∈ order) :
    items = order.flatMap fun each => items.filter fun item => key item = each := by
  induction order generalizing items with
  | nil =>
    cases items with
    | nil => rfl
    | cons item _ => exact absurd (listed item mem_cons_self) (by simp)
  | cons head rest step =>
    rw [nodup_cons] at distinct
    have inRest : ∀ item ∈ items, key item ≠ head → key item ∈ rest := fun item member =>
      (mem_cons.mp (listed item member)).resolve_left
    have parts := filter_split (fun item => key item = head) (forward.imp_of_mem (by
      intro earlier later member _ never again
      rw [decide_eq_true_iff] at again ⊢
      by_contra passed
      -- Once past the first key, the sequence does not come back to it.
      rw [again] at never
      exact never (List.Sublist.cons_cons _
        (singleton_sublist.mpr (inRest earlier member passed)))))
    have others := step distinct.2 (items.filter fun item => !decide (key item = head))
      (forward.tail.sublist filter_sublist) (by
        intro item member
        rw [mem_filter] at member
        exact inRest item member.1 (by simpa using member.2))
    have same : (rest.flatMap fun each =>
        (items.filter fun item => !decide (key item = head)).filter fun item => key item = each) =
        rest.flatMap fun each => items.filter fun item => key item = each := by
      apply flatMap_congr
      intro each member
      rw [filter_filter]
      apply filter_congr
      intro item _
      have apart : each ≠ head := fun same => distinct.1 (same ▸ member)
      by_cases here : key item = each
      · simp [here, apart]
      · simp [here]
    rw [flatMap_cons, ← same, ← others]
    exact parts

end GraphEngine.Precedence
