import Mathlib.Data.String.Basic
import Mathlib.Data.List.Sigma

/-!
Association lists kept in ascending key order, as iteration over an ordered map
presents them. `assign` overwrites the entry of a key or inserts it in place.
-/

namespace GraphEngine.OrderedMaps

open List

universe u v
variable {Key : Type u} {Value : Type v} [LinearOrder Key] {value : Value} {key wanted : Key}
  {start : List (Key × Value)}

def keys (entries : List (Key × Value)) : List Key := entries.map Prod.fst

def assign (key : Key) (value : Value) : List (Key × Value) → List (Key × Value)
  | [] => [(key, value)]
  | (other, old) :: rest =>
    if key = other then (key, value) :: rest
    else if key < other then (key, value) :: (other, old) :: rest
    else (other, old) :: assign key value rest

def find (key : Key) : List (Key × Value) → Option Value
  | [] => none
  | (other, value) :: rest => if key = other then some value else find key rest

/-- Inserts only when the key is new. -/
def emplace (key : Key) (value : Value) (entries : List (Key × Value)) : List (Key × Value) :=
  match find key entries with
  | some _ => entries
  | none => assign key value entries

def Ordered (entries : List (Key × Value)) : Prop := (keys entries).Pairwise (· < ·)

theorem ordered_nil : Ordered ([] : List (Key × Value)) := List.Pairwise.nil

variable {entries : List (Key × Value)}

theorem mem_keys_assign :
    wanted ∈ keys (assign key value entries) ↔ wanted = key ∨ wanted ∈ keys entries := by
  induction entries with
  | nil => simp [assign, keys]
  | cons head rest ih =>
    simp only [keys] at ih ⊢
    unfold assign
    split_ifs with same before
    · simp [same]
    · simp
    · simp only [map_cons, mem_cons, ih]
      exact or_left_comm

theorem find_assign (key wanted : Key) (value : Value) (entries : List (Key × Value)) :
    find wanted (assign key value entries) =
      if wanted = key then some value else find wanted entries := by
  induction entries with
  | nil => rfl
  | cons head rest ih =>
    obtain ⟨other, old⟩ := head
    unfold assign
    by_cases same : key = other
    · subst same
      by_cases hit : wanted = key <;> simp [find, hit]
    · by_cases before : key < other
      · simp [find, same, before]
      · simp only [same, before, ↓reduceIte, find, ih]
        by_cases hit : wanted = key
        · simp [hit, same]
        · simp [hit]

theorem find_emplace (key wanted : Key) (value : Value) (entries : List (Key × Value)) :
    find wanted (emplace key value entries) =
      if wanted = key then some ((find key entries).getD value) else find wanted entries := by
  unfold emplace
  cases found : find key entries with
  | none => simp [find_assign]
  | some old =>
    by_cases hit : wanted = key
    · simp [hit, found]
    · simp [hit]

theorem find_isSome : (find wanted entries).isSome = true ↔ wanted ∈ keys entries := by
  induction entries with
  | nil => simp [find, keys]
  | cons head rest ih =>
    obtain ⟨other, old⟩ := head
    simp only [keys] at ih ⊢
    by_cases hit : wanted = other
    · simp [find, hit]
    · simp [find, hit, ih]

theorem find_none : find wanted entries = none ↔ wanted ∉ keys entries := by
  rw [← find_isSome, Option.not_isSome_iff_eq_none]

theorem mem_of_find (found : find wanted entries = some value) : (wanted, value) ∈ entries := by
  induction entries with
  | nil => cases found
  | cons head rest ih =>
    obtain ⟨other, old⟩ := head
    by_cases hit : wanted = other
    · subst hit
      simp only [find, ↓reduceIte, Option.some.injEq] at found
      rw [found]
      exact mem_cons_self
    · simp only [find, hit] at found
      exact mem_cons_of_mem _ (ih found)

theorem assign_ordered (ordered : Ordered entries) : Ordered (assign key value entries) := by
  induction entries with
  | nil => simp [assign, Ordered, keys]
  | cons head rest ih =>
    obtain ⟨first, tail⟩ := pairwise_cons.mp ordered
    unfold assign
    split_ifs with same before
    · subst same
      exact ordered
    · refine pairwise_cons.mpr ⟨?_, ordered⟩
      intro later member
      rcases mem_cons.mp member with rfl | member
      · exact before
      · exact before.trans (first later member)
    · refine pairwise_cons.mpr ⟨?_, ih tail⟩
      intro later member
      rcases mem_keys_assign.mp member with rfl | member
      · exact lt_of_le_of_ne (not_lt.mp before) (Ne.symm same)
      · exact first later member

theorem find_eq_some (ordered : Ordered entries) :
    find wanted entries = some value ↔ (wanted, value) ∈ entries := by
  refine ⟨mem_of_find, ?_⟩
  intro member
  induction entries with
  | nil => cases member
  | cons head rest ih =>
    obtain ⟨other, old⟩ := head
    obtain ⟨first, tail⟩ := pairwise_cons.mp ordered
    rcases mem_cons.mp member with same | later
    · cases same
      simp [find]
    · have before : other < wanted := first wanted (mem_map.mpr ⟨_, later, rfl⟩)
      simp only [find, before.ne']
      exact ih tail later

theorem emplace_last (above : ∀ other ∈ keys entries, other < key) :
    find key entries = none ∧ emplace key value entries = entries ++ [(key, value)] := by
  have absent : find key entries = none := find_none.mpr fun listed => (above key listed).ne rfl
  refine ⟨absent, ?_⟩
  simp only [emplace, absent]
  clear absent
  induction entries with
  | nil => rfl
  | cons head rest ih =>
    obtain ⟨other, old⟩ := head
    have first : other < key := above other mem_cons_self
    have tail := ih fun later member => above later (mem_cons_of_mem _ member)
    rw [assign, if_neg first.ne', if_neg first.asymm, tail]
    rfl

theorem assign_last (above : ∀ other ∈ keys entries, other < key) :
    assign key value entries = entries ++ [(key, value)] := by
  obtain ⟨absent, last⟩ := @emplace_last _ _ _ value key entries above
  rwa [emplace, absent] at last

theorem ordered_above {front rest : List (Key × Value)}
    (ordered : Ordered (front ++ (key, value) :: rest)) : ∀ other ∈ keys front, other < key := by
  intro other member
  unfold Ordered keys at ordered
  rw [map_append, pairwise_append] at ordered
  exact ordered.2.2 other member key (by simp)

def assignAll (entries start : List (Key × Value)) : List (Key × Value) :=
  entries.foldl (fun map entry => assign entry.1 entry.2 map) start

theorem assignAll_ordered (ordered : Ordered start) : Ordered (assignAll entries start) := by
  exact foldlRecOn entries _ ordered fun _ kept _ _ => assign_ordered kept

theorem find_assignAll_absent (absent : wanted ∉ keys entries) :
    find wanted (assignAll entries start) = find wanted start := by
  induction entries generalizing start with
  | nil => rfl
  | cons entry rest ih =>
    simp only [keys, map_cons, mem_cons, not_or] at absent
    rw [assignAll, foldl_cons, ← assignAll, ih absent.2, find_assign, if_neg absent.1]

theorem find_assignAll (distinct : (keys entries).Nodup) (member : (wanted, value) ∈ entries) :
    find wanted (assignAll entries start) = some value := by
  induction entries generalizing start with
  | nil => cases member
  | cons entry rest ih =>
    simp only [keys, map_cons, nodup_cons] at distinct
    rw [assignAll, foldl_cons, ← assignAll]
    rcases mem_cons.mp member with rfl | later
    · rw [find_assignAll_absent distinct.1, find_assign, if_pos rfl]
    · exact ih distinct.2 later

theorem emplace_ordered (ordered : Ordered entries) : Ordered (emplace key value entries) := by
  unfold emplace
  split
  · exact ordered
  · exact assign_ordered ordered

theorem mem_assign {entry : Key × Value} (member : entry ∈ assign key value entries) :
    entry = (key, value) ∨ entry ∈ entries := by
  induction entries with
  | nil => exact .inl (mem_singleton.mp member)
  | cons head rest ih =>
    unfold assign at member
    split_ifs at member with same before
    · rcases mem_cons.mp member with rfl | later
      · exact .inl rfl
      · exact .inr (mem_cons_of_mem _ later)
    · rcases mem_cons.mp member with rfl | later
      · exact .inl rfl
      · exact .inr later
    rcases mem_cons.mp member with rfl | later
    · exact .inr mem_cons_self
    · exact (ih later).imp_right (mem_cons_of_mem _)

theorem mem_emplace {entry : Key × Value} (member : entry ∈ emplace key value entries) :
    entry = (key, value) ∨ entry ∈ entries := by
  unfold emplace at member
  split at member
  · exact .inr member
  · exact mem_assign member

theorem ordered_ext {left right : List (Key × Value)} (leftOrdered : Ordered left)
    (rightOrdered : Ordered right) (same : ∀ key, find key left = find key right) :
    left = right := by
  have distinct : ∀ {entries : List (Key × Value)}, Ordered entries → entries.Pairwise
      fun first second => first.1 < second.1 := pairwise_map.mp
  refine @List.Perm.eq_of_pairwise _ (fun first second => first.1 < second.1) _ _ ?_
    (distinct leftOrdered) (distinct rightOrdered) ?_
  · intro first second _ _ before after
    exact absurd before after.asymm
  · refine (perm_ext_iff_of_nodup ?_ ?_).mpr ?_
    · exact (distinct leftOrdered).imp fun before same => before.ne (congrArg Prod.fst same)
    · exact (distinct rightOrdered).imp fun before same => before.ne (congrArg Prod.fst same)
    · rintro ⟨key, value⟩
      rw [← find_eq_some leftOrdered, ← find_eq_some rightOrdered, same]

theorem filter_ordered {keep : Key × Value → Bool} (ordered : Ordered entries) :
    Ordered (entries.filter keep) :=
  ordered.sublist (filter_sublist.map Prod.fst)

theorem find_filter (keep : Key → Bool) (entries : List (Key × Value)) (wanted : Key) :
    find wanted (entries.filter fun entry => keep entry.1) =
      if keep wanted then find wanted entries else none := by
  induction entries with
  | nil => simp [find]
  | cons head rest ih =>
    obtain ⟨other, value⟩ := head
    by_cases hit : wanted = other
    · cases kept : keep wanted <;> simp_all [find]
    · cases kept : keep other <;> simp [find, hit, kept, ih]

/-- A row of insertions, each of which may be skipped. -/
def emplaceAll (fields : List (Key × Option Value)) (start : List (Key × Value)) :
    List (Key × Value) :=
  fields.foldl (fun map field => field.2.elim map fun value => emplace field.1 value map) start

theorem emplaceAll_cons (field : Key × Option Value) (rest : List (Key × Option Value))
    (start : List (Key × Value)) : emplaceAll (field :: rest) start =
      emplaceAll rest (field.2.elim start fun value => emplace field.1 value start) := rfl

variable {fields : List (Key × Option Value)}

theorem emplaceAll_ordered (ordered : Ordered start) : Ordered (emplaceAll fields start) := by
  refine foldlRecOn fields _ ordered fun map kept field _ => ?_
  cases field.2 with
  | none => exact kept
  | some value => exact emplace_ordered kept

theorem find_emplaceAll (fields : List (Key × Option Value)) (start : List (Key × Value))
    (wanted : Key) : find wanted (emplaceAll fields start) = (find wanted start).or
        (fields.findSome? fun field => if wanted = field.1 then field.2 else none) := by
  induction fields generalizing start with
  | nil => simp [emplaceAll]
  | cons field rest ih =>
    obtain ⟨key, value⟩ := field
    rw [emplaceAll_cons, ih]
    cases value with
    | none => simp
    | some value =>
      simp only [Option.elim_some, find_emplace]
      by_cases hit : wanted = key
      · subst hit
        cases find wanted start <;> simp
      · simp [hit]

theorem mem_emplaceAll (member : (key, value) ∈ emplaceAll fields start) :
    (key, some value) ∈ fields ∨ (key, value) ∈ start := by
  induction fields generalizing start with
  | nil => exact .inr member
  | cons field rest ih =>
    obtain ⟨other, inserted⟩ := field
    rcases ih member with later | early
    · exact .inl (mem_cons_of_mem _ later)
    · cases inserted with
      | none => exact .inr early
      | some inserted =>
        rcases mem_emplace early with same | old
        · cases same
          exact .inl mem_cons_self
        · exact .inr old

theorem emplaceAll_ascending (ordered : Ordered entries) :
    emplaceAll (entries.map fun entry => (entry.1, some entry.2)) [] = entries := by
  refine ordered_ext (emplaceAll_ordered ordered_nil) ordered fun key => ?_
  rw [find_emplaceAll]
  clear ordered
  induction entries with
  | nil => rfl
  | cons head rest ih =>
    obtain ⟨other, value⟩ := head
    by_cases hit : key = other
    · simp [find, hit]
    · simpa [find, hit] using ih

end GraphEngine.OrderedMaps
