import Mathlib.Data.List.Basic
import Mathlib.Data.Nat.ModEq

/-!
Circular storage over a list of slots. A window is the run of slots from a head
position on, wrapping at the end of the list; an empty slot reads as `none`.
-/

namespace GraphEngine.RingWindows

open List

variable {Item : Type}

abbrev Slots (Item : Type) := List (Option Item)

def cell (slots : Slots Item) (position : Nat) : Option Item :=
  (slots[position % slots.length]?).join

def window (slots : Slots Item) (head size : Nat) : List (Option Item) :=
  (List.range size).map fun offset => cell slots (head + offset)

variable (slots : Slots Item)

theorem cell_set_same (position : Nat) (value : Option Item) (nonempty : 0 < slots.length) :
    cell (slots.set (position % slots.length) value) position = value := by
  have inside : position % slots.length < slots.length := Nat.mod_lt _ nonempty
  simp [cell, inside]

theorem cell_set_other (index position : Nat) (value : Option Item)
    (other : index ≠ position % slots.length) :
    cell (slots.set index value) position = cell slots position := by
  simp [cell, List.getElem?_set_ne other]

theorem cell_mod (position : Nat) : cell slots (position % slots.length) = cell slots position := by
  simp [cell]

theorem offset_unique {head first second count : Nat}
    (meet : (head + first) % count = (head + second) % count)
    (firstBelow : first < count) (secondBelow : second < count) : first = second := by
  have congruent : first ≡ second [MOD count] := Nat.ModEq.add_left_cancel' head meet
  exact congruent.eq_of_lt_of_lt firstBelow secondBelow

variable (head size : Nat)

@[simp]
theorem window_length : (window slots head size).length = size := by
  simp [window]

theorem window_head :
    window slots head (size + 1) = cell slots head :: window slots (head + 1) size := by
  rw [window, range_succ_eq_map, map_cons, map_map]
  congr 1
  apply map_congr_left
  intro offset _
  simp only [Function.comp_apply]
  congr 1
  omega

theorem window_last :
    window slots head (size + 1) = window slots head size ++ [cell slots (head + size)] := by
  simp [window, range_succ]

theorem window_mod : window slots (head % slots.length) size = window slots head size := by
  apply map_congr_left
  intro offset _
  simp [cell]

theorem window_congr {slots others : Slots Item} {head size : Nat}
    (same : ∀ offset < size, cell others (head + offset) = cell slots (head + offset)) :
    window others head size = window slots head size := by
  apply map_congr_left
  intro offset below
  exact same offset (List.mem_range.mp below)

theorem window_set_outside (index head size : Nat) (value : Option Item)
    (outside : ∀ offset < size, index ≠ (head + offset) % slots.length) :
    window (slots.set index value) head size = window slots head size := by
  apply window_congr
  intro offset below
  exact cell_set_other slots index (head + offset) value (outside offset below)

theorem window_push (value : Option Item) (room : size < slots.length) :
    window (slots.set ((head + size) % slots.length) value) head (size + 1) =
      window slots head size ++ [value] := by
  rw [window_last, cell_set_same slots _ value (by omega), window_set_outside]
  intro offset below meet
  have equal : size = offset := offset_unique meet (by omega) (by omega)
  omega

theorem window_pop (fits : size < slots.length) :
    window (slots.set (head % slots.length) none) (head + 1) size =
      window slots (head + 1) size := by
  apply window_set_outside
  intro offset below meet
  have wrapped : (head + 0) % slots.length = (head + (offset + 1)) % slots.length := by
    rw [Nat.add_zero, meet]
    congr 1
    omega
  have equal : 0 = offset + 1 := offset_unique wrapped (by omega) (by omega)
  omega

/-- `for (i = start; i != last; i = next(i)) slots[i] = move(slots[next(i)])`;
a moved-from slot is empty. -/
def closeGap (last : Nat) : Nat → Slots Item → Nat → Slots Item
  | 0, slots, _ => slots
  | fuel + 1, slots, index =>
    if index = last then slots
    else
      let next := (index + 1) % slots.length
      closeGap last fuel ((slots.set index (cell slots next)).set next none) next

@[simp]
theorem closeGap_length (last fuel : Nat) (slots : Slots Item) (index : Nat) :
    (closeGap last fuel slots index).length = slots.length := by
  induction fuel generalizing slots index with
  | zero => rfl
  | succ fuel step =>
    rw [closeGap]
    split
    · rfl
    · rw [step]
      simp

theorem window_move (head gap size : Nat) (fits : size ≤ slots.length) (inside : gap + 1 < size) :
    window ((slots.set ((head + gap) % slots.length) (cell slots (head + gap + 1))).set
        ((head + gap + 1) % slots.length) none) head size =
      ((window slots head size).set gap (cell slots (head + gap + 1))).set (gap + 1) none := by
  apply ext_getElem (by simp)
  intro offset below _
  simp only [window, length_map, length_range] at below
  simp only [window, getElem_map, getElem_range, getElem_set]
  by_cases next : gap + 1 = offset
  · subst next
    have moved := cell_set_same (slots.set ((head + gap) % slots.length)
      (cell slots (head + gap + 1))) (head + gap + 1) none (by simp; omega)
    simpa [Nat.add_assoc] using moved
  · rw [if_neg next]
    have apart : (head + gap + 1) % slots.length ≠ (head + offset) % slots.length := by
      intro meet
      exact next (offset_unique meet (by omega) (by omega))
    rw [cell_set_other _ _ _ _ (by simpa using apart)]
    by_cases here : gap = offset
    · subst here
      rw [if_pos rfl, cell_set_same _ _ _ (by omega)]
    · rw [if_neg here, cell_set_other]
      intro meet
      exact here (offset_unique meet (by omega) (by omega))

theorem eraseIdx_overwritten {Value : Type} (items : List Value) (gap : Nat) (next value : Value)
    (copied : items[gap + 1]? = some next) :
    ((items.set gap next).set (gap + 1) value).eraseIdx (gap + 1) = items.eraseIdx gap := by
  induction items generalizing gap with
  | nil => simp at copied
  | cons first rest step =>
    cases gap with
    | zero =>
      cases rest with
      | nil => simp at copied
      | cons second others => simpa using copied.symm
    | succ gap => simpa using step gap (by simpa using copied)

/-- The loop that starts at the gap and stops at the last slot removes the gap
from the window; the last slot is left over. -/
theorem closeGap_window (head size fuel gap : Nat) (fits : size + 1 ≤ slots.length)
    (inside : gap ≤ size) (enough : size - gap ≤ fuel) :
    window (closeGap ((head + size) % slots.length) fuel slots ((head + gap) % slots.length))
        head size = (window slots head (size + 1)).eraseIdx gap := by
  induction fuel generalizing slots gap with
  | zero =>
    have full : gap = size := by omega
    subst full
    rw [closeGap, window_last, eraseIdx_append_of_length_le (by simp)]
    simp
  | succ fuel step =>
    by_cases stop : gap = size
    · subst stop
      rw [closeGap, window_last, eraseIdx_append_of_length_le (by simp)]
      simp
    · have apart : (head + gap) % slots.length ≠ (head + size) % slots.length := by
        intro meet
        exact stop (offset_unique meet (by omega) (by omega))
      have advance : ((head + gap) % slots.length + 1) % slots.length =
          (head + (gap + 1)) % slots.length := by
        rw [Nat.mod_add_mod, Nat.add_assoc]
      rw [closeGap, if_neg apart]
      simp only [advance, cell_mod]
      have moved := step ((slots.set ((head + gap) % slots.length)
        (cell slots (head + gap + 1))).set ((head + gap + 1) % slots.length) none) (gap + 1)
        (by simpa using fits) (by omega) (by omega)
      simp only [length_set, Nat.add_assoc] at moved
      rw [moved]
      have shifted := window_move slots head gap (size + 1) fits (by omega)
      simp only [Nat.add_assoc] at shifted
      rw [shifted]
      have copied : (window slots head (size + 1))[gap + 1]? =
          some (cell slots (head + (gap + 1))) := by
        have below : gap + 1 < size + 1 := by omega
        simp [window, below]
      exact eraseIdx_overwritten _ gap _ none copied

end GraphEngine.RingWindows
