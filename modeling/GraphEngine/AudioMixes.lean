import GraphEngine.Values
import Mathlib.Algebra.Order.Ring.Int

/-!
The clock of `AudioMix` (audio_mix.cpp): how positions on a member's timeline and output timestamps
are computed.
-/

namespace GraphEngine.AudioMixes

open Values List

def second : Int := 1000000000

/-- `base` is the timestamp of the member's first frame. -/
def positionOf (rate base pts : Int) : Int :=
  if base = -2 ^ 63 then 0 else (int64 (int64 (pts - base) * rate)).tdiv second

def outPts (rate : Int) (samplesOut : Nat) : Int := (int64 (int64 samplesOut * second)).tdiv rate

/-- `samples_out_` before each output frame, for frames of these sizes. -/
def counts : Nat → List Nat → List Nat
  | _, [] => []
  | samplesOut, size :: rest => samplesOut :: counts (samplesOut + size) rest

variable {rate : Int}

theorem position_exact {base pts : Int} (sampled : 1 ≤ rate) (begun : base ≠ -2 ^ 63)
    (later : base ≤ pts) (fits : (pts - base) * rate < 2 ^ 63) :
    positionOf rate base pts = (pts - base) * rate / second := by
  have after : 0 ≤ pts - base := by omega
  have positive : 0 ≤ (pts - base) * rate := Int.mul_nonneg after (by omega)
  have smaller : pts - base ≤ (pts - base) * rate := le_mul_of_one_le_right after sampled
  rw [positionOf, if_neg begun, @int64_exact (pts - base) (by omega) (by omega),
    int64_exact (by omega) fits, Int.tdiv_eq_ediv_of_nonneg positive]

theorem outPts_exact {samplesOut : Nat} (fits : samplesOut * second < 2 ^ 63) :
    outPts rate samplesOut = samplesOut * second / rate := by
  simp only [outPts, second] at fits ⊢
  rw [@int64_exact samplesOut (by omega) (by omega), int64_exact (by omega) fits,
    Int.tdiv_eq_ediv_of_nonneg (by omega)]

theorem counts_rise (sizes : List Nat) (sized : ∀ size ∈ sizes, 1 ≤ size) (samplesOut : Nat) :
    (counts samplesOut sizes).Pairwise (· < ·) ∧
      ∀ count ∈ counts samplesOut sizes, samplesOut ≤ count ∧ count ≤ samplesOut + sizes.sum := by
  induction sizes generalizing samplesOut with
  | nil => simp [counts]
  | cons size rest ih =>
    have positive := sized size mem_cons_self
    obtain ⟨rising, within⟩ := ih (fun other listed => sized other (mem_cons_of_mem _ listed))
      (samplesOut + size)
    simp only [counts, pairwise_cons, sum_cons, mem_cons]
    refine ⟨⟨fun count listed => ?_, rising⟩, ?_⟩
    · have := within count listed
      omega
    · rintro count (rfl | listed)
      · omega
      · have := within count listed
        omega

/-- While the products stay in 64 bits, positions and timestamps are the exact floors, and a later
output frame has a later timestamp. -/
theorem timeline_exact (sampled : 1 ≤ rate) (most : rate ≤ 192000) {sizes : List Nat}
    (sized : ∀ size ∈ sizes, 1 ≤ size) (fits : sizes.sum * second < 2 ^ 63) :
    (∀ base pts, base ≠ -2 ^ 63 → base ≤ pts → (pts - base) * rate < 2 ^ 63 →
      positionOf rate base pts = (pts - base) * rate / second) ∧
    (∀ count ∈ counts 0 sizes, outPts rate count = count * second / rate) ∧
    ((counts 0 sizes).map (outPts rate)).Pairwise (· < ·) := by
  obtain ⟨rising, within⟩ := counts_rise sizes sized 0
  have exact : ∀ count ∈ counts 0 sizes, outPts rate count = count * second / rate := by
    intro count listed
    have most := within count listed
    refine outPts_exact ?_
    simp only [second] at fits ⊢
    omega
  refine ⟨fun _ _ => position_exact sampled, exact, pairwise_map.mpr ?_⟩
  refine rising.imp_of_mem fun {left right} first next earlier => ?_
  -- a sample is longer than a nanosecond
  have apart : (left : Int) * second + rate ≤ right * second := by
    simp only [second]
    omega
  have step : (left * second + rate) / rate ≤ right * second / rate :=
    Int.ediv_le_ediv (by omega) apart
  rw [Int.add_ediv_of_dvd_right (Int.dvd_refl _), Int.ediv_self (by omega)] at step
  rw [exact left first, exact right next]
  omega

theorem half_day_exact : positionOf 192000 0 43200000000000 = 8294400000 ∧
    ((counts 0 [1024, 1024]).map (outPts 192000)).Pairwise (· < ·) := by
  have exact := @timeline_exact 192000 (by decide) (by decide) [1024, 1024] (by decide) (by decide)
  exact ⟨exact.1 0 _ (by decide) (by decide) (by decide), exact.2.2⟩

/-- After fourteen hours at 192 kHz. -/
theorem fourteen_hours_overflow :
    positionOf 192000 0 50400000000000 < 0 ∧ outPts 192000 9676800000 < 0 := by
  decide

end GraphEngine.AudioMixes
