import GraphEngine.Runs
import GraphEngine.Values
import Mathlib.Algebra.Order.Ring.Int

/-!
The read loop of `MediaDemux` (media_demux.cpp) over a file that is a finite list of packets, and
the timestamps that `MediaMux` (media_mux.cpp) hands to the muxer. `Pace` and what is emitted for a
packet read are left out.
-/

namespace GraphEngine.MediaFiles

open List Runs Function
open Values (int64)

/-- `AV_NOPTS_VALUE`, and the `INT64_MIN` of a missing time in nanoseconds. -/
def noPts : Int := -2 ^ 63

section Reading

structure AVPacket where
  streamIndex : Int
  pts : Int
  duration : Int

/-- What `Open` fixes. `rescale` is `av_rescale_q` from the time base of a stream to nanoseconds,
`seekable` what `av_seek_frame` answers. -/
structure Source where
  packets : List AVPacket
  rescale : Int → Int → Int
  seekable : Bool
  videoIndex : Int
  audioIndex : Int
  videoConnected : Bool
  audioConnected : Bool
  loop : Bool
  endMs : Int

/-- `opened` is that `fmt_` is set, from `Open` to `Close`. -/
structure Demux where
  unread : List AVPacket
  opened : Bool := true
  loopOffset : Int := 0
  lastPts : Int := 0

/-- `failed` when the sink refuses the packet, or there is no open file. -/
inductive ProcessResult where
  | continued | exhausted | failed

variable (source : Source) (accepts : Bool)

def toNs (packet : AVPacket) (time : Int) : Int :=
  if time = noPts then noPts else source.rescale packet.streamIndex time

def isVideo (packet : AVPacket) : Bool := packet.streamIndex == source.videoIndex

def isAudio (packet : AVPacket) : Bool := packet.streamIndex == source.audioIndex

def skips (packet : AVPacket) : Bool :=
  (isVideo source packet && !source.videoConnected) ||
    (isAudio source packet && !source.audioConnected) ||
    (!isVideo source packet && !isAudio source packet)

def seekToStart (state : Demux) : Demux :=
  { state with unread := source.packets, loopOffset := state.lastPts }

/-- The rest of `Process` for a packet that is not skipped. -/
def deliver (packet : AVPacket) (state : Demux) : ProcessResult × Demux :=
  let pts := int64 (toNs source packet packet.pts + state.loopOffset)
  let lastPts :=
    if source.loop ∧ packet.pts ≠ noPts then
      max state.lastPts (int64 (pts + toNs source packet packet.duration))
    else state.lastPts
  let ends := 0 < source.endMs ∧ pts ≠ noPts ∧ int64 (source.endMs * 1000000) ≤ pts ∧
    (isVideo source packet ∨ source.videoIndex < 0 ∨ ¬source.videoConnected)
  (if ends then .exhausted else if accepts then .continued else .failed, { state with lastPts })

/-- The loop of `Process`, with fuel for its rounds. -/
def readLoop : Nat → Demux → Option (ProcessResult × Demux)
  | 0, _ => none
  | fuel + 1, state =>
    match state.unread with
    | [] =>
      if source.loop && source.seekable then readLoop fuel (seekToStart source state)
      else some (.exhausted, state)
    | packet :: unread =>
      if skips source packet then readLoop fuel { state with unread }
      else some (deliver source accepts packet { state with unread })

def process (flush : Bool) (fuel : Nat) (state : Demux) : Option (ProcessResult × Demux) :=
  if flush then some (.continued, state)
  else if !state.opened then some (.failed, state)
  else readLoop source accepts fuel state

variable {source} {state : Demux}

/-- What is left of a pass is read to a packet of a connected stream, or to its end. -/
theorem readLoop_reads {Good : ProcessResult × Demux → Prop}
    (found : ∀ packet ∈ state.unread, ¬skips source packet → ∀ state,
      Good (deliver source accepts packet state))
    (ended : (∀ packet ∈ state.unread, skips source packet) → ∃ fuel answer,
      readLoop source accepts fuel { state with unread := [] } = some answer ∧ Good answer) :
    ∃ fuel answer, readLoop source accepts fuel state = some answer ∧ Good answer := by
  obtain ⟨unread, opened, offset, last⟩ := state
  induction unread with
  | nil => exact ended nofun
  | cons packet rest ih =>
    rw [forall_mem_cons] at found
    rw [forall_mem_cons] at ended
    by_cases skipped : skips source packet
    · obtain ⟨fuel, answer, returned, good⟩ := ih found.2 fun none => ended ⟨skipped, none⟩
      exact ⟨fuel + 1, answer, (if_pos skipped).trans returned, good⟩
    · exact ⟨1, _, if_neg skipped, found.1 skipped _⟩

theorem readLoop_returns
    (wanted : source.loop → source.seekable → ∃ packet ∈ state.unread ++ source.packets,
      ¬skips source packet) : ∃ fuel answer, readLoop source accepts fuel state = some answer ∧
      ((∀ packet ∈ state.unread ++ source.packets, skips source packet) →
        answer.1 = .exhausted) := by
  refine readLoop_reads accepts (fun packet inside wanted _ none => ?_) fun passed => ?_
  · exact absurd (none packet (mem_append_left _ inside)) wanted
  by_cases seeks : source.loop ∧ source.seekable
  · obtain ⟨packet, inside, wanted⟩ := wanted seeks.1 seeks.2
    have inside : packet ∈ source.packets :=
      (mem_append.mp inside).resolve_left fun unread => wanted (passed packet unread)
    obtain ⟨fuel, answer, returned, -⟩ := @readLoop_reads source accepts
      (seekToStart source { state with unread := [] }) (fun _ => True) (fun _ _ _ _ => trivial)
      fun none => absurd (none packet inside) wanted
    refine ⟨fuel + 1, answer, (if_pos (by simpa using seeks)).trans returned, fun none => ?_⟩
    exact absurd (none packet (mem_append_right _ inside)) wanted
  · exact ⟨1, _, if_neg (by simpa using seeks), fun _ => rfl⟩

/-- Passes over a looped file that only skip never end. -/
theorem readLoop_spins (loops : source.loop) (seeks : source.seekable)
    (skipped : ∀ packet ∈ state.unread ++ source.packets, skips source packet) (fuel : Nat) :
    readLoop source accepts fuel state = none := by
  induction fuel generalizing state with
  | zero => rfl
  | succ fuel ih =>
    rw [forall_mem_append] at skipped
    obtain ⟨unread, opened, offset, last⟩ := state
    cases unread with
    | nil =>
      exact (if_pos (by rw [loops, seeks, Bool.and_self])).trans
        (ih (forall_mem_append.mpr ⟨skipped.2, skipped.2⟩))
    | cons packet unread =>
      obtain ⟨here, later⟩ := forall_mem_cons.mp skipped.1
      exact (if_pos here).trans (ih (forall_mem_append.mpr ⟨later, skipped.2⟩))

/-- A call returns, and a reading one reports exhausted if no packet is of a connected stream,
exactly when it does not read a looped file without such a packet. -/
theorem process_returns_iff (source : Source) (accepts flush : Bool) (state : Demux) :
    (∃ fuel answer, process source accepts flush fuel state = some answer ∧
      (flush = false → state.opened →
        (∀ packet ∈ state.unread ++ source.packets, skips source packet) → answer.1 = .exhausted)) ↔
      (flush = false → state.opened → source.loop → source.seekable →
        ∃ packet ∈ state.unread ++ source.packets, ¬skips source packet) := by
  by_cases reads : flush = false ∧ state.opened
  · obtain ⟨reading, opened⟩ := reads
    subst reading
    have looped (fuel : Nat) : process source accepts false fuel state =
        readLoop source accepts fuel state := by
      simp [process, opened]
    simp only [looped, opened, forall_const]
    refine ⟨fun ⟨fuel, answer, returned, _⟩ loops seeks => ?_, readLoop_returns accepts⟩
    by_contra none
    push Not at none
    exact nomatch (readLoop_spins accepts loops seeks none fuel).symm.trans returned
  · have rejects : flush = false → state.opened → False := fun reading opened =>
      reads ⟨reading, opened⟩
    refine iff_of_true ?_ fun reading opened => (rejects reading opened).elim
    cases flush with
    | true => exact ⟨0, _, rfl, nofun⟩
    | false =>
      exact ⟨0, _, by rw [process, if_neg (by decide), if_pos (by simpa using rejects rfl)],
        fun reading opened => (rejects reading opened).elim⟩

/-- A looped file with one video packet. -/
def clip (videoConnected : Bool) : Source where
  packets := [⟨0, 0, 10⟩]
  rescale := fun _ time => time
  seekable := true
  videoIndex := 0
  audioIndex := 1
  videoConnected := videoConnected
  audioConnected := true
  loop := true
  endMs := 0

/-- With only the audio connected, the clip is read over and over. -/
theorem silent_clip_spins : ¬∃ fuel,
    (process (clip false) true false fuel { unread := (clip false).packets }).isSome := by
  rintro ⟨fuel, returned⟩
  rw [process, if_neg (by decide), if_neg (by decide),
    readLoop_spins true rfl rfl (by decide) fuel] at returned
  cases returned

end Reading

section Writing

/-- `rescale` is `av_rescale_q` from nanoseconds to the time base of a stream. -/
structure Options where
  segmented : Bool
  alignStart : Bool := true
  rescale : Bool → Int → Int

/-- The times of a packet's header, and its duration in nanoseconds or 0. -/
structure Packet where
  pts : Int
  dts : Int
  duration : Int := 0

structure Stream where
  lastDts : Int := noPts
  packets : Nat := 0

structure Written where
  audio : Bool
  pts : Int
  dts : Int

/-- `file` is what the open file was given, the newest packet first. -/
structure Mux where
  streams : Bool → Stream := fun _ => {}
  segmentStart : Int := noPts
  firstVideoPts : Int := noPts
  file : List Written := []
  finished : List (List Written) := []

inductive Action where
  | addVideo (first : Packet)
  | write (audio accepted : Bool) (packet : Packet)
  | rotate (split : Packet)

variable (options : Options) (mux : Mux) (audio : Bool) (packet : Packet)

def base : Int :=
  if !options.segmented ∨ mux.segmentStart = noPts then 0 else mux.segmentStart

/-- `FromNs` of a time of the segment, not before its start. -/
def fromNs (time : Int) : Int :=
  let ns := int64 (time - base options mux)
  let value := if ns = noPts then noPts else options.rescale audio ns
  if 0 < base options mux ∧ value ≠ noPts ∧ value < 0 then 0 else value

def decodeTime : Int :=
  fromNs options mux audio (if packet.dts = noPts then packet.pts else packet.dts)

def trimLeadingAudio : Bool :=
  options.alignStart ∧ mux.firstVideoPts ≠ noPts ∧ packet.pts ≠ noPts ∧
    int64 (packet.pts + packet.duration) ≤ mux.firstVideoPts

def written : Written :=
  let last := (mux.streams audio).lastDts
  let dts := decodeTime options mux audio packet
  let dts := if dts ≠ noPts ∧ last ≠ noPts ∧ dts ≤ last then int64 (last + 1) else dts
  let pts := fromNs options mux audio packet.pts
  ⟨audio, if pts ≠ noPts ∧ dts ≠ noPts ∧ pts < dts then dts else pts, dts⟩

/-- `accepted` is whether the muxer takes the packet. -/
def act : Action → Mux
  | .addVideo first =>
    { mux with
      firstVideoPts := first.pts
      segmentStart := if options.segmented then first.pts else mux.segmentStart }
  | .write audio accepted packet =>
    if audio ∧ (mux.streams audio).packets = 0 ∧ trimLeadingAudio options mux packet then mux
    else
      let out := written options mux audio packet
      { mux with
        streams := update mux.streams audio
          ⟨out.dts, (mux.streams audio).packets + accepted.toNat⟩
        file := out :: mux.file }
  | .rotate split =>
    { segmentStart := split.pts
      firstVideoPts := split.pts
      finished := mux.file :: mux.finished }

/-- No time is missing and the last one has a successor in 64 bits. -/
def Timed : Action → Prop
  | .write audio _ packet => decodeTime options mux audio packet ≠ noPts ∧
      noPts ≤ (mux.streams audio).lastDts ∧ (mux.streams audio).lastDts < 2 ^ 63 - 1
  | _ => True

structure Ascending (file : List Written) : Prop where
  rising : file.Pairwise fun later earlier => later.audio = earlier.audio →
    later.dts ≠ noPts → earlier.dts ≠ noPts → earlier.dts < later.dts
  shown : ∀ out ∈ file, out.pts ≠ noPts → out.dts ≠ noPts → out.dts ≤ out.pts

structure Sound : Prop where
  finished : ∀ file ∈ mux.finished, Ascending file
  current : Ascending mux.file
  last : ∀ out ∈ mux.file, (mux.streams out.audio).lastDts ≠ noPts ∧
    out.dts ≤ (mux.streams out.audio).lastDts

variable {options mux} {audio packet}

theorem written_later {accepted : Bool} (timed : Timed options mux (.write audio accepted packet)) :
    (written options mux audio packet).dts ≠ noPts ∧ ((mux.streams audio).lastDts ≠ noPts →
      (mux.streams audio).lastDts < (written options mux audio packet).dts) := by
  obtain ⟨present, least, most⟩ := timed
  have exact : int64 ((mux.streams audio).lastDts + 1) = (mux.streams audio).lastDts + 1 := by
    rw [int64, UInt64.size, Int.bmod_eq_of_le] <;> simp only [noPts] at least ⊢ <;> omega
  simp only [written]
  split <;> omega

theorem sound_act (sound : Sound mux) {action : Action} (timed : Timed options mux action) :
    Sound (act options mux action) := by
  cases action with
  | addVideo first => exact { sound with }
  | rotate split =>
    exact ⟨forall_mem_cons.mpr ⟨sound.current, sound.finished⟩, ⟨.nil, nofun⟩, nofun⟩
  | write audio accepted packet =>
    obtain ⟨present, later⟩ := written_later timed
    simp only [act]
    split
    · exact sound
    refine ⟨sound.finished, ⟨pairwise_cons.mpr ⟨?_, sound.current.rising⟩,
      forall_mem_cons.mpr ⟨?_, sound.current.shown⟩⟩,
      forall_mem_cons.mpr ⟨by simpa [written] using present, ?_⟩⟩
    · rintro earlier inside rfl _ _
      obtain ⟨known, most⟩ := sound.last earlier inside
      exact most.trans_lt (later known)
    · simp only [written]
      split <;> omega
    · intro earlier inside
      obtain ⟨known, most⟩ := sound.last earlier inside
      rcases eq_or_ne earlier.audio audio with rfl | other
      · simpa using ⟨present, most.trans (later known).le⟩
      · simpa [update_of_ne other] using ⟨known, most⟩

/-- If no packet written lacks both its times, decode times rise within each file. -/
theorem decode_times_rise
    (reached : Reachable (· = {}) (Acts (fun mux => some ∘ act options mux) (Timed options)) mux) :
    ∀ file ∈ mux.file :: mux.finished, Ascending file := by
  have sound : Sound mux := by
    refine reachable_invariant Sound ?_ ?_ reached
    · rintro _ rfl
      exact ⟨nofun, ⟨.nil, nofun⟩, nofun⟩
    · rintro before _ _ sound ⟨action, timed, ⟨⟩⟩
      exact sound_act sound timed
  exact forall_mem_cons.mpr ⟨sound.current, sound.finished⟩

def plain : Options := ⟨false, true, fun _ time => time⟩

theorem repeated_times_rise : Ascending (act plain (act plain {} (.write false true ⟨10, 10, 0⟩))
    (.write false true ⟨10, 10, 0⟩)).file := by
  refine @decode_times_rise plain _ (.next (.next (.initial rfl) ⟨.write false true ⟨10, 10, 0⟩,
    ?_, rfl⟩) ⟨.write false true ⟨10, 10, 0⟩, ?_, rfl⟩) _ mem_cons_self <;>
  exact ⟨by decide, by decide, by decide⟩

/-- A packet without times makes the muxer forget the last decode time. -/
theorem missing_time_resets : ¬Ascending ([⟨10, 10, 0⟩, ⟨noPts, noPts, 0⟩, ⟨5, 5, 0⟩].foldl
    (fun mux packet => act plain mux (.write false true packet)) {}).file := by
  intro ascending
  have rising := ascending.rising
  revert rising
  decide

end Writing

end GraphEngine.MediaFiles
