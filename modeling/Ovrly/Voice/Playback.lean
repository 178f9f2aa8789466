import Ovrly.Ring
import Ovrly.Runs

/-!
The staging buffer of voice playback (`voice/VoicePlaybackBuffer.kt` of the Android app).

A writer is a function of the array and the range that it is offered; one that changes the array is
not modelled. A call whose argument or whose writer's answer fails a check throws and leaves the
buffer as it was.
-/

namespace Ovrly.Voice

open Runs

abbrev Bytes := List UInt8

structure VoicePlaybackBuffer where
  capacity : Nat
  bytes : Bytes
  head : Nat
  size : Nat
  deriving DecidableEq, Repr

namespace VoicePlaybackBuffer

/-- `CAPACITY` -/
def maxCapacity : Nat := 10000000

/-- The constructor; `none` when its argument is refused. -/
def create (capacity : Nat) : Option VoicePlaybackBuffer :=
  if 2 ≤ capacity ∧ capacity ≤ maxCapacity ∧ capacity % 2 = 0 then
    some ⟨capacity, List.replicate capacity 0, 0, 0⟩
  else none

def offer (buffer : VoicePlaybackBuffer) (pcm : Bytes) : Bool × VoicePlaybackBuffer :=
  if pcm = [] ∨ pcm.length % 2 ≠ 0 ∨ buffer.capacity - buffer.size < pcm.length then
    (false, buffer)
  else
    let tail := (buffer.head + buffer.size) % buffer.capacity
    let first := min pcm.length (buffer.capacity - tail)
    let bytes := Ring.put buffer.bytes tail (pcm.take first)
    (true, { buffer with
      bytes := Ring.put bytes 0 (pcm.drop first)
      size := buffer.size + pcm.length })

abbrev Writer := Bytes → Nat → Nat → Int

def offered (buffer : VoicePlaybackBuffer) (maxBytes : Int) : Nat :=
  min (min maxBytes.toNat buffer.size) (buffer.capacity - buffer.head)

def write (buffer : VoicePlaybackBuffer) (maxBytes : Int) (writer : Writer) :
    Option (Nat × VoicePlaybackBuffer) :=
  if maxBytes ≤ 0 ∨ maxBytes % 2 ≠ 0 then none
  else if buffer.size = 0 then some (0, buffer)
  else
    let length := buffer.offered maxBytes
    let written := writer buffer.bytes buffer.head length
    if written < 0 ∨ (length : Int) < written ∨ written % 2 ≠ 0 then none
    else
      let written := written.toNat
      some (written, { buffer with
        bytes := Ring.put buffer.bytes buffer.head (List.replicate written 0)
        head := (buffer.head + written) % buffer.capacity
        size := buffer.size - written })

def clear (buffer : VoicePlaybackBuffer) : VoicePlaybackBuffer :=
  { buffer with bytes := List.replicate buffer.capacity 0, head := 0, size := 0 }

inductive Action
  | offer (pcm : Bytes)
  | write (maxBytes : Int) (writer : Writer)
  | clear

/-- The buffer, and the bytes that it took and that writers consumed since it was cleared. -/
structure Playback where
  buffer : VoicePlaybackBuffer
  accepted : Bytes := []
  consumed : Bytes := []

def Playback.step (playback : Playback) : Action → Playback
  | .offer pcm =>
      let (taken, buffer) := playback.buffer.offer pcm
      { playback with
        buffer := buffer
        accepted := if taken then playback.accepted ++ pcm else playback.accepted }
  | .write maxBytes writer =>
      match playback.buffer.write maxBytes writer with
      | none => playback
      | some (written, buffer) =>
          { playback with
            buffer := buffer
            consumed := playback.consumed ++
              (playback.buffer.bytes.drop playback.buffer.head).take written }
  | .clear => ⟨playback.buffer.clear, [], []⟩

/-- What is queued around the array. -/
structure Queued (buffer : VoicePlaybackBuffer) (queue : Bytes) : Prop where
  length : buffer.bytes.length = buffer.capacity
  inside : buffer.head < buffer.capacity
  size : buffer.size = queue.length
  even : queue.length % 2 = 0
  holds : Ring.Holds 0 buffer.bytes buffer.head queue

theorem Queued.fits {buffer : VoicePlaybackBuffer} {queue : Bytes} (queued : Queued buffer queue) :
    queue.length ≤ buffer.capacity :=
  queued.length ▸ queued.holds.fits

theorem create_queued {capacity : Nat} {buffer : VoicePlaybackBuffer}
    (created : create capacity = some buffer) :
    buffer.capacity = capacity ∧ Queued buffer [] := by
  unfold create at created
  split at created
  · next valid =>
      obtain rfl := Option.some.inj created
      exact ⟨rfl, List.length_replicate, by dsimp only; omega, rfl, rfl, Ring.holds_blank _ _⟩
  · cases created

/-- An offer is taken exactly when it is nonempty, even and fits, and then queued. -/
theorem offer_spec {buffer : VoicePlaybackBuffer} {queue : Bytes} (queued : Queued buffer queue)
    (pcm : Bytes) :
    (pcm ≠ [] ∧ pcm.length % 2 = 0 ∧ buffer.size + pcm.length ≤ buffer.capacity ∧
      ∃ after, buffer.offer pcm = (true, after) ∧ after.capacity = buffer.capacity ∧
        Queued after (queue ++ pcm)) ∨
    (¬ (pcm ≠ [] ∧ pcm.length % 2 = 0 ∧ buffer.size + pcm.length ≤ buffer.capacity) ∧
      buffer.offer pcm = (false, buffer)) := by
  have fits := queued.fits
  have isSize := queued.size
  unfold offer
  split
  · next refused =>
      refine Or.inr ⟨?_, rfl⟩
      rintro ⟨nonempty, even, room⟩
      rcases refused with empty | odd | full
      · exact nonempty empty
      · exact odd even
      · omega
  · next taken =>
      simp only [not_or, not_lt, ne_eq, not_not] at taken
      obtain ⟨nonempty, even, room⟩ := taken
      refine Or.inl ⟨nonempty, even, by omega, _, rfl, rfl, ?_⟩
      have inside := queued.inside
      have pushed := queued.holds.push pcm (by rw [queued.length]; omega)
        (by rw [queued.length]; exact inside)
      dsimp only at pushed
      rw [queued.length, ← isSize] at pushed
      refine ⟨?_, inside, ?_, ?_, pushed⟩
      · have below := Nat.mod_lt (buffer.head + buffer.size) (show 0 < buffer.capacity by omega)
        have length := queued.length
        have once : (Ring.put buffer.bytes ((buffer.head + buffer.size) % buffer.capacity)
            (pcm.take (min pcm.length (buffer.capacity -
              (buffer.head + buffer.size) % buffer.capacity)))).length = buffer.bytes.length :=
          Ring.length_put (by rw [List.length_take]; omega)
        dsimp only
        rw [Ring.length_put (by rw [List.length_drop]; omega), once, length]
      · rw [List.length_append, isSize]
      · rw [List.length_append]
        have even' := queued.even
        omega

/-- A write consumes a part of the front of the queue and leaves blanks there. -/
theorem write_spec {buffer after : VoicePlaybackBuffer} {queue : Bytes}
    (queued : Queued buffer queue) {maxBytes : Int} {writer : Writer} {written : Nat}
    (wrote : buffer.write maxBytes writer = some (written, after)) :
    after.capacity = buffer.capacity ∧ written ≤ queue.length ∧
      (buffer.bytes.drop buffer.head).take written = queue.take written ∧
      Queued after (queue.drop written) := by
  have fits := queued.fits
  have inside := queued.inside
  have isSize := queued.size
  have even := queued.even
  unfold write at wrote
  split at wrote
  · cases wrote
  · split at wrote
    · obtain ⟨rfl, rfl⟩ := Prod.mk.inj (Option.some.inj wrote)
      exact ⟨rfl, Nat.zero_le _, by simp, by simpa using queued⟩
    · dsimp only at wrote
      split at wrote
      · cases wrote
      · next answered =>
          obtain ⟨rfl, rfl⟩ := Prod.mk.inj (Option.some.inj wrote)
          simp only [not_or, not_lt, ne_eq, not_not] at answered
          obtain ⟨positive, bounded, parity⟩ := answered
          generalize writer buffer.bytes buffer.head (buffer.offered maxBytes) = count at *
          have range : count.toNat ≤ buffer.offered maxBytes := by omega
          unfold offered at range
          have queuedCount : count.toNat ≤ queue.length := by omega
          have straight : buffer.head + count.toNat ≤ buffer.bytes.length := by
            rw [queued.length]
            omega
          have popped := queued.holds.pop queuedCount straight
          rw [queued.length] at popped
          refine ⟨rfl, queuedCount, queued.holds.front queuedCount straight, ?_, ?_, ?_, ?_, popped⟩
          · dsimp only
            rw [Ring.length_put (by rw [List.length_replicate]; exact straight), queued.length]
          · exact Nat.mod_lt _ (by omega)
          · dsimp only
            rw [List.length_drop, isSize]
          · rw [List.length_drop]
            omega

theorem write_some (buffer : VoicePlaybackBuffer) {maxBytes : Int} {writer : Writer}
    {written : Nat} (positive : 0 < maxBytes) (even : maxBytes % 2 = 0)
    (answered : buffer.size ≠ 0 →
      writer buffer.bytes buffer.head (buffer.offered maxBytes) = written)
    (bounded : written ≤ buffer.offered maxBytes) (whole : written % 2 = 0) :
    ∃ after, buffer.write maxBytes writer = some (written, after) := by
  unfold write
  rw [if_neg (by omega)]
  split
  · next empty =>
      unfold offered at bounded
      obtain rfl : written = 0 := by omega
      exact ⟨buffer, rfl⟩
  · next filled =>
      dsimp only
      rw [answered filled, if_neg (by omega)]
      exact ⟨_, rfl⟩

structure Playback.Fifo (capacity : Nat) (playback : Playback) (queue : Bytes) : Prop where
  capacity : playback.buffer.capacity = capacity
  queued : Queued playback.buffer queue
  order : playback.accepted = playback.consumed ++ queue

theorem step_fifo {capacity : Nat} {playback : Playback} {queue : Bytes}
    (fifo : playback.Fifo capacity queue) (action : Action) :
    ∃ queue, (playback.step action).Fifo capacity queue := by
  cases action with
  | offer pcm =>
      rcases offer_spec fifo.queued pcm with ⟨-, -, -, after, taken, same, queued⟩ | ⟨-, refused⟩
      · simp only [Playback.step, taken]
        refine ⟨queue ++ pcm, same.trans fifo.capacity, queued, ?_⟩
        simp only [if_true, fifo.order, List.append_assoc]
      · simp only [Playback.step, refused]
        exact ⟨queue, fifo.capacity, fifo.queued, fifo.order⟩
  | write maxBytes writer =>
      cases wrote : playback.buffer.write maxBytes writer with
      | none =>
          simp only [Playback.step, wrote]
          exact ⟨queue, fifo⟩
      | some result =>
          obtain ⟨written, after⟩ := result
          obtain ⟨same, -, front, queued⟩ := write_spec fifo.queued wrote
          simp only [Playback.step, wrote]
          refine ⟨queue.drop written, same.trans fifo.capacity, queued, ?_⟩
          rw [front, List.append_assoc, List.take_append_drop]
          exact fifo.order
  | clear =>
      have inside := fifo.queued.inside
      exact ⟨[], fifo.capacity, ⟨List.length_replicate, by dsimp only [Playback.step, clear]; omega,
        rfl, rfl, Ring.holds_blank _ _⟩, rfl⟩

theorem run_fifo {capacity : Nat} {buffer : VoicePlaybackBuffer}
    (created : create capacity = some buffer) (actions : List Action) :
    ∃ queue, (exec Playback.step ⟨buffer, [], []⟩ actions).Fifo capacity queue := by
  obtain ⟨same, queued⟩ := create_queued created
  refine exec_invariant (fun playback => ∃ queue, Playback.Fifo capacity playback queue) ?_
    ⟨[], same, queued, rfl⟩ actions
  rintro _ action ⟨_, fifo⟩
  exact step_fifo fifo action

/-- The buffer is a bounded queue: consumed bytes are those accepted, in order; an offer is taken
exactly when it is nonempty, even and fits; what is not queued is zero; a write whose writer answers
an even count in range succeeds. -/
theorem playback_fifo {capacity : Nat} {buffer : VoicePlaybackBuffer}
    (created : create capacity = some buffer) (actions : List Action) :
    let playback := exec Playback.step ⟨buffer, [], []⟩ actions
    playback.consumed = playback.accepted.take playback.consumed.length ∧
      playback.buffer.size = playback.accepted.length - playback.consumed.length ∧
      playback.buffer.size ≤ capacity ∧ playback.buffer.size % 2 = 0 ∧
      playback.buffer.bytes.length = capacity ∧
      (∀ index < capacity, (∀ place < playback.buffer.size,
        index ≠ (playback.buffer.head + place) % capacity) →
          playback.buffer.bytes[index]? = some 0) ∧
      (∀ pcm, ((playback.buffer.offer pcm).1 = true ↔ pcm ≠ [] ∧ pcm.length % 2 = 0 ∧
          playback.buffer.size + pcm.length ≤ capacity) ∧
        ((playback.buffer.offer pcm).1 = false → (playback.buffer.offer pcm).2 = playback.buffer)) ∧
      ∀ maxBytes (writer : Writer) (written : Nat), 0 < maxBytes → maxBytes % 2 = 0 →
        (playback.buffer.size ≠ 0 → writer playback.buffer.bytes playback.buffer.head
          (playback.buffer.offered maxBytes) = written) →
        written ≤ playback.buffer.offered maxBytes → written % 2 = 0 →
        ∃ after, playback.buffer.write maxBytes writer = some (written, after) := by
  intro playback
  obtain ⟨queue, fifo⟩ := run_fifo created actions
  have isCapacity : playback.buffer.capacity = capacity := fifo.capacity
  have order : playback.accepted = playback.consumed ++ queue := fifo.order
  have isSize : playback.buffer.size = queue.length := fifo.queued.size
  have fits := fifo.queued.fits
  have length : playback.buffer.bytes.length = capacity := fifo.queued.length.trans isCapacity
  refine ⟨?_, ?_, ?_, ?_, length, ?_, ?_, fun _ _ _ => playback.buffer.write_some⟩
  · rw [order, List.take_left]
  · rw [order, List.length_append, isSize]
    omega
  · rw [isSize, ← isCapacity]
    exact fits
  · rw [isSize]
    exact fifo.queued.even
  · intro index inside unqueued
    refine fifo.queued.holds.outside ?_ (length.symm ▸ inside) ?_
    · exact length.trans isCapacity.symm ▸ fifo.queued.inside
    · rw [length, ← isSize]
      exact unqueued
  · intro pcm
    rw [← isCapacity]
    rcases offer_spec fifo.queued pcm with ⟨nonempty, even, room, after, taken, -⟩ | ⟨invalid, refused⟩
    · rw [taken]
      exact ⟨iff_of_true rfl ⟨nonempty, even, room⟩, fun same => absurd same (by simp)⟩
    · rw [refused]
      exact ⟨iff_of_false (by simp) invalid, fun _ => rfl⟩

theorem playback_fifo_example :
    let playback := exec Playback.step ⟨⟨4, [0, 0, 0, 0], 0, 0⟩, [], []⟩
      [.offer [1, 2, 3, 4], .write 2 fun _ _ _ => 2, .offer [5, 6]]
    playback.consumed = playback.accepted.take playback.consumed.length :=
  (playback_fifo (show create 4 = some ⟨4, [0, 0, 0, 0], 0, 0⟩ by decide)
    [.offer [1, 2, 3, 4], .write 2 fun _ _ _ => 2, .offer [5, 6]]).1

end VoicePlaybackBuffer

end Ovrly.Voice
