import Ovrly.Captures.Recorder

/-!
What the manifest of a capture keeps to at every save, whatever arrives while it is recorded.
-/

namespace Ovrly.Captures

open Runs Ovrly.Reports

section Grid

open CaptureLimits ChunkGrid

theorem seqAt_le (elapsedMs : Int) : seqAt elapsedMs ≤ lastSeq := by
  have seventeen : lastSeq = 17 := rfl
  simp only [seqAt, chunkMs, liveMs] at *
  omega

theorem startOf_seqAt {elapsedMs : Int} (started : 0 ≤ elapsedMs) :
    (startOf (seqAt elapsedMs) : Int) ≤ elapsedMs := by
  simp only [seqAt, startOf, chunkMs, liveMs]
  omega

theorem lt_endOf_seqAt {elapsedMs : Int} (live : elapsedMs < liveMs) :
    elapsedMs < endOf (seqAt elapsedMs) := by
  simp only [seqAt, endOf, startOf, chunkMs, liveMs] at *
  omega

theorem startOf_lt_endOf {seq : Nat} (bounded : seq ≤ lastSeq) : startOf seq < endOf seq := by
  have seventeen : lastSeq = 17 := rfl
  simp only [endOf, startOf, chunkMs, liveMs]
  omega

theorem endOf_le_startOf {seq later : Nat} (before : seq < later) : endOf seq ≤ startOf later := by
  simp only [endOf, startOf, chunkMs, liveMs]
  omega

theorem startOf_mono {seq later : Nat} (before : seq ≤ later) : startOf seq ≤ startOf later :=
  Nat.mul_le_mul_right _ before

end Grid

section Manifest

open CaptureLimits ChunkGrid

/-- What every saved manifest keeps: its chunks follow the grid in order, only the last may be
short, and a finished one ends where its short chunk ends. -/
structure Laid (manifest : LocalManifest) : Prop where
  ordered : manifest.chunks.Pairwise (·.seq < ·.seq)
  inCell : ∀ chunk ∈ manifest.chunks, chunk.startMs = startOf chunk.seq ∧
    chunk.startMs < chunk.endMs ∧ chunk.endMs ≤ endOf chunk.seq
  shortLast : ∀ chunk ∈ manifest.chunks, chunk.endMs ≠ endOf chunk.seq →
    (∀ other ∈ manifest.chunks, other.seq ≤ chunk.seq) ∧
      ∀ skipped ∈ manifest.skippedSeqs, skipped < chunk.seq
  skipped : ∀ skipped ∈ manifest.skippedSeqs, skipped ≤ lastSeq
  ended : manifest.finished = true → manifest.durationMs ≤ liveMs ∧
    ∀ chunk ∈ manifest.chunks, chunk.endMs ≤ manifest.durationMs ∧
      (chunk.endMs ≠ endOf chunk.seq → chunk.endMs = manifest.durationMs)

theorem endOf_le_live (seq : Nat) : endOf seq ≤ liveMs := min_le_right _ _

theorem le_getD_max? {items : List Nat} {item : Nat} (member : item ∈ items) :
    item ≤ items.max?.getD 0 := by
  cases found : items.max? with
  | none =>
      rw [List.max?_eq_none_iff] at found
      rw [found] at member
      cases member
  | some largest => exact (List.max?_eq_some_iff.mp found).2 item member

theorem getD_max?_le {items : List Nat} {bound : Nat} (below : ∀ item ∈ items, item ≤ bound) :
    items.max?.getD 0 ≤ bound := by
  cases found : items.max? with
  | none => exact Nat.zero_le bound
  | some largest => exact below largest (List.max?_eq_some_iff.mp found).1

theorem Laid.unique {manifest : LocalManifest} (laid : Laid manifest) {chunk other : SealedChunk}
    (member : chunk ∈ manifest.chunks) (listed : other ∈ manifest.chunks)
    (same : chunk.seq = other.seq) : chunk = other := by
  have distinct : (manifest.chunks.map (·.seq)).Nodup :=
    List.pairwise_map.mpr (laid.ordered.imp fun before => Nat.ne_of_lt before)
  exact List.inj_on_of_nodup_map distinct member listed same

/-- A capture finalized after its process died ends where its last chunk ends. -/
theorem Laid.finalized {stored : LocalManifest} (laid : Laid stored) :
    Laid (ChunkStorage.finalizeInterrupted stored) where
  ordered := laid.ordered
  inCell := laid.inCell
  shortLast := laid.shortLast
  skipped := laid.skipped
  ended _ := by
    have bounded : ∀ bound : Nat, (∀ chunk ∈ stored.chunks, chunk.endMs ≤ bound) →
        (∀ skipped ∈ stored.skippedSeqs, endOf skipped ≤ bound) →
        (ChunkStorage.finalizeInterrupted stored).durationMs ≤ bound := by
      intro bound chunks skipped
      apply max_le
      · refine getD_max?_le fun item member => ?_
        obtain ⟨chunk, listed, rfl⟩ := List.mem_map.mp member
        exact chunks chunk listed
      · refine getD_max?_le fun item member => ?_
        obtain ⟨seq, listed, rfl⟩ := List.mem_map.mp member
        exact skipped seq listed
    have covers : ∀ chunk ∈ stored.chunks,
        chunk.endMs ≤ (ChunkStorage.finalizeInterrupted stored).durationMs := fun chunk member =>
      (le_getD_max? (List.mem_map_of_mem member)).trans (le_max_left _ _)
    refine ⟨?_, fun chunk member => ⟨covers chunk member, fun short => ?_⟩⟩
    · exact bounded liveMs
        (fun chunk member => (laid.inCell chunk member).2.2.trans (endOf_le_live _))
        fun skipped _ => endOf_le_live skipped
    · obtain ⟨chunksBefore, skippedBefore⟩ := laid.shortLast chunk member short
      have cell := laid.inCell chunk member
      refine Nat.le_antisymm (covers chunk member) (bounded chunk.endMs ?_ ?_)
      · intro other listed
        by_cases same : other.seq = chunk.seq
        · have equal : other = chunk := laid.unique listed member same
          rw [equal]
        · have before : other.seq < chunk.seq :=
            Nat.lt_of_le_of_ne (chunksBefore other listed) same
          have step := endOf_le_startOf before
          have otherCell := laid.inCell other listed
          omega
      · intro skipped listed
        have step := endOf_le_startOf (skippedBefore skipped listed)
        omega

end Manifest

section Recording

open CaptureLimits ChunkGrid ChunkStorage

variable {build : ChunkPackage.Build}

/-- While a capture runs: every sealed chunk fills its cell, and the chunks still pending follow
in order. -/
structure Queued (storage : ChunkStorage) (pending : List Nat) : Prop where
  ordered : storage.manifest.chunks.Pairwise (·.seq < ·.seq)
  full : ∀ chunk ∈ storage.manifest.chunks, chunk.seq ≤ lastSeq ∧
    chunk.startMs = startOf chunk.seq ∧ chunk.endMs = endOf chunk.seq
  skipped : ∀ skipped ∈ storage.manifest.skippedSeqs, skipped ≤ lastSeq
  chunksBefore : ∀ chunk ∈ storage.manifest.chunks, ∀ seq ∈ pending, chunk.seq < seq
  skippedBefore : ∀ skipped ∈ storage.manifest.skippedSeqs, ∀ seq ∈ pending, skipped < seq
  waiting : pending.Pairwise (· < ·)
  bounded : ∀ seq ∈ pending, seq ≤ lastSeq
  recording : storage.manifest.finished = false
  written : ∀ stored ∈ storage.written, Laid stored

theorem Queued.counted {storage : ChunkStorage} {pending : List Nat}
    (queued : Queued storage pending) (counts : FrameCounts) :
    Queued { storage with counts } pending :=
  ⟨queued.ordered, queued.full, queued.skipped, queued.chunksBefore, queued.skippedBefore,
    queued.waiting, queued.bounded, queued.recording, queued.written⟩

theorem Queued.countFrame {storage : ChunkStorage} {pending : List Nat}
    (queued : Queued storage pending) (text : FrameText) (place : Option Nat) :
    Queued (storage.countFrame text place) pending := by
  cases place with
  | none =>
      by_cases live : text.framePtsMs < liveMs
      · simp only [ChunkStorage.countFrame, if_pos live]
        exact queued.counted _
      · simp only [ChunkStorage.countFrame, if_neg live]
        exact queued
  | some seq => exact queued.counted _

theorem sealChunk_manifest (storage : ChunkStorage) (chunk : OpenChunk) (endMs : Nat) :
    (storage.sealChunk build chunk endMs).manifest =
      sealedManifest build storage.manifest chunk endMs := rfl

theorem sealChunk_written (storage : ChunkStorage) (chunk : OpenChunk) (endMs : Nat) :
    (storage.sealChunk build chunk endMs).written =
      sealedManifest build storage.manifest chunk endMs :: storage.written := rfl

theorem sealedManifest_cases (build : ChunkPackage.Build) (manifest : LocalManifest)
    (chunk : OpenChunk) (endMs : Nat) :
    sealedManifest build manifest chunk endMs = manifest ∨
      (sealedManifest build manifest chunk endMs =
        { manifest with skippedSeqs := manifest.skippedSeqs ++ [chunk.seq] }) ∨
      startOf chunk.seq < endMs ∧ ∃ added : SealedChunk, added.seq = chunk.seq ∧
        added.startMs = startOf chunk.seq ∧ added.endMs = endMs ∧
        sealedManifest build manifest chunk endMs =
          { manifest with chunks := manifest.chunks ++ [added] } := by
  unfold sealedManifest
  by_cases empty : endMs ≤ startOf chunk.seq
  · exact Or.inl (if_pos empty)
  · rw [if_neg empty]
    cases ChunkPackage.modality chunk.audioBytes
        (chunk.frames.countP (·.status != .failed)) with
    | none => exact Or.inr (Or.inl rfl)
    | some modality =>
        exact Or.inr (Or.inr ⟨Nat.lt_of_not_le empty,
          sealedChunk build chunk endMs modality, rfl, rfl, rfl, rfl⟩)

theorem Queued.laid {storage : ChunkStorage} {pending : List Nat} (queued : Queued storage pending) :
    Laid storage.manifest where
  ordered := queued.ordered
  inCell chunk member := by
    obtain ⟨bounded, start, full⟩ := queued.full chunk member
    have room := startOf_lt_endOf bounded
    omega
  shortLast chunk member short := absurd (queued.full chunk member).2.2 short
  skipped := queued.skipped
  ended finished := by
    rw [queued.recording] at finished
    cases finished

theorem Queued.sealedShort {storage : ChunkStorage} {chunk : OpenChunk}
    (queued : Queued storage [chunk.seq]) {endMs : Nat} (within : endMs ≤ endOf chunk.seq) :
    Laid (sealedManifest build storage.manifest chunk endMs) := by
  have laid := queued.laid
  have last : chunk.seq ≤ lastSeq := queued.bounded _ (List.mem_singleton_self _)
  rcases sealedManifest_cases build storage.manifest chunk endMs with
    same | same | ⟨started, added, seq, start, ended, same⟩
  · rw [same]
    exact laid
  · rw [same]
    refine { laid with shortLast := ?_, skipped := ?_, ended := ?_ }
    · exact fun other member short => absurd (queued.full other member).2.2 short
    · intro skipped member
      rcases List.mem_append.mp member with earlier | new
      · exact queued.skipped skipped earlier
      · rw [List.mem_singleton.mp new]
        exact last
    · exact laid.ended
  · rw [same]
    constructor
    · refine List.pairwise_append.mpr ⟨queued.ordered, List.pairwise_singleton _ _, ?_⟩
      intro other member new single
      rw [List.mem_singleton.mp single, seq]
      exact queued.chunksBefore other member _ (List.mem_singleton_self _)
    · intro other member
      rcases List.mem_append.mp member with earlier | new
      · exact laid.inCell other earlier
      · rw [List.mem_singleton.mp new, seq, start, ended]
        exact ⟨rfl, started, within⟩
    · intro other member short
      rcases List.mem_append.mp member with earlier | new
      · exact absurd (queued.full other earlier).2.2 short
      · rw [List.mem_singleton.mp new, seq]
        refine ⟨fun another listed => ?_, fun skipped listed =>
          queued.skippedBefore skipped listed _ (List.mem_singleton_self _)⟩
        rcases List.mem_append.mp listed with known | single
        · exact Nat.le_of_lt (queued.chunksBefore another known _ (List.mem_singleton_self _))
        · rw [List.mem_singleton.mp single, seq]
    · exact queued.skipped
    · intro finished
      have stopped : storage.manifest.finished = true := finished
      rw [queued.recording] at stopped
      cases stopped

theorem Queued.sealed {storage : ChunkStorage} {chunk : OpenChunk} {rest : List Nat}
    (queued : Queued storage (chunk.seq :: rest)) :
    Queued (storage.sealChunk build chunk (endOf chunk.seq)) rest := by
  have last : chunk.seq ≤ lastSeq := queued.bounded _ List.mem_cons_self
  have later : ∀ seq ∈ rest, chunk.seq < seq := (List.pairwise_cons.mp queued.waiting).1
  have tail : ∀ seq ∈ rest, seq ∈ chunk.seq :: rest := fun _ => List.mem_cons_of_mem _
  have alone : Queued storage [chunk.seq] :=
    { queued with
      chunksBefore := fun other member seq single => queued.chunksBefore other member seq
        (by rw [List.mem_singleton.mp single]; exact List.mem_cons_self)
      skippedBefore := fun skipped member seq single => queued.skippedBefore skipped member seq
        (by rw [List.mem_singleton.mp single]; exact List.mem_cons_self)
      waiting := List.pairwise_singleton _ _
      bounded := fun seq single => by rw [List.mem_singleton.mp single]; exact last }
  have written : ∀ stored ∈ (storage.sealChunk build chunk (endOf chunk.seq)).written,
      Laid stored := by
    intro stored member
    rw [sealChunk_written] at member
    rcases List.mem_cons.mp member with newest | earlier
    · rw [newest]
      exact alone.sealedShort le_rfl
    · exact queued.written stored earlier
  have waiting := (List.pairwise_cons.mp queued.waiting).2
  have bounded : ∀ seq ∈ rest, seq ≤ lastSeq := fun seq member => queued.bounded seq (tail seq member)
  rcases sealedManifest_cases build storage.manifest chunk (endOf chunk.seq) with
    same | same | ⟨-, added, seq, start, ended, same⟩
  · have kept : (storage.sealChunk build chunk (endOf chunk.seq)).manifest = storage.manifest :=
      (sealChunk_manifest storage chunk _).trans same
    refine ⟨?_, ?_, ?_, ?_, ?_, waiting, bounded, ?_, written⟩ <;> rw [kept]
    · exact queued.ordered
    · exact queued.full
    · exact queued.skipped
    · exact fun other member seq listed => queued.chunksBefore other member seq (tail seq listed)
    · exact fun other member seq listed => queued.skippedBefore other member seq (tail seq listed)
    · exact queued.recording
  · have kept : (storage.sealChunk build chunk (endOf chunk.seq)).manifest =
        { storage.manifest with skippedSeqs := storage.manifest.skippedSeqs ++ [chunk.seq] } :=
      (sealChunk_manifest storage chunk _).trans same
    refine ⟨?_, ?_, ?_, ?_, ?_, waiting, bounded, ?_, written⟩ <;> rw [kept]
    · exact queued.ordered
    · exact queued.full
    · intro skipped member
      rcases List.mem_append.mp member with earlier | new
      · exact queued.skipped skipped earlier
      · rw [List.mem_singleton.mp new]
        exact last
    · exact fun other member seq listed => queued.chunksBefore other member seq (tail seq listed)
    · intro skipped member seq listed
      rcases List.mem_append.mp member with earlier | new
      · exact queued.skippedBefore skipped earlier seq (tail seq listed)
      · rw [List.mem_singleton.mp new]
        exact later seq listed
    · exact queued.recording
  · have kept : (storage.sealChunk build chunk (endOf chunk.seq)).manifest =
        { storage.manifest with chunks := storage.manifest.chunks ++ [added] } :=
      (sealChunk_manifest storage chunk _).trans same
    refine ⟨?_, ?_, ?_, ?_, ?_, waiting, bounded, ?_, written⟩ <;> rw [kept]
    · refine List.pairwise_append.mpr ⟨queued.ordered, List.pairwise_singleton _ _, ?_⟩
      intro other member new single
      rw [List.mem_singleton.mp single, seq]
      exact queued.chunksBefore other member _ List.mem_cons_self
    · intro other member
      rcases List.mem_append.mp member with earlier | new
      · exact queued.full other earlier
      · rw [List.mem_singleton.mp new, seq]
        exact ⟨last, start, ended⟩
    · exact queued.skipped
    · intro other member number listed
      rcases List.mem_append.mp member with earlier | new
      · exact queued.chunksBefore other earlier number (tail number listed)
      · rw [List.mem_singleton.mp new, seq]
        exact later number listed
    · exact fun other member seq listed => queued.skippedBefore other member seq (tail seq listed)
    · exact queued.recording

theorem Queued.sealHeld {reading : List Int} {held : List OpenChunk} {rest : List Nat}
    {storage : ChunkStorage} (queued : Queued storage (held.map (·.seq) ++ rest)) :
    Queued (ChunkCursor.sealHeld build reading held storage).2
      ((ChunkCursor.sealHeld build reading held storage).1.map (·.seq) ++ rest) := by
  induction held generalizing storage with
  | nil => exact queued
  | cons chunk held ih =>
      unfold ChunkCursor.sealHeld
      by_cases waits : ChunkCursor.waits reading chunk = true
      · rw [if_pos waits]
        exact queued
      · rw [if_neg waits]
        exact ih queued.sealed

theorem Queued.extended {storage : ChunkStorage} {before : List Nat} {seq : Nat}
    (queued : Queued storage (before ++ [seq])) (room : seq < lastSeq) :
    Queued storage (before ++ [seq] ++ [seq + 1]) := by
  have newest : ∀ number ∈ before ++ [seq], number < seq + 1 := by
    intro number member
    rcases List.mem_append.mp member with earlier | last
    · have order := (List.pairwise_append.mp queued.waiting).2.2 number earlier seq
        (List.mem_singleton_self _)
      omega
    · rw [List.mem_singleton.mp last]
      exact Nat.lt_succ_self seq
  have present : seq ∈ before ++ [seq] := List.mem_append_right _ (List.mem_singleton_self _)
  refine { queued with chunksBefore := ?_, skippedBefore := ?_, waiting := ?_, bounded := ?_ }
  · intro chunk member number listed
    rcases List.mem_append.mp listed with known | added
    · exact queued.chunksBefore chunk member number known
    · have order := queued.chunksBefore chunk member seq present
      rw [List.mem_singleton.mp added]
      omega
  · intro skipped member number listed
    rcases List.mem_append.mp listed with known | added
    · exact queued.skippedBefore skipped member number known
    · have order := queued.skippedBefore skipped member seq present
      rw [List.mem_singleton.mp added]
      omega
  · refine List.pairwise_append.mpr ⟨queued.waiting, List.pairwise_singleton _ _, ?_⟩
    intro number member added single
    rw [List.mem_singleton.mp single]
    exact newest number member
  · intro number listed
    rcases List.mem_append.mp listed with known | added
    · exact queued.bounded number known
    · rw [List.mem_singleton.mp added]
      exact room

/-- A chunk is open and the held ones precede it. -/
structure Going (cursor : ChunkCursor) (seq : Nat) : Prop where
  opened : cursor.current.map (·.seq) = some seq
  queued : Queued cursor.storage (cursor.held.map (·.seq) ++ [seq])

theorem Going.bounded {cursor : ChunkCursor} {seq : Nat} (going : Going cursor seq) :
    seq ≤ lastSeq := going.queued.bounded seq (List.mem_append_right _ (List.mem_singleton_self _))

variable (build)

theorem Going.sealReleased {cursor : ChunkCursor} {seq : Nat} (going : Going cursor seq) :
    Going (cursor.sealReleased build) seq :=
  ⟨going.opened, going.queued.sealHeld⟩

theorem Going.expireStale {cursor : ChunkCursor} {seq : Nat} (going : Going cursor seq)
    (nowMs : Int) : Going (cursor.expireStale build nowMs) seq := by
  unfold ChunkCursor.expireStale
  dsimp only
  split
  · exact going
  · exact Going.sealReleased build ⟨going.opened, going.queued.counted _⟩

theorem Going.turn {cursor : ChunkCursor} {chunk : OpenChunk} (going : Going cursor chunk.seq)
    (room : chunk.seq < lastSeq) : Going (cursor.turn build chunk) (chunk.seq + 1) := by
  have extended := going.queued.extended room
  unfold ChunkCursor.turn
  by_cases busy : (!cursor.held.isEmpty || cursor.waitsForFrame chunk) = true
  · simp only [if_pos busy]
    refine ⟨rfl, ?_⟩
    rw [List.map_append, List.map_singleton]
    exact extended
  · simp only [if_neg busy]
    refine ⟨rfl, ?_⟩
    have idle : cursor.held = [] := by
      simp only [Bool.or_eq_true, not_or] at busy
      simpa using busy.1
    rw [idle] at extended ⊢
    exact extended.sealed

theorem turns_going {count : Nat} {cursor : ChunkCursor} {chunk : OpenChunk}
    (going : Going cursor chunk.seq) (room : chunk.seq + count ≤ lastSeq) :
    Going (ChunkCursor.turns build count cursor chunk).1 (chunk.seq + count) ∧
      (ChunkCursor.turns build count cursor chunk).2.seq = chunk.seq + count := by
  induction count generalizing cursor chunk with
  | zero => exact ⟨going, rfl⟩
  | succ count ih =>
      have opened : Going (cursor.turn build chunk) (openChunk (chunk.seq + 1)).seq :=
        going.turn build (by omega)
      have sum : (openChunk (chunk.seq + 1)).seq + count = chunk.seq + (count + 1) :=
        Nat.succ_add_eq_add_succ chunk.seq count
      have next := ih opened (by omega)
      rw [sum] at next
      exact next

def Idle (cursor : ChunkCursor) : Prop := cursor.reading = [] ∧ cursor.held = []

theorem Idle.turns {count : Nat} {cursor : ChunkCursor} {chunk : OpenChunk} (idle : Idle cursor) :
    Idle (ChunkCursor.turns build count cursor chunk).1 := by
  induction count generalizing cursor chunk with
  | zero => exact idle
  | succ count ih =>
      apply ih
      have calm : (!cursor.held.isEmpty || cursor.waitsForFrame chunk) = false := by
        simp [ChunkCursor.waitsForFrame, ChunkCursor.waits, idle.1, idle.2]
      unfold ChunkCursor.turn
      simp only [calm, Bool.false_eq_true, if_false]
      exact ⟨idle.1, idle.2⟩

theorem Idle.expireStale {cursor : ChunkCursor} (idle : Idle cursor) (nowMs : Int) :
    cursor.expireStale build nowMs = cursor := by
  unfold ChunkCursor.expireStale
  simp only [idle.1, List.filter_nil, List.isEmpty_nil, if_true]

theorem chunkFor_going {cursor : ChunkCursor} {seq : Nat} (going : Going cursor seq)
    (elapsedMs : Int) (acceptLate : Bool) :
    ∃ place moved next, cursor.chunkFor build elapsedMs acceptLate = .ok (place, moved) ∧
      Going moved next ∧ (next = seq ∨ (startOf next : Int) ≤ elapsedMs) ∧
      (elapsedMs < liveMs → seqAt elapsedMs ≤ next) ∧ (Idle cursor → Idle moved) := by
  obtain ⟨chunk, current, rfl⟩ := Option.map_eq_some_iff.mp going.opened
  have last := seqAt_le elapsedMs
  have bounded := going.bounded
  have expired := going.expireStale build elapsedMs
  unfold ChunkCursor.chunkFor
  rw [current]
  refine ⟨_, _, _, rfl, (turns_going build expired ?_).1, ?_, ?_, fun idle => ?_⟩
  · split <;> omega
  · by_cases live : elapsedMs < liveMs
    · rw [if_pos live]
      by_cases ahead : chunk.seq < seqAt elapsedMs
      · right
        have started : 0 ≤ elapsedMs := by
          by_contra early
          have first : seqAt elapsedMs = 0 := by
            simp only [seqAt, chunkMs, liveMs]
            omega
          omega
        have reached : chunk.seq + (seqAt elapsedMs - chunk.seq) = seqAt elapsedMs := by omega
        rw [reached]
        exact startOf_seqAt started
      · left
        omega
    · rw [if_neg live]
      exact Or.inl rfl
  · intro live
    rw [if_pos live]
    omega
  · apply Idle.turns
    rw [idle.expireStale build]
    exact idle

theorem Going.write {cursor : ChunkCursor} {seq : Nat} (going : Going cursor seq)
    {edit : OpenChunk → OpenChunk} (same : ∀ chunk, (edit chunk).seq = chunk.seq) (place : Nat) :
    Going (cursor.write place edit) seq := by
  have kept : ∀ chunk : OpenChunk,
      (if chunk.seq = place then edit chunk else chunk).seq = chunk.seq := by
    intro chunk
    by_cases here : chunk.seq = place
    · rw [if_pos here]
      exact same chunk
    · rw [if_neg here]
  unfold ChunkCursor.write
  dsimp only
  split
  · refine ⟨going.opened, ?_⟩
    simp only [List.map_map, Function.comp_def, kept]
    exact going.queued
  · refine ⟨?_, going.queued⟩
    simp only [Option.map_map, Function.comp_def, kept]
    exact going.opened

theorem Going.writeAt {cursor : ChunkCursor} {seq : Nat} (going : Going cursor seq)
    {edit : OpenChunk → OpenChunk} (same : ∀ chunk, (edit chunk).seq = chunk.seq)
    (place : Option Nat) : Going (cursor.writeAt edit place) seq := by
  cases place with
  | none => exact going
  | some number => exact going.write same number

theorem addFrame_seq (text : FrameText) (chunk : OpenChunk) :
    (ChunkCursor.addFrame text chunk).seq = chunk.seq := rfl

theorem addAudio_seq (bytes : List UInt8) (chunk : OpenChunk) :
    (ChunkCursor.addAudio bytes chunk).seq = chunk.seq := rfl

theorem frameDone_going {cursor : ChunkCursor} {seq : Nat} (going : Going cursor seq)
    (text : FrameText) :
    ∃ moved next, cursor.frameDone build text = .ok moved ∧ Going moved next ∧
      (next = seq ∨ (startOf next : Int) ≤ text.framePtsMs) := by
  have taken : Going { cursor with reading := cursor.reading.erase text.framePtsMs } seq :=
    ⟨going.opened, going.queued⟩
  have settled : ∀ {moved : ChunkCursor} {next : Nat} (place : Option Nat), Going moved next →
      Going (if text.framePtsMs ∈ cursor.reading then
        (({ moved with storage := moved.storage.countFrame text place } : ChunkCursor).writeAt
          (ChunkCursor.addFrame text) place).sealReleased build
        else ({ moved with storage := moved.storage.countFrame text place } : ChunkCursor).writeAt
          (ChunkCursor.addFrame text) place) next := by
    intro moved next place held
    have counted : Going { moved with storage := moved.storage.countFrame text place } next :=
      ⟨held.opened, held.queued.countFrame text place⟩
    have written := counted.writeAt (addFrame_seq text) place
    split
    · exact written.sealReleased build
    · exact written
  unfold ChunkCursor.frameDone
  by_cases late : text.framePtsMs ∈ cursor.expired
  · exact ⟨{ cursor with expired := cursor.expired.erase text.framePtsMs }, seq,
      by simp only [if_pos late, pure, Except.pure], ⟨going.opened, going.queued⟩, Or.inl rfl⟩
  · by_cases held : cursor.held.any (·.seq == seqAt text.framePtsMs) = true
    · exact ⟨_, seq, by simp only [if_neg late, if_pos held, bind, Except.bind, pure, Except.pure],
        settled (some (seqAt text.framePtsMs)) taken, Or.inl rfl⟩
    · obtain ⟨place, moved, next, found, further, reached, -, -⟩ :=
        chunkFor_going build taken text.framePtsMs false
      exact ⟨_, next, by
        simp only [if_neg late, if_neg held, found, bind, Except.bind, pure, Except.pure],
        settled place further, reached⟩

theorem step_going {cursor : ChunkCursor} {seq : Nat} (going : Going cursor seq)
    (event : CaptureFiles.Event) :
    ∃ next, Going (CaptureFiles.step build cursor event) next ∧
      (next = seq ∨ (startOf next : Int) ≤ event.elapsedMs) := by
  have some : cursor.current.isNone = false := by
    obtain ⟨chunk, current, -⟩ := Option.map_eq_some_iff.mp going.opened
    rw [current]
    rfl
  cases event with
  | writeAudio bytes elapsedMs =>
      obtain ⟨place, moved, next, found, further, reached, -, -⟩ :=
        chunkFor_going build going elapsedMs true
      refine ⟨next, ?_, reached⟩
      simp only [CaptureFiles.step, CaptureFiles.handle, CaptureFiles.writeAudio, found, bind,
        Except.bind, pure, Except.pure]
      exact further.writeAt (addAudio_seq bytes) place
  | frameStarted elapsedMs =>
      refine ⟨seq, ?_, Or.inl rfl⟩
      simp only [CaptureFiles.step, CaptureFiles.handle, ChunkCursor.frameStarted]
      split
      · exact going
      · exact ⟨going.opened, going.queued⟩
  | release elapsedMs =>
      refine ⟨seq, ?_, Or.inl rfl⟩
      simp only [CaptureFiles.step, CaptureFiles.handle, ChunkCursor.release]
      split
      · exact Going.sealReleased build ⟨going.opened, going.queued⟩
      · exact ⟨going.opened, going.queued⟩
  | writeFrame text =>
      simp only [CaptureFiles.step, CaptureFiles.handle, CaptureFiles.writeFrame]
      rw [some, if_neg Bool.false_ne_true]
      by_cases capped : text.status = .capped
      · rw [if_pos capped]
        exact ⟨seq, ⟨going.opened, going.queued.counted _⟩, Or.inl rfl⟩
      · rw [if_neg capped]
        obtain ⟨moved, next, done, further, reached⟩ := frameDone_going build going text
        rw [done]
        exact ⟨next, further, reached⟩
  | advance elapsedMs =>
      simp only [CaptureFiles.step, CaptureFiles.handle, CaptureFiles.advance]
      by_cases live : cursor.current.isSome ∧ elapsedMs < liveMs
      · obtain ⟨place, moved, next, found, further, reached, -, -⟩ :=
          chunkFor_going build going elapsedMs true
        refine ⟨next, ?_, reached⟩
        simp only [if_pos live, found, bind, Except.bind, pure, Except.pure]
        exact further
      · refine ⟨seq, ?_, Or.inl rfl⟩
        simp only [if_neg live, pure, Except.pure]
        exact going

theorem begin_going (sessionId : Uuid) : Going (CaptureFiles.begin sessionId) 0 where
  opened := rfl
  queued :=
    { ordered := List.Pairwise.nil
      full := fun chunk member => by cases member
      skipped := fun skipped member => by cases member
      chunksBefore := fun chunk member => by cases member
      skippedBefore := fun skipped member => by cases member
      waiting := List.pairwise_singleton _ _
      bounded := fun seq member => by
        rw [List.mem_singleton.mp member]
        exact Nat.zero_le _
      recording := rfl
      written := fun stored member => by
        rw [List.mem_singleton.mp member]
        exact
          { ordered := List.Pairwise.nil
            inCell := fun chunk listed => by cases listed
            shortLast := fun chunk listed => by cases listed
            skipped := fun skipped listed => by cases listed
            ended := fun finished => by cases finished } }

theorem run_going {cursor : ChunkCursor} {seq : Nat} (going : Going cursor seq)
    (events : List CaptureFiles.Event) :
    ∃ next, Going (exec (CaptureFiles.step build) cursor events) next ∧
      (next = seq ∨ ∃ event ∈ events, (startOf next : Int) ≤ event.elapsedMs) := by
  induction events generalizing cursor seq with
  | nil => exact ⟨seq, going, Or.inl rfl⟩
  | cons event rest ih =>
      obtain ⟨middle, further, reached⟩ := step_going build going event
      obtain ⟨next, last, later⟩ := ih further
      refine ⟨next, last, ?_⟩
      rcases later with rfl | ⟨other, member, bound⟩
      · rcases reached with rfl | bound
        · exact Or.inl rfl
        · exact Or.inr ⟨event, List.mem_cons_self, bound⟩
      · exact Or.inr ⟨other, List.mem_cons_of_mem _ member, bound⟩

theorem sealHeld_unread (held : List OpenChunk) (storage : ChunkStorage) :
    (ChunkCursor.sealHeld build [] held storage).1 = [] := by
  induction held generalizing storage with
  | nil => rfl
  | cons chunk held ih =>
      unfold ChunkCursor.sealHeld
      rw [if_neg (by simp [ChunkCursor.waits])]
      exact ih _

theorem atEnd_going {cursor : ChunkCursor} {seq durationMs : Nat} (going : Going cursor seq)
    (idle : Idle cursor) (live : durationMs ≤ liveMs) (reached : startOf seq ≤ durationMs) :
    ∃ moved last, cursor.atEnd build durationMs = .ok moved ∧ Going moved last ∧ Idle moved ∧
      startOf last ≤ durationMs ∧ durationMs ≤ endOf last := by
  unfold ChunkCursor.atEnd
  by_cases lasting : 0 < durationMs
  · obtain ⟨place, moved, last, found, further, later, behind, kept⟩ :=
      chunkFor_going build going ((durationMs : Int) - 1) true
    rw [if_pos lasting, found]
    refine ⟨moved, last, rfl, further, kept idle, ?_, ?_⟩
    · rcases later with rfl | bound
      · exact reached
      · omega
    · have before : ((durationMs : Int) - 1) < liveMs := by omega
      have inside := lt_endOf_seqAt before
      have monotone : endOf (seqAt ((durationMs : Int) - 1)) ≤ endOf last :=
        min_le_min_right _ (Nat.add_le_add_right (startOf_mono (behind before)) _)
      omega
  · rw [if_neg lasting]
    exact ⟨cursor, seq, rfl, going, idle, reached, by omega⟩

/-- The end of a capture seals the open chunk at the duration. -/
theorem finish_laid {cursor : ChunkCursor} {seq durationMs : Nat} (going : Going cursor seq)
    (live : durationMs ≤ liveMs) (reached : startOf seq ≤ durationMs) :
    ∃ next, cursor.finish build durationMs = .ok next ∧ next.current = none ∧
      next.reading = [] ∧ (∀ stored ∈ next.storage.written, Laid stored) ∧
      Laid next.storage.manifest ∧
      ∀ chunk ∈ next.storage.manifest.chunks, chunk.endMs ≤ durationMs ∧
        (chunk.endMs ≠ endOf chunk.seq → chunk.endMs = durationMs) := by
  have released : Going (({ cursor with
      reading := []
      storage := cursor.storage.unfinished cursor.reading.length } : ChunkCursor).sealReleased
        build) seq :=
    Going.sealReleased build ⟨going.opened, going.queued.counted _⟩
  have quiet : Idle (({ cursor with
      reading := []
      storage := cursor.storage.unfinished cursor.reading.length } : ChunkCursor).sealReleased
        build) :=
    ⟨rfl, sealHeld_unread build _ _⟩
  obtain ⟨moved, last, found, further, idle, started, within⟩ :=
    atEnd_going build released quiet live reached
  obtain ⟨chunk, current, rfl⟩ := Option.map_eq_some_iff.mp further.opened
  have pending : Queued moved.storage [chunk.seq] := by
    have queued := further.queued
    rw [idle.2] at queued
    exact queued
  have duration : max durationMs (startOf chunk.seq) = durationMs := max_eq_left started
  have short : Laid (sealedManifest build moved.storage.manifest chunk durationMs) :=
    pending.sealedShort within
  refine ⟨{ moved with
      storage := moved.storage.sealChunk build chunk durationMs
      current := none }, ?_, rfl, idle.1, ?_, short, ?_⟩
  · simp only [ChunkCursor.finish, found, bind, Except.bind, pure, Except.pure, current, duration]
  · intro stored member
    rw [sealChunk_written] at member
    rcases List.mem_cons.mp member with newest | earlier
    · rw [newest]
      exact short
    · exact pending.written stored earlier
  · have covered : ∀ other ∈ moved.storage.manifest.chunks, other.endMs ≤ durationMs ∧
        (other.endMs ≠ endOf other.seq → other.endMs = durationMs) := by
      intro other member
      have full := (pending.full other member).2.2
      have before := endOf_le_startOf
        (pending.chunksBefore other member _ (List.mem_singleton_self _))
      exact ⟨by omega, fun cut => absurd full cut⟩
    intro other member
    rw [sealChunk_manifest] at member
    rcases sealedManifest_cases build moved.storage.manifest chunk durationMs with
      same | same | ⟨-, added, -, -, ended, same⟩
    · rw [same] at member
      exact covered other member
    · rw [same] at member
      exact covered other member
    · rw [same] at member
      rcases List.mem_append.mp member with earlier | new
      · exact covered other earlier
      · rw [List.mem_singleton.mp new, ended]
        exact ⟨Nat.le_refl _, fun _ => rfl⟩

structure Ended (cursor : ChunkCursor) : Prop where
  current : cursor.current = none
  reading : cursor.reading = []
  written : ∀ stored ∈ cursor.storage.written, Laid stored

theorem Ended.step {cursor : ChunkCursor} (ended : Ended cursor) (event : CaptureFiles.Event) :
    Ended (CaptureFiles.step build cursor event) := by
  cases event with
  | writeAudio bytes elapsedMs =>
      simp only [CaptureFiles.step, CaptureFiles.handle, CaptureFiles.writeAudio,
        ChunkCursor.chunkFor, ended.current, bind, Except.bind]
      exact ended
  | frameStarted elapsedMs =>
      simp only [CaptureFiles.step, CaptureFiles.handle, ChunkCursor.frameStarted, ended.current,
        Option.isNone_none, true_or, if_true]
      exact ended
  | release elapsedMs =>
      have absent : elapsedMs ∉ cursor.reading := by simp [ended.reading]
      simp only [CaptureFiles.step, CaptureFiles.handle, ChunkCursor.release, if_neg absent]
      exact ⟨ended.current, ended.reading, ended.written⟩
  | writeFrame text =>
      simp only [CaptureFiles.step, CaptureFiles.handle, CaptureFiles.writeFrame, ended.current,
        Option.isNone_none, if_true]
      exact ended
  | advance elapsedMs =>
      simp only [CaptureFiles.step, CaptureFiles.handle, CaptureFiles.advance, ended.current,
        Option.isSome_none, Bool.false_eq_true, false_and, if_false, pure, Except.pure]
      exact ended

theorem stopped_ended {cursor : ChunkCursor} {seq : Nat} (going : Going cursor seq)
    {stop : CaptureFiles.Stop} (reached : seq = 0 ∨ (startOf seq : Int) ≤ stop.durationMs) :
    Ended (CaptureFiles.stopped build cursor stop) := by
  have live : (max 0 (min stop.durationMs liveMs)).toNat ≤ liveMs := by omega
  have started : startOf seq ≤ (max 0 (min stop.durationMs liveMs)).toNat := by
    rcases reached with rfl | bound
    · simp [startOf]
    · have early := (Nat.le_of_lt (startOf_lt_endOf going.bounded)).trans (endOf_le_live seq)
      omega
  obtain ⟨next, finished, current, reading, written, laid, ends⟩ :=
    finish_laid build going live started
  have some : cursor.current.isSome = true := by
    obtain ⟨chunk, opened, -⟩ := Option.map_eq_some_iff.mp going.opened
    rw [opened]
    rfl
  simp only [CaptureFiles.stopped, CaptureFiles.finish, some, if_true, finished, bind, Except.bind,
    pure, Except.pure]
  refine ⟨current, reading, fun stored member => ?_⟩
  rcases List.mem_cons.mp member with rfl | earlier
  · exact { laid with ended := fun _ => ⟨live, ends⟩ }
  · exact written stored earlier

theorem written_laid (capture : CaptureFiles.Capture) :
    ∀ stored ∈ (capture.recorder build).storage.written, Laid stored := by
  obtain ⟨seq, going, reached⟩ :=
    run_going build (begin_going capture.sessionId) capture.events
  unfold CaptureFiles.Capture.recorder
  cases stop : capture.stop with
  | none =>
      obtain ⟨next, further, -⟩ := run_going build going capture.late
      exact further.queued.written
  | some last =>
      have bound : seq = 0 ∨ (startOf seq : Int) ≤ last.durationMs := by
        rcases reached with first | ⟨event, member, bound⟩
        · exact Or.inl first
        · exact Or.inr (bound.trans (capture.ordered last stop event member))
      have ended := exec_invariant Ended (fun _ event held => held.step build event)
        (stopped_ended build going bound) capture.late
      exact ended.written

theorem Laid.restored {stored : LocalManifest} (laid : Laid stored) :
    Laid (CaptureFiles.restore stored) ∧ (CaptureFiles.restore stored).finished = true := by
  unfold CaptureFiles.restore
  by_cases finished : stored.finished = true
  · rw [if_pos finished]
    exact ⟨laid, finished⟩
  · rw [if_neg finished]
    exact ⟨laid.finalized, rfl⟩

end Recording

end Ovrly.Captures
