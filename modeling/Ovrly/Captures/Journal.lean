import Ovrly.Captures.RecorderLaw

/-!
What becomes of the chunks and frames of one capture.

The chunks that were sealed so far, the held ones and the open one are one list in the order of
the grid. Calls move the boundary of the sealed ones and open empty chunks at its end; apart
from that only the frame or audio of a call is added.
-/

namespace Ovrly.Captures

open Runs Ovrly.Reports

section Moving

open CaptureLimits ChunkGrid ChunkStorage

theorem seqAt_mono {earlier later : Int} (before : earlier ≤ later) :
    seqAt earlier ≤ seqAt later := by
  simp only [seqAt, chunkMs]
  omega

def recorded (build : ChunkPackage.Build) (manifest : LocalManifest) (sealed : List OpenChunk) :
    LocalManifest :=
  sealed.foldl (fun stored chunk => sealedManifest build stored chunk (endOf chunk.seq)) manifest

def openedAfter (seq count : Nat) : List OpenChunk := (List.range' (seq + 1) count).map openChunk

def ChunkCursor.queue (cursor : ChunkCursor) : List OpenChunk :=
  cursor.held ++ cursor.current.toList

variable {build : ChunkPackage.Build}

theorem recorded_nil (manifest : LocalManifest) : recorded build manifest [] = manifest := rfl

theorem recorded_cons (manifest : LocalManifest) (chunk : OpenChunk) (sealed : List OpenChunk) :
    recorded build manifest (chunk :: sealed) =
      recorded build (sealedManifest build manifest chunk (endOf chunk.seq)) sealed :=
  List.foldl_cons ..

theorem recorded_append (manifest : LocalManifest) (first second : List OpenChunk) :
    recorded build manifest (first ++ second) =
      recorded build (recorded build manifest first) second :=
  List.foldl_append

theorem openedAfter_add (seq first second : Nat) :
    openedAfter seq (first + second) =
      openedAfter seq first ++ openedAfter (seq + first) second := by
  have bounds : seq + 1 + 1 * first = seq + first + 1 := by omega
  unfold openedAfter
  rw [← List.map_append, ← bounds, List.range'_append]

/-- What a call does to the chunks, apart from writing to one: some in front are sealed, none of
which is waited for, and empty ones are opened behind. Frames that were given up on are lost. -/
structure Moved (build : ChunkPackage.Build) (before after : ChunkCursor)
    (sealed : List OpenChunk) (lost : List Int) (seq next : Nat) : Prop where
  ahead : seq ≤ next
  opened : after.current.map (·.seq) = some next
  manifest : after.storage.manifest = recorded build before.storage.manifest sealed
  queue : sealed ++ after.queue = before.queue ++ openedAfter seq (next - seq)
  reading : before.reading.Perm (lost ++ after.reading)
  expired : after.expired = before.expired ∪ lost.toFinset
  free : ∀ chunk ∈ sealed, ChunkCursor.waits after.reading chunk = false
  counts : after.storage.counts =
    { before.storage.counts with unfinished := before.storage.counts.unfinished + lost.length }

theorem waits_false {reading : List Int} {chunk : OpenChunk} :
    ChunkCursor.waits reading chunk = false ↔ ∀ time ∈ reading, seqAt time ≠ chunk.seq := by
  simp [ChunkCursor.waits]

theorem Moved.remains {before after : ChunkCursor} {sealed : List OpenChunk} {lost : List Int}
    {seq next : Nat} (moved : Moved build before after sealed lost seq next) {time : Int}
    (read : time ∈ after.reading) : time ∈ before.reading :=
  moved.reading.mem_iff.mpr (List.mem_append_right _ read)

theorem Moved.refl {cursor : ChunkCursor} {seq : Nat}
    (opened : cursor.current.map (·.seq) = some seq) : Moved build cursor cursor [] [] seq seq where
  ahead := le_rfl
  opened := opened
  manifest := rfl
  queue := by simp [openedAfter]
  reading := List.Perm.refl _
  expired := by simp
  free := by simp
  counts := rfl

theorem Moved.trans {first second third : ChunkCursor} {sealed later : List OpenChunk}
    {lost gone : List Int} {seq middle next : Nat}
    (moved : Moved build first second sealed lost seq middle)
    (further : Moved build second third later gone middle next) :
    Moved build first third (sealed ++ later) (lost ++ gone) seq next where
  ahead := moved.ahead.trans further.ahead
  opened := further.opened
  manifest := by rw [further.manifest, moved.manifest, recorded_append]
  queue := by
    have ahead := moved.ahead
    have beyond := further.ahead
    have counted : next - seq = (middle - seq) + (next - middle) := by omega
    have reached : seq + (middle - seq) = middle := by omega
    rw [List.append_assoc, further.queue, ← List.append_assoc, moved.queue, List.append_assoc,
      counted, openedAfter_add, reached]
  reading := by
    rw [List.append_assoc]
    exact moved.reading.trans (further.reading.append_left lost)
  expired := by rw [further.expired, moved.expired, List.toFinset_append, Finset.union_assoc]
  free chunk member := by
    rcases List.mem_append.mp member with earlier | last
    · rw [waits_false]
      exact fun time read => waits_false.mp (moved.free chunk earlier) time (further.remains read)
    · exact further.free chunk last
  counts := by
    rw [further.counts, moved.counts, List.length_append, Nat.add_assoc]

theorem sealChunk_counts (storage : ChunkStorage) (chunk : OpenChunk) (endMs : Nat) :
    (storage.sealChunk build chunk endMs).counts = storage.counts := rfl

theorem sealHeld_sealed (reading : List Int) (held : List OpenChunk) (storage : ChunkStorage) :
    ∃ sealed, sealed ++ (ChunkCursor.sealHeld build reading held storage).1 = held ∧
      (ChunkCursor.sealHeld build reading held storage).2.manifest =
        recorded build storage.manifest sealed ∧
      (ChunkCursor.sealHeld build reading held storage).2.counts = storage.counts ∧
      ∀ chunk ∈ sealed, ChunkCursor.waits reading chunk = false := by
  induction held generalizing storage with
  | nil => exact ⟨[], rfl, rfl, rfl, fun chunk member => by cases member⟩
  | cons chunk held ih =>
      unfold ChunkCursor.sealHeld
      by_cases waits : ChunkCursor.waits reading chunk = true
      · rw [if_pos waits]
        exact ⟨[], rfl, rfl, rfl, fun chunk member => by cases member⟩
      · rw [if_neg waits]
        obtain ⟨sealed, rest, manifest, counts, free⟩ :=
          ih (storage.sealChunk build chunk (endOf chunk.seq))
        refine ⟨chunk :: sealed, by rw [List.cons_append, rest], ?_, ?_, ?_⟩
        · rw [manifest, sealChunk_manifest, recorded_cons]
        · rw [counts, sealChunk_counts]
        · intro other member
          rcases List.mem_cons.mp member with rfl | later
          · exact Bool.eq_false_iff.mpr waits
          · exact free other later

theorem sealReleased_moved {cursor : ChunkCursor} {seq : Nat}
    (opened : cursor.current.map (·.seq) = some seq) :
    ∃ sealed, Moved build cursor (cursor.sealReleased build) sealed [] seq seq := by
  obtain ⟨sealed, rest, manifest, counts, free⟩ :=
    @sealHeld_sealed build cursor.reading cursor.held cursor.storage
  refine ⟨sealed, ⟨le_rfl, opened, manifest, ?_, List.Perm.refl _, by simp [ChunkCursor.sealReleased],
    free, counts⟩⟩
  have queue : (cursor.sealReleased build).queue =
      (ChunkCursor.sealHeld build cursor.reading cursor.held cursor.storage).1 ++
        cursor.current.toList := rfl
  rw [queue, ← List.append_assoc, rest]
  simp [openedAfter, ChunkCursor.queue]

theorem expireStale_moved {cursor : ChunkCursor} {seq : Nat}
    (opened : cursor.current.map (·.seq) = some seq) (nowMs : Int) :
    ∃ sealed lost, Moved build cursor (cursor.expireStale build nowMs) sealed lost seq seq := by
  unfold ChunkCursor.expireStale
  dsimp only
  generalize staleness : (cursor.reading.filter fun elapsedMs =>
    decide (ChunkCursor.holdLimitMs < nowMs - elapsedMs)) = stale
  split
  · exact ⟨[], [], Moved.refl opened⟩
  · have parted : cursor.reading.Perm
        (stale ++ cursor.reading.filter fun elapsedMs => !stale.contains elapsedMs) := by
      have same : (cursor.reading.filter fun elapsedMs => !stale.contains elapsedMs) =
          cursor.reading.filter fun elapsedMs =>
            !decide (ChunkCursor.holdLimitMs < nowMs - elapsedMs) := by
        refine List.filter_congr fun time read => ?_
        simp [← staleness, read]
      rw [same, ← staleness]
      exact (List.filter_append_perm _ _).symm
    have lost : Moved build cursor
        { cursor with
          reading := cursor.reading.filter fun elapsedMs => !stale.contains elapsedMs
          expired := cursor.expired ∪ stale.toFinset
          storage := cursor.storage.unfinished stale.length } [] stale seq seq :=
      ⟨le_rfl, opened, rfl, by simp [openedAfter, ChunkCursor.queue], parted, rfl, by simp, rfl⟩
    obtain ⟨sealed, moved⟩ := @sealReleased_moved build _ _ lost.opened
    exact ⟨_, _, lost.trans moved⟩

theorem turn_moved {cursor : ChunkCursor} {chunk : OpenChunk}
    (opened : cursor.current = some chunk) :
    ∃ sealed, Moved build cursor (cursor.turn build chunk) sealed [] chunk.seq (chunk.seq + 1) := by
  have last : openedAfter chunk.seq (chunk.seq + 1 - chunk.seq) = [openChunk (chunk.seq + 1)] := by
    have one : chunk.seq + 1 - chunk.seq = 1 := by omega
    rw [one]
    rfl
  unfold ChunkCursor.turn
  by_cases busy : (!cursor.held.isEmpty || cursor.waitsForFrame chunk) = true
  · simp only [if_pos busy]
    refine ⟨[], ⟨Nat.le_succ _, rfl, rfl, ?_, List.Perm.refl _, by simp, by simp, rfl⟩⟩
    rw [last]
    simp [ChunkCursor.queue, opened]
  · simp only [if_neg busy]
    obtain ⟨idle, free⟩ : cursor.held = [] ∧ cursor.waitsForFrame chunk = false := by
      simpa using busy
    refine ⟨[chunk], ⟨Nat.le_succ _, rfl, ?_, ?_, List.Perm.refl _, by simp, ?_,
      sealChunk_counts _ _ _⟩⟩
    · rw [recorded_cons, recorded_nil]
      exact sealChunk_manifest _ _ _
    · rw [last]
      simp [ChunkCursor.queue, opened, idle]
    · intro other member
      rw [List.mem_singleton.mp member]
      exact free

theorem turns_moved (count : Nat) {cursor : ChunkCursor} {chunk : OpenChunk}
    (opened : cursor.current = some chunk) :
    ∃ sealed, Moved build cursor (ChunkCursor.turns build count cursor chunk).1 sealed []
        chunk.seq (chunk.seq + count) ∧
      (ChunkCursor.turns build count cursor chunk).1.current =
        some (ChunkCursor.turns build count cursor chunk).2 := by
  induction count generalizing cursor chunk with
  | zero => exact ⟨[], Moved.refl (by rw [opened]; rfl), opened⟩
  | succ count ih =>
      obtain ⟨sealed, moved⟩ := @turn_moved build _ _ opened
      obtain ⟨later, further, current⟩ :=
        ih (show (cursor.turn build chunk).current = some (openChunk (chunk.seq + 1)) from rfl)
      have sum : (openChunk (chunk.seq + 1)).seq + count = chunk.seq + (count + 1) :=
        Nat.succ_add_eq_add_succ chunk.seq count
      rw [sum] at further
      exact ⟨sealed ++ later, moved.trans further, current⟩

theorem chunkFor_moved {cursor : ChunkCursor} {seq : Nat}
    (opened : cursor.current.map (·.seq) = some seq) (elapsedMs : Int) (acceptLate : Bool) :
    ∃ place moved sealed lost next,
      cursor.chunkFor build elapsedMs acceptLate = .ok (place, moved) ∧
      Moved build cursor moved sealed lost seq next ∧
      next = (if elapsedMs < liveMs then max seq (seqAt elapsedMs) else seq) ∧
      place = if elapsedMs < liveMs ∧ (acceptLate ∨ next = seqAt elapsedMs) then some next
        else none := by
  obtain ⟨chunk, current, rfl⟩ := Option.map_eq_some_iff.mp opened
  obtain ⟨sealed, lost, expired⟩ := @expireStale_moved build _ _ opened elapsedMs
  have kept : (cursor.expireStale build elapsedMs).current = some chunk := by
    rw [← current]
    unfold ChunkCursor.expireStale
    dsimp only
    split <;> rfl
  obtain ⟨later, further, reached⟩ := @turns_moved build
    (if elapsedMs < liveMs then seqAt elapsedMs - chunk.seq else 0) _ _ kept
  have last := further.opened
  rw [reached, Option.map_some, Option.some.injEq] at last
  unfold ChunkCursor.chunkFor
  rw [current]
  refine ⟨_, _, sealed ++ later, lost ++ [], _, rfl, expired.trans further, ?_, by rw [last]⟩
  split <;> omega

end Moving

section Filing

open CaptureLimits ChunkGrid ChunkStorage

def framesOf (chunks : List OpenChunk) : List FrameText := chunks.flatMap (·.frames)

/-- The chunks sealed so far and the queue follow the grid without a gap, a frame is in the chunk
of its time, and no frame is read for a sealed chunk. -/
structure Filing (build : ChunkPackage.Build) (start : LocalManifest) (cursor : ChunkCursor)
    (journal : List OpenChunk) (seq : Nat) (frames : List FrameText) : Prop where
  opened : cursor.current.map (·.seq) = some seq
  bounded : seq ≤ lastSeq
  manifest : cursor.storage.manifest = recorded build start journal
  seqs : (journal ++ cursor.queue).map (·.seq) = List.range (seq + 1)
  reading : ∀ time ∈ cursor.reading, time < liveMs ∧ journal.length ≤ seqAt time
  placed : ∀ chunk ∈ journal ++ cursor.queue, ∀ text ∈ chunk.frames,
    chunk.seq = seqAt text.framePtsMs ∧ text.framePtsMs < liveMs
  contents : (framesOf (journal ++ cursor.queue)).Perm frames

variable {build : ChunkPackage.Build} {start : LocalManifest}

theorem range_of_append {first second : List OpenChunk} {count : Nat}
    (seqs : (first ++ second).map (·.seq) = List.range count) :
    first.map (·.seq) = List.range first.length := by
  have short : first.length ≤ count := by
    have lengths := congrArg List.length seqs
    simp only [List.length_map, List.length_append, List.length_range] at lengths
    omega
  have taken := congrArg (List.take first.length) seqs
  rw [List.map_append, List.take_left' (List.length_map _), List.take_range,
    min_eq_left short] at taken
  exact taken

theorem openedAfter_seqs (seq count : Nat) :
    (openedAfter seq count).map (·.seq) = List.range' (seq + 1) count := by
  unfold openedAfter
  rw [List.map_map]
  exact List.map_id _

theorem openedAfter_frames {seq count : Nat} {chunk : OpenChunk}
    (member : chunk ∈ openedAfter seq count) : chunk.frames = [] := by
  obtain ⟨number, -, rfl⟩ := List.mem_map.mp member
  rfl

theorem framesOf_append (first second : List OpenChunk) :
    framesOf (first ++ second) = framesOf first ++ framesOf second :=
  List.flatMap_append

theorem framesOf_openedAfter (seq count : Nat) : framesOf (openedAfter seq count) = [] :=
  List.flatMap_eq_nil_iff.mpr fun _ member => openedAfter_frames member

theorem Filing.moved {before after : ChunkCursor} {journal sealed : List OpenChunk}
    {seq next : Nat} {frames : List FrameText} {lost : List Int}
    (filing : Filing build start before journal seq frames)
    (moved : Moved build before after sealed lost seq next) (bounded : next ≤ lastSeq) :
    Filing build start after (journal ++ sealed) next frames := by
  have all : journal ++ sealed ++ after.queue =
      journal ++ before.queue ++ openedAfter seq (next - seq) := by
    rw [List.append_assoc, moved.queue, List.append_assoc]
  have seqs : (journal ++ sealed ++ after.queue).map (·.seq) = List.range (next + 1) := by
    have ahead := moved.ahead
    have reached : seq + 1 + (next - seq) = next + 1 := by omega
    have appended : List.range' 0 (seq + 1) ++ List.range' (0 + 1 * (seq + 1)) (next - seq) =
        List.range' 0 (seq + 1 + (next - seq)) := List.range'_append
    rw [Nat.one_mul, Nat.zero_add, reached] at appended
    rw [all, List.map_append, filing.seqs, openedAfter_seqs, List.range_eq_range',
      List.range_eq_range', appended]
  refine ⟨moved.opened, bounded, ?_, seqs, ?_, ?_, ?_⟩
  · rw [moved.manifest, filing.manifest, recorded_append]
  · intro time read
    obtain ⟨live, unsealed⟩ := filing.reading time (moved.remains read)
    refine ⟨live, ?_⟩
    by_contra passed
    have member : seqAt time ∈ (journal ++ sealed).map (·.seq) := by
      rw [range_of_append seqs]
      exact List.mem_range.mpr (Nat.lt_of_not_le passed)
    rw [List.map_append, range_of_append filing.seqs] at member
    rcases List.mem_append.mp member with early | new
    · have before := List.mem_range.mp early
      omega
    · obtain ⟨chunk, listed, same⟩ := List.mem_map.mp new
      exact waits_false.mp (moved.free chunk listed) time read same.symm
  · intro chunk member text written
    rw [all] at member
    rcases List.mem_append.mp member with known | new
    · exact filing.placed chunk known text written
    · rw [openedAfter_frames new] at written
      cases written
  · rw [all, framesOf_append, framesOf_openedAfter, List.append_nil]
    exact filing.contents

theorem Filing.forgotten {cursor : ChunkCursor} {journal : List OpenChunk} {seq : Nat}
    {frames : List FrameText} (filing : Filing build start cursor journal seq frames)
    {reading : List Int} (fewer : reading ⊆ cursor.reading) (expired : Finset Int)
    (counts : FrameCounts) :
    Filing build start
      { cursor with reading, expired, storage := { cursor.storage with counts } }
      journal seq frames :=
  ⟨filing.opened, filing.bounded, filing.manifest, filing.seqs,
    fun time read => filing.reading time (fewer read), filing.placed, filing.contents⟩

theorem framesOf_edited {chunks : List OpenChunk} (distinct : (chunks.map (·.seq)).Nodup)
    {place : Nat} (present : place ∈ chunks.map (·.seq)) {edit : OpenChunk → OpenChunk}
    {texts : List FrameText} (adds : ∀ chunk, (edit chunk).frames = chunk.frames ++ texts) :
    (framesOf (chunks.map fun chunk => if chunk.seq = place then edit chunk else chunk)).Perm
      (framesOf chunks ++ texts) := by
  induction chunks with
  | nil => cases present
  | cons chunk rest ih =>
      obtain ⟨fresh, distinct⟩ := List.nodup_cons.mp distinct
      simp only [framesOf, List.map_cons, List.flatMap_cons] at ih ⊢
      by_cases here : chunk.seq = place
      · have others : (rest.map fun chunk => if chunk.seq = place then edit chunk else chunk) =
            rest := by
          refine (List.map_congr_left fun other member => if_neg fun same => fresh ?_).trans
            (List.map_id _)
          exact List.mem_map.mpr ⟨other, member, same.trans here.symm⟩
        rw [others, if_pos here, adds, List.append_assoc, List.append_assoc]
        exact List.perm_append_comm.append_left _
      · rw [if_neg here, List.append_assoc]
        have later : place ∈ rest.map (·.seq) :=
          (List.mem_cons.mp present).resolve_left fun same => here same.symm
        exact (ih distinct later).append_left _

theorem write_queue {cursor : ChunkCursor} (distinct : (cursor.queue.map (·.seq)).Nodup)
    (place : Nat) (edit : OpenChunk → OpenChunk) :
    (cursor.write place edit).queue =
      cursor.queue.map fun chunk => if chunk.seq = place then edit chunk else chunk := by
  have apart : ∀ chunk ∈ cursor.held, ∀ other ∈ cursor.current.toList, chunk.seq ≠ other.seq := by
    intro chunk member other last same
    rw [ChunkCursor.queue, List.map_append] at distinct
    refine List.disjoint_of_nodup_append distinct (List.mem_map_of_mem member) ?_
    rw [same]
    exact List.mem_map_of_mem last
  have kept : ∀ chunks : List OpenChunk, (∀ chunk ∈ chunks, chunk.seq ≠ place) →
      (chunks.map fun chunk => if chunk.seq = place then edit chunk else chunk) = chunks :=
    fun chunks absent =>
      (List.map_congr_left fun chunk member => if_neg (absent chunk member)).trans (List.map_id _)
  unfold ChunkCursor.write
  dsimp only
  by_cases held : cursor.held.any (·.seq == place) = true
  · obtain ⟨chunk, member, here⟩ := List.any_eq_true.mp held
    rw [if_pos held]
    simp only [ChunkCursor.queue, List.map_append]
    rw [kept cursor.current.toList fun other last same =>
      apart chunk member other last ((beq_iff_eq.mp here).trans same.symm)]
  · rw [if_neg held]
    simp only [ChunkCursor.queue, List.map_append]
    rw [kept cursor.held fun chunk member here =>
      held (List.any_eq_true.mpr ⟨chunk, member, beq_iff_eq.mpr here⟩)]
    cases cursor.current <;> rfl

theorem write_current {cursor : ChunkCursor} {edit : OpenChunk → OpenChunk}
    (same : ∀ chunk, (edit chunk).seq = chunk.seq) (place : Nat) :
    (cursor.write place edit).current.map (·.seq) = cursor.current.map (·.seq) := by
  unfold ChunkCursor.write
  dsimp only
  split
  · rfl
  · rw [Option.map_map]
    congr 1
    funext chunk
    by_cases here : chunk.seq = place
    · simp only [Function.comp_apply, if_pos here, same]
    · simp only [Function.comp_apply, if_neg here]

theorem write_apart (cursor : ChunkCursor) (place : Nat) (edit : OpenChunk → OpenChunk) :
    (cursor.write place edit).storage = cursor.storage ∧
      (cursor.write place edit).reading = cursor.reading ∧
      (cursor.write place edit).expired = cursor.expired := by
  unfold ChunkCursor.write
  dsimp only
  split <;> exact ⟨rfl, rfl, rfl⟩

variable {cursor : ChunkCursor} {journal : List OpenChunk} {seq : Nat} {frames : List FrameText}

theorem Filing.distinct (filing : Filing build start cursor journal seq frames) :
    (cursor.queue.map (·.seq)).Nodup := by
  have all : ((journal ++ cursor.queue).map (·.seq)).Nodup := by
    rw [filing.seqs]
    exact List.nodup_range
  rw [List.map_append] at all
  exact (List.nodup_append.mp all).2.1

theorem Filing.queued (filing : Filing build start cursor journal seq frames) {place : Nat} :
    place ∈ cursor.queue.map (·.seq) ↔ journal.length ≤ place ∧ place ≤ seq := by
  have seqs := filing.seqs
  have listed : place ∈ (journal ++ cursor.queue).map (·.seq) ↔ place ≤ seq := by
    rw [seqs, List.mem_range, Nat.lt_succ_iff]
  have early : place ∈ journal.map (·.seq) ↔ place < journal.length := by
    rw [range_of_append seqs, List.mem_range]
  have apart : place ∈ journal.map (·.seq) → place ∉ cursor.queue.map (·.seq) := by
    have distinct : ((journal ++ cursor.queue).map (·.seq)).Nodup := by
      rw [seqs]
      exact List.nodup_range
    rw [List.map_append] at distinct
    exact fun first second => List.disjoint_of_nodup_append distinct first second
  rw [List.map_append, List.mem_append] at listed
  constructor
  · intro member
    exact ⟨Nat.le_of_not_lt fun before => apart (early.mpr before) member,
      listed.mp (Or.inr member)⟩
  · rintro ⟨unsealed, opened⟩
    exact (listed.mpr opened).resolve_left fun sealed =>
      absurd (early.mp sealed) (Nat.not_lt.mpr unsealed)

theorem Filing.write (filing : Filing build start cursor journal seq frames)
    {edit : OpenChunk → OpenChunk} (same : ∀ chunk, (edit chunk).seq = chunk.seq)
    {texts : List FrameText} (adds : ∀ chunk, (edit chunk).frames = chunk.frames ++ texts)
    {place : Nat} (unsealed : journal.length ≤ place) (reached : place ≤ seq)
    (fits : ∀ text ∈ texts, place = seqAt text.framePtsMs ∧ text.framePtsMs < liveMs) :
    Filing build start (cursor.write place edit) journal seq (frames ++ texts) := by
  obtain ⟨storage, reading, -⟩ := write_apart cursor place edit
  have queue := write_queue filing.distinct place edit
  have number : ∀ chunk : OpenChunk,
      (if chunk.seq = place then edit chunk else chunk).seq = chunk.seq := by
    intro chunk
    by_cases here : chunk.seq = place
    · rw [if_pos here, same]
    · rw [if_neg here]
  refine ⟨?_, filing.bounded, ?_, ?_, ?_, ?_, ?_⟩
  · rw [write_current same]
    exact filing.opened
  · rw [storage]
    exact filing.manifest
  · have seqs := filing.seqs
    rw [List.map_append] at seqs
    rw [queue, List.map_append, List.map_map]
    simp only [Function.comp_def, number]
    exact seqs
  · rw [reading]
    exact filing.reading
  · intro chunk member text written
    rw [queue] at member
    rcases List.mem_append.mp member with sealed | queued
    · exact filing.placed chunk (List.mem_append_left _ sealed) text written
    · obtain ⟨known, listed, rfl⟩ := List.mem_map.mp queued
      have before := filing.placed known (List.mem_append_right _ listed) text
      rw [number]
      by_cases here : known.seq = place
      · rw [if_pos here, adds] at written
        rcases List.mem_append.mp written with earlier | added
        · exact before earlier
        · rw [here]
          exact fits text added
      · rw [if_neg here] at written
        exact before written
  · rw [queue, framesOf_append]
    have added := (framesOf_edited filing.distinct (filing.queued.mpr ⟨unsealed, reached⟩)
      adds).append_left (framesOf journal)
    have kept := filing.contents.append_right texts
    rw [← List.append_assoc] at added
    rw [framesOf_append] at kept
    exact added.trans kept

theorem Filing.journal_le (filing : Filing build start cursor journal seq frames) :
    journal.length ≤ seq := by
  obtain ⟨chunk, current, rfl⟩ := Option.map_eq_some_iff.mp filing.opened
  have last : chunk.seq ∈ cursor.queue.map (·.seq) :=
    List.mem_map_of_mem (List.mem_append_right _ (by rw [current]; exact List.mem_singleton_self _))
  exact (filing.queued.mp last).1

theorem held_mem {held : List OpenChunk} {place : Nat} :
    held.any (·.seq == place) = true ↔ place ∈ held.map (·.seq) := by
  simp [List.any_eq_true]

theorem Filing.heldBefore (filing : Filing build start cursor journal seq frames) {place : Nat}
    (member : place ∈ cursor.held.map (·.seq)) : journal.length ≤ place ∧ place < seq := by
  obtain ⟨chunk, current, rfl⟩ := Option.map_eq_some_iff.mp filing.opened
  have distinct := filing.distinct
  have queued : place ∈ cursor.queue.map (·.seq) := by
    rw [ChunkCursor.queue, List.map_append]
    exact List.mem_append_left _ member
  obtain ⟨unsealed, reached⟩ := filing.queued.mp queued
  refine ⟨unsealed, Nat.lt_of_le_of_ne reached fun same => ?_⟩
  rw [ChunkCursor.queue, List.map_append, current] at distinct
  exact List.disjoint_of_nodup_append distinct member (by rw [same]; exact List.mem_singleton_self _)

theorem Filing.heldOf (filing : Filing build start cursor journal seq frames) {place : Nat}
    (unsealed : journal.length ≤ place) (before : place < seq) :
    place ∈ cursor.held.map (·.seq) := by
  obtain ⟨chunk, current, rfl⟩ := Option.map_eq_some_iff.mp filing.opened
  have queued := filing.queued.mpr ⟨unsealed, Nat.le_of_lt before⟩
  rw [ChunkCursor.queue, List.map_append, current] at queued
  refine (List.mem_append.mp queued).resolve_right fun last => ?_
  rw [List.mem_singleton.mp last] at before
  exact Nat.lt_irrefl _ before

/-- What a call took from the frames that are read, those it ended itself apart from those it gave
up on, and what it wrote. -/
structure Spent (before after : ChunkCursor) (ended lost : List Int) (texts : List FrameText) :
    Prop where
  reading : before.reading.Perm (ended ++ (lost ++ after.reading))
  expired : after.expired ⊆ before.expired ∪ lost.toFinset
  unfinished : after.storage.counts.unfinished =
    before.storage.counts.unfinished + lost.length
  frames : after.storage.counts.frames = before.storage.counts.frames + texts.length

theorem Spent.refl (cursor : ChunkCursor) : Spent cursor cursor [] [] [] :=
  ⟨List.Perm.refl _, Finset.subset_union_left, rfl, rfl⟩

theorem Spent.trans {first second third : ChunkCursor} {ended also lost gone : List Int}
    {texts added : List FrameText} (spent : Spent first second ended lost texts)
    (further : Spent second third also gone added) :
    Spent first third (ended ++ also) (lost ++ gone) (texts ++ added) where
  reading := by
    have before := spent.reading
    have after := further.reading
    rw [List.perm_iff_count] at before after ⊢
    intro time
    have early := before time
    have late := after time
    simp only [List.count_append] at early late ⊢
    omega
  expired := by
    intro time member
    have before := further.expired member
    simp only [Finset.mem_union, List.mem_toFinset, List.mem_append] at before ⊢
    rcases before with known | new
    · have earlier := spent.expired known
      simp only [Finset.mem_union, List.mem_toFinset] at earlier
      tauto
    · tauto
  unfinished := by
    rw [further.unfinished, spent.unfinished, List.length_append, Nat.add_assoc]
  frames := by rw [further.frames, spent.frames, List.length_append, Nat.add_assoc]

theorem Moved.spent {before after : ChunkCursor} {sealed : List OpenChunk} {lost : List Int}
    {seq next : Nat} (moved : Moved build before after sealed lost seq next) :
    Spent before after [] lost [] where
  reading := moved.reading
  expired := by rw [moved.expired]
  unfinished := by rw [moved.counts]
  frames := by rw [moved.counts]; rfl

def ChunkCursor.ending (cursor : ChunkCursor) (elapsedMs : Int) : List Int :=
  if elapsedMs ∈ cursor.reading then [elapsedMs] else []

theorem spent_erase (cursor : ChunkCursor) (time : Int) {expired : Finset Int}
    (fewer : expired ⊆ cursor.expired) :
    Spent cursor { cursor with reading := cursor.reading.erase time, expired }
      (cursor.ending time) [] [] where
  reading := by
    unfold ChunkCursor.ending
    by_cases read : time ∈ cursor.reading
    · rw [if_pos read]
      exact List.perm_cons_erase read
    · rw [if_neg read, List.erase_of_not_mem read]
      exact List.Perm.refl _
  expired := fewer.trans Finset.subset_union_left
  unfinished := rfl
  frames := rfl

theorem Filing.addFrame (filing : Filing build start cursor journal seq frames) (text : FrameText)
    {place : Option Nat}
    (fits : ∀ number ∈ place, number = seqAt text.framePtsMs ∧ text.framePtsMs < liveMs ∧
      journal.length ≤ number ∧ number ≤ seq) :
    Filing build start
        (({ cursor with storage := cursor.storage.countFrame text place } : ChunkCursor).writeAt
          (ChunkCursor.addFrame text) place)
        journal seq (frames ++ (place.map fun _ => text).toList) ∧
      Spent cursor
        (({ cursor with storage := cursor.storage.countFrame text place } : ChunkCursor).writeAt
          (ChunkCursor.addFrame text) place)
        [] [] (place.map fun _ => text).toList := by
  cases place with
  | none =>
      have counts : cursor.storage.countFrame text none =
          { cursor.storage with counts := (cursor.storage.countFrame text none).counts } := by
        simp only [ChunkStorage.countFrame]
        split <;> rfl
      have kept : (cursor.storage.countFrame text none).counts.frames =
            cursor.storage.counts.frames ∧
          (cursor.storage.countFrame text none).counts.unfinished =
            cursor.storage.counts.unfinished := by
        simp only [ChunkStorage.countFrame]
        split <;> exact ⟨rfl, rfl⟩
      refine ⟨?_, ⟨List.Perm.refl _, Finset.subset_union_left, kept.2, kept.1⟩⟩
      rw [counts, Option.map_none, Option.toList_none, List.append_nil]
      exact filing.forgotten (List.Subset.refl _) cursor.expired _
  | some number =>
      obtain ⟨here, live, unsealed, reached⟩ := fits number rfl
      have counted : Filing build start
          { cursor with storage := cursor.storage.countFrame text (some number) }
          journal seq frames :=
        filing.forgotten (List.Subset.refl _) cursor.expired _
      obtain ⟨storage, reading, expired⟩ := write_apart
        { cursor with storage := cursor.storage.countFrame text (some number) } number
        (ChunkCursor.addFrame text)
      refine ⟨counted.write (addFrame_seq text) (fun _ => rfl) unsealed reached ?_, ?_⟩
      · intro other member
        rw [List.mem_singleton.mp member]
        exact ⟨here, live⟩
      · unfold ChunkCursor.writeAt
        refine ⟨?_, ?_, ?_, ?_⟩
        · rw [reading]
          exact List.Perm.refl _
        · rw [expired]
          exact Finset.subset_union_left
        · rw [storage]
          rfl
        · rw [storage]
          rfl

theorem Filing.frameDone (filing : Filing build start cursor journal seq frames)
    {text : FrameText} (fresh : text.framePtsMs ∉ cursor.expired) :
    ∃ after later next lost texts, cursor.frameDone build text = .ok after ∧
      Filing build start after later next (frames ++ texts) ∧
      next ≤ max seq (seqAt text.framePtsMs) ∧
      Spent cursor after (cursor.ending text.framePtsMs) lost texts ∧
      texts.Sublist [text] ∧
      (text.framePtsMs < liveMs → journal.length ≤ seqAt text.framePtsMs → texts = [text]) := by
  have taken : Filing build start
      { cursor with reading := cursor.reading.erase text.framePtsMs } journal seq frames :=
    filing.forgotten List.erase_subset cursor.expired cursor.storage.counts
  have erased := spent_erase cursor text.framePtsMs (Finset.Subset.refl cursor.expired)
  -- The end of the call, once the chunk that takes the frame is known.
  have ending : ∀ {moved : ChunkCursor} {sealed : List OpenChunk} {next : Nat} {lost : List Int}
      (place : Option Nat),
      Moved build { cursor with reading := cursor.reading.erase text.framePtsMs } moved sealed lost
        seq next → next ≤ max seq (seqAt text.framePtsMs) →
      (∀ number ∈ place, number = seqAt text.framePtsMs ∧ text.framePtsMs < liveMs ∧
        (journal ++ sealed).length ≤ number ∧ number ≤ next) →
      ∃ later, Filing build start
          (if text.framePtsMs ∈ cursor.reading then
            (({ moved with storage := moved.storage.countFrame text place } : ChunkCursor).writeAt
              (ChunkCursor.addFrame text) place).sealReleased build
          else ({ moved with storage := moved.storage.countFrame text place } :
              ChunkCursor).writeAt (ChunkCursor.addFrame text) place)
          later next (frames ++ (place.map fun _ => text).toList) ∧
        Spent cursor
          (if text.framePtsMs ∈ cursor.reading then
            (({ moved with storage := moved.storage.countFrame text place } : ChunkCursor).writeAt
              (ChunkCursor.addFrame text) place).sealReleased build
          else ({ moved with storage := moved.storage.countFrame text place } :
              ChunkCursor).writeAt (ChunkCursor.addFrame text) place)
          (cursor.ending text.framePtsMs) lost (place.map fun _ => text).toList := by
    intro moved sealed next lost place motion ahead fits
    have bounded : next ≤ lastSeq := ahead.trans (max_le filing.bounded (seqAt_le _))
    obtain ⟨written, counted⟩ := (taken.moved motion bounded).addFrame text fits
    have spent := (erased.trans motion.spent).trans counted
    simp only [List.append_nil, List.nil_append] at spent
    by_cases read : text.framePtsMs ∈ cursor.reading
    · rw [if_pos read]
      obtain ⟨more, released⟩ := @sealReleased_moved build _ _ written.opened
      have last := spent.trans released.spent
      simp only [List.append_nil] at last
      exact ⟨_, written.moved released bounded, last⟩
    · rw [if_neg read]
      exact ⟨_, written, spent⟩
  unfold ChunkCursor.frameDone
  by_cases held : cursor.held.any (·.seq == seqAt text.framePtsMs) = true
  · have member : seqAt text.framePtsMs ∈ cursor.held.map (·.seq) := held_mem.mp held
    obtain ⟨unsealed, before⟩ := filing.heldBefore member
    have live : text.framePtsMs < liveMs := by
      by_contra late
      have last : seqAt text.framePtsMs = lastSeq := by
        have seventeen : lastSeq = 17 := rfl
        simp only [seqAt, chunkMs, liveMs] at late ⊢
        omega
      have bounded := filing.bounded
      omega
    obtain ⟨later, filed, spent⟩ := ending (some (seqAt text.framePtsMs))
      (Moved.refl filing.opened) (le_max_left _ _) (by
        intro number found
        cases found
        rw [List.append_nil]
        exact ⟨rfl, live, unsealed, Nat.le_of_lt before⟩)
    exact ⟨_, later, seq, _, _, by
      simp only [if_neg fresh, if_pos held, bind, Except.bind, pure, Except.pure],
      filed, le_max_left _ _, spent, List.Sublist.refl _, fun _ _ => rfl⟩
  · obtain ⟨place, moved, sealed, lost, next, found, motion, reached, here⟩ :=
      @chunkFor_moved build _ _ taken.opened text.framePtsMs false
    have ahead : next ≤ max seq (seqAt text.framePtsMs) := by
      rw [reached]
      split
      · exact le_rfl
      · exact le_max_left _ _
    have within := (taken.moved motion (ahead.trans (max_le filing.bounded (seqAt_le _)))).journal_le
    obtain ⟨later, filed, spent⟩ := ending place motion ahead (by
      intro number member
      rw [here] at member
      split at member
      · rename_i taken
        cases member
        have same : next = seqAt text.framePtsMs := by simpa using taken.2
        exact ⟨same, taken.1, within, le_rfl⟩
      · cases member)
    refine ⟨_, later, next, lost, _, by
      simp only [if_neg fresh, if_neg held, found, bind, Except.bind, pure, Except.pure],
      filed, ahead, spent, ?_, ?_⟩
    · cases place
      · exact List.nil_sublist _
      · exact List.Sublist.refl _
    · intro live unsealed
      have same : next = seqAt text.framePtsMs := by
        rw [reached, if_pos live]
        refine max_eq_right (Nat.le_of_not_lt fun before => held (held_mem.mpr ?_))
        exact filing.heldOf unsealed before
      rw [here, if_pos ⟨live, Or.inr same⟩]
      rfl

end Filing

end Ovrly.Captures
