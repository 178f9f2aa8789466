import Ovrly.Captures.Journal

/-!
A whole capture on its timeline: which frames were registered, what became of each, and where
those that were written are in the end.
-/

namespace Ovrly.Captures

open Runs Ovrly.Reports

namespace CaptureFiles

open CaptureLimits ChunkGrid

def Event.clock : Event → Option Int
  | .writeAudio _ elapsedMs => some elapsedMs
  | .frameStarted elapsedMs => some elapsedMs
  | .advance elapsedMs => some elapsedMs
  | .release _ => none
  | .writeFrame _ => none

def Event.started : Event → Option Int
  | .frameStarted elapsedMs => some elapsedMs
  | _ => none

def Event.frame : Event → Option FrameText
  | .writeFrame text => some text
  | _ => none

def Event.named : Event → Option Int
  | .release elapsedMs => some elapsedMs
  | .writeFrame text => some text.framePtsMs
  | _ => none

/-- A call that may come after others: the clock does not run back, no two frames have one time,
and only a frame that was started is named. -/
structure Follows (past : List Event) (event : Event) : Prop where
  clock : ∀ time ∈ event.clock, ∀ earlier ∈ past.filterMap Event.clock, earlier ≤ time
  distinct : ∀ time ∈ event.started, time ∉ past.filterMap Event.started
  known : ∀ time ∈ event.named, time ∈ past.filterMap Event.started

structure Timeline where
  events : List Event
  follows : ∀ past event rest, events = past ++ event :: rest → Follows past event

/-- What became of a registered frame. -/
inductive Outcome
  | done
  | released
  | unfinished
  deriving DecidableEq, Repr

def Event.outcome (event : Event) (elapsedMs : Int) : Outcome :=
  match event with
  | .writeFrame text =>
      if text.status ≠ .capped ∧ text.framePtsMs = elapsedMs then .done else .unfinished
  | .release released => if released = elapsedMs then .released else .unfinished
  | _ => .unfinished

def covers (manifest : LocalManifest) (seq : Nat) : Bool :=
  manifest.chunks.any (·.seq == seq) || manifest.skippedSeqs.contains seq

/-- The recorder with the frames that were registered, what became of those no longer read, and
the frames that came in time: before their chunk was sealed, neither expired nor released. -/
structure FrameLedger where
  cursor : ChunkCursor
  registered : List Int
  outcomes : List (Int × Outcome)
  due : List FrameText

namespace FrameLedger

/-- What `frameStarted` returns. -/
def registers (cursor : ChunkCursor) (elapsedMs : Int) : Bool :=
  cursor.current.isSome && decide (elapsedMs < liveMs)

def inTime (ledger : FrameLedger) (text : FrameText) : Bool :=
  decide (text.status ≠ .capped) && ledger.registered.contains text.framePtsMs &&
    !ledger.outcomes.contains (text.framePtsMs, .unfinished) &&
    !ledger.outcomes.contains (text.framePtsMs, .released) &&
    !covers ledger.cursor.storage.manifest (seqAt text.framePtsMs)

def record (build : ChunkPackage.Build) (ledger : FrameLedger) (event : Event) : FrameLedger :=
  let next := step build ledger.cursor event
  { cursor := next
    registered := ledger.registered ++ event.started.toList.filter (registers ledger.cursor)
    outcomes := ledger.outcomes ++
      (ledger.cursor.reading.filter fun elapsedMs => !next.reading.contains elapsedMs).map
        fun elapsedMs => (elapsedMs, event.outcome elapsedMs)
    due := ledger.due ++ event.frame.toList.filter ledger.inTime }

def opening (sessionId : Uuid) : FrameLedger where
  cursor := begin sessionId
  registered := []
  outcomes := []
  due := []

def settled (ledger : FrameLedger) : List (Int × Outcome) :=
  ledger.outcomes ++ ledger.cursor.reading.map fun elapsedMs => (elapsedMs, .unfinished)

end FrameLedger

def Timeline.ledger (timeline : Timeline) (build : ChunkPackage.Build) (sessionId : Uuid) :
    FrameLedger :=
  exec (FrameLedger.record build) (FrameLedger.opening sessionId) timeline.events

end CaptureFiles

section Calls

open CaptureLimits ChunkGrid ChunkStorage CaptureFiles

variable {build : ChunkPackage.Build} {start : LocalManifest} {cursor : ChunkCursor}
  {journal : List OpenChunk} {seq : Nat} {frames : List FrameText}

structure Answered (build : ChunkPackage.Build) (start : LocalManifest) (before after : ChunkCursor)
    (event : Event) (journal later : List OpenChunk) (seq next : Nat)
    (frames texts : List FrameText) (ended lost : List Int) : Prop where
  filing : Filing build start after later next (frames ++ texts)
  ahead : next ≤ max seq (seqAt event.elapsedMs)
  spent : Spent before after ended lost texts
  ended : ∀ time, time ∈ ended ↔ time ∈ before.reading ∧ event.outcome time ≠ .unfinished
  called : texts.Sublist event.frame.toList
  taken : ∀ text ∈ event.frame, text.status ≠ .capped → text.framePtsMs ∉ before.expired →
    text.framePtsMs < liveMs → journal.length ≤ seqAt text.framePtsMs → texts = [text]

theorem spent_addAudio (cursor : ChunkCursor) (bytes : List UInt8) (place : Option Nat) :
    Spent cursor (cursor.writeAt (ChunkCursor.addAudio bytes) place) [] [] [] := by
  cases place with
  | none => exact Spent.refl cursor
  | some number =>
      obtain ⟨storage, reading, expired⟩ :=
        write_apart cursor number (ChunkCursor.addAudio bytes)
      unfold ChunkCursor.writeAt
      refine ⟨?_, ?_, by rw [storage]; rfl, by rw [storage]; rfl⟩
      · rw [reading]
        exact List.Perm.refl _
      · rw [expired]
        exact Finset.subset_union_left

theorem Filing.advanced (filing : Filing build start cursor journal seq frames) (elapsedMs : Int) :
    ∃ place moved later lost next, cursor.chunkFor build elapsedMs true = .ok (place, moved) ∧
      Filing build start moved later next frames ∧ next ≤ max seq (seqAt elapsedMs) ∧
      Spent cursor moved [] lost [] ∧ ∀ number ∈ place, number = next := by
  obtain ⟨place, moved, sealed, lost, next, found, motion, reached, here⟩ :=
    @chunkFor_moved build _ _ filing.opened elapsedMs true
  have ahead : next ≤ max seq (seqAt elapsedMs) := by
    rw [reached]
    split
    · exact le_rfl
    · exact le_max_left _ _
  refine ⟨place, moved, journal ++ sealed, lost, next, found,
    filing.moved motion (ahead.trans (max_le filing.bounded (seqAt_le _))), ahead,
    motion.spent, ?_⟩
  intro number member
  rw [here] at member
  split at member
  · cases member
    rfl
  · cases member

theorem Filing.writeAudio (filing : Filing build start cursor journal seq frames)
    (bytes : List UInt8) (elapsedMs : Int) :
    ∃ later next lost, Answered build start cursor
      (CaptureFiles.step build cursor (.writeAudio bytes elapsedMs)) (.writeAudio bytes elapsedMs)
      journal later seq next frames [] [] lost := by
  obtain ⟨place, moved, later, lost, next, found, filed, ahead, spent, here⟩ :=
    filing.advanced elapsedMs
  have written : Filing build start (moved.writeAt (ChunkCursor.addAudio bytes) place) later next
      (frames ++ []) := by
    cases place with
    | none =>
        rw [List.append_nil]
        exact filed
    | some number =>
        have same : number = next := here number rfl
        rw [← same] at filed
        have unread (chunk : OpenChunk) :
            (ChunkCursor.addAudio bytes chunk).frames = chunk.frames ++ [] :=
          (List.append_nil chunk.frames).symm
        have added := filed.write (addAudio_seq bytes) unread filed.journal_le le_rfl
          (fun text member => by cases member)
        rw [← same]
        exact added
  have all := spent.trans (spent_addAudio moved bytes place)
  simp only [List.append_nil] at all
  refine ⟨later, next, lost, ?_⟩
  simp only [CaptureFiles.step, CaptureFiles.handle, CaptureFiles.writeAudio, found, bind,
    Except.bind, pure, Except.pure]
  exact ⟨written, ahead, all, by simp [Event.outcome], List.Sublist.refl _,
    fun text member => by cases member⟩

theorem Filing.advance (filing : Filing build start cursor journal seq frames) (elapsedMs : Int) :
    ∃ later next lost, Answered build start cursor
      (CaptureFiles.step build cursor (.advance elapsedMs)) (.advance elapsedMs)
      journal later seq next frames [] [] lost := by
  simp only [CaptureFiles.step, CaptureFiles.handle, CaptureFiles.advance]
  by_cases live : cursor.current.isSome ∧ elapsedMs < liveMs
  · obtain ⟨place, moved, later, lost, next, found, filed, ahead, spent, -⟩ :=
      filing.advanced elapsedMs
    refine ⟨later, next, lost, ?_⟩
    simp only [if_pos live, found, bind, Except.bind, pure, Except.pure]
    exact ⟨by rw [List.append_nil]; exact filed, ahead, spent, by simp [Event.outcome],
      List.Sublist.refl _, fun text member => by cases member⟩
  · refine ⟨journal, seq, [], ?_⟩
    simp only [if_neg live, pure, Except.pure]
    exact ⟨by rw [List.append_nil]; exact filing, le_max_left _ _, Spent.refl _,
      by simp [Event.outcome], List.Sublist.refl _, fun text member => by cases member⟩

theorem Filing.release (filing : Filing build start cursor journal seq frames) (elapsedMs : Int) :
    ∃ later next ended lost, Answered build start cursor
      (CaptureFiles.step build cursor (.release elapsedMs)) (.release elapsedMs)
      journal later seq next frames [] ended lost := by
  have fewer : cursor.expired.erase elapsedMs ⊆ cursor.expired := Finset.erase_subset _ _
  have erased := spent_erase cursor elapsedMs fewer
  have forgot : Filing build start
      { cursor with
        reading := cursor.reading.erase elapsedMs, expired := cursor.expired.erase elapsedMs }
      journal seq frames :=
    filing.forgotten List.erase_subset _ cursor.storage.counts
  have ends : ∀ time, time ∈ cursor.ending elapsedMs ↔
      time ∈ cursor.reading ∧ (Event.release elapsedMs).outcome time ≠ .unfinished := by
    intro time
    unfold ChunkCursor.ending
    by_cases read : elapsedMs ∈ cursor.reading
    · simp only [if_pos read, List.mem_singleton, Event.outcome]
      constructor
      · rintro rfl
        exact ⟨read, by simp⟩
      · rintro ⟨-, known⟩
        by_contra other
        exact known (if_neg fun same => other same.symm)
    · simp only [if_neg read, List.not_mem_nil, false_iff, not_and, not_not, Event.outcome]
      intro present
      exact if_neg fun same => read (by rw [same]; exact present)
  simp only [CaptureFiles.step, CaptureFiles.handle, ChunkCursor.release]
  by_cases read : elapsedMs ∈ cursor.reading
  · obtain ⟨sealed, moved⟩ := @sealReleased_moved build _ _ forgot.opened
    have spent := erased.trans moved.spent
    simp only [List.append_nil] at spent
    refine ⟨journal ++ sealed, seq, cursor.ending elapsedMs, [], ?_⟩
    rw [if_pos read]
    exact ⟨by rw [List.append_nil]; exact forgot.moved moved filing.bounded, le_max_left _ _, spent,
      ends, List.Sublist.refl _, fun text member => by cases member⟩
  · refine ⟨journal, seq, cursor.ending elapsedMs, [], ?_⟩
    rw [if_neg read]
    rw [List.erase_of_not_mem read] at forgot erased
    exact ⟨by rw [List.append_nil]; exact forgot, le_max_left _ _, erased, ends,
      List.Sublist.refl _, fun text member => by cases member⟩

theorem Filing.writeFrame (filing : Filing build start cursor journal seq frames)
    (apart : ∀ time ∈ cursor.reading, time ∉ cursor.expired) (text : FrameText) :
    ∃ later next ended lost texts, Answered build start cursor
      (CaptureFiles.step build cursor (.writeFrame text)) (.writeFrame text)
      journal later seq next frames texts ended lost := by
  have opened : cursor.current.isNone = false := by
    obtain ⟨chunk, current, -⟩ := Option.map_eq_some_iff.mp filing.opened
    rw [current]
    rfl
  simp only [CaptureFiles.step, CaptureFiles.handle, CaptureFiles.writeFrame]
  rw [opened, if_neg Bool.false_ne_true]
  by_cases capped : text.status = .capped
  · rw [if_pos capped]
    refine ⟨journal, seq, [], [], [], ?_⟩
    refine ⟨?_, le_max_left _ _, ⟨List.Perm.refl _, Finset.subset_union_left, rfl, rfl⟩, ?_,
      List.nil_sublist _, ?_⟩
    · rw [List.append_nil]
      exact filing.forgotten (List.Subset.refl _) cursor.expired _
    · simp [Event.outcome, capped]
    · intro other member read
      cases member
      exact absurd capped read
  · rw [if_neg capped]
    have outcome : ∀ time, (Event.writeFrame text).outcome time ≠ .unfinished ↔
        text.framePtsMs = time := by
      intro time
      simp only [Event.outcome, ne_eq, capped, not_false_eq_true, true_and]
      by_cases same : text.framePtsMs = time <;> simp [same]
    by_cases late : text.framePtsMs ∈ cursor.expired
    · refine ⟨journal, seq, [], [], [], ?_⟩
      simp only [ChunkCursor.frameDone, if_pos late, pure, Except.pure]
      refine ⟨?_, le_max_left _ _, ?_, ?_, List.nil_sublist _, ?_⟩
      · rw [List.append_nil]
        exact filing.forgotten (List.Subset.refl _) _ cursor.storage.counts
      · exact ⟨List.Perm.refl _, (Finset.erase_subset _ _).trans Finset.subset_union_left,
          rfl, rfl⟩
      · intro time
        simp only [List.not_mem_nil, outcome, false_iff, not_and]
        rintro read rfl
        exact apart _ read late
      · intro other member _ unexpired
        cases member
        exact absurd late unexpired
    · obtain ⟨after, later, next, lost, texts, done, filed, ahead, spent, called, taken⟩ :=
        filing.frameDone late
      rw [done]
      refine ⟨later, next, _, lost, texts, filed, ahead, spent, ?_, called, ?_⟩
      · intro time
        rw [outcome]
        unfold ChunkCursor.ending
        by_cases read : text.framePtsMs ∈ cursor.reading
        · rw [if_pos read, List.mem_singleton]
          constructor
          · rintro rfl
            exact ⟨read, rfl⟩
          · exact fun both => both.2.symm
        · rw [if_neg read]
          simp only [List.not_mem_nil, false_iff, not_and]
          rintro present rfl
          exact read present
      · intro other member _ _ live unsealed
        cases member
        exact taken live unsealed

theorem Filing.answered (filing : Filing build start cursor journal seq frames)
    (apart : ∀ time ∈ cursor.reading, time ∉ cursor.expired) {event : Event}
    (other : event.started = none) :
    ∃ later next ended lost texts, Answered build start cursor
      (CaptureFiles.step build cursor event) event journal later seq next frames texts ended
      lost := by
  cases event with
  | writeAudio bytes elapsedMs =>
      obtain ⟨later, next, lost, answered⟩ := filing.writeAudio bytes elapsedMs
      exact ⟨later, next, [], lost, [], answered⟩
  | frameStarted elapsedMs => cases other
  | release elapsedMs =>
      obtain ⟨later, next, ended, lost, answered⟩ := filing.release elapsedMs
      exact ⟨later, next, ended, lost, [], answered⟩
  | writeFrame text => exact filing.writeFrame apart text
  | advance elapsedMs =>
      obtain ⟨later, next, lost, answered⟩ := filing.advance elapsedMs
      exact ⟨later, next, [], lost, [], answered⟩

end Calls

section Manifest

open CaptureLimits ChunkGrid ChunkStorage CaptureFiles

variable {build : ChunkPackage.Build}

/-- The numbers that a manifest records, sealed or skipped. -/
def listed (manifest : LocalManifest) : List Nat :=
  manifest.chunks.map (·.seq) ++ manifest.skippedSeqs

theorem covers_iff {manifest : LocalManifest} {seq : Nat} :
    covers manifest seq = true ↔ seq ∈ listed manifest := by
  simp [covers, listed]

theorem listed_sealedManifest (manifest : LocalManifest) (chunk : OpenChunk) (endMs : Nat) :
    (listed (sealedManifest build manifest chunk endMs)).Perm
      (listed manifest ++ if startOf chunk.seq < endMs then [chunk.seq] else []) := by
  unfold sealedManifest
  by_cases empty : endMs ≤ startOf chunk.seq
  · rw [if_pos empty, if_neg (Nat.not_lt.mpr empty), List.append_nil]
  · rw [if_neg empty, if_pos (Nat.lt_of_not_le empty)]
    cases ChunkPackage.modality chunk.audioBytes (chunk.frames.countP (·.status != .failed)) with
    | none =>
        simp only [listed, List.append_assoc]
        exact List.Perm.refl _
    | some modality =>
        simp only [listed, List.map_append, List.append_assoc, List.map_singleton]
        exact List.perm_append_comm.append_left _

theorem sealedManifest_chunks (manifest : LocalManifest) (chunk : OpenChunk) (endMs : Nat) :
    ∃ added, (sealedManifest build manifest chunk endMs).chunks = manifest.chunks ++ added ∧
      (added = [] ∨ ∃ modality, added = [sealedChunk build chunk endMs modality]) := by
  unfold sealedManifest
  by_cases empty : endMs ≤ startOf chunk.seq
  · rw [if_pos empty]
    exact ⟨[], (List.append_nil _).symm, Or.inl rfl⟩
  · rw [if_neg empty]
    cases ChunkPackage.modality chunk.audioBytes (chunk.frames.countP (·.status != .failed)) with
    | none => exact ⟨[], (List.append_nil _).symm, Or.inl rfl⟩
    | some modality =>
        exact ⟨[sealedChunk build chunk endMs modality], rfl, Or.inr ⟨modality, rfl⟩⟩

theorem listed_recorded {manifest : LocalManifest} {sealed : List OpenChunk}
    (bounded : ∀ chunk ∈ sealed, chunk.seq ≤ lastSeq) :
    (listed (recorded build manifest sealed)).Perm (listed manifest ++ sealed.map (·.seq)) := by
  induction sealed generalizing manifest with
  | nil =>
      rw [recorded_nil, List.map_nil, List.append_nil]
  | cons chunk rest ih =>
      obtain ⟨first, later⟩ := List.forall_mem_cons.mp bounded
      have one := @listed_sealedManifest build manifest chunk (endOf chunk.seq)
      rw [if_pos (startOf_lt_endOf first)] at one
      rw [recorded_cons, List.map_cons]
      refine (ih later).trans ?_
      have all := one.append_right (rest.map (·.seq))
      rw [List.append_assoc] at all
      exact all

theorem recorded_sublist (manifest : LocalManifest) (sealed : List OpenChunk) :
    ((recorded build manifest sealed).chunks.map (·.seq)).Sublist
      (manifest.chunks.map (·.seq) ++ sealed.map (·.seq)) := by
  induction sealed generalizing manifest with
  | nil =>
      rw [recorded_nil, List.map_nil, List.append_nil]
  | cons chunk rest ih =>
      rw [recorded_cons]
      refine (ih _).trans ?_
      obtain ⟨added, chunks, what⟩ :=
        @sealedManifest_chunks build manifest chunk (endOf chunk.seq)
      rw [chunks, List.map_append, List.map_cons, List.append_assoc]
      refine List.Sublist.append_left ?_ _
      rcases what with rfl | ⟨modality, rfl⟩
      · exact List.sublist_cons_self _ _
      · exact List.Sublist.refl _

theorem recorded_packaged {manifest : LocalManifest} {sealed : List OpenChunk}
    {stored : SealedChunk} (member : stored ∈ (recorded build manifest sealed).chunks) :
    stored ∈ manifest.chunks ∨
      ∃ chunk ∈ sealed, stored = sealedChunk build chunk stored.endMs stored.modality := by
  induction sealed generalizing manifest with
  | nil => exact Or.inl member
  | cons chunk rest ih =>
      rw [recorded_cons] at member
      rcases ih member with earlier | ⟨other, listed, same⟩
      · obtain ⟨added, chunks, what⟩ :=
          @sealedManifest_chunks build manifest chunk (endOf chunk.seq)
        rw [chunks] at earlier
        rcases List.mem_append.mp earlier with known | new
        · exact Or.inl known
        · rcases what with rfl | ⟨modality, rfl⟩
          · cases new
          · rw [List.mem_singleton] at new
            subst new
            exact Or.inr ⟨chunk, List.mem_cons_self, rfl⟩
      · exact Or.inr ⟨other, List.mem_cons_of_mem _ listed, same⟩

variable {start : LocalManifest} {cursor : ChunkCursor} {journal : List OpenChunk} {seq : Nat}
  {frames : List FrameText}

theorem Filing.journalBounded (filing : Filing build start cursor journal seq frames) :
    ∀ chunk ∈ journal, chunk.seq ≤ lastSeq := by
  intro chunk member
  have listed : chunk.seq ∈ (journal ++ cursor.queue).map (·.seq) :=
    List.mem_map_of_mem (List.mem_append_left _ member)
  rw [filing.seqs, List.mem_range] at listed
  exact (Nat.le_of_lt_succ listed).trans filing.bounded

theorem Filing.covers (filing : Filing build start cursor journal seq frames)
    (fresh : listed start = []) (place : Nat) :
    CaptureFiles.covers cursor.storage.manifest place = true ↔ place < journal.length := by
  have all := @listed_recorded build start _ filing.journalBounded
  rw [fresh, List.nil_append, range_of_append filing.seqs, ← filing.manifest] at all
  rw [covers_iff, all.mem_iff, List.mem_range]

end Manifest

section Capture

open CaptureLimits ChunkGrid ChunkStorage CaptureFiles

variable {build : ChunkPackage.Build} {sessionId : Uuid}

/-- After the calls so far, every registered frame is either still read or has one outcome. -/
structure Kept (build : ChunkPackage.Build) (sessionId : Uuid) (past : List Event)
    (ledger : FrameLedger) (journal : List OpenChunk) (seq : Nat) (frames : List FrameText) :
    Prop where
  filing : Filing build (begin sessionId).storage.manifest ledger.cursor journal seq frames
  reached : seq = 0 ∨ ∃ time ∈ past.filterMap Event.clock, seq ≤ seqAt time
  called : frames.Sublist (past.filterMap Event.frame)
  registered : ledger.registered =
    (past.filterMap Event.started).filter fun time : Int => decide (time < liveMs)
  distinct : (past.filterMap Event.started).Nodup
  outcomes : ledger.registered.Perm (ledger.outcomes.map Prod.fst ++ ledger.cursor.reading)
  expired : ∀ time ∈ ledger.cursor.expired, (time, Outcome.unfinished) ∈ ledger.outcomes
  done : ∀ time, (time, Outcome.done) ∈ ledger.outcomes → ∃ text ∈ ledger.due,
    text.framePtsMs = time
  due : ∀ text ∈ ledger.due, text ∈ frames
  unfinished : ledger.cursor.storage.counts.unfinished =
    ledger.outcomes.countP (·.2 = .unfinished)
  counted : ledger.cursor.storage.counts.frames = frames.length

variable {past : List Event} {ledger : FrameLedger} {journal : List OpenChunk} {seq : Nat}
  {frames : List FrameText}

theorem Kept.settledOnce (kept : Kept build sessionId past ledger journal seq frames) :
    (ledger.outcomes.map Prod.fst ++ ledger.cursor.reading).Nodup := by
  refine kept.outcomes.nodup_iff.mp ?_
  rw [kept.registered]
  exact kept.distinct.filter _

theorem Kept.unsettled (kept : Kept build sessionId past ledger journal seq frames) {time : Int}
    (read : time ∈ ledger.cursor.reading) (outcome : Outcome) :
    (time, outcome) ∉ ledger.outcomes := fun settled =>
  List.disjoint_of_nodup_append kept.settledOnce (List.mem_map_of_mem settled) read

theorem Kept.apart (kept : Kept build sessionId past ledger journal seq frames) :
    ∀ time ∈ ledger.cursor.reading, time ∉ ledger.cursor.expired := fun time read expired =>
  kept.unsettled read _ (kept.expired time expired)

theorem Kept.live (kept : Kept build sessionId past ledger journal seq frames) {time : Int}
    (registered : time ∈ ledger.registered) : time < liveMs := by
  rw [kept.registered] at registered
  exact of_decide_eq_true (List.mem_filter.mp registered).2

theorem begin_listed (sessionId : Uuid) : listed (begin sessionId).storage.manifest = [] := rfl

theorem Kept.inTime_iff (kept : Kept build sessionId past ledger journal seq frames)
    {text : FrameText} : ledger.inTime text = true ↔ text.status ≠ .capped ∧
      text.framePtsMs ∈ ledger.registered ∧
      (text.framePtsMs, Outcome.unfinished) ∉ ledger.outcomes ∧
      (text.framePtsMs, Outcome.released) ∉ ledger.outcomes ∧
      journal.length ≤ seqAt text.framePtsMs := by
  have sealed := kept.filing.covers (begin_listed sessionId) (seqAt text.framePtsMs)
  rw [← Nat.not_lt, ← sealed]
  simp [FrameLedger.inTime, and_assoc]

theorem opening_kept (build : ChunkPackage.Build) (sessionId : Uuid) :
    Kept build sessionId [] (FrameLedger.opening sessionId) [] 0 [] where
  filing :=
    { opened := rfl
      bounded := Nat.zero_le _
      manifest := rfl
      seqs := rfl
      reading := fun time read => by cases read
      placed := fun chunk member text written => by
        rw [List.mem_singleton.mp member] at written
        cases written
      contents := List.Perm.refl _ }
  reached := Or.inl rfl
  called := List.Sublist.refl _
  registered := rfl
  distinct := List.nodup_nil
  outcomes := List.Perm.refl _
  expired := fun time member => by cases member
  done := fun time member => by cases member
  due := fun text member => by cases member
  unfinished := rfl
  counted := rfl

theorem none_gone (reading more : List Int) :
    (reading.filter fun time => !(reading ++ more).contains time) = [] := by
  rw [List.filter_eq_nil_iff]
  intro time read
  simp [read]

theorem Kept.frameStarted (kept : Kept build sessionId past ledger journal seq frames)
    {elapsedMs : Int} (follows : Follows past (.frameStarted elapsedMs)) :
    Kept build sessionId (past ++ [.frameStarted elapsedMs])
      (ledger.record build (.frameStarted elapsedMs)) journal seq frames := by
  have filing := kept.filing
  have clock : (past ++ [Event.frameStarted elapsedMs]).filterMap Event.clock =
      past.filterMap Event.clock ++ [elapsedMs] := List.filterMap_append
  have started : (past ++ [Event.frameStarted elapsedMs]).filterMap Event.started =
      past.filterMap Event.started ++ [elapsedMs] := List.filterMap_append
  have frame : (past ++ [Event.frameStarted elapsedMs]).filterMap Event.frame =
      past.filterMap Event.frame := by
    rw [List.filterMap_append]
    exact List.append_nil _
  have some : ledger.cursor.current.isSome = true := by
    obtain ⟨chunk, current, -⟩ := Option.map_eq_some_iff.mp filing.opened
    rw [current]
    rfl
  have reached : seq = 0 ∨ ∃ time ∈ past.filterMap Event.clock ++ [elapsedMs], seq ≤ seqAt time :=
    kept.reached.imp_right fun ⟨time, member, within⟩ =>
      ⟨time, List.mem_append_left _ member, within⟩
  have distinct : (past.filterMap Event.started ++ [elapsedMs]).Nodup := by
    refine List.nodup_append.mpr ⟨kept.distinct, List.nodup_singleton _, ?_⟩
    rintro time earlier _ single rfl
    rw [List.mem_singleton] at single
    rw [single] at earlier
    exact follows.distinct elapsedMs rfl earlier
  have registered : ledger.registered ++ [elapsedMs].filter (fun time : Int => decide (time < liveMs)) =
      (past.filterMap Event.started ++ [elapsedMs]).filter
        fun time : Int => decide (time < liveMs) := by
    rw [List.filter_append, kept.registered]
  by_cases live : elapsedMs < liveMs
  · have recorded : ledger.record build (.frameStarted elapsedMs) =
        { cursor := { ledger.cursor with reading := ledger.cursor.reading ++ [elapsedMs] }
          registered := ledger.registered ++ [elapsedMs]
          outcomes := ledger.outcomes
          due := ledger.due } := by
      have next : CaptureFiles.step build ledger.cursor (.frameStarted elapsedMs) =
          { ledger.cursor with reading := ledger.cursor.reading ++ [elapsedMs] } := by
        refine if_neg ?_
        rintro (none | late)
        · rw [Option.isNone_iff_eq_none.mp none] at some
          cases some
        · exact absurd live (Int.not_lt.mpr late)
      simp only [FrameLedger.record, next, none_gone, List.map_nil, List.append_nil, Event.started,
        Event.frame, Option.toList_some, Option.toList_none, List.filter_nil,
        List.filter_singleton, FrameLedger.registers, some, live, decide_true, Bool.and_self,
        cond_true]
    have unsealed : seq ≤ seqAt elapsedMs := by
      rcases kept.reached with rfl | ⟨time, member, within⟩
      · exact Nat.zero_le _
      · refine within.trans (seqAt_mono (follows.clock elapsedMs rfl time member))
    rw [List.filter_singleton, decide_eq_true live, cond_true] at registered
    rw [recorded]
    constructor
    · exact
        { filing with
          reading := fun time read => by
            rcases List.mem_append.mp read with known | new
            · exact filing.reading time known
            · rw [List.mem_singleton.mp new]
              exact ⟨live, filing.journal_le.trans unsealed⟩ }
    · rw [clock]
      exact reached
    · rw [frame]
      exact kept.called
    · rw [started]
      exact registered
    · rw [started]
      exact distinct
    · rw [← List.append_assoc]
      exact kept.outcomes.append_right _
    · exact kept.expired
    · exact kept.done
    · exact kept.due
    · exact kept.unfinished
    · exact kept.counted
  · have recorded : ledger.record build (.frameStarted elapsedMs) = ledger := by
      have next : CaptureFiles.step build ledger.cursor (.frameStarted elapsedMs) =
          ledger.cursor := by
        refine if_pos (Or.inr (Int.not_lt.mp live))
      have none := none_gone ledger.cursor.reading []
      rw [List.append_nil] at none
      simp only [FrameLedger.record, next, none, List.map_nil, List.append_nil, Event.started,
        Event.frame, Option.toList_some, Option.toList_none, List.filter_nil,
        List.filter_singleton, FrameLedger.registers, some, live, decide_false, Bool.and_false,
        cond_false]
    rw [List.filter_singleton, decide_eq_false live, cond_false, List.append_nil] at registered
    rw [recorded]
    exact
      { kept with
        reached := by
          rw [clock]
          exact reached
        called := by
          rw [frame]
          exact kept.called
        registered := by
          rw [started]
          exact registered
        distinct := by
          rw [started]
          exact distinct }

theorem gone_perm {before after ended lost : List Int} (parted : before.Perm (ended ++ (lost ++ after)))
    (distinct : before.Nodup) :
    (before.filter fun time => !after.contains time).Perm (ended ++ lost) := by
  have apart := parted.nodup_iff.mp distinct
  rw [← List.append_assoc] at apart parted
  have kept := parted.filter fun time => !after.contains time
  rw [List.filter_append] at kept
  have none : (after.filter fun time => !after.contains time) = [] := by
    have gone := none_gone after []
    rw [List.append_nil] at gone
    exact gone
  have all : ((ended ++ lost).filter fun time => !after.contains time) = ended ++ lost := by
    refine List.filter_eq_self.mpr fun time member => ?_
    have absent : time ∉ after := fun read => List.disjoint_of_nodup_append apart member read
    simpa using absent
  rw [none, all, List.append_nil] at kept
  exact kept

theorem filterMap_single {α β : Type} (select : α → Option β) (item : α) :
    [item].filterMap select = (select item).toList := by
  cases found : select item <;> simp [found]

theorem started_clock {past : List Event} {time : Int}
    (started : time ∈ past.filterMap Event.started) : time ∈ past.filterMap Event.clock := by
  obtain ⟨event, member, found⟩ := List.mem_filterMap.mp started
  refine List.mem_filterMap.mpr ⟨event, member, ?_⟩
  cases event <;> first | exact found | cases found

theorem CaptureFiles.Follows.shown {past : List Event} {event : Event} (follows : Follows past event) :
    event.elapsedMs ∈ (past ++ [event]).filterMap Event.clock := by
  rw [List.filterMap_append, filterMap_single, List.mem_append]
  cases event with
  | writeAudio bytes elapsedMs => exact Or.inr (List.mem_singleton_self _)
  | frameStarted elapsedMs => exact Or.inr (List.mem_singleton_self _)
  | release elapsedMs => exact Or.inl (started_clock (follows.known elapsedMs rfl))
  | writeFrame text => exact Or.inl (started_clock (follows.known text.framePtsMs rfl))
  | advance elapsedMs => exact Or.inr (List.mem_singleton_self _)

theorem outcome_done {event : Event} {time : Int} (done : event.outcome time = .done) :
    ∃ text, event = .writeFrame text ∧ text.status ≠ .capped ∧ text.framePtsMs = time := by
  cases event with
  | writeFrame text =>
      simp only [Event.outcome] at done
      by_cases both : text.status ≠ .capped ∧ text.framePtsMs = time
      · exact ⟨text, rfl, both⟩
      · rw [if_neg both] at done
        cases done
  | release elapsedMs =>
      simp only [Event.outcome] at done
      split at done <;> cases done
  | _ => cases done

/-- Every other call settles the frames that it no longer reads. -/
theorem Kept.answered (kept : Kept build sessionId past ledger journal seq frames) {event : Event}
    (follows : Follows past event) (other : event.started = none) :
    ∃ later next texts, Kept build sessionId (past ++ [event]) (ledger.record build event) later next
      (frames ++ texts) := by
  obtain ⟨later, next, ended, lost, texts, answered⟩ :=
    kept.filing.answered kept.apart other
  have distinct : ledger.cursor.reading.Nodup := (List.nodup_append.mp kept.settledOnce).2.1
  have spent := answered.spent
  have gone := gone_perm spent.reading distinct
  have apart : ∀ time ∈ lost, time ∈ ledger.cursor.reading ∧ time ∉ ended := by
    intro time member
    have all := spent.reading.nodup_iff.mp distinct
    exact ⟨spent.reading.mem_iff.mpr
        (List.mem_append_right _ (List.mem_append_left _ member)),
      fun both => List.disjoint_of_nodup_append all both (List.mem_append_left _ member)⟩
  have unfinished : ∀ time ∈ lost, event.outcome time = .unfinished := by
    intro time member
    obtain ⟨read, absent⟩ := apart time member
    by_contra some
    exact absent ((answered.ended time).mpr ⟨read, some⟩)
  have started : (past ++ [event]).filterMap Event.started = past.filterMap Event.started := by
    rw [List.filterMap_append, List.filterMap_cons_none other]
    exact List.append_nil _
  have registered : (ledger.record build event).registered = ledger.registered := by
    simp only [FrameLedger.record, other, Option.toList_none, List.filter_nil, List.append_nil]
  have frame : (past ++ [event]).filterMap Event.frame =
      past.filterMap Event.frame ++ event.frame.toList := by
    rw [List.filterMap_append, filterMap_single]
  refine ⟨later, next, texts, answered.filing, ?_, ?_, ?_, ?_, ?_, ?_, ?_, ?_, ?_, ?_⟩
  · rcases le_max_iff.mp answered.ahead with behind | moved
    · rcases kept.reached with rfl | ⟨time, member, within⟩
      · exact Or.inl (Nat.le_zero.mp behind)
      · rw [List.filterMap_append]
        exact Or.inr ⟨time, List.mem_append_left _ member, behind.trans within⟩
    · exact Or.inr ⟨event.elapsedMs, follows.shown, moved⟩
  · rw [frame]
    exact kept.called.append answered.called
  · rw [registered, started]
    exact kept.registered
  · rw [started]
    exact kept.distinct
  · rw [registered]
    simp only [FrameLedger.record, List.map_append, List.map_map, Function.comp_def, List.map_id',
      List.append_assoc]
    refine kept.outcomes.trans (List.Perm.append_left _ ?_)
    refine spent.reading.trans ?_
    rw [← List.append_assoc]
    exact (gone.append_right _).symm
  · intro time expired
    simp only [FrameLedger.record, List.mem_append]
    rcases Finset.mem_union.mp (spent.expired expired) with known | new
    · exact Or.inl (kept.expired time known)
    · rw [List.mem_toFinset] at new
      refine Or.inr (List.mem_map.mpr ⟨time, ?_, by rw [unfinished time new]⟩)
      exact gone.mem_iff.mpr (List.mem_append_right _ new)
  · intro time settled
    simp only [FrameLedger.record, List.mem_append] at settled ⊢
    rcases settled with known | new
    · obtain ⟨text, member, same⟩ := kept.done time known
      exact ⟨text, Or.inl member, same⟩
    · obtain ⟨read, member, same⟩ := List.mem_map.mp new
      obtain ⟨rfl, done⟩ := Prod.mk.inj same
      obtain ⟨text, rfl, readable, rfl⟩ := outcome_done done
      have reading := List.mem_of_mem_filter member
      refine ⟨text, Or.inr ?_, rfl⟩
      refine List.mem_filter.mpr ⟨List.mem_singleton_self _, kept.inTime_iff.mpr ?_⟩
      exact ⟨readable, kept.outcomes.mem_iff.mpr (List.mem_append_right _ reading),
        kept.unsettled reading _, kept.unsettled reading _,
        (kept.filing.reading _ reading).2⟩
  · intro text member
    simp only [FrameLedger.record, List.mem_append] at member ⊢
    rcases member with known | new
    · exact Or.inl (kept.due text known)
    · obtain ⟨called, timely⟩ := List.mem_filter.mp new
      obtain ⟨readable, known, unexpired, -, unsealed⟩ := kept.inTime_iff.mp timely
      have all := answered.taken text (Option.mem_toList.mp called) readable
        (fun expired => unexpired (kept.expired _ expired)) (kept.live known) unsealed
      rw [all]
      exact Or.inr (List.mem_singleton_self _)
  · have first : ended.countP (fun time => decide (event.outcome time = .unfinished)) = 0 := by
      refine List.countP_eq_zero.mpr fun time member => ?_
      simpa using ((answered.ended time).mp member).2
    have second : lost.countP (fun time => decide (event.outcome time = .unfinished)) =
        lost.length := by
      refine List.countP_eq_length.mpr fun time member => ?_
      simpa using unfinished time member
    simp only [FrameLedger.record, List.countP_append, List.countP_map, Function.comp_def]
    rw [gone.countP_eq, List.countP_append, first, second, Nat.zero_add, spent.unfinished,
      kept.unfinished]
  · rw [List.length_append, ← kept.counted]
    exact spent.frames

/-- Along a timeline the ledger keeps every frame. -/
theorem CaptureFiles.Timeline.kept (timeline : Timeline) (build : ChunkPackage.Build) (sessionId : Uuid) :
    ∃ journal seq frames, Kept build sessionId timeline.events (timeline.ledger build sessionId)
      journal seq frames := by
  have runs : ∀ past : List Event, ∀ rest, timeline.events = past ++ rest →
      ∃ journal seq frames, Kept build sessionId past
        (exec (FrameLedger.record build) (FrameLedger.opening sessionId) past) journal seq frames := by
    intro past
    induction past using List.reverseRecOn with
    | nil => exact fun _ _ => ⟨[], 0, [], opening_kept build sessionId⟩
    | append_singleton past event ih =>
        intro rest split
        rw [List.append_assoc, List.singleton_append] at split
        obtain ⟨journal, seq, frames, kept⟩ := ih (event :: rest) split
        have follows := timeline.follows past event rest split
        rw [exec_concat]
        cases starts : event.started with
        | none =>
            obtain ⟨later, next, texts, after⟩ := kept.answered follows starts
            exact ⟨later, next, _, after⟩
        | some elapsedMs =>
            cases event with
            | frameStarted elapsedMs => exact ⟨journal, seq, frames, kept.frameStarted follows⟩
            | _ => cases starts
  exact runs timeline.events [] (List.append_nil _).symm

theorem Idle.chunkFor {build : ChunkPackage.Build} {cursor moved : ChunkCursor} {elapsedMs : Int}
    {acceptLate : Bool} {place : Option Nat} (idle : Idle cursor)
    (found : cursor.chunkFor build elapsedMs acceptLate = .ok (place, moved)) : Idle moved := by
  unfold ChunkCursor.chunkFor at found
  cases current : cursor.current with
  | none =>
      rw [current] at found
      cases found
  | some chunk =>
      rw [current] at found
      obtain ⟨-, rfl⟩ := Prod.mk.inj (Except.ok.inj found)
      rw [idle.expireStale build]
      exact Idle.turns build idle

theorem Filing.finish {cursor : ChunkCursor}
    (filing : Filing build (begin sessionId).storage.manifest cursor journal seq frames)
    (durationMs : Nat) :
    ∃ moved later next chunk,
      cursor.finish build durationMs = .ok { moved with
        storage := moved.storage.sealChunk build chunk (max durationMs (startOf chunk.seq))
        current := none } ∧
      Filing build (begin sessionId).storage.manifest moved later next frames ∧
      Idle moved ∧ moved.current = some chunk ∧ chunk.seq = next ∧
      (0 < durationMs → durationMs ≤ liveMs → seqAt ((durationMs : Int) - 1) ≤ next) ∧
      moved.storage.counts = { cursor.storage.counts with
        unfinished := cursor.storage.counts.unfinished + cursor.reading.length } := by
  have quiet : Filing build (begin sessionId).storage.manifest
      { cursor with
        reading := []
        storage := cursor.storage.unfinished cursor.reading.length } journal seq frames :=
    filing.forgotten (List.nil_subset _) cursor.expired _
  obtain ⟨sealed, released⟩ := @sealReleased_moved build _ _ quiet.opened
  have idle : Idle (({ cursor with
      reading := []
      storage := cursor.storage.unfinished cursor.reading.length } : ChunkCursor).sealReleased
        build) := ⟨rfl, sealHeld_unread build _ _⟩
  have filed := quiet.moved released filing.bounded
  have counts := released.counts
  generalize settling : ({ cursor with
      reading := []
      storage := cursor.storage.unfinished cursor.reading.length } : ChunkCursor).sealReleased
        build = settled at released idle filed counts
  have ends : ∃ moved later next, settled.atEnd build durationMs = .ok moved ∧
      Filing build (begin sessionId).storage.manifest moved later next frames ∧ Idle moved ∧
      (0 < durationMs → durationMs ≤ liveMs → seqAt ((durationMs : Int) - 1) ≤ next) ∧
      moved.storage.counts = settled.storage.counts := by
    unfold ChunkCursor.atEnd
    by_cases lasting : 0 < durationMs
    · obtain ⟨place, moved, parts, lost, next, found, motion, reached, -⟩ :=
        @chunkFor_moved build _ _ filed.opened ((durationMs : Int) - 1) true
      have none : lost = [] := by
        have parted := motion.reading
        rw [idle.1] at parted
        exact (List.append_eq_nil_iff.mp (List.nil_perm.mp parted)).1
      have bounded : next ≤ lastSeq := by
        rw [reached]
        split
        · exact max_le filing.bounded (seqAt_le _)
        · exact filing.bounded
      rw [if_pos lasting, found]
      refine ⟨moved, _, next, rfl, filed.moved motion bounded, idle.chunkFor found, ?_, ?_⟩
      · intro _ live
        have before : (durationMs : Int) - 1 < liveMs := by omega
        rw [reached, if_pos before]
        exact le_max_right _ _
      · rw [motion.counts, none]
        rfl
    · rw [if_neg lasting]
      exact ⟨settled, _, seq, rfl, filed, idle, fun positive => absurd positive lasting, rfl⟩
  obtain ⟨moved, later, next, reached, last, still, ahead, counted⟩ := ends
  obtain ⟨chunk, current, same⟩ := Option.map_eq_some_iff.mp last.opened
  refine ⟨moved, later, next, chunk, ?_, last, still, current, same, ahead, ?_⟩
  · have finished : (ChunkCursor.sealReleased build { cursor with
        reading := []
        storage := cursor.storage.unfinished cursor.reading.length }).atEnd build durationMs =
          .ok moved := by
      rw [settling]
      exact reached
    simp only [ChunkCursor.finish, finished, bind, Except.bind, pure, Except.pure, current]
  · rw [counted, counts]
    rfl

/-- How a capture ended: the chunks in the order they were sealed in, and where every frame is. -/
structure Accounted (build : ChunkPackage.Build) (timeline : Timeline) (ledger : FrameLedger)
    (final : ChunkCursor) (chunks : List OpenChunk) : Prop where
  order : chunks.map (·.seq) = List.range chunks.length
  packaged : ∀ stored ∈ final.storage.manifest.chunks, ∃ chunk ∈ chunks,
    stored = sealedChunk build chunk stored.endMs stored.modality
  increasing : final.storage.manifest.chunks.Pairwise (·.seq < ·.seq)
  once : (listed final.storage.manifest).Nodup ∧
    ∀ seq, startOf seq < final.storage.manifest.durationMs →
      (listed final.storage.manifest).count seq = 1
  written : ∀ text ∈ ledger.due, ∃ chunk ∈ chunks, text ∈ chunk.frames
  placed : ∀ chunk ∈ chunks, ∀ text ∈ chunk.frames, chunk.seq = seqAt text.framePtsMs ∧
    (0 ≤ text.framePtsMs → startOf chunk.seq ≤ text.framePtsMs ∧
      text.framePtsMs < endOf chunk.seq)
  called : (framesOf chunks).Subperm (timeline.events.filterMap Event.frame)
  settledOnce : (ledger.settled.map Prod.fst).Perm ledger.registered ∧ ledger.registered.Nodup
  done : ∀ time, (time, Outcome.done) ∈ ledger.settled → ∃ text ∈ ledger.due,
    text.framePtsMs = time
  unfinished : final.storage.counts.unfinished = ledger.settled.countP (·.2 = .unfinished)
  counted : final.storage.counts.frames = (framesOf chunks).length
  closed : final.current = none ∧ final.held = [] ∧ final.reading = []

/-- A capture loses and duplicates no chunk and no frame. -/
theorem capture_accounted (build : ChunkPackage.Build) (sessionId : Uuid) (timeline : Timeline)
    (stop : Stop) :
    ∃ final chunks, CaptureFiles.finish build (timeline.ledger build sessionId).cursor stop =
        .ok final ∧
      Accounted build timeline (timeline.ledger build sessionId) final chunks := by
  obtain ⟨journal, seq, frames, kept⟩ := timeline.kept build sessionId
  generalize timeline.ledger build sessionId = ledger at kept
  have live : (max 0 (min stop.durationMs liveMs)).toNat ≤ liveMs := by omega
  generalize lasts : (max 0 (min stop.durationMs liveMs)).toNat = durationMs at live
  obtain ⟨moved, later, next, chunk, finished, filing, idle, current, same, ahead, counts⟩ :=
    kept.filing.finish durationMs
  have some : ledger.cursor.current.isSome = true := by
    obtain ⟨open', opened, -⟩ := Option.map_eq_some_iff.mp kept.filing.opened
    rw [opened]
    rfl
  have queue : moved.queue = [chunk] := by
    unfold ChunkCursor.queue
    rw [idle.2, current]
    rfl
  have seqs := filing.seqs
  have placed := filing.placed
  have contents := filing.contents
  rw [queue] at seqs placed contents
  have length : later.length + 1 = next + 1 := by
    have lengths := congrArg List.length seqs
    simpa using lengths
  have all := @listed_recorded build (begin sessionId).storage.manifest _
    filing.journalBounded
  rw [begin_listed, List.nil_append, range_of_append seqs, ← filing.manifest] at all
  have ending := @listed_sealedManifest build moved.storage.manifest chunk
    (max durationMs (startOf chunk.seq))
  have numbers := ending.trans (all.append_right _)
  have last : chunk.seq = later.length := by omega
  have distinct : (List.range later.length ++
      if startOf chunk.seq < max durationMs (startOf chunk.seq) then [chunk.seq] else []).Nodup := by
    split
    · rw [last, ← List.range_succ]
      exact List.nodup_range
    · rw [List.append_nil]
      exact List.nodup_range
  obtain ⟨final, stopped, chunked, skipped, ended, counted, closed⟩ :
      ∃ final, CaptureFiles.finish build ledger.cursor stop = .ok final ∧
        final.storage.manifest.chunks = (sealedManifest build moved.storage.manifest chunk
          (max durationMs (startOf chunk.seq))).chunks ∧
        final.storage.manifest.skippedSeqs = (sealedManifest build moved.storage.manifest chunk
          (max durationMs (startOf chunk.seq))).skippedSeqs ∧
        final.storage.manifest.durationMs = durationMs ∧
        final.storage.counts = moved.storage.counts ∧
        final.current = none ∧ final.held = [] ∧ final.reading = [] := by
    refine ⟨{ moved with
      storage := ChunkStorage.save
        { moved.storage.sealChunk build chunk (max durationMs (startOf chunk.seq)) with
          manifest :=
            { sealedManifest build moved.storage.manifest chunk
                (max durationMs (startOf chunk.seq)) with
              finished := true
              durationMs := durationMs
              stopReason := stop.reason
              playbackSignal := stop.signal } }
      current := none }, ?_, rfl, rfl, rfl, rfl, rfl, idle.2, idle.1⟩
    simp only [CaptureFiles.finish, some, if_true, lasts, finished, bind, Except.bind, pure,
      Except.pure, sealChunk_manifest]
  have lists : listed final.storage.manifest =
      listed (sealedManifest build moved.storage.manifest chunk
        (max durationMs (startOf chunk.seq))) := by
    rw [listed, chunked, skipped]
    rfl
  obtain ⟨added, chunks, what⟩ := @sealedManifest_chunks build moved.storage.manifest
    chunk (max durationMs (startOf chunk.seq))
  rw [chunks] at chunked
  refine ⟨final, later ++ [chunk], stopped, ?_⟩
  constructor
  · have whole : ((later ++ [chunk]) ++ []).map OpenChunk.seq = List.range (next + 1) := by
      rw [List.append_nil]
      exact seqs
    exact range_of_append whole
  · intro stored member
    rw [chunked, filing.manifest] at member
    rcases List.mem_append.mp member with earlier | new
    · rcases recorded_packaged earlier with begun | ⟨other, listed, equal⟩
      · cases begun
      · exact ⟨other, List.mem_append_left _ listed, equal⟩
    · rcases what with rfl | ⟨modality, rfl⟩
      · cases new
      · rw [List.mem_singleton] at new
        subst new
        exact ⟨chunk, List.mem_append_right _ (List.mem_singleton_self _), rfl⟩
  · rw [← List.pairwise_map]
    have part : (moved.storage.manifest.chunks.map (·.seq) ++ added.map (·.seq)).Sublist
        ((later ++ [chunk]).map (·.seq)) := by
      have early := @recorded_sublist build (begin sessionId).storage.manifest later
      rw [← filing.manifest] at early
      rw [List.map_append]
      refine early.append ?_
      rcases what with rfl | ⟨modality, rfl⟩
      · exact List.nil_sublist _
      · exact List.Sublist.refl _
    rw [chunked, List.map_append]
    refine List.Pairwise.sublist part ?_
    rw [seqs]
    exact List.pairwise_lt_range
  · rw [lists, ended]
    refine ⟨numbers.nodup_iff.mpr distinct, fun number started => ?_⟩
    have positive : 0 < durationMs := Nat.lt_of_le_of_lt (Nat.zero_le _) started
    have within : number ≤ next := by
      refine le_trans ?_ (ahead positive live)
      simp only [startOf, seqAt, chunkMs, liveMs] at started live ⊢
      omega
    refine (numbers.count_eq number).trans (List.count_eq_one_of_mem distinct ?_)
    rw [List.mem_append, List.mem_range]
    by_cases before : number < later.length
    · exact Or.inl before
    · have equal : number = chunk.seq := by omega
      rw [equal] at started
      rw [equal, max_eq_left (Nat.le_of_lt started), if_pos started]
      exact Or.inr (List.mem_singleton_self _)
  · intro text due
    exact List.mem_flatMap.mp (contents.mem_iff.mpr (kept.due text due))
  · intro holder member text written
    obtain ⟨here, early⟩ := placed holder member text written
    refine ⟨here, fun started => ?_⟩
    rw [here]
    exact ⟨startOf_seqAt started, lt_endOf_seqAt early⟩
  · exact contents.subperm.trans kept.called.subperm
  · refine ⟨?_, ?_⟩
    · rw [FrameLedger.settled, List.map_append, List.map_map]
      simp only [Function.comp_def, List.map_id']
      exact kept.outcomes.symm
    · rw [kept.registered]
      exact kept.distinct.filter _
  · intro time settled
    rcases List.mem_append.mp settled with known | stopped
    · exact kept.done time known
    · obtain ⟨read, -, equal⟩ := List.mem_map.mp stopped
      cases equal
  · have lost : (ledger.cursor.reading.map fun elapsedMs =>
        (elapsedMs, Outcome.unfinished)).countP (fun outcome => decide (outcome.2 = .unfinished)) =
          ledger.cursor.reading.length := by
      rw [List.countP_map]
      exact List.countP_eq_length.mpr fun time _ => rfl
    rw [FrameLedger.settled, List.countP_append, lost, ← kept.unfinished, counted, counts]
  · rw [contents.length_eq, ← kept.counted, counted, counts]
  · exact closed

end Capture

section Example

namespace CaptureFiles

instance (past : List Event) (event : Event) : Decidable (Follows past event) :=
  decidable_of_iff
    ((∀ time ∈ event.clock, ∀ earlier ∈ past.filterMap Event.clock, earlier ≤ time) ∧
      (∀ time ∈ event.started, time ∉ past.filterMap Event.started) ∧
      ∀ time ∈ event.named, time ∈ past.filterMap Event.started)
    ⟨fun ⟨clock, distinct, known⟩ => ⟨clock, distinct, known⟩,
      fun follows => ⟨follows.clock, follows.distinct, follows.known⟩⟩

theorem follows_of_get {events : List Event}
    (each : ∀ index : Fin events.length, Follows (events.take index) events[index])
    (past : List Event) (event : Event) (rest : List Event)
    (split : events = past ++ event :: rest) : Follows past event := by
  subst split
  have here := each ⟨past.length, by simp⟩
  simpa using here

def lateText : FrameText := ⟨9000, .recognized, 1, [], 30, 0⟩

/-- Two frames are still read when their chunk is over: one is written late, one is released. A
third is read until the capture is stopped. -/
def lateTimeline : Timeline where
  events := [.writeAudio [1, 2] 40, .frameStarted 9000, .frameStarted 9500, .advance 12000,
    .writeFrame lateText, .release 9500, .frameStarted 13000, .writeAudio [3, 4] 13500]
  follows := follows_of_get (by decide)

def lateBuild : ChunkPackage.Build := fun chunk _ _ => ⟨400 + chunk.audioBytes, ""⟩

def lateStop : Stop := ⟨15000, "Capture stopped", true⟩

end CaptureFiles

open CaptureFiles

theorem capture_accounted_late :
    ∃ final chunks, CaptureFiles.finish lateBuild (lateTimeline.ledger lateBuild "local").cursor
        lateStop = .ok final ∧ lateText ∈ framesOf chunks ∧
      final.storage.counts.frames = 1 ∧ final.storage.counts.unfinished = 1 := by
  obtain ⟨final, chunks, stopped, accounted⟩ :=
    capture_accounted lateBuild "local" lateTimeline lateStop
  have written : lateText ∈ framesOf chunks :=
    List.mem_flatMap.mpr (accounted.written lateText (by decide +kernel))
  refine ⟨final, chunks, stopped, written, ?_, accounted.unfinished.trans (by decide +kernel)⟩
  have most : (framesOf chunks).length ≤ 1 := accounted.called.length_le
  rw [accounted.counted]
  exact Nat.le_antisymm most (List.length_pos_of_mem written)

end Example

end Ovrly.Captures
