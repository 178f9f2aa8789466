import Ovrly.Captures.RecorderLaw
import Ovrly.Captures.SessionLaw

/-!
The agreement of device and server on the capture grid: a session that was opened for a capture
takes every chunk of its manifest and the duration that its close declares.
-/

namespace Ovrly.Captures

open Relational Runs Ovrly.Jobs Ovrly.Reports Ovrly.Admission

section Upload

open CaptureLimits

def contentType : String := "application/zip"

def SealedChunk.metadata (remote : Uuid) (chunk : SealedChunk) : Option CaptureMetadata :=
  if valid : chunk.startMs < chunk.endMs ∧ chunk.endMs ≤ maxCaptureMs then
    some
      { sessionId := remote
        seq := chunk.seq
        interval := ⟨chunk.startMs, chunk.endMs, valid.1⟩
        sizeBytes := chunk.sizeBytes
        sha256 := chunk.sha256
        contentType := contentType
        modality := chunk.modality }
  else none

/-- The uploader reserves chunks of the manifest only, and the session is still open. Other
captures are free. -/
def FromDevice (remote : Uuid) (manifest : LocalManifest) : Event → Prop
  | .reserve call => call.captureId = remote →
      ∃ chunk ∈ manifest.chunks, chunk.metadata remote = some call.metadata
  | .store _ => True
  | .close call => call.captureId ≠ remote

/-- The session has not expired, and neither the bytes of the capture nor a quota stand in the
way of a reservation. -/
structure Affordable (settings : CaptureSettings) (intake : Intake) (session : CaptureSession)
    (call : ReserveCall) : Prop where
  inTime : call.now < session.expiresAt
  room : totalBytes (intake.chunksFor call.captureId) + call.metadata.sizeBytes ≤
    settings.uploadMaxBytes
  paid : ∃ usage, charge settings.toQuotaSettings intake.usage call.principal call.readings
    { uploadBytes := call.metadata.sizeBytes } none = .ok usage

/-- Every row of the session has the content of a chunk of the manifest. -/
def Declared (remote : Uuid) (manifest : LocalManifest) (rows : List CaptureChunk) : Prop :=
  ∀ row ∈ rows, ∃ chunk ∈ manifest.chunks, ∃ metadata, chunk.metadata remote = some metadata ∧
    row.seq = chunk.seq ∧ sameContent row metadata = true

theorem metadata_some {remote : Uuid} {chunk : SealedChunk} {metadata : CaptureMetadata}
    (built : chunk.metadata remote = some metadata) :
    metadata.sessionId = remote ∧ metadata.seq = chunk.seq ∧
      metadata.interval.startMs = chunk.startMs ∧ metadata.interval.endMs = chunk.endMs := by
  unfold SealedChunk.metadata at built
  split at built
  · simp only [Option.some.injEq] at built
    subst built
    exact ⟨rfl, rfl, rfl, rfl⟩
  · cases built

theorem sameContent_endMs {row : CaptureChunk} {metadata : CaptureMetadata}
    (same : sameContent row metadata = true) : row.endMs = metadata.interval.endMs := by
  simp only [sameContent, Bool.and_eq_true, beq_iff_eq] at same
  exact same.1.1.1.1

/-- A chunk on the grid of the device lies in its cell of the server's. -/
theorem Laid.cell {manifest : LocalManifest} (laid : Laid manifest) {chunk : SealedChunk}
    (member : chunk ∈ manifest.chunks) :
    chunk.startMs = chunk.seq * chunkMs ∧ chunk.startMs < chunk.endMs ∧
      chunk.endMs ≤ min (chunk.seq * chunkMs + chunkMs) maxCaptureMs ∧
      (chunk.endMs < (chunk.seq + 1) * chunkMs → chunk.endMs ≠ ChunkGrid.endOf chunk.seq) := by
  obtain ⟨start, nonempty, within⟩ := laid.inCell chunk member
  simp only [ChunkGrid.endOf, ChunkGrid.startOf, chunkMs, liveMs, maxCaptureMs] at *
  omega

theorem Laid.metadata {manifest : LocalManifest} (laid : Laid manifest) (remote : Uuid)
    {chunk : SealedChunk} (member : chunk ∈ manifest.chunks) :
    ∃ metadata, chunk.metadata remote = some metadata := by
  obtain ⟨-, nonempty, within, -⟩ := laid.cell member
  exact ⟨_, dif_pos ⟨nonempty, within.trans (min_le_right _ _)⟩⟩

theorem reservable_path {session : CaptureSession} {chunks : List CaptureChunk} {limit : Nat}
    {captureId : Uuid} {seq : Nat} {metadata : CaptureMetadata} {now : Time} {answer : Bool}
    (passed : reservable session chunks limit captureId seq metadata now = .ok answer) :
    metadata.seq = seq := by
  by_contra other
  simp only [reservable, if_pos (Or.inr other : metadata.sessionId ≠ captureId ∨ _), throw,
    throwThe, MonadExceptOf.throw, bind, Except.bind] at passed
  cases passed

end Upload

section Server

open CaptureLimits

variable {session : CaptureSession} {manifest : LocalManifest} {remote : Uuid}
  {rows : List CaptureChunk}

/-- The checks of `reserve` pass for every chunk of the manifest, whatever part of it the server
already holds. -/
theorem reservable_declared (laid : Laid manifest) (grid : session.chunkDurationMs = chunkMs)
    (going : session.closed = false) (declared : Declared remote manifest rows)
    {chunk : SealedChunk} (member : chunk ∈ manifest.chunks) {metadata : CaptureMetadata}
    (built : chunk.metadata remote = some metadata) {limit : Nat} {now : Time}
    (inTime : now < session.expiresAt) (room : totalBytes rows + metadata.sizeBytes ≤ limit) :
    ∃ answer, reservable session rows limit remote chunk.seq metadata now = .ok answer ∧
      (answer = true → ∀ row ∈ rows, row.seq ≠ chunk.seq) := by
  obtain ⟨sessionId, seq, startMs, endMs⟩ := metadata_some built
  obtain ⟨start, nonempty, within, short⟩ := laid.cell member
  have path : ¬(metadata.sessionId ≠ remote ∨ metadata.seq ≠ chunk.seq) := by
    simp [sessionId, seq]
  have onCell : onGrid session chunk.seq metadata.interval = true := by
    simp only [onGrid, grid, startMs, endMs, Bool.and_eq_true, beq_iff_eq, decide_eq_true_eq]
    exact ⟨start, within⟩
  have content : ∀ row ∈ rows, row.seq = chunk.seq → sameContent row metadata = true := by
    intro row listed same
    obtain ⟨other, otherMember, declaration, otherBuilt, number, equal⟩ := declared row listed
    have one : other = chunk := laid.unique otherMember member (number.symm.trans same)
    rw [one, built, Option.some.injEq] at otherBuilt
    rw [otherBuilt]
    exact equal
  have placed : breaksGrid session rows chunk.seq metadata.interval.endMs = false := by
    unfold breaksGrid
    rw [List.any_eq_false]
    intro row listed broken
    obtain ⟨other, otherMember, declaration, otherBuilt, number, equal⟩ := declared row listed
    obtain ⟨-, -, -, otherEnd⟩ := metadata_some otherBuilt
    have rowEnd := (sameContent_endMs equal).trans otherEnd
    obtain ⟨-, -, -, otherShort⟩ := laid.cell otherMember
    simp only [shortEnd, grid, Bool.or_eq_true, Bool.and_eq_true, decide_eq_true_eq, rowEnd,
      endMs, number] at broken
    rcases broken with ⟨before, cut⟩ | ⟨before, cut⟩
    · have last := (laid.shortLast other otherMember (otherShort cut)).1 chunk member
      omega
    · have last := (laid.shortLast chunk member (short cut)).1 other otherMember
      omega
  have opened : requireOpen session now = .ok () := by
    simp only [requireOpen, going, Bool.false_eq_true, if_false, if_neg (not_le.mpr inTime)]
  have small : ¬ totalBytes rows + metadata.sizeBytes > limit := not_lt.mpr room
  cases existing : rows.find? (·.seq == chunk.seq) with
  | none =>
      refine ⟨true, ?_, fun _ row listed same => ?_⟩
      · simp [reservable, path, onCell, existing, opened, placed, small, bind, Except.bind, pure,
          Except.pure]
      · exact List.find?_eq_none.mp existing row listed (by simpa using same)
  | some row =>
      have same := content row (List.mem_of_find?_eq_some existing)
        (by simpa using List.find?_some existing)
      by_cases received : isReceived row = true
      · exact ⟨false, by simp [reservable, path, onCell, existing, same, received, pure,
          Except.pure], by simp⟩
      · exact ⟨false, by simp [reservable, path, onCell, existing, same, received, opened, bind,
          Except.bind, pure, Except.pure], by simp⟩

/-- The checks of `close` pass for the duration of the manifest. -/
theorem closable_declared (laid : Laid manifest) (finished : manifest.finished = true)
    (grid : session.chunkDurationMs = chunkMs) (declared : Declared remote manifest rows) :
    closable session (rows.filter isReceived) manifest.durationMs = .ok () := by
  have ends : ∀ row ∈ rows.filter isReceived, row.endMs ≤ manifest.durationMs ∧
      (row.endMs < (row.seq + 1) * chunkMs → row.endMs = manifest.durationMs) := by
    intro row listed
    obtain ⟨chunk, member, metadata, built, number, equal⟩ :=
      declared row (List.mem_filter.mp listed).1
    obtain ⟨-, -, -, ended⟩ := metadata_some built
    obtain ⟨-, -, -, short⟩ := laid.cell member
    have stop := (laid.ended finished).2 chunk member
    rw [(sameContent_endMs equal).trans ended, number]
    exact ⟨stop.1, fun cut => stop.2 (short cut)⟩
  unfold closable
  rw [if_neg, if_neg]
  · rw [Bool.not_eq_true, List.any_eq_false]
    intro row listed
    have equal := (ends row listed).2
    simp only [shortEnd, grid, Bool.and_eq_true, decide_eq_true_eq, bne_iff_ne, not_and, not_not]
    exact equal
  · rw [Bool.not_eq_true, List.any_eq_false]
    intro row listed
    simp only [decide_eq_true_eq, not_lt]
    exact (ends row listed).1

variable {π σ ρ : Type} [EmptyCollection σ] {settings : CaptureSettings}
  {validation : Validation π}

theorem step_declared (station : Station π σ ρ) (event : Event)
    (device : FromDevice remote manifest event)
    (found : station.intake.sessions.find? remote = some session)
    (declared : Declared remote manifest (station.intake.rowsFor remote)) :
    (station.step settings validation event).intake.sessions.find? remote = some session ∧
      Declared remote manifest
        ((station.step settings validation event).intake.rowsFor remote) := by
  cases event with
  | reserve call =>
      simp only [Station.step]
      split
      · exact ⟨found, declared⟩
      rename_i fresh intake reserved
      rcases reserve_ok reserved with ⟨-, rfl⟩ | ⟨-, sessions, inserted, owned, -, passed, -⟩
      · exact ⟨found, declared⟩
      refine ⟨by rw [sessions]; exact found, ?_⟩
      have added : intake.rowsFor remote = if call.captureId = remote then
          station.intake.rowsFor remote ++
            [reservedChunk call.captureId call.seq call.metadata call.storageKey]
          else station.intake.rowsFor remote := rowsFor_insert inserted remote
      rw [added]
      by_cases mine : call.captureId = remote
      · rw [if_pos mine]
        intro row listed
        rcases List.mem_append.mp listed with earlier | new
        · exact declared row earlier
        · obtain ⟨chunk, member, built⟩ := device mine
          have number := (reservable_path passed).symm.trans (metadata_some built).2.1
          rw [List.mem_singleton.mp new]
          exact ⟨chunk, member, call.metadata, built, number,
            by simp [sameContent, reservedChunk]⟩
      · rw [if_neg mine]
        exact declared
  | store call =>
      simp only [Station.step]
      split
      · exact ⟨found, declared⟩
      rename_i read intake queue stored
      rcases store_ok stored with ⟨rfl, -⟩ | ⟨-, -, queued, -, -, -, -, -, -, rfl⟩
      · exact ⟨found, declared⟩
      refine ⟨found, ?_⟩
      rw [rowsFor_received]
      by_cases mine : call.captureId = remote
      · rw [if_pos mine]
        intro row listed
        obtain ⟨before, member, rfl⟩ := List.mem_map.mp listed
        obtain ⟨chunk, known, metadata, built, number, same⟩ := declared before member
        refine ⟨chunk, known, metadata, built, ?_⟩
        split
        · exact ⟨number, same⟩
        · exact ⟨number, same⟩
      · rw [if_neg mine]
        exact declared
  | close call =>
      simp only [Station.step]
      split
      · exact ⟨found, declared⟩
      rename_i intake queue closed
      rcases closeCapture_ok closed with ⟨rfl, -⟩ | ⟨-, duration, -, -, -, rfl, -⟩
      · exact ⟨found, declared⟩
      refine ⟨?_, declared⟩
      have other : (session.id == call.captureId) = false := by
        have same : session.id = remote := Table.find?_key found
        simpa [same] using Ne.symm (device : call.captureId ≠ remote)
      simp only [Table.find?_update, found, Option.map_some, other, Bool.false_eq_true, if_false]

theorem run_declared (events : List Event) {station : Station π σ ρ}
    (device : ∀ event ∈ events, FromDevice remote manifest event)
    (found : station.intake.sessions.find? remote = some session)
    (declared : Declared remote manifest (station.intake.rowsFor remote)) :
    (exec (Station.step settings validation) station events).intake.sessions.find? remote =
        some session ∧
      Declared remote manifest
        ((exec (Station.step settings validation) station events).intake.rowsFor remote) := by
  induction events generalizing station with
  | nil => exact ⟨found, declared⟩
  | cons event rest ih =>
      obtain ⟨kept, further⟩ :=
        step_declared station event (device event List.mem_cons_self) found declared
      exact ih (fun other member => device other (List.mem_cons_of_mem _ member)) kept further

theorem Declared.perm {others : List CaptureChunk} (declared : Declared remote manifest rows)
    (same : others.Perm rows) : Declared remote manifest others :=
  fun row listed => declared row (same.mem_iff.mp listed)

theorem loadOwned_owner {intake : Intake} (found : intake.sessions.find? remote = some session) :
    intake.loadOwned remote session.ownerId = .ok session := by
  unfold Intake.loadOwned
  rw [found]
  simp [Option.filter]

theorem reserve_declared {intake : Intake} (laid : Laid manifest)
    (grid : session.chunkDurationMs = chunkMs) (going : session.closed = false)
    (found : intake.sessions.find? remote = some session)
    (declared : Declared remote manifest (intake.rowsFor remote)) {chunk : SealedChunk}
    (member : chunk ∈ manifest.chunks) {call : ReserveCall} (path : call.captureId = remote)
    (number : call.seq = chunk.seq) (owner : call.principal = session.ownerId)
    (built : chunk.metadata remote = some call.metadata)
    (affordable : Affordable settings intake session call) :
    ∃ answer, reserve settings intake call = .ok answer := by
  have loaded : intake.loadOwned call.captureId call.principal = .ok session := by
    rw [path, owner]
    exact loadOwned_owner found
  have same : (intake.chunksFor call.captureId).Perm (intake.rowsFor remote) :=
    path ▸ chunksFor_perm intake call.captureId
  obtain ⟨answer, passed, fresh⟩ := reservable_declared laid grid going (declared.perm same) member
    built affordable.inTime affordable.room
  obtain ⟨usage, paid⟩ := affordable.paid
  rw [← path, ← number] at passed
  cases answer with
  | false =>
      exact ⟨(false, intake), by
        simp [reserve, loaded, passed, bind, Except.bind, pure, Except.pure]⟩
  | true =>
      have absent : intake.chunks.find? (Keyed.key
          (reservedChunk call.captureId call.seq call.metadata call.storageKey)) = none := by
        rw [Table.find?_eq_none]
        intro row listed equal
        obtain ⟨mine, sameSeq⟩ := Prod.mk.inj equal
        have here : row ∈ intake.chunksFor call.captureId :=
          (chunksFor_perm intake call.captureId).mem_iff.mpr
            (List.mem_filter.mpr ⟨listed, beq_iff_eq.mpr mine⟩)
        exact fresh rfl row here (sameSeq.trans number)
      obtain ⟨chunks, inserted⟩ := Table.insert?_isSome absent
      exact ⟨(true, { intake with chunks, usage }), by
        simp [reserve, loaded, passed, paid, inserted, bind, Except.bind, pure, Except.pure]⟩

omit [EmptyCollection σ] in
theorem close_declared {intake : Intake} {queue : Database π σ ρ} (laid : Laid manifest)
    (finished : manifest.finished = true) (grid : session.chunkDurationMs = chunkMs)
    (going : session.closed = false) (found : intake.sessions.find? remote = some session)
    (declared : Declared remote manifest (intake.rowsFor remote)) {call : CloseCall}
    (path : call.captureId = remote) (owner : call.principal = session.ownerId)
    (duration : call.durationMs = some manifest.durationMs) :
    ∃ answer, closeCapture intake queue call = .ok answer := by
  have loaded : intake.loadOwned call.captureId call.principal = .ok session := by
    rw [path, owner]
    exact loadOwned_owner found
  have same : (intake.chunksFor call.captureId).Perm (intake.rowsFor remote) :=
    path ▸ chunksFor_perm intake call.captureId
  have passed := closable_declared laid finished grid (declared.perm same)
  cases closed : closeCapture intake queue call with
  | ok answer => exact ⟨answer, rfl⟩
  | error failure =>
      simp [closeCapture, loaded, going, duration, passed, bind, Except.bind, pure,
        Except.pure] at closed

/-- Whatever arrives while a capture is recorded and wherever its process dies, the manifest that
is uploaded keeps to the grid of the server: a session opened for it takes each of its chunks and
the close with its duration, in whatever order and among whatever other requests they are sent. -/
theorem device_server_agree (build : ChunkPackage.Build) (capture : CaptureFiles.Capture)
    {stored : LocalManifest} (saved : stored ∈ (capture.recorder build).storage.written)
    (settings : CaptureSettings) (validation : Validation π) (station : Station π σ ρ)
    {remote : Uuid} {session : CaptureSession}
    (opened : Opened validation remote session station)
    (grid : session.chunkDurationMs = chunkMs) (events : List Event)
    (device : ∀ event ∈ events, FromDevice remote (CaptureFiles.restore stored) event) :
    let manifest := CaptureFiles.restore stored
    let reached := exec (Station.step settings validation) station events
    manifest.chunks.Pairwise (·.seq < ·.seq) ∧
      (∀ chunk ∈ manifest.chunks, chunk.startMs = chunk.seq * session.chunkDurationMs ∧
        chunk.startMs < chunk.endMs ∧
        chunk.endMs ≤ min (chunk.startMs + session.chunkDurationMs) maxCaptureMs) ∧
      (∀ chunk ∈ manifest.chunks, shortEnd session chunk.seq chunk.endMs = true →
        (∀ other ∈ manifest.chunks, other.seq ≤ chunk.seq) ∧
          chunk.endMs = manifest.durationMs) ∧
      (∀ chunk ∈ manifest.chunks, chunk.endMs ≤ manifest.durationMs) ∧
      manifest.durationMs ≤ maxCaptureMs ∧
      (∀ chunk ∈ manifest.chunks, ∃ metadata, chunk.metadata remote = some metadata ∧
        ∀ call : ReserveCall, call.captureId = remote → call.seq = chunk.seq →
          call.principal = session.ownerId → call.metadata = metadata →
          Affordable settings reached.intake session call →
          ∃ answer, reserve settings reached.intake call = .ok answer) ∧
      ∀ call : CloseCall, call.captureId = remote → call.principal = session.ownerId →
        call.durationMs = some manifest.durationMs →
        ∃ answer, closeCapture reached.intake reached.queue call = .ok answer := by
  intro manifest reached
  obtain ⟨laid, finished⟩ := (written_laid build capture stored saved).restored
  have nothing : Declared remote manifest (station.intake.rowsFor remote) := by
    rw [opened.empty]
    exact fun row listed => by cases listed
  obtain ⟨found, declared⟩ := run_declared events device opened.found nothing
  refine ⟨laid.ordered, ?_, ?_, ?_, (laid.ended finished).1, ?_, ?_⟩
  · intro chunk member
    obtain ⟨start, nonempty, within, -⟩ := laid.cell member
    rw [grid]
    exact ⟨start, nonempty, start ▸ within⟩
  · intro chunk member short
    have cut : chunk.endMs ≠ ChunkGrid.endOf chunk.seq := by
      apply (laid.cell member).2.2.2
      simpa [shortEnd, grid] using short
    exact ⟨(laid.shortLast chunk member cut).1, ((laid.ended finished).2 chunk member).2 cut⟩
  · exact fun chunk member => ((laid.ended finished).2 chunk member).1
  · intro chunk member
    obtain ⟨metadata, built⟩ := laid.metadata remote member
    refine ⟨metadata, built, fun call path number owner same affordable => ?_⟩
    exact reserve_declared laid grid opened.open_ found declared member path number owner
      (same ▸ built) affordable
  · intro call path owner duration
    exact close_declared laid finished grid opened.open_ found declared path owner duration

end Server

section Example

def recordedEvents : List CaptureFiles.Event :=
  [.writeAudio [1, 2] 40, .frameStarted 11000, .advance 12000, .writeAudio [3, 4] 12500]

def exampleStop : CaptureFiles.Stop := ⟨15000, "Capture stopped", true⟩

theorem recordedEvents_ordered :
    ∀ last ∈ some exampleStop, ∀ event ∈ recordedEvents, event.elapsedMs ≤ last.durationMs := by
  decide

def exampleCapture : CaptureFiles.Capture where
  sessionId := "local"
  events := recordedEvents
  stop := some exampleStop
  late := []
  ordered := recordedEvents_ordered

def exampleBuild : ChunkPackage.Build := fun chunk _ _ =>
  { sizeBytes := 400 + chunk.audioBytes
    sha256 := "9f86d081884c7d659a2feaa0c55ad015a3bf4f1b2b0b822cd15d6c15b0f00a08" }

def exampleSealed (seq endMs : Nat) : SealedChunk where
  seq := seq
  startMs := seq * 10000
  endMs := endMs
  modality := .speech
  sizeBytes := 402
  sha256 := "9f86d081884c7d659a2feaa0c55ad015a3bf4f1b2b0b822cd15d6c15b0f00a08"
  audioBytes := 2
  frameOffsetsMs := []
  observations := 0

def exampleManifest : LocalManifest where
  sessionId := "local"
  finished := true
  durationMs := 15000
  stopReason := some "Capture stopped"
  playbackSignal := true
  chunks := [exampleSealed 0 10000, exampleSealed 1 15000]
  skippedSeqs := []

theorem exampleManifest_saved :
    exampleManifest ∈ (exampleCapture.recorder exampleBuild).storage.written := by
  decide +kernel

def uploadedEvents : List Event :=
  [.reserve ⟨"capture", 0, 1, ⟨"capture", 0, ⟨0, 10000, by decide⟩, 402,
      "9f86d081884c7d659a2feaa0c55ad015a3bf4f1b2b0b822cd15d6c15b0f00a08", contentType, .speech⟩,
      5, ⟨[], [], 5⟩, "first"⟩,
    .store ⟨"capture", 0, 1, true, 6, 7, 1, ⟨7, 7⟩⟩,
    .reserve ⟨"capture", 1, 1, ⟨"capture", 1, ⟨10000, 15000, by decide⟩, 402,
      "9f86d081884c7d659a2feaa0c55ad015a3bf4f1b2b0b822cd15d6c15b0f00a08", contentType, .speech⟩,
      8, ⟨[], [], 8⟩, "second"⟩,
    .store ⟨"capture", 0, 1, true, 9, 9, 2, ⟨9, 9⟩⟩,
    .store ⟨"capture", 1, 1, true, 9, 10, 3, ⟨10, 10⟩⟩]

theorem uploadedEvents_fromDevice : ∀ event ∈ uploadedEvents,
    FromDevice "capture" (CaptureFiles.restore exampleManifest) event := by
  intro event member
  simp only [uploadedEvents, List.mem_cons, List.not_mem_nil, or_false] at member
  rcases member with rfl | rfl | rfl | rfl | rfl
  · exact fun _ => ⟨exampleSealed 0 10000, List.mem_cons_self, rfl⟩
  · trivial
  · exact fun _ => ⟨exampleSealed 1 15000, List.mem_cons_of_mem _ List.mem_cons_self, rfl⟩
  · trivial
  · trivial

theorem device_server_agree_short :
    let begun := exec exampleStep exampleStation (uploadedEvents.take 3)
    let reached := exec exampleStep exampleStation uploadedEvents
    (begun.intake.rowsFor "capture").map (fun chunk => (chunk.seq, isReceived chunk)) =
        [(0, true), (1, false)] ∧
      ∃ answer, closeCapture reached.intake reached.queue
        ⟨"capture", 1, true, some 15000, 11, [], ⟨11, 11⟩⟩ = .ok answer := by
  have agreed := device_server_agree exampleBuild exampleCapture exampleManifest_saved
    ⟨⟨true, 5, 5, 1000⟩, 1000⟩ exampleValidation exampleStation exampleStation_opened rfl
    uploadedEvents uploadedEvents_fromDevice
  exact ⟨by decide +kernel,
    agreed.2.2.2.2.2.2 ⟨"capture", 1, true, some 15000, 11, [], ⟨11, 11⟩⟩ rfl rfl rfl⟩

end Example

end Ovrly.Captures
