import Ovrly.Captures.Sessions
import Ovrly.Jobs.Workers
import Ovrly.Runs

/-!
The law of a capture session: its chunks lie on the grid and only the last one may be short,
they keep what was declared of them, and once the session is closed its manifest tiles the
whole duration.
-/

namespace Ovrly.Captures

open Relational Runs Ovrly.Jobs Ovrly.Reports Ovrly.Admission

section Grid

variable {session : CaptureSession} {chunks : List CaptureChunk} {limit : Nat}

structure Grid (session : CaptureSession) (limit : Nat) (chunks : List CaptureChunk) : Prop where
  unique : (chunks.map (·.seq)).Nodup
  inCell : ∀ chunk ∈ chunks, chunk.seq * session.chunkDurationMs < chunk.endMs ∧
    chunk.endMs ≤ (chunk.seq + 1) * session.chunkDurationMs ∧ chunk.endMs ≤ maxCaptureMs
  shortLast : ∀ chunk ∈ chunks, shortEnd session chunk.seq chunk.endMs = true →
    ∀ other ∈ chunks, other.seq ≤ chunk.seq
  bytes : totalBytes chunks ≤ limit

theorem grid_nil (session : CaptureSession) (limit : Nat) : Grid session limit [] where
  unique := List.nodup_nil
  inCell chunk member := by cases member
  shortLast chunk member := by cases member
  bytes := Nat.zero_le limit

theorem Grid.perm (grid : Grid session limit chunks) {others : List CaptureChunk}
    (same : chunks.Perm others) : Grid session limit others where
  unique := ((same.map _).nodup_iff).mp grid.unique
  inCell chunk member := grid.inCell chunk (same.mem_iff.mpr member)
  shortLast chunk member short other listed :=
    grid.shortLast chunk (same.mem_iff.mpr member) short other (same.mem_iff.mpr listed)
  bytes := by
    have equal : totalBytes others = totalBytes chunks := ((same.map _).sum_eq).symm
    rw [equal]
    exact grid.bytes

theorem reservable_true {captureId : Uuid} {seq : Nat} {metadata : CaptureMetadata} {now : Time}
    (passed : reservable session chunks limit captureId seq metadata now = .ok true) :
    onGrid session seq metadata.interval = true ∧ session.closed = false ∧
      chunks.find? (·.seq == seq) = none ∧
      breaksGrid session chunks seq metadata.interval.endMs = false ∧
      totalBytes chunks + metadata.sizeBytes ≤ limit := by
  simp only [reservable, bind, Except.bind, pure, Except.pure, throw, throwThe,
    MonadExceptOf.throw] at passed
  split at passed
  · cases passed
  split at passed
  · cases passed
  rename_i fits
  split at passed
  · cases passed
  split at passed
  · simp at passed
  split at passed
  · cases passed
  rename_i opened
  split at passed
  · simp at passed
  rename_i fresh
  split at passed
  · cases passed
  rename_i placed
  split at passed
  · cases passed
  rename_i room
  refine ⟨by simpa using fits, ?_, by simpa using fresh, by simpa using placed, not_lt.mp room⟩
  unfold requireOpen at opened
  split at opened
  · cases opened
  · rename_i going
    simpa using going

theorem Grid.snoc (grid : Grid session limit chunks) {seq : Nat} {metadata : CaptureMetadata}
    {captureId : Uuid} {storageKey : String}
    (onCell : onGrid session seq metadata.interval = true)
    (fresh : chunks.find? (·.seq == seq) = none)
    (placed : breaksGrid session chunks seq metadata.interval.endMs = false)
    (room : totalBytes chunks + metadata.sizeBytes ≤ limit) :
    Grid session limit (chunks ++ [reservedChunk captureId seq metadata storageKey]) := by
  have ordered := metadata.interval.ordered
  simp only [onGrid, Bool.and_eq_true, beq_iff_eq, decide_eq_true_eq, le_min_iff] at onCell
  obtain ⟨start, cell, capped⟩ := onCell
  have product : (seq + 1) * session.chunkDurationMs =
      seq * session.chunkDurationMs + session.chunkDurationMs := Nat.succ_mul _ _
  have absent : ∀ chunk ∈ chunks, chunk.seq ≠ seq := by
    intro chunk member same
    exact List.find?_eq_none.mp fresh chunk member (by simpa using same)
  have apart : ∀ chunk ∈ chunks,
      ¬(chunk.seq < seq ∧ shortEnd session chunk.seq chunk.endMs = true) ∧
        ¬(seq < chunk.seq ∧ shortEnd session seq metadata.interval.endMs = true) := by
    intro chunk member
    have clear := List.any_eq_false.mp placed chunk member
    simp only [Bool.or_eq_true, Bool.and_eq_true, decide_eq_true_eq, not_or] at clear
    exact clear
  constructor
  · rw [List.map_append, List.nodup_append]
    refine ⟨grid.unique, by simp, ?_⟩
    intro number member other single equal
    obtain ⟨chunk, listed, rfl⟩ := List.mem_map.mp member
    simp only [List.map_cons, List.map_nil, List.mem_singleton] at single
    exact absent chunk listed (equal.trans single)
  · intro chunk member
    rcases List.mem_append.mp member with earlier | new
    · exact grid.inCell chunk earlier
    · rw [List.mem_singleton.mp new]
      simp only [reservedChunk]
      omega
  · intro chunk member short other listed
    rcases List.mem_append.mp member with earlier | new
    · rcases List.mem_append.mp listed with known | added
      · exact grid.shortLast chunk earlier short other known
      · rw [List.mem_singleton.mp added]
        by_contra later
        exact (apart chunk earlier).1 ⟨not_le.mp later, short⟩
    · rw [List.mem_singleton.mp new] at short ⊢
      rcases List.mem_append.mp listed with known | added
      · by_contra later
        exact (apart other known).2 ⟨not_le.mp later, short⟩
      · rw [List.mem_singleton.mp added]
  · simp only [totalBytes, List.map_append, List.sum_append, List.map_cons, List.map_nil,
      List.sum_cons, List.sum_nil, Nat.add_zero, reservedChunk]
    exact room

end Grid

section Manifest

variable {session : CaptureSession}

/-- The pieces follow one another without a gap and cover what lies between two points. -/
def Tiles : Nat → Nat → List Span → Prop
  | start, stop, [] => start = stop
  | start, stop, piece :: rest =>
      piece.startMs = start ∧ piece.startMs < piece.endMs ∧ Tiles piece.endMs stop rest

def piecesFrom (session : CaptureSession) (duration reached : Nat) : List CaptureChunk → List Span
  | [] => if reached < duration then [⟨reached, duration⟩] else []
  | chunk :: rest =>
      let start := chunk.seq * session.chunkDurationMs
      (if reached < start then [⟨reached, start⟩] else []) ++
        spanOf session chunk :: piecesFrom session duration chunk.endMs rest

theorem piecesFrom_perm (duration reached : Nat) (chunks : List CaptureChunk) :
    (piecesFrom session duration reached chunks).Perm
      (chunks.map (spanOf session) ++ missingFrom session duration reached chunks) := by
  induction chunks generalizing reached with
  | nil => exact .refl _
  | cons chunk rest ih =>
      simp only [piecesFrom, missingFrom, List.map_cons, List.cons_append]
      refine List.perm_middle.trans (.cons _ ?_)
      refine (List.Perm.append_left _ (ih chunk.endMs)).trans ?_
      rw [← List.append_assoc, ← List.append_assoc]
      exact List.Perm.append_right _ List.perm_append_comm

/-- Chunks in the order of their cells, with the missing intervals, tile the duration. -/
theorem tiles_pieces {duration reached : Nat} {chunks : List CaptureChunk}
    (inOrder : chunks.Pairwise fun first second => first.seq < second.seq)
    (inCell : ∀ chunk ∈ chunks, chunk.seq * session.chunkDurationMs < chunk.endMs ∧
      chunk.endMs ≤ (chunk.seq + 1) * session.chunkDurationMs)
    (within : ∀ chunk ∈ chunks, chunk.endMs ≤ duration)
    (after : ∀ chunk ∈ chunks, reached ≤ chunk.seq * session.chunkDurationMs)
    (bounded : reached ≤ duration) :
    Tiles reached duration (piecesFrom session duration reached chunks) := by
  induction chunks generalizing reached with
  | nil =>
      simp only [piecesFrom]
      by_cases short : reached < duration
      · rw [if_pos short]
        exact ⟨rfl, short, rfl⟩
      · rw [if_neg short]
        change reached = duration
        omega
  | cons chunk rest ih =>
      rw [List.pairwise_cons] at inOrder
      have cell := inCell chunk List.mem_cons_self
      have start := after chunk List.mem_cons_self
      have later : ∀ other ∈ rest, chunk.endMs ≤ other.seq * session.chunkDurationMs := by
        intro other member
        have grown : (chunk.seq + 1) * session.chunkDurationMs ≤
            other.seq * session.chunkDurationMs :=
          Nat.mul_le_mul_right _ (inOrder.1 other member)
        omega
      have tail := ih inOrder.2 (fun other member => inCell other (List.mem_cons_of_mem _ member))
        (fun other member => within other (List.mem_cons_of_mem _ member)) later
        (within chunk List.mem_cons_self)
      simp only [piecesFrom]
      by_cases gap : reached < chunk.seq * session.chunkDurationMs
      · rw [if_pos gap]
        exact ⟨rfl, gap, rfl, cell.1, tail⟩
      · rw [if_neg gap]
        have same : chunk.seq * session.chunkDurationMs = reached := by omega
        exact ⟨same, cell.1, tail⟩

end Manifest

section Gaps

theorem gapsFrom_from {expected : Nat} {sequences : List Nat}
    (after : ∀ seq ∈ sequences, expected ≤ seq)
    (inOrder : sequences.Pairwise fun first second => first < second) :
    ∀ range ∈ gapsFrom expected sequences, expected ≤ range.fromSeq := by
  induction sequences generalizing expected with
  | nil => simp [gapsFrom]
  | cons seq rest ih =>
      rw [List.pairwise_cons] at inOrder
      intro range member
      have start := after seq List.mem_cons_self
      rcases List.mem_append.mp member with first | later
      · by_cases gap : expected < seq
        · rw [if_pos gap, List.mem_singleton] at first
          rw [first]
        · rw [if_neg gap] at first
          cases first
      · have bound := ih (fun other listed => inOrder.1 other listed) inOrder.2 range later
        omega

theorem gapsFrom_iff {expected missing : Nat} {sequences : List Nat}
    (after : ∀ seq ∈ sequences, expected ≤ seq)
    (inOrder : sequences.Pairwise fun first second => first < second)
    (reached : expected ≤ missing) :
    (∃ range ∈ gapsFrom expected sequences, range.fromSeq ≤ missing ∧ missing ≤ range.toSeq) ↔
      missing ∉ sequences ∧ ∃ seq ∈ sequences, missing < seq := by
  induction sequences generalizing expected with
  | nil => simp [gapsFrom]
  | cons seq rest ih =>
      rw [List.pairwise_cons] at inOrder
      have beyond : ∀ other ∈ rest, seq + 1 ≤ other := fun other listed => inOrder.1 other listed
      have starts := gapsFrom_from beyond inOrder.2
      by_cases before : missing < seq
      · have gap : expected < seq := by omega
        constructor
        · intro _
          refine ⟨?_, seq, List.mem_cons_self, before⟩
          intro member
          rcases List.mem_cons.mp member with same | later
          · omega
          · have bound := beyond missing later
            omega
        · intro _
          refine ⟨⟨expected, seq - 1⟩, ?_, reached, by simp only; omega⟩
          simp only [gapsFrom, if_pos gap]
          exact List.mem_append_left _ List.mem_cons_self
      · have outside : (∃ range ∈ gapsFrom expected (seq :: rest),
            range.fromSeq ≤ missing ∧ missing ≤ range.toSeq) ↔
            ∃ range ∈ gapsFrom (seq + 1) rest,
              range.fromSeq ≤ missing ∧ missing ≤ range.toSeq := by
          constructor
          · rintro ⟨range, member, low, high⟩
            rcases List.mem_append.mp member with first | later
            · by_cases gap : expected < seq
              · rw [if_pos gap, List.mem_singleton] at first
                rw [first] at high
                simp only at high
                omega
              · rw [if_neg gap] at first
                cases first
            · exact ⟨range, later, low, high⟩
          · rintro ⟨range, later, low, high⟩
            exact ⟨range, List.mem_append_right _ later, low, high⟩
        rw [outside]
        by_cases same : missing = seq
        · constructor
          · rintro ⟨range, later, low, _⟩
            have bound := starts range later
            omega
          · rintro ⟨absent, _⟩
            exact absurd (same ▸ List.mem_cons_self) absent
        · rw [ih beyond inOrder.2 (by omega)]
          constructor
          · rintro ⟨absent, later, listed, bound⟩
            refine ⟨?_, later, List.mem_cons_of_mem _ listed, bound⟩
            intro member
            rcases List.mem_cons.mp member with equal | further
            · exact same equal
            · exact absent further
          · rintro ⟨absent, later, listed, bound⟩
            refine ⟨fun member => absent (List.mem_cons_of_mem _ member), later, ?_, bound⟩
            rcases List.mem_cons.mp listed with equal | further
            · omega
            · exact further

theorem pairwise_lt_mergeSort {α : Type} (key : α → Nat) {items : List α}
    (unique : (items.map key).Nodup) :
    (items.mergeSort fun first second => key first ≤ key second).Pairwise
      fun first second => key first < key second := by
  have weak : (items.mergeSort fun first second => decide (key first ≤ key second)).Pairwise
      fun first second => decide (key first ≤ key second) = true :=
    List.pairwise_mergeSort (fun a b c => by simpa using Nat.le_trans)
      (fun a b => by simpa using Nat.le_total (key a) (key b)) items
  have same := List.mergeSort_perm items fun first second => decide (key first ≤ key second)
  have distinct : ((items.mergeSort fun first second =>
      decide (key first ≤ key second)).Pairwise fun first second => key first ≠ key second) :=
    List.pairwise_map.mp (((same.map key).nodup_iff).mpr unique)
  exact (weak.and distinct).imp fun {first second} both => by
    have bound := both.1
    simp only [decide_eq_true_eq] at bound
    exact lt_of_le_of_ne bound both.2

/-- The gaps hold exactly the sequence numbers that are missing below the highest one. -/
theorem gaps_iff {sequences : List Nat} (unique : sequences.Nodup) (missing : Nat) :
    (∃ range ∈ gaps sequences, range.fromSeq ≤ missing ∧ missing ≤ range.toSeq) ↔
      missing ∉ sequences ∧ ∃ seq ∈ sequences, missing < seq := by
  have same := List.mergeSort_perm sequences fun first second => first ≤ second
  have sorted := pairwise_lt_mergeSort id ((List.map_id sequences).symm ▸ unique)
  simp only [id_eq] at sorted
  rw [gaps, gapsFrom_iff (fun _ _ => Nat.zero_le _) sorted (Nat.zero_le missing)]
  simp only [same.mem_iff]

end Gaps

section Station

variable {π σ ρ : Type} [EmptyCollection σ]

structure Station (π σ ρ : Type) where
  intake : Intake
  queue : Database π σ ρ

inductive Event
  | reserve (call : ReserveCall)
  | store (call : StoreCall)
  | close (call : CloseCall)

/-- A transaction, which a refusal rolls back. -/
def Station.step (settings : CaptureSettings) (validation : Validation π)
    (station : Station π σ ρ) : Event → Station π σ ρ
  | .reserve call =>
      match reserve settings station.intake call with
      | .error _ => station
      | .ok (_, intake) => { station with intake }
  | .store call =>
      match store validation station.intake station.queue call with
      | .error _ => station
      | .ok (_, intake, queue) => ⟨intake, queue⟩
  | .close call =>
      match closeCapture station.intake station.queue call with
      | .error _ => station
      | .ok (intake, queue) => ⟨intake, queue⟩

def Intake.rowsFor (intake : Intake) (captureId : Uuid) : List CaptureChunk :=
  intake.chunks.rows.filter (·.sessionId == captureId)

theorem chunksFor_perm (intake : Intake) (captureId : Uuid) :
    (intake.chunksFor captureId).Perm (intake.rowsFor captureId) := List.mergeSort_perm _ _

theorem loadOwned_ok {intake : Intake} {captureId : Uuid} {principal : PrincipalId}
    {session : CaptureSession} (loaded : intake.loadOwned captureId principal = .ok session) :
    intake.sessions.find? captureId = some session ∧ session.ownerId = principal := by
  unfold Intake.loadOwned at loaded
  split at loaded
  · cases loaded
  · rename_i found
    simp only [Except.ok.injEq] at loaded
    subst loaded
    simpa [Option.filter_eq_some_iff] using found

theorem reserve_ok {settings : CaptureSettings} {intake next : Intake} {call : ReserveCall}
    {fresh : Bool} (reserved : reserve settings intake call = .ok (fresh, next)) :
    (fresh = false ∧ next = intake) ∨
      (fresh = true ∧ next.sessions = intake.sessions ∧
        intake.chunks.insert?
          (reservedChunk call.captureId call.seq call.metadata call.storageKey) =
            some next.chunks ∧
        ∃ session, intake.sessions.find? call.captureId = some session ∧
          reservable session (intake.chunksFor call.captureId) settings.uploadMaxBytes
            call.captureId call.seq call.metadata call.now = .ok true ∧
          charge settings.toQuotaSettings intake.usage call.principal call.readings
            { uploadBytes := call.metadata.sizeBytes } none = .ok next.usage) := by
  simp only [reserve, bind, Except.bind, pure, Except.pure, throw, throwThe,
    MonadExceptOf.throw] at reserved
  split at reserved
  · cases reserved
  rename_i session loaded
  split at reserved
  · cases reserved
  rename_i answer passed
  split at reserved
  · simp only [Except.ok.injEq, Prod.mk.injEq] at reserved
    exact Or.inl ⟨reserved.1.symm, reserved.2.symm⟩
  rename_i going
  have isTrue : answer = true := by simpa using going
  subst isTrue
  split at reserved
  · cases reserved
  rename_i usage paid
  split at reserved
  · cases reserved
  rename_i chunks inserted
  simp only [Except.ok.injEq, Prod.mk.injEq] at reserved
  obtain ⟨rfl, rfl⟩ := reserved
  exact Or.inr ⟨rfl, rfl, inserted, session, (loadOwned_ok loaded).1, passed, paid⟩

theorem store_ok {validation : Validation π} {intake next : Intake} {queue later : Database π σ ρ}
    {call : StoreCall} {read : ChunkRead}
    (stored : store validation intake queue call = .ok (read, next, later)) :
    (next = intake ∧ later = queue) ∨
      ∃ session chunk queued, intake.sessions.find? call.captureId = some session ∧
        session.closed = false ∧
        chunk ∈ intake.rowsFor call.captureId ∧ chunk.seq = call.seq ∧
        isReceived chunk = false ∧
        enqueue queue
          { id := call.jobId
            key := validation.key call.captureId call.seq
            payload := validation.payload call.captureId call.seq
            ownerId := some call.principal } call.clock = .ok (queued, later) ∧
        next = { intake with
          chunks := intake.chunks.update
            (fun chunk => chunk.sessionId == call.captureId && chunk.seq == call.seq)
            (receivedChunk call.writtenAt queued.jobId)
            (receivedChunk_key call.writtenAt queued.jobId) } := by
  simp only [store, bind, Except.bind, pure, Except.pure, throw, throwThe,
    MonadExceptOf.throw] at stored
  split at stored
  · cases stored
  rename_i session loaded
  split at stored
  · split at stored <;> cases stored
  rename_i chunk found
  split at stored
  · simp only [Except.ok.injEq, Prod.mk.injEq] at stored
    exact Or.inl ⟨stored.2.1.symm, stored.2.2.symm⟩
  rename_i waiting
  split at stored
  · cases stored
  split at stored
  · cases stored
  split at stored
  · cases stored
  rename_i opened
  split at stored
  · cases stored
  rename_i queued database accepted
  simp only [Except.ok.injEq, Prod.mk.injEq] at stored
  obtain ⟨-, rfl, rfl⟩ := stored
  refine Or.inr ⟨session, chunk, queued, (loadOwned_ok loaded).1, ?_, ?_, ?_, by simpa using waiting,
    accepted, rfl⟩
  · unfold requireOpen at opened
    split at opened
    · cases opened
    · rename_i going
      simpa using going
  · exact (chunksFor_perm intake call.captureId).mem_iff.mp (List.mem_of_find?_eq_some found)
  · simpa using List.find?_some found

omit [EmptyCollection σ] in
theorem closeCapture_ok {intake next : Intake} {queue later : Database π σ ρ} {call : CloseCall}
    (closed : closeCapture intake queue call = .ok (next, later)) :
    (next = intake ∧ later = queue) ∨
      ∃ session duration, intake.sessions.find? call.captureId = some session ∧
        session.closed = false ∧
        closable session ((intake.chunksFor call.captureId).filter isReceived) duration = .ok () ∧
        next = { intake with
          sessions := intake.sessions.update (·.id == call.captureId)
            (closedSession call.now duration call.continueResearch)
            (closedSession_key call.now duration call.continueResearch) } ∧
        later = if call.continueResearch then queue
          else requestCancelAll queue call.clock call.captureJobs := by
  simp only [closeCapture, bind, Except.bind, pure, Except.pure, throw, throwThe,
    MonadExceptOf.throw] at closed
  split at closed
  · cases closed
  rename_i session loaded
  split at closed
  · split at closed
    · cases closed
    · simp only [Except.ok.injEq, Prod.mk.injEq] at closed
      exact Or.inl ⟨closed.1.symm, closed.2.symm⟩
  rename_i going
  split at closed
  · cases closed
  rename_i checked
  simp only [Except.ok.injEq, Prod.mk.injEq] at closed
  exact Or.inr ⟨session, _, (loadOwned_ok loaded).1, by simpa using going, checked,
    closed.1.symm, closed.2.symm⟩

/-- One session as the law sees it: its row, its chunks and the validation jobs of each
sequence number. -/
structure View where
  session : CaptureSession
  chunks : List CaptureChunk
  jobIds : Nat → List JobId

def jobIdsFor (validation : Validation π) (queue : Database π σ ρ) (captureId : Uuid)
    (seq : Nat) : List JobId :=
  (queue.jobs.rows.filter (·.key == validation.key captureId seq)).map (·.id)

def Station.view (validation : Validation π) (captureId : Uuid) (station : Station π σ ρ)
    (session : CaptureSession) : View where
  session := session
  chunks := station.intake.rowsFor captureId
  jobIds := jobIdsFor validation station.queue captureId

def withReceived (seq : Nat) (now : Time) (jobId : JobId) (chunks : List CaptureChunk) :
    List CaptureChunk :=
  chunks.map fun chunk => if chunk.seq = seq then receivedChunk now jobId chunk else chunk

/-- All that a transaction can do to a session. -/
inductive Change (limit : Nat) (before : View) : View → Prop
  | kept : Change limit before before
  | reserved {captureId seq metadata storageKey} : before.session.closed = false →
      onGrid before.session seq metadata.interval = true →
      before.chunks.find? (·.seq == seq) = none →
      breaksGrid before.session before.chunks seq metadata.interval.endMs = false →
      totalBytes before.chunks + metadata.sizeBytes ≤ limit →
      Change limit before
        { before with
          chunks := before.chunks ++ [reservedChunk captureId seq metadata storageKey] }
  | received {chunk now jobId jobIds} : before.session.closed = false → chunk ∈ before.chunks →
      isReceived chunk = false →
      (before.jobIds chunk.seq = [] → jobIds chunk.seq = [jobId]) →
      (∀ other, other ≠ chunk.seq → jobIds other = before.jobIds other) →
      Change limit before
        { before with chunks := withReceived chunk.seq now jobId before.chunks, jobIds }
  | closed {now duration continueResearch} : before.session.closed = false →
      closable before.session (before.chunks.filter isReceived) duration = .ok () →
      Change limit before
        { before with session := closedSession now duration continueResearch before.session }

/-- What holds of a session in every state. -/
structure Law (limit : Nat) (view : View) : Prop where
  grid : Grid view.session limit view.chunks
  closed : view.session.closed = true → ∃ duration, view.session.durationMs = some duration ∧
    ∀ chunk ∈ view.chunks, isReceived chunk = true → chunk.endMs ≤ duration
  queued : ∀ chunk ∈ view.chunks, isReceived chunk = true → ∃ jobId,
    chunk.jobId = some jobId ∧ view.jobIds chunk.seq = [jobId]
  waiting : ∀ seq, (∀ chunk ∈ view.chunks, chunk.seq = seq → isReceived chunk = false) →
    view.jobIds seq = []

structure SameChunk (first second : CaptureChunk) : Prop where
  seq : second.seq = first.seq
  endMs : second.endMs = first.endMs
  sizeBytes : second.sizeBytes = first.sizeBytes
  sha256 : second.sha256 = first.sha256
  contentType : second.contentType = first.contentType
  modality : second.modality = first.modality

theorem SameChunk.refl (chunk : CaptureChunk) : SameChunk chunk chunk :=
  ⟨rfl, rfl, rfl, rfl, rfl, rfl⟩

theorem SameChunk.trans {first second third : CaptureChunk} (same : SameChunk first second)
    (further : SameChunk second third) : SameChunk first third :=
  ⟨further.seq.trans same.seq, further.endMs.trans same.endMs,
    further.sizeBytes.trans same.sizeBytes, further.sha256.trans same.sha256,
    further.contentType.trans same.contentType, further.modality.trans same.modality⟩

/-- What a session keeps from one state to a later one. -/
structure Later (first second : View) : Prop where
  duration : second.session.chunkDurationMs = first.session.chunkDurationMs
  chunks : ∀ chunk ∈ first.chunks, ∃ later ∈ second.chunks, SameChunk chunk later ∧
    (isReceived chunk = true → later = chunk)
  closed : first.session.closed = true →
    second.session = first.session ∧ second.chunks = first.chunks

theorem Later.refl (view : View) : Later view view :=
  ⟨rfl, fun chunk member => ⟨chunk, member, .refl chunk, fun _ => rfl⟩, fun _ => ⟨rfl, rfl⟩⟩

theorem Later.trans {first second third : View} (before : Later first second)
    (after : Later second third) : Later first third where
  duration := after.duration.trans before.duration
  chunks chunk member := by
    obtain ⟨middle, listed, same, kept⟩ := before.chunks chunk member
    obtain ⟨later, last, further, keptAgain⟩ := after.chunks middle listed
    refine ⟨later, last, same.trans further, fun received => ?_⟩
    have equal := kept received
    subst equal
    exact keptAgain received
  closed ended := by
    obtain ⟨session, chunks⟩ := before.closed ended
    obtain ⟨sessionAgain, chunksAgain⟩ := after.closed (session ▸ ended)
    exact ⟨sessionAgain.trans session, chunksAgain.trans chunks⟩

section Received

variable {chunks : List CaptureChunk} {seq : Nat} {now : Time} {jobId : JobId}

def receivedAs (seq : Nat) (now : Time) (jobId : JobId) (chunk : CaptureChunk) : CaptureChunk :=
  if chunk.seq = seq then receivedChunk now jobId chunk else chunk

theorem sameChunk_receivedAs (chunk : CaptureChunk) :
    SameChunk chunk (receivedAs seq now jobId chunk) := by
  unfold receivedAs
  split
  · exact ⟨rfl, rfl, rfl, rfl, rfl, rfl⟩
  · exact .refl chunk

theorem Grid.received {session : CaptureSession} {limit : Nat} (grid : Grid session limit chunks) :
    Grid session limit (withReceived seq now jobId chunks) := by
  have same : ∀ chunk : CaptureChunk, SameChunk chunk (receivedAs seq now jobId chunk) :=
    sameChunk_receivedAs
  constructor
  · have kept : (withReceived seq now jobId chunks).map (·.seq) = chunks.map (·.seq) := by
      rw [withReceived, List.map_map]
      exact List.map_congr_left fun chunk _ => (same chunk).seq
    rw [kept]
    exact grid.unique
  · intro later member
    obtain ⟨chunk, listed, rfl⟩ := List.mem_map.mp member
    have cell := grid.inCell chunk listed
    have kept := same chunk
    unfold receivedAs at kept
    rw [kept.seq, kept.endMs]
    exact cell
  · intro later member short other listed
    obtain ⟨chunk, known, rfl⟩ := List.mem_map.mp member
    obtain ⟨further, found, rfl⟩ := List.mem_map.mp listed
    have kept := same chunk
    have keptToo := same further
    unfold receivedAs at kept keptToo
    rw [kept.seq, kept.endMs] at short
    rw [kept.seq, keptToo.seq]
    exact grid.shortLast chunk known short further found
  · have kept : totalBytes (withReceived seq now jobId chunks) = totalBytes chunks := by
      unfold totalBytes withReceived
      rw [List.map_map]
      congr 1
      exact List.map_congr_left fun chunk _ => (same chunk).sizeBytes
    rw [kept]
    exact grid.bytes

end Received

theorem Change.later {limit : Nat} {before after : View} (law : Law limit before)
    (change : Change limit before after) : Later before after := by
  cases change with
  | kept => exact .refl before
  | reserved going _ _ _ _ =>
      refine ⟨rfl, fun chunk member => ⟨chunk, List.mem_append_left _ member, .refl chunk,
        fun _ => rfl⟩, fun ended => ?_⟩
      rw [going] at ended
      cases ended
  | @received chunk now jobId jobIds going member waiting _ _ =>
      refine ⟨rfl, fun other listed => ?_, fun ended => ?_⟩
      · refine ⟨receivedAs chunk.seq now jobId other, List.mem_map_of_mem listed,
          sameChunk_receivedAs other, fun received => ?_⟩
        unfold receivedAs
        by_cases same : other.seq = chunk.seq
        · have equal : other = chunk :=
            List.inj_on_of_nodup_map law.grid.unique listed member same
          rw [equal, waiting] at received
          cases received
        · rw [if_neg same]
      · rw [going] at ended
        cases ended
  | closed going _ =>
      refine ⟨rfl, fun chunk member => ⟨chunk, member, .refl chunk, fun _ => rfl⟩, fun ended => ?_⟩
      rw [going] at ended
      cases ended

theorem closable_ok {session : CaptureSession} {received : List CaptureChunk} {duration : Nat}
    (passed : closable session received duration = .ok ()) :
    (∀ chunk ∈ received, chunk.endMs ≤ duration) ∧
      ∀ chunk ∈ received, shortEnd session chunk.seq chunk.endMs = true →
        chunk.endMs = duration := by
  unfold closable at passed
  split at passed
  · cases passed
  rename_i within
  split at passed
  · cases passed
  rename_i final
  constructor
  · intro chunk member
    have holds := List.any_eq_false.mp (Bool.not_eq_true _ ▸ within) chunk member
    simpa using holds
  · intro chunk member short
    have holds := List.any_eq_false.mp (Bool.not_eq_true _ ▸ final) chunk member
    simpa [short] using holds

theorem closable_perm (session : CaptureSession) (duration : Nat)
    {received others : List CaptureChunk} (same : received.Perm others) :
    closable session received duration = closable session others duration := by
  simp only [closable, same.any_eq]

theorem Change.law {limit : Nat} {before after : View} (law : Law limit before)
    (change : Change limit before after) : Law limit after := by
  cases change with
  | kept => exact law
  | @reserved captureId seq metadata storageKey going onCell fresh placed room =>
      refine ⟨law.grid.snoc onCell fresh placed room, fun ended => ?_, ?_, ?_⟩
      · rw [going] at ended
        cases ended
      · intro chunk member received
        rcases List.mem_append.mp member with earlier | new
        · exact law.queued chunk earlier received
        · rw [List.mem_singleton.mp new] at received
          cases received
      · intro other absent
        exact law.waiting other fun chunk member =>
          absent chunk (List.mem_append_left _ member)
  | @received chunk now jobId jobIds going member waiting enqueued others =>
      have onlyOne : ∀ other ∈ before.chunks, other.seq = chunk.seq → other = chunk :=
        fun other listed same => List.inj_on_of_nodup_map law.grid.unique listed member same
      have none : before.jobIds chunk.seq = [] := by
        apply law.waiting
        intro other listed same
        rw [onlyOne other listed same]
        exact waiting
      refine ⟨law.grid.received, fun ended => ?_, ?_, ?_⟩
      · rw [going] at ended
        cases ended
      · intro later listed received
        obtain ⟨other, known, rfl⟩ := List.mem_map.mp listed
        by_cases same : other.seq = chunk.seq
        · simp only [if_pos same]
          refine ⟨jobId, rfl, ?_⟩
          change jobIds other.seq = [jobId]
          rw [same]
          exact enqueued none
        · simp only [if_neg same] at received ⊢
          obtain ⟨known, found, ids⟩ := law.queued other known received
          exact ⟨known, found, (others other.seq same).trans ids⟩
      · intro seq absent
        by_cases same : seq = chunk.seq
        · have received := absent (receivedAs chunk.seq now jobId chunk)
            (List.mem_map_of_mem member) ((sameChunk_receivedAs chunk).seq.trans same.symm)
          rw [receivedAs, if_pos rfl] at received
          cases received
        · refine (others seq same).trans (law.waiting seq ?_)
          intro other listed equal
          have different : other.seq ≠ chunk.seq := fun same' => same (equal.symm.trans same')
          have kept := absent (receivedAs chunk.seq now jobId other) (List.mem_map_of_mem listed)
            ((sameChunk_receivedAs other).seq.trans equal)
          rwa [receivedAs, if_neg different] at kept
  | @closed now duration continueResearch going passed =>
      refine ⟨⟨law.grid.unique, law.grid.inCell, law.grid.shortLast, law.grid.bytes⟩,
        fun _ => ⟨duration, rfl, ?_⟩, law.queued, law.waiting⟩
      intro chunk member received
      exact (closable_ok passed).1 chunk (List.mem_filter.mpr ⟨member, received⟩)

theorem rowsFor_insert {intake : Intake} {chunk : CaptureChunk} {chunks : Table CaptureChunk}
    (inserted : intake.chunks.insert? chunk = some chunks) (captureId : Uuid) :
    ({ intake with chunks } : Intake).rowsFor captureId =
      if chunk.sessionId = captureId then intake.rowsFor captureId ++ [chunk]
      else intake.rowsFor captureId := by
  unfold Intake.rowsFor
  rw [Table.rows_insert? inserted, List.filter_append]
  by_cases mine : chunk.sessionId = captureId
  · simp [mine]
  · simp [mine]

theorem rowsFor_received (intake : Intake) (target captureId : Uuid) (seq : Nat) (now : Time)
    (jobId : JobId) :
    ({ intake with
        chunks := intake.chunks.update
          (fun chunk => chunk.sessionId == target && chunk.seq == seq)
          (receivedChunk now jobId) (receivedChunk_key now jobId) } : Intake).rowsFor captureId =
      if target = captureId then withReceived seq now jobId (intake.rowsFor captureId)
      else intake.rowsFor captureId := by
  have sessions : ((fun chunk : CaptureChunk => chunk.sessionId == captureId) ∘
      fun chunk => if (chunk.sessionId == target && chunk.seq == seq) = true then
        receivedChunk now jobId chunk else chunk) = fun chunk => chunk.sessionId == captureId := by
    funext chunk
    by_cases hit : (chunk.sessionId == target && chunk.seq == seq) = true
    · simp only [Function.comp_apply, if_pos hit]
      rfl
    · simp only [Function.comp_apply, if_neg hit]
  simp only [Intake.rowsFor, Table.update, List.filter_map, sessions]
  by_cases mine : target = captureId
  · subst mine
    rw [if_pos rfl]
    apply List.map_congr_left
    intro chunk member
    have here := (List.mem_filter.mp member).2
    simp only [here, Bool.true_and, beq_iff_eq]
  · rw [if_neg mine]
    refine (List.map_congr_left fun chunk member => ?_).trans (List.map_id _)
    have here : chunk.sessionId = captureId := by simpa using (List.mem_filter.mp member).2
    have other : (chunk.sessionId == target) = false := by simpa [here] using Ne.symm mine
    simp only [other, Bool.false_and, Bool.false_eq_true, if_false, id_eq]

theorem jobIdsFor_enqueue {validation : Validation π} {queue later : Database π σ ρ}
    {target : Uuid} {seq : Nat} {id : JobId} {payload : π} {owner : Option PrincipalId}
    {clock : Clock} {queued : Enqueued}
    (accepted : enqueue queue ⟨id, validation.key target seq, payload, owner⟩ clock =
      .ok (queued, later)) :
    (jobIdsFor validation queue target seq = [] →
        jobIdsFor validation later target seq = [queued.jobId]) ∧
      ∀ captureId other, (captureId, other) ≠ (target, seq) →
        jobIdsFor validation later captureId other = jobIdsFor validation queue captureId other := by
  rcases enqueue_rows accepted with ⟨existing, member, same, -, rfl⟩ | ⟨fresh, rfl, rows⟩
  · refine ⟨fun none => ?_, fun _ _ _ => rfl⟩
    have listed : existing.id ∈ jobIdsFor validation later target seq :=
      List.mem_map.mpr ⟨existing, List.mem_filter.mpr ⟨member, by simpa using same⟩, rfl⟩
    rw [none] at listed
    cases listed
  · constructor
    · intro none
      unfold jobIdsFor at none ⊢
      rw [rows, List.filter_append, List.map_append, none]
      simp [newRow]
    · intro captureId other different
      unfold jobIdsFor
      rw [rows, List.filter_append, List.map_append]
      have elsewhere : (validation.key target seq == validation.key captureId other) = false := by
        rw [beq_eq_false_iff_ne]
        intro same
        obtain ⟨rfl, rfl⟩ := validation.injective same
        exact different rfl
      simp [newRow, elsewhere]

omit [EmptyCollection σ] in
theorem jobIdsFor_update (validation : Validation π) (queue : Database π σ ρ)
    (condition : Job π σ → Bool) (change : Job π σ → Job π σ)
    (keeps : ∀ job, (change job).id = job.id) (sameKey : ∀ job, (change job).key = job.key) :
    jobIdsFor validation { queue with jobs := queue.jobs.update condition change keeps } =
      jobIdsFor validation queue := by
  funext captureId seq
  have keys : ((fun job : Job π σ => job.key == validation.key captureId seq) ∘
      fun job => if condition job then change job else job) =
        fun job => job.key == validation.key captureId seq := by
    funext job
    by_cases chosen : condition job = true
    · simp only [Function.comp_apply, if_pos chosen, sameKey]
    · simp only [Function.comp_apply, if_neg chosen]
  simp only [jobIdsFor, Table.update, List.filter_map, keys, List.map_map]
  apply List.map_congr_left
  intro job _
  by_cases chosen : condition job = true
  · simp only [Function.comp_apply, if_pos chosen, keeps]
  · simp only [Function.comp_apply, if_neg chosen]

omit [EmptyCollection σ] in
theorem jobIdsFor_requestCancel (validation : Validation π) (queue : Database π σ ρ)
    (jobId : JobId) (clock : Clock) :
    jobIdsFor validation (requestCancel queue jobId clock).2 = jobIdsFor validation queue := by
  unfold requestCancel
  split
  · rfl
  · split
    · exact jobIdsFor_update validation queue _ _ (cancelled_id clock) fun _ => rfl
    · split
      · dsimp only
        split
        · rfl
        · exact jobIdsFor_update validation queue _ _ (flagged_id clock) fun _ => rfl
      · rfl

omit [EmptyCollection σ] in
theorem jobIdsFor_requestCancelAll (validation : Validation π) (queue : Database π σ ρ)
    (clock : Clock) (identifiers : List JobId) :
    jobIdsFor validation (requestCancelAll queue clock identifiers) =
      jobIdsFor validation queue := by
  unfold requestCancelAll
  induction identifiers generalizing queue with
  | nil => rfl
  | cons jobId rest ih =>
      exact (ih (requestCancel queue jobId clock).2).trans
        (jobIdsFor_requestCancel validation queue jobId clock)

variable {settings : CaptureSettings} {validation : Validation π}

theorem reserve_change (station : Station π σ ρ) (call : ReserveCall) {captureId : Uuid}
    {session : CaptureSession}
    (found : station.intake.sessions.find? captureId = some session) :
    ∃ next, (station.step settings validation (.reserve call)).intake.sessions.find? captureId =
        some next ∧
      Change settings.uploadMaxBytes (station.view validation captureId session)
        ((station.step settings validation (.reserve call)).view validation captureId next) := by
  simp only [Station.step]
  split
  · exact ⟨session, found, .kept⟩
  rename_i fresh intake reserved
  rcases reserve_ok reserved with ⟨-, rfl⟩ | ⟨-, sessions, inserted, owned, known, passed, -⟩
  · exact ⟨session, found, .kept⟩
  refine ⟨session, by rw [sessions]; exact found, ?_⟩
  have rows : intake.rowsFor captureId = if call.captureId = captureId then
      station.intake.rowsFor captureId ++
        [reservedChunk call.captureId call.seq call.metadata call.storageKey]
      else station.intake.rowsFor captureId := rowsFor_insert inserted captureId
  by_cases mine : call.captureId = captureId
  · subst mine
    rw [found, Option.some.injEq] at known
    subst known
    obtain ⟨onCell, going, absent, placed, room⟩ := reservable_true passed
    have same := chunksFor_perm station.intake call.captureId
    have view : ({ station with intake } : Station π σ ρ).view validation call.captureId session =
        { station.view validation call.captureId session with
          chunks := station.intake.rowsFor call.captureId ++
            [reservedChunk call.captureId call.seq call.metadata call.storageKey] } := by
      simp only [Station.view, rows, if_true]
    rw [view]
    refine .reserved going onCell ?_ ?_ ?_
    · rw [List.find?_eq_none] at absent ⊢
      exact fun chunk member => absent chunk (same.mem_iff.mpr member)
    · unfold breaksGrid at placed ⊢
      rw [List.any_eq_false] at placed ⊢
      exact fun chunk member => placed chunk (same.mem_iff.mpr member)
    · have bytes : totalBytes (station.intake.chunksFor call.captureId) =
          totalBytes (station.intake.rowsFor call.captureId) := (same.map _).sum_eq
      rw [bytes] at room
      exact room
  · have view : ({ station with intake } : Station π σ ρ).view validation captureId session =
        station.view validation captureId session := by
      simp only [Station.view, rows, if_neg mine]
    rw [view]
    exact .kept

theorem store_change (station : Station π σ ρ) (call : StoreCall) {captureId : Uuid}
    {session : CaptureSession}
    (found : station.intake.sessions.find? captureId = some session) :
    ∃ next, (station.step settings validation (.store call)).intake.sessions.find? captureId =
        some next ∧
      Change settings.uploadMaxBytes (station.view validation captureId session)
        ((station.step settings validation (.store call)).view validation captureId next) := by
  simp only [Station.step]
  split
  · exact ⟨session, found, .kept⟩
  rename_i read intake queue stored
  rcases store_ok stored with ⟨rfl, rfl⟩ |
    ⟨owned, chunk, queued, known, going, member, sameSeq, waiting, accepted, rfl⟩
  · exact ⟨session, found, .kept⟩
  refine ⟨session, found, ?_⟩
  obtain ⟨enqueued, others⟩ := jobIdsFor_enqueue accepted
  have rows := rowsFor_received station.intake call.captureId captureId call.seq call.writtenAt
    queued.jobId
  by_cases mine : call.captureId = captureId
  · subst mine
    rw [found, Option.some.injEq] at known
    subst known
    rw [if_pos rfl] at rows
    rw [← sameSeq] at enqueued others rows
    have view : (Station.mk { station.intake with
        chunks := station.intake.chunks.update
          (fun chunk => chunk.sessionId == call.captureId && chunk.seq == call.seq)
          (receivedChunk call.writtenAt queued.jobId)
          (receivedChunk_key call.writtenAt queued.jobId) } queue).view validation call.captureId
            session =
        { station.view validation call.captureId session with
          chunks := withReceived chunk.seq call.writtenAt queued.jobId
            (station.intake.rowsFor call.captureId)
          jobIds := jobIdsFor validation queue call.captureId } := by
      simp only [Station.view, ← sameSeq, rows]
    rw [view]
    exact .received going member waiting enqueued fun other different =>
      others call.captureId other fun same => different (Prod.mk.inj same).2
  · rw [if_neg mine] at rows
    have jobs : jobIdsFor validation queue captureId =
        jobIdsFor validation station.queue captureId := by
      funext other
      exact others captureId other fun same => mine (Prod.mk.inj same).1.symm
    simp only [Station.view, rows, jobs]
    exact .kept

theorem close_change (station : Station π σ ρ) (call : CloseCall) {captureId : Uuid}
    {session : CaptureSession}
    (found : station.intake.sessions.find? captureId = some session) :
    ∃ next, (station.step settings validation (.close call)).intake.sessions.find? captureId =
        some next ∧
      Change settings.uploadMaxBytes (station.view validation captureId session)
        ((station.step settings validation (.close call)).view validation captureId next) := by
  simp only [Station.step]
  split
  · exact ⟨session, found, .kept⟩
  rename_i intake queue closed
  rcases closeCapture_ok closed with ⟨rfl, rfl⟩ | ⟨owned, duration, known, going, passed, rfl, rfl⟩
  · exact ⟨session, found, .kept⟩
  have jobs : jobIdsFor validation (if call.continueResearch = true then station.queue
      else requestCancelAll station.queue call.clock call.captureJobs) =
        jobIdsFor validation station.queue := by
    split
    · rfl
    · exact jobIdsFor_requestCancelAll validation station.queue call.clock call.captureJobs
  have sameId : session.id = captureId := Table.find?_key found
  by_cases mine : call.captureId = captureId
  · subst mine
    rw [found, Option.some.injEq] at known
    subst known
    refine ⟨closedSession call.now duration call.continueResearch session, ?_, ?_⟩
    · simp [Table.find?_update, found, sameId]
    · have view : (Station.mk { station.intake with
          sessions := station.intake.sessions.update (·.id == call.captureId)
            (closedSession call.now duration call.continueResearch)
            (closedSession_key call.now duration call.continueResearch) }
          (if call.continueResearch = true then station.queue
            else requestCancelAll station.queue call.clock call.captureJobs)).view validation
              call.captureId (closedSession call.now duration call.continueResearch session) =
          { station.view validation call.captureId session with
            session := closedSession call.now duration call.continueResearch session } := by
        simp only [Station.view, jobs, Intake.rowsFor]
      rw [view]
      refine .closed going ?_
      rw [← passed]
      exact closable_perm session duration
        ((chunksFor_perm station.intake call.captureId).symm.filter isReceived)
  · refine ⟨session, ?_, ?_⟩
    · have other : (session.id == call.captureId) = false := by
        simpa [sameId] using Ne.symm mine
      simp only [Table.find?_update, found, Option.map_some, other, Bool.false_eq_true, if_false]
    · simp only [Station.view, jobs]
      exact .kept

variable (settings validation) in
theorem step_change (station : Station π σ ρ) (event : Event) {captureId : Uuid}
    {session : CaptureSession}
    (found : station.intake.sessions.find? captureId = some session) :
    ∃ next, (station.step settings validation event).intake.sessions.find? captureId = some next ∧
      Change settings.uploadMaxBytes (station.view validation captureId session)
        ((station.step settings validation event).view validation captureId next) := by
  cases event with
  | reserve call => exact reserve_change station call found
  | store call => exact store_change station call found
  | close call => exact close_change station call found

theorem run_law (events : List Event) {station : Station π σ ρ} {captureId : Uuid}
    {session : CaptureSession}
    (found : station.intake.sessions.find? captureId = some session)
    (law : Law settings.uploadMaxBytes (station.view validation captureId session)) :
    ∃ next, (exec (Station.step settings validation) station events).intake.sessions.find?
        captureId = some next ∧
      Law settings.uploadMaxBytes
        ((exec (Station.step settings validation) station events).view validation captureId next) ∧
      Later (station.view validation captureId session)
        ((exec (Station.step settings validation) station events).view validation captureId
          next) := by
  induction events generalizing station session with
  | nil => exact ⟨session, found, law, .refl _⟩
  | cons event rest ih =>
      obtain ⟨middle, middleFound, change⟩ := step_change settings validation station event found
      obtain ⟨next, nextFound, nextLaw, later⟩ := ih middleFound (change.law law)
      exact ⟨next, nextFound, nextLaw, (change.later law).trans later⟩

structure Opened (validation : Validation π) (captureId : Uuid) (session : CaptureSession)
    (station : Station π σ ρ) : Prop where
  found : station.intake.sessions.find? captureId = some session
  open_ : session.closed = false
  empty : station.intake.rowsFor captureId = []
  unqueued : ∀ seq, jobIdsFor validation station.queue captureId seq = []

omit [EmptyCollection σ] in
theorem Opened.law {captureId : Uuid} {session : CaptureSession} {station : Station π σ ρ}
    (opened : Opened validation captureId session station) (limit : Nat) :
    Law limit (station.view validation captureId session) where
  grid := by
    change Grid session limit (station.intake.rowsFor captureId)
    rw [opened.empty]
    exact grid_nil session limit
  closed ended := by
    have going : session.closed = true := ended
    rw [opened.open_] at going
    cases going
  queued chunk member := by
    have listed : chunk ∈ station.intake.rowsFor captureId := member
    rw [opened.empty] at listed
    cases listed
  waiting seq _ := opened.unqueued seq

theorem Law.manifest {limit : Nat} {view : View} (law : Law limit view)
    (closed : view.session.closed = true) :
    ∃ duration pieces, view.session.durationMs = some duration ∧
      (manifest view.session view.chunks).durationMs = duration ∧
      pieces.Perm ((receivedInOrder view.chunks).map (spanOf view.session) ++
        (manifest view.session view.chunks).missingIntervals) ∧
      Tiles 0 duration pieces := by
  obtain ⟨duration, declared, within⟩ := law.closed closed
  have same : (receivedInOrder view.chunks).Perm (view.chunks.filter isReceived) :=
    List.mergeSort_perm _ _
  have listed : ∀ chunk ∈ receivedInOrder view.chunks,
      chunk ∈ view.chunks ∧ isReceived chunk = true := fun chunk member =>
    List.mem_filter.mp (same.mem_iff.mp member)
  have unique : ((view.chunks.filter isReceived).map (·.seq)).Nodup :=
    law.grid.unique.sublist (List.filter_sublist.map _)
  refine ⟨duration, piecesFrom view.session duration 0 (receivedInOrder view.chunks), declared,
    by simp [Captures.manifest, declared], ?_, ?_⟩
  · have missing : (Captures.manifest view.session view.chunks).missingIntervals =
        missingFrom view.session duration 0 (receivedInOrder view.chunks) := by
      simp [Captures.manifest, declared]
    rw [missing]
    exact piecesFrom_perm duration 0 _
  · apply tiles_pieces (pairwise_lt_mergeSort CaptureChunk.seq unique)
    · intro chunk member
      have cell := law.grid.inCell chunk (listed chunk member).1
      exact ⟨cell.1, cell.2.1⟩
    · exact fun chunk member => within chunk (listed chunk member).1 (listed chunk member).2
    · exact fun _ _ => Nat.zero_le _
    · exact Nat.zero_le _

omit [EmptyCollection σ] in
theorem Law.perm {limit : Nat} {view : View} (law : Law limit view) {others : List CaptureChunk}
    (same : view.chunks.Perm others) : Law limit { view with chunks := others } where
  grid := law.grid.perm same
  closed ended := by
    obtain ⟨duration, declared, within⟩ := law.closed ended
    exact ⟨duration, declared, fun chunk member => within chunk (same.mem_iff.mpr member)⟩
  queued chunk member := law.queued chunk (same.mem_iff.mpr member)
  waiting seq absent := law.waiting seq fun chunk member => absent chunk (same.mem_iff.mp member)

omit [EmptyCollection σ] in
theorem Law.gaps {limit : Nat} {view : View} (law : Law limit view) (now : Time) (missing : Nat) :
    (∃ range ∈ (sessionResponse view.session view.chunks now).gaps,
        range.fromSeq ≤ missing ∧ missing ≤ range.toSeq) ↔
      (∀ chunk ∈ view.chunks, isReceived chunk = true → chunk.seq ≠ missing) ∧
        ∃ chunk ∈ view.chunks, isReceived chunk = true ∧ missing < chunk.seq := by
  have unique : ((view.chunks.filter isReceived).map (·.seq)).Nodup :=
    law.grid.unique.sublist (List.filter_sublist.map _)
  refine (gaps_iff unique missing).trans (and_congr ?_ ?_)
  · simp only [List.mem_map, List.mem_filter, not_exists, not_and, and_imp]
  · constructor
    · rintro ⟨seq, member, later⟩
      obtain ⟨chunk, listed, rfl⟩ := List.mem_map.mp member
      obtain ⟨known, received⟩ := List.mem_filter.mp listed
      exact ⟨chunk, known, received, later⟩
    · rintro ⟨chunk, known, received, later⟩
      exact ⟨chunk.seq, List.mem_map_of_mem (List.mem_filter.mpr ⟨known, received⟩), later⟩

/-- Whatever reservations, stores and closes meet a new session and in whatever order: at most
one chunk is short and it is the last, the bytes stay within the limit, a chunk keeps what it was
accepted as and is validated once, a closed session takes nothing more and its manifest tiles the
duration, and the gaps are the missing sequence numbers. -/
theorem session_law (settings : CaptureSettings) (validation : Validation π)
    (station : Station π σ ρ) {captureId : Uuid} {session : CaptureSession}
    (opened : Opened validation captureId session station) (before later : List Event) :
    let first := exec (Station.step settings validation) station before
    let last := exec (Station.step settings validation) first later
    let chunks := first.intake.chunksFor captureId
    ∃ now next, first.intake.sessions.find? captureId = some now ∧
      last.intake.sessions.find? captureId = some next ∧
      (∀ chunk ∈ chunks, chunk.endMs - chunk.seq * now.chunkDurationMs < now.chunkDurationMs →
        ∀ other ∈ chunks, other.seq ≤ chunk.seq) ∧
      (∀ chunk ∈ chunks, ∀ other ∈ chunks, chunk.seq = other.seq → chunk = other) ∧
      totalBytes chunks ≤ settings.uploadMaxBytes ∧
      (∀ chunk ∈ chunks, ∃ kept ∈ last.intake.chunksFor captureId, SameChunk chunk kept ∧
        (isReceived chunk = true → kept = chunk)) ∧
      (∀ chunk ∈ chunks,
        (isReceived chunk = true → ∃ jobId, chunk.jobId = some jobId ∧
          jobIdsFor validation first.queue captureId chunk.seq = [jobId]) ∧
        (isReceived chunk = false → jobIdsFor validation first.queue captureId chunk.seq = [])) ∧
      (now.closed = true →
        next = now ∧ last.intake.rowsFor captureId = first.intake.rowsFor captureId ∧
        ∃ duration pieces, now.durationMs = some duration ∧
          (manifest now chunks).durationMs = duration ∧
          pieces.Perm ((receivedInOrder chunks).map (spanOf now) ++
            (manifest now chunks).missingIntervals) ∧
          Tiles 0 duration pieces) ∧
      ∀ time missing,
        (∃ range ∈ (sessionResponse now chunks time).gaps,
          range.fromSeq ≤ missing ∧ missing ≤ range.toSeq) ↔
        (∀ chunk ∈ chunks, isReceived chunk = true → chunk.seq ≠ missing) ∧
          ∃ chunk ∈ chunks, isReceived chunk = true ∧ missing < chunk.seq := by
  intro first last chunks
  obtain ⟨now, found, rowsLaw, -⟩ :=
    run_law before opened.found (opened.law settings.uploadMaxBytes)
  obtain ⟨next, nextFound, -, kept⟩ := run_law later found rowsLaw
  have law := rowsLaw.perm (chunksFor_perm first.intake captureId).symm
  refine ⟨now, next, found, nextFound, ?_, ?_, law.grid.bytes, ?_, ?_, ?_, law.gaps⟩
  · intro chunk member short
    apply law.grid.shortLast chunk member
    have cell : chunk.seq * now.chunkDurationMs < chunk.endMs ∧
        chunk.endMs ≤ (chunk.seq + 1) * now.chunkDurationMs ∧ chunk.endMs ≤ maxCaptureMs :=
      law.grid.inCell chunk member
    have product : (chunk.seq + 1) * now.chunkDurationMs =
        chunk.seq * now.chunkDurationMs + now.chunkDurationMs := Nat.succ_mul _ _
    change decide (chunk.endMs < (chunk.seq + 1) * now.chunkDurationMs) = true
    rw [decide_eq_true_eq]
    omega
  · exact fun chunk member other listed same =>
      List.inj_on_of_nodup_map law.grid.unique member listed same
  · intro chunk member
    obtain ⟨later, listed, same, final⟩ := kept.chunks chunk
      ((chunksFor_perm first.intake captureId).mem_iff.mp member)
    exact ⟨later, (chunksFor_perm last.intake captureId).mem_iff.mpr listed, same, final⟩
  · intro chunk member
    refine ⟨law.queued chunk member, fun waiting => law.waiting chunk.seq ?_⟩
    intro other listed same
    rw [List.inj_on_of_nodup_map law.grid.unique listed member same]
    exact waiting
  · intro ended
    obtain ⟨session, rows⟩ := kept.closed ended
    exact ⟨session, rows, law.manifest ended⟩

end Station

section Example

def exampleDigest (captureId : Uuid) (seq : Nat) : String :=
  String.ofList (List.replicate seq '1' ++ '0' :: captureId.toList)

theorem exampleDigest_injective {captureId otherId : Uuid} {seq otherSeq : Nat}
    (same : exampleDigest captureId seq = exampleDigest otherId otherSeq) :
    captureId = otherId ∧ seq = otherSeq := by
  have spelt := String.ofList_injective same
  clear same
  induction seq generalizing otherSeq with
  | zero =>
      cases otherSeq with
      | zero => exact ⟨String.toList_injective (List.cons.inj spelt).2, rfl⟩
      | succ other =>
          have first := (List.cons.inj spelt).1
          simp at first
  | succ seq ih =>
      cases otherSeq with
      | zero =>
          have first := (List.cons.inj spelt).1
          simp at first
      | succ other =>
          obtain ⟨ids, rest⟩ := ih (List.cons.inj spelt).2
          exact ⟨ids, congrArg (· + 1) rest⟩

def exampleValidation : Validation (List Unit) where
  key captureId seq := ⟨1, "media_validation", exampleDigest captureId seq⟩
  payload _ _ := []
  injective same := exampleDigest_injective (StageKey.mk.inj same).2.2

def exampleSession : CaptureSession where
  id := "capture"
  ownerId := 1
  requestKey := "key"
  chunkDurationMs := 10000
  closed := false
  startedAt := 0
  closedAt := none
  expiresAt := 1000000
  continueResearch := none
  durationMs := none

def exampleStation : Station (List Unit) (List Unit) Unit where
  intake :=
    { sessions := ⟨[exampleSession], List.nodup_singleton _⟩
      chunks := Table.empty
      usage := Table.empty }
  queue := Database.empty

theorem exampleStation_opened :
    Opened exampleValidation "capture" exampleSession exampleStation where
  found := rfl
  open_ := rfl
  empty := rfl
  unqueued _ := rfl

def exampleMetadata : CaptureMetadata where
  sessionId := "capture"
  seq := 0
  interval := ⟨0, 4000, Nat.zero_lt_succ 3999⟩
  sizeBytes := 500
  sha256 := "digest"
  contentType := "application/zip"
  modality := .speech

def exampleEvents : List Event :=
  [.reserve ⟨"capture", 0, 1, exampleMetadata, 5, ⟨[], [], 5⟩, "object"⟩,
    .store ⟨"capture", 0, 1, true, 6, 7, 1, ⟨7, 7⟩⟩,
    .close ⟨"capture", 1, true, some 4000, 8, [], ⟨8, 8⟩⟩]

def lateEvents : List Event :=
  [.reserve ⟨"capture", 1, 1, { exampleMetadata with
      seq := 1
      interval := ⟨10000, 14000, by decide⟩ }, 9, ⟨[], [], 9⟩, "late"⟩,
    .close ⟨"capture", 1, false, some 14000, 10, [], ⟨10, 10⟩⟩]

def exampleStep : Station (List Unit) (List Unit) Unit → Event → Station (List Unit) (List Unit) Unit :=
  Station.step ⟨⟨true, 5, 5, 1000⟩, 1000⟩ exampleValidation

theorem exampleEvents_closed : ((exec exampleStep exampleStation exampleEvents).intake.sessions.find?
    "capture").map (fun session => (session.closed, session.durationMs)) = some (true, some 4000) := by
  decide +kernel

theorem session_law_stopped :
    let chunks := (exec exampleStep exampleStation exampleEvents).intake.chunksFor "capture"
    ∃ now, (exec exampleStep exampleStation exampleEvents).intake.sessions.find? "capture" =
        some now ∧
      (exec exampleStep exampleStation (exampleEvents ++ lateEvents)).intake.sessions.find?
        "capture" = some now ∧
      totalBytes chunks ≤ 1000 ∧
      ∃ pieces, pieces.Perm ((receivedInOrder chunks).map (spanOf now) ++
        (manifest now chunks).missingIntervals) ∧ Tiles 0 4000 pieces := by
  obtain ⟨now, next, found, last, -, -, bytes, -, -, closed, -⟩ :=
    session_law ⟨⟨true, 5, 5, 1000⟩, 1000⟩ exampleValidation exampleStation exampleStation_opened
      exampleEvents lateEvents
  have ended := exampleEvents_closed
  rw [exampleStep, found] at ended
  obtain ⟨isClosed, isDuration⟩ := Prod.mk.inj (Option.some.inj ended)
  obtain ⟨rfl, -, duration, pieces, same, -, perm, tiles⟩ := closed isClosed
  obtain rfl := Option.some.inj (same.symm.trans isDuration)
  rw [exec_append]
  exact ⟨next, found, last, bytes, pieces, perm, tiles⟩

end Example

end Ovrly.Captures
