import Ovrly.Shares.Recovery

/-!
What the tries of one share keep, wherever they are cut off, and when a retry brings in the
investigation that the server already has.
-/

namespace Ovrly.Shares.Recovery

open Runs

/-- A row that is not accepted has no investigation, and no event but an acceptance changes that. -/
theorem isAccepted_of_next {state next : LocalJobState} {event : JobEvent}
    (goes : state.next event = some next) (notAccepted : next.isAccepted = false) :
    state.isAccepted = false := by
  cases accepted : state.isAccepted with
  | false => rfl
  | true =>
      cases event with
      | uploadStarted =>
          cases state <;> simp_all [LocalJobState.next, LocalJobState.isAccepted]
      | uploadInterrupted => simp [LocalJobState.next, accepted] at goes
      | unrecoverable => simp [LocalJobState.next, accepted] at goes
      | accepted status =>
          simp only [LocalJobState.next, accepted, if_true, Option.some.injEq] at goes
          subst goes
          cases status <;> simp_all [LocalJobState.fromServer, LocalJobState.isAccepted]
      | server status =>
          simp only [LocalJobState.next, accepted, if_true, Option.some.injEq] at goes
          subst goes
          cases status <;> simp_all [LocalJobState.fromServer, LocalJobState.isAccepted]
      | gone =>
          simp only [LocalJobState.next, accepted, if_true, Option.some.injEq] at goes
          subst goes
          simp [LocalJobState.isAccepted] at notAccepted

theorem next_accepted (state : LocalJobState) (status : ProcessingStatus) :
    ∃ next, state.next (.accepted status) = some next ∧ next.isAccepted = true := by
  refine ⟨_, rfl, ?_⟩
  cases status <;> cases state <;> rfl

namespace ShareRecord

variable {record : ShareRecord}

structure Keeps (record next : ShareRecord) : Prop where
  idempotencyKey : next.idempotencyKey = record.idempotencyKey
  stagedPath : next.stagedPath = record.stagedPath
  serverId : next.serverId = record.serverId
  unaccepted : next.state.isAccepted = false → record.state.isAccepted = false

theorem Keeps.refl (record : ShareRecord) : Keeps record record := ⟨rfl, rfl, rfl, id⟩

theorem apply_keeps (event : JobEvent) {change : ShareRecord → ShareRecord}
    (kept : (change record).idempotencyKey = record.idempotencyKey ∧
      (change record).stagedPath = record.stagedPath ∧
      (change record).serverId = record.serverId) : Keeps record (record.apply event change) := by
  unfold apply
  split
  · exact .refl record
  · rename_i next goes
    exact ⟨kept.1, kept.2.1, kept.2.2, isAccepted_of_next goes⟩

theorem withAttempt_keeps (attempt : UploadAttempt) : Keeps record (record.withAttempt attempt) :=
  ⟨rfl, rfl, rfl, id⟩

theorem apply_attempt (event : JobEvent) : (record.apply event id).attempt = record.attempt := by
  unfold apply
  split <;> rfl

theorem recordStop_keeps (attempt : UploadAttempt) (retryable : Bool) :
    Keeps record (record.recordStop attempt retryable) :=
  apply_keeps _ ⟨rfl, rfl, rfl⟩

theorem recordStop_attempt {attempt : UploadAttempt} (agrees : record.attempt = attempt)
    (retryable : Bool) : (record.recordStop attempt retryable).attempt = attempt := by
  unfold recordStop apply
  split
  · exact agrees
  · rfl

theorem accepted_serverId (record : ShareRecord) (id : String) (status : ProcessingStatus) :
    (record.accepted id status).serverId = some id := by
  obtain ⟨next, goes, _⟩ := next_accepted record.state status
  unfold accepted apply
  rw [goes]

theorem accepted_isAccepted (record : ShareRecord) (id : String) (status : ProcessingStatus) :
    (record.accepted id status).state.isAccepted = true := by
  obtain ⟨next, goes, done⟩ := next_accepted record.state status
  unfold accepted apply
  rw [goes]
  exact done

theorem accepted_idempotencyKey (record : ShareRecord) (id : String) (status : ProcessingStatus) :
    (record.accepted id status).idempotencyKey = record.idempotencyKey := by
  obtain ⟨next, goes, _⟩ := next_accepted record.state status
  unfold accepted apply
  rw [goes]

theorem accepted_uploadId (record : ShareRecord) (id : String) (status : ProcessingStatus) :
    (record.accepted id status).uploadId = record.uploadId := by
  obtain ⟨next, goes, _⟩ := next_accepted record.state status
  unfold accepted apply
  rw [goes]

end ShareRecord

namespace Device

variable {candidate : ShareCandidate} {key : String} {device : Device}

/-- The source that a row stands for: of a video, its one completed upload. -/
def SourceOf (candidate : ShareCandidate) (record : ShareRecord) (source : InvestigationSource) :
    Prop :=
  match candidate with
  | .link url => source = .url url
  | .video => ∃ id, record.uploadId = some id ∧ source = .upload id

/-- The row, the requests and the server's investigations of a share, wherever its run is. -/
structure Books (candidate : ShareCandidate) (key : String) (device : Device) : Prop where
  same : device.candidate = candidate
  row : device.record.idempotencyKey = key
  sheets : ∀ sheet, device.sheet = some sheet → sheet.key = key
  creates : ∀ used source, .create used source ∈ device.requests →
    used = key ∧ SourceOf candidate device.record source
  requested : ∀ created ∈ device.created, .create created.key created.source ∈ device.requests
  single : device.created.length ≤ 1
  known : ∀ id, device.record.serverId = some id → ∃ created ∈ device.created, created.id = id
  unknown : device.record.state.isAccepted = false → device.record.serverId = none
  staged : candidate = .video → device.record.serverId = none →
    device.record.stagedPath.isSome = true

def Placed (key : String) (device : Device) : Prop :=
  match device.position with
  | .idle => ∀ sheet, device.sheet = some sheet → device.record.attempt = sheet.attempt
  | .retrying run => run.key = key ∧ device.record.attempt = run.attempt
  | .uploading run => run.key = key ∧ device.record.attempt = run.attempt
  | .stopping run _ => run.key = key ∧ device.record.attempt = run.attempt
  | .resuming run id => run.key = key ∧ device.record.attempt = run.attempt ∧
      run.attempt = ⟨some id, none⟩
  | .dropping run => run.key = key ∧ run.attempt = {} ∧
      ∃ id, device.record.attempt = ⟨some id, none⟩ ∧ id ∈ device.gone
  | .declaring run => run.key = key ∧ device.record.attempt = {} ∧ run.attempt = {}
  | .declared run id => run.key = key ∧ device.record.attempt = {} ∧
      run.attempt = ⟨some id, none⟩
  | .targeted run id => run.key = key ∧ device.record.attempt = run.attempt ∧
      run.attempt = ⟨some id, none⟩
  | .sending run id => run.key = key ∧ device.record.attempt = run.attempt ∧
      run.attempt = ⟨some id, none⟩
  | .completing run id => run.key = key ∧ device.record.attempt = run.attempt ∧
      run.attempt = ⟨some id, none⟩
  | .completed run => run.key = key ∧ ∃ id, device.record.attempt = ⟨some id, none⟩ ∧
      run.attempt = ⟨some id, some id⟩
  | .creating run source => run.key = key ∧ device.record.attempt = run.attempt ∧
      .create key source ∈ device.requests
  | .answered _ id _ => ∃ created ∈ device.created, created.id = id
  | .recorded => device.created ≠ []
  | .deleted id _ => ∃ created ∈ device.created, created.id = id

def driverAt : Position → Option Driver
  | .idle => none
  | .retrying run => some run.driver
  | .uploading run => some run.driver
  | .resuming run _ => some run.driver
  | .dropping run => some run.driver
  | .declaring run => some run.driver
  | .declared run _ => some run.driver
  | .targeted run _ => some run.driver
  | .sending run _ => some run.driver
  | .completing run _ => some run.driver
  | .completed run => some run.driver
  | .creating run _ => some run.driver
  | .answered run _ _ => some run.driver
  | .recorded => some .intake
  | .deleted _ _ => some .reconciler
  | .stopping run _ => some run.driver

/-- The reconciler leaves a share to the sheet that handles it. -/
def Alone (device : Device) : Prop :=
  driverAt device.position = some .reconciler → device.sheet = none

/-- The law of a share between two events. -/
structure Sound (candidate : ShareCandidate) (key : String) (device : Device) : Prop where
  books : device.Books candidate key
  placed : device.Placed key

theorem Books.accepted_of_known (books : device.Books candidate key) {id : String}
    (known : device.record.serverId = some id) : device.record.state.isAccepted = true := by
  cases now : device.record.state.isAccepted with
  | true => rfl
  | false =>
      rw [books.unknown now] at known
      cases known

theorem Books.goto (books : device.Books candidate key) (position : Position) :
    (device.goto position).Books candidate key :=
  ⟨books.same, books.row, books.sheets, books.creates, books.requested, books.single,
    books.known, books.unknown, books.staged⟩

theorem Books.request (books : device.Books candidate key) {request : Request}
    (other : ∀ used source, request ≠ .create used source) (position : Position) :
    (device.request request position).Books candidate key := by
  refine ⟨books.same, books.row, books.sheets, ?_, ?_, books.single, books.known,
    books.unknown, books.staged⟩
  · intro used source sent
    rcases List.mem_append.mp sent with before | now
    · exact books.creates used source before
    · exact absurd (List.mem_singleton.mp now).symm (other used source)
  · intro created member
    exact List.mem_append_left _ (books.requested created member)

theorem Books.create (books : device.Books candidate key) {source : InvestigationSource}
    (stands : SourceOf candidate device.record source) (position : Position) :
    (device.request (.create key source) position).Books candidate key := by
  refine ⟨books.same, books.row, books.sheets, ?_, ?_, books.single, books.known,
    books.unknown, books.staged⟩
  · intro used other sent
    rcases List.mem_append.mp sent with before | now
    · exact books.creates used other before
    · cases List.mem_singleton.mp now
      exact ⟨rfl, stands⟩
  · intro created member
    exact List.mem_append_left _ (books.requested created member)

theorem Books.rewrite (books : device.Books candidate key) {record : ShareRecord}
    (keeps : device.record.Keeps record)
    (upload : ∀ id, device.record.uploadId = some id → record.uploadId = some id) :
    ({ device with record := record } : Device).Books candidate key := by
  refine ⟨books.same, keeps.idempotencyKey.trans books.row, books.sheets, ?_, books.requested,
    books.single, ?_, ?_, ?_⟩
  · intro used source sent
    obtain ⟨same, stands⟩ := books.creates used source sent
    refine ⟨same, ?_⟩
    cases candidate with
    | link url => exact stands
    | video =>
        obtain ⟨id, known, uses⟩ := stands
        exact ⟨id, upload id known, uses⟩
  · intro id known
    exact books.known id (keeps.serverId.symm.trans known)
  · intro unaccepted
    exact keeps.serverId.trans (books.unknown (keeps.unaccepted unaccepted))
  · intro video nothing
    show record.stagedPath.isSome = true
    rw [keeps.stagedPath]
    exact books.staged video (keeps.serverId.symm.trans nothing)

theorem Books.accepted (books : device.Books candidate key) {id : String}
    (status : ProcessingStatus) (known : ∃ created ∈ device.created, created.id = id) :
    ({ device with record := device.record.accepted id status } : Device).Books candidate key := by
  refine ⟨books.same, (ShareRecord.accepted_idempotencyKey _ _ _).trans books.row, books.sheets,
    ?_, books.requested, books.single, ?_, ?_, ?_⟩
  · intro used source sent
    obtain ⟨same, stands⟩ := books.creates used source sent
    refine ⟨same, ?_⟩
    cases candidate with
    | link url => exact stands
    | video =>
        obtain ⟨upload, has, uses⟩ := stands
        exact ⟨upload, (ShareRecord.accepted_uploadId _ _ _).trans has, uses⟩
  · intro other has
    obtain rfl := Option.some.inj ((ShareRecord.accepted_serverId _ _ _).symm.trans has)
    exact known
  · intro unaccepted
    have accepted : (device.record.accepted id status).state.isAccepted = false := unaccepted
    rw [ShareRecord.accepted_isAccepted] at accepted
    cases accepted
  · intro _ nothing
    have none_ : (device.record.accepted id status).serverId = none := nothing
    rw [ShareRecord.accepted_serverId] at none_
    cases none_

theorem Books.left (books : device.Books candidate key) {next : Device}
    (same : next.candidate = device.candidate) (row : next.record = device.record)
    (sheet : next.sheet = none) (requests : next.requests = device.requests)
    (created : next.created = device.created) : next.Books candidate key := by
  obtain ⟨isSame, isRow, _, creates, requested, single, known, unknown, staged⟩ := books
  refine ⟨same.trans isSame, row ▸ isRow, ?_, ?_, ?_, ?_, ?_, ?_, ?_⟩
  · intro found open_
    rw [sheet] at open_
    cases open_
  · rw [requests, row]
    exact creates
  · rw [requests, created]
    exact requested
  · rw [created]
    exact single
  · rw [row, created]
    exact known
  · rw [row]
    exact unknown
  · rw [row]
    exact staged

theorem shared_sound (candidate : ShareCandidate) (key path : String) :
    (shared candidate key path).Sound candidate key := by
  refine ⟨⟨rfl, rfl, ?_, nofun, nofun, Nat.zero_le _, nofun, fun _ => rfl, ?_⟩, ?_⟩
  · rintro sheet same
    cases same
    rfl
  · rintro rfl _
    rfl
  · rintro sheet same
    cases same
    rfl

theorem startUpload_sound (books : device.Books candidate key) {run : Run}
    (own : run.key = key) (agrees : device.record.attempt = run.attempt) :
    (device.startUpload run).Sound candidate key := by
  unfold startUpload
  split
  · exact ⟨books.goto _, own, agrees⟩
  · refine ⟨?_, own, (ShareRecord.apply_attempt _).trans agrees⟩
    refine Books.goto (books.rewrite (ShareRecord.apply_keeps .uploadStarted ⟨rfl, rfl, rfl⟩) ?_) _
    intro id known
    exact (congrArg UploadAttempt.uploadId
      (@ShareRecord.apply_attempt device.record .uploadStarted)).trans known

theorem proceed_sound (sound : device.Sound candidate key) :
    device.proceed.Sound candidate key := by
  have placed := sound.placed
  unfold proceed
  split
  · rename_i sheet idle open_
    unfold Placed at placed
    rw [idle] at placed
    exact startUpload_sound sound.books (sound.books.sheets sheet open_) (placed sheet open_)
  · exact sound

theorem retry_sound (sound : device.Sound candidate key) : device.retry.Sound candidate key := by
  have books := sound.books
  unfold retry
  split
  · split
    · exact sound
    · dsimp only
      split
      · refine ⟨?_, books.row, ShareRecord.apply_attempt _⟩
        refine Books.goto
          (books.rewrite (ShareRecord.apply_keeps .uploadInterrupted ⟨rfl, rfl, rfl⟩) ?_) _
        intro id known
        exact (congrArg UploadAttempt.uploadId
          (@ShareRecord.apply_attempt device.record .uploadInterrupted)).trans known
      · exact ⟨books.goto _, books.row, rfl⟩
  · exact sound

theorem upload_sound (books : device.Books candidate key) {run : Run} (own : run.key = key)
    (agrees : device.record.attempt = run.attempt) :
    (device.upload run).Sound candidate key := by
  have same := books.same
  unfold upload
  rw [own]
  split
  · rename_i url is_
    rw [is_] at same
    subst same
    exact ⟨books.create rfl _, own, agrees, List.mem_append_right _ (List.mem_singleton_self _)⟩
  · rename_i id is_ done
    rw [is_] at same
    subst same
    have stands : SourceOf .video device.record (.upload id) :=
      ⟨id, (congrArg UploadAttempt.uploadId agrees).trans done, rfl⟩
    exact ⟨books.create stands _, own, agrees,
      List.mem_append_right _ (List.mem_singleton_self _)⟩
  · rename_i id is_ undone declared
    refine ⟨books.request (by simp) _, own, agrees, ?_⟩
    cases attempt : run.attempt
    simp_all
  · rename_i is_ undone undeclared
    have nothing : run.attempt = {} := by
      cases attempt : run.attempt
      simp_all
    exact ⟨books.request (by simp) _, own, agrees.trans nothing, nothing⟩

theorem persist_sound (books : device.Books candidate key) {run : Run}
    (fresh : device.record.uploadId = none) {position : Position}
    (goes : Placed key (device.persist run position)) :
    (device.persist run position).Sound candidate key := by
  refine ⟨Books.goto (books.rewrite (ShareRecord.withAttempt_keeps run.attempt) ?_) position, goes⟩
  intro id known
  rw [fresh] at known
  cases known

theorem startUpload_position (run : Run) :
    (device.startUpload run).position = .uploading run := by
  unfold startUpload
  split <;> rfl

theorem startUpload_sheet (run : Run) : (device.startUpload run).sheet = device.sheet := by
  unfold startUpload
  split <;> rfl

theorem upload_driver (run : Run) : driverAt (device.upload run).position = some run.driver := by
  unfold upload
  split <;> rfl

theorem upload_sheet (run : Run) : (device.upload run).sheet = device.sheet := by
  unfold upload
  split <;> rfl

theorem next_alone (alone : device.Alone) : device.next.Alone := by
  unfold Alone at alone
  unfold next
  split
  · rename_i run at_
    rw [at_] at alone
    split
    · exact alone
    · intro driver
      rw [startUpload_position] at driver
      exact (startUpload_sheet run).trans (alone driver)
  · rename_i run at_
    rw [at_] at alone
    intro driver
    rw [upload_driver] at driver
    exact (upload_sheet run).trans (alone driver)
  · rename_i run at_
    rw [at_] at alone
    exact alone
  · rename_i run id at_
    rw [at_] at alone
    exact alone
  · rename_i run id at_
    rw [at_] at alone
    exact alone
  · rename_i run at_
    rw [at_] at alone
    exact alone
  · rename_i run id status at_
    rw [at_] at alone
    split
    · exact nofun
    · rename_i driver
      exact fun _ => alone (congrArg some driver)
  · exact nofun
  · exact nofun
  · exact nofun
  · exact alone

theorem next_sound (sound : device.Sound candidate key) (alone : device.Alone) :
    device.next.Sound candidate key := by
  have books := sound.books
  have placed := sound.placed
  unfold Placed at placed
  unfold next
  split
  · rename_i run at_
    rw [at_] at placed
    split
    · exact ⟨books.goto _, placed⟩
    · exact startUpload_sound books placed.1 placed.2
  · rename_i run at_
    rw [at_] at placed
    exact upload_sound books placed.1 placed.2
  · rename_i run at_
    rw [at_] at placed
    obtain ⟨own, nothing, id, had, _⟩ := placed
    exact persist_sound books (congrArg UploadAttempt.uploadId had) ⟨own, rfl⟩
  · rename_i run id at_
    rw [at_] at placed
    obtain ⟨own, nothing, has⟩ := placed
    exact persist_sound books (congrArg UploadAttempt.uploadId nothing) ⟨own, rfl, has⟩
  · rename_i run id at_
    rw [at_] at placed
    exact ⟨books.request (by simp) _, placed⟩
  · rename_i run at_
    rw [at_] at placed
    obtain ⟨own, id, had, has⟩ := placed
    exact persist_sound books (congrArg UploadAttempt.uploadId had) ⟨own, rfl⟩
  · rename_i run id status at_
    rw [at_] at placed
    have made : device.created ≠ [] := by
      obtain ⟨created, member, _⟩ := placed
      exact List.ne_nil_of_mem member
    split
    · exact ⟨Books.goto (books.accepted status placed) _, made⟩
    · refine ⟨⟨books.same, books.row, books.sheets, books.creates, books.requested, books.single,
        books.known, books.unknown, books.staged⟩, placed⟩
  · rename_i at_
    rw [at_] at placed
    exact ⟨⟨books.same, books.row, nofun, books.creates, books.requested, books.single,
      books.known, books.unknown, books.staged⟩, nofun⟩
  · rename_i id status at_
    rw [at_] at placed
    have unattended : device.sheet = none := alone (by rw [at_]; rfl)
    refine ⟨Books.goto (books.accepted status placed) _, ?_⟩
    intro sheet open_
    have some_ : device.sheet = some sheet := open_
    rw [unattended] at some_
    cases some_
  · rename_i run retryable at_
    rw [at_] at placed
    obtain ⟨own, agrees⟩ := placed
    have stopped := books.rewrite (ShareRecord.recordStop_keeps run.attempt retryable) (by
      intro id known
      exact (congrArg UploadAttempt.uploadId
        ((ShareRecord.recordStop_attempt agrees retryable).trans agrees.symm)).trans known)
    refine ⟨⟨stopped.same, stopped.row, ?_, stopped.creates, stopped.requested, stopped.single,
      stopped.known, stopped.unknown, stopped.staged⟩, ?_⟩
    · intro sheet
      dsimp only
      split
      · rintro same
        cases same
        exact own
      · exact nofun
    · intro sheet
      dsimp only
      split
      · rintro same
        cases same
        exact ShareRecord.recordStop_attempt agrees retryable
      · exact nofun
  · exact sound

theorem createInvestigation_cases (device : Device) (key : String)
    (source : InvestigationSource) (id : String) :
    (∃ created ∈ device.created, created.key = key ∧
      device.createInvestigation key source id =
        (if created.source = source then some created.id else none, device)) ∨
    ((∀ created ∈ device.created, created.key ≠ key) ∧
      device.createInvestigation key source id =
        (some id, { device with created := device.created ++ [⟨key, source, id⟩] })) := by
  unfold createInvestigation
  split
  · rename_i created found
    have same : created.key = key := by
      simpa using List.find?_some found
    exact Or.inl ⟨created, List.mem_of_find?_eq_some found, same, rfl⟩
  · rename_i unfound
    refine Or.inr ⟨?_, rfl⟩
    intro created member same
    exact List.find?_eq_none.mp unfound created member (beq_iff_eq.mpr same)

theorem createInvestigation_sound (books : device.Books candidate key)
    {source : InvestigationSource} (asked : .create key source ∈ device.requests) (id : String) :
    (device.createInvestigation key source id).2.Books candidate key ∧
      (device.createInvestigation key source id).2.record = device.record ∧
      (device.createInvestigation key source id).2.requests = device.requests ∧
      ∀ known, (device.createInvestigation key source id).1 = some known →
        ∃ created ∈ (device.createInvestigation key source id).2.created, created.id = known := by
  rcases createInvestigation_cases device key source id with
    ⟨created, member, same, answer⟩ | ⟨fresh, answer⟩
  · rw [answer]
    refine ⟨books, rfl, rfl, ?_⟩
    intro known replayed
    dsimp only at replayed
    split at replayed
    · exact ⟨created, member, Option.some.inj replayed⟩
    · cases replayed
  · rw [answer]
    have first : device.created = [] := by
      cases existing : device.created with
      | nil => rfl
      | cons created rest =>
          have member : created ∈ device.created := by simp [existing]
          exact absurd (books.creates _ _ (books.requested created member)).1
            (fresh created member)
    refine ⟨⟨books.same, books.row, books.sheets, books.creates, ?_, ?_, ?_, books.unknown,
      books.staged⟩, rfl, rfl, ?_⟩
    · intro created member
      rcases List.mem_append.mp member with before | now
      · exact books.requested created before
      · obtain rfl := List.mem_singleton.mp now
        exact asked
    · simp [first]
    · intro known has
      obtain ⟨created, member, same⟩ := books.known known has
      exact ⟨created, List.mem_append_left _ member, same⟩
    · intro known now
      exact ⟨_, List.mem_append_right _ (List.mem_singleton_self _), Option.some.inj now⟩

theorem answer_sound (sound : device.Sound candidate key) (answer : Answer) :
    (device.answer answer).Sound candidate key := by
  have books := sound.books
  have placed := sound.placed
  unfold Placed at placed
  unfold Device.answer
  split
  · rename_i run id at_
    rw [at_] at placed
    obtain ⟨own, agrees, has⟩ := placed
    refine ⟨books.goto _, own, id, agrees.trans has, ?_⟩
    rw [has]
  · rename_i run id at_
    rw [at_] at placed
    exact ⟨books.goto _, placed.1, placed.2.1⟩
  · rename_i run id at_
    rw [at_] at placed
    exact ⟨books.request (by simp) _, placed⟩
  · rename_i run id at_
    rw [at_] at placed
    obtain ⟨own, agrees, has⟩ := placed
    refine ⟨⟨books.same, books.row, books.sheets, books.creates, books.requested, books.single,
      books.known, books.unknown, books.staged⟩, own, ?_, id, agrees.trans has,
      List.mem_append_right _ (List.mem_singleton_self _)⟩
    rw [has]
  · rename_i run id retryable at_
    rw [at_] at placed
    exact ⟨books.goto _, placed.1, placed.2.1⟩
  · rename_i run id at_
    rw [at_] at placed
    obtain ⟨own, agrees, has⟩ := placed
    refine ⟨books.goto _, own, agrees, ?_⟩
    rw [has]
  · rename_i run retryable at_
    rw [at_] at placed
    exact ⟨books.goto _, placed.1, placed.2.1.trans placed.2.2.symm⟩
  · rename_i run id at_
    rw [at_] at placed
    exact ⟨books.request (by simp) _, placed⟩
  · rename_i run id retryable at_
    rw [at_] at placed
    exact ⟨books.goto _, placed.1, placed.2.1⟩
  · rename_i run id at_
    rw [at_] at placed
    obtain ⟨own, agrees, has⟩ := placed
    refine ⟨books.goto _, own, id, agrees.trans has, ?_⟩
    rw [has]
  · rename_i run id at_
    rw [at_] at placed
    exact ⟨books.goto _, placed.1, placed.2.1⟩
  · rename_i run id retryable at_
    rw [at_] at placed
    exact ⟨books.goto _, placed.1, placed.2.1⟩
  · rename_i run source id status at_
    rw [at_] at placed
    obtain ⟨own, agrees, asked⟩ := placed
    have made := createInvestigation_sound books asked id
    rw [own]
    generalize device.createInvestigation key source id = outcome at made
    obtain ⟨known, after_⟩ := outcome
    obtain ⟨kept, row, _, replayed⟩ := made
    cases known with
    | none => exact ⟨kept.goto _, own, (congrArg ShareRecord.attempt row).trans agrees⟩
    | some known => exact ⟨kept.goto _, replayed known rfl⟩
  · rename_i run source id retryable at_
    rw [at_] at placed
    obtain ⟨own, agrees, asked⟩ := placed
    obtain ⟨kept, row, _, _⟩ := createInvestigation_sound books asked id
    rw [own]
    exact ⟨kept.goto _, own, (congrArg ShareRecord.attempt row).trans agrees⟩
  · rename_i run source retryable at_
    rw [at_] at placed
    exact ⟨books.goto _, placed.1, placed.2.1⟩
  · exact sound

theorem createInvestigation_sheet (device : Device) (key : String)
    (source : InvestigationSource) (id : String) :
    (device.createInvestigation key source id).2.sheet = device.sheet := by
  rcases createInvestigation_cases device key source id with ⟨_, _, _, answer⟩ | ⟨_, answer⟩
  · rw [answer]
  · rw [answer]

theorem answer_driver (device : Device) (answer : Answer) :
    driverAt (device.answer answer).position = driverAt device.position ∧
      (device.answer answer).sheet = device.sheet := by
  unfold Device.answer
  split
  case h_13 run source id status at_ =>
    have kept := createInvestigation_sheet device run.key source id
    generalize device.createInvestigation run.key source id = outcome at kept
    obtain ⟨known, after_⟩ := outcome
    rw [at_]
    cases known with
    | none => exact ⟨rfl, kept⟩
    | some known => exact ⟨rfl, kept⟩
  case h_14 run source id retryable at_ =>
    rw [at_]
    exact ⟨rfl, createInvestigation_sheet device run.key source id⟩
  all_goals
    rename_i at_
    first
    | exact ⟨rfl, rfl⟩
    | rw [at_]
      exact ⟨rfl, rfl⟩

theorem answer_alone (alone : device.Alone) (answer : Answer) : (device.answer answer).Alone := by
  obtain ⟨driver, sheet⟩ := answer_driver device answer
  intro reconciles
  exact sheet.trans (alone (driver.symm.trans reconciles))

theorem step_alone (alone : device.Alone) (event : Event) : (device.step event).Alone := by
  cases event with
  | proceed =>
      show device.proceed.Alone
      unfold proceed
      split
      · intro driver
        rw [startUpload_position] at driver
        cases driver
      · exact alone
  | retry =>
      show device.retry.Alone
      unfold retry
      split
      · rename_i closed
        split
        · exact alone
        · exact fun _ => closed
      · exact alone
  | next => exact next_alone alone
  | answer answer => exact answer_alone alone answer
  | dismissed =>
      show device.reset.Alone
      unfold reset
      split
      · exact alone
      · exact fun _ => rfl
  | abandon =>
      show device.abandon.Alone
      unfold abandon
      split <;> exact alone
  | died => exact fun _ => rfl

theorem step_sound (sound : device.Sound candidate key) (alone : device.Alone) (event : Event) :
    (device.step event).Sound candidate key := by
  cases event with
  | proceed => exact proceed_sound sound
  | retry => exact retry_sound sound
  | next => exact next_sound sound alone
  | answer answer => exact answer_sound sound answer
  | dismissed =>
      show device.reset.Sound candidate key
      unfold reset
      split
      · exact sound
      · exact ⟨sound.books.left rfl rfl rfl rfl rfl, nofun⟩
  | abandon =>
      show device.abandon.Sound candidate key
      unfold abandon
      split
      · exact ⟨⟨sound.books.same, sound.books.row, sound.books.sheets, sound.books.creates,
          sound.books.requested, sound.books.single, sound.books.known, sound.books.unknown,
          sound.books.staged⟩, sound.placed⟩
      · exact sound
  | died => exact ⟨sound.books.left rfl rfl rfl rfl rfl, nofun⟩

def after (candidate : ShareCandidate) (key path : String) (events : List Event) : Device :=
  exec step (shared candidate key path) events

theorem after_lawful (candidate : ShareCandidate) (key path : String) (events : List Event) :
    (after candidate key path events).Sound candidate key ∧
      (after candidate key path events).Alone :=
  @exec_invariant _ _ step (fun device => device.Sound candidate key ∧ device.Alone)
    (fun _ event kept => ⟨step_sound kept.1 kept.2 event, step_alone kept.2 event⟩)
    (shared candidate key path) ⟨shared_sound candidate key path, nofun⟩ events

theorem after_sound (candidate : ShareCandidate) (key path : String) (events : List Event) :
    (after candidate key path events).Sound candidate key :=
  (after_lawful candidate key path events).1

theorem startUpload_requests (run : Run) :
    (device.startUpload run).requests = device.requests := by
  unfold startUpload
  split <;> rfl

theorem startUpload_attempt (run : Run) :
    (device.startUpload run).record.attempt = device.record.attempt := by
  unfold startUpload
  split
  · rfl
  · exact ShareRecord.apply_attempt _

theorem createInvestigation_kept (device : Device) (key : String) (source : InvestigationSource)
    (id : String) :
    (device.createInvestigation key source id).2.requests = device.requests ∧
      (device.createInvestigation key source id).2.record = device.record ∧
      (device.createInvestigation key source id).2.candidate = device.candidate ∧
      (device.createInvestigation key source id).2.file = device.file ∧
      (device.createInvestigation key source id).2.dismissal = device.dismissal := by
  rcases createInvestigation_cases device key source id with ⟨_, _, _, answer⟩ | ⟨_, answer⟩
  · rw [answer]
    exact ⟨rfl, rfl, rfl, rfl, rfl⟩
  · rw [answer]
    exact ⟨rfl, rfl, rfl, rfl, rfl⟩

theorem answer_record (device : Device) (answer : Answer) :
    (device.answer answer).record = device.record := by
  unfold Device.answer
  split
  case h_13 run source id status at_ =>
    have kept := (createInvestigation_kept device run.key source id).2.1
    generalize device.createInvestigation run.key source id = outcome at kept
    obtain ⟨known, after_⟩ := outcome
    cases known with
    | none => exact kept
    | some known => exact kept
  case h_14 run source id retryable at_ =>
    exact (createInvestigation_kept device run.key source id).2.1
  all_goals rfl

theorem answer_requests (device : Device) (answer : Answer) :
    (device.answer answer).requests = device.requests ∨
      ∃ request, (device.answer answer).requests = device.requests ++ [request] ∧
        request ≠ .declare := by
  unfold Device.answer
  split
  case h_13 run source id status at_ =>
    have kept := (createInvestigation_kept device run.key source id).1
    generalize device.createInvestigation run.key source id = outcome at kept
    obtain ⟨known, after_⟩ := outcome
    cases known with
    | none => exact Or.inl kept
    | some known => exact Or.inl kept
  case h_14 run source id retryable at_ =>
    exact Or.inl (createInvestigation_kept device run.key source id).1
  case h_3 run id at_ => exact Or.inr ⟨_, rfl, by simp⟩
  case h_8 run id at_ => exact Or.inr ⟨_, rfl, by simp⟩
  all_goals exact Or.inl rfl

theorem next_requests (device : Device) :
    device.next.requests = device.requests ∨
      ∃ request, device.next.requests = device.requests ++ [request] ∧
        (request = .declare → ∃ run, device.position = .uploading run ∧ run.attempt = {}) := by
  unfold next
  split
  · split
    · exact Or.inl rfl
    · exact Or.inl (startUpload_requests _)
  · rename_i run at_
    unfold upload
    split
    · exact Or.inr ⟨_, rfl, nofun⟩
    · exact Or.inr ⟨_, rfl, nofun⟩
    · exact Or.inr ⟨_, rfl, nofun⟩
    · rename_i undone undeclared
      refine Or.inr ⟨_, rfl, fun _ => ⟨run, at_, ?_⟩⟩
      cases attempt : run.attempt
      simp_all
  · exact Or.inl rfl
  · exact Or.inl rfl
  · exact Or.inr ⟨_, rfl, nofun⟩
  · exact Or.inl rfl
  · split
    · exact Or.inl rfl
    · exact Or.inl rfl
  · exact Or.inl rfl
  · exact Or.inl rfl
  · exact Or.inl rfl
  · exact Or.inl rfl

theorem step_requests (device : Device) (event : Event) :
    (device.step event).requests = device.requests ∨
      ∃ request, (device.step event).requests = device.requests ++ [request] ∧
        (request = .declare → ∃ run, device.position = .uploading run ∧ run.attempt = {}) := by
  cases event with
  | proceed =>
      refine Or.inl ?_
      show device.proceed.requests = device.requests
      unfold proceed
      split
      · exact startUpload_requests _
      · rfl
  | retry =>
      refine Or.inl ?_
      show device.retry.requests = device.requests
      unfold retry
      split
      · split <;> rfl
      · rfl
  | next => exact next_requests device
  | answer answer =>
      rcases answer_requests device answer with same | ⟨request, more, other⟩
      · exact Or.inl same
      · exact Or.inr ⟨request, more, fun declares => absurd declares other⟩
  | dismissed =>
      refine Or.inl ?_
      show device.reset.requests = device.requests
      unfold reset
      split <;> rfl
  | abandon =>
      refine Or.inl ?_
      show device.abandon.requests = device.requests
      unfold abandon
      split <;> rfl
  | died => exact Or.inl rfl

inductive Stores (device next : Device) : Prop
  | kept (same : next.record.attempt = device.record.attempt)
  | declared (id : String) (before : device.record.attempt = {})
      (now : next.record.attempt = ⟨some id, none⟩)
  | completed (id : String) (before : device.record.attempt = ⟨some id, none⟩)
      (now : next.record.attempt = ⟨some id, some id⟩)
  | dropped (id : String) (before : device.record.attempt = ⟨some id, none⟩)
      (gone : id ∈ device.gone) (now : next.record.attempt = {})
  | accepted (known : next.record.serverId.isSome = true)
      (same : next.record.uploadId = device.record.uploadId)

theorem accepted_stores {device next : Device} {id : String} {status : ProcessingStatus}
    (goes : next.record = device.record.accepted id status) : Stores device next := by
  refine .accepted ?_ ?_
  · rw [goes, ShareRecord.accepted_serverId]
    rfl
  · rw [goes]
    exact ShareRecord.accepted_uploadId _ _ _

theorem next_stores (sound : device.Sound candidate key) : Stores device device.next := by
  have placed := sound.placed
  unfold Placed at placed
  unfold next
  split
  · split
    · exact .kept rfl
    · exact .kept (startUpload_attempt _)
  · rename_i run at_
    unfold upload
    split <;> exact .kept rfl
  · rename_i run at_
    rw [at_] at placed
    obtain ⟨_, nothing, id, had, given⟩ := placed
    exact .dropped id had given nothing
  · rename_i run id at_
    rw [at_] at placed
    exact .declared id placed.2.1 placed.2.2
  · exact .kept rfl
  · rename_i run at_
    rw [at_] at placed
    obtain ⟨_, id, had, has⟩ := placed
    exact .completed id had has
  · split
    · exact accepted_stores rfl
    · exact .kept rfl
  · exact .kept rfl
  · exact accepted_stores rfl
  · rename_i run retryable at_
    rw [at_] at placed
    exact .kept ((ShareRecord.recordStop_attempt placed.2 retryable).trans placed.2.symm)
  · exact .kept rfl

theorem step_stores (sound : device.Sound candidate key) (event : Event) :
    Stores device (device.step event) := by
  cases event with
  | proceed =>
      show Stores device device.proceed
      unfold proceed
      split
      · exact .kept (startUpload_attempt _)
      · exact .kept rfl
  | retry =>
      show Stores device device.retry
      unfold retry
      split
      · split
        · exact .kept rfl
        · dsimp only
          split
          · exact .kept (ShareRecord.apply_attempt _)
          · exact .kept rfl
      · exact .kept rfl
  | next => exact next_stores sound
  | answer answer => exact .kept (congrArg ShareRecord.attempt (answer_record device answer))
  | dismissed =>
      show Stores device device.reset
      unfold reset
      split <;> exact .kept rfl
  | abandon =>
      show Stores device device.abandon
      unfold abandon
      split <;> exact .kept rfl
  | died => exact .kept rfl

/-- The stored upload is given up only where the server said that it is gone. -/
theorem step_declared (sound : device.Sound candidate key) (event : Event) {id : String}
    (stored : device.record.declaredUpload = some id) :
    (device.step event).record.declaredUpload = some id ∨ id ∈ device.gone ∨
      (device.step event).record.serverId.isSome = true := by
  have had {attempt : UploadAttempt} (same : device.record.attempt = attempt) :
      attempt.declared = some id := same ▸ stored
  cases step_stores sound event with
  | kept same => exact Or.inl ((congrArg UploadAttempt.declared same).trans stored)
  | declared other before now => cases had before
  | completed other before now =>
      obtain rfl := Option.some.inj (had before)
      exact Or.inl (congrArg UploadAttempt.declared now)
  | dropped other before gone now =>
      obtain rfl := Option.some.inj (had before)
      exact Or.inr (Or.inl gone)
  | accepted known same => exact Or.inr (Or.inr known)

theorem step_uploadId (sound : device.Sound candidate key) (event : Event) {id : String}
    (stored : device.record.uploadId = some id) :
    (device.step event).record.uploadId = some id := by
  have had {attempt : UploadAttempt} (same : device.record.attempt = attempt) :
      attempt.uploadId = some id := same ▸ stored
  cases step_stores sound event with
  | kept same => exact (congrArg UploadAttempt.uploadId same).trans stored
  | declared other before now => cases had before
  | completed other before now => cases had before
  | dropped other before gone now => cases had before
  | accepted known same => exact same.trans stored

/-- What a retry does where the server answers every call: it is given up for want of the copy, or
it goes through. -/
def recovery (id : String) (status : ProcessingStatus) : List Event :=
  [.died, .retry, .next, .next, .answer (.created id status), .next, .next]

def resumed (device : Device) : Device := (device.step .died).retry

theorem resumed_eq (unaccepted : device.record.state.isAccepted = false)
    (row : device.dismissal ≠ .abandoned) :
    ∃ record, device.record.Keeps record ∧ record.attempt = device.record.attempt ∧
      record.state = .localPending ∧
      device.resumed = { device.die with
        record := record
        position := .retrying
          ⟨.reconciler, device.record.idempotencyKey, device.record.attempt⟩ } := by
  have pending : device.record.state = .localPending ∨ device.record.state = .uploading := by
    cases state : device.record.state <;> simp_all [LocalJobState.isAccepted]
  have free : device.die.dismissal.holds = false := by
    unfold die
    cases dismissal : device.dismissal with
    | never => rfl
    | abandoning => rfl
    | abandoned => exact absurd dismissal row
    | kept => rfl
  have goes : device.resumed = { device.die with
      record := if device.record.state = .uploading then
          device.record.apply .uploadInterrupted id
        else device.record
      position := .retrying
        ⟨.reconciler, device.record.idempotencyKey, device.record.attempt⟩ } := by
    show (if device.record.state.isAccepted || device.die.dismissal.holds then _ else _) = _
    rw [unaccepted, free]
    rfl
  rw [goes]
  split
  · rename_i uploading
    refine ⟨_, ShareRecord.apply_keeps .uploadInterrupted ⟨rfl, rfl, rfl⟩,
      ShareRecord.apply_attempt _, ?_, rfl⟩
    unfold ShareRecord.apply
    rw [uploading]
    rfl
  · rename_i waiting
    exact ⟨_, .refl _, rfl, pending.resolve_right waiting, rfl⟩

/-- A video whose copy is gone cannot be retried. -/
theorem recovery_lost (books : device.Books .video key)
    (unaccepted : device.record.state.isAccepted = false) (row : device.dismissal ≠ .abandoned)
    (lost : device.file = false) (id : String) (status : ProcessingStatus) :
    (exec step device (recovery id status)).record.serverId = none := by
  obtain ⟨record, keeps, _, _, goes⟩ := resumed_eq unaccepted row
  have stopped : device.resumed.next = device.resumed.stopping
      ⟨.reconciler, device.record.idempotencyKey, device.record.attempt⟩ false := by
    rw [goes]
    unfold next stagedFile
    dsimp only
    rw [if_pos ⟨books.same, by rw [show device.die.file = false from lost, Bool.and_false]⟩]
  show ((((device.resumed.next).next).answer _).next).next.record.serverId = none
  rw [stopped, goes]
  exact (ShareRecord.recordStop_keeps _ false).serverId.trans
    (keeps.serverId.trans (books.unknown unaccepted))

theorem upload_creates (same : device.candidate = candidate) {run : Run}
    {source : InvestigationSource} (stands : SourceOf candidate device.record source)
    (agrees : run.attempt = device.record.attempt) :
    device.upload run = device.request (.create run.key source) (.creating run source) := by
  unfold upload
  cases candidate with
  | link url =>
      obtain rfl : source = .url url := stands
      rw [same]
  | video =>
      obtain ⟨id, has, rfl⟩ := stands
      have done : run.attempt.uploadId = some id :=
        (congrArg UploadAttempt.uploadId agrees).trans has
      rw [same, done]

/-- The server replays its one investigation of the share. -/
theorem answer_created {run : Run} {created : Created} (id : String) (status : ProcessingStatus)
    (calls : device.position = .creating run created.source)
    (only : device.created = [created]) (own : run.key = created.key) :
    device.answer (.created id status) = device.goto (.answered run created.id status) := by
  have replays : device.createInvestigation run.key created.source id =
      (some created.id, device) := by
    unfold createInvestigation
    rw [only, own, List.find?_cons_of_pos (by simp)]
    dsimp only
    rw [if_pos rfl]
  unfold Device.answer
  simp only [calls, replays]

theorem sourceOf_attempt {record next : ShareRecord} {source : InvestigationSource}
    (same : next.attempt = record.attempt) (stands : SourceOf candidate record source) :
    SourceOf candidate next source := by
  cases candidate with
  | link url => exact stands
  | video =>
      obtain ⟨id, has, uses⟩ := stands
      exact ⟨id, (congrArg UploadAttempt.uploadId same).trans has, uses⟩

theorem sourceOf_unique {record : ShareRecord} {source other : InvestigationSource}
    (first : SourceOf candidate record source) (second : SourceOf candidate record other) :
    source = other := by
  cases candidate with
  | link url => exact Eq.trans first (Eq.symm second)
  | video =>
      obtain ⟨id, has, rfl⟩ := first
      obtain ⟨other, also, rfl⟩ := second
      rw [Option.some.inj (has.symm.trans also)]

theorem startUpload_candidate (run : Run) :
    (device.startUpload run).candidate = device.candidate := by
  unfold startUpload
  split <;> rfl

theorem startUpload_created (run : Run) :
    (device.startUpload run).created = device.created := by
  unfold startUpload
  split <;> rfl

theorem recovery_succeeds (books : device.Books candidate key) (made : device.created ≠ [])
    (unaccepted : device.record.state.isAccepted = false) (row : device.dismissal ≠ .abandoned)
    (copy : candidate = .video → device.file = true) (id : String) (status : ProcessingStatus) :
    ∃ created ∈ device.created,
      (exec step device (recovery id status)).record.serverId = some created.id := by
  obtain ⟨created, only⟩ : ∃ created, device.created = [created] := by
    have single := books.single
    cases all : device.created with
    | nil => exact absurd all made
    | cons created rest =>
        rw [all, List.length_cons] at single
        have none_ : rest = [] := List.length_eq_zero_iff.mp (by omega)
        exact ⟨created, by rw [none_]⟩
  have member : created ∈ device.created := by simp [only]
  obtain ⟨own, stands⟩ := books.creates _ _ (books.requested created member)
  obtain ⟨record, keeps, attempt, _, goes⟩ := resumed_eq unaccepted row
  refine ⟨created, member, ?_⟩
  generalize begun : (⟨.reconciler, device.record.idempotencyKey, device.record.attempt⟩ : Run) =
    run at goes
  have uploading : device.resumed.next = device.resumed.startUpload run := by
    rw [goes]
    unfold next stagedFile
    dsimp only
    rw [if_neg]
    rintro ⟨video, gone⟩
    have isVideo : candidate = .video := books.same.symm.trans video
    rw [show device.die.file = true from copy isVideo, Bool.and_true, keeps.stagedPath,
      books.staged isVideo (books.unknown unaccepted)] at gone
    cases gone
  have creating : (device.resumed.startUpload run).next =
      (device.resumed.startUpload run).request (.create run.key created.source)
        (.creating run created.source) := by
    have next_ : (device.resumed.startUpload run).next =
        (device.resumed.startUpload run).upload run := by
      unfold next
      rw [startUpload_position]
    have stored : (device.resumed.startUpload run).record.attempt = device.record.attempt := by
      rw [startUpload_attempt, goes]
      exact attempt
    rw [next_]
    refine upload_creates ?_ (sourceOf_attempt stored stands) ?_
    · rw [startUpload_candidate, goes]
      exact books.same
    · rw [stored, ← begun]
  have answered : ((device.resumed.startUpload run).request (.create run.key created.source)
        (.creating run created.source)).answer (.created id status) =
      ((device.resumed.startUpload run).request (.create run.key created.source)
        (.creating run created.source)).goto (.answered run created.id status) := by
    refine answer_created _ _ rfl ?_ ?_
    · show (device.resumed.startUpload run).created = [created]
      rw [startUpload_created, goes]
      exact only
    · rw [own, ← begun]
      exact books.row
  show ((((device.resumed.next).next).answer (.created id status)).next).next.record.serverId = _
  rw [uploading, creating, answered, ← begun]
  exact ShareRecord.accepted_serverId _ _ _

/-- The process dies between the deletion of the copy and the write that follows it: the
acceptance by the reconciler, or the deletion of a dismissed row. -/
def DiesAfterDeleting (device : Device) (event : Event) : Prop :=
  event = .died ∧
    ((∃ id status, device.position = .deleted id status) ∨ device.dismissal = .abandoning)

/-- A video that is not accepted has its copy, but for the moment before it is accepted, or it was
dismissed. -/
structure Copied (device : Device) : Prop where
  copy : device.candidate = .video → device.record.state.isAccepted = false →
    device.file = true ∨ (∃ id status, device.position = .deleted id status) ∨
      device.dismissal.holds = true
  recorded : device.position = .recorded → device.record.state.isAccepted = true
  kept : device.dismissal = .kept → device.record.state.isAccepted = true

theorem Copied.keeps (copied : device.Copied) {next : Device}
    (undeleted : ∀ id status, device.position ≠ .deleted id status)
    (same : next.candidate = device.candidate) (file : next.file = device.file)
    (dismissal : next.dismissal = device.dismissal)
    (keeps : device.record.Keeps next.record) (elsewhere : next.position ≠ .recorded) :
    next.Copied := by
  refine ⟨?_, fun at_ => absurd at_ elsewhere, ?_⟩
  · intro video unaccepted
    rcases copied.copy (same.symm.trans video) (keeps.unaccepted unaccepted) with
      copy | ⟨id, status, at_⟩ | held
    · exact Or.inl (file.trans copy)
    · exact absurd at_ (undeleted id status)
    · exact Or.inr (Or.inr (dismissal ▸ held))
  · intro left
    have done := copied.kept (dismissal.symm.trans left)
    cases now : next.record.state.isAccepted with
    | true => rfl
    | false =>
        rw [keeps.unaccepted now] at done
        cases done

theorem startUpload_copied (copied : device.Copied)
    (undeleted : ∀ id status, device.position ≠ .deleted id status) (run : Run) :
    (device.startUpload run).Copied := by
  refine copied.keeps undeleted (startUpload_candidate run) ?_ ?_ ?_ ?_
  · unfold startUpload
    split <;> rfl
  · unfold startUpload
    split <;> rfl
  · unfold startUpload
    split
    · exact .refl _
    · exact ShareRecord.apply_keeps .uploadStarted ⟨rfl, rfl, rfl⟩
  · rw [startUpload_position]
    nofun

theorem upload_copied (copied : device.Copied)
    (undeleted : ∀ id status, device.position ≠ .deleted id status) (run : Run) :
    (device.upload run).Copied := by
  unfold upload
  split <;> exact copied.keeps undeleted rfl rfl rfl (.refl _) nofun

theorem next_copied (copied : device.Copied) : device.next.Copied := by
  unfold next
  split
  · rename_i run at_
    have undeleted : ∀ id status, device.position ≠ .deleted id status := by simp [at_]
    split
    · exact copied.keeps undeleted rfl rfl rfl (.refl _) nofun
    · exact startUpload_copied copied undeleted run
  · rename_i run at_
    exact upload_copied copied (by simp [at_]) run
  · rename_i run at_
    exact copied.keeps (by simp [at_]) rfl rfl rfl (ShareRecord.withAttempt_keeps _) nofun
  · rename_i run id at_
    exact copied.keeps (by simp [at_]) rfl rfl rfl (ShareRecord.withAttempt_keeps _) nofun
  · rename_i run id at_
    exact copied.keeps (by simp [at_]) rfl rfl rfl (.refl _) nofun
  · rename_i run at_
    exact copied.keeps (by simp [at_]) rfl rfl rfl (ShareRecord.withAttempt_keeps _) nofun
  · rename_i run id status at_
    split
    · have done := ShareRecord.accepted_isAccepted device.record id status
      exact ⟨fun _ unaccepted => absurd (done.symm.trans unaccepted) nofun, fun _ => done, fun _ => done⟩
    · exact ⟨fun _ _ => Or.inr (Or.inl ⟨id, status, rfl⟩), nofun, copied.kept⟩
  · rename_i at_
    have done := copied.recorded at_
    exact ⟨fun _ unaccepted => absurd (done.symm.trans unaccepted) nofun, nofun, fun _ => done⟩
  · rename_i id status at_
    have done := ShareRecord.accepted_isAccepted device.record id status
    exact ⟨fun _ unaccepted => absurd (done.symm.trans unaccepted) nofun, nofun, fun _ => done⟩
  · rename_i run retryable at_
    exact copied.keeps (by simp [at_]) rfl rfl rfl (ShareRecord.recordStop_keeps _ _) nofun
  · exact copied

theorem answer_copied (copied : device.Copied) (answer : Answer) :
    (device.answer answer).Copied := by
  unfold Device.answer
  split
  case h_13 run source id status at_ =>
    have kept := createInvestigation_kept device run.key source id
    generalize device.createInvestigation run.key source id = outcome at kept
    obtain ⟨known, after_⟩ := outcome
    obtain ⟨_, row, same, file, left⟩ := kept
    have keeps : device.record.Keeps after_.record := row ▸ .refl _
    cases known with
    | none => exact copied.keeps (by simp [at_]) same file left keeps nofun
    | some known => exact copied.keeps (by simp [at_]) same file left keeps nofun
  case h_14 run source id retryable at_ =>
    obtain ⟨_, row, same, file, left⟩ := createInvestigation_kept device run.key source id
    exact copied.keeps (by simp [at_]) same file left (row ▸ .refl _) nofun
  case h_16 => exact copied
  all_goals
    rename_i at_
    exact copied.keeps (by simp [at_]) rfl rfl rfl (.refl _) nofun

theorem step_copied (sound : device.Sound candidate key) (copied : device.Copied) {event : Event}
    (lives : ¬ DiesAfterDeleting device event) : (device.step event).Copied := by
  cases event with
  | proceed =>
      show device.proceed.Copied
      unfold proceed
      split
      · rename_i sheet idle open_
        exact startUpload_copied copied (by simp [idle]) _
      · exact copied
  | retry =>
      show device.retry.Copied
      unfold retry
      split
      · rename_i idle closed
        split
        · exact copied
        · dsimp only
          split
          · exact copied.keeps (by simp [idle]) rfl rfl rfl
              (ShareRecord.apply_keeps .uploadInterrupted ⟨rfl, rfl, rfl⟩) nofun
          · exact copied.keeps (by simp [idle]) rfl rfl rfl (.refl _) nofun
      · exact copied
  | next => exact next_copied copied
  | answer answer => exact answer_copied copied answer
  | dismissed =>
      show device.reset.Copied
      unfold reset
      split
      · exact copied
      · exact ⟨fun _ _ => Or.inr (Or.inr rfl), nofun, nofun⟩
  | abandon =>
      show device.abandon.Copied
      unfold abandon
      split
      · cases known : device.record.serverId with
        | none => exact ⟨fun _ _ => Or.inr (Or.inr rfl), copied.recorded, nofun⟩
        | some id =>
            have done := sound.books.accepted_of_known known
            exact ⟨fun _ unaccepted => absurd (done.symm.trans unaccepted) nofun,
              fun _ => done, fun _ => done⟩
      · exact copied
  | died =>
      refine copied.keeps ?_ rfl rfl ?_ (.refl _) nofun
      · intro id status at_
        exact lives ⟨rfl, Or.inl ⟨id, status, at_⟩⟩
      · exact if_neg fun abandoning => lives ⟨rfl, Or.inr abandoning⟩

theorem shared_copied (candidate : ShareCandidate) (key path : String) :
    (shared candidate key path).Copied := by
  refine ⟨?_, nofun, nofun⟩
  rintro video _
  have video_ : candidate = .video := video
  exact Or.inl (decide_eq_true video_)

/-- Nothing is at work for a share that was dismissed, until the process dies. -/
def Quiet (device : Device) : Prop :=
  device.dismissal.holds = true → device.sheet = none ∧ device.position = .idle

theorem startUpload_dismissal (run : Run) :
    (device.startUpload run).dismissal = device.dismissal := by
  unfold startUpload
  split <;> rfl

theorem next_dismissal (device : Device) : device.next.dismissal = device.dismissal := by
  unfold next
  split
  case h_1 =>
    split
    · rfl
    · exact startUpload_dismissal _
  case h_2 =>
    unfold upload
    split <;> rfl
  case h_7 => split <;> rfl
  all_goals rfl

theorem answer_dismissal (device : Device) (answer : Answer) :
    (device.answer answer).dismissal = device.dismissal := by
  unfold Device.answer
  split
  case h_13 run source id status at_ =>
    have kept := (createInvestigation_kept device run.key source id).2.2.2.2
    generalize device.createInvestigation run.key source id = outcome at kept
    obtain ⟨known, after_⟩ := outcome
    cases known with
    | none => exact kept
    | some known => exact kept
  case h_14 run source id retryable at_ =>
    exact (createInvestigation_kept device run.key source id).2.2.2.2
  all_goals rfl

/-- Nothing is left to do for the share: its row is accepted, deleted or about to be. -/
structure Finished (device : Device) : Prop where
  closed : device.sheet = none
  idle : device.position = .idle
  done : device.dismissal.holds = true ∨ device.record.state.isAccepted = true

theorem Finished.step (finished : device.Finished) (event : Event) :
    device.step event = device ∨ event = .abandon ∨ event = .died := by
  obtain ⟨closed, idle, done⟩ := finished
  cases event with
  | proceed =>
      refine Or.inl ?_
      show device.proceed = device
      unfold proceed
      rw [idle, closed]
  | retry =>
      have stays : (device.record.state.isAccepted || device.dismissal.holds) = true := by
        rcases done with held | accepted
        · rw [held, Bool.or_true]
        · rw [accepted, Bool.true_or]
      refine Or.inl ?_
      show device.retry = device
      unfold retry
      rw [idle, closed]
      dsimp only
      rw [if_pos stays]
  | next =>
      refine Or.inl ?_
      show device.next = device
      unfold next
      rw [idle]
  | answer answer =>
      refine Or.inl ?_
      show device.answer answer = device
      unfold Device.answer
      rw [idle]
  | dismissed =>
      refine Or.inl ?_
      show device.reset = device
      unfold reset
      rw [closed]
  | abandon => exact Or.inr (Or.inl rfl)
  | died => exact Or.inr (Or.inr rfl)

theorem shared_quiet (candidate : ShareCandidate) (key path : String) :
    (shared candidate key path).Quiet := by
  intro held
  cases held

theorem step_quiet (quiet : device.Quiet) (event : Event) : (device.step event).Quiet := by
  have moved (same : (device.step event).dismissal = device.dismissal)
      (other : event ≠ .abandon ∧ event ≠ .died) : (device.step event).Quiet := by
    intro held
    rw [same] at held
    obtain ⟨closed, idle⟩ := quiet held
    rcases Finished.step ⟨closed, idle, Or.inl held⟩ event with kept | abandons | dies
    · rw [kept]
      exact ⟨closed, idle⟩
    · exact absurd abandons other.1
    · exact absurd dies other.2
  cases event with
  | proceed =>
      refine moved ?_ ⟨nofun, nofun⟩
      show device.proceed.dismissal = device.dismissal
      unfold proceed
      split
      · exact startUpload_dismissal _
      · rfl
  | retry =>
      refine moved ?_ ⟨nofun, nofun⟩
      show device.retry.dismissal = device.dismissal
      unfold retry
      split
      · split <;> rfl
      · rfl
  | next => exact moved (next_dismissal device) ⟨nofun, nofun⟩
  | answer answer => exact moved (answer_dismissal device answer) ⟨nofun, nofun⟩
  | dismissed =>
      show device.reset.Quiet
      unfold reset
      split
      · exact quiet
      · exact fun _ => ⟨rfl, rfl⟩
  | abandon =>
      show device.abandon.Quiet
      unfold abandon
      split
      · rename_i abandoning
        exact fun _ => quiet (by rw [abandoning]; rfl)
      · exact quiet
  | died => exact fun _ => ⟨rfl, rfl⟩

/-- A share that is finished stays so and asks for nothing, unless the process dies before the row
of a dismissed one is deleted. -/
theorem step_finished (sound : device.Sound candidate key) (finished : device.Finished)
    {event : Event} (lives : device.dismissal = .abandoning → event ≠ .died) :
    (device.step event).Finished ∧ (device.step event).requests = device.requests ∧
      ((device.step event).dismissal = .abandoning → device.dismissal = .abandoning) := by
  obtain ⟨closed, idle, done⟩ := finished
  rcases Finished.step ⟨closed, idle, done⟩ event with kept | rfl | rfl
  · rw [kept]
    exact ⟨⟨closed, idle, done⟩, rfl, id⟩
  · show device.abandon.Finished ∧ device.abandon.requests = device.requests ∧
      (device.abandon.dismissal = .abandoning → device.dismissal = .abandoning)
    unfold abandon
    split
    · rename_i abandoning
      cases known : device.record.serverId with
      | none => exact ⟨⟨closed, idle, Or.inl rfl⟩, rfl, nofun⟩
      | some id =>
          refine ⟨⟨closed, idle, Or.inr (sound.books.accepted_of_known known)⟩, rfl, nofun⟩
    · exact ⟨⟨closed, idle, done⟩, rfl, id⟩
  · have same : device.die.dismissal = device.dismissal :=
      if_neg fun abandoning => lives abandoning rfl
    exact ⟨⟨rfl, rfl, done.imp_left fun held => (congrArg Dismissal.holds same).trans held⟩, rfl,
      fun abandoning => same.symm.trans abandoning⟩

theorem exec_finished (sound : device.Sound candidate key) (alone : device.Alone)
    (finished : device.Finished) {later : List Event}
    (lives : device.dismissal = .abandoning → .died ∉ later) :
    (exec step device later).requests = device.requests := by
  induction later generalizing device with
  | nil => rfl
  | cons event rest ih =>
      obtain ⟨next, same, still⟩ := step_finished sound finished
        (fun abandoning dies => lives abandoning (dies ▸ List.mem_cons_self))
      rw [exec_cons, ih (step_sound sound alone event) (step_alone alone event) next
        fun abandoning member => lives (still abandoning) (List.mem_cons_of_mem _ member)]
      exact same

/-- The tries of one share under one key: they ask for one investigation of one source, declare an
upload only while none is stored, and keep the upload that was completed. -/
theorem share_requests (candidate : ShareCandidate) (key path : String)
    (events later : List Event) :
    (∀ used source, .create used source ∈ (after candidate key path events).requests →
      used = key ∧ ∀ other again,
        .create other again ∈ (after candidate key path events).requests → again = source) ∧
    (after candidate key path events).created.length ≤ 1 ∧
    (∀ id, (after candidate key path events).record.serverId = some id →
      ∃ created ∈ (after candidate key path events).created, created.id = id) ∧
    (∀ event, (after candidate key path (events ++ [event])).requests =
        (after candidate key path events).requests ++ [.declare] →
      (after candidate key path events).record.declaredUpload = none ∧
      (after candidate key path events).record.uploadId = none) ∧
    (∀ event id, (after candidate key path events).record.declaredUpload = some id →
      (after candidate key path (events ++ [event])).record.declaredUpload = some id ∨
      id ∈ (after candidate key path events).gone ∨
      (after candidate key path (events ++ [event])).record.serverId.isSome = true) ∧
    (∀ id, (after candidate key path events).record.uploadId = some id →
      (after candidate key path (events ++ later)).record.uploadId = some id) ∧
    ((after candidate key path events).dismissal = .abandoned ∨
        (after candidate key path events).dismissal = .abandoning ∧ .died ∉ later →
      (after candidate key path (events ++ later)).requests =
        (after candidate key path events).requests) := by
  have sound := after_sound candidate key path events
  refine ⟨?_, sound.books.single, sound.books.known, ?_, ?_, ?_, ?_⟩
  · intro used source asked
    obtain ⟨own, stands⟩ := sound.books.creates used source asked
    refine ⟨own, ?_⟩
    intro other again asked
    exact sourceOf_unique (sound.books.creates other again asked).2 stands
  · intro event declares
    unfold after at declares
    rw [exec_concat] at declares
    rcases step_requests (exec step (shared candidate key path) events) event with
      same | ⟨request, more, declaring⟩
    · rw [same] at declares
      simp at declares
    · obtain rfl : request = .declare := by
        rw [more] at declares
        simpa using declares
      obtain ⟨run, at_, nothing⟩ := declaring rfl
      have placed := sound.placed
      unfold Placed after at placed
      rw [at_] at placed
      have none_ := placed.2.trans nothing
      exact ⟨congrArg UploadAttempt.declared none_, congrArg UploadAttempt.uploadId none_⟩
  · intro event id stored
    have next := step_declared sound event stored
    unfold after
    rw [exec_concat]
    exact next
  · intro id stored
    unfold after
    rw [exec_append]
    exact (@exec_invariant _ _ step
      (fun device => (device.Sound candidate key ∧ device.Alone) ∧
        device.record.uploadId = some id)
      (fun _ event kept => ⟨⟨step_sound kept.1.1 kept.1.2 event, step_alone kept.1.2 event⟩,
        step_uploadId kept.1.1 event kept.2⟩)
      _ ⟨after_lawful candidate key path events, stored⟩ later).2
  · intro dropped
    have quiet : (after candidate key path events).Quiet :=
      exec_invariant Quiet (fun _ event quiet => step_quiet quiet event)
        (shared_quiet candidate key path) events
    have held : (after candidate key path events).dismissal.holds = true := by
      rcases dropped with abandoned | ⟨abandoning, -⟩
      · rw [abandoned]
        rfl
      · rw [abandoning]
        rfl
    obtain ⟨closed, idle⟩ := quiet held
    unfold after
    rw [exec_append]
    refine exec_finished sound (after_lawful candidate key path events).2
      ⟨closed, idle, Or.inl held⟩ fun abandoning => ?_
    rcases dropped with abandoned | ⟨-, lives⟩
    · rw [abandoned] at abandoning
      cases abandoning
    · exact lives

def exampleDismissed : List Event :=
  [.proceed, .next, .answer (.declared "upload"), .next, .dismissed, .abandon]

theorem share_requests_declare :
    (after .video "key" "copy" [.proceed]).record.declaredUpload = none ∧
      (after .video "key" "copy" (exampleDismissed ++ [.died, .retry, .next])).requests =
        [.declare] :=
  ⟨((share_requests .video "key" "copy" [.proceed] []).2.2.2.1 .next (by decide)).1,
    (share_requests .video "key" "copy" exampleDismissed [.died, .retry, .next]).2.2.2.2.2.2
      (Or.inl rfl)⟩

/-- Where the server has the investigation and the row is there and not accepted, a retry that goes
through accepts the row with it, unless the share is a video whose copy is gone; and the copy goes
before that only where the process dies between its deletion and the write that follows it. -/
theorem share_recovery (candidate : ShareCandidate) (key path : String) (events : List Event)
    (id : String) (status : ProcessingStatus)
    (unaccepted : (after candidate key path events).record.state.isAccepted = false)
    (row : (after candidate key path events).dismissal ≠ .abandoned) :
    ((after candidate key path events).created ≠ [] →
      ((∃ created ∈ (after candidate key path events).created,
        (after candidate key path (events ++ recovery id status)).record.serverId =
          some created.id) ↔
      (candidate = .video → (after candidate key path events).file = true))) ∧
    (Meets step (fun device event => ¬ DiesAfterDeleting device event)
        (shared candidate key path) events →
      candidate = .video → (after candidate key path events).file = true ∨
        (∃ id status, (after candidate key path events).position = .deleted id status) ∨
        (after candidate key path events).dismissal = .abandoning) := by
  have books := (after_sound candidate key path events).books
  refine ⟨?_, ?_⟩
  · intro made
    have recovered : after candidate key path (events ++ recovery id status) =
        exec step (after candidate key path events) (recovery id status) := exec_append _ _ _
    rw [recovered]
    constructor
    · rintro ⟨created, _, known⟩ video
      subst video
      cases copy : (after .video key path events).file with
      | true => rfl
      | false =>
          rw [recovery_lost books unaccepted row copy id status] at known
          cases known
    · intro copy
      exact recovery_succeeds books made unaccepted row copy id status
  · intro meets video
    have both := @exec_invariant_of_meets _ _ step
      (fun device => (device.Sound candidate key ∧ device.Alone) ∧ device.Copied) _
      (fun _ event lives kept =>
        ⟨⟨step_sound kept.1.1 kept.1.2 event, step_alone kept.1.2 event⟩,
          step_copied kept.1.1 kept.2 lives⟩)
      _ ⟨⟨shared_sound candidate key path, nofun⟩, shared_copied candidate key path⟩ _ meets
    rcases both.2.copy (books.same.trans video) unaccepted with copy | deleting | held
    · exact Or.inl copy
    · exact Or.inr (Or.inl deleting)
    · refine Or.inr (Or.inr ?_)
      change (after candidate key path events).dismissal.holds = true at held
      revert row held
      cases (after candidate key path events).dismissal <;> simp [Dismissal.holds]

def exampleStranded : List Event :=
  [.proceed, .next, .answer (.declared "upload"), .next, .next, .answer .stored,
    .answer (.completed true), .next, .next, .answer (.lost "check" true), .next, .died,
    .retry, .next, .next, .answer (.created "check" .waiting), .next, .died]

theorem share_recovery_stranded :
    ¬ ∃ created ∈ (after .video "key" "copy" exampleStranded).created,
      (after .video "key" "copy" (exampleStranded ++ recovery "check" .waiting)).record.serverId =
        some created.id := by
  intro recovered
  have copy := ((share_recovery .video "key" "copy" exampleStranded "check" .waiting
    (by decide) (by decide)).1 (by decide)).mp recovered rfl
  revert copy
  decide

end Device

end Ovrly.Shares.Recovery
