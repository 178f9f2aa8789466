import Ovrly.Admission.Routes
import Ovrly.Captures.SessionLaw

/-!
The daily budgets over every order of admissions.

An admitted request leaves one row that names it and one charge. The counters of a principal are
the sums of its charges on the day of its row, as long as the clock does not run backwards.
-/

namespace Ovrly.Admission

open Relational Runs Ovrly.Jobs Ovrly.Reports Ovrly.Captures

variable {π σ ρ β : Type} [EmptyCollection σ]

section Answers

inductive RequestKey
  | create (ownerId : PrincipalId) (key : String)
  | capture (ownerId : PrincipalId) (key : String)
  | chunk (sessionId : Uuid) (seq : Nat)
  | upload (id : Uuid)
  | reanalysis (ownerId : PrincipalId) (key : String)
  deriving DecidableEq, Repr

def Office.requests (office : Office π σ ρ β) : List RequestKey :=
  (office.idempotencyKeys.rows.map fun stored => .create stored.ownerId stored.key) ++
    (office.intake.sessions.rows.map fun session => .capture session.ownerId session.requestKey) ++
    (office.intake.chunks.rows.map fun chunk => .chunk chunk.sessionId chunk.seq) ++
    (office.uploads.rows.map fun upload => .upload upload.id) ++
    office.reanalysisRequests.rows.map fun stored =>
      .reanalysis stored.ownerId stored.idempotencyKey

inductive Call
  | create (call : CreateCall)
  | capture (call : CaptureCall)
  | chunk (call : ChunkCall)
  | upload (call : UploadCall)
  | reanalyse (call : ReanalysisCall)

def Call.owner : Call → PrincipalId
  | .create call => call.caller.id
  | .capture call => call.caller.id
  | .chunk call => call.principal
  | .upload call => call.caller.id
  | .reanalyse call => call.caller.id

def Call.readings : Call → Readings
  | .create call => call.readings
  | .capture call => call.readings
  | .chunk call => call.readings
  | .upload call => call.readings
  | .reanalyse call => call.readings

def Call.amount : Call → Amount
  | .create _ => { checks := 1 }
  | .capture _ => { checks := 1 }
  | .chunk call => { uploadBytes := call.metadata.sizeBytes }
  | .upload call => { uploadBytes := call.sizeBytes }
  | .reanalyse _ => { checks := 1 }

def Call.investigation : Call → Option Uuid
  | .reanalyse call => some call.investigationId
  | _ => none

def Call.request : Call → RequestKey
  | .create call => .create call.caller.id call.key
  | .capture call => .capture call.caller.id call.key
  | .chunk call => .chunk call.captureId call.seq
  | .upload call => .upload call.uploadId
  | .reanalyse call => .reanalysis call.caller.id call.key

def Outcome.isAdmitted {α : Type} : Outcome α → Bool
  | .replayed _ => false
  | .admitted _ => true

def verdict {α : Type} :
    Except ApiError (Outcome α × Office π σ ρ β) → Except ApiError (Bool × Office π σ ρ β)
  | .error refused => .error refused
  | .ok (outcome, next) => .ok (outcome.isAdmitted, next)

def unhandled {α : Type} : Except Refusal α → Except ApiError α
  | .ok answer => .ok answer
  | .error (.api refused) => .error refused
  | .error .integrityError => .error internalError

variable (settings : AdmissionSettings) (composition : Composition π β)

def answer (office : Office π σ ρ β) : Call → Except ApiError (Bool × Office π σ ρ β)
  | .create call => verdict (createInvestigation settings composition office call)
  | .capture call => verdict (unhandled (createCapture settings office call))
  | .chunk call => verdict (reserveChunk settings office call)
  | .upload call => verdict (unhandled (createUpload settings office call))
  | .reanalyse call => verdict (reanalyze settings composition office call)

/-- A new request: one row more names it, and its price was charged. -/
structure Admits (office next : Office π σ ρ β) (call : Call) : Prop where
  fresh : call.request ∉ office.requests
  requested : next.requests.Perm (call.request :: office.requests)
  charged : charge settings.toQuotaSettings office.intake.usage call.owner call.readings
    call.amount call.investigation = .ok next.intake.usage

end Answers

section Steps

theorem bind_ok {ε α γ : Type} {first : Except ε α} {next : α → Except ε γ} {result : γ}
    (accepted : first >>= next = .ok result) :
    ∃ value, first = .ok value ∧ next value = .ok result := by
  cases first with
  | error error => cases accepted
  | ok value => exact ⟨value, rfl, accepted⟩

theorem insertInto_ok {row κ : Type} [DecidableEq κ] [Keyed row κ] {table next : Table row}
    {new : row} (inserted : insertInto table new = .ok next) : table.insert? new = some next := by
  unfold insertInto at inserted
  split at inserted
  · rename_i rows known
    rw [known, Except.ok.inj inserted]
  · cases inserted

theorem chargeOwned_ok {settings : QuotaSettings} {intake next : Intake} {owner : PrincipalId}
    {readings : Readings} {amount : Amount} {investigationId : Option Uuid}
    (paid : chargeOwned settings intake owner readings amount investigationId = .ok next) :
    charge settings intake.usage owner readings amount investigationId = .ok next.usage ∧
      next.sessions = intake.sessions ∧ next.chunks = intake.chunks := by
  unfold chargeOwned at paid
  split at paid
  · rename_i usage charged
    cases paid
    exact ⟨charged, rfl, rfl⟩
  · cases paid

omit [EmptyCollection σ] in
theorem create_mem {office : Office π σ ρ β} {ownerId : PrincipalId} {key : String} :
    RequestKey.create ownerId key ∈ office.requests ↔
      ∃ stored ∈ office.idempotencyKeys.rows, stored.ownerId = ownerId ∧ stored.key = key := by
  simp [Office.requests]

omit [EmptyCollection σ] in
theorem capture_mem {office : Office π σ ρ β} {ownerId : PrincipalId} {key : String} :
    RequestKey.capture ownerId key ∈ office.requests ↔
      ∃ session ∈ office.intake.sessions.rows,
        session.ownerId = ownerId ∧ session.requestKey = key := by
  simp [Office.requests]

omit [EmptyCollection σ] in
theorem chunk_mem {office : Office π σ ρ β} {sessionId : Uuid} {seq : Nat} :
    RequestKey.chunk sessionId seq ∈ office.requests ↔
      ∃ chunk ∈ office.intake.chunks.rows, chunk.sessionId = sessionId ∧ chunk.seq = seq := by
  simp [Office.requests]

omit [EmptyCollection σ] in
theorem upload_mem {office : Office π σ ρ β} {id : Uuid} :
    RequestKey.upload id ∈ office.requests ↔ ∃ upload ∈ office.uploads.rows, upload.id = id := by
  simp [Office.requests]

omit [EmptyCollection σ] in
theorem reanalysis_mem {office : Office π σ ρ β} {ownerId : PrincipalId} {key : String} :
    RequestKey.reanalysis ownerId key ∈ office.requests ↔
      ∃ stored ∈ office.reanalysisRequests.rows,
        stored.ownerId = ownerId ∧ stored.idempotencyKey = key := by
  simp [Office.requests]

theorem unused_of_insert? {row κ : Type} [DecidableEq κ] [Keyed row κ] {table next : Table row}
    {new : row} (inserted : table.insert? new = some next) :
    ∀ other ∈ table.rows, (Keyed.key other : κ) ≠ Keyed.key new :=
  Table.find?_eq_none.mp (Table.insert?_fresh inserted)

variable {settings : AdmissionSettings} {composition : Composition π β}

theorem create_ok {office next : Office π σ ρ β} {call : CreateCall} {outcome : Outcome (Nat × β)}
    (accepted : create settings composition office call = .ok (outcome, next)) :
    (outcome.isAdmitted = false ∧ next = office) ∨
      (outcome.isAdmitted = true ∧ Admits settings office next (.create call)) := by
  unfold create at accepted
  obtain ⟨-, -, accepted⟩ := bind_ok accepted
  split at accepted
  · obtain ⟨stored, -, accepted⟩ := bind_ok accepted
    cases accepted
    exact Or.inl ⟨rfl, rfl⟩
  obtain ⟨-, -, accepted⟩ := bind_ok accepted
  obtain ⟨intake, paid, accepted⟩ := bind_ok accepted
  obtain ⟨investigations, -, accepted⟩ := bind_ok accepted
  obtain ⟨⟨enqueued, queue⟩, -, accepted⟩ := bind_ok accepted
  obtain ⟨idempotencyKeys, inserted, accepted⟩ := bind_ok accepted
  cases accepted
  obtain ⟨charged, sessions, chunks⟩ := chargeOwned_ok paid
  have added := insertInto_ok inserted
  refine Or.inr ⟨rfl, ?_, ?_, charged⟩
  · rw [Call.request, create_mem]
    rintro ⟨stored, member, owner, key⟩
    exact unused_of_insert? added stored member (Prod.ext owner key)
  · rw [List.perm_iff_count]
    intro request
    simp only [Office.requests, Table.rows_insert? added, sessions, chunks, List.map_append,
      List.map_cons, List.map_nil, List.count_append, List.count_cons, List.count_nil, Call.request,
      createdKey]
    omega

theorem createInvestigation_ok {office next : Office π σ ρ β} {call : CreateCall}
    {outcome : Outcome (Nat × β)}
    (accepted : createInvestigation settings composition office call = .ok (outcome, next)) :
    (outcome.isAdmitted = false ∧ next = office) ∨
      (outcome.isAdmitted = true ∧ Admits settings office next (.create call)) := by
  unfold createInvestigation at accepted
  split at accepted
  · cases accepted
  split at accepted
  · rename_i result created
    rw [Except.ok.inj accepted] at created
    exact create_ok created
  · cases accepted
  · cases replayed : replayCreate office call.caller.id call.key call.digest with
    | error refused =>
        rw [replayed] at accepted
        cases accepted
    | ok stored =>
        rw [replayed] at accepted
        cases accepted
        exact Or.inl ⟨rfl, rfl⟩

omit [EmptyCollection σ] in
theorem createCapture_ok {office next : Office π σ ρ β} {call : CaptureCall}
    {outcome : Outcome SessionRead}
    (accepted : createCapture settings office call = .ok (outcome, next)) :
    (outcome.isAdmitted = false ∧ next = office) ∨
      (outcome.isAdmitted = true ∧ Admits settings office next (.capture call)) := by
  unfold createCapture at accepted
  obtain ⟨-, -, accepted⟩ := bind_ok accepted
  split at accepted
  · split at accepted
    · cases accepted
    · cases accepted
      exact Or.inl ⟨rfl, rfl⟩
  rename_i absent
  obtain ⟨intake, paid, accepted⟩ := bind_ok accepted
  obtain ⟨investigations, -, accepted⟩ := bind_ok accepted
  obtain ⟨rows, inserted, accepted⟩ := bind_ok accepted
  cases accepted
  obtain ⟨charged, sessions, chunks⟩ := chargeOwned_ok paid
  have added := insertInto_ok inserted
  refine Or.inr ⟨rfl, ?_, ?_, charged⟩
  · rw [Call.request, capture_mem]
    rintro ⟨session, member, owner, key⟩
    have different := List.find?_eq_none.mp absent session member
    simp [owner, key] at different
  · rw [List.perm_iff_count]
    intro request
    simp only [Office.requests, Table.rows_insert? added, chunks, List.map_append, List.map_cons,
      List.map_nil, List.count_append, List.count_cons, List.count_nil, Call.request,
      createdCapture]
    omega

omit [EmptyCollection σ] in
theorem reserveChunk_ok {office next : Office π σ ρ β} {call : ChunkCall} {outcome : Outcome Unit}
    (accepted : reserveChunk settings office call = .ok (outcome, next)) :
    (outcome.isAdmitted = false ∧ next = office) ∨
      (outcome.isAdmitted = true ∧ Admits settings office next (.chunk call)) := by
  unfold reserveChunk at accepted
  obtain ⟨-, -, accepted⟩ := bind_ok accepted
  obtain ⟨⟨fresh, intake⟩, reserved, accepted⟩ := bind_ok accepted
  cases accepted
  rcases reserve_ok reserved with
    ⟨isStored, same⟩ | ⟨isNew, sessions, added, session, -, -, charged⟩
  · subst isStored same
    exact Or.inl ⟨rfl, rfl⟩
  subst isNew
  refine Or.inr ⟨rfl, ?_, ?_, charged⟩
  · rw [Call.request, chunk_mem]
    rintro ⟨chunk, member, session, seq⟩
    exact unused_of_insert? added chunk member (Prod.ext session seq)
  · rw [List.perm_iff_count]
    intro request
    simp only [Office.requests, Table.rows_insert? added, sessions, List.map_append, List.map_cons,
      List.map_nil, List.count_append, List.count_cons, List.count_nil, Call.request,
      reservedChunk]
    omega

omit [EmptyCollection σ] in
theorem createUpload_ok {office next : Office π σ ρ β} {call : UploadCall}
    {outcome : Outcome Upload}
    (accepted : createUpload settings office call = .ok (outcome, next)) :
    outcome.isAdmitted = true ∧ Admits settings office next (.upload call) := by
  unfold createUpload at accepted
  split at accepted
  · cases accepted
  obtain ⟨-, -, accepted⟩ := bind_ok accepted
  obtain ⟨-, -, accepted⟩ := bind_ok accepted
  obtain ⟨intake, paid, accepted⟩ := bind_ok accepted
  obtain ⟨uploads, inserted, accepted⟩ := bind_ok accepted
  cases accepted
  obtain ⟨charged, sessions, chunks⟩ := chargeOwned_ok paid
  have added := insertInto_ok inserted
  refine ⟨rfl, ?_, ?_, charged⟩
  · rw [Call.request, upload_mem]
    rintro ⟨upload, member, same⟩
    exact unused_of_insert? added upload member same
  · rw [List.perm_iff_count]
    intro request
    simp only [Office.requests, Table.rows_insert? added, sessions, chunks, List.map_append,
      List.map_cons, List.map_nil, List.count_append, List.count_cons, List.count_nil, Call.request,
      createdUpload]
    omega

theorem requestReanalysis_ok {office next : Office π σ ρ β} {call : ReanalysisCall}
    {outcome : Outcome ReanalysisResponse}
    (accepted : requestReanalysis settings composition office call = .ok (outcome, next)) :
    (outcome.isAdmitted = false ∧ next = office) ∨
      (outcome.isAdmitted = true ∧ Admits settings office next (.reanalyse call)) := by
  unfold requestReanalysis at accepted
  obtain ⟨-, -, accepted⟩ := bind_ok accepted
  obtain ⟨-, -, accepted⟩ := bind_ok accepted
  obtain ⟨stored, -, accepted⟩ := bind_ok accepted
  split at accepted
  · cases accepted
    exact Or.inl ⟨rfl, rfl⟩
  obtain ⟨source, -, accepted⟩ := bind_ok accepted
  obtain ⟨latest, -, accepted⟩ := bind_ok accepted
  obtain ⟨intake, paid, accepted⟩ := bind_ok accepted
  obtain ⟨report, -, accepted⟩ := bind_ok accepted
  obtain ⟨⟨enqueued, queue⟩, -, accepted⟩ := bind_ok accepted
  obtain ⟨rows, inserted, accepted⟩ := bind_ok accepted
  cases accepted
  obtain ⟨charged, sessions, chunks⟩ := chargeOwned_ok paid
  have added := insertInto_ok inserted
  refine Or.inr ⟨rfl, ?_, ?_, charged⟩
  · rw [Call.request, reanalysis_mem]
    rintro ⟨stored, member, owner, key⟩
    exact unused_of_insert? added stored member (Prod.ext owner key)
  · rw [List.perm_iff_count]
    intro request
    simp only [Office.requests, Table.rows_insert? added, sessions, chunks, List.map_append,
      List.map_cons, List.map_nil, List.count_append, List.count_cons, List.count_nil, Call.request]
    omega

theorem reanalyze_ok {office next : Office π σ ρ β} {call : ReanalysisCall}
    {outcome : Outcome ReanalysisResponse}
    (accepted : reanalyze settings composition office call = .ok (outcome, next)) :
    (outcome.isAdmitted = false ∧ next = office) ∨
      (outcome.isAdmitted = true ∧ Admits settings office next (.reanalyse call)) := by
  unfold reanalyze at accepted
  split at accepted
  · rename_i result requested
    rw [Except.ok.inj accepted] at requested
    exact requestReanalysis_ok requested
  · cases accepted
  · split at accepted
    · cases accepted
      exact Or.inl ⟨rfl, rfl⟩
    · cases accepted
    · cases accepted

theorem answer_ok {office next : Office π σ ρ β} {call : Call} {isNew : Bool}
    (accepted : answer settings composition office call = .ok (isNew, next)) :
    (isNew = false ∧ next = office) ∨ (isNew = true ∧ Admits settings office next call) := by
  cases call with
  | create call =>
      simp only [answer] at accepted
      cases created : createInvestigation settings composition office call with
      | error refused => rw [created] at accepted; cases accepted
      | ok result =>
          rw [created] at accepted
          cases accepted
          exact createInvestigation_ok created
  | capture call =>
      simp only [answer] at accepted
      cases created : createCapture settings office call with
      | error refused => rw [created] at accepted; cases refused <;> cases accepted
      | ok result =>
          rw [created] at accepted
          cases accepted
          exact createCapture_ok created
  | chunk call =>
      simp only [answer] at accepted
      cases reserved : reserveChunk settings office call with
      | error refused => rw [reserved] at accepted; cases accepted
      | ok result =>
          rw [reserved] at accepted
          cases accepted
          exact reserveChunk_ok reserved
  | upload call =>
      simp only [answer] at accepted
      cases created : createUpload settings office call with
      | error refused => rw [created] at accepted; cases refused <;> cases accepted
      | ok result =>
          rw [created] at accepted
          cases accepted
          exact Or.inr (createUpload_ok created)
  | reanalyse call =>
      simp only [answer] at accepted
      cases requested : reanalyze settings composition office call with
      | error refused => rw [requested] at accepted; cases accepted
      | ok result =>
          rw [requested] at accepted
          cases accepted
          exact reanalyze_ok requested

end Steps

section Counters

/-- What an admitted request was charged, and when. -/
structure Charge where
  ownerId : PrincipalId
  time : Time
  amount : Amount
  deriving DecidableEq, Repr

def chargesOn (charges : List Charge) (ownerId : PrincipalId) (day : Int) : List Charge :=
  charges.filter fun charge => charge.ownerId == ownerId && utcDay charge.time == day

def checksOn (charges : List Charge) (ownerId : PrincipalId) (day : Int) : Nat :=
  ((chargesOn charges ownerId day).map (·.amount.checks)).sum

def bytesOn (charges : List Charge) (ownerId : PrincipalId) (day : Int) : Nat :=
  ((chargesOn charges ownerId day).map (·.amount.uploadBytes)).sum

theorem utcDay_mono {first second : Time} (ordered : first ≤ second) :
    utcDay first ≤ utcDay second :=
  Int.ediv_le_ediv (by decide) ordered

theorem checksOn_concat (charges : List Charge) (charge : Charge) (ownerId : PrincipalId)
    (day : Int) :
    checksOn (charges ++ [charge]) ownerId day = checksOn charges ownerId day +
      if charge.ownerId = ownerId ∧ utcDay charge.time = day then charge.amount.checks else 0 := by
  simp only [checksOn, chargesOn, List.filter_append, List.map_append, List.sum_append]
  by_cases mine : charge.ownerId = ownerId ∧ utcDay charge.time = day
  · rw [if_pos mine, List.filter_cons_of_pos (by simp [mine])]
    rfl
  · have other : (charge.ownerId == ownerId && utcDay charge.time == day) = false := by
      simpa using fun owner => fun today => mine ⟨owner, today⟩
    rw [if_neg mine, List.filter_cons_of_neg (by simp [other])]
    rfl

theorem bytesOn_concat (charges : List Charge) (charge : Charge) (ownerId : PrincipalId)
    (day : Int) :
    bytesOn (charges ++ [charge]) ownerId day = bytesOn charges ownerId day +
      if charge.ownerId = ownerId ∧ utcDay charge.time = day then charge.amount.uploadBytes
      else 0 := by
  simp only [bytesOn, chargesOn, List.filter_append, List.map_append, List.sum_append]
  by_cases mine : charge.ownerId = ownerId ∧ utcDay charge.time = day
  · rw [if_pos mine, List.filter_cons_of_pos (by simp [mine])]
    rfl
  · have other : (charge.ownerId == ownerId && utcDay charge.time == day) = false := by
      simpa using fun owner => fun today => mine ⟨owner, today⟩
    rw [if_neg mine, List.filter_cons_of_neg (by simp [other])]
    rfl

theorem chargesOn_nil {charges : List Charge} {ownerId : PrincipalId} {day : Int}
    (earlier : ∀ charge ∈ charges, charge.ownerId = ownerId → utcDay charge.time ≠ day) :
    chargesOn charges ownerId day = [] := by
  rw [chargesOn, List.filter_eq_nil_iff]
  intro charge member
  simpa using earlier charge member

/-- The stored row of a principal holds the sums of its latest day. -/
structure Counted (charges : List Charge) (used : QuotaUsage) : Prop where
  checks : used.checks = checksOn charges used.ownerId used.day
  uploadBytes : used.uploadBytes = bytesOn charges used.ownerId used.day
  someday : ∃ charge ∈ charges, charge.ownerId = used.ownerId ∧ utcDay charge.time = used.day
  latest : ∀ charge ∈ charges, charge.ownerId = used.ownerId → utcDay charge.time ≤ used.day

structure Balanced (settings : QuotaSettings) (usage : Table QuotaUsage)
    (charges : List Charge) : Prop where
  within : ∀ ownerId day, checksOn charges ownerId day ≤ settings.quotaDailyChecks ∧
    bytesOn charges ownerId day ≤ settings.quotaDailyUploadBytes
  counted : ∀ ownerId used, usage.find? ownerId = some used → Counted charges used
  uncharged : ∀ ownerId, usage.find? ownerId = none →
    ∀ charge ∈ charges, charge.ownerId ≠ ownerId

variable {settings : QuotaSettings} {usage next : Table QuotaUsage} {charges : List Charge}

theorem balanced_nil (unused : ∀ ownerId, usage.find? ownerId = none) :
    Balanced settings usage [] where
  within _ _ := ⟨Nat.zero_le _, Nat.zero_le _⟩
  counted ownerId used found := by
    rw [unused] at found
    cases found
  uncharged _ _ charge member := by cases member

theorem Balanced.usedOn (balanced : Balanced settings usage charges) {ownerId : PrincipalId}
    {day : Int}
    (past : ∀ charge ∈ charges, charge.ownerId = ownerId → utcDay charge.time ≤ day) :
    usedOn usage ownerId day = ⟨checksOn charges ownerId day, bytesOn charges ownerId day⟩ := by
  unfold Admission.usedOn
  cases found : usage.find? ownerId with
  | none =>
      have none : chargesOn charges ownerId day = [] := chargesOn_nil fun charge member owner =>
        absurd owner (balanced.uncharged ownerId found charge member)
      simp [checksOn, bytesOn, none]
  | some used =>
      have counted := balanced.counted ownerId used found
      have owner : used.ownerId = ownerId := Table.find?_key found
      simp only
      by_cases today : used.day = day
      · rw [if_pos today, counted.checks, counted.uploadBytes, owner, today]
      · rw [if_neg today]
        obtain ⟨last, known, mine, lastDay⟩ := counted.someday
        have reached := past last known (mine.trans owner)
        have none : chargesOn charges ownerId day = [] :=
          chargesOn_nil fun charge member charged => by
            have before := counted.latest charge member (charged.trans owner.symm)
            omega
        simp [checksOn, bytesOn, none]

theorem Balanced.charge (balanced : Balanced settings usage charges)
    (enabled : settings.quotasEnabled = true) {ownerId : PrincipalId} {readings : Readings}
    {amount : Amount} {investigationId : Option Uuid}
    (past : ∀ charge ∈ charges, charge.ownerId = ownerId → charge.time ≤ readings.clockTimestamp)
    (fits : Admission.charge settings usage ownerId readings amount investigationId = .ok next) :
    Balanced settings next (charges ++ [⟨ownerId, readings.clockTimestamp, amount⟩]) := by
  have days : ∀ charge ∈ charges, charge.ownerId = ownerId →
      utcDay charge.time ≤ utcDay readings.clockTimestamp :=
    fun charge member owner => utcDay_mono (past charge member owner)
  obtain ⟨checks, uploadBytes, written⟩ := charge_ok enabled fits
  rw [balanced.usedOn days] at checks uploadBytes written
  subst written
  refine ⟨?_, ?_, ?_⟩
  · intro other day
    rw [checksOn_concat, bytesOn_concat]
    have held := balanced.within other day
    by_cases mine : ownerId = other ∧ utcDay readings.clockTimestamp = day
    · obtain ⟨rfl, rfl⟩ := mine
      simp only [and_self, if_true]
      exact ⟨checks, uploadBytes⟩
    · simp only [if_neg mine]
      omega
  · intro other used found
    rw [find?_upsert] at found
    by_cases mine : ownerId = other
    · subst mine
      rw [if_pos rfl, Option.some.injEq] at found
      subst found
      refine ⟨?_, ?_, ⟨_, List.mem_append_right _ (List.mem_singleton_self _), rfl, rfl⟩, ?_⟩
      · simp [checksOn_concat]
      · simp [bytesOn_concat]
      · intro charge member owner
        rcases List.mem_append.mp member with earlier | new
        · exact days charge earlier owner
        · rw [List.mem_singleton.mp new]
    · rw [if_neg mine] at found
      have counted := balanced.counted other used found
      have owner : used.ownerId = other := Table.find?_key found
      have elsewhere : ∀ day, ¬(ownerId = used.ownerId ∧ day = used.day) :=
        fun _ both => mine (both.1.trans owner)
      obtain ⟨last, known, lastDay⟩ := counted.someday
      refine ⟨?_, ?_, ⟨last, List.mem_append_left _ known, lastDay⟩, ?_⟩
      · rw [checksOn_concat, if_neg (elsewhere _)]
        exact counted.checks
      · rw [bytesOn_concat, if_neg (elsewhere _)]
        exact counted.uploadBytes
      · intro charge member charged
        rcases List.mem_append.mp member with earlier | new
        · exact counted.latest charge earlier charged
        · rw [List.mem_singleton.mp new] at charged
          exact absurd (charged.trans owner) mine
  · intro other absent charge member
    rw [find?_upsert] at absent
    by_cases mine : ownerId = other
    · rw [if_pos mine] at absent
      cases absent
    · rw [if_neg mine] at absent
      rcases List.mem_append.mp member with earlier | new
      · exact balanced.uncharged other absent charge earlier
      · rw [List.mem_singleton.mp new]
        exact mine

end Counters

section Runs

structure Books (π σ ρ β : Type) where
  office : Office π σ ρ β
  charges : List Charge

/-- A charging request, or whatever else happens to the rows that are not counters. -/
inductive Event (π σ ρ β : Type)
  | call (call : Call)
  | other (next : Office π σ ρ β)

def Call.charge (call : Call) : Charge :=
  ⟨call.owner, call.readings.clockTimestamp, call.amount⟩

/-- The charges of a principal read a clock that does not run backwards. -/
def Event.Before : Event π σ ρ β → Event π σ ρ β → Prop
  | .call first, .call second =>
      first.owner = second.owner → first.readings.clockTimestamp ≤ second.readings.clockTimestamp
  | _, _ => True

variable (settings : AdmissionSettings) (composition : Composition π β)

def post (books : Books π σ ρ β) : Event π σ ρ β → Books π σ ρ β
  | .call call =>
      match answer settings composition books.office call with
      | .error _ => books
      | .ok (isNew, next) =>
          { office := next
            charges := if isNew then books.charges ++ [call.charge] else books.charges }
  | .other next =>
      { books with
        office := { next with intake := { next.intake with usage := books.office.intake.usage } } }

variable {settings composition} {books : Books π σ ρ β}

theorem post_admitted {call : Call} {next : Office π σ ρ β}
    (accepted : answer settings composition books.office call = .ok (true, next)) :
    post settings composition books (.call call) = ⟨next, books.charges ++ [call.charge]⟩ := by
  simp only [post, accepted, if_true]

theorem post_unchanged {call : Call}
    (refused : ∀ next, answer settings composition books.office call ≠ .ok (true, next)) :
    post settings composition books (.call call) = books := by
  cases accepted : answer settings composition books.office call with
  | error error => simp only [post, accepted]
  | ok result =>
      obtain ⟨isNew, next⟩ := result
      rcases answer_ok accepted with ⟨rfl, rfl⟩ | ⟨rfl, -⟩
      · simp only [post, accepted, Bool.false_eq_true, if_false]
      · exact absurd accepted (refused next)

theorem post_requests (call : Call) {request : RequestKey}
    (known : request ∈ books.office.requests) :
    request ∈ (post settings composition books (.call call)).office.requests := by
  by_cases admitted : ∃ next, answer settings composition books.office call = .ok (true, next)
  · obtain ⟨next, accepted⟩ := admitted
    rw [post_admitted accepted]
    rcases answer_ok accepted with ⟨⟨⟩, -⟩ | ⟨-, admits⟩
    exact admits.requested.mem_iff.mpr (List.mem_cons_of_mem _ known)
  · rw [post_unchanged fun next accepted => admitted ⟨next, accepted⟩]
    exact known

theorem posts_requests (calls : List Call) {request : RequestKey}
    (known : request ∈ books.office.requests) :
    request ∈ (exec (post settings composition) books (calls.map .call)).office.requests := by
  induction calls generalizing books with
  | nil => exact known
  | cons call rest ih => exact ih (post_requests call known)

theorem not_admitted {office : Office π σ ρ β} {call : Call}
    (known : call.request ∈ office.requests) (next : Office π σ ρ β) :
    answer settings composition office call ≠ .ok (true, next) := by
  intro accepted
  rcases answer_ok accepted with ⟨⟨⟩, -⟩ | ⟨-, admits⟩
  exact admits.fresh known

theorem post_balanced (enabled : settings.quotasEnabled = true) (event : Event π σ ρ β)
    (balanced : Balanced settings.toQuotaSettings books.office.intake.usage books.charges)
    (past : ∀ charge ∈ books.charges, ∀ call, event = .call call → charge.ownerId = call.owner →
      charge.time ≤ call.readings.clockTimestamp) :
    Balanced settings.toQuotaSettings
      (post settings composition books event).office.intake.usage
      (post settings composition books event).charges := by
  cases event with
  | other next => exact balanced
  | call call =>
      by_cases admitted : ∃ next, answer settings composition books.office call = .ok (true, next)
      · obtain ⟨next, accepted⟩ := admitted
        rw [post_admitted accepted]
        rcases answer_ok accepted with ⟨⟨⟩, -⟩ | ⟨-, admits⟩
        exact balanced.charge enabled
          (fun charge member owner => past charge member call rfl owner) admits.charged
      · rw [post_unchanged fun next accepted => admitted ⟨next, accepted⟩]
        exact balanced

theorem post_charges {event : Event π σ ρ β} {charge : Charge}
    (member : charge ∈ (post settings composition books event).charges) :
    charge ∈ books.charges ∨ ∃ call, event = .call call ∧ charge = call.charge := by
  cases event with
  | other next => exact Or.inl member
  | call call =>
      by_cases admitted : ∃ next, answer settings composition books.office call = .ok (true, next)
      · obtain ⟨next, accepted⟩ := admitted
        rw [post_admitted accepted] at member
        rcases List.mem_append.mp member with earlier | new
        · exact Or.inl earlier
        · exact Or.inr ⟨call, rfl, List.mem_singleton.mp new⟩
      · rw [post_unchanged fun next accepted => admitted ⟨next, accepted⟩] at member
        exact Or.inl member

theorem posts_balanced (enabled : settings.quotasEnabled = true) {events : List (Event π σ ρ β)}
    (ordered : events.Pairwise Event.Before)
    (balanced : Balanced settings.toQuotaSettings books.office.intake.usage books.charges)
    (past : ∀ charge ∈ books.charges, ∀ call, .call call ∈ events → charge.ownerId = call.owner →
      charge.time ≤ call.readings.clockTimestamp) :
    Balanced settings.toQuotaSettings
      (exec (post settings composition) books events).office.intake.usage
      (exec (post settings composition) books events).charges := by
  induction events generalizing books with
  | nil => exact balanced
  | cons event rest ih =>
      obtain ⟨first, later⟩ := List.pairwise_cons.mp ordered
      refine ih later (post_balanced enabled event balanced ?_) ?_
      · rintro charge member call rfl owner
        exact past charge member call List.mem_cons_self owner
      · intro charge member call listed owner
        rcases post_charges member with earlier | ⟨before, rfl, rfl⟩
        · exact past charge earlier call (List.mem_cons_of_mem _ listed) owner
        · exact first _ listed owner

variable (composition) in
/-- With quotas enabled and a clock that does not run backwards, every order of charging requests
keeps the charges of a principal on a day within its budgets and equal to its counters. A request
that is not admitted changes nothing; one that is admitted leaves one more row and one charge, and
is never admitted again. -/
theorem daily_quota (enabled : settings.quotasEnabled = true) {office : Office π σ ρ β}
    (unused : ∀ ownerId, office.intake.usage.find? ownerId = none)
    {events : List (Event π σ ρ β)} (ordered : events.Pairwise Event.Before) :
    let books := exec (post settings composition) ⟨office, []⟩ events
    (∀ ownerId day, checksOn books.charges ownerId day ≤ settings.quotaDailyChecks ∧
      bytesOn books.charges ownerId day ≤ settings.quotaDailyUploadBytes) ∧
    (∀ ownerId,
      match books.office.intake.usage.find? ownerId with
      | none => ∀ charge ∈ books.charges, charge.ownerId ≠ ownerId
      | some used => used.checks = checksOn books.charges ownerId used.day ∧
          used.uploadBytes = bytesOn books.charges ownerId used.day ∧
          ∀ charge ∈ books.charges, charge.ownerId = ownerId → utcDay charge.time ≤ used.day) ∧
    (∀ call, (∀ next, answer settings composition books.office call ≠ .ok (true, next)) →
      post settings composition books (.call call) = books) ∧
    ∀ call next, answer settings composition books.office call = .ok (true, next) →
      call.request ∉ books.office.requests ∧
      next.requests.Perm (call.request :: books.office.requests) ∧
      post settings composition books (.call call) = ⟨next, books.charges ++ [call.charge]⟩ ∧
      ∀ (later : List Call) (again : Call) last, again.request = call.request →
        answer settings composition
          (exec (post settings composition) (post settings composition books (.call call))
            (later.map .call)).office again ≠ .ok (true, last) := by
  intro books
  have balanced : Balanced settings.toQuotaSettings books.office.intake.usage books.charges :=
    posts_balanced enabled ordered (balanced_nil unused) fun charge member => by cases member
  refine ⟨balanced.within, ?_, fun _ => post_unchanged, ?_⟩
  · intro ownerId
    cases found : books.office.intake.usage.find? ownerId with
    | none => exact balanced.uncharged ownerId found
    | some used =>
        have owner : used.ownerId = ownerId := Table.find?_key found
        have counted := balanced.counted ownerId used found
        rw [← owner]
        exact ⟨counted.checks, counted.uploadBytes, counted.latest⟩
  · intro call next accepted
    rcases answer_ok accepted with ⟨⟨⟩, -⟩ | ⟨-, admits⟩
    refine ⟨admits.fresh, admits.requested, post_admitted accepted, ?_⟩
    intro later again last same
    apply not_admitted
    rw [same]
    apply posts_requests
    rw [post_admitted accepted]
    exact admits.requested.mem_iff.mpr List.mem_cons_self

end Runs

section Example

def exampleOffice : Office (List Unit) (List Unit) Unit String where
  intake := { sessions := Table.empty, chunks := Table.empty, usage := Table.empty }
  queue := Database.empty
  investigations := Table.empty
  uploads := Table.empty
  idempotencyKeys := Table.empty
  reanalysisRequests := Table.empty
  archive := Archive.empty

def exampleComposition : Composition (List Unit) String where
  intakeKey investigationId := ⟨1, "intake", investigationId⟩
  intakePayload _ _ := []
  reanalysisKey requestId := ⟨1, "reanalysis", requestId⟩
  reanalysisPayload _ _ := []
  readModel investigation := investigation.id
  identify reportId _ := reportId

def exampleSettings : AdmissionSettings where
  quotasEnabled := true
  quotaDailyChecks := 1
  quotaActiveChecks := 5
  quotaDailyUploadBytes := 1000
  uploadMaxBytes := 1000
  maxSharedDurationSeconds := 600
  uploadTargetSeconds := 3600

def exampleCheck (key : String) (time : Time) : Call :=
  .create {
    caller := ⟨1, true⟩
    source := .url "page"
    durationMs := none
    key
    digest := key
    now := time
    readings := ⟨[], [], time⟩
    investigationId := key
    jobId := 1
    clock := ⟨time, time⟩ }

/-- The second check of a day is over the budget, its repetition too. -/
theorem daily_quota_spent :
    checksOn (exec (post exampleSettings exampleComposition) ⟨exampleOffice, []⟩
      [.call (exampleCheck "a" 5), .call (exampleCheck "b" 6), .call (exampleCheck "a" 7)]).charges
      1 0 ≤ 1 :=
  (daily_quota exampleComposition rfl (fun _ => rfl) (by
    simp [Event.Before, exampleCheck, Call.readings])).1 1 0 |>.1

end Example

end Ovrly.Admission
