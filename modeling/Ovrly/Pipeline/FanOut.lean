import Ovrly.Pipeline.Capture
import Ovrly.Runs

/-!
Fan-out and fan-in of the stages of a capture chunk.

A run is any list of transactions: uploads, closes, publications of any job a worker was ever
handed, other jobs enqueued under keys that are no chunk's, and all other work on the queue
but deletion. What a transaction does to the stages of a chunk is said once, for the rows of
one digest; the laws of the run follow by induction.
-/

namespace Ovrly.Pipeline.Capture

open Relational Runs Ovrly.Jobs Ovrly.Reports

variable {δ σ ρ : Type} {digest : Uuid → Nat → String}

section Rows

def Exists (rows : List (Job (CapturePayload δ) σ)) (hash stage : String) : Prop :=
  ∃ row ∈ rows, row.key = ⟨1, stage, hash⟩

def Published (rows : List (Job (CapturePayload δ) σ)) (hash stage : String) : Prop :=
  ∃ row ∈ rows, row.key = ⟨1, stage, hash⟩ ∧ row.state = .published

/-- Which stages exist follows from which are published. -/
structure Fanned (rows : List (Job (CapturePayload δ) σ)) (hash : String) : Prop where
  asr : Exists rows hash "asr" ↔ Published rows hash captureStage
  deviceText : Exists rows hash "device_text" ↔ Published rows hash captureStage
  extraction : Exists rows hash "claim_extraction" ↔
    Published rows hash "asr" ∧ Published rows hash "device_text"

def Shaped (digest : Uuid → Nat → String) (row : Job (CapturePayload δ) σ) : Prop :=
  ∀ captureId seq, row.key.inputHash = digest captureId seq →
    captureStages.contains row.key.stage = true ∧ ∃ otherId otherSeq,
      row.payload = .chunk (some otherId) (some otherSeq) ∧
        row.key = stageKey digest otherId otherSeq row.key.stage

variable {rows later kept added : List (Job (CapturePayload δ) σ)} {hash stage : String}

theorem exists_append : Exists (kept ++ added) hash stage ↔
    Exists kept hash stage ∨ Exists added hash stage := by
  simp only [Exists, List.mem_append, or_and_right, exists_or]

theorem published_append : Published (kept ++ added) hash stage ↔
    Published kept hash stage ∨ Published added hash stage := by
  simp only [Published, List.mem_append, or_and_right, exists_or]

theorem exists_same (moved : List.Forall₂ SameJob rows kept) :
    Exists kept hash stage ↔ Exists rows hash stage := by
  constructor
  · rintro ⟨row, member, key⟩
    obtain ⟨before, belongs, same⟩ := mem_right moved member
    exact ⟨before, belongs, same.key.symm.trans key⟩
  · rintro ⟨row, member, key⟩
    obtain ⟨after, belongs, same⟩ := mem_left moved member
    exact ⟨after, belongs, same.key.trans key⟩

theorem published_works (moved : List.Forall₂ Works rows kept) :
    Published kept hash stage ↔ Published rows hash stage := by
  constructor
  · rintro ⟨row, member, key, state⟩
    obtain ⟨before, belongs, works⟩ := mem_right moved member
    exact ⟨before, belongs, works.key.symm.trans key, works.published.mp state⟩
  · rintro ⟨row, member, key, state⟩
    obtain ⟨after, belongs, works⟩ := mem_left moved member
    exact ⟨after, belongs, works.key.trans key, works.published.mpr state⟩

theorem shaped_same {row next : Job (CapturePayload δ) σ} (same : SameJob row next)
    (shaped : Shaped digest row) : Shaped digest next := by
  intro captureId seq hash
  rw [same.key] at hash ⊢
  obtain ⟨known, otherId, otherSeq, payload, key⟩ := shaped captureId seq hash
  exact ⟨known, otherId, otherSeq, same.payload.trans payload, key⟩

theorem not_published_new [EmptyCollection σ] {news : List (NewJob (CapturePayload δ))}
    {clock : Clock} (origin : ∀ row ∈ added, ∃ new ∈ news, row = newRow new clock) :
    ¬Published added hash stage := by
  rintro ⟨row, member, -, state⟩
  obtain ⟨new, -, rfl⟩ := origin row member
  simp [newRow] at state

end Rows

section Publication

variable [EmptyCollection σ] {captures : Captures} {workers : Workers (CapturePayload δ) σ ρ}
  {queue next : Database (CapturePayload δ) σ ρ} {claim : ClaimedJob (CapturePayload δ) σ}
  {result : ρ} {onPublish : OnPublish (CapturePayload δ)} {ids : String → JobId} {clock : Clock}
  {news : List (NewJob (CapturePayload δ))} {hash stage : String}

theorem exists_enqueues (enqueued : Enqueues clock news queue next) :
    Exists next.jobs.rows hash stage ↔
      Exists queue.jobs.rows hash stage ∨ ∃ new ∈ news, new.key = ⟨1, stage, hash⟩ := by
  obtain ⟨added, rows, origin⟩ := enqueued.rows
  constructor
  · rw [rows, exists_append]
    rintro (before | ⟨row, member, key⟩)
    · exact Or.inl before
    · obtain ⟨new, listed, rfl⟩ := origin row member
      exact Or.inr ⟨new, listed, key⟩
  · rintro (before | ⟨new, listed, key⟩)
    · rw [rows, exists_append]
      exact Or.inl before
    · obtain ⟨row, member, same⟩ := enqueued.taken new listed
      exact ⟨row, member, same.trans key⟩

theorem published_enqueues (enqueued : Enqueues clock news queue next) :
    Published next.jobs.rows hash stage ↔ Published queue.jobs.rows hash stage := by
  obtain ⟨added, rows, origin⟩ := enqueued.rows
  rw [rows, published_append]
  constructor
  · rintro (before | new)
    · exact before
    · exact absurd new (not_published_new origin)
  · exact Or.inl

theorem exists_publishes (publishes : Publishes claim.lease clock news queue next) :
    Exists next.jobs.rows hash stage ↔
      Exists queue.jobs.rows hash stage ∨ ∃ new ∈ news, new.key = ⟨1, stage, hash⟩ := by
  obtain ⟨added, rows, origin⟩ := publishes.rows
  have moved : List.Forall₂ SameJob queue.jobs.rows
      (queue.jobs.rows.map (publishedRow claim.lease clock)) := by
    rw [List.forall₂_map_right_iff]
    exact List.forall₂_same.mpr fun job _ => (publishedRow_lasting claim.lease clock job).toSameJob
  constructor
  · rw [rows, exists_append, exists_same moved]
    rintro (before | ⟨row, member, key⟩)
    · exact Or.inl before
    · obtain ⟨new, listed, rfl⟩ := origin row member
      exact Or.inr ⟨new, listed, key⟩
  · rintro (before | ⟨new, listed, key⟩)
    · rw [rows, exists_append, exists_same moved]
      exact Or.inl before
    · obtain ⟨row, member, same⟩ := publishes.taken new listed
      exact ⟨row, member, same.trans key⟩

theorem published_publishes (faithful : workers.Faithful) (handed : claim ∈ workers.claims)
    (publishes : Publishes claim.lease clock news workers.queue next) :
    Published next.jobs.rows hash stage ↔
      Published workers.queue.jobs.rows hash stage ∨ claim.key = ⟨1, stage, hash⟩ := by
  obtain ⟨added, rows, origin⟩ := publishes.rows
  obtain ⟨holder, belongs, holds⟩ := publishes.holder
  obtain ⟨job, member, id, key, -, -⟩ := faithful.handed claim handed
  have only : ∀ row ∈ workers.queue.jobs.rows, active claim.lease clock row = true →
      row = job := by
    intro row listed active
    simp only [Jobs.active, Bool.and_eq_true] at active
    exact Table.eq_of_key listed member ((owned_id active.1.1.1).trans id.symm)
  have same := only holder belongs holds
  rw [same] at holds
  rw [rows, published_append]
  constructor
  · rintro (⟨row, listed, rowKey, state⟩ | new)
    · obtain ⟨before, beforeListed, rfl⟩ := List.mem_map.mp listed
      by_cases active : Jobs.active claim.lease clock before = true
      · right
        rw [← key, ← only before beforeListed active, ← rowKey]
        exact (publishedRow_lasting _ _ _).key.symm
      · left
        simp only [publishedRow, if_neg active] at rowKey state
        exact ⟨before, beforeListed, rowKey, state⟩
    · exact absurd new (not_published_new origin)
  · rintro (⟨row, listed, rowKey, state⟩ | stageKey)
    · left
      refine ⟨publishedRow claim.lease clock row, List.mem_map_of_mem listed,
        (publishedRow_lasting _ _ _).key.trans rowKey, ?_⟩
      unfold publishedRow
      split
      · rfl
      · exact state
    · left
      refine ⟨publishedRow claim.lease clock job, List.mem_map_of_mem member,
        (publishedRow_lasting _ _ _).key.trans (key.trans stageKey), ?_⟩
      rw [publishedRow, if_pos holds]
      rfl

omit [EmptyCollection σ] in
theorem stageRow_some {captureId : Uuid} {seq : Nat} {row : Job (CapturePayload δ) σ}
    (found : stageRow digest queue captureId seq stage = some row) :
    row ∈ queue.jobs.rows ∧ row.key = stageKey digest captureId seq stage :=
  ⟨List.mem_of_find?_eq_some found, by simpa using List.find?_some found⟩

omit [EmptyCollection σ] in
/-- With unique keys a lookup by key finds the published stage if there is one. -/
theorem stagePublished_iff {captureId : Uuid} {seq : Nat} (unique : queue.KeysUnique) :
    stagePublished digest queue captureId seq stage = true ↔
      Published queue.jobs.rows (digest captureId seq) stage := by
  unfold stagePublished
  constructor
  · intro published
    rw [Option.any_eq_true] at published
    obtain ⟨row, found, state⟩ := published
    obtain ⟨member, key⟩ := stageRow_some found
    exact ⟨row, member, key, by simpa using state⟩
  · rintro ⟨row, member, key, state⟩
    cases found : stageRow digest queue captureId seq stage with
    | none =>
        have absent := List.find?_eq_none.mp found row member
        simp [key, stageKey] at absent
    | some other =>
        obtain ⟨belongs, same⟩ := stageRow_some found
        obtain rfl := unique.eq belongs member (same.trans key.symm)
        simp [state]

/-- What `publish_capture_stage` can do: leave the queue or cancel the job, publish a job that
is no chunk's, or publish a stage and enqueue its successors. -/
inductive Outcome (digest : Uuid → Nat → String) (captures : Captures)
    (queue : Database (CapturePayload δ) σ ρ) (claim : ClaimedJob (CapturePayload δ) σ)
    (onPublish : OnPublish (CapturePayload δ)) (ids : String → JobId) (clock : Clock) :
    Database (CapturePayload δ) σ ρ → Prop
  | withheld {final} : Moved Works queue final →
      Outcome digest captures queue claim onPublish ids clock final
  | alone {final} : Publishes claim.lease clock onPublish.enqueues queue final →
      (∀ captureId seq, claim.payload = .chunk captureId seq →
        captureStages.contains claim.key.stage = false) →
      Outcome digest captures queue claim onPublish ids clock final
  | stage {captureId seq session middle final} :
      claim.payload = .chunk (some captureId) (some seq) →
      claim.key = stageKey digest captureId seq claim.key.stage →
      captureStages.contains claim.key.stage = true →
      captures.sessions.find? captureId = some session →
      session.continueResearch ≠ some false →
      (∀ name ∈ prerequisites claim.key.stage,
        stagePublished digest queue captureId seq name = true) →
      Publishes claim.lease clock onPublish.enqueues queue middle →
      Enqueues clock ((successorsOf claim.key.stage (stagePublished digest queue captureId seq)).map
        (successorJob digest captureId seq session.ownerId ids)) middle final →
      Outcome digest captures queue claim onPublish ids clock final

omit [EmptyCollection σ] in
theorem moved_refl (queue : Database (CapturePayload δ) σ ρ) : Moved Works queue queue :=
  Moved.refl Works.refl queue

theorem publishAlone_outcome
    (free : ∀ captureId seq, claim.payload = .chunk captureId seq →
      captureStages.contains claim.key.stage = false) :
    Outcome digest captures queue claim onPublish ids clock
      (publishAlone queue claim result onPublish clock).2 := by
  unfold publishAlone
  cases answer : publish queue claim.lease result [] onPublish clock with
  | mk published next =>
      cases published with
      | error error => exact .withheld (moved_refl queue)
      | ok published => exact .alone (publish_rows answer) free

variable [EmptyCollection δ]

theorem publishChunkStage_outcome {captureId : Uuid} {seq : Nat}
    (payload : claim.payload = .chunk (some captureId) (some seq))
    (key : claim.key = stageKey digest captureId seq claim.key.stage)
    (known : captureStages.contains claim.key.stage = true) :
    Outcome digest captures queue claim onPublish ids clock
      (publishChunkStage digest captures queue claim result onPublish ids clock captureId
        seq).2 := by
  simp only [publishChunkStage]
  split
  · rename_i session chunk root owned _ _
    split
    · exact .withheld (requestCancel_moved queue _ clock)
    · rename_i goes
      split
      · exact .withheld (moved_refl queue)
      · split
        · exact .withheld (moved_refl queue)
        · rename_i ready
          split
          · exact .withheld (moved_refl queue)
          · rename_i published middle answer
            split
            · exact .withheld (moved_refl queue)
            · rename_i final enqueued
              have found := (Option.filter_eq_some_iff.mp owned).1
              simp only [goesOn, Bool.not_eq_true', Bool.not_eq_false, Bool.and_eq_true,
                bne_iff_ne] at goes
              refine .stage payload key known found goes.1.1.1 ?_ (publish_rows answer)
                (enqueueAll_rows enqueued)
              intro name listed
              by_contra unpublished
              apply ready
              rw [List.any_eq_true]
              exact ⟨name, listed, by simpa using unpublished⟩
  · exact .withheld (requestCancel_moved queue _ clock)

theorem publishCaptureStage_outcome :
    Outcome digest captures queue claim onPublish ids clock
      (publishCaptureStage digest captures queue claim result onPublish ids clock).2 := by
  unfold publishCaptureStage
  cases payload : claim.payload with
  | incremental investigationId document =>
      have free : ∀ captureId seq, claim.payload = .chunk captureId seq →
          captureStages.contains claim.key.stage = false := by
        intro captureId seq chunk
        rw [payload] at chunk
        cases chunk
      simp only
      split
      · split
        · exact publishAlone_outcome free
        · exact .withheld (requestCancel_moved queue _ clock)
      · exact publishAlone_outcome free
  | other document =>
      apply publishAlone_outcome
      intro captureId seq chunk
      rw [payload] at chunk
      cases chunk
  | chunk captureId? seq? =>
      simp only
      split
      · rename_i known
        split
        · exact .withheld (moved_refl queue)
        · rename_i captureId seq reference
          split
          · exact .withheld (moved_refl queue)
          · rename_i key
            have same : claim.payload = .chunk (some captureId) (some seq) := by
              rw [payload]
              cases captureId? <;> cases seq? <;>
                simp_all [captureReference]
            exact publishChunkStage_outcome same (not_not.mp key) known
      · rename_i unknown
        apply publishAlone_outcome
        intro captureId seq _
        simpa using unknown

end Publication

section Effects

variable {rows later : List (Job (CapturePayload δ) σ)}

/-- What a transaction does to the stages of chunks: the keys it publishes and inserts. -/
structure Effect (digest : Uuid → Nat → String) (rows later : List (Job (CapturePayload δ) σ))
    (published inserted : StageKey → Prop) : Prop where
  inserts : ∀ captureId seq stage, Exists later (digest captureId seq) stage ↔
    Exists rows (digest captureId seq) stage ∨ inserted ⟨1, stage, digest captureId seq⟩
  publishes : ∀ captureId seq stage, Published later (digest captureId seq) stage ↔
    Published rows (digest captureId seq) stage ∨ published ⟨1, stage, digest captureId seq⟩
  shapes : (∀ row ∈ rows, Shaped digest row) → ∀ row ∈ later, Shaped digest row

theorem effect_moved (moved : List.Forall₂ Works rows later) :
    Effect digest rows later (fun _ => False) fun _ => False where
  inserts captureId seq stage := by
    rw [exists_same (List.Forall₂.imp (fun _ _ works => works.toSameJob) moved), or_false]
  publishes captureId seq stage := by rw [published_works moved, or_false]
  shapes shaped row member := by
    obtain ⟨before, belongs, works⟩ := mem_right moved member
    exact shaped_same works.toSameJob (shaped before belongs)

variable [EmptyCollection σ] {workers : Workers (CapturePayload δ) σ ρ}
  {queue next : Database (CapturePayload δ) σ ρ} {claim : ClaimedJob (CapturePayload δ) σ}
  {clock : Clock} {news : List (NewJob (CapturePayload δ))}

theorem shaped_added {added : List (Job (CapturePayload δ) σ)}
    (origin : ∀ row ∈ added, ∃ new ∈ news, row = newRow new clock)
    (shaped : ∀ new ∈ news, Shaped digest (newRow (σ := σ) new clock)) :
    ∀ row ∈ added, Shaped digest row := by
  intro row member
  obtain ⟨new, listed, rfl⟩ := origin row member
  exact shaped new listed

variable (digest) in
theorem effect_enqueues (enqueued : Enqueues clock news queue next)
    (shaped : ∀ new ∈ news, Shaped digest (newRow (σ := σ) new clock)) :
    Effect digest queue.jobs.rows next.jobs.rows (fun _ => False)
      fun key => ∃ new ∈ news, new.key = key where
  inserts captureId seq stage := exists_enqueues enqueued
  publishes captureId seq stage := by rw [published_enqueues enqueued, or_false]
  shapes before row member := by
    obtain ⟨added, same, origin⟩ := enqueued.rows
    rw [same] at member
    rcases List.mem_append.mp member with old | new
    · exact before row old
    · exact shaped_added origin shaped row new

variable (digest) in
theorem effect_publishes (faithful : workers.Faithful) (handed : claim ∈ workers.claims)
    (publishes : Publishes claim.lease clock news workers.queue next)
    (shaped : ∀ new ∈ news, Shaped digest (newRow (σ := σ) new clock)) :
    Effect digest workers.queue.jobs.rows next.jobs.rows (fun key => claim.key = key)
      fun key => ∃ new ∈ news, new.key = key where
  inserts captureId seq stage := exists_publishes publishes
  publishes captureId seq stage := published_publishes faithful handed publishes
  shapes before row member := by
    obtain ⟨added, same, origin⟩ := publishes.rows
    rw [same] at member
    rcases List.mem_append.mp member with old | new
    · obtain ⟨first, listed, rfl⟩ := List.mem_map.mp old
      exact shaped_same (publishedRow_lasting _ _ _).toSameJob (before first listed)
    · exact shaped_added origin shaped row new

omit [EmptyCollection σ] in
theorem Effect.trans {third : List (Job (CapturePayload δ) σ)}
    {published inserted published' inserted' : StageKey → Prop}
    (effect : Effect digest rows later published inserted)
    (further : Effect digest later third published' inserted') :
    Effect digest rows third (fun key => published key ∨ published' key)
      fun key => inserted key ∨ inserted' key where
  inserts captureId seq stage := by
    rw [further.inserts, effect.inserts, or_assoc]
  publishes captureId seq stage := by
    rw [further.publishes, effect.publishes, or_assoc]
  shapes shaped := further.shapes (effect.shapes shaped)

omit [EmptyCollection σ] in
/-- A transaction that publishes nothing and inserts at most first stages keeps the chunk's
stages in step. -/
theorem Fanned.keep {published inserted : StageKey → Prop} {captureId : Uuid} {seq : Nat}
    (fanned : Fanned rows (digest captureId seq))
    (effect : Effect digest rows later published inserted)
    (unpublished : ∀ stage, ¬published ⟨1, stage, digest captureId seq⟩)
    (first : ∀ stage, inserted ⟨1, stage, digest captureId seq⟩ → stage = captureStage) :
    Fanned later (digest captureId seq) := by
  have published_ (stage : String) : Published later (digest captureId seq) stage ↔
      Published rows (digest captureId seq) stage := by
    rw [effect.publishes, or_iff_left (unpublished stage)]
  have exists_ (stage : String) (other : stage ≠ captureStage) :
      Exists later (digest captureId seq) stage ↔ Exists rows (digest captureId seq) stage := by
    rw [effect.inserts, or_iff_left fun new => other (first stage new)]
  constructor
  · rw [exists_ _ (by decide), published_]
    exact fanned.asr
  · rw [exists_ _ (by decide), published_]
    exact fanned.deviceText
  · rw [exists_ _ (by decide), published_, published_]
    exact fanned.extraction

theorem mem_successorsOf {stage name : String} {isPublished : String → Bool} :
    name ∈ successorsOf stage isPublished ↔
      (stage = captureStage ∧ (name = "asr" ∨ name = "device_text")) ∨
        (stage = "asr" ∧ isPublished "device_text" = true ∧ name = "claim_extraction") ∨
        (stage = "device_text" ∧ isPublished "asr" = true ∧ name = "claim_extraction") := by
  unfold successorsOf
  by_cases first : stage = captureStage
  · simp [first, captureStage]
  · by_cases asr : stage = "asr"
    · by_cases other : isPublished "device_text" = true <;> simp [asr, captureStage, other]
    · by_cases deviceText : stage = "device_text"
      · by_cases other : isPublished "asr" = true <;> simp [deviceText, captureStage, other]
      · simp [first, asr, deviceText]

omit [EmptyCollection σ] in
/-- Publishing a stage with the successors the source gives it keeps the stages in step: the
second of the two observation stages brings the extraction with it. -/
theorem Fanned.stage {published inserted : StageKey → Prop} {captureId : Uuid} {seq : Nat}
    {stage : String} {isPublished : String → Bool}
    (fanned : Fanned rows (digest captureId seq))
    (effect : Effect digest rows later published inserted)
    (known : captureStages.contains stage = true)
    (current : ∀ name, isPublished name = true ↔ Published rows (digest captureId seq) name)
    (publishes : ∀ name, published ⟨1, name, digest captureId seq⟩ ↔ name = stage)
    (inserts : ∀ name, inserted ⟨1, name, digest captureId seq⟩ ↔
      name ∈ successorsOf stage isPublished) :
    Fanned later (digest captureId seq) := by
  simp only [captureStages, captureStage, List.contains_cons, List.contains_nil, Bool.or_false,
    Bool.or_eq_true, beq_iff_eq] at known
  constructor
  · rw [effect.inserts, effect.publishes, publishes, inserts, mem_successorsOf, fanned.asr]
    rcases known with rfl | rfl | rfl | rfl <;> simp [captureStage]
  · rw [effect.inserts, effect.publishes, publishes, inserts, mem_successorsOf, fanned.deviceText]
    rcases known with rfl | rfl | rfl | rfl <;> simp [captureStage]
  · rw [effect.inserts, effect.publishes, effect.publishes, publishes, publishes, inserts,
      mem_successorsOf, fanned.extraction, current, current]
    rcases known with rfl | rfl | rfl | rfl
    · simp [captureStage]
    · simp only [captureStage, String.reduceEq, false_and, true_and, and_true, false_or, or_false,
        or_true]
      exact or_iff_right_of_imp And.right
    · simp only [captureStage, String.reduceEq, false_and, true_and, and_true, false_or, or_false,
        or_true]
      exact or_iff_right_of_imp And.left
    · simp [captureStage]

end Effects

section Runs

/-- A job under a key that is no chunk's, whose digest is of another text. -/
def Foreign (digest : Uuid → Nat → String) (δ : Type) : Type :=
  { new : NewJob (CapturePayload δ) // ∀ captureId seq, new.key.inputHash ≠ digest captureId seq }

/-- The captures, the queue and the jobs handed to workers. -/
structure Station (δ σ ρ : Type) where
  captures : Captures := {}
  workers : Workers (CapturePayload δ) σ ρ := ⟨.empty, []⟩

inductive Event (digest : Uuid → Nat → String) (δ σ ρ : Type)
  | opened (session : CaptureSession)
  | reserved (captureId : Uuid) (seq endMs : Nat)
  | put (captureId : Uuid) (seq : Nat) (principal : PrincipalId) (jobId : JobId) (clock : Clock)
  | closed (captureId : Uuid) (principal : PrincipalId) (body : CloseRequest) (clock : Clock)
  /-- Any worker publishes any job it was ever handed, as often as it likes. -/
  | published (index : Nat) (result : ρ) (enqueues : List (Foreign digest δ)) (raises : Bool)
      (ids : String → JobId) (clock : Clock)
  | enqueued (new : Foreign digest δ) (clock : Clock)
  | worked (clock : Clock) (call : Call (CapturePayload δ) σ ρ)

variable [EmptyCollection δ] [EmptyCollection σ]

omit [EmptyCollection δ] [EmptyCollection σ] in
def Station.withQueue (station : Station δ σ ρ) (queue : Database (CapturePayload δ) σ ρ) :
    Station δ σ ρ :=
  { station with workers := { station.workers with queue } }

variable (digest) in
def Station.step (station : Station δ σ ρ) : Event digest δ σ ρ → Station δ σ ρ
  | .opened session => { station with captures := openCapture station.captures session }
  | .reserved captureId seq endMs =>
      { station with captures := reserveChunk station.captures captureId seq endMs }
  | .put captureId seq principal jobId clock =>
      let stored := putChunk digest station.captures station.workers.queue captureId seq
        principal jobId clock
      { station.withQueue stored.2 with captures := stored.1 }
  | .closed captureId principal body clock =>
      match closeCapture digest station.captures station.workers.queue captureId principal body
          clock with
      | .error _ => station
      | .ok (captures, queue) => { station.withQueue queue with captures }
  | .published index result enqueues raises ids clock =>
      match station.workers.claims[index]? with
      | none => station
      | some claim =>
          station.withQueue (publishCaptureStage digest station.captures station.workers.queue
            claim result ⟨enqueues.map (·.val), raises⟩ ids clock).2
  | .enqueued new clock =>
      match enqueue station.workers.queue new.val clock with
      | .error _ => station
      | .ok (_, queue) => station.withQueue queue
  | .worked clock call => { station with workers := station.workers.work clock call }

variable (digest) in
def Station.run (events : List (Event digest δ σ ρ)) : Station δ σ ρ :=
  exec (Station.step digest) {} events

def Station.rows (station : Station δ σ ρ) : List (Job (CapturePayload δ) σ) :=
  station.workers.queue.jobs.rows

structure Station.Sound (digest : Uuid → Nat → String) (station : Station δ σ ρ) : Prop where
  faithful : station.workers.Faithful
  shaped : ∀ row ∈ station.rows, Shaped digest row
  fanned : ∀ captureId seq, Fanned station.rows (digest captureId seq)

variable {station : Station δ σ ρ}

omit [EmptyCollection δ] [EmptyCollection σ] in
theorem sound_start : Station.Sound digest ({} : Station δ σ ρ) where
  faithful := ⟨List.nodup_nil, by simp⟩
  shaped row member := by cases member
  fanned captureId seq := by
    constructor <;> simp [Exists, Published, Station.rows, Database.empty, Table.empty]

omit [EmptyCollection δ] [EmptyCollection σ] in
theorem Station.Sound.keep {next : Station δ σ ρ} {published inserted : StageKey → Prop}
    (sound : station.Sound digest) (faithful : next.workers.Faithful)
    (effect : Effect digest station.rows next.rows published inserted)
    (unpublished : ∀ captureId seq stage, ¬published ⟨1, stage, digest captureId seq⟩)
    (first : ∀ captureId seq stage, inserted ⟨1, stage, digest captureId seq⟩ →
      stage = captureStage) : next.Sound digest where
  faithful := faithful
  shaped := effect.shapes sound.shaped
  fanned captureId seq :=
    (sound.fanned captureId seq).keep effect (unpublished captureId seq) (first captureId seq)

omit [EmptyCollection δ] [EmptyCollection σ] in
theorem Station.Sound.moved {queue : Database (CapturePayload δ) σ ρ} {captures : Captures}
    (sound : station.Sound digest) (moved : Moved Works station.workers.queue queue) :
    Station.Sound digest ({ station.withQueue queue with captures } : Station δ σ ρ) := by
  refine sound.keep ?_ (effect_moved moved) (fun _ _ _ => not_false) fun _ _ _ => False.elim
  exact sound.faithful.evolve (List.append_nil _).symm (Moved.lasting moved)
    (keysUnique_of_lasting sound.faithful.unique (Moved.lasting moved))

omit [EmptyCollection δ] in
theorem foreign_shaped (new : Foreign digest δ) (clock : Clock) :
    Shaped digest (newRow (σ := σ) new.val clock) :=
  fun captureId seq same => absurd same (new.property captureId seq)

/-- A transaction's effect on the stages of chunks, which publishes one key at most. -/
def Single (digest : Uuid → Nat → String) (station next : Station δ σ ρ) : Prop :=
  ∃ published inserted, Effect digest station.rows next.rows published inserted ∧
    ∀ first second, published first → published second → first = second

omit [EmptyCollection δ] [EmptyCollection σ] in
theorem single_moved {queue : Database (CapturePayload δ) σ ρ} {captures : Captures}
    (moved : Moved Works station.workers.queue queue) :
    Single digest station ({ station.withQueue queue with captures } : Station δ σ ρ) :=
  ⟨_, _, effect_moved moved, fun _ _ => False.elim⟩

theorem cancelAll_moved (queue : Database (CapturePayload δ) σ ρ) (jobs : List JobId)
    (clock : Clock) : Moved Works queue (cancelAll queue jobs clock) := by
  induction jobs generalizing queue with
  | nil => exact moved_refl queue
  | cons jobId rest ih =>
      exact (requestCancel_moved queue jobId clock).trans Works.trans (ih _)

theorem closeCapture_moved {captures next : Captures}
    {queue later : Database (CapturePayload δ) σ ρ} {captureId : Uuid} {principal : PrincipalId}
    {body : CloseRequest} {clock : Clock}
    (accepted : closeCapture digest captures queue captureId principal body clock =
      .ok (next, later)) : Moved Works queue later := by
  simp only [closeCapture] at accepted
  split at accepted
  · cases accepted
  · split at accepted
    · split at accepted
      · cases accepted
      · simp only [Except.ok.injEq, Prod.mk.injEq] at accepted
        rw [← accepted.2]
        exact moved_refl queue
    · split at accepted
      · cases accepted
      · split at accepted
        · cases accepted
        · simp only [Except.ok.injEq, Prod.mk.injEq] at accepted
          rw [← accepted.2]
          split
          · exact moved_refl queue
          · exact cancelAll_moved _ _ _

omit [EmptyCollection δ] in
theorem Station.Sound.enqueues {queue : Database (CapturePayload δ) σ ρ} {captures : Captures}
    {new : NewJob (CapturePayload δ)} {clock : Clock} (sound : station.Sound digest)
    (enqueued : Enqueues clock [new] station.workers.queue queue)
    (shaped : Shaped digest (newRow (σ := σ) new clock))
    (first : ∀ captureId seq stage, new.key = ⟨1, stage, digest captureId seq⟩ →
      stage = captureStage) :
    Station.Sound digest ({ station.withQueue queue with captures } : Station δ σ ρ) ∧
      Single digest station ({ station.withQueue queue with captures } : Station δ σ ρ) := by
  have effect := effect_enqueues digest enqueued
    (by simpa using shaped)
  refine ⟨sound.keep (sound.faithful.enqueues enqueued) effect (fun _ _ _ => not_false) ?_,
    _, _, effect, fun _ _ => False.elim⟩
  rintro captureId seq stage ⟨other, listed, key⟩
  rw [List.mem_singleton.mp listed] at key
  exact first captureId seq stage key

omit [EmptyCollection δ] in
theorem successor_shaped {captureId : Uuid} {seq : Nat} {ownerId : PrincipalId}
    {ids : String → JobId} {stage : String} {clock : Clock}
    (known : captureStages.contains stage = true) :
    Shaped digest (newRow (σ := σ)
      (successorJob (δ := δ) digest captureId seq ownerId ids stage) clock) :=
  fun _ _ _ => ⟨known, captureId, seq, rfl, rfl⟩

omit [EmptyCollection δ] in
theorem Station.Sound.publication {claim : ClaimedJob (CapturePayload δ) σ}
    {enqueues : List (Foreign digest δ)} {raises : Bool} {ids : String → JobId} {clock : Clock}
    {queue : Database (CapturePayload δ) σ ρ} (sound : station.Sound digest)
    (handed : claim ∈ station.workers.claims)
    (outcome : Outcome digest station.captures station.workers.queue claim
      ⟨enqueues.map (·.val), raises⟩ ids clock queue) :
    (station.withQueue queue).Sound digest ∧ Single digest station (station.withQueue queue) := by
  have foreign : ∀ new ∈ enqueues.map (·.val), Shaped digest (newRow (σ := σ) new clock) := by
    intro new member
    obtain ⟨other, -, rfl⟩ := List.mem_map.mp member
    exact foreign_shaped other clock
  have apart : ∀ captureId seq stage,
      ¬∃ new ∈ enqueues.map (·.val), new.key = ⟨1, stage, digest captureId seq⟩ := by
    rintro captureId seq stage ⟨new, member, key⟩
    obtain ⟨other, -, rfl⟩ := List.mem_map.mp member
    exact other.property captureId seq (by rw [key])
  cases outcome with
  | withheld moved => exact ⟨sound.moved moved, single_moved moved⟩
  | alone publishes free =>
      have effect := effect_publishes digest sound.faithful handed publishes foreign
      refine ⟨sound.keep (sound.faithful.publishes publishes) effect ?_ ?_, _, _, effect, ?_⟩
      · intro captureId seq stage key
        obtain ⟨row, member, -, sameKey, payload, -⟩ := sound.faithful.handed claim handed
        obtain ⟨known, otherId, otherSeq, chunk, -⟩ := sound.shaped row member captureId seq
          (by rw [sameKey, key])
        rw [sameKey, free _ _ (payload.symm.trans chunk)] at known
        cases known
      · intro captureId seq stage new
        exact absurd new (apart captureId seq stage)
      · intro first second one two
        exact one.symm.trans two
  | @stage captureId seq session middle _ payload key known found allowed ready publishes
      enqueued =>
      have first := effect_publishes digest sound.faithful handed publishes foreign
      have successors : ∀ new : NewJob (CapturePayload δ), new ∈
          (successorsOf claim.key.stage (stagePublished digest station.workers.queue captureId
            seq)).map (successorJob digest captureId seq session.ownerId ids) →
          Shaped digest (newRow (σ := σ) new clock) := by
        intro new member
        obtain ⟨name, listed, rfl⟩ := List.mem_map.mp member
        apply successor_shaped
        rcases mem_successorsOf.mp listed with ⟨-, rfl | rfl⟩ | ⟨-, -, rfl⟩ | ⟨-, -, rfl⟩ <;> decide
      have effect := first.trans (effect_enqueues digest enqueued successors)
      have faithful : (station.withQueue queue).workers.Faithful :=
        (sound.faithful.publishes publishes).enqueues enqueued
      refine ⟨⟨faithful, effect.shapes sound.shaped, ?_⟩, _, _, effect, ?_⟩
      · intro otherId otherSeq
        by_cases same : digest otherId otherSeq = digest captureId seq
        · rw [same]
          apply (sound.fanned captureId seq).stage effect known
          · intro name
            exact stagePublished_iff sound.faithful.unique
          · intro name
            rw [or_false, key]
            simp [stageKey, eq_comm]
          · intro name
            rw [or_iff_right (apart captureId seq name)]
            simp [successorJob, stageKey]
        · apply (sound.fanned otherId otherSeq).keep effect
          · rintro stage (publishes | nothing)
            · rw [key] at publishes
              exact same (congrArg StageKey.inputHash publishes).symm
            · exact nothing
          · rintro stage (new | ⟨new, member, newKey⟩)
            · exact absurd new (apart otherId otherSeq stage)
            · obtain ⟨name, -, rfl⟩ := List.mem_map.mp member
              exact absurd (congrArg StageKey.inputHash newKey).symm same
      · rintro one two (first | nothing) (second | nothing')
        · exact first.symm.trans second
        all_goals contradiction

theorem Station.Sound.step (sound : station.Sound digest) (event : Event digest δ σ ρ) :
    (station.step digest event).Sound digest ∧
      Single digest station (station.step digest event) := by
  have unmoved (captures : Captures) :
      Station.Sound digest ({ station with captures } : Station δ σ ρ) ∧
        Single digest station ({ station with captures } : Station δ σ ρ) :=
    ⟨sound.moved (moved_refl _), single_moved (moved_refl _)⟩
  cases event with
  | opened session => exact unmoved _
  | reserved captureId seq endMs => exact unmoved _
  | put captureId seq principal jobId clock =>
      simp only [Station.step, putChunk]
      split
      · split
        · exact unmoved station.captures
        · split
          · exact unmoved station.captures
          · rename_i queued next accepted
            apply sound.enqueues (enqueue_enqueues accepted)
            · exact fun _ _ _ => ⟨rfl, captureId, seq, rfl, rfl⟩
            · intro otherId otherSeq stage key
              exact (congrArg StageKey.stage key).symm
      · exact unmoved station.captures
  | closed captureId principal body clock =>
      simp only [Station.step]
      split
      · exact unmoved station.captures
      · rename_i captures queue accepted
        have moved := closeCapture_moved accepted
        exact ⟨sound.moved moved, single_moved moved⟩
  | published index result enqueues raises ids clock =>
      simp only [Station.step]
      split
      · exact unmoved station.captures
      · rename_i claim handed
        exact sound.publication (List.mem_of_getElem? handed) publishCaptureStage_outcome
  | enqueued new clock =>
      simp only [Station.step]
      split
      · exact unmoved station.captures
      · rename_i answer queue accepted
        apply sound.enqueues (enqueue_enqueues accepted)
        · exact foreign_shaped new clock
        · intro captureId seq stage key
          exact absurd (congrArg StageKey.inputHash key) (new.property captureId seq)
  | worked clock call =>
      have moved := station.workers.work_moved clock call
      refine ⟨sound.keep (sound.faithful.work clock call) (effect_moved moved)
        (fun _ _ _ => not_false) fun _ _ _ => False.elim, _, _, effect_moved moved,
        fun _ _ => False.elim⟩

theorem sound_run (events : List (Event digest δ σ ρ)) :
    (Station.run digest events).Sound digest :=
  exec_invariant (Station.Sound digest) (fun _ event sound => (sound.step event).1) sound_start
    events

end Runs

section Stopping

variable {station next : Station δ σ ρ} {captureId : Uuid}

def Stopped (captures : Captures) (captureId : Uuid) : Prop :=
  ∃ session, captures.sessions.find? captureId = some session ∧ session.closed = true ∧
    session.continueResearch = some false

def StageOf (digest : Uuid → Nat → String) (captureId : Uuid) (row : Job (CapturePayload δ) σ) :
    Prop :=
  ∃ seq, row.payload = .chunk (some captureId) (some seq) ∧
    row.key = stageKey digest captureId seq row.key.stage ∧
    captureStages.contains row.key.stage = true

theorem StageOf.of_same {row later : Job (CapturePayload δ) σ} (same : SameJob row later)
    (stage : StageOf digest captureId later) : StageOf digest captureId row := by
  obtain ⟨seq, payload, key, known⟩ := stage
  rw [same.key] at key known
  exact ⟨seq, same.payload.symm.trans payload, key, known⟩

/-- No stage of the capture was enqueued or published. -/
def Halts (digest : Uuid → Nat → String) (captureId : Uuid) (station next : Station δ σ ρ) :
    Prop :=
  ∀ row ∈ next.rows, StageOf digest captureId row → ∃ before ∈ station.rows,
    SameJob before row ∧ (row.state = .published → before.state = .published)

theorem Halts.refl (station : Station δ σ ρ) : Halts digest captureId station station :=
  fun row member _ => ⟨row, member, .refl row, id⟩

theorem Halts.trans {third : Station δ σ ρ} (halts : Halts digest captureId station next)
    (further : Halts digest captureId next third) : Halts digest captureId station third := by
  intro row member stage
  obtain ⟨middle, listed, same, published⟩ := further row member stage
  obtain ⟨first, belongs, equal, earlier⟩ := halts middle listed (stage.of_same same)
  exact ⟨first, belongs, equal.trans same, earlier ∘ published⟩

theorem halts_moved (moved : Moved Works station.workers.queue next.workers.queue) :
    Halts digest captureId station next := by
  intro row member _
  obtain ⟨before, belongs, works⟩ := mem_right moved member
  exact ⟨before, belongs, works.toSameJob, works.published.mp⟩

theorem foreign_not_stage [EmptyCollection σ] (new : Foreign digest δ) (clock : Clock) :
    ¬StageOf digest captureId (newRow (σ := σ) new.val clock) := by
  rintro ⟨seq, -, key, -⟩
  exact new.property captureId seq (congrArg StageKey.inputHash key)

theorem other_not_stage [EmptyCollection σ] {new : NewJob (CapturePayload δ)} {clock : Clock}
    {otherId : Uuid} {seq : Nat} (payload : new.payload = .chunk (some otherId) (some seq))
    (other : otherId ≠ captureId) :
    ¬StageOf digest captureId (newRow (σ := σ) new clock) := by
  rintro ⟨otherSeq, same, -, -⟩
  have equal := payload.symm.trans same
  simp only [CapturePayload.chunk.injEq, Option.some.injEq] at equal
  exact other equal.1

variable [EmptyCollection σ] {clock : Clock} {news : List (NewJob (CapturePayload δ))}

theorem halts_enqueues {middle : Database (CapturePayload δ) σ ρ}
    (before : Halts digest captureId station (station.withQueue middle))
    (enqueued : Enqueues clock news middle next.workers.queue)
    (other : ∀ new ∈ news, ¬StageOf digest captureId (newRow (σ := σ) new clock)) :
    Halts digest captureId station next := by
  intro row member stage
  obtain ⟨added, rows, origin⟩ := enqueued.rows
  rw [Station.rows, rows] at member
  rcases List.mem_append.mp member with old | added
  · exact before row old stage
  · obtain ⟨new, listed, rfl⟩ := origin row added
    exact absurd stage (other new listed)

theorem halts_publishes {claim : ClaimedJob (CapturePayload δ) σ}
    (faithful : station.workers.Faithful) (handed : claim ∈ station.workers.claims)
    (publishes : Publishes claim.lease clock news station.workers.queue next.workers.queue)
    (mine : ∀ row ∈ station.rows, row.key = claim.key → row.payload = claim.payload →
      ¬StageOf digest captureId row)
    (other : ∀ new ∈ news, ¬StageOf digest captureId (newRow (σ := σ) new clock)) :
    Halts digest captureId station next := by
  intro row member stage
  obtain ⟨added, rows, origin⟩ := publishes.rows
  rw [Station.rows, rows] at member
  rcases List.mem_append.mp member with old | added
  · obtain ⟨before, belongs, rfl⟩ := List.mem_map.mp old
    have same := (publishedRow_lasting claim.lease clock before).toSameJob
    refine ⟨before, belongs, same, ?_⟩
    by_cases active : Jobs.active claim.lease clock before = true
    · obtain ⟨job, listed, id, key, payload, -⟩ := faithful.handed claim handed
      have holds := active
      simp only [Jobs.active, Bool.and_eq_true] at holds
      obtain rfl := Table.eq_of_key belongs listed ((owned_id holds.1.1.1).trans id.symm)
      exact absurd (stage.of_same same) (mine before listed key payload)
    · rw [publishedRow, if_neg active]
      exact id
  · obtain ⟨new, listed, rfl⟩ := origin row added
    exact absurd stage (other new listed)

theorem Outcome.halts {claim : ClaimedJob (CapturePayload δ) σ}
    {enqueues : List (Foreign digest δ)} {raises : Bool} {ids : String → JobId}
    {queue : Database (CapturePayload δ) σ ρ} (stopped : Stopped station.captures captureId)
    (faithful : station.workers.Faithful) (handed : claim ∈ station.workers.claims)
    (outcome : Outcome digest station.captures station.workers.queue claim
      ⟨enqueues.map (·.val), raises⟩ ids clock queue) :
    Halts digest captureId station (station.withQueue queue) := by
  have foreign : ∀ new ∈ enqueues.map (·.val),
      ¬StageOf digest captureId (newRow (σ := σ) new clock) := by
    intro new member
    obtain ⟨other, -, rfl⟩ := List.mem_map.mp member
    exact foreign_not_stage other clock
  cases outcome with
  | withheld moved => exact halts_moved moved
  | alone publishes free =>
      apply halts_publishes faithful handed publishes _ foreign
      rintro row - key payload ⟨seq, chunk, -, known⟩
      rw [key, free _ _ (payload.symm.trans chunk)] at known
      cases known
  | @stage otherId seq session middle _ payload key known found allowed ready publishes
      enqueued =>
      have other : otherId ≠ captureId := by
        rintro rfl
        obtain ⟨stored, same, -, research⟩ := stopped
        obtain rfl := Option.some.inj (found.symm.trans same)
        exact allowed research
      have first : Halts digest captureId station (station.withQueue middle) := by
        apply halts_publishes faithful handed publishes _ foreign
        rintro row - - rowPayload ⟨otherSeq, chunk, -, -⟩
        have equal := payload.symm.trans (rowPayload.symm.trans chunk)
        simp only [CapturePayload.chunk.injEq, Option.some.injEq] at equal
        exact other equal.1
      apply halts_enqueues first enqueued
      intro new member
      obtain ⟨name, -, rfl⟩ := List.mem_map.mp member
      exact other_not_stage rfl other

omit [EmptyCollection σ] in
theorem stopped_open {captures : Captures} (stopped : Stopped captures captureId)
    (session : CaptureSession) : Stopped (openCapture captures session) captureId := by
  obtain ⟨stored, found, closed⟩ := stopped
  unfold openCapture
  split
  · exact ⟨stored, found, closed⟩
  · rename_i sessions inserted
    refine ⟨stored, ?_, closed⟩
    rw [Table.find?_insert? inserted, if_neg]
    · exact found
    · intro same
      have fresh := Table.insert?_fresh inserted
      rw [same, found] at fresh
      cases fresh

theorem reserve_sessions (captures : Captures) (captureId : Uuid) (seq endMs : Nat) :
    (reserveChunk captures captureId seq endMs).sessions = captures.sessions := by
  unfold reserveChunk
  split
  · rfl
  · split
    · rfl
    · split <;> rfl

theorem put_sessions (captures : Captures) (queue : Database (CapturePayload δ) σ ρ)
    (captureId : Uuid) (seq : Nat) (principal : PrincipalId) (jobId : JobId) (clock : Clock) :
    (putChunk digest captures queue captureId seq principal jobId clock).1.sessions =
      captures.sessions := by
  unfold putChunk
  split
  · split
    · rfl
    · split <;> rfl
  · rfl

omit [EmptyCollection σ] in
theorem closeCapture_sessions [EmptyCollection δ] {captures later : Captures}
    {queue after : Database (CapturePayload δ) σ ρ} {otherId : Uuid} {principal : PrincipalId}
    {body : CloseRequest}
    (accepted : closeCapture digest captures queue otherId principal body clock =
      .ok (later, after)) :
    (∃ session, captures.sessions.find? otherId = some session ∧ session.closed = true ∧
        session.continueResearch = some body.continueResearch ∧
        later.sessions = captures.sessions) ∨
      ∃ session duration, captures.sessions.find? otherId = some session ∧
        session.closed = false ∧
        later.sessions = captures.sessions.update (·.id == otherId)
          (closed duration body.continueResearch) (closed_key duration body.continueResearch) := by
  simp only [closeCapture] at accepted
  split at accepted
  · cases accepted
  · rename_i session owned
    have found := (Option.filter_eq_some_iff.mp owned).1
    split at accepted
    · rename_i isClosed
      split at accepted
      · cases accepted
      · rename_i agrees
        simp only [Except.ok.injEq, Prod.mk.injEq] at accepted
        simp only [not_or, not_not] at agrees
        rw [← accepted.1]
        exact Or.inl ⟨session, found, isClosed, agrees.1, rfl⟩
    · rename_i isOpen
      split at accepted
      · cases accepted
      · split at accepted
        · cases accepted
        · simp only [Except.ok.injEq, Prod.mk.injEq] at accepted
          rw [← accepted.1]
          exact Or.inr ⟨session, _, found, by simpa using isOpen, rfl⟩

omit [EmptyCollection σ] in
theorem closeCapture_stops [EmptyCollection δ] {captures later : Captures}
    {queue after : Database (CapturePayload δ) σ ρ} {principal : PrincipalId}
    {body : CloseRequest}
    (accepted : closeCapture digest captures queue captureId principal body clock =
      .ok (later, after)) (stops : body.continueResearch = false) : Stopped later captureId := by
  rcases closeCapture_sessions accepted with
    ⟨session, found, isClosed, research, same⟩ | ⟨session, duration, found, isOpen, updated⟩
  · rw [stops] at research
    exact ⟨session, by rw [same]; exact found, isClosed, research⟩
  · refine ⟨closed duration body.continueResearch session, ?_, rfl, congrArg some stops⟩
    have key : session.id = captureId := Table.find?_key found
    rw [updated, Table.find?_update, found, Option.map_some, if_pos (by simpa using key)]

omit [EmptyCollection σ] in
theorem Stopped.close [EmptyCollection δ] {captures later : Captures}
    {queue after : Database (CapturePayload δ) σ ρ} {otherId : Uuid} {principal : PrincipalId}
    {body : CloseRequest} (stopped : Stopped captures captureId)
    (accepted : closeCapture digest captures queue otherId principal body clock =
      .ok (later, after)) : Stopped later captureId := by
  obtain ⟨stored, kept, isClosed, research⟩ := stopped
  rcases closeCapture_sessions accepted with
    ⟨session, found, -, -, same⟩ | ⟨session, duration, found, isOpen, updated⟩
  · exact ⟨stored, by rw [same]; exact kept, isClosed, research⟩
  · refine ⟨stored, ?_, isClosed, research⟩
    have key : stored.id = captureId := Table.find?_key kept
    rw [updated, Table.find?_update, kept, Option.map_some, if_neg]
    intro same
    rw [beq_iff_eq, key] at same
    rw [same, found] at kept
    obtain rfl := Option.some.inj kept
    rw [isOpen] at isClosed
    cases isClosed

theorem Stopped.step [EmptyCollection δ] (stopped : Stopped station.captures captureId)
    (sound : station.Sound digest) (event : Event digest δ σ ρ) :
    Stopped (station.step digest event).captures captureId ∧
      Halts digest captureId station (station.step digest event) := by
  have unmoved {captures : Captures} (stays : Stopped captures captureId) :
      Stopped captures captureId ∧
        Halts digest captureId station { station with captures } :=
    ⟨stays, halts_moved (moved_refl _)⟩
  cases event with
  | opened session => exact unmoved (stopped_open stopped session)
  | reserved otherId seq endMs =>
      apply unmoved
      obtain ⟨stored, found, closed⟩ := stopped
      refine ⟨stored, ?_, closed⟩
      simp only [Station.step, reserve_sessions]
      exact found
  | put otherId seq principal jobId clock =>
      simp only [Station.step]
      constructor
      · obtain ⟨stored, found, closed⟩ := stopped
        exact ⟨stored, by rw [put_sessions]; exact found, closed⟩
      · unfold putChunk
        split
        · rename_i session chunk held _
          split
          · exact halts_moved (moved_refl _)
          · rename_i accepts
            split
            · exact halts_moved (moved_refl _)
            · rename_i queued after accepted
              apply halts_enqueues (Halts.refl station) (enqueue_enqueues accepted)
              intro new member
              rw [List.mem_singleton.mp member]
              apply other_not_stage rfl
              rintro rfl
              obtain ⟨stored, found, isClosed, -⟩ := stopped
              obtain rfl := Option.some.inj (held.symm.trans found)
              exact accepts (Or.inr (Or.inr isClosed))
        · exact halts_moved (moved_refl _)
  | closed otherId principal body clock =>
      simp only [Station.step]
      split
      · exact unmoved stopped
      · rename_i captures queue accepted
        exact ⟨stopped.close accepted, halts_moved (closeCapture_moved accepted)⟩
  | published index result enqueues raises ids clock =>
      simp only [Station.step]
      split
      · exact unmoved stopped
      · rename_i claim handed
        exact ⟨stopped, Outcome.halts stopped sound.faithful (List.mem_of_getElem? handed)
          publishCaptureStage_outcome⟩
  | enqueued new clock =>
      simp only [Station.step]
      split
      · exact unmoved stopped
      · rename_i answer queue accepted
        refine ⟨stopped, halts_enqueues (Halts.refl station) (enqueue_enqueues accepted) ?_⟩
        intro other member
        rw [List.mem_singleton.mp member]
        exact foreign_not_stage new clock
  | worked clock call => exact ⟨stopped, halts_moved (station.workers.work_moved clock call)⟩

end Stopping

section Laws

variable [EmptyCollection δ] [EmptyCollection σ] {station : Station δ σ ρ}

omit [EmptyCollection δ] [EmptyCollection σ] in
theorem Single.lasting {next : Station δ σ ρ} (single : Single digest station next)
    {captureId : Uuid} {seq : Nat} {stage : String}
    (exists_ : Exists station.rows (digest captureId seq) stage) :
    Exists next.rows (digest captureId seq) stage := by
  obtain ⟨published, inserted, effect, -⟩ := single
  exact (effect.inserts captureId seq stage).mpr (Or.inl exists_)

/-- What fan-out and fan-in promise in one state, of each chunk. -/
structure Lawful (digest : Uuid → Nat → String) (station : Station δ σ ρ) : Prop where
  single : ∀ captureId seq stage,
    (station.rows.filter (·.key == stageKey digest captureId seq stage)).length ≤ 1
  observed : ∀ captureId seq stage, stage = "asr" ∨ stage = "device_text" →
    (Exists station.rows (digest captureId seq) stage ↔
      Published station.rows (digest captureId seq) captureStage)
  extracted : ∀ captureId seq, Exists station.rows (digest captureId seq) "claim_extraction" ↔
    Published station.rows (digest captureId seq) "asr" ∧
      Published station.rows (digest captureId seq) "device_text"
  /-- A stage appears in the transaction that publishes the one it waited for. -/
  together : ∀ (event : Event digest δ σ ρ) captureId seq stage,
    stage = "asr" ∨ stage = "device_text" →
    ¬Exists station.rows (digest captureId seq) stage →
    Exists (station.step digest event).rows (digest captureId seq) stage →
    ¬Published station.rows (digest captureId seq) captureStage ∧
      Published (station.step digest event).rows (digest captureId seq) captureStage
  joined : ∀ (event : Event digest δ σ ρ) captureId seq,
    ¬Exists station.rows (digest captureId seq) "claim_extraction" →
    Exists (station.step digest event).rows (digest captureId seq) "claim_extraction" →
    (Published station.rows (digest captureId seq) "asr" ↔
        ¬Published station.rows (digest captureId seq) "device_text") ∧
      Published (station.step digest event).rows (digest captureId seq) "asr" ∧
      Published (station.step digest event).rows (digest captureId seq) "device_text"
  lasting : ∀ (events : List (Event digest δ σ ρ)) captureId seq stage,
    Exists station.rows (digest captureId seq) stage →
    Exists (exec (Station.step digest) station events).rows (digest captureId seq) stage
  stops : ∀ captureId principal body clock captures queue,
    closeCapture digest station.captures station.workers.queue captureId principal body clock =
      .ok (captures, queue) → body.continueResearch = false →
    ∀ events : List (Event digest δ σ ρ),
      Halts digest captureId { station.withQueue queue with captures }
        (exec (Station.step digest) { station.withQueue queue with captures } events)

theorem Station.Sound.lawful (sound : station.Sound digest) : Lawful digest station where
  single captureId seq stage := by
    have unique := List.nodup_iff_count_le_one.mp sound.faithful.unique
      (stageKey digest captureId seq stage)
    rwa [List.count, List.countP_map, List.countP_eq_length_filter] at unique
  observed captureId seq stage := by
    rintro (rfl | rfl)
    · exact (sound.fanned captureId seq).asr
    · exact (sound.fanned captureId seq).deviceText
  extracted captureId seq := (sound.fanned captureId seq).extraction
  together event captureId seq stage named absent appears := by
    have after := (sound.step event).1.fanned captureId seq
    have before := sound.fanned captureId seq
    rcases named with rfl | rfl
    · exact ⟨fun published => absent (before.asr.mpr published), after.asr.mp appears⟩
    · exact ⟨fun published => absent (before.deviceText.mpr published),
        after.deviceText.mp appears⟩
  joined event captureId seq absent appears := by
    obtain ⟨next, published, inserted, effect, one⟩ := sound.step event
    have both := (next.fanned captureId seq).extraction.mp appears
    refine ⟨?_, both⟩
    have before := mt (sound.fanned captureId seq).extraction.mpr absent
    constructor
    · intro asr deviceText
      exact before ⟨asr, deviceText⟩
    · intro unpublished
      by_contra asr
      rw [effect.publishes, effect.publishes] at both
      have same := one _ _ (both.1.resolve_left asr) (both.2.resolve_left unpublished)
      simp at same
  lasting events captureId seq stage exists_ := by
    have kept := exec_invariant
      (fun later => Station.Sound digest later ∧ Exists later.rows (digest captureId seq) stage)
      (fun _ event holds => ⟨(holds.1.step event).1, (holds.1.step event).2.lasting holds.2⟩)
      ⟨sound, exists_⟩ events
    exact kept.2
  stops captureId principal body clock captures queue accepted stopping events := by
    have start : Station.Sound digest ({ station.withQueue queue with captures } : Station δ σ ρ) :=
      sound.moved (closeCapture_moved accepted)
    have stopped : Stopped captures captureId := closeCapture_stops accepted stopping
    exact exec_relation
      (fun later => Station.Sound digest later ∧ Stopped later.captures captureId)
      Halts.refl Halts.trans
      (fun _ event holds => ⟨(holds.1.step event).1, (holds.2.step holds.1 event).1⟩)
      (fun _ event holds => (holds.2.step holds.1 event).2) ⟨start, stopped⟩ events

/-- However publications, uploads, closes, cancellations and other work follow each other, the
stages of a chunk fan out and in as one. -/
theorem capture_fan_out (events : List (Event digest δ σ ρ)) :
    Lawful digest (Station.run digest events) :=
  (sound_run events).lawful

end Laws

end Ovrly.Pipeline.Capture
