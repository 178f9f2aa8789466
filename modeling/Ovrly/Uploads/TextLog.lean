import Ovrly.Uploads.DeviceText
import Ovrly.Runs

/-!
The stored device text is an append-only log: what a batch once stored, every later state of
the document holds, and a completion closes it.
-/

namespace Ovrly.Uploads

open Runs JsonSize Ovrly.Reports Ovrly.Jobs Ovrly.Extraction

variable {source : TextUpload} {document next : Option TextDocument} {rows : TextRows}

def stored (document : Option TextDocument) : List StoredBatch :=
  (document.map (·.batches)).getD []

section Batches

theorem framesOf_perm {batches others : List StoredBatch} (same : batches.Perm others) :
    (framesOf batches).Perm (framesOf others) := same.flatMap_right _

theorem observationsOf_perm {batches others : List StoredBatch} (same : batches.Perm others) :
    (observationsOf batches).Perm (observationsOf others) := (framesOf_perm same).flatMap_right _

theorem storedSize_perm {batches others : List StoredBatch} (same : batches.Perm others) :
    storedSize batches = storedSize others := arraySize_perm (same.map _)

theorem repeats_eq_false {α : Type} [DecidableEq α] {values : List α} :
    repeats values = false ↔ values.Nodup := by
  simp only [repeats, bne_eq_false_iff_eq]
  constructor
  · intro same
    rw [← (List.dedup_sublist values).eq_of_length same]
    exact List.nodup_dedup values
  · intro distinct
    rw [distinct.dedup]

structure Bounded (batches : List StoredBatch) : Prop where
  times : ((framesOf batches).map (·.framePts)).Nodup
  observations : ((observationsOf batches).map (·.id)).Nodup
  frameCount : (framesOf batches).length ≤ 1200
  observationCount : (observationsOf batches).length ≤ 5000
  size : storedSize batches ≤ maxStoredBytes

theorem Bounded.perm {batches others : List StoredBatch} (bounded : Bounded batches)
    (same : batches.Perm others) : Bounded others where
  times := ((framesOf_perm same).map _).nodup_iff.mp bounded.times
  observations := ((observationsOf_perm same).map _).nodup_iff.mp bounded.observations
  frameCount := (framesOf_perm same).length_eq ▸ bounded.frameCount
  observationCount := (observationsOf_perm same).length_eq ▸ bounded.observationCount
  size := by
    rw [← storedSize_perm same]
    exact bounded.size

theorem bounded_nil : Bounded [] where
  times := List.nodup_nil
  observations := List.nodup_nil
  frameCount := by simp [framesOf]
  observationCount := by simp [observationsOf, framesOf]
  size := by decide

theorem extended_ok {batches all : List StoredBatch} {batchId : Nat} {body : TextBatch}
    (accepted : extended batches batchId body = .ok all) :
    (batches ++ [StoredBatch.mk batchId body]).Perm all ∧ Bounded all := by
  unfold extended at accepted
  simp only [bind, Except.bind, throw, throwThe, MonadExceptOf.throw, pure, Except.pure] at accepted
  split at accepted
  · cases accepted
  split at accepted
  · cases accepted
  rename_i distinct
  split at accepted
  · cases accepted
  rename_i fits
  simp only [Bool.or_eq_true, not_or, Bool.not_eq_true, repeats_eq_false] at distinct
  simp only [not_or, not_lt, gt_iff_lt] at fits
  simp only [Except.ok.injEq] at accepted
  have same : (batches ++ [StoredBatch.mk batchId body]).Perm all :=
    accepted ▸ (List.mergeSort_perm _ _).symm
  have bounded : Bounded (batches ++ [StoredBatch.mk batchId body]) :=
    ⟨distinct.1, distinct.2, fits.1, fits.2.1, fits.2.2⟩
  exact ⟨same, bounded.perm same⟩

end Batches

section Steps

def Live (rows : TextRows) : Prop :=
  ∃ job, rows.textJob = some job ∧ job.state ≠ .deleted ∧ job.state ≠ .cancelled ∧
    job.cancelRequested = false

def readOf (source : TextUpload) (document : TextDocument) : DeviceTextRead where
  uploadId := source.uploadId
  sourceSha256 := source.declaredSha256
  status := if document.completion.isSome then .completed else .receiving
  jobId := some document.jobId
  batches := document.batches
  completion := document.completion

theorem textState_live {current : TextDocument} (live : Live rows) :
    textState (some current) rows.textJob =
      .ok (if current.completion.isSome then .completed else .receiving) := by
  obtain ⟨job, found, present, uncancelled, unflagged⟩ := live
  simp only [textState, found, if_neg present, unflagged, uncancelled, Bool.false_eq_true, or_self,
    if_false]
  split <;> rfl

theorem snapshot_live {current : TextDocument} (live : Live rows) :
    snapshot source (some current) rows.textJob = .ok (readOf source current) := by
  unfold snapshot
  rw [textState_live live]
  rfl

theorem accepts_ok {body : TextSource} (accepted : accepts source document rows body = .ok ()) :
    (∀ current, document = some current →
      current.mediaJobId = source.mediaJobId ∧ Live rows) ∧
    body.uploadId = source.uploadId ∧ body.sourceSha256 = source.declaredSha256 := by
  unfold accepts at accepted
  simp only [bind, Except.bind, throw, throwThe, MonadExceptOf.throw, pure, Except.pure] at accepted
  split at accepted
  · cases accepted
  rename_i checked
  split at accepted
  · cases accepted
  rename_i same
  simp only [not_or, not_not] at same
  refine ⟨?_, same⟩
  rintro current rfl
  split at accepted
  · cases accepted
  rename_i status known
  constructor
  · unfold eligible at checked
    split at checked
    · cases checked
    · rename_i belongs
      simpa using belongs
  · simp only [textState] at known
    split at known
    · cases known
    · rename_i job found
      split at known
      · cases known
      rename_i present
      split at known
      · simp only [Except.ok.injEq] at known
        subst known
        simp at accepted
      · rename_i going
        simp only [not_or, Bool.not_eq_true] at going
        exact ⟨job, found, present, going.2, going.1⟩

theorem accepts_live {current : TextDocument} {body : TextSource} (live : Live rows)
    (media : current.mediaJobId = source.mediaJobId) (upload : body.uploadId = source.uploadId)
    (sha : body.sourceSha256 = source.declaredSha256) :
    accepts source (some current) rows body = .ok () := by
  unfold accepts eligible
  simp only [Option.any_some, media, bne_self_eq_false, Bool.false_eq_true, if_false, upload, sha,
    ne_eq, not_true_eq_false, or_self, textState_live live, bind, Except.bind, pure, Except.pure]
  split <;> rfl

def withBatches (source : TextUpload) (document : Option TextDocument) (rows : TextRows)
    (batches : List StoredBatch) : TextDocument :=
  match document with
  | none => ⟨rows.jobId, source.mediaJobId, batches, none⟩
  | some current => { current with batches }

def withCompletion (source : TextUpload) (document : Option TextDocument) (rows : TextRows)
    (completion : TextCompletion) : TextDocument :=
  match document with
  | none => ⟨rows.jobId, source.mediaJobId, [], some completion⟩
  | some current => { current with completion := some completion }

theorem putBatch_ok {batchId : Nat} {body : TextBatch} {read : DeviceTextRead}
    (accepted : putBatch source document rows batchId body = .ok (read, next)) :
    accepts source document rows body.toTextSource = .ok () ∧
      (∀ frame ∈ body.frames, frame.framePts < source.totalMs) ∧
      ((∃ previous, (stored document).find? (·.batchId == batchId) = some previous ∧
          previous.body = body ∧ next = document ∧
          snapshot source document rows.textJob = .ok read) ∨
        ((stored document).find? (·.batchId == batchId) = none ∧
          (∀ current, document = some current → current.completion = none) ∧
          ∃ all, extended (stored document) batchId body = .ok all ∧
            next = some (withBatches source document rows all) ∧
            snapshot source next (rows.created document) = .ok read)) := by
  unfold putBatch at accepted
  simp only [bind, Except.bind, throw, throwThe, MonadExceptOf.throw, pure, Except.pure] at accepted
  split at accepted
  · cases accepted
  rename_i passed
  split at accepted
  · cases accepted
  rename_i timely
  refine ⟨passed, ?_, ?_⟩
  · intro frame member
    have inside := List.any_eq_false.mp (Bool.not_eq_true _ ▸ timely) frame member
    simpa using inside
  split at accepted
  · rename_i previous found
    left
    split at accepted
    · cases accepted
    rename_i same
    split at accepted
    · cases accepted
    rename_i answer known
    simp only [Except.ok.injEq, Prod.mk.injEq] at accepted
    exact ⟨previous, found, not_not.mp same, accepted.2.symm, accepted.1 ▸ known⟩
  · rename_i fresh
    right
    split at accepted
    · cases accepted
    rename_i running
    split at accepted
    · cases accepted
    rename_i all admitted
    split at accepted
    · cases accepted
    rename_i answer known
    simp only [Except.ok.injEq, Prod.mk.injEq] at accepted
    refine ⟨fresh, ?_, all, admitted, ?_, ?_⟩
    · rintro current rfl
      simpa using running
    · rw [← accepted.2]
      cases document <;> rfl
    · rw [← accepted.1, ← accepted.2]
      exact known

theorem completeText_ok {body : TextCompletion} {read : DeviceTextRead}
    (accepted : completeText source document rows body = .ok (read, next)) :
    accepts source document rows body.toTextSource = .ok () ∧
      ((∃ current, document = some current ∧ current.completion = some body ∧ next = document ∧
          snapshot source document rows.textJob = .ok read) ∨
        (document.bind (·.completion) = none ∧
          (stored document).map (·.batchId) = List.range body.batchCount ∧
          next = some (withCompletion source document rows body) ∧
          snapshot source next (rows.created document) = .ok read)) := by
  unfold completeText at accepted
  simp only [bind, Except.bind, throw, throwThe, MonadExceptOf.throw, pure, Except.pure] at accepted
  split at accepted
  · cases accepted
  rename_i passed
  refine ⟨passed, ?_⟩
  split at accepted
  · rename_i completion found
    left
    split at accepted
    · cases accepted
    rename_i same
    split at accepted
    · cases accepted
    rename_i answer known
    simp only [Except.ok.injEq, Prod.mk.injEq] at accepted
    obtain ⟨current, rfl, holds⟩ := Option.bind_eq_some_iff.mp found
    exact ⟨current, rfl, not_not.mp same ▸ holds, accepted.2.symm, accepted.1 ▸ known⟩
  · rename_i fresh
    right
    split at accepted
    · cases accepted
    rename_i numbered
    split at accepted
    · cases accepted
    split at accepted
    · cases accepted
    rename_i answer known
    simp only [Except.ok.injEq, Prod.mk.injEq] at accepted
    refine ⟨fresh, not_not.mp numbered, ?_, ?_⟩
    · rw [← accepted.2]
      cases document <;> rfl
    · rw [← accepted.1, ← accepted.2]
      exact known

end Steps

section Log

/-- The log of an upload that stays eligible. -/
structure Log (source : TextUpload) (document : Option TextDocument) : Prop where
  media : ∀ current, document = some current → current.mediaJobId = source.mediaJobId
  numbered : ((stored document).map (·.batchId)).Nodup
  bounded : Bounded (stored document)
  complete : ∀ current completion, document = some current →
    current.completion = some completion →
    current.batches.map (·.batchId) = List.range completion.batchCount

theorem log_none (source : TextUpload) : Log source none where
  media current none := by cases none
  numbered := List.nodup_nil
  bounded := bounded_nil
  complete current completion none := by cases none

/-- A later document holds all that an earlier one held, and a completed one is final. -/
def Extends (document next : Option TextDocument) : Prop :=
  ∀ current, document = some current → ∃ later, next = some later ∧
    (∀ batch ∈ current.batches, batch ∈ later.batches) ∧
    (current.completion.isSome = true →
      later.batches = current.batches ∧ later.completion = current.completion)

theorem Extends.refl (document : Option TextDocument) : Extends document document :=
  fun current here => ⟨current, here, fun _ member => member, fun _ => ⟨rfl, rfl⟩⟩

theorem Extends.trans {first second third : Option TextDocument} (before : Extends first second)
    (after : Extends second third) : Extends first third := by
  intro current here
  obtain ⟨middle, found, kept, final⟩ := before current here
  obtain ⟨later, last, keptAgain, finalAgain⟩ := after middle found
  refine ⟨later, last, fun batch member => keptAgain batch (kept batch member), ?_⟩
  intro completed
  obtain ⟨sameBatches, sameCompletion⟩ := final completed
  obtain ⟨batches, completion⟩ := finalAgain (sameCompletion ▸ completed)
  exact ⟨batches.trans sameBatches, completion.trans sameCompletion⟩

def Holds (current : TextDocument) : TextRequest → Prop
  | .put batchId body => ⟨batchId, body⟩ ∈ current.batches
  | .complete body => current.completion = some body

def Fits (source : TextUpload) : TextRequest → Prop
  | .put _ body => body.uploadId = source.uploadId ∧
      body.sourceSha256 = source.declaredSha256 ∧
      ∀ frame ∈ body.frames, frame.framePts < source.totalMs
  | .complete body => body.uploadId = source.uploadId ∧
      body.sourceSha256 = source.declaredSha256

/-- What an accepted request leaves and answers. -/
structure Delivered (source : TextUpload) (document next : Option TextDocument)
    (request : TextRequest) (read : DeviceTextRead) : Prop where
  fits : Fits source request
  log : Log source next
  grown : Extends document next
  holds : ∃ current, next = some current ∧ Holds current request ∧ read = readOf source current

theorem snapshot_created {current : TextDocument} {read : DeviceTextRead}
    (live : ∀ current, document = some current → Live rows)
    (known : snapshot source (some current) (rows.created document) = .ok read) :
    read = readOf source current := by
  have alive : Live { rows with textJob := rows.created document } := by
    cases document with
    | none => exact ⟨_, rfl, by simp, by simp, rfl⟩
    | some earlier => exact live earlier rfl
  rw [snapshot_live alive] at known
  exact (Except.ok.inj known).symm

theorem putBatch_delivered {batchId : Nat} {body : TextBatch} {read : DeviceTextRead}
    (log : Log source document)
    (accepted : putBatch source document rows batchId body = .ok (read, next)) :
    Delivered source document next (.put batchId body) read := by
  obtain ⟨passed, timely, outcome⟩ := putBatch_ok accepted
  obtain ⟨live, upload, sha⟩ := accepts_ok passed
  rcases outcome with ⟨previous, found, same, rfl, known⟩ |
    ⟨fresh, running, all, admitted, rfl, known⟩
  · cases next with
    | none => simp [stored] at found
    | some current =>
        have member : previous ∈ current.batches := List.mem_of_find?_eq_some found
        have numbered : previous.batchId = batchId := by simpa using List.find?_some found
        refine ⟨⟨upload, sha, timely⟩, log, .refl _, current, rfl, ?_, ?_⟩
        · rw [← numbered, ← same]
          exact member
        · rw [snapshot_live (live current rfl).2] at known
          exact (Except.ok.inj known).symm
  · obtain ⟨same, bounded⟩ := extended_ok admitted
    have batches : (withBatches source document rows all).batches = all := by
      cases document <;> rfl
    have completion : (withBatches source document rows all).completion = none := by
      cases document with
      | none => rfl
      | some current => exact running current rfl
    refine ⟨⟨upload, sha, timely⟩, ?_, ?_, _, rfl, ?_, ?_⟩
    · constructor
      · rintro current ⟨⟩
        cases document with
        | none => rfl
        | some earlier => exact log.media earlier rfl
      · simp only [stored, Option.map_some, Option.getD_some, batches]
        refine ((same.map (·.batchId)).nodup_iff).mp ?_
        rw [List.map_append, List.nodup_append]
        refine ⟨log.numbered, by simp, ?_⟩
        intro number member other single equal
        obtain ⟨batch, listed, rfl⟩ := List.mem_map.mp member
        have absent := List.find?_eq_none.mp fresh batch listed
        simp only [List.map_cons, List.map_nil, List.mem_singleton] at single
        exact absent (by simpa using equal.trans single)
      · simpa only [stored, Option.map_some, Option.getD_some, batches] using bounded
      · rintro current value ⟨⟩ declared
        rw [completion] at declared
        cases declared
    · rintro current rfl
      refine ⟨_, rfl, ?_, ?_⟩
      · intro batch member
        rw [batches]
        exact same.mem_iff.mp (List.mem_append_left _ member)
      · intro completed
        rw [running current rfl] at completed
        cases completed
    · change StoredBatch.mk batchId body ∈ (withBatches source document rows all).batches
      rw [batches]
      exact same.mem_iff.mp (List.mem_append_right _ List.mem_cons_self)
    · exact snapshot_created (fun current here => (live current here).2) known

theorem completeText_delivered {body : TextCompletion} {read : DeviceTextRead}
    (log : Log source document)
    (accepted : completeText source document rows body = .ok (read, next)) :
    Delivered source document next (.complete body) read := by
  obtain ⟨passed, outcome⟩ := completeText_ok accepted
  obtain ⟨live, upload, sha⟩ := accepts_ok passed
  rcases outcome with ⟨current, rfl, declared, rfl, known⟩ | ⟨fresh, numbered, rfl, known⟩
  · refine ⟨⟨upload, sha⟩, log, .refl _, current, rfl, declared, ?_⟩
    rw [snapshot_live (live current rfl).2] at known
    exact (Except.ok.inj known).symm
  · have batches : (withCompletion source document rows body).batches = stored document := by
      cases document <;> rfl
    have completion : (withCompletion source document rows body).completion = some body := by
      cases document <;> rfl
    refine ⟨⟨upload, sha⟩, ?_, ?_, _, rfl, completion, ?_⟩
    · constructor
      · rintro current ⟨⟩
        cases document with
        | none => rfl
        | some earlier => exact log.media earlier rfl
      · simpa only [stored, Option.map_some, Option.getD_some, batches] using log.numbered
      · simpa only [stored, Option.map_some, Option.getD_some, batches] using log.bounded
      · rintro current value ⟨⟩ declared
        rw [completion, Option.some.injEq] at declared
        rw [batches, numbered, declared]
    · rintro current rfl
      refine ⟨_, rfl, fun batch member => by rw [batches]; exact member, ?_⟩
      intro completed
      rw [Option.bind_some] at fresh
      rw [fresh] at completed
      cases completed
    · exact snapshot_created (fun current here => (live current here).2) known

theorem receive_delivered {request : TextRequest} {read : DeviceTextRead}
    (log : Log source document)
    (accepted : receive source document rows request = .ok (read, next)) :
    Delivered source document next request read := by
  cases request with
  | put batchId body => exact putBatch_delivered log accepted
  | complete body => exact completeText_delivered log accepted

/-- A request whose content the document holds is answered from it and changes nothing. -/
theorem receive_again {current : TextDocument} {request : TextRequest}
    (log : Log source (some current)) (live : Live rows) (fits : Fits source request)
    (holds : Holds current request) :
    receive source (some current) rows request = .ok (readOf source current, some current) := by
  have media := log.media current rfl
  cases request with
  | put batchId body =>
      obtain ⟨upload, sha, timely⟩ := fits
      have inside : body.frames.any (source.totalMs ≤ ·.framePts) = false := by
        rw [List.any_eq_false]
        intro frame member
        simpa using timely frame member
      have found : current.batches.find? (·.batchId == batchId) = some ⟨batchId, body⟩ := by
        have present : (current.batches.find? (·.batchId == batchId)).isSome = true :=
          List.find?_isSome.mpr ⟨_, holds, beq_self_eq_true batchId⟩
        obtain ⟨batch, first⟩ := Option.isSome_iff_exists.mp present
        have same : batch.batchId = batchId := by simpa using List.find?_some first
        rw [first]
        exact congrArg some (List.inj_on_of_nodup_map log.numbered
          (List.mem_of_find?_eq_some first) holds same)
      simp only [receive, putBatch, accepts_live live media upload sha, bind, Except.bind, inside,
        Bool.false_eq_true, if_false, Option.map_some, Option.getD_some, found, ne_eq,
        not_true_eq_false, snapshot_live live, pure, Except.pure]
  | complete body =>
      obtain ⟨upload, sha⟩ := fits
      have declared : current.completion = some body := holds
      simp only [receive, completeText, accepts_live live media upload sha, bind, Except.bind,
        Option.bind_some, declared, ne_eq, not_true_eq_false, if_false, snapshot_live live, pure,
        Except.pure]

/-- The two requests deliver different content under one name. -/
def Contradicts : TextRequest → TextRequest → Prop
  | .put batchId body, .put otherId other => batchId = otherId ∧ body ≠ other
  | .complete body, .complete other => body ≠ other
  | _, _ => False

theorem receive_refused {current : TextDocument} {request other : TextRequest}
    (log : Log source (some current)) (holds : Holds current request)
    (contradicts : Contradicts request other) :
    ∃ error, receive source (some current) rows other = .error error := by
  cases answered : receive source (some current) rows other with
  | error error => exact ⟨error, rfl⟩
  | ok answer =>
      exfalso
      obtain ⟨read, next⟩ := answer
      cases request with
      | put batchId body =>
          cases other with
          | complete other => exact contradicts
          | put otherId other =>
              obtain ⟨rfl, differ⟩ := contradicts
              obtain ⟨-, -, ⟨previous, found, same, -⟩ | ⟨fresh, -⟩⟩ := putBatch_ok answered
              · have numbered : previous.batchId = batchId := by simpa using List.find?_some found
                have equal := List.inj_on_of_nodup_map log.numbered
                  (List.mem_of_find?_eq_some found) holds numbered
                rw [equal] at same
                exact differ same
              · exact List.find?_eq_none.mp fresh _ holds (beq_self_eq_true batchId)
      | complete body =>
          cases other with
          | put otherId other => exact contradicts
          | complete other =>
              have declared : current.completion = some body := holds
              obtain ⟨-, ⟨_, ⟨⟩, equal, -⟩ | ⟨fresh, -⟩⟩ := completeText_ok answered
              · rw [declared, Option.some.injEq] at equal
                exact contradicts equal
              · rw [Option.bind_some, declared] at fresh
                cases fresh

theorem Holds.later {current later : TextDocument} {request : TextRequest}
    (holds : Holds current request) (grown : Extends (some current) (some later)) :
    Holds later request := by
  obtain ⟨last, same, kept, final⟩ := grown current rfl
  rw [Option.some.injEq] at same
  subst same
  cases request with
  | put batchId body => exact kept _ holds
  | complete body =>
      have declared : current.completion = some body := holds
      exact (final (by rw [declared]; rfl)).2.trans declared

theorem deliver_log (log : Log source document) (call : TextRows × TextRequest) :
    Log source (deliver source document call) := by
  unfold deliver
  split
  · exact log
  · rename_i answer next accepted
    exact (receive_delivered log accepted).log

theorem deliver_extends (log : Log source document) (call : TextRows × TextRequest) :
    Extends document (deliver source document call) := by
  unfold deliver
  split
  · exact .refl document
  · rename_i answer next accepted
    exact (receive_delivered log accepted).grown

theorem deliver_run (log : Log source document) (calls : List (TextRows × TextRequest)) :
    Log source (exec (deliver source) document calls) ∧
      Extends document (exec (deliver source) document calls) :=
  ⟨exec_invariant (Log source) (fun _ call held => deliver_log held call) log calls,
    exec_relation (Log source) Extends.refl (fun before after => before.trans after)
      (fun _ call held => deliver_log held call) (fun _ call held => deliver_extends held call)
      log calls⟩

/-- Whatever batches and completions arrive in whatever order, the stored text is an append-only
log: batches stay as they were stored, frame times and observation ids are unique and the bounds
hold over all of them, a completion is accepted only for exactly its batches and ends the log, and
a repeated request is answered alike or, with other content, refused, and changes nothing. -/
theorem text_log (source : TextUpload) (before later : List (TextRows × TextRequest)) :
    let document := exec (deliver source) none before
    (∀ current, document = some current →
      (∃ last, exec (deliver source) document later = some last ∧
        (∀ batch ∈ current.batches, batch ∈ last.batches ∧
          ∀ other ∈ last.batches, other.batchId = batch.batchId → other = batch) ∧
        (current.completion.isSome = true →
          last.batches = current.batches ∧ last.completion = current.completion)) ∧
      Bounded current.batches ∧
      ∀ completion, current.completion = some completion →
        current.batches.map (·.batchId) = List.range completion.batchCount) ∧
    (∀ rows body read next,
      receive source document rows (.complete body) = .ok (read, next) →
      (stored document).map (·.batchId) = List.range body.batchCount) ∧
    ∀ rows request read next, receive source document rows request = .ok (read, next) →
      (∀ again, Live again → receive source next again request = .ok (read, next)) ∧
      (∀ again, Live again →
        ∃ last, exec (deliver source) next later = some last ∧
          receive source (some last) again request = .ok (readOf source last, some last)) ∧
      ∀ other rows, Contradicts request other →
        ∃ error, receive source (exec (deliver source) next later) rows other = .error error := by
  intro document
  obtain ⟨log, -⟩ := deliver_run (log_none source) before
  refine ⟨?_, ?_, ?_⟩
  · intro current here
    obtain ⟨finalLog, grown⟩ := deliver_run log later
    obtain ⟨last, found, kept, final⟩ := grown current here
    have held : Log source (some current) := here ▸ log
    have lastLog : Log source (some last) := found ▸ finalLog
    refine ⟨⟨last, found, ?_, final⟩, held.bounded, fun completion declared =>
      held.complete current completion rfl declared⟩
    intro batch member
    refine ⟨kept batch member, fun other listed same => ?_⟩
    exact List.inj_on_of_nodup_map lastLog.numbered listed (kept batch member) same
  · intro rows body read next accepted
    obtain ⟨-, ⟨current, here, declared, -⟩ | ⟨-, numbered, -⟩⟩ := completeText_ok accepted
    · rw [show stored document = current.batches from by rw [here]; rfl]
      exact log.complete current body here declared
    · exact numbered
  · intro rows request read next accepted
    obtain ⟨fits, nextLog, -, current, rfl, holds, rfl⟩ := receive_delivered log accepted
    obtain ⟨finalLog, grown⟩ := deliver_run nextLog later
    obtain ⟨last, found, -⟩ := grown current rfl
    rw [found] at grown finalLog
    have kept := holds.later grown
    refine ⟨fun again live => receive_again nextLog live fits holds,
      fun again live => ⟨last, found, receive_again finalLog live fits kept⟩, ?_⟩
    intro other rows contradicts
    rw [found]
    exact receive_refused finalLog kept contradicts

end Log

end Ovrly.Uploads
