import Ovrly.Evidence.Stages

/-!
What a transaction of an investigation's jobs can commit, and how a commit changes the stored
versions and the queue.
-/

namespace Ovrly.Evidence

open Runs
open Ovrly.Reports

variable (digests : Digests) (identify : Uuid → List (String × Nat × Nat) → String)

/-- The version a reconciliation was scheduled on is not the one to reconcile any more. -/
def World.SnapshotLost (world : World) (investigationId : Uuid) (reportId : Option Uuid) : Prop :=
  ∀ latest, world.latest investigationId = some latest →
    some latest.id ≠ reportId ∨ latest.open = false

inductive Commits (world : World) : Action → Effect → Prop
  | extracted {investigationId id createdAt incremental occurrences window provenance report}
      (unscheduled : world.scheduled investigationId = false)
      (built : publication identify world.archive ⟨investigationId, id, createdAt,
        .extraction incremental occurrences window provenance⟩ = .ok report) :
      Commits world
        (.extract investigationId id createdAt incremental occurrences window provenance)
        { investigationId, report := some report }
  | scheduled {investigationId upstreamLimited}
      (unscheduled : world.scheduled investigationId = false) :
      Commits world (.schedule investigationId upstreamLimited)
        { investigationId
          enqueued := some (.reconciliation investigationId
            ((world.latest investigationId).map (·.id)) upstreamLimited) }
  | corrected {investigationId requestId id createdAt body base report}
      (latest : world.latest investigationId = some base)
      (current : body.baseVersion = base.version)
      (built : publication identify world.archive
        ⟨investigationId, id, createdAt, .correction body⟩ = .ok report) :
      Commits world (.request investigationId requestId id createdAt (.correction body))
        { investigationId
          report := some report
          enqueued := some (.reanalysis ⟨requestId, investigationId, .correction, report.version,
            [body.claimId], none, 0⟩) }
  | requested {investigationId requestId id createdAt body base source}
      (latest : world.latest investigationId = some base)
      (current : body.baseVersion = base.version)
      (uncorrected : body.reason ≠ .correction) :
      Commits world (.request investigationId requestId id createdAt body)
        { investigationId
          enqueued := some (.reanalysis ⟨requestId, investigationId, body.reason, base.version,
            [], source, 0⟩) }
  | snapshotLost {index investigationId reportId upstreamLimited answer message}
      (queued : world.task? index =
        some (.reconciliation investigationId reportId upstreamLimited))
      (lost : world.SnapshotLost investigationId reportId) :
      Commits world (.reconcile index answer) (failed investigationId index message)
  | reconciled {index investigationId reportId upstreamLimited answer report limited}
      (queued : world.task? index =
        some (.reconciliation investigationId reportId upstreamLimited))
      (built : publication identify world.archive ⟨investigationId, answer.id, answer.createdAt,
        .reconciliation answer.output answer.textOf answer.now answer.provenance limited⟩ =
          .ok report) :
      Commits world (.reconcile index answer)
        { investigationId
          report := some report
          settled := some (index, .published .reconciled)
          enqueued := handoff report }
  | planned {index payload id createdAt}
      (queued : world.task? index = some (.reanalysis payload))
      (content : payload.reason ≠ .expansion) :
      Commits world (.reanalyse index id createdAt)
        (finished payload.investigationId index (.reanalysis payload)
          (.retrieval (planned payload)) none)
  | waited {index payload id createdAt effect}
      (queued : world.task? index = some (.reanalysis payload))
      (expansion : payload.reason = .expansion)
      (unpublished : effect.investigationId = payload.investigationId ∧ effect.report = none ∧
        ∃ state, effect.settled = some (index, state) ∧ state ≠ .queued)
      (again : ∀ task ∈ effect.enqueued, ∃ poll, task = .reanalysis { payload with poll }) :
      Commits world (.reanalyse index id createdAt) effect
  | expanded {index payload id createdAt sourceId full report}
      (queued : world.task? index = some (.reanalysis payload))
      (expansion : payload.reason = .expansion)
      (named : payload.sourceInvestigationId = some sourceId)
      (source : world.latest sourceId = some full)
      (built : publication identify world.archive ⟨payload.investigationId, id, createdAt,
        .expansion full sourceId⟩ = .ok report) :
      Commits world (.reanalyse index id createdAt)
        (finished payload.investigationId index (.reanalysis payload) (.version report.version)
          (some report))
  | unavailable {index payload claimLimit searched message}
      (queued : world.task? index = some (.retrieval payload))
      (missing : world.latest payload.investigationId = none) :
      Commits world (.retrieve index claimLimit searched)
        (failed payload.investigationId index message)
  | retrieved {index payload claimLimit searched artifact}
      (queued : world.task? index = some (.retrieval payload))
      (found : retrieval digests claimLimit searched payload
        (world.latest payload.investigationId) = .ok artifact) :
      Commits world (.retrieve index claimLimit searched)
        (finished payload.investigationId index (.retrieval payload) (.artifact artifact) none)
  | skipped {index payload artifact id createdAt captureOpen answer}
      (queued : world.task? index = some (.assessment payload artifact))
      (stale : artifact.superseded = true ∨
        ∀ base, world.latest payload.investigationId = some base →
          base.version ≠ payload.baseVersion) :
      Commits world (.assess index id createdAt captureOpen answer)
        (finished payload.investigationId index (.assessment payload artifact)
          (.skipped "superseded") none)
  | assessed {index payload artifact id createdAt captureOpen answer base report}
      (queued : world.task? index = some (.assessment payload artifact))
      (latest : world.latest payload.investigationId = some base)
      (current : base.version = payload.baseVersion)
      (built : publication identify world.archive ⟨payload.investigationId, id, createdAt,
        .assessment (assessmentOutcomes digests answer artifact base (payload.baseVersion + 1)
          captureOpen) captureOpen payload.depth⟩ = .ok report) :
      Commits world (.assess index id createdAt captureOpen answer)
        (finished payload.investigationId index (.assessment payload artifact)
          (.version report.version) (some report))
  | invalid {index payload artifact id createdAt captureOpen answer base refused message}
      (queued : world.task? index = some (.assessment payload artifact))
      (latest : world.latest payload.investigationId = some base)
      (current : base.version = payload.baseVersion)
      (refusal : publication identify world.archive ⟨payload.investigationId, id, createdAt,
        .assessment (assessmentOutcomes digests answer artifact base (payload.baseVersion + 1)
          captureOpen) captureOpen payload.depth⟩ = .error refused) :
      Commits world (.assess index id createdAt captureOpen answer)
        (failed payload.investigationId index message)

variable {digests identify} {world : World}

theorem extract_commits {investigationId id : Uuid} {createdAt : Timestamp} {incremental : Bool}
    {occurrences : List Extraction.Occurrence} {window : Extraction.ObservationWindow}
    {provenance : List ProcessingAttempt} {effect : Effect}
    (commits : world.extract identify investigationId id createdAt incremental occurrences window
      provenance = some effect) :
    Commits digests identify world
      (.extract investigationId id createdAt incremental occurrences window provenance)
      effect := by
  simp only [World.extract] at commits
  split at commits
  · simp at commits
  · rename_i unscheduled
    split at commits
    · simp at commits
    · rename_i report built
      rw [Option.some.injEq] at commits
      subst commits
      exact .extracted (by simpa using unscheduled) built

theorem schedule_commits {investigationId : Uuid} {upstreamLimited : Bool} {effect : Effect}
    (commits : world.schedule investigationId upstreamLimited = some effect) :
    Commits digests identify world (.schedule investigationId upstreamLimited) effect := by
  simp only [World.schedule] at commits
  split at commits
  · simp at commits
  · rename_i unscheduled
    rw [Option.some.injEq] at commits
    subst commits
    exact .scheduled (by simpa using unscheduled)

theorem requestReanalysis_commits {investigationId requestId id : Uuid} {createdAt : Timestamp}
    {body : Reanalysis} {effect : Effect}
    (commits : world.requestReanalysis identify investigationId requestId id createdAt body =
      .ok effect) :
    Commits digests identify world (.request investigationId requestId id createdAt body)
      effect := by
  simp only [World.requestReanalysis] at commits
  split at commits
  · simp at commits
  · rename_i source confirmed
    split at commits
    · simp at commits
    · rename_i base latest
      split at commits
      · simp at commits
      · rename_i current
        rw [not_not] at current
        cases body with
        | correction body =>
            simp only [confirmedSource, Except.ok.injEq] at confirmed
            subst confirmed
            cases built : publication identify world.archive
                ⟨investigationId, id, createdAt, .correction body⟩ with
            | error refused =>
                simp [World.publishedVersion, built, Except.map] at commits
            | ok report =>
                simp only [World.publishedVersion, built, Except.map, Except.ok.injEq] at commits
                subst commits
                exact .corrected latest current built
        | deeper baseVersion =>
            simp only [World.publishedVersion, Except.ok.injEq] at commits
            subst commits
            exact .requested latest current (by simp [Reanalysis.reason])
        | expansion baseVersion matchConfirmed sourceId =>
            simp only [World.publishedVersion, Except.ok.injEq] at commits
            subst commits
            exact .requested latest current (by simp [Reanalysis.reason])

theorem reconcile_commits {index : Nat} {investigationId : Uuid} {reportId : Option Uuid}
    {upstreamLimited : Bool} {answer : ReconciliationAnswer} {effect : Effect}
    (queued : world.task? index =
      some (.reconciliation investigationId reportId upstreamLimited))
    (commits : world.reconcile identify index investigationId reportId upstreamLimited answer =
      some effect) :
    Commits digests identify world (.reconcile index answer) effect := by
  simp only [World.reconcile] at commits
  split at commits
  · rename_i missing
    rw [Option.some.injEq] at commits
    subst commits
    exact .snapshotLost queued (by simp [World.SnapshotLost, missing])
  · rename_i previous latest
    split at commits
    · rename_i lost
      rw [Option.some.injEq] at commits
      subst commits
      refine .snapshotLost queued ?_
      intro other isLatest
      rw [latest, Option.some.injEq] at isLatest
      exact isLatest ▸ lost
    · split at commits
      · simp at commits
      · rename_i report built
        rw [Option.some.injEq] at commits
        subst commits
        exact .reconciled queued built

theorem expand_commits {index : Nat} {payload : ReanalysisPayload} {sourceId id : Uuid}
    {createdAt : Timestamp} (queued : world.task? index = some (.reanalysis payload))
    (expansion : payload.reason = .expansion)
    (named : payload.sourceInvestigationId = some sourceId) :
    Commits digests identify world (.reanalyse index id createdAt)
      (world.expand identify index payload sourceId id createdAt) := by
  have quiet (message : String) : Commits digests identify world (.reanalyse index id createdAt)
      (failed payload.investigationId index message) :=
    .waited queued expansion ⟨rfl, rfl, _, rfl, by simp⟩ (by simp [failed])
  have skipped : Commits digests identify world (.reanalyse index id createdAt)
      (finished payload.investigationId index (.reanalysis payload)
        (.skipped "superseded") none) :=
    .waited queued expansion ⟨rfl, rfl, _, rfl, by simp⟩ (by simp [finished, successor])
  simp only [World.expand]
  split
  · exact skipped
  · split
    · exact skipped
    · split
      · split
        · exact quiet _
        · refine .waited queued expansion ⟨rfl, rfl, _, rfl, by simp⟩ ?_
          intro task again
          simp only [finished, successor, Option.mem_def, Option.some.injEq] at again
          exact ⟨_, again.symm⟩
      · rename_i full source
        split
        · exact quiet _
        · rename_i report built
          exact .expanded queued expansion named source built

theorem reanalysis_commits {index : Nat} {payload : ReanalysisPayload} {id : Uuid}
    {createdAt : Timestamp} (queued : world.task? index = some (.reanalysis payload)) :
    Commits digests identify world (.reanalyse index id createdAt)
      (world.reanalysis identify index payload id createdAt) := by
  simp only [World.reanalysis]
  split
  · rename_i expansion _
    exact .waited queued expansion ⟨rfl, rfl, _, rfl, by simp⟩ (by simp [failed])
  · rename_i expansion named
    exact expand_commits queued expansion named
  · rename_i content
    exact .planned queued (by simp [content])
  · rename_i content
    exact .planned queued (by simp [content])

theorem retrieve_commits {index : Nat} {payload : StagePayload} {claimLimit : Nat}
    {searched : Nat → Searched} {effect : Effect}
    (queued : world.task? index = some (.retrieval payload))
    (commits : world.retrieve digests index payload claimLimit searched = some effect) :
    Commits digests identify world (.retrieve index claimLimit searched) effect := by
  simp only [World.retrieve] at commits
  split at commits
  · rename_i message refused
    rw [Option.some.injEq] at commits
    subst commits
    refine .unavailable queued ?_
    cases latest : world.latest payload.investigationId with
    | none => rfl
    | some report =>
        simp only [latest, retrieval] at refused
        split at refused
        · simp at refused
        · split at refused <;> simp at refused
  · simp at commits
  · rename_i artifact found
    rw [Option.some.injEq] at commits
    subst commits
    exact .retrieved queued found

theorem assessment_commits {index : Nat} {payload : StagePayload} {artifact : RetrievalArtifact}
    {id : Uuid} {createdAt : Timestamp} {captureOpen : Bool} {answer : Nat → RouterAnswer}
    (queued : world.task? index = some (.assessment payload artifact)) :
    Commits digests identify world (.assess index id createdAt captureOpen answer)
      (world.assessment digests identify index payload artifact id createdAt captureOpen
        answer) := by
  simp only [World.assessment]
  split
  · rename_i superseded
    exact .skipped queued (.inl superseded)
  · split
    · rename_i missing
      exact .skipped queued (.inr (by simp [missing]))
    · rename_i base latest
      split
      · rename_i stale
        refine .skipped queued (.inr ?_)
        intro other isLatest
        rw [latest, Option.some.injEq] at isLatest
        exact isLatest ▸ stale
      · rename_i current
        rw [not_not] at current
        split
        · rename_i refused refusal
          exact .invalid queued latest current refusal
        · rename_i report built
          exact .assessed queued latest current built

theorem effect_commits {action : Action} {effect : Effect}
    (commits : world.effect digests identify action = some effect) :
    Commits digests identify world action effect := by
  cases action with
  | extract => exact extract_commits commits
  | schedule => exact schedule_commits commits
  | request investigationId requestId id createdAt body =>
      simp only [World.effect] at commits
      cases accepted : world.requestReanalysis identify investigationId requestId id createdAt
          body with
      | error refused => simp [accepted, Except.toOption] at commits
      | ok other =>
          simp only [accepted, Except.toOption, Option.some.injEq] at commits
          subst commits
          exact requestReanalysis_commits accepted
  | reconcile index answer =>
      simp only [World.effect] at commits
      split at commits
      · rename_i queued
        exact reconcile_commits queued commits
      · simp at commits
  | reanalyse index id createdAt =>
      simp only [World.effect] at commits
      split at commits
      · rename_i payload queued
        rw [Option.some.injEq] at commits
        subst commits
        exact reanalysis_commits queued
      · simp at commits
  | retrieve index claimLimit searched =>
      simp only [World.effect] at commits
      split at commits
      · rename_i payload queued
        exact retrieve_commits queued commits
      · simp at commits
  | assess index id createdAt captureOpen answer =>
      simp only [World.effect] at commits
      split at commits
      · rename_i payload artifact queued
        rw [Option.some.injEq] at commits
        subst commits
        exact assessment_commits queued
      · simp at commits

/-- A committed version was published after the latest one of its investigation. -/
theorem Commits.publication {action : Action} {effect : Effect}
    (commits : Commits digests identify world action effect) {report : ReportVersion}
    (published : effect.report = some report) :
    ∃ request, request.investigationId = effect.investigationId ∧
      Reports.publication identify world.archive request = .ok report := by
  cases commits with
  | extracted _ built | corrected _ _ built | reconciled _ built | expanded _ _ _ _ built
  | assessed _ _ _ built =>
      obtain rfl := Option.some.inj published
      exact ⟨_, rfl, built⟩
  | waited _ _ unpublished => simp [unpublished.2.1] at published
  | _ => simp [finished, failed] at published

theorem mem_extend {archive : Archive} {investigationId target : Uuid}
    {published : Option ReportVersion} {report : ReportVersion} :
    report ∈ Archive.extend archive investigationId published target ↔
      report ∈ archive target ∨ published = some report ∧ investigationId = target := by
  cases published with
  | none => simp [Archive.extend]
  | some fresh =>
      rw [Archive.extend]
      by_cases same : target = investigationId
      · subst same
        simp [eq_comm]
      · simp [Function.update_of_ne same, Ne.symm same]

theorem Commits.numbered {action : Action} {effect : Effect}
    (commits : Commits digests identify world action effect)
    (numbered : ∀ investigationId, Numbered (world.archive investigationId))
    (investigationId : Uuid) : Numbered ((world.commit effect).archive investigationId) := by
  simp only [World.commit]
  cases published : effect.report with
  | none => exact numbered investigationId
  | some report =>
      rw [Archive.extend]
      by_cases same : investigationId = effect.investigationId
      · obtain ⟨request, target, ok⟩ := commits.publication published
        obtain ⟨_, _, _, _, _, next⟩ := publication_ok ok
        rw [target, (numbered _).next] at next
        rw [same, Function.update_self]
        exact (numbered _).append next
      · rw [Function.update_of_ne same]
        exact numbered investigationId

theorem Commits.grows {action : Action} {effect : Effect}
    (commits : Commits digests identify world action effect)
    (numbered : ∀ investigationId, Numbered (world.archive investigationId))
    (investigationId : Uuid) :
    (world.archive investigationId).length ≤
        ((world.commit effect).archive investigationId).length ∧
      ∀ report ∈ (world.commit effect).archive investigationId,
        report ∈ world.archive investigationId ∨
          report.version = (world.archive investigationId).length + 1 := by
  constructor
  · simp only [World.commit]
    cases effect.report with
    | none => exact Nat.le_refl _
    | some report =>
        rw [Archive.extend]
        by_cases same : investigationId = effect.investigationId
        · subst same
          simp
        · rw [Function.update_of_ne same]
  · intro report member
    rcases mem_extend.mp member with earlier | ⟨published, rfl⟩
    · exact .inl earlier
    · obtain ⟨request, target, ok⟩ := commits.publication published
      obtain ⟨_, _, _, _, _, next⟩ := publication_ok ok
      rw [(numbered _).next, target] at next
      exact .inr next

theorem task?_mem {index : Nat} {task : Task} (queued : world.task? index = some task) :
    ⟨task, .queued⟩ ∈ world.jobs := by
  simp only [World.task?] at queued
  split at queued
  · rename_i other found
    rw [← Option.some.inj queued]
    exact List.mem_of_getElem? found
  · simp at queued

theorem Commits.settles {action : Action} {effect : Effect}
    (commits : Commits digests identify world action effect) {index : Nat} {state : JobState}
    (settled : effect.settled = some (index, state)) :
    state ≠ .queued ∧ ∃ task, world.task? index = some task ∧
      task.investigationId = effect.investigationId := by
  cases commits with
  | extracted | scheduled | corrected | requested => simp at settled
  | waited queued _ unpublished =>
      obtain ⟨owner, _, other, ends, terminal⟩ := unpublished
      rw [ends, Option.some.injEq, Prod.mk.injEq] at settled
      obtain ⟨rfl, rfl⟩ := settled
      exact ⟨terminal, _, queued, owner.symm⟩
  | snapshotLost queued | reconciled queued | planned queued | expanded queued
  | unavailable queued | retrieved queued | skipped queued | assessed queued
  | invalid queued =>
      simp only [failed, finished, Option.some.injEq, Prod.mk.injEq] at settled
      obtain ⟨rfl, rfl⟩ := settled
      exact ⟨by simp, _, queued, rfl⟩

theorem successor_investigationId {task next : Task} {result : Result}
    (handed : successor task result = some next)
    (own : ∀ planned, result = .retrieval planned →
      planned.investigationId = task.investigationId) :
    next.investigationId = task.investigationId := by
  unfold successor at handed
  split at handed
  · obtain rfl := Option.some.inj handed
    exact own _ rfl
  · obtain rfl := Option.some.inj handed
    rfl
  · split at handed
    · obtain rfl := Option.some.inj handed
      rfl
    · simp at handed
  · simp at handed

theorem Commits.enqueues {action : Action} {effect : Effect}
    (commits : Commits digests identify world action effect) {task : Task}
    (enqueued : effect.enqueued = some task) :
    task.investigationId = effect.investigationId := by
  cases commits with
  | extracted | snapshotLost | unavailable | invalid => simp [failed] at enqueued
  | scheduled | corrected | requested =>
      obtain rfl := Option.some.inj enqueued
      rfl
  | reconciled _ built =>
      obtain ⟨_, _, _, _, owner, _⟩ := publication_ok built
      simp only [handoff] at enqueued
      split at enqueued
      · simp at enqueued
      · obtain rfl := Option.some.inj enqueued
        exact owner
  | waited _ _ unpublished again =>
      obtain ⟨poll, rfl⟩ := again task enqueued
      exact unpublished.1.symm
  | planned =>
      simp only [finished] at enqueued
      refine successor_investigationId enqueued ?_
      rintro _ ⟨⟩
      rfl
  | expanded | retrieved | skipped | assessed =>
      simp only [finished] at enqueued
      exact successor_investigationId enqueued (by simp)

@[simp] theorem settle_length (jobs : List Job) (settled : Option (Nat × JobState)) :
    (settle jobs settled).length = jobs.length := by
  cases settled with
  | none => rfl
  | some change => exact List.length_modify _ _ _

theorem settle_getElem? (jobs : List Job) (index : Nat) (state : JobState) (place : Nat) :
    (settle jobs (some (index, state)))[place]? =
      jobs[place]?.map fun job => if index = place then { job with state } else job := by
  rw [settle, List.getElem?_modify]
  rfl

theorem settle_tasks (jobs : List Job) (settled : Option (Nat × JobState)) :
    (settle jobs settled).map (·.task) = jobs.map (·.task) := by
  cases settled with
  | none => rfl
  | some change =>
      obtain ⟨index, state⟩ := change
      apply List.ext_getElem?
      intro place
      rw [List.getElem?_map, List.getElem?_map, settle_getElem?, Option.map_map]
      congr 1
      funext job
      simp only [Function.comp_apply]
      split <;> rfl

theorem task?_commit {action : Action} {effect : Effect}
    (commits : Commits digests identify world action effect) {index : Nat} {task : Task} :
    (world.commit effect).task? index = some task ↔
      (world.task? index = some task ∧ ∀ ended state, effect.settled = some (ended, state) →
        ended ≠ index) ∨
      index = world.jobs.length ∧ effect.enqueued = some task := by
  have settled_task : world.task? index = some task → index < world.jobs.length := by
    intro queued
    simp only [World.task?] at queued
    split at queued
    · rename_i found
      exact (List.getElem?_eq_some_iff.mp found).1
    · simp at queued
  by_cases earlier : index < world.jobs.length
  · have elsewhere : index ≠ world.jobs.length := by omega
    simp only [World.task?, World.commit, elsewhere, false_and, or_false]
    rw [List.getElem?_append_left (by simpa using earlier)]
    cases settled : effect.settled with
    | none => simp [settle]
    | some change =>
        obtain ⟨ended, state⟩ := change
        have terminal := (commits.settles settled).1
        rw [settle_getElem?]
        cases found : world.jobs[index]? with
        | none => simp
        | some job =>
            by_cases same : ended = index
            · subst same
              cases state with
              | queued => exact absurd rfl terminal
              | published | failed => simp
            · simp [same]
  · simp only [World.task?, World.commit]
    rw [List.getElem?_append_right (by simpa using earlier)]
    have absent : ¬world.task? index = some task := fun queued => earlier (settled_task queued)
    simp only [World.task?] at absent
    simp only [absent, false_and, false_or, settle_length]
    cases enqueued : effect.enqueued with
    | none => simp
    | some next =>
        by_cases last : index = world.jobs.length
        · subst last
          simp
        · have beyond : index - world.jobs.length ≠ 0 := by omega
          obtain ⟨offset, isOffset⟩ := Nat.exists_eq_succ_of_ne_zero beyond
          simp [last, isOffset]

theorem ended_commit {action : Action} {effect : Effect}
    (commits : Commits digests identify world action effect) {job : Job}
    (member : job ∈ world.jobs) (ended : job.state ≠ .queued) :
    job ∈ (world.commit effect).jobs := by
  obtain ⟨place, isJob⟩ := List.mem_iff_getElem?.mp member
  refine List.mem_append_left _ (List.mem_of_getElem? (i := place) ?_)
  cases settled : effect.settled with
  | none => exact isJob
  | some change =>
      obtain ⟨index, state⟩ := change
      rw [settle_getElem?, isJob]
      by_cases same : index = place
      · subst same
        obtain ⟨_, task, queued, _⟩ := commits.settles settled
        simp only [World.task?, isJob] at queued
        split at queued
        · rename_i isQueued
          rw [Option.some.inj isQueued] at ended
          exact absurd rfl ended
        · simp at queued
      · simp [same]

theorem settled_commit {effect : Effect} {index : Nat} {state : JobState} {task : Task}
    (settled : effect.settled = some (index, state)) (queued : world.task? index = some task) :
    ⟨task, state⟩ ∈ (world.commit effect).jobs := by
  refine List.mem_append_left _ (List.mem_of_getElem? (i := index) ?_)
  rw [settled, settle_getElem?]
  simp only [World.task?] at queued
  split at queued
  · rename_i found
    rw [found, ← Option.some.inj queued]
    simp
  · simp at queued

theorem mem_commit {action : Action} {effect : Effect}
    (commits : Commits digests identify world action effect) {job : Job}
    (member : job ∈ (world.commit effect).jobs) :
    job ∈ world.jobs ∨
      (∃ index, effect.settled = some (index, job.state) ∧ world.task? index = some job.task) ∨
      effect.enqueued = some job.task ∧ job.state = .queued := by
  rcases List.mem_append.mp member with earlier | fresh
  · cases settled : effect.settled with
    | none =>
        rw [settled] at earlier
        exact .inl earlier
    | some change =>
        obtain ⟨index, state⟩ := change
        rw [settled] at earlier
        obtain ⟨place, isJob⟩ := List.mem_iff_getElem?.mp earlier
        rw [settle_getElem?, Option.map_eq_some_iff] at isJob
        obtain ⟨old, found, rfl⟩ := isJob
        by_cases same : index = place
        · subst same
          obtain ⟨_, task, queued, _⟩ := commits.settles settled
          have isTask := queued
          simp only [World.task?, found] at isTask
          split at isTask
          · rename_i isOld
            obtain rfl := Option.some.inj isOld
            exact .inr (.inl ⟨index, by simp, by simpa [isTask] using queued⟩)
          · simp at isTask
        · rw [if_neg same]
          exact .inl (List.mem_of_getElem? found)
  · obtain ⟨task, enqueued, rfl⟩ := List.mem_map.mp fresh
    exact .inr (.inr ⟨Option.mem_toList.mp enqueued, rfl⟩)

theorem task_commit {action : Action} {effect : Effect}
    (commits : Commits digests identify world action effect) {job : Job}
    (member : job ∈ (world.commit effect).jobs) :
    (∃ old ∈ world.jobs, job.task = old.task) ∨ effect.enqueued = some job.task := by
  rcases mem_commit commits member with earlier | ⟨index, _, queued⟩ | ⟨enqueued, _⟩
  · exact .inl ⟨job, earlier, rfl⟩
  · exact .inl ⟨_, task?_mem queued, rfl⟩
  · exact .inr enqueued

/-- What every committed effect preserves, every step preserves. -/
theorem World.step_preserves {invariant : World → Prop} {action : Action}
    (preserved : ∀ effect, Commits digests identify world action effect →
      invariant (world.commit effect))
    (holds : invariant world) : invariant (world.step digests identify action) := by
  simp only [World.step]
  split
  · exact holds
  · rename_i effect commits
    exact preserved effect (effect_commits commits)

end Ovrly.Evidence
