import Ovrly.Evidence.Coverage
import Ovrly.Evidence.Superseded

/-!
What a run of corrections leaves when no job is queued.

The reconciliation was published, unless the version it was scheduled on had gone when it ran,
and then every current claim is assessed, was attempted, or lost its run to a correction.
-/

namespace Ovrly.Evidence

open Runs
open Ovrly.Reports

variable {digests : Digests} {identify : Uuid → List (String × Nat × Nat) → String}
  {investigationId : Uuid}

/-- The reconciliation job ran when the version it was scheduled on was not the one to reconcile
any more. -/
def LostSnapshot (digests : Digests) (identify : Uuid → List (String × Nat × Nat) → String)
    (investigationId : Uuid) (actions : List Action) : Prop :=
  ∃ before index answer after reportId limited,
    actions = before ++ .reconcile index answer :: after ∧
      let world := exec (World.step digests identify) World.empty before
      world.task? index = some (.reconciliation investigationId reportId limited) ∧
        world.SnapshotLost investigationId reportId

theorem LostSnapshot.append {actions : List Action}
    (lost : LostSnapshot digests identify investigationId actions) (action : Action) :
    LostSnapshot digests identify investigationId (actions ++ [action]) := by
  obtain ⟨before, index, answer, after, reportId, limited, rfl, queued, gone⟩ := lost
  exact ⟨before, index, answer, after ++ [action], reportId, limited, by simp, queued, gone⟩

/-- A reconciliation job is queued, was published, or lost its snapshot. -/
theorem reconciliation_ends (actions : List Action) :
    ∀ job ∈ (exec (World.step digests identify) World.empty actions).jobs,
      ∀ reportId limited, job.task = .reconciliation investigationId reportId limited →
        job.state = .queued ∨ job.state = .published .reconciled ∨
          LostSnapshot digests identify investigationId actions := by
  induction actions using List.reverseRecOn with
  | nil => simp [World.empty]
  | append_singleton actions action ih =>
      rw [exec_concat]
      have kept : ∀ job ∈ (exec (World.step digests identify) World.empty actions).jobs,
          ∀ reportId limited, job.task = .reconciliation investigationId reportId limited →
            job.state = .queued ∨ job.state = .published .reconciled ∨
              LostSnapshot digests identify investigationId (actions ++ [action]) := by
        intro job member reportId limited isTask
        exact (ih job member reportId limited isTask).imp_right
          (Or.imp_right fun lost => lost.append action)
      rw [World.step]
      split
      · exact kept
      · rename_i effect isEffect
        have commits := effect_commits isEffect
        intro job member reportId limited isTask
        rcases mem_commit commits member with earlier | ⟨index, settled, queued⟩ | ⟨_, fresh⟩
        · exact kept job earlier reportId limited isTask
        · rw [isTask] at queued
          cases commits with
          | snapshotLost queued' lost =>
              simp only [failed, Option.some.injEq, Prod.mk.injEq] at settled
              obtain ⟨rfl, _⟩ := settled
              obtain ⟨rfl, rfl, rfl⟩ := Task.reconciliation.inj
                (Option.some.inj (queued'.symm.trans queued))
              exact .inr (.inr ⟨actions, _, _, [], _, _, rfl, queued, lost⟩)
          | reconciled =>
              simp only [Option.some.injEq, Prod.mk.injEq] at settled
              exact .inr (.inl settled.2.symm)
          | extracted | scheduled | corrected | requested => simp at settled
          | waited queued' _ unpublished =>
              obtain ⟨_, _, state, ends, _⟩ := unpublished
              rw [ends, Option.some.injEq, Prod.mk.injEq] at settled
              rw [← settled.1, queued'] at queued
              simp at queued
          | planned queued' | expanded queued' | unavailable queued' | retrieved queued'
          | skipped queued' | assessed queued' | invalid queued' =>
              simp only [failed, finished, Option.some.injEq, Prod.mk.injEq] at settled
              rw [← settled.1, queued'] at queued
              simp at queued
        · exact .inl fresh

theorem pairs_step {world : World} (action : Action) {pair : String × String}
    (member : pair ∈ world.pairs investigationId) :
    pair ∈ (world.step digests identify action).pairs investigationId := by
  refine @World.step_preserves _ _ _ (fun later => pair ∈ later.pairs investigationId) action
    (fun effect _ => ?_) member
  rw [World.pairs, World.commit, List.map_append, settle_tasks, List.filter_append,
    List.flatMap_append]
  exact List.mem_append_left _ member

/-- Once no job of a scheduled investigation is left, with corrections as the only requests:
reconciliation was published and every current claim of the latest version is assessed, was
attempted under the same proposition, or lost its run to a correction; or reconciliation lost its
snapshot. -/
theorem corrections_cover {actions : List Action}
    (separates : digests.Separates
      ((exec (World.step digests identify) World.empty actions).pairs investigationId))
    (only : ∀ action ∈ actions, OnlyCorrects investigationId action)
    (scheduled : (exec (World.step digests identify) World.empty actions).scheduled
      investigationId = true)
    (quiet : (exec (World.step digests identify) World.empty actions).Quiet investigationId) :
    let world := exec (World.step digests identify) World.empty actions
    LostSnapshot digests identify investigationId actions ∨
      (∃ job ∈ world.jobs, job.task.investigationId = investigationId ∧
        job.state = .published .reconciled) ∧
      ∀ latest, world.latest investigationId = some latest → ∀ claim ∈ latest.claims,
        claim.supersededByOccurrenceId = none →
          Assessed latest claim ∨ Ran world investigationId claim := by
  intro world
  have met := (@meets_of_last World Action (World.step digests identify)
    (fun before => ∀ pair ∈ before.pairs investigationId, pair ∈ world.pairs investigationId) _
    (fun before action held pair member => held pair (pairs_step action member)) _ _ only
    fun _ member => member).1
  have covering : Covering digests (world.pairs investigationId) investigationId world :=
    exec_invariant_of_meets _ (fun before action allowed covering => World.step_preserves
      (fun effect commits => covering.commit commits separates allowed.2 allowed.1) covering)
      Covering.empty met
  obtain ⟨job, member, isTask⟩ := List.any_eq_true.mp scheduled
  split at isTask
  · rename_i target reportId limited task
    have own : target = investigationId := by simpa using isTask
    subst own
    have ended := quiet job member (by rw [task]; rfl)
    rcases reconciliation_ends actions job member reportId limited task with
      queued | published | lost
    · exact absurd queued ended
    · refine .inr ⟨⟨job, member, by rw [task]; rfl, published⟩, ?_⟩
      obtain ⟨report, stored, reconciled⟩ :=
        covering.published job member reportId limited task published
      intro latest isLatest claim belongs current
      have lasts := covering.lasting report stored reconciled latest isLatest
      rcases covering.covered latest isLatest lasts claim belongs current with
        assessed | ran | waiting
      · exact .inl assessed
      · exact .inr ran
      · obtain ⟨base, _, _, index, task, queued, own, _⟩ := waiting
        exact absurd rfl (quiet _ (task?_mem queued) own)
    · exact .inl lost
  · simp at isTask

/-! ### A correction of the second claim -/

def plainReconciliation : Reconciliation where
  updates := [
    exampleUpdate "e3d61053-93a3-5026-96bb-9728932be518" ⟨"o1", 0, 15, firstRef_ordered⟩
      "The dam failed." none,
    exampleUpdate "e0d3d170-b643-50da-9cba-9139a388c60a" ⟨"o2", 0, 12, secondRef_ordered⟩
      "The dam held." none]
  explanation := "Nothing to correct."
  bounded := by decide
  explained := by decide

def reconcilePlainly (index : Nat) : Action :=
  .reconcile index {
    id := "v2"
    createdAt := 0
    output := plainReconciliation
    textOf := fun id => (exampleWindow.observation? id).map (·.text)
    now := 0
    provenance := []
    coverageLimited := false }

def correctSecond (baseVersion : Nat) (id : Uuid) : Action :=
  .request videoId "r1" id 0 (.correction ⟨baseVersion, "e0d3d170-b643-50da-9cba-9139a388c60a",
    "The dam stood.", correctVideo.bounded⟩)

/-- The correction comes before the evidence run that the reconciliation has queued. -/
def strandingRun : List Action :=
  [extractVideo, .schedule videoId false, reconcilePlainly 0, correctSecond 2 "v3",
    .retrieve 1 12 nothingFound] ++ evidenceRun 2 "v4"

/-- The correction comes between the scheduling of the reconciliation and its run. -/
def preemptingRun : List Action :=
  [extractVideo, .schedule videoId false, correctSecond 1 "v2", reconcilePlainly 0] ++
    evidenceRun 1 "v3"

theorem onlyCorrects_of_requests {actions : List Action}
    (requests : ∀ target requestId id createdAt body,
      Action.request target requestId id createdAt body ∈ actions → body.reason = .correction) :
    ∀ action ∈ actions, OnlyCorrects videoId action := by
  intro action member
  cases action with
  | request target requestId id createdAt body =>
      exact fun _ => requests target requestId id createdAt body member
  | _ => trivial

theorem strandingRun_corrects : ∀ action ∈ strandingRun, OnlyCorrects videoId action := by
  refine onlyCorrects_of_requests ?_
  intro target requestId id createdAt body member
  simp only [strandingRun, evidenceRun, extractVideo, reconcilePlainly, correctSecond,
    List.cons_append, List.nil_append, List.mem_cons, List.not_mem_nil, reduceCtorEq, or_false,
    false_or, Action.request.injEq] at member
  rw [member.2.2.2.2]
  rfl

theorem preemptingRun_corrects : ∀ action ∈ preemptingRun, OnlyCorrects videoId action := by
  refine onlyCorrects_of_requests ?_
  intro target requestId id createdAt body member
  simp only [preemptingRun, evidenceRun, extractVideo, reconcilePlainly, correctSecond,
    List.cons_append, List.nil_append, List.mem_cons, List.not_mem_nil, reduceCtorEq, or_false,
    false_or, Action.request.injEq] at member
  rw [member.2.2.2.2]
  rfl

def quietVideo (world : World) : Bool :=
  world.jobs.all fun job => job.task.investigationId != videoId || job.state != .queued

theorem quietVideo_spec {world : World} (quiet : quietVideo world = true) :
    world.Quiet videoId := by
  intro job member own queued
  have ended := List.all_eq_true.mp quiet job member
  simp [own, queued] at ended

/-! ### A corrected claim with evidence -/

/-- The identifiers of the run below, as SHA-256 cut to 24 digits gives them. -/
def dammedDigests : Digests where
  evidenceId
    | "e3d61053-93a3-5026-96bb-9728932be518", "doi:10.1000/dam" => "evd_7b27020e6ac84b5416441fe0"
    | "e0d3d170-b643-50da-9cba-9139a388c60a", "doi:10.1000/dam" => "evd_c3730aeb0c6574b9b72a6208"
    | _, _ => "evd_"
  assessmentId
    | "e3d61053-93a3-5026-96bb-9728932be518", 3 => "asm_a24b4c8f7ebb721104bdc92a"
    | "e0d3d170-b643-50da-9cba-9139a388c60a", 3 => "asm_cc9e26bb731e56144b63c95a"
    | "e0d3d170-b643-50da-9cba-9139a388c60a", 5 => "asm_9a5e19e65cb6d928bfb5ea30"
    | _, _ => "asm_"
  note text := text

def damFound (_ : Nat) : Searched :=
  .found ⟨[{
    origin := "doi:10.1000/dam"
    source := ⟨"src_dam", "The dam", "Journal of Dams", none, none⟩
    sourceType := .peerReviewed
    inspectionLevel := .abstractOnly
    retrievalRelevance := .high
    retractionStatus := .none
    excerpt := some "The dam held until Monday."
    retrievedAt := 0 }], List.nodup_singleton _⟩ 1 0 [] false

def labelsDam (_ : Nat) : RouterAnswer := .replied [⟨"p1", .challenges, "It held until Monday."⟩]

def dammedRun : List Action :=
  [extractVideo, .schedule videoId false, reconcilePlainly 0, .retrieve 1 12 damFound,
    .assess 2 "v3" 0 false labelsDam, correctSecond 3 "v4", .reanalyse 3 "" 0,
    .retrieve 4 12 damFound, .assess 5 "v5" 0 false labelsDam]

def dammedWorld : World := exec (World.step dammedDigests exampleIdentify) World.empty dammedRun

theorem dammedRun_corrects : ∀ action ∈ dammedRun, OnlyCorrects videoId action := by
  refine onlyCorrects_of_requests ?_
  intro target requestId id createdAt body member
  simp only [dammedRun, extractVideo, reconcilePlainly, correctSecond, List.mem_cons,
    List.not_mem_nil, reduceCtorEq, or_false, false_or, Action.request.injEq] at member
  rw [member.2.2.2.2]
  rfl

theorem corrections_cover_example :
    (dammedWorld.archive videoId).map (fun report => (report.version, report.evidence.length)) =
        [(1, 0), (2, 0), (3, 2), (4, 1), (5, 2)] ∧
      (LostSnapshot dammedDigests exampleIdentify videoId dammedRun ∨
        (∃ job ∈ dammedWorld.jobs, job.task.investigationId = videoId ∧
          job.state = .published .reconciled) ∧
        ∀ latest, dammedWorld.latest videoId = some latest → ∀ claim ∈ latest.claims,
          claim.supersededByOccurrenceId = none →
            Assessed latest claim ∨ Ran dammedWorld videoId claim) := by
  refine ⟨by decide +kernel, ?_⟩
  exact corrections_cover
    (show dammedDigests.Separates (dammedWorld.pairs videoId) by decide +kernel)
    dammedRun_corrects (show dammedWorld.scheduled videoId = true by decide +kernel)
    (quietVideo_spec (show quietVideo dammedWorld = true by decide +kernel))

/-- Whether a current claim of the latest version has no assessment and was in no run that
published its outcomes. -/
def strandsClaim (world : World) : Bool :=
  (world.latest videoId).any fun latest => latest.claims.any fun claim =>
    claim.supersededByOccurrenceId.isNone && latest.assessments.all (·.claimId != claim.id) &&
      world.jobs.all fun job =>
        match job.task, job.state with
        | .assessment _ artifact, .published (.version _) =>
            artifact.claims.all (·.claimId != claim.id)
        | _, _ => true

/-- A correction can keep the reconciliation from ever being published, and it can leave a claim
it does not name without an assessment and without an attempt. -/
theorem correction_strands :
    (¬∀ actions, (∀ action ∈ actions, OnlyCorrects videoId action) →
      (exampleWorld actions).scheduled videoId = true → (exampleWorld actions).Quiet videoId →
        ∃ job ∈ (exampleWorld actions).jobs, job.state = .published .reconciled) ∧
    ¬∀ actions, (∀ action ∈ actions, OnlyCorrects videoId action) →
      (exampleWorld actions).scheduled videoId = true → (exampleWorld actions).Quiet videoId →
        ∀ latest, (exampleWorld actions).latest videoId = some latest →
          ∀ claim ∈ latest.claims, claim.supersededByOccurrenceId = none →
            Assessed latest claim ∨
              ∃ base ∈ (exampleWorld actions).archive videoId, ∃ job ∈ (exampleWorld actions).jobs,
                job.task.Serves videoId base claim ∧ job.Attempted := by
  constructor
  · intro always
    obtain ⟨job, member, published⟩ := always preemptingRun preemptingRun_corrects
      (by decide +kernel) (quietVideo_spec (by decide +kernel))
    have unpublished : (exampleWorld preemptingRun).jobs.all
        (·.state != .published .reconciled) = true := by decide +kernel
    have never := List.all_eq_true.mp unpublished job member
    simp [published] at never
  · intro always
    have stranded : strandsClaim (exampleWorld strandingRun) = true := by decide +kernel
    rw [strandsClaim, Option.any_eq_true] at stranded
    obtain ⟨latest, isLatest, strands⟩ := stranded
    obtain ⟨claim, belongs, strands⟩ := List.any_eq_true.mp strands
    simp only [Bool.and_eq_true, Option.isNone_iff_eq_none] at strands
    obtain ⟨⟨current, unassessed⟩, unattempted⟩ := strands
    rcases always strandingRun strandingRun_corrects (by decide +kernel)
      (quietVideo_spec (by decide +kernel)) latest isLatest claim belongs current with
      ⟨assessment, held, isFor⟩ | ⟨base, _, job, member, ⟨_, _, named, _⟩, attempted⟩
    · have other := List.all_eq_true.mp unassessed assessment held
      simp [isFor] at other
    · obtain ⟨payload, artifact, version, isTask, isState⟩ := attempted
      have other := List.all_eq_true.mp unattempted job member
      rw [isTask] at named
      obtain ⟨retrieval, among, isFor⟩ := List.mem_map.mp named
      simp only [isTask, isState] at other
      have apart := List.all_eq_true.mp other retrieval among
      simp [isFor] at apart

end Ovrly.Evidence
