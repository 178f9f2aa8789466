import Ovrly.Reports.Builders
import Ovrly.Runs

/-!
The stored versions of all investigations, as publications append to them.

A publication is atomic here: the interleavings of the publishers' own reads and transactions
are the subject of `Reports.Chain`. Every list of publications is a run.
-/

namespace Ovrly.Reports

open Runs
open Ovrly.Extraction (groundedClaims)

/-- The rows of `report_versions`, by investigation. -/
abbrev Archive := Uuid → List ReportVersion

def Archive.empty : Archive := fun _ => []

structure Publication where
  investigationId : Uuid
  id : Uuid
  createdAt : Timestamp
  builder : Builder

/-- An expansion brings in the latest version of the investigation it names. -/
def Builder.Reads (archive : Archive) : Builder → Prop
  | .expansion full sourceId => latestVersion (archive sourceId) = some full
  | _ => True

instance (archive : Archive) (builder : Builder) : Decidable (builder.Reads archive) := by
  cases builder <;> simp only [Builder.Reads] <;> infer_instance

variable (identify : Uuid → List (String × Nat × Nat) → String)

def publication (archive : Archive) (request : Publication) : Except BuildError ReportVersion :=
  let rows := archive request.investigationId
  let previous := latestVersion rows
  publishReportVersion rows request.investigationId request.id request.createdAt
    (request.builder.fixture previous) (request.builder.build identify previous)

def publish (archive : Archive) (request : Publication) : Archive :=
  if request.builder.Reads archive then
    match publication identify archive request with
    | .error _ => archive
    | .ok report =>
        Function.update archive request.investigationId
          (archive request.investigationId ++ [report])
  else archive

def published (requests : List Publication) : Archive :=
  exec (publish identify) Archive.empty requests

variable {identify}

theorem latestVersion_mem {rows : List ReportVersion} {report : ReportVersion}
    (latest : latestVersion rows = some report) : report ∈ rows :=
  List.argmax_mem latest

/-- A published version is what the builder made of the latest one, under the identity that
follows it. -/
theorem publishReportVersion_ok {rows : List ReportVersion} {investigationId id : Uuid}
    {createdAt : Timestamp} {fixture : Bool}
    {build : NextVersion → Except BuildError ReportVersion} {report : ReportVersion}
    (ok : publishReportVersion rows investigationId id createdAt fixture build = .ok report) :
    ∃ built, build (nextIdentity investigationId id createdAt (latestVersion rows)) = .ok built ∧
      report = { built with fixture } ∧ report.id = id ∧
      report.investigationId = investigationId ∧
      report.version = (nextIdentity investigationId id createdAt (latestVersion rows)).version ∧
      report.supersedes = (latestVersion rows).map (·.id) := by
  simp only [publishReportVersion] at ok
  split at ok
  · simp at ok
  · rename_i built accepted
    split at ok
    · simp at ok
    · rename_i identical
      rw [not_not, Prod.mk.injEq, Prod.mk.injEq, Prod.mk.injEq] at identical
      rw [Except.ok.injEq] at ok
      subst ok
      exact ⟨built, accepted, rfl, identical.1, identical.2.1, identical.2.2.1, identical.2.2.2⟩

theorem publication_ok {archive : Archive} {request : Publication} {report : ReportVersion}
    (ok : publication identify archive request = .ok report) :
    ∃ built identity, request.builder.build identify
        (latestVersion (archive request.investigationId)) identity = .ok built ∧
      report = { built with fixture := report.fixture } ∧
      report.investigationId = request.investigationId ∧
      report.version = (nextIdentity request.investigationId request.id request.createdAt
        (latestVersion (archive request.investigationId))).version := by
  obtain ⟨built, accepted, rfl, _, named, numbered, _⟩ := publishReportVersion_ok ok
  exact ⟨built, _, accepted, rfl, named, numbered⟩

/-! ### Numbered rows -/

/-- The rows of an investigation carry the versions from one on. -/
def Numbered (rows : List ReportVersion) : Prop :=
  rows.map (·.version) = List.range' 1 rows.length

theorem Numbered.empty : Numbered [] := rfl

theorem Numbered.append {rows : List ReportVersion} (numbered : Numbered rows)
    {report : ReportVersion} (next : report.version = rows.length + 1) :
    Numbered (rows ++ [report]) := by
  rw [Numbered, List.map_append, numbered, List.map_singleton, next, List.length_append,
    List.length_singleton, List.range'_append_1.symm]
  simp [Nat.add_comm]

theorem Numbered.bound {rows : List ReportVersion} (numbered : Numbered rows)
    {report : ReportVersion} (member : report ∈ rows) :
    1 ≤ report.version ∧ report.version ≤ rows.length := by
  have counted := List.mem_map_of_mem (f := (·.version)) member
  rw [numbered, List.mem_range'_1] at counted
  omega

theorem Numbered.eq_of_version {rows : List ReportVersion} (numbered : Numbered rows)
    {first second : ReportVersion} (firstMember : first ∈ rows) (secondMember : second ∈ rows)
    (same : first.version = second.version) : first = second := by
  have distinct : (rows.map (·.version)).Nodup := by
    rw [numbered]
    exact List.nodup_range'
  exact List.inj_on_of_nodup_map distinct firstMember secondMember same

theorem Numbered.latest_version {rows : List ReportVersion} (numbered : Numbered rows)
    {report : ReportVersion} (latest : latestVersion rows = some report) :
    report.version = rows.length := by
  have bound := numbered.bound (latestVersion_mem latest)
  have last : rows.length ∈ rows.map (·.version) := by
    rw [numbered, List.mem_range'_1]
    omega
  obtain ⟨other, member, isLast⟩ := List.mem_map.mp last
  have most := List.le_of_mem_argmax member latest
  omega

theorem Numbered.latest_of_version {rows : List ReportVersion} (numbered : Numbered rows)
    {report : ReportVersion} (member : report ∈ rows) (last : report.version = rows.length) :
    latestVersion rows = some report := by
  cases latest : latestVersion rows with
  | none =>
      rw [latestVersion, List.argmax_eq_none] at latest
      simp [latest] at member
  | some best =>
      rw [numbered.eq_of_version (latestVersion_mem latest) member]
      rw [last, numbered.latest_version latest]

theorem Numbered.next {rows : List ReportVersion} (numbered : Numbered rows)
    {investigationId id : Uuid} {createdAt : Timestamp} :
    (nextIdentity investigationId id createdAt (latestVersion rows)).version =
      rows.length + 1 := by
  cases latest : latestVersion rows with
  | none =>
      rw [latestVersion, List.argmax_eq_none] at latest
      simp [nextIdentity, latest]
  | some report => simp [nextIdentity, numbered.latest_version latest]

/-- A row after a publication was there before, or is what the builder made of the latest row of
its investigation. -/
theorem publish_origin {archive : Archive} {request : Publication} {investigationId : Uuid}
    {report : ReportVersion} (member : report ∈ publish identify archive request investigationId) :
    report ∈ archive investigationId ∨
      request.investigationId = investigationId ∧ request.builder.Reads archive ∧
      ∃ built identity,
        request.builder.build identify (latestVersion (archive investigationId)) identity =
          .ok built ∧
        report = { built with
          fixture := request.builder.fixture (latestVersion (archive investigationId)) } := by
  by_cases reads : request.builder.Reads archive
  · cases ok : publication identify archive request with
    | error refused =>
        simp only [publish, reads, ok, if_true] at member
        exact Or.inl member
    | ok fresh =>
        simp only [publish, reads, ok, if_true] at member
        by_cases same : investigationId = request.investigationId
        · subst same
          rw [Function.update_self] at member
          rcases List.mem_append.mp member with earlier | last
          · exact Or.inl earlier
          · obtain rfl := List.mem_singleton.mp last
            obtain ⟨built, accepted, carried, _⟩ := publishReportVersion_ok ok
            exact Or.inr ⟨rfl, reads, built, _, accepted, carried⟩
        · rw [Function.update_of_ne same] at member
          exact Or.inl member
  · simp only [publish, reads, if_false] at member
    exact Or.inl member

/-- What every builder preserves, from the versions it reads, holds of every stored version. -/
theorem published_invariant (invariant : ReportVersion → Prop)
    {condition : Archive → Publication → Prop}
    (fixtures : ∀ report fixture, invariant report → invariant { report with fixture })
    (preserved : ∀ archive request identity built,
      (∀ investigationId, ∀ report ∈ archive investigationId, invariant report) →
      condition archive request → request.builder.Reads archive →
      request.builder.build identify (latestVersion (archive request.investigationId)) identity =
        .ok built → invariant built)
    {requests : List Publication}
    (met : Meets (publish identify) condition Archive.empty requests) :
    ∀ investigationId, ∀ report ∈ published identify requests investigationId,
      invariant report := by
  refine exec_invariant_of_meets
    (fun archive => ∀ investigationId, ∀ report ∈ archive investigationId, invariant report)
    ?_ ?_ met
  · intro archive request allowed holds investigationId report member
    rcases publish_origin member with earlier | ⟨rfl, reads, built, identity, accepted, rfl⟩
    · exact holds investigationId report earlier
    · exact fixtures built _ (preserved archive request identity built holds allowed reads accepted)
  · intro investigationId report member
    simp [Archive.empty] at member

theorem meets_true {σ α : Type} {step : σ → α → σ} (start : σ) (actions : List α) :
    Meets step (fun _ _ => True) start actions := by
  induction actions generalizing start with
  | nil => trivial
  | cons action rest ih => exact ⟨trivial, ih _⟩

/-! ### Every stored version passes citation validation -/

theorem Cited.fixture {report : ReportVersion} (cited : Cited report) (fixture : Bool) :
    Cited { report with fixture } where
  evidenceDistinct := cited.evidenceDistinct
  evidenceOwned := cited.evidenceOwned
  assessedOnce := cited.assessedOnce
  assessments assessment member :=
    let citedIn := cited.assessments assessment member
    ⟨citedIn.claim, citedIn.version, citedIn.relations, citedIn.abstains⟩

theorem extractedVersion_cited {incremental : Bool} {previous : Option ReportVersion}
    {claims : List Claim} {provenance : List ProcessingAttempt} {identity : NextVersion}
    (cited : ∀ report, previous = some report → Cited report) :
    Cited (extractedVersion incremental previous claims provenance identity) := by
  cases previous with
  | none => exact ⟨by simp, by simp, by simp, by simp⟩
  | some report =>
      refine (cited report rfl).restrict (fun _ => true) ?_ (by simp) (by simp)
      intro id known
      obtain ⟨claim, member, rfl⟩ := List.mem_map.mp known
      apply List.mem_map_of_mem
      rw [(extractedVersion_claims _ _ _ _ _).mem_iff]
      exact List.mem_append_left _ member

theorem reconciledVersion_cited {previous : ReportVersion} {output : Reconciliation}
    {textOf : String → Option String} {now : Timestamp} {reconciled : Reconciled}
    (accepted : reconcileClaims output previous textOf now = .ok reconciled) {explanation : String}
    {provenance : List ProcessingAttempt} {coverageLimited : Bool} {identity : NextVersion}
    (cited : Cited previous) :
    Cited (reconciledVersion previous reconciled explanation provenance coverageLimited
      identity) := by
  refine cited.restrict (fun id => !reconciled.invalidated.contains id) ?_ rfl rfl
  intro id known
  rwa [show (reconciledVersion previous reconciled explanation provenance coverageLimited
    identity).claims.map (·.id) = previous.claims.map (·.id) from reconcileClaims_ids accepted]

theorem correctedReport_cited {base report : ReportVersion} {body : CorrectionReanalysis}
    {identity : NextVersion} (corrected : correctedReport base body identity = .ok report)
    (cited : Cited base) : Cited report := by
  obtain ⟨claim, corrects⟩ := correctedReport_ok corrected
  refine cited.restrict (fun id => id != claim.id) ?_ corrects.evidence
    (by rw [corrects.assessments, corrects.version])
  intro id known
  obtain ⟨item, member, rfl⟩ := List.mem_map.mp known
  rw [corrects.claims, List.map_map]
  refine List.mem_map.mpr ⟨item, member, ?_⟩
  simp only [Function.comp_apply]
  split
  · rename_i same
    exact same.symm
  · rfl

theorem Builder.build_cited {builder : Builder} {previous : Option ReportVersion}
    {identity : NextVersion} {built : ReportVersion}
    (accepted : builder.build identify previous identity = .ok built)
    (cited : ∀ report, previous = some report → Cited report) : Cited built := by
  cases Builder.build_built identify accepted with
  | extracted =>
      refine extractedVersion_cited ?_
      intro report known
      split at known
      · exact cited report known
      · simp at known
  | reconciled latest _ revised => exact reconciledVersion_cited revised (cited _ latest)
  | corrected latest corrected => exact correctedReport_cited corrected (cited _ latest)
  | merged _ valid | expanded _ valid => exact (validateCitations_iff _).mp valid

/-- Whatever the builders publish, in any order and over any versions, passes
`validateCitations`. -/
theorem published_cited (requests : List Publication) (investigationId : Uuid) :
    ∀ report ∈ published identify requests investigationId, validateCitations report = .ok () := by
  intro report member
  refine (validateCitations_iff report).mpr ?_
  refine published_invariant Cited (fun _ fixture cited => cited.fixture fixture) ?_
    (meets_true Archive.empty requests) investigationId report member
  intro archive request identity built holds _ _ accepted
  refine Builder.build_cited accepted ?_
  intro previous latest
  exact holds _ previous (latestVersion_mem latest)

end Ovrly.Reports
