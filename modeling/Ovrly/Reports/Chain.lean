import Ovrly.Reports.Carry
import Ovrly.Reports.Links

/-!
The publishers of one investigation, interleaved.

Each party runs its reads and its publish transaction step by step. `SELECT ... FOR UPDATE` on
the investigation row is the lock; reads outside it see whatever is committed by then. Every list
of steps of any number of parties is a run.
-/

namespace Ovrly.Reports

open Runs
open Ovrly.Extraction (ObservationWindow Occurrence)

inductive Publisher
  | extraction (occurrences : List Occurrence) (window : ObservationWindow)
      (provenance : List ProcessingAttempt)
  | reconciliation (reportId : Uuid) (output : Reconciliation)
      (textOf : String → Option String) (now : Timestamp) (provenance : List ProcessingAttempt)
      (coverageLimited : Bool)
  | correction (body : CorrectionReanalysis)
  | assessment (baseVersion : Nat) (outcomes : List ClaimOutcome) (captureOpen : Bool)
      (depth : Depth)
  | expansion (baseVersion : Nat) (sourceId : Uuid)

/-- What a publisher hands to `publish_report_version`. -/
structure Plan where
  builder : Builder
  base : Option ReportVersion
  fixture : Bool

def superseded : Except BuildError Plan := .error (.publishRejected "superseded")

/-- The checks of a publisher under the lock: `seen` was read before it, `latest` under it, and
`source` is the latest version of the investigation an expansion names. -/
def Publisher.plan (publisher : Publisher) (seen latest source : Option ReportVersion) :
    Except BuildError Plan :=
  match publisher with
  | .extraction occurrences window provenance =>
      .ok ⟨.extraction true occurrences window provenance, latest, latest.any (·.fixture)⟩
  | .reconciliation reportId output textOf now provenance coverageLimited =>
      match seen, latest with
      | none, _ => .error (.nonRetriableInput "No provisional extraction is available")
      | some _, none => .error (.publishRejected "reconciliation snapshot was superseded")
      | some previous, some current =>
          if previous.id ≠ reportId then
            .error (.nonRetriableInput "Reconciliation snapshot was superseded")
          else if current.id ≠ previous.id then
            .error (.publishRejected "reconciliation snapshot was superseded")
          else
            .ok ⟨.reconciliation output textOf now provenance coverageLimited, some previous,
              previous.fixture⟩
  | .correction body =>
      match latest with
      | none =>
          .error (.apiError 409 "REPORT_NOT_AVAILABLE"
            "The check has no published report to reanalyse yet")
      | some current =>
          if body.baseVersion ≠ current.version then
            .error (.apiError 409 "REPORT_VERSION_STALE"
              ("Reanalysis must start from the latest report version, " ++
                toString current.version))
          else .ok ⟨.correction body, some current, current.fixture⟩
  | .assessment baseVersion outcomes captureOpen depth =>
      match seen, latest with
      | some base, some current =>
          if base.version ≠ baseVersion ∨ current.version ≠ baseVersion then superseded
          else .ok ⟨.assessment outcomes captureOpen depth, some base, current.fixture⟩
      | _, _ => superseded
  | .expansion baseVersion sourceId =>
      match latest, source with
      | some current, some full =>
          if current.version ≠ baseVersion then superseded
          else .ok ⟨.expansion full sourceId, some current, current.fixture || full.fixture⟩
      | _, _ => superseded

/-- Where a party stands. From `locked` on it holds the lock. -/
inductive Phase
  | idle
  | reading (publisher : Publisher) (seen : Option ReportVersion)
  | locked (publisher : Publisher) (seen : Option ReportVersion)
  | current (publisher : Publisher) (seen latest : Option ReportVersion)
  | inserted (report : ReportVersion)

def Phase.holds : Phase → Bool
  | .idle | .reading _ _ => false
  | .locked _ _ | .current _ _ _ | .inserted _ => true

def Phase.seen? : Phase → Option ReportVersion
  | .reading _ seen | .locked _ seen | .current _ seen _ => seen
  | .idle | .inserted _ => none

/-- The committed versions of one investigation, its row lock and its publishers. -/
structure Session where
  rows : List ReportVersion
  lock : Option Nat
  phase : Nat → Phase

def Session.initial : Session := ⟨[], none, fun _ => .idle⟩

inductive Action
  | snapshot (party : Nat) (publisher : Publisher)
  | lock (party : Nat)
  | read (party : Nat)
  | insert (party : Nat) (id : Uuid) (createdAt : Timestamp) (source : Option ReportVersion)
  | commit (party : Nat)
  | abort (party : Nat)

def Session.enter (session : Session) (party : Nat) (phase : Phase) : Session :=
  { session with phase := Function.update session.phase party phase }

def Session.leave (session : Session) (party : Nat) : Session :=
  { session.enter party .idle with
    lock := if session.lock = some party then none else session.lock }

variable (identify : Uuid → List (String × Nat × Nat) → String) (investigationId : Uuid)

/-- The row a party inserts, unless a check refuses it or its id is taken. -/
def Session.build (session : Session) (publisher : Publisher)
    (seen latest source : Option ReportVersion) (id : Uuid) (createdAt : Timestamp) :
    Except BuildError ReportVersion :=
  match publisher.plan seen latest source with
  | .error refused => .error refused
  | .ok plan =>
      if id ∈ session.rows.map (·.id) then .error (.valueError "duplicate key")
      else
        publishReportVersion session.rows investigationId id createdAt plan.fixture
          (plan.builder.build identify plan.base)

def Session.step (session : Session) : Action → Session
  | .snapshot party publisher =>
      match session.phase party with
      | .idle => session.enter party (.reading publisher (latestVersion session.rows))
      | _ => session
  | .lock party =>
      match session.phase party, session.lock with
      | .reading publisher seen, none =>
          { session.enter party (.locked publisher seen) with lock := some party }
      | _, _ => session
  | .read party =>
      match session.phase party with
      | .locked publisher seen =>
          session.enter party (.current publisher seen (latestVersion session.rows))
      | _ => session
  | .insert party id createdAt source =>
      match session.phase party with
      | .current publisher seen latest =>
          match session.build identify investigationId publisher seen latest source id
              createdAt with
          | .error _ => session.leave party
          | .ok report => session.enter party (.inserted report)
      | _ => session
  | .commit party =>
      match session.phase party with
      | .inserted report =>
          { session.leave party with rows := session.rows ++ [report] }
      | _ => session
  | .abort party => session.leave party

/-- At an insertion, the claims the builder rewrites as one have one origin. -/
def Session.Unambiguous (session : Session) : Action → Prop
  | .insert party _ _ source =>
      ∀ publisher seen latest, session.phase party = .current publisher seen latest →
        ∀ plan, publisher.plan seen latest source = .ok plan →
          ∀ base, plan.base = some base → plan.builder.Unambiguous base
  | _ => True

/-! ### Chains of versions -/

/-- The report continues the committed rows: it is what one builder made of the last of them. -/
structure Continues (rows : List ReportVersion) (report : ReportVersion) : Prop where
  version : report.version = rows.length + 1
  supersedes : report.supersedes = rows.getLast?.map (·.id)
  fresh : report.id ∉ rows.map (·.id)
  built : ∃ builder identity built,
    builder.build identify rows.getLast? identity = .ok built ∧
      report = { built with fixture := report.fixture } ∧
      ∀ previous, rows.getLast? = some previous → Carries builder previous report

inductive Chain : List ReportVersion → Prop
  | empty : Chain []
  | extend {rows report} : Chain rows → Continues identify rows report → Chain (rows ++ [report])

variable {identify} {investigationId}

theorem Chain.numbered {rows : List ReportVersion} (chain : Chain identify rows) :
    Numbered rows := by
  induction chain with
  | empty => exact Numbered.empty
  | extend _ continues ih => exact ih.append continues.version

theorem Chain.ids {rows : List ReportVersion} (chain : Chain identify rows) :
    (rows.map (·.id)).Nodup := by
  induction chain with
  | empty => exact List.nodup_nil
  | extend _ continues ih =>
      rw [List.map_append, List.nodup_append]
      refine ⟨ih, List.nodup_singleton _, ?_⟩
      intro first member second last same
      rw [List.map_singleton, List.mem_singleton] at last
      exact continues.fresh (last ▸ same ▸ member)

theorem Chain.last_version {rows : List ReportVersion} (chain : Chain identify rows)
    {last : ReportVersion} (isLast : rows.getLast? = some last) : last.version = rows.length := by
  cases chain with
  | empty => simp at isLast
  | extend chain continues =>
      rw [List.getLast?_concat, Option.some.injEq] at isLast
      rw [← isLast, continues.version, List.length_append, List.length_singleton]

theorem Chain.latest {rows : List ReportVersion} (chain : Chain identify rows) :
    latestVersion rows = rows.getLast? := by
  cases last : rows.getLast? with
  | none =>
      rw [List.getLast?_eq_none_iff] at last
      subst last
      rfl
  | some report =>
      exact chain.numbered.latest_of_version (List.mem_of_getLast? last) (chain.last_version last)

theorem Chain.eq_of_id {rows : List ReportVersion} (chain : Chain identify rows)
    {first second : ReportVersion} (firstMember : first ∈ rows) (secondMember : second ∈ rows)
    (same : first.id = second.id) : first = second :=
  List.inj_on_of_nodup_map chain.ids firstMember secondMember same

/-! ### One step -/

/-- The lock has one holder, what the holder read under it is still the latest version, and what
it inserted continues the committed rows. -/
structure Serial (identify : Uuid → List (String × Nat × Nat) → String) (session : Session) :
    Prop where
  chain : Chain identify session.rows
  holder : ∀ party, (session.phase party).holds = true → session.lock = some party
  seen : ∀ party report, (session.phase party).seen? = some report → report ∈ session.rows
  current : ∀ party publisher seen latest,
    session.phase party = .current publisher seen latest → latest = latestVersion session.rows
  inserted : ∀ party report, session.phase party = .inserted report →
    Continues identify session.rows report

theorem initial_serial : Serial identify Session.initial where
  chain := .empty
  holder _ holds := by simp [Session.initial, Phase.holds] at holds
  seen _ _ found := by simp [Session.initial, Phase.seen?] at found
  current _ _ _ _ isCurrent := by simp [Session.initial] at isCurrent
  inserted _ _ isInserted := by simp [Session.initial] at isInserted

theorem plan_base {session : Session} (serial : Serial identify session) {party : Nat}
    {publisher : Publisher} {seen latest source : Option ReportVersion}
    (isCurrent : session.phase party = .current publisher seen latest) {plan : Plan}
    (planned : publisher.plan seen latest source = .ok plan) :
    plan.base = latestVersion session.rows := by
  have isLatest := serial.current party publisher seen latest isCurrent
  cases publisher with
  | extraction occurrences window provenance =>
      simp only [Publisher.plan, Except.ok.injEq] at planned
      rw [← planned, isLatest]
  | reconciliation reportId output textOf now provenance coverageLimited =>
      simp only [Publisher.plan] at planned
      split at planned
      · simp at planned
      · simp at planned
      · rename_i previous current
        split at planned
        · simp at planned
        · split at planned
          · simp at planned
          · rename_i same
            rw [not_not] at same
            rw [Except.ok.injEq] at planned
            have member := serial.seen party previous (by rw [isCurrent]; rfl)
            have latestMember := latestVersion_mem isLatest.symm
            rw [← planned, ← isLatest, serial.chain.eq_of_id latestMember member same]
  | correction body =>
      simp only [Publisher.plan] at planned
      split at planned
      · simp at planned
      · split at planned
        · simp at planned
        · rw [Except.ok.injEq] at planned
          rw [← planned, ← isLatest]
  | assessment baseVersion outcomes captureOpen depth =>
      simp only [Publisher.plan] at planned
      split at planned
      · rename_i base current
        split at planned
        · simp [superseded] at planned
        · rename_i same
          push Not at same
          rw [Except.ok.injEq] at planned
          have member := serial.seen party base (by rw [isCurrent]; rfl)
          have latestMember := latestVersion_mem isLatest.symm
          rw [← planned, ← isLatest,
            serial.chain.numbered.eq_of_version latestMember member (same.2.trans same.1.symm)]
      · simp [superseded] at planned
  | expansion baseVersion sourceId =>
      simp only [Publisher.plan] at planned
      split at planned
      · split at planned
        · simp [superseded] at planned
        · rw [Except.ok.injEq] at planned
          rw [← planned, ← isLatest]
      · simp [superseded] at planned

/-- What a party inserts under the lock continues the committed rows. -/
theorem build_continues {session : Session} (serial : Serial identify session) {party : Nat}
    {publisher : Publisher} {seen latest source : Option ReportVersion} {id : Uuid}
    {createdAt : Timestamp} {report : ReportVersion}
    (isCurrent : session.phase party = .current publisher seen latest)
    (ok : session.build identify investigationId publisher seen latest source id createdAt =
      .ok report)
    (unambiguous : ∀ plan, publisher.plan seen latest source = .ok plan →
      ∀ base, plan.base = some base → plan.builder.Unambiguous base) :
    Continues identify session.rows report := by
  simp only [Session.build] at ok
  split at ok
  · simp at ok
  · rename_i plan planned
    split at ok
    · simp at ok
    · rename_i fresh
      have base := plan_base serial isCurrent planned
      have last := serial.chain.latest
      obtain ⟨built, accepted, carried, sameId, _, version, supersedes⟩ :=
        publishReportVersion_ok ok
      rw [base, last] at accepted
      refine ⟨?_, by rw [supersedes, last], sameId ▸ fresh, plan.builder, _, built, accepted, ?_, ?_⟩
      · rw [version, last]
        cases found : session.rows.getLast? with
        | none =>
            rw [List.getLast?_eq_none_iff.mp found]
            rfl
        | some previous =>
            rw [← serial.chain.last_version found]
            rfl
      · rw [carried]
      · intro previous isLast
        rw [isLast] at accepted
        have carries := Builder.build_carries accepted
          (unambiguous plan planned previous (by rw [base, last, isLast]))
        rw [carried]
        exact carries.fixture plan.fixture

theorem enter_serial {session : Session} (serial : Serial identify session) {party : Nat}
    {phase : Phase} (holder : phase.holds = true → session.lock = some party)
    (seen : ∀ report, phase.seen? = some report → report ∈ session.rows)
    (current : ∀ publisher seen latest, phase = .current publisher seen latest →
      latest = latestVersion session.rows)
    (inserted : ∀ report, phase = .inserted report → Continues identify session.rows report) :
    Serial identify (session.enter party phase) := by
  have other : ∀ {someone : Nat}, someone ≠ party →
      (session.enter party phase).phase someone = session.phase someone :=
    fun different => Function.update_of_ne different _ _
  have own : (session.enter party phase).phase party = phase := Function.update_self _ _ _
  refine ⟨serial.chain, ?_, ?_, ?_, ?_⟩
  · intro someone holds
    by_cases same : someone = party
    · subst same
      rw [own] at holds
      exact holder holds
    · rw [other same] at holds
      exact serial.holder someone holds
  · intro someone report found
    by_cases same : someone = party
    · subst same
      rw [own] at found
      exact seen report found
    · rw [other same] at found
      exact serial.seen someone report found
  · intro someone publisher saw latest isCurrent
    by_cases same : someone = party
    · subst same
      rw [own] at isCurrent
      exact current publisher saw latest isCurrent
    · rw [other same] at isCurrent
      exact serial.current someone publisher saw latest isCurrent
  · intro someone report isInserted
    by_cases same : someone = party
    · subst same
      rw [own] at isInserted
      exact inserted report isInserted
    · rw [other same] at isInserted
      exact serial.inserted someone report isInserted

theorem leave_serial {session : Session} (serial : Serial identify session) (party : Nat) :
    Serial identify (session.leave party) := by
  have idle : Serial identify (session.enter party .idle) :=
    enter_serial serial (by simp [Phase.holds]) (by simp [Phase.seen?]) (by simp) (by simp)
  refine ⟨idle.chain, ?_, idle.seen, idle.current, idle.inserted⟩
  intro someone holds
  have held := idle.holder someone holds
  have different : someone ≠ party := by
    rintro rfl
    simp [Session.leave, Session.enter, Phase.holds] at holds
  change (if session.lock = some party then none else session.lock) = some someone
  rw [show session.lock = some someone from held, if_neg]
  intro same
  exact different (Option.some.inj same)

/-- Only the holder is past the lock, so a commit invalidates nobody's reading under it. -/
theorem commit_serial {session : Session} (serial : Serial identify session) {party : Nat}
    {report : ReportVersion} (isInserted : session.phase party = .inserted report) :
    Serial identify { session.leave party with rows := session.rows ++ [report] } := by
  have left := leave_serial serial party
  have held := serial.holder party (by rw [isInserted]; rfl)
  have alone : ∀ someone, (session.phase someone).holds = true → someone = party := by
    intro someone holds
    have same := serial.holder someone holds
    rw [held, Option.some.injEq] at same
    exact same.symm
  have outside : ∀ someone, ((session.leave party).phase someone).holds = false := by
    intro someone
    by_cases same : someone = party
    · subst same
      simp [Session.leave, Session.enter, Phase.holds]
    · cases holds : (session.phase someone).holds with
      | true => exact absurd (alone someone holds) same
      | false =>
          rw [show (session.leave party).phase someone = session.phase someone from
            Function.update_of_ne same _ _]
          exact holds
  refine ⟨.extend serial.chain (serial.inserted party report isInserted), left.holder, ?_, ?_, ?_⟩
  · intro someone seen found
    exact List.mem_append_left _ (left.seen someone seen found)
  · intro someone publisher seen latest isCurrent
    have holds := outside someone
    rw [show (session.leave party).phase someone = _ from isCurrent] at holds
    simp [Phase.holds] at holds
  · intro someone other isOther
    have holds := outside someone
    rw [show (session.leave party).phase someone = _ from isOther] at holds
    simp [Phase.holds] at holds

theorem step_serial {session : Session} (serial : Serial identify session) (action : Action)
    (unambiguous : session.Unambiguous action) :
    Serial identify (session.step identify investigationId action) := by
  cases action with
  | snapshot party publisher =>
      simp only [Session.step]
      split
      · refine enter_serial serial (by simp [Phase.holds]) ?_ (by simp) (by simp)
        exact fun report found => latestVersion_mem found
      · exact serial
  | lock party =>
      simp only [Session.step]
      split
      · rename_i publisher seen isReading free
        have taken : Serial identify { session with lock := some party } := by
          refine ⟨serial.chain, ?_, serial.seen, serial.current, serial.inserted⟩
          intro someone holds
          have held := serial.holder someone holds
          rw [free] at held
          simp at held
        refine enter_serial taken (fun _ => rfl) ?_ (by simp) (by simp)
        exact fun report found => serial.seen party report (by rw [isReading]; exact found)
      · exact serial
  | read party =>
      simp only [Session.step]
      split
      · rename_i publisher seen isLocked
        have held := serial.holder party (by rw [isLocked]; rfl)
        refine enter_serial serial (fun _ => held) ?_ ?_ (by simp)
        · exact fun report found => serial.seen party report (by rw [isLocked]; exact found)
        · intro publisher seen latest same
          simp only [Phase.current.injEq] at same
          exact same.2.2.symm
      · exact serial
  | insert party id createdAt source =>
      simp only [Session.step]
      split
      · rename_i publisher seen latest isCurrent
        split
        · exact leave_serial serial party
        · rename_i report ok
          have held := serial.holder party (by rw [isCurrent]; rfl)
          refine enter_serial serial (fun _ => held) (by simp [Phase.seen?]) (by simp) ?_
          intro other same
          simp only [Phase.inserted.injEq] at same
          rw [← same]
          exact build_continues serial isCurrent ok
            (unambiguous publisher seen latest isCurrent)
      · exact serial
  | commit party =>
      simp only [Session.step]
      split
      · rename_i report isInserted
        exact commit_serial serial isInserted
      · exact serial
  | abort party => exact leave_serial serial party

/-! ### Whole runs -/

variable (identify) (investigationId) in
def Session.run (actions : List Action) : Session :=
  exec (Session.step identify investigationId) Session.initial actions

theorem Chain.consecutive {rows : List ReportVersion} (chain : Chain identify rows) {index : Nat}
    {previous next : ReportVersion} (isPrevious : rows[index]? = some previous)
    (isNext : rows[index + 1]? = some next) :
    next.supersedes = some previous.id ∧ ∃ builder identity built,
      builder.build identify (some previous) identity = .ok built ∧
        next = { built with fixture := next.fixture } ∧ Carries builder previous next := by
  induction chain with
  | empty => simp at isPrevious
  | @extend rows report chain continues ih =>
      by_cases inside : index + 1 < rows.length
      · rw [List.getElem?_append_left (by omega)] at isPrevious
        rw [List.getElem?_append_left inside] at isNext
        exact ih isPrevious isNext
      · have bound : index + 1 < (rows ++ [report]).length :=
          (List.getElem?_eq_some_iff.mp isNext).1
        rw [List.length_append, List.length_singleton] at bound
        have atEnd : index + 1 = rows.length := by omega
        rw [atEnd, List.getElem?_concat_length, Option.some.injEq] at isNext
        subst isNext
        rw [List.getElem?_append_left (by omega)] at isPrevious
        have isLast : rows.getLast? = some previous := by
          rw [List.getLast?_eq_getElem?, ← atEnd, Nat.add_sub_cancel]
          exact isPrevious
        obtain ⟨builder, identity, built, accepted, carried, carries⟩ := continues.built
        rw [isLast] at accepted
        refine ⟨by rw [continues.supersedes, isLast]; rfl, builder, identity, built, accepted,
          carried, carries previous isLast⟩

theorem Chain.first {rows : List ReportVersion} (chain : Chain identify rows)
    {first : ReportVersion} (isFirst : rows[0]? = some first) : first.supersedes = none := by
  induction chain with
  | empty => simp at isFirst
  | @extend rows report chain continues ih =>
      cases rows with
      | nil =>
          simp only [List.nil_append, List.getElem?_cons_zero, Option.some.injEq] at isFirst
          rw [← isFirst, continues.supersedes]
          rfl
      | cons head tail => exact ih isFirst

/-- In every interleaving whose insertions rewrite no two claims of different origin as one, the
versions are 1, 2, ..., n, each supersedes its predecessor and is what a builder made of it, and
carries over all its claims, evidence and assessments but what that builder removes. -/
theorem versions_chained {actions : List Action}
    (met : Meets (Session.step identify investigationId) Session.Unambiguous Session.initial
      actions) :
    ((Session.run identify investigationId actions).rows.map (·.version) =
      List.range' 1 (Session.run identify investigationId actions).rows.length) ∧
    (∀ first, (Session.run identify investigationId actions).rows[0]? = some first →
      first.supersedes = none) ∧
    ∀ index previous next,
      (Session.run identify investigationId actions).rows[index]? = some previous →
      (Session.run identify investigationId actions).rows[index + 1]? = some next →
      next.supersedes = some previous.id ∧ ∃ builder identity built,
        builder.build identify (some previous) identity = .ok built ∧
          next = { built with fixture := next.fixture } ∧ Carries builder previous next := by
  have serial : Serial identify (Session.run identify investigationId actions) :=
    exec_invariant_of_meets (Serial identify)
      (fun session action allowed holds => step_serial holds action allowed) initial_serial met
  exact ⟨serial.chain.numbered, fun _ => serial.chain.first,
    fun _ _ _ => serial.chain.consecutive⟩

def publishing (party : Nat) (publisher : Publisher) (id : Uuid) (source : Option ReportVersion) :
    List Action :=
  [.snapshot party publisher, .lock party, .read party, .insert party id 0 source, .commit party]

def videoCorrection : CorrectionReanalysis where
  baseVersion := 2
  claimId := "e0d3d170-b643-50da-9cba-9139a388c60a"
  proposition := "The dam held until Monday."
  bounded := by decide

def planUnambiguous : Except BuildError Plan → Bool
  | .error _ => true
  | .ok plan => plan.base.all fun base => decide (plan.builder.Unambiguous base)

theorem planUnambiguous_iff (planned : Except BuildError Plan) :
    planUnambiguous planned = true ↔
      ∀ plan, planned = .ok plan → ∀ base, plan.base = some base →
        plan.builder.Unambiguous base := by
  cases planned with
  | error refused => simp [planUnambiguous]
  | ok plan => simp [planUnambiguous, Option.all_eq_true]

instance (session : Session) : ∀ action, Decidable (session.Unambiguous action)
  | .insert party _ _ source =>
      match isCurrent : session.phase party with
      | .current publisher seen latest =>
          decidable_of_iff (planUnambiguous (publisher.plan seen latest source) = true) (by
            rw [planUnambiguous_iff]
            constructor
            · intro holds _ _ _ same
              rw [isCurrent, Phase.current.injEq] at same
              obtain ⟨rfl, rfl, rfl⟩ := same
              exact holds
            · exact fun holds => holds publisher seen latest isCurrent)
      | .idle | .reading .. | .locked .. | .inserted .. =>
          .isTrue fun _ _ _ same => by rw [isCurrent] at same; cases same
  | .snapshot .. | .lock _ | .read _ | .commit _ | .abort _ => .isTrue trivial

/-- Two parties publish over the first version at the same time: the reconciliation takes the lock
while the correction still waits, and the correction then reads what it committed. A late
extraction is refused. -/
def contended : List Action :=
  publishing 0 (.extraction exampleOccurrences exampleWindow []) "v1" none ++
    [.snapshot 1 (.reconciliation "v1" exampleReconciliation
        (fun id => (exampleWindow.observation? id).map (·.text)) 0 [] false),
      .snapshot 2 (.correction videoCorrection), .lock 1, .lock 2, .read 1, .insert 1 "v2" 0 none,
      .lock 2, .commit 1, .lock 2, .read 2, .insert 2 "v3" 0 none, .commit 2] ++
    publishing 3 (.extraction exampleOccurrences exampleWindow []) "v4" none

theorem contended_unambiguous :
    Meets (Session.step exampleIdentify videoId) Session.Unambiguous Session.initial contended := by
  decide +kernel

/-- The three versions follow each other, and each carries over what the one before it held. -/
theorem versions_chained_example :
    (Session.run exampleIdentify videoId contended).rows.map (·.version) = [1, 2, 3] ∧
      ∀ index previous next,
        (Session.run exampleIdentify videoId contended).rows[index]? = some previous →
        (Session.run exampleIdentify videoId contended).rows[index + 1]? = some next →
        next.supersedes = some previous.id ∧ ∃ builder identity built,
          builder.build exampleIdentify (some previous) identity = .ok built ∧
            next = { built with fixture := next.fixture } ∧ Carries builder previous next := by
  have numbered : (Session.run exampleIdentify videoId contended).rows.map (·.version) =
      [1, 2, 3] := by decide +kernel
  exact ⟨numbered, (versions_chained contended_unambiguous).2.2⟩

/-! ### A chain of expansions -/

/-- An identifier after 31 expansions, each from the second version of the investigation before
but the first. -/
def nestedIdentifier (start : String) : String :=
  String.ofList ((List.replicate 30 "fv2_".toList).flatten ++ "fv1_".toList ++ start.toList)

def nestedClaim (id text : String) : Claim where
  id := id
  occurrenceId := id
  interval := ⟨0, 1000, .media, firstSecond_ordered⟩
  modality := .speech
  originalText := text
  proposition := text
  correction := none

def nestedVideo : ReportVersion where
  id := "n2"
  investigationId := videoId
  version := 2
  createdAt := 0
  provisional := true
  changeSummary := ""
  supersedes := some "n1"
  claims := [nestedClaim (nestedIdentifier "e3d6") "The dam failed.",
    nestedClaim (nestedIdentifier "e0d3") "No, it held."]
  evidence := []
  assessments := []

def nestedCorrection : CorrectionReanalysis where
  baseVersion := 2
  claimId := String.ofList ((List.replicate 31 "fv2_".toList).flatten ++ "fv1_".toList)
  proposition := "The dam broke."
  bounded := by decide

def nestedActions : List Action :=
  publishing 0 (.extraction [] exampleWindow []) "c1" none ++
    publishing 1 (.expansion 1 videoId) "c2" (some nestedVideo) ++
    publishing 2 (.correction nestedCorrection) "c3" none

def losesWording : List ReportVersion → Bool
  | _ :: previous :: next :: _ => previous.claims.any fun claim =>
      next.claims.all fun carried => carried.originalText != claim.originalText
  | _ => false

theorem losesWording_spec {rows : List ReportVersion} (loses : losesWording rows = true) :
    ∃ previous next, rows[1]? = some previous ∧ rows[2]? = some next ∧
      ∃ claim ∈ previous.claims, ∀ carried ∈ next.claims,
        carried.originalText ≠ claim.originalText := by
  match rows, loses with
  | _ :: previous :: next :: _, loses =>
      simp only [losesWording, List.any_eq_true, List.all_eq_true, bne_iff_ne] at loses
      exact ⟨previous, next, rfl, rfl, loses⟩

/-- The 32nd expansion cuts both identifiers to the same prefixes, and the correction of one claim
overwrites the other. -/
theorem correction_loses_claim :
    ¬∀ actions index previous next,
      (Session.run exampleIdentify clipId actions).rows[index]? = some previous →
      (Session.run exampleIdentify clipId actions).rows[index + 1]? = some next →
      ∀ claim ∈ previous.claims, ∃ carried ∈ next.claims,
        carried.id = claim.id ∧ SameOrigin claim carried := by
  intro always
  have loses : losesWording (Session.run exampleIdentify clipId nestedActions).rows = true := by
    decide +kernel
  obtain ⟨previous, next, isPrevious, isNext, claim, member, lost⟩ := losesWording_spec loses
  obtain ⟨carried, carriedMember, _, origin⟩ :=
    always nestedActions 1 previous next isPrevious isNext claim member
  exact lost carried carriedMember origin.originalText

end Ovrly.Reports
