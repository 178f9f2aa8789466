import Ovrly.Extraction.Windows

/-!
Replaying observations changes nothing.

A call leaves the ledger in order and its pending observations waiting. They wait until more
observations arrive or the input closes: a spent budget only raises the threshold, and observations
without a target stay so.
-/

namespace Ovrly.Extraction

open Relational Runs Ovrly.Jobs Ovrly.Reports Ovrly.Pipeline

section Waiting

variable {data later : RunData} {items selected rest : List Accepted}

theorem any_split (overlap : List Accepted) {pending : List Accepted} (test : Accepted → Bool)
    (begins : selected <+: pending) :
    (overlap ++ pending).any test =
      ((overlap ++ selected).any test || (pending.drop selected.length).any test) := by
  obtain ⟨rest, rfl⟩ := begins
  rw [List.drop_left, ← List.append_assoc, List.any_append]

theorem move_stop_iff (first : Accepted) (rest : List Accepted) :
    data.move (first :: rest) = .stop ↔ data.closed = false ∧
      ((first :: rest).length < data.threshold ∨
        (data.overlap first ++ first :: rest).any Accepted.isTarget = false) := by
  obtain ⟨begins, -⟩ := selected_prefix data first rest data.threshold
  have targets := any_split (data.overlap first) Accepted.isTarget begins
  simp only [RunData.move]
  rw [targets]
  generalize selectFrom (charactersOf (data.overlap first))
    ((first :: rest).take (batchSize data.threshold (first :: rest))) = selected
  generalize (data.overlap first ++ selected).any Accepted.isTarget = here
  generalize ((first :: rest).drop selected.length).any Accepted.isTarget = beyond
  cases data.closed <;> cases here <;> cases beyond <;> simp

theorem threshold_mono (config : later.config = data.config)
    (windows : later.windows = data.windows) (requests : data.requestsUsed ≤ later.requestsUsed)
    (tokens : data.tokensReserved ≤ later.tokensReserved) : data.threshold ≤ later.threshold := by
  have pressure : data.pressure ≤ later.pressure := by
    unfold RunData.pressure
    rw [config, windows]
    dsimp only
    apply max_le_max
    · gcongr
    · gcongr
  unfold RunData.threshold
  rw [config]
  dsimp only
  apply min_le_min_left
  apply Nat.mul_le_mul_left
  by_cases most : 3 / 4 ≤ data.pressure
  · rw [if_pos most, if_pos (most.trans pressure)]
  · rw [if_neg most]
    by_cases half : 1 / 2 ≤ data.pressure
    · rw [if_pos half, if_pos (half.trans pressure)]
      split <;> omega
    · rw [if_neg half]
      split
      · omega
      · split <;> omega

variable (data later) in
theorem stop_mono {pending : List Accepted} (config : later.config = data.config)
    (observations : later.observations = data.observations) (closed : later.closed = data.closed)
    (windows : later.windows = data.windows) (requests : data.requestsUsed ≤ later.requestsUsed)
    (tokens : data.tokensReserved ≤ later.tokensReserved) (stopped : data.move pending = .stop) :
    later.move pending = .stop := by
  cases pending with
  | nil => rfl
  | cons first rest =>
      have wider := threshold_mono config windows requests tokens
      obtain ⟨opened, waits⟩ := (move_stop_iff first rest).mp stopped
      refine (move_stop_iff first rest).mpr ⟨closed.trans opened, ?_⟩
      have same : later.overlap first = data.overlap first := by
        unfold RunData.overlap
        rw [config, observations]
      rw [same]
      exact waits.imp (fun short => lt_of_lt_of_le short wider) id

theorem filter_marked {change : Accepted → Accepted} (distinct : (items.map Accepted.id).Nodup)
    (waiting : items.filter Accepted.isPending = selected ++ rest)
    (settles : ∀ item ∈ items, item.id ∈ selected.map Accepted.id →
      (change item).isPending = false)
    (keeps : ∀ item ∈ items, item.id ∉ selected.map Accepted.id →
      (change item).isPending = item.isPending ∧ (item.isPending = true → change item = item)) :
    (items.map change).filter Accepted.isPending = rest := by
  have apart : ((selected ++ rest).map Accepted.id).Nodup := by
    rw [← waiting]
    exact distinct.sublist (List.filter_sublist.map _)
  rw [List.map_append, List.nodup_append] at apart
  have left : ∀ item ∈ rest, item.id ∉ selected.map Accepted.id := fun item member known =>
    apart.2.2 item.id known item.id (List.mem_map_of_mem member) rfl
  have test : items.filter (Accepted.isPending ∘ change) =
      (items.filter Accepted.isPending).filter
        fun item => decide (item.id ∉ selected.map Accepted.id) := by
    rw [List.filter_filter]
    apply List.filter_congr
    intro item member
    by_cases chosen : item.id ∈ selected.map Accepted.id
    · simp [settles item member chosen, chosen]
    · simp [(keeps item member chosen).1, chosen]
  have remains : (selected ++ rest).filter
      (fun item => decide (item.id ∉ selected.map Accepted.id)) = rest := by
    rw [List.filter_append, List.filter_eq_nil_iff.mpr, List.filter_eq_self.mpr, List.nil_append]
    · intro item member
      exact decide_eq_true (left item member)
    · intro item member
      simpa using ⟨item, member, rfl⟩
  rw [List.filter_map, test, waiting, remains]
  have unchanged : ∀ item ∈ rest, change item = id item := by
    intro item member
    have pending : item ∈ items.filter Accepted.isPending := by
      rw [waiting]
      exact List.mem_append_right _ member
    obtain ⟨known, unsettled⟩ := List.mem_filter.mp pending
    exact (keeps item known (left item member)).2 unsettled
  rw [List.map_congr_left unchanged, List.map_id]

theorem marked_of_not_mem {change : Accepted → Accepted} {item : Accepted}
    (absent : item.id ∉ selected.map Accepted.id) : marked selected change item = item := by
  unfold marked
  rw [if_neg]
  rwa [any_id]

theorem marked_of_mem {change : Accepted → Accepted} {item : Accepted}
    (chosen : item.id ∈ selected.map Accepted.id) : marked selected change item = change item := by
  unfold marked
  rw [if_pos (any_id.mpr chosen)]

theorem filter_skip (distinct : (data.observations.map Accepted.id).Nodup)
    (waiting : data.observations.filter Accepted.isPending = selected ++ rest) :
    (data.mark selected skipped).observations.filter Accepted.isPending = rest := by
  rw [mark_observations]
  apply filter_marked distinct waiting
  · intro item _ chosen
    rw [marked_of_mem chosen]
    simp [Accepted.isPending, skipped]
  · intro item _ absent
    rw [marked_of_not_mem absent]
    exact ⟨rfl, fun _ => rfl⟩

theorem filter_issue {overlap : List Accepted} {jobId : JobId}
    (distinct : (data.observations.map Accepted.id).Nodup)
    (waiting : data.observations.filter Accepted.isPending = selected ++ rest)
    (covered : ∀ item ∈ overlap, item ∈ data.observations ∧ item.jobId.isSome = true) :
    ((data.mark (overlap ++ selected) (joined jobId)).mark selected
      (taken jobId)).observations.filter Accepted.isPending = rest := by
  rw [mark_observations, mark_observations, List.map_map]
  apply filter_marked distinct waiting
  · intro item _ chosen
    rw [Function.comp_apply, marked_of_mem]
    · simp [Accepted.isPending, taken]
    · rwa [marked_id (joined_source _)]
  · intro item member absent
    have same : (marked selected (taken jobId) ∘ marked (overlap ++ selected) (joined jobId)) item =
        marked (overlap ++ selected) (joined jobId) item := by
      rw [Function.comp_apply, marked_of_not_mem]
      rwa [marked_id (joined_source _)]
    rw [same]
    by_cases repeated : item.id ∈ (overlap ++ selected).map Accepted.id
    · rw [marked_of_mem repeated]
      refine ⟨rfl, ?_⟩
      intro pending
      rw [List.map_append] at repeated
      rcases List.mem_append.mp repeated with again | chosen
      · -- An observation of the overlap has a job, so it is not pending.
        obtain ⟨other, listed, named⟩ := List.mem_map.mp again
        obtain ⟨known, has⟩ := covered other listed
        obtain rfl := eq_of_id distinct known member named
        simp only [Accepted.isPending, Bool.and_eq_true, Option.isNone_iff_eq_none] at pending
        rw [pending.1] at has
        cases has
      · exact absurd chosen absent
    · rw [marked_of_not_mem repeated]
      exact ⟨rfl, fun _ => rfl⟩

end Waiting

section Known

variable {config : Config} {closed finalized : Bool} {intake next : Intake}
  {observation : Observation} {submitted batch : List Observation}

/-- What is known under an identifier has the content that is submitted under it. -/
def Agrees (existing : List Accepted) (batch : List Observation) : Prop :=
  ∀ item ∈ existing, ∀ observation ∈ batch, item.id = observation.id → item.source = observation

theorem Agrees.sources {existing others : List Accepted} (agrees : Agrees existing batch)
    (same : sourcesOf others = sourcesOf existing) : Agrees others batch := by
  intro item member observation listed named
  have source : item.source ∈ sourcesOf existing := by
    rw [← same]
    exact List.mem_map_of_mem member
  obtain ⟨known, belongs, equal⟩ := List.mem_map.mp source
  have sameId : known.id = item.id := congrArg Observation.id equal
  rw [← equal]
  exact agrees known belongs observation listed (sameId.trans named)

theorem Agrees.one (admits : Admits config submitted (sourcesOf intake.existing) intake.unadmitted)
    (agrees : Agrees intake.existing submitted)
    (admitted : AdmitsOne config intake observation next) :
    Agrees next.existing (submitted ++ [observation]) := by
  intro item member other listed same
  rcases List.mem_append.mp listed with before | last
  · cases admitted with
    | replayed _ _ => exact agrees item member other before same
    | refusedBefore _ => exact agrees item member other before same
    | leftOut _ _ _ => exact agrees item member other before same
    | accepted unrefused fresh =>
        rcases List.mem_append.mp member with known | new
        · exact agrees item known other before same
        · -- An identifier that was submitted before is accepted or was refused.
          rw [List.mem_singleton.mp new] at same
          have named : other.id = observation.id := same.symm
          rcases admits.settled other before with accepted | ⟨-, left⟩
          · rw [named] at accepted
            exact absurd accepted fresh
          · obtain ⟨refused, reported, equal⟩ := List.mem_map.mp left
            have refuses : intake.refuses observation.id = true :=
              List.any_eq_true.mpr ⟨refused, reported, by simp [equal, named]⟩
            rw [unrefused] at refuses
            cases refuses
  · rw [List.mem_singleton.mp last] at same ⊢
    have ids := ids_sourcesOf intake.existing
    cases admitted with
    | replayed belongs source =>
        have distinct := admits.distinct
        rw [ids] at distinct
        rw [← source] at same ⊢
        rw [eq_of_id distinct member belongs same]
    | refusedBefore refused =>
        obtain ⟨reported, listed, equal⟩ := List.any_eq_true.mp refused
        have apart := admits.apart reported listed
        rw [ids, beq_iff_eq.mp equal, ← same] at apart
        exact absurd (List.mem_map_of_mem member) apart
    | leftOut _ _ fresh =>
        rw [ids, ← same] at fresh
        exact absurd (List.mem_map_of_mem member) fresh
    | accepted unrefused fresh =>
        rcases List.mem_append.mp member with known | new
        · rw [ids, ← same] at fresh
          exact absurd (List.mem_map_of_mem known) fresh
        · rw [List.mem_singleton.mp new]

theorem Agrees.all {given : Config}
    (kept : given.producer.isSome = true → config.producer.isSome = true)
    (admits : Admits config submitted (sourcesOf intake.existing) intake.unadmitted)
    (agrees : Agrees intake.existing submitted)
    (admitted : admitAll given closed finalized intake batch = .ok next) :
    Agrees next.existing (submitted ++ batch) := by
  induction batch generalizing intake submitted with
  | nil =>
      simp only [admitAll, List.foldlM_nil, pure, Except.pure, Except.ok.injEq] at admitted
      rw [← admitted, List.append_nil]
      exact agrees
  | cons observation rest ih =>
      simp only [admitAll, List.foldlM_cons] at admitted
      cases first : admitOne given closed finalized intake observation with
      | error raised => simp [first, bind, Except.bind] at admitted
      | ok middle =>
          rw [first] at admitted
          have step := (admitOne_cases first).stored kept
          have tail := ih (admits.one step) (agrees.one admits step) admitted
          rwa [List.append_assoc] at tail

/-- What was submitted before is admitted without a trace. -/
theorem admitAll_known
    (known : ∀ observation ∈ batch, observation ∈ sourcesOf intake.existing ∨
      observation.id ∉ (sourcesOf intake.existing).map Observation.id ∧
        intake.refuses observation.id = true)
    (distinct : (intake.existing.map Accepted.id).Nodup) :
    admitAll config closed finalized intake batch = .ok intake := by
  induction batch with
  | nil => rfl
  | cons observation rest ih =>
      have one : admitOne config closed finalized intake observation = .ok intake := by
        unfold admitOne
        rcases known observation List.mem_cons_self with accepted | ⟨fresh, refused⟩
        · obtain ⟨item, member, source⟩ := List.mem_map.mp accepted
          cases found : intake.accepted? observation.id with
          | none =>
              have absent := accepted?_none found
              exact absurd (List.mem_map_of_mem accepted) absent
          | some previous =>
              obtain ⟨belongs, same⟩ := accepted?_some found
              have sameId : item.id = observation.id := congrArg Observation.id source
              rw [eq_of_id distinct belongs member (same.trans sameId.symm)]
              simp [source]
        · cases found : intake.accepted? observation.id with
          | none => simp [refused]
          | some previous =>
              obtain ⟨belongs, same⟩ := accepted?_some found
              rw [ids_sourcesOf, ← same] at fresh
              exact absurd (List.mem_map_of_mem belongs) fresh
      have tail := ih fun other listed => known other (List.mem_cons_of_mem _ listed)
      unfold admitAll at tail ⊢
      rw [List.foldlM_cons, one]
      exact tail

end Known

section AtRest

def Reported (items : List Unadmitted) : Prop :=
  items.Pairwise fun first second => first.before second

theorem Unadmitted.before_trans (first second third : Unadmitted)
    (early : first.before second = true) (late : second.before third = true) :
    first.before third = true :=
  sortsBefore_trans early late

theorem Unadmitted.before_total (first second : Unadmitted) :
    (first.before second || second.before first) = true :=
  sortsBefore_total _ _ _ _ _ _

/-- How a call leaves the ledger, when the report it saw was final or not. -/
structure AtRest (submitted : List Observation) (final : Bool) (data : RunData) : Prop where
  ordered : Ordered data.observations
  single : oneTimebase data.observations = true
  reported : Reported data.unadmitted
  agrees : Agrees data.observations submitted
  waits : final = false → data.move (data.observations.filter Accepted.isPending) = .stop

variable {σ ρ : Type} [EmptyCollection σ] {extractionKey : Payload → String}
  {investigationId : Uuid} {ownerId : PrincipalId} {call : Submission} {config : Config}
  {stored : Option RunData} {queue : Database Payload σ ρ} {submitted : List Observation}
  {issued : List Issue} {data : RunData} {cutting : Cutting σ ρ}

theorem admission_settled (kept : Kept submitted issued (ledgerFor config stored))
    (agrees : Agrees (ledgerFor config stored).observations submitted)
    (admitted : admission config stored call = .ok data) :
    Ordered data.observations ∧ oneTimebase data.observations = true ∧ Reported data.unadmitted ∧
      Agrees data.observations (submitted ++ call.observations) := by
  rcases admission_cases config stored call with ⟨raised, refused, -⟩ |
    ⟨same, accepted, ordered, single⟩
  · rw [admitted] at refused
    cases refused
  obtain rfl := Except.ok.inj (admitted.symm.trans accepted)
  obtain ⟨unchanged, intake, taken, -, rfl⟩ := admission_intake admitted
  obtain ⟨-, producer⟩ := unchanged_config unchanged
  have before : Agrees (Intake.mk (ledgerFor config stored).observations
      (ledgerFor config stored).unadmitted).existing submitted := agrees
  have sound := before.all producer kept.admits taken
  have sorted := List.mergeSort_perm intake.existing Accepted.before
  refine ⟨ordered, single, ?_, ?_⟩
  · exact List.pairwise_mergeSort Unadmitted.before_trans Unadmitted.before_total _
  · intro item member
    exact sound item (sorted.mem_iff.mp member)

/-- A call that goes through leaves the ledger settled. -/
theorem submit_settled (kept : Kept submitted issued (ledgerFor config stored))
    (agrees : Agrees (ledgerFor config stored).observations submitted)
    (answer : submitObservations extractionKey investigationId ownerId config stored queue call =
      some (.ok cutting)) :
    AtRest (submitted ++ call.observations) call.finalized cutting.data := by
  unfold submitObservations at answer
  cases admitted : admission config stored call with
  | error raised => simp [admitted] at answer
  | ok data =>
      simp only [admitted] at answer
      obtain ⟨ordered, single, reported, same⟩ := admission_settled kept agrees admitted
      by_cases finalized : call.finalized = true
      · simp only [RunData.pending, finalized, if_true, Cutting.cut, RunData.move,
          Option.some.injEq, Except.ok.injEq] at answer
        rw [← answer, finalized]
        exact ⟨ordered, single, reported, same, by simp⟩
      · simp only [RunData.pending, finalized, Bool.false_eq_true, if_false] at answer
        obtain ⟨after, -, -, -⟩ := admission_kept kept admitted
        have start : Cut (σ := σ) (ρ := ρ) (submitted ++ call.observations) issued
            ⟨data, queue, []⟩ (data.observations.filter Accepted.isPending) :=
          ⟨by simpa using after, rfl⟩
        obtain ⟨ended, cut, stopped, -⟩ := cut_rule extractionKey investigationId ownerId call
          (fun current waiting => Cut (submitted ++ call.observations) issued current waiting ∧
            SameInput data current.data ∧ current.data.unadmitted = data.unadmitted ∧
            current.data.observations.filter Accepted.isPending = waiting)
          (fun current selected rest kept _ =>
            ⟨kept.1.skip, kept.2.1.trans (.mark skipped_source), kept.2.2.1,
              filter_skip kept.1.kept.ids kept.2.2.2⟩)
          (by
            rintro current next overlap selected rest ⟨kept, input, left, waiting⟩ moved issued
            have covered := move_window_covered moved
            obtain ⟨-, enqueued, rows, -⟩ := Cutting.issue_ok issued
            refine ⟨kept.issue (fun item member => (covered item member).1) issued,
              input.trans (Cutting.issue_input issued), ?_, ?_⟩
            · rw [rows]
              exact left
            · rw [rows]
              exact filter_issue kept.kept.ids waiting covered)
          ⟨start, .refl _, rfl, rfl⟩ (Nat.lt_succ_self _)
        rw [answer, Option.some.injEq] at cut
        obtain ⟨rest, ⟨-, input, left, waiting⟩, moved⟩ := stopped cutting cut.symm
        refine ⟨input.ordered ordered, input.single single, ?_, same.sources input.sources, ?_⟩
        · rw [left]
          exact reported
        · intro _
          rw [waiting]
          exact moved

theorem AtRest.record {final : Bool} {recorded : RunData} {inputBytes outputTokens : Nat}
    {reconciliation : Bool} (settled : AtRest submitted final data)
    (answer : data.recordRequest inputBytes outputTokens reconciliation = .ok recorded) :
    AtRest submitted final recorded := by
  obtain ⟨-, -, rfl⟩ := RunData.recordRequest_ok.mp answer
  refine ⟨settled.ordered, settled.single, settled.reported, settled.agrees, ?_⟩
  intro open_
  exact stop_mono data _ rfl rfl rfl rfl (Nat.le_succ _) (Nat.le_add_right _ _)
    (settled.waits open_)

end AtRest

section Watching

/-- The ledger with the finality of the report that the last call that went through saw. -/
structure Watch (σ ρ : Type) where
  feed : Feed σ ρ := {}
  final : Bool := false

variable {σ ρ : Type} [EmptyCollection σ] (extractionKey : Payload → String)
  (investigationId : Uuid) (ownerId : PrincipalId)

def Feed.accepted? (feed : Feed σ ρ) : Event σ ρ → Option Submission
  | .submit config call true =>
      match submitObservations extractionKey investigationId ownerId config feed.stored feed.queue
          call with
      | some (.ok _) => some call
      | _ => none
  | .produced settings source openLedger call true =>
      match producerAdmit extractionKey investigationId ownerId settings source openLedger
          feed.stored feed.queue call with
      | some (.released _) => some { call with closed := false }
      | _ => none
  | _ => none

def Watch.step (watch : Watch σ ρ) (event : Event σ ρ) : Watch σ ρ where
  feed := watch.feed.step extractionKey investigationId ownerId event
  final :=
    match watch.feed.accepted? extractionKey investigationId ownerId event with
    | some call => call.finalized
    | none => watch.final

def Watch.run (events : List (Event σ ρ)) : Watch σ ρ :=
  exec (Watch.step extractionKey investigationId ownerId) {} events

def Watch.AtRest (watch : Watch σ ρ) : Prop :=
  ∀ data, watch.feed.stored = some data →
    Extraction.AtRest watch.feed.submitted watch.final data

variable {extractionKey investigationId ownerId} {watch : Watch σ ρ}

omit [EmptyCollection σ] in
theorem Watch.AtRest.agrees (settled : watch.AtRest) (config : Config) :
    Agrees (ledgerFor config watch.feed.stored).observations watch.feed.submitted := by
  cases stored : watch.feed.stored with
  | none =>
      intro item member
      simp [ledgerFor] at member
  | some data => exact (settled data stored).agrees

inductive Stepped (extractionKey : Payload → String) (investigationId : Uuid)
    (ownerId : PrincipalId) (feed : Feed σ ρ) (event : Event σ ρ) (after : Feed σ ρ) : Prop
  | called (call : Submission) (config : Config) (cutting : Cutting σ ρ) :
      feed.accepted? extractionKey investigationId ownerId event = some call →
      submitObservations extractionKey investigationId ownerId config feed.stored feed.queue call =
        some (.ok cutting) →
      after = feed.save call cutting → Stepped extractionKey investigationId ownerId feed event after
  | recorded (data next : RunData) (inputBytes outputTokens : Nat) (reconciliation : Bool) :
      feed.accepted? extractionKey investigationId ownerId event = none →
      feed.stored = some data →
      data.recordRequest inputBytes outputTokens reconciliation = .ok next →
      after = { feed with stored := some next } →
      Stepped extractionKey investigationId ownerId feed event after
  | other (queue : Database Payload σ ρ) :
      feed.accepted? extractionKey investigationId ownerId event = none →
      after = { feed with queue } → Stepped extractionKey investigationId ownerId feed event after

theorem Feed.stepped (feed : Feed σ ρ) (event : Event σ ρ) :
    Stepped extractionKey investigationId ownerId feed event
      (feed.step extractionKey investigationId ownerId event) := by
  cases event with
  | submit config call commits =>
      cases answer : submitObservations extractionKey investigationId ownerId config feed.stored
          feed.queue call with
      | none =>
          refine .other feed.queue ?_ ?_
          · cases commits <;> simp [Feed.accepted?, answer]
          · simp [Feed.step, answer]
      | some outcome =>
          cases outcome with
          | error raised =>
              refine .other feed.queue ?_ ?_
              · cases commits <;> simp [Feed.accepted?, answer]
              · simp [Feed.step, answer]
          | ok cutting =>
              cases commits with
              | false =>
                  refine .other feed.queue rfl ?_
                  simp [Feed.step, answer]
              | true =>
                  refine .called call config cutting ?_ answer ?_
                  · simp [Feed.accepted?, answer]
                  · simp [Feed.step, answer]
  | produced settings source openLedger call commits =>
      cases answer : producerAdmit extractionKey investigationId ownerId settings source openLedger
          feed.stored feed.queue call with
      | none =>
          refine .other feed.queue ?_ ?_
          · cases commits <;> simp [Feed.accepted?, answer]
          · simp [Feed.step, answer]
      | some outcome =>
          cases outcome with
          | unchanged =>
              refine .other feed.queue ?_ ?_
              · cases commits <;> simp [Feed.accepted?, answer]
              · simp [Feed.step, answer]
          | rejected reason =>
              refine .other feed.queue ?_ ?_
              · cases commits <;> simp [Feed.accepted?, answer]
              · simp [Feed.step, answer]
          | released cutting =>
              cases commits with
              | false =>
                  refine .other feed.queue rfl ?_
                  simp [Feed.step, answer]
              | true =>
                  refine .called { call with closed := false }
                    (settings.config source feed.stored) cutting ?_ (admit_released answer) ?_
                  · simp [Feed.accepted?, answer]
                  · simp [Feed.step, Feed.save, answer]
  | record inputBytes outputTokens reconciliation =>
      cases stored : feed.stored with
      | none =>
          refine .other feed.queue rfl ?_
          simp only [Feed.step, stored]
          rw [← stored]
      | some data =>
          cases answer : data.recordRequest inputBytes outputTokens reconciliation with
          | error raised =>
              refine .other feed.queue rfl ?_
              simp only [Feed.step, stored, answer]
              rw [← stored]
          | ok next =>
              refine .recorded data next inputBytes outputTokens reconciliation rfl stored answer ?_
              simp [Feed.step, stored, answer]
  | work queue => exact .other queue rfl rfl

theorem Watch.AtRest.step (settled : watch.AtRest) (kept : watch.feed.Kept)
    (event : Event σ ρ) : (watch.step extractionKey investigationId ownerId event).AtRest := by
  intro data stored
  have spec : Stepped extractionKey investigationId ownerId watch.feed event
    (watch.step extractionKey investigationId ownerId event).feed := watch.feed.stepped event
  cases spec with
  | called call config cutting accepted answer saved =>
      rw [saved] at stored ⊢
      obtain rfl := Option.some.inj stored
      simp only [Watch.step, accepted]
      exact submit_settled (kept config) (settled.agrees config) answer
  | recorded before next inputBytes outputTokens reconciliation unaccepted found answer saved =>
      rw [saved] at stored ⊢
      obtain rfl := Option.some.inj stored
      simp only [Watch.step, unaccepted]
      exact (settled before found).record answer
  | other queue unaccepted saved =>
      rw [saved] at stored ⊢
      simp only [Watch.step, unaccepted]
      exact settled data stored

variable (extractionKey investigationId ownerId) in
theorem settled_run (events : List (Event σ ρ)) :
    (Watch.run extractionKey investigationId ownerId events).feed.Kept ∧
      (Watch.run extractionKey investigationId ownerId events).AtRest := by
  apply exec_invariant (fun watch : Watch σ ρ => watch.feed.Kept ∧ watch.AtRest)
  · intro watch event ⟨kept, settled⟩
    exact ⟨(kept.step event).1, settled.step kept event⟩
  · refine ⟨kept_start, ?_⟩
    intro data stored
    cases stored

def Submission.allowed (call : Submission) (config : Config) : Bool :=
  !call.captureStopped && call.owned && config.hostedProcessingApproved &&
    (!call.finalized || config.producer.isSome)

theorem unchanged_self (config : Config) : config.changed config = false := by
  simp [Config.changed]

theorem admission_refused {config : Config} {stored : Option RunData} {call : Submission}
    (refused : call.allowed config = false) :
    ∃ raised, admission config stored call = .error raised := by
  unfold admission
  simp only [bind, Except.bind, pure, Except.pure, throw, throwThe, MonadExceptOf.throw]
  by_cases stopped : call.captureStopped = true
  · exact ⟨_, if_pos stopped⟩
  rw [if_neg stopped]
  by_cases unowned : (!call.owned || !config.hostedProcessingApproved) = true
  · exact ⟨_, if_pos unowned⟩
  rw [if_neg unowned]
  by_cases reopened : (call.finalized && config.producer.isNone) = true
  · exact ⟨_, if_pos reopened⟩
  exfalso
  revert refused stopped unowned reopened
  unfold Submission.allowed
  cases call.captureStopped <;> cases call.owned <;> cases config.hostedProcessingApproved <;>
    cases call.finalized <;> cases config.producer <;> simp

theorem admission_replay {submitted : List Observation} {issued : List Issue} {final : Bool}
    {data : RunData} {config : Config} {call : Submission}
    (kept : Extraction.Kept submitted issued data) (settled : Extraction.AtRest submitted final data)
    (same : data.config.changed config = false)
    (known : ∀ observation ∈ call.observations, observation ∈ submitted)
    (again : call.closed = false) (allowed : call.allowed config = true) :
    admission config (some data) call = .ok data := by
  have replayed : admitAll config data.closed call.finalized ⟨data.observations, data.unadmitted⟩
      call.observations = .ok ⟨data.observations, data.unadmitted⟩ := by
    apply admitAll_known _ kept.ids
    intro observation member
    rcases kept.admits.settled observation (known observation member) with accepted | ⟨-, left⟩
    · left
      rw [ids_sourcesOf] at accepted
      obtain ⟨item, belongs, named⟩ := List.mem_map.mp accepted
      rw [← settled.agrees item belongs observation (known observation member) named]
      exact List.mem_map_of_mem belongs
    · right
      obtain ⟨item, listed, named⟩ := List.mem_map.mp left
      rw [← named]
      exact ⟨kept.admits.apart item listed, List.any_eq_true.mpr ⟨item, listed, by simp⟩⟩
  have bounded := kept.bounded
  rw [(unchanged_config same).1] at bounded
  have ordered : data.observations.mergeSort Accepted.before = data.observations :=
    List.mergeSort_of_pairwise settled.ordered
  have reported : data.unadmitted.mergeSort Unadmitted.before = data.unadmitted :=
    List.mergeSort_of_pairwise settled.reported
  simp only [Submission.allowed, Bool.and_eq_true, Bool.not_eq_true'] at allowed
  obtain ⟨⟨⟨ongoing, owned⟩, approved⟩, producer⟩ := allowed
  have open_ : (call.finalized && config.producer.isNone) = false := by
    cases finalized : call.finalized with
    | false => rfl
    | true => simpa [finalized] using producer
  unfold admission
  simp only [ongoing, owned, approved, open_, Bool.not_true, Bool.or_self, Bool.false_eq_true,
    if_false, Option.getD_some, same, replayed, not_lt.mpr bounded, ordered, reported,
    settled.single, again, Bool.or_false, bind, Except.bind, pure, Except.pure]

variable (extractionKey investigationId ownerId) in
/-- Submitting observations again, after any requests and after the report became final, is
refused or leaves the ledger, its windows and the queue as they were. -/
theorem replay_unchanged (events : List (Event σ ρ)) {config : Config} {call : Submission}
    {data : RunData}
    (stored : (Watch.run extractionKey investigationId ownerId events).feed.stored = some data)
    (same : data.config.changed config = false)
    (known : ∀ observation ∈ call.observations,
      observation ∈ (Watch.run extractionKey investigationId ownerId events).feed.submitted)
    (again : call.closed = false)
    (lasting : (Watch.run extractionKey investigationId ownerId events).final = true →
      call.finalized = true) :
    let feed := (Watch.run extractionKey investigationId ownerId events).feed
    (call.allowed config = true →
      submitObservations extractionKey investigationId ownerId config feed.stored feed.queue call =
        some (.ok ⟨data, feed.queue, []⟩)) ∧
    (call.allowed config = false → ∃ raised,
      submitObservations extractionKey investigationId ownerId config feed.stored feed.queue call =
        some (.error raised)) ∧
    ∀ commits, ∃ submitted, feed.step extractionKey investigationId ownerId
      (.submit config call commits) = { feed with submitted } := by
  intro feed
  obtain ⟨kept, settled⟩ := settled_run extractionKey investigationId ownerId events
  have ledger := kept config
  simp only [ledgerFor, stored, Option.getD_some] at ledger
  have settled := settled data stored
  have replays (allowed : call.allowed config = true) :
      submitObservations extractionKey investigationId ownerId config feed.stored feed.queue call =
        some (.ok ⟨data, feed.queue, []⟩) := by
    have admitted := admission_replay ledger settled same known again allowed
    have ledgerStored : feed.stored = some data := stored
    rw [ledgerStored]
    unfold submitObservations
    rw [admitted]
    dsimp only
    cases finalized : call.finalized with
    | true => rfl
    | false =>
        have open_ : (Watch.run extractionKey investigationId ownerId events).final = false := by
          by_contra final
          have seen := lasting (by simpa using final)
          rw [finalized] at seen
          cases seen
        have stopped := settled.waits open_
        simp only [RunData.pending, Bool.false_eq_true, if_false, Cutting.cut, stopped]
  have refuses (refused : call.allowed config = false) : ∃ raised,
      submitObservations extractionKey investigationId ownerId config feed.stored feed.queue call =
        some (.error raised) := by
    obtain ⟨raised, failed⟩ : ∃ raised, admission config feed.stored call = .error raised :=
      admission_refused refused
    exact ⟨raised, by simp only [submitObservations, failed]⟩
  refine ⟨replays, refuses, ?_⟩
  intro commits
  by_cases allowed : call.allowed config = true
  · have answer := replays allowed
    simp only [Feed.step, answer]
    cases commits with
    | true =>
        refine ⟨feed.submitted ++ call.observations, ?_⟩
        simp only [if_true, Feed.save, List.append_nil]
        rw [← stored]
    | false => exact ⟨feed.submitted, rfl⟩
  · obtain ⟨raised, answer⟩ := refuses (by simpa using allowed)
    refine ⟨feed.submitted, ?_⟩
    simp only [Feed.step, answer]

/-- One observation waits for a second one; after a request it is submitted again. -/
theorem replay_unchanged_waiting : ∃ (config : Config) (call : Submission) (data : RunData),
    data.observations.length = 1 ∧ data.requestsUsed = 1 ∧
      submitObservations (σ := List Nat) (ρ := Nat) (fun _ => "key") "investigation" 1 config
        (some data) .empty call = some (.ok ⟨data, .empty, []⟩) := by
  let config : Config :=
    { policy :=
        { maxRequests := 3
          maxTokens := 9000
          reconciliationRequests := 1
          reconciliationTokens := 100
          batchObservations := 2
          overlapObservations := 1
          maxObservations := 4
          requestsBound := by decide
          tokensBound := by decide
          requestsKept := by decide
          tokensKept := by decide
          batchBound := by decide
          overlapBound := by decide
          observationsBound := by decide
          requestsReserve := by decide
          tokensReserve := by decide }
      hostedProcessingApproved := true
      groqProcessingApproved := false
      producer := none }
  let heard : Observation :=
    { id := "heard", role := .target, text := "a", modality := .speech, timebase := .media
      startMs := 0, endMs := 1, speakerId := none
      ordered := by decide, spoken := by decide, short := by decide }
  let call : Submission := { observations := [heard], closed := false, jobIds := id, clock := ⟨0, 0⟩ }
  let waiting : RunData := { config := config, observations := [{ source := heard }] }
  have admitted : admission config none call = .ok waiting := by
    simp [admission, config, call, waiting, admitAll, admitOne, Intake.accepted?, Intake.refuses,
      bind, Except.bind, pure, Except.pure, Config.changed, oneTimebase]
  have stops : waiting.move [{ source := heard }] = .stop := by
    refine (move_stop_iff _ _).mpr ⟨rfl, Or.inl ?_⟩
    norm_num [RunData.threshold, RunData.pressure, waiting, config]
  have first : submitObservations (σ := List Nat) (ρ := Nat) (fun _ => "key") "investigation" 1
      config none .empty call = some (.ok ⟨waiting, .empty, []⟩) := by
    unfold submitObservations
    rw [admitted]
    have pending : waiting.pending call.finalized = [{ source := heard }] := rfl
    dsimp only
    rw [pending]
    simp only [Cutting.cut, stops]
  let requested : RunData := { waiting with requestsUsed := 1, tokensReserved := 276 }
  have recorded : waiting.recordRequest 10 10 false = .ok requested := by decide
  let events : List (Event (List Nat) Nat) := [.submit config call true, .record 10 10 false]
  have run : Watch.run (fun _ => "key") "investigation" 1 events =
      ⟨{ stored := some requested, queue := .empty, submitted := [heard] }, false⟩ := by
    simp only [events, Watch.run, exec_cons, exec_nil, Watch.step, Feed.step, Feed.accepted?,
      first, Feed.save, if_true, recorded]
    rfl
  have stored : (Watch.run (fun _ => "key") "investigation" 1 events).feed.stored =
      some requested := by rw [run]
  have known : ∀ observation ∈ call.observations, observation ∈
      (Watch.run (fun _ => "key") "investigation" 1 events).feed.submitted := by
    rw [run]
    exact fun _ member => member
  have lasting : (Watch.run (fun _ => "key") "investigation" 1 events).final = true →
      call.finalized = true := by
    rw [run]
    exact id
  have again := replay_unchanged (fun _ => "key") "investigation" 1 events stored
    (unchanged_self config) known rfl lasting
  rw [run] at again
  exact ⟨config, call, requested, rfl, rfl, again.1 rfl⟩

end Watching

end Ovrly.Extraction
