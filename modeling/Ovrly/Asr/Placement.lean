import Ovrly.Asr.Cancellation

/-!
What the reservations of one owner retry add to the ledger and to the queue.

A row is placed for the primary model where that has room, else for the fallback. The rows of a
retry are placed one after another, each in the ledger that the rows before it leave.
-/

namespace Ovrly.Asr

open Relational Ovrly.Jobs

variable {δ σ ρ : Type}

section Room

def HasRoom (settings : Settings) (ledger : List (AsrRequest ρ)) (row : AsrRequest ρ) : Prop :=
  ∀ window ∈ windows settings, ∃ limit, window.limit = some limit ∧
    Window.usage window.charge (windowFilter settings window row.createdAt row.model) ledger +
      window.charge row ≤ limit

theorem hasRoom_iff {requests : Table (AsrRequest ρ)} {settings : Settings} {row : AsrRequest ρ} :
    HasRoom settings requests.rows row ↔
      (windows settings).any (exhausted requests settings row) = false := by
  rw [List.any_eq_false]
  refine forall₂_congr fun window _ => ?_
  unfold exhausted windowUsage
  cases window.limit with
  | none => simp
  | some limit => simp

variable {store : Store (SpeechPayload δ) σ ρ} {settings : Settings} {call : Reservation}

/-- Everything `reserve_in` can answer. -/
theorem reserveIn_cases (store : Store (SpeechPayload δ) σ ρ) (settings : Settings)
    (call : Reservation) :
    (reserveIn store settings call = .error .quotaExhausted ∧
        ¬ HasRoom settings store.requests.rows (call.row settings)) ∨
      HasRoom settings store.requests.rows (call.row settings) ∧
        ((reserveIn store settings call = .error .duplicateId ∧
            store.requests.find? call.id ≠ none) ∨
          ∃ next, reserveIn store settings call = .ok (call.id, next)) := by
  unfold reserveIn
  by_cases full : (windows settings).any
      (exhausted store.requests settings (call.row settings)) = true
  · left
    simp only [if_pos full, true_and]
    rw [hasRoom_iff, full]
    simp
  · right
    simp only [if_neg full]
    refine ⟨hasRoom_iff.mpr (by simpa using full), ?_⟩
    cases inserted : store.requests.insert? (call.row settings) with
    | some requests => exact .inr ⟨_, rfl⟩
    | none =>
        refine .inl ⟨rfl, fun absent => ?_⟩
        obtain ⟨next, taken⟩ := Table.insert?_isSome
          (show store.requests.find? (Keyed.key (call.row settings : AsrRequest ρ)) = none from
            absent)
        rw [inserted] at taken
        cases taken

end Room

section Rows

variable (settings : RetrySettings) (draw : Draw) (job : SpeechJob δ σ) (seconds : Rat)

def primaryCall : Reservation :=
  { id := draw.primaryId, jobId := job.id, durationSeconds := seconds
    index := retryNumber job * 100, model := some settings.groqModel
    timestamp := draw.primaryTime }

def fallbackCall : Reservation :=
  { id := draw.fallbackId, jobId := job.id, durationSeconds := seconds
    index := retryNumber job * 100, model := some settings.groqFallbackModel
    timestamp := draw.fallbackTime }

/-- The row of one job: for the primary model if it has room, else for the fallback. -/
inductive Chosen (ledger : List (AsrRequest ρ)) : AsrRequest ρ → Prop
  | primary : HasRoom settings.toSettings ledger
        ((primaryCall settings draw job seconds).row settings.toSettings) →
      Chosen ledger ((primaryCall settings draw job seconds).row settings.toSettings)
  | fallback : ¬ HasRoom settings.toSettings ledger
        ((primaryCall settings draw job seconds).row settings.toSettings) →
      HasRoom settings.toSettings ledger
        ((fallbackCall settings draw job seconds).row settings.toSettings) →
      Chosen ledger ((fallbackCall settings draw job seconds).row settings.toSettings)

theorem Chosen.jobId {settings : RetrySettings} {draw : Draw} {job : SpeechJob δ σ}
    {seconds : Rat} {ledger : List (AsrRequest ρ)} {row : AsrRequest ρ}
    (chosen : Chosen settings draw job seconds ledger row) : row.jobId = job.id := by
  cases chosen <;> rfl

theorem Chosen.unique {settings : RetrySettings} {draw : Draw} {job : SpeechJob δ σ}
    {seconds : Rat} {ledger : List (AsrRequest ρ)} {row other : AsrRequest ρ}
    (chosen : Chosen settings draw job seconds ledger row)
    (again : Chosen settings draw job seconds ledger other) : row = other := by
  cases chosen with
  | primary room =>
      cases again with
      | primary _ => rfl
      | fallback full _ => exact absurd room full
  | fallback full _ =>
      cases again with
      | primary room => exact absurd room full
      | fallback _ _ => rfl

/-- The rows of all jobs, one after another. -/
inductive Placed (call : RetryCall) :
    List (AsrRequest ρ) → List (SpeechJob δ σ × Rat) → List (AsrRequest ρ) → Prop
  | nil {ledger} : Placed call ledger [] []
  | cons {ledger job seconds rest row rows} :
      Chosen call.settings (call.draw job.id) job seconds ledger row →
      Placed call (ledger ++ [row]) rest rows →
      Placed call ledger ((job, seconds) :: rest) (row :: rows)

theorem Placed.jobIds {call : RetryCall} {ledger rows : List (AsrRequest ρ)}
    {targets : List (SpeechJob δ σ × Rat)} (placed : Placed call ledger targets rows) :
    rows.map (·.jobId) = targets.map (·.1.id) := by
  induction placed with
  | nil => rfl
  | cons chosen _ ih => rw [List.map_cons, List.map_cons, ih, chosen.jobId]

end Rows

section Reserve

variable {store next : SpeechStore δ σ (StageResult δ)} {settings : RetrySettings} {draw : Draw}
  {job : SpeechJob δ σ} {seconds : Rat}

def Draw.ids (draw : Draw) : List RequestId := [draw.primaryId, draw.fallbackId]

def Taken (requests : Table (AsrRequest ρ)) (draw : Draw) : Prop :=
  ∃ id ∈ draw.ids, requests.find? id ≠ none

def noteRequest (queue : Database (SpeechPayload δ) σ (StageResult δ))
    (row : AsrRequest (StageResult δ)) : Database (SpeechPayload δ) σ (StageResult δ) :=
  { queue with
    jobs := queue.jobs.update (·.id == row.jobId) (recordedRequest row.id)
      (recordedRequest_id row.id) }

structure Placement (store next : SpeechStore δ σ (StageResult δ)) (settings : RetrySettings)
    (row : AsrRequest (StageResult δ)) : Prop where
  ledger : next.requests.rows = store.requests.rows ++ [row]
  found : ∀ id, next.requests.find? id =
    if row.id = id then some row else store.requests.find? id
  queue : next.queue = noteRequest store.queue row
  fitted : ∀ window ∈ windows settings.toSettings, ∀ limit, window.limit = some limit → ∀ model,
    Fitted settings.toSettings window limit model store →
      Fitted settings.toSettings window limit model next

theorem reserveIn_placement {call : Reservation} {id : RequestId}
    (reserved : reserveIn store settings.toSettings call = .ok (id, next)) :
    Placement store next settings (call.row settings.toSettings) := by
  obtain ⟨-, -, inserted, queue⟩ := reserveIn_ok reserved
  refine ⟨Table.rows_insert? inserted, Table.find?_insert? inserted, queue, ?_⟩
  intro window member limit limited model fitted
  have after := Fitted.reserve member limited fitted call
  rwa [Store.reserve, reserved] at after

/-- Everything `_reserve_either` can answer. -/
theorem reserveEither_cases (settings : RetrySettings) (draw : Draw)
    (store : SpeechStore δ σ (StageResult δ)) (job : SpeechJob δ σ) (seconds : Rat) :
    (reserveEither settings draw store job.id seconds (retryNumber job * 100) =
        .error .quotaExhausted ∧
      ∀ row, ¬ Chosen settings draw job seconds store.requests.rows row) ∨
    (reserveEither settings draw store job.id seconds (retryNumber job * 100) =
        .error .duplicateId ∧ Taken store.requests draw) ∨
    ∃ next row, reserveEither settings draw store job.id seconds (retryNumber job * 100) =
        .ok next ∧ Chosen settings draw job seconds store.requests.rows row ∧
      Placement store next settings row ∧ row.id ∈ draw.ids := by
  unfold reserveEither
  rcases reserveIn_cases store settings.toSettings (primaryCall settings draw job seconds) with
    ⟨refused, full⟩ | ⟨room, ⟨collided, taken⟩ | ⟨next, reserved⟩⟩
  · have placedInstead := reserveIn_cases store settings.toSettings
      (fallbackCall settings draw job seconds)
    unfold primaryCall at refused
    rw [refused]
    rcases placedInstead with ⟨refusedToo, fullToo⟩ | ⟨room, ⟨collided, taken⟩ | ⟨next, reserved⟩⟩
    · unfold fallbackCall at refusedToo
      refine .inl ⟨by rw [refusedToo]; rfl, fun row chosen => ?_⟩
      cases chosen with
      | primary room => exact full room
      | fallback _ room => exact fullToo room
    · unfold fallbackCall at collided
      exact .inr (.inl ⟨by rw [collided]; rfl, draw.fallbackId, by simp [Draw.ids], taken⟩)
    · have placement := reserveIn_placement reserved
      unfold fallbackCall at reserved
      exact .inr (.inr ⟨next, _, by rw [reserved]; rfl, .fallback full room, placement,
        by simp [Draw.ids, fallbackCall, Reservation.row]⟩)
  · unfold primaryCall at collided
    exact .inr (.inl ⟨by rw [collided], draw.primaryId, by simp [Draw.ids], taken⟩)
  · have placement := reserveIn_placement reserved
    unfold primaryCall at reserved
    exact .inr (.inr ⟨next, _, by rw [reserved], .primary room, placement,
      by simp [Draw.ids, primaryCall, Reservation.row]⟩)

def Collides (call : RetryCall) (requests : Table (AsrRequest ρ))
    (targets : List (SpeechJob δ σ × Rat)) : Prop :=
  (∃ target ∈ targets, Taken requests (call.draw target.1.id)) ∨
    ¬ targets.Pairwise fun first second =>
      (call.draw first.1.id).ids.Disjoint (call.draw second.1.id).ids

structure Reserved (call : RetryCall) (store next : SpeechStore δ σ (StageResult δ))
    (targets : List (SpeechJob δ σ × Rat)) (rows : List (AsrRequest (StageResult δ))) : Prop where
  placed : Placed call store.requests.rows targets rows
  ledger : next.requests.rows = store.requests.rows ++ rows
  queue : next.queue = rows.foldl noteRequest store.queue
  fitted : ∀ window ∈ windows call.settings.toSettings, ∀ limit, window.limit = some limit →
    ∀ model, Fitted call.settings.toSettings window limit model store →
      Fitted call.settings.toSettings window limit model next

/-- The reservations of a retry succeed exactly where rows can be placed for all its jobs, unless
a drawn id is not new. -/
theorem reserveTargets_cases (call : RetryCall) (store : SpeechStore δ σ (StageResult δ))
    (targets : List (SpeechJob δ σ × Rat)) :
    (reserveTargets call store targets = .error .quotaExhausted ∧
      ∀ rows, ¬ Placed call store.requests.rows targets rows) ∨
    (reserveTargets call store targets = .error .duplicateId ∧
      Collides call store.requests targets) ∨
    ∃ next rows, reserveTargets call store targets = .ok next ∧
      Reserved call store next targets rows := by
  induction targets generalizing store with
  | nil => exact .inr (.inr ⟨store, [], rfl, .nil, by simp, rfl, fun _ _ _ _ _ => id⟩)
  | cons target rest ih =>
      obtain ⟨job, seconds⟩ := target
      simp only [reserveTargets]
      rcases reserveEither_cases call.settings (call.draw job.id) store job seconds with
        ⟨refused, none⟩ | ⟨collided, taken⟩ | ⟨middle, row, reserved, chosen, placement, drawn⟩
      · rw [refused]
        refine .inl ⟨rfl, fun rows placed => ?_⟩
        cases placed with
        | cons chosen _ => exact none _ chosen
      · rw [collided]
        exact .inr (.inl ⟨rfl, .inl ⟨(job, seconds), List.mem_cons_self, taken⟩⟩)
      · rw [reserved]
        dsimp only
        rcases ih middle with ⟨refused, none⟩ | ⟨collided, collides⟩ | ⟨next, rows, done, further⟩
        · refine .inl ⟨refused, fun rows placed => ?_⟩
          cases placed with
          | cons again later =>
              rw [← chosen.unique again, ← placement.ledger] at later
              exact none _ later
        · refine .inr (.inl ⟨collided, ?_⟩)
          rcases collides with ⟨other, member, id, drawnToo, taken⟩ | twice
          · by_cases same : row.id = id
            · right
              rw [List.pairwise_cons]
              exact fun apart => apart.1 other member drawn (same ▸ drawnToo)
            · left
              rw [placement.found, if_neg same] at taken
              exact ⟨other, List.mem_cons_of_mem _ member, id, drawnToo, taken⟩
          · right
            rw [List.pairwise_cons]
            exact fun apart => twice apart.2
        · refine .inr (.inr ⟨next, row :: rows, done, .cons chosen ?_, ?_, ?_, ?_⟩)
          · rw [← placement.ledger]
            exact further.placed
          · rw [further.ledger, placement.ledger, List.append_assoc, List.singleton_append]
          · rw [further.queue, placement.queue, List.foldl_cons]
          · intro window member limit limited model fitted
            exact further.fitted window member limit limited model
              (placement.fitted window member limit limited model fitted)

end Reserve

end Ovrly.Asr
