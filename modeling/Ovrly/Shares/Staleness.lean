import Ovrly.Shares.LocalJobs

/-!
Every cached report version below a version that a read has shown is stale, as long as no answer
with a report arrives after a newer one.
-/

namespace Ovrly.Shares

open Relational Runs InvestigationDao LocalJobs

namespace LocalJobs

variable {store : Store} {investigation : Investigation} {now : Int}

theorem cached_key {entry : ReportCacheEntry} (put : cached investigation now = some entry) :
    entry.investigationId = investigation.id ∧ entry.version = investigation.version ∧
      entry.stale = false := by
  cases published : investigation.report with
  | none => simp [cached, published] at put
  | some report =>
      cases encoded : report.json with
      | none => simp [cached, published, encoded] at put
      | some json =>
          simp only [cached, published, encoded, Option.bind_eq_bind, Option.bind_some,
            Option.pure_def, Option.some.injEq] at put
          subst put
          exact ⟨rfl, investigation.echoes report (by simp [published]), rfl⟩

/-- The rows after a read are the new entry and the earlier rows of other keys, the older ones
marked. -/
theorem mem_cacheReport {entry : ReportCacheEntry} :
    entry ∈ (cacheReport store investigation now).reports.rows ↔
      cached investigation now = some entry ∨
        entry ∈ (markOlderStale store investigation.id investigation.version).reports.rows ∧
          ∀ put, cached investigation now = some put → Keyed.key entry ≠ Keyed.key put := by
  cases result : cached investigation now with
  | none => simp [cacheReport, result]
  | some put => simp [cacheReport, result, Table.mem_upsert, eq_comm]

theorem mem_markOlderStale {investigationId : String} {version : Int} {entry : ReportCacheEntry}
    (member : entry ∈ (markOlderStale store investigationId version).reports.rows) :
    (entry.investigationId = investigationId → entry.version < version → entry.stale = true) ∧
      ∃ row ∈ store.reports.rows, Keyed.key row = Keyed.key entry ∧
        (row.stale = true → entry.stale = true) := by
  obtain ⟨row, belongs, rfl⟩ := List.mem_map.mp member
  by_cases older : row.investigationId = investigationId ∧ row.version < version
  · simp only [older, beq_self_eq_true, decide_true, Bool.and_self, if_true]
    exact ⟨fun _ _ => rfl, row, belongs, rfl, fun _ => rfl⟩
  · have kept : (row.investigationId == investigationId && decide (row.version < version)) =
        false := by
      simpa using older
    simp only [kept, Bool.false_eq_true, if_false]
    exact ⟨fun same below => absurd ⟨same, below⟩ older, row, belongs, rfl, id⟩

theorem keys_markOlderStale (investigationId : String) (version : Int) :
    (markOlderStale store investigationId version).reports.rows.map Keyed.key =
      store.reports.rows.map Keyed.key :=
  Table.keys_update _ _ _ markedStale_key

theorem mem_markProvisionalStale {cutoff : Int} {entry : ReportCacheEntry}
    (member : entry ∈ (markProvisionalStale store cutoff).reports.rows) :
    ∃ row ∈ store.reports.rows, Keyed.key row = Keyed.key entry ∧
      (row.stale = true → entry.stale = true) := by
  obtain ⟨row, belongs, rfl⟩ := List.mem_map.mp member
  split
  · exact ⟨row, belongs, rfl, fun _ => rfl⟩
  · exact ⟨row, belongs, rfl, id⟩

end LocalJobs

namespace Device

variable {device : Device} {call : Call}

/-- Every cached version for which a read of a higher version has been recorded is stale. -/
def Stale (device : Device) : Prop :=
  ∀ entry ∈ device.store.reports.rows, ∀ read ∈ device.reads,
    read.1.id = entry.investigationId → entry.version < read.1.version → entry.stale = true

/-- The report that the call caches is at least as new as every read recorded before of its
investigation. -/
def Fresh (device : Device) (call : Call) : Prop :=
  ∀ read ∈ device.records call, ∀ entry ∈ cached read.1 read.2, ∀ earlier ∈ device.reads,
    earlier.1.id = read.1.id → earlier.1.version ≤ entry.version

theorem apply_reports (store : Store) (localId : String) (event : JobEvent)
    (change : InvestigationRecord → InvestigationRecord) :
    (apply store localId event change).2.reports = store.reports := by
  simp only [apply]
  split
  · rfl
  · split <;> rfl

theorem cacheReport_reports {first second : Store} (same : first.reports = second.reports)
    (investigation : Investigation) (now : Int) :
    (cacheReport first investigation now).reports =
      (cacheReport second investigation now).reports := by
  cases result : cached investigation now with
  | none => simp [cacheReport, markOlderStale, result, same]
  | some entry => simp [cacheReport, markOlderStale, result, same]

theorem reports_of_records {read : Investigation × Int}
    (recorded : device.records call = some read) :
    (step device call).store.reports = (cacheReport device.store read.1 read.2).reports := by
  cases call with
  | accepted localId investigation now =>
      cases found : device.store.investigations.find? localId with
      | none => simp [records, found] at recorded
      | some record =>
          cases moved : record.state.next (.accepted investigation.processingStatus) with
          | none => simp [records, found, moved] at recorded
          | some next =>
              simp only [records, found, moved, Option.bind_eq_bind, Option.bind_some,
                Option.pure_def, Option.some.injEq] at recorded
              subst recorded
              simp only [step, LocalJobs.accepted, found, moved]
              apply cacheReport_reports
              rfl
  | recordRead investigation now =>
      simp only [records, Option.some.injEq] at recorded
      subst recorded
      simp only [step, recordRead]
      apply cacheReport_reports
      rw [apply_reports]
      cases byServerId device.store investigation.id <;> rfl
  | startShare | apply | gone | abandon | markUnconfirmed => simp [records] at recorded

theorem reports_of_none (recorded : device.records call = none) :
    (∃ cutoff, (step device call).store.reports =
        (markProvisionalStale device.store cutoff).reports) ∨
      (step device call).store.reports = device.store.reports := by
  cases call with
  | startShare record => exact .inr rfl
  | apply localId event => exact .inr (apply_reports _ _ _ _)
  | accepted localId investigation now =>
      right
      cases found : device.store.investigations.find? localId with
      | none => simp [step, LocalJobs.accepted, found]
      | some record =>
          cases moved : record.state.next (.accepted investigation.processingStatus) with
          | none => simp [step, LocalJobs.accepted, found, moved]
          | some next => simp [records, found, moved] at recorded
  | recordRead investigation now => simp [records] at recorded
  | gone serverId =>
      right
      simp only [step, LocalJobs.gone]
      split
      · rfl
      · exact apply_reports _ _ _ _
  | abandon localId =>
      right
      simp only [step, LocalJobs.abandon]
      split
      · rfl
      · split <;> rfl
  | markUnconfirmed maxAgeMillis now => exact .inl ⟨now - maxAgeMillis, rfl⟩

theorem reads_step : (step device call).reads = device.reads ++ (device.records call).toList := rfl

/-- A row after a call is the entry that it caches, or an earlier row of the same version that
has not become confirmed. -/
theorem row_step {entry : ReportCacheEntry} (member : entry ∈ (step device call).store.reports.rows) :
    (∃ read ∈ device.records call, cached read.1 read.2 = some entry) ∨
      (∃ row ∈ device.store.reports.rows, Keyed.key row = Keyed.key entry ∧
        (row.stale = true → entry.stale = true)) ∧
      ∀ read ∈ device.records call, read.1.id = entry.investigationId →
        entry.version < read.1.version → entry.stale = true := by
  cases recorded : device.records call with
  | none =>
      refine .inr ⟨?_, by simp⟩
      rcases reports_of_none recorded with ⟨cutoff, same⟩ | same
      · rw [same] at member
        exact mem_markProvisionalStale member
      · rw [same] at member
        exact ⟨entry, member, rfl, id⟩
  | some read =>
      rw [reports_of_records recorded, mem_cacheReport] at member
      rcases member with put | ⟨marked, _⟩
      · exact .inl ⟨read, rfl, put⟩
      · obtain ⟨older, kept⟩ := mem_markOlderStale marked
        refine .inr ⟨kept, ?_⟩
        intro other now same below
        obtain rfl : read = other := Option.some.inj now
        exact older same.symm below

/-- A call keeps the staleness of the cache exactly when what it caches is fresh. -/
theorem fresh_iff (stale : Stale device) : Fresh device call ↔ Stale (step device call) := by
  constructor
  · intro fresh entry member read belongs same below
    rw [reads_step, List.mem_append, Option.mem_toList] at belongs
    rcases row_step member with ⟨put, recorded, result⟩ | ⟨⟨row, earlier, key, kept⟩, older⟩
    · obtain ⟨ofPut, version, _⟩ := cached_key result
      rcases belongs with before | now
      · have ordered := fresh put recorded entry result read before (same.trans ofPut)
        omega
      · obtain rfl : put = read := Option.some.inj (recorded.symm.trans now)
        omega
    · have ids : row.investigationId = entry.investigationId := congrArg Prod.fst key
      have versions : row.version = entry.version := congrArg Prod.snd key
      rcases belongs with before | now
      · exact kept (stale row earlier read before (same.trans ids.symm) (by omega))
      · exact older read now same below
  · intro after read recorded entry result earlier before same
    obtain ⟨ofRead, version, confirmed⟩ := cached_key result
    have member : entry ∈ (step device call).store.reports.rows := by
      rw [reports_of_records recorded, mem_cacheReport]
      exact .inl result
    by_contra above
    have marked := after entry member earlier (by rw [reads_step]; simp [before])
      (same.trans ofRead.symm) (by omega)
    rw [confirmed] at marked
    exact Bool.noConfusion marked

/-- The versions in the cache are the versions of the reports that reads have shown. -/
def Complete (device : Device) : Prop :=
  ∀ key, key ∈ device.store.reports.rows.map Keyed.key ↔
    ∃ read ∈ device.reads, ∃ entry, cached read.1 read.2 = some entry ∧ Keyed.key entry = key

theorem keys_step (key : String × Int) :
    key ∈ (step device call).store.reports.rows.map Keyed.key ↔
      key ∈ device.store.reports.rows.map Keyed.key ∨
        ∃ read ∈ device.records call, ∃ entry, cached read.1 read.2 = some entry ∧
          Keyed.key entry = key := by
  cases recorded : device.records call with
  | none =>
      rcases reports_of_none recorded with ⟨cutoff, same⟩ | same
      · have keys : (markProvisionalStale device.store cutoff).reports.rows.map Keyed.key =
            device.store.reports.rows.map Keyed.key := Table.keys_update _ _ _ markedStale_key
        simp [same, keys]
      · simp [same]
  | some read =>
      have keys : (markOlderStale device.store read.1.id read.1.version).reports.rows.map Keyed.key =
          device.store.reports.rows.map Keyed.key := keys_markOlderStale _ _
      rw [reports_of_records recorded, ← keys]
      simp only [List.mem_map, Option.mem_def, Option.some.injEq, exists_eq_left']
      constructor
      · rintro ⟨entry, member, rfl⟩
        rcases mem_cacheReport.mp member with put | ⟨marked, _⟩
        · exact .inr ⟨entry, put, rfl⟩
        · exact .inl ⟨entry, marked, rfl⟩
      · rintro (⟨entry, marked, rfl⟩ | ⟨entry, put, rfl⟩)
        · by_cases replaced : ∃ put, cached read.1 read.2 = some put ∧
              Keyed.key entry = Keyed.key put
          · obtain ⟨put, result, same⟩ := replaced
            exact ⟨put, mem_cacheReport.mpr (.inl result), same.symm⟩
          · refine ⟨entry, mem_cacheReport.mpr (.inr ⟨marked, ?_⟩), rfl⟩
            exact fun put result same => replaced ⟨put, result, same⟩
        · exact ⟨entry, mem_cacheReport.mpr (.inl put), rfl⟩

theorem complete_step (complete : Complete device) : Complete (step device call) := by
  intro key
  rw [keys_step, complete key]
  simp only [reads_step, List.mem_append, Option.mem_toList, or_and_right, exists_or]
  rfl

theorem complete_run (calls : List Call) : Complete (exec step empty calls) :=
  exec_invariant Complete (fun _ _ => complete_step) (by simp [Complete, empty, Table.empty]) calls

/-- `latestReport` answers the highest version that a read has shown with its report. -/
def Latest (device : Device) : Prop :=
  ∀ investigationId,
    (∀ entry ∈ latestReport device.store investigationId,
      entry.investigationId = investigationId ∧
      ∃ read ∈ device.reads, ∃ put, cached read.1 read.2 = some put ∧
        Keyed.key put = Keyed.key entry) ∧
    ∀ read ∈ device.reads, ∀ put, cached read.1 read.2 = some put →
      put.investigationId = investigationId →
      ∃ entry, latestReport device.store investigationId = some entry ∧
        put.version ≤ entry.version

theorem latest_of_complete (complete : Complete device) : Latest device := by
  intro investigationId
  constructor
  · intro entry latest
    have chosen := List.mem_filter.mp (List.argmax_mem latest)
    exact ⟨by simpa using chosen.2, (complete _).mp (List.mem_map_of_mem chosen.1)⟩
  · intro read belongs put result same
    obtain ⟨row, member, key⟩ := List.mem_map.mp ((complete _).mpr ⟨read, belongs, put, result, rfl⟩)
    have ids : row.investigationId = put.investigationId := congrArg Prod.fst key
    have versions : row.version = put.version := congrArg Prod.snd key
    have candidate : row ∈ device.store.reports.rows.filter
        (·.investigationId == investigationId) :=
      List.mem_filter.mpr ⟨member, by simp [ids, same]⟩
    cases latest : latestReport device.store investigationId with
    | none =>
        rw [latestReport, List.argmax_eq_none] at latest
        rw [latest] at candidate
        exact absurd candidate List.not_mem_nil
    | some entry =>
        refine ⟨entry, rfl, ?_⟩
        rw [← versions]
        exact List.le_of_mem_argmax candidate latest

/-- In every run `latestReport` is the highest version ever cached, and the cache is stale below
every version read in all its states exactly when all that it caches is fresh. -/
theorem staleness_iff (calls : List Call) :
    (∀ begun, begun <+: calls → Latest (exec step empty begun)) ∧
    ((∀ begun, begun <+: calls → Stale (exec step empty begun)) ↔
      Meets step Fresh empty calls) := by
  constructor
  · exact fun begun _ => latest_of_complete (complete_run begun)
  · refine (meets_iff (fun _ _ => fresh_iff) ?_ calls).symm
    simp [Stale, empty, Table.empty]

def published (version : Int) : Investigation where
  id := "check"
  version := version
  processingStatus := .complete
  report := some ⟨"report", version, false, some "document"⟩
  echoes := by simp

/-- The first version arrives after the second and is cached as confirmed. -/
theorem late_first_confirmed :
    ¬ ∀ calls : List Call, Stale (exec step empty calls) := by
  intro claimed
  have stale := claimed [.recordRead (published 2) 10, .recordRead (published 1) 20]
  have confirmed : ∃ entry ∈ (exec step empty
      [.recordRead (published 2) 10, .recordRead (published 1) 20]).store.reports.rows,
      entry.investigationId = "check" ∧ entry.version = 1 ∧ entry.stale = false := by
    decide +kernel
  obtain ⟨entry, member, ids, version, fresh⟩ := confirmed
  have marked := stale entry member (published 2, 10) (by simp [step, records, empty]) ids.symm
    (by rw [version]; decide)
  rw [fresh] at marked
  exact Bool.noConfusion marked

end Device

end Ovrly.Shares
