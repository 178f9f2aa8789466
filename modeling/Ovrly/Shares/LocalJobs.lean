import Mathlib.Data.List.MinMax
import Ovrly.Relational
import Ovrly.Runs

/-!
The shares and the cached reports of a device (`data/LocalJobs.kt`, `data/LocalJobState.kt` and
the tables of `data/InvestigationStore.kt` of the Android app).
-/

namespace Ovrly.Shares

open Relational Runs

inductive ProcessingStatus
  | waiting
  | checking
  | partially
  | complete
  | failed
  | cancelled
  | unknown
  deriving DecidableEq, Repr

inductive LocalJobState
  | localPending
  | uploading
  | accepted
  | queued
  | running
  | partially
  | succeeded
  | failed
  | cancelled
  deriving DecidableEq, Repr

inductive JobEvent
  | uploadStarted
  | uploadInterrupted
  | unrecoverable
  | accepted (status : ProcessingStatus)
  | server (status : ProcessingStatus)
  | gone
  deriving DecidableEq, Repr

namespace LocalJobState

def isAccepted (state : LocalJobState) : Bool :=
  state ≠ .localPending && state ≠ .uploading

def fromServer : ProcessingStatus → Option LocalJobState
  | .waiting => some .queued
  | .checking => some .running
  | .partially => some .partially
  | .complete => some .succeeded
  | .failed => some .failed
  | .cancelled => some .cancelled
  | .unknown => none

def next (state : LocalJobState) : JobEvent → Option LocalJobState
  | .uploadStarted => if state = .localPending then some .uploading else none
  | .uploadInterrupted => if state.isAccepted then none else some .localPending
  | .unrecoverable => if state.isAccepted then none else some .failed
  | .accepted status =>
      some ((fromServer status).getD (if state.isAccepted then state else .accepted))
  | .server status => if state.isAccepted then some ((fromServer status).getD state) else none
  | .gone => if state.isAccepted then some .failed else none

end LocalJobState

/-- A published report version; `json` is none when it holds values without a wire form. -/
structure ReportVersion where
  id : String
  version : Int
  provisional : Bool
  json : Option String
  deriving DecidableEq, Repr

/-- A read model of the server: its report echoes its version. -/
structure Investigation where
  id : String
  version : Int
  processingStatus : ProcessingStatus
  report : Option ReportVersion
  echoes : ∀ published ∈ report, published.version = version

structure InvestigationRecord where
  localId : String
  serverId : Option String
  state : LocalJobState
  deriving DecidableEq, Repr

structure ReportCacheEntry where
  investigationId : String
  version : Int
  reportId : String
  json : String
  provisional : Bool
  fetchedAt : Int
  stale : Bool := false
  deriving DecidableEq, Repr

instance : Keyed InvestigationRecord String := ⟨InvestigationRecord.localId⟩

instance : Keyed ReportCacheEntry (String × Int) := ⟨fun entry => (entry.investigationId, entry.version)⟩

structure Store where
  investigations : Table InvestigationRecord
  reports : Table ReportCacheEntry

namespace InvestigationDao

variable (store : Store)

def byServerId (serverId : String) : Option InvestigationRecord :=
  store.investigations.rows.find? (·.serverId == some serverId)

def markedStale (entry : ReportCacheEntry) : ReportCacheEntry := { entry with stale := true }

theorem markedStale_key (entry : ReportCacheEntry) :
    Keyed.key (markedStale entry) = Keyed.key entry := rfl

def markOlderStale (investigationId : String) (version : Int) : Store :=
  { store with
    reports := store.reports.update
      (fun entry => entry.investigationId == investigationId && decide (entry.version < version))
      markedStale markedStale_key }

def markProvisionalStale (cutoff : Int) : Store :=
  { store with
    reports := store.reports.update
      (fun entry => entry.provisional && decide (entry.fetchedAt < cutoff))
      markedStale markedStale_key }

def latestReport (investigationId : String) : Option ReportCacheEntry :=
  @List.argmax ReportCacheEntry Int Int.instLinearOrder.toPreorder Int.decLt
    ReportCacheEntry.version (store.reports.rows.filter (·.investigationId == investigationId))

end InvestigationDao

open InvestigationDao

namespace LocalJobs

/-- What `cacheReport` puts, if the report has a wire form. -/
def cached (investigation : Investigation) (now : Int) : Option ReportCacheEntry := do
  let report ← investigation.report
  let json ← report.json
  return {
    investigationId := investigation.id
    version := report.version
    reportId := report.id
    json := json
    provisional := report.provisional
    fetchedAt := now }

def cacheReport (store : Store) (investigation : Investigation) (now : Int) : Store :=
  let store := markOlderStale store investigation.id investigation.version
  match cached investigation now with
  | none => store
  | some entry => { store with reports := store.reports.upsert entry }

def startShare (store : Store) (record : InvestigationRecord) : Store :=
  { store with
    investigations := store.investigations.upsert { record with state := .localPending } }

/-- The stored record, or `none` when it is missing or may not take the event. -/
def apply (store : Store) (localId : String) (event : JobEvent)
    (change : InvestigationRecord → InvestigationRecord) : Option InvestigationRecord × Store :=
  match store.investigations.find? localId with
  | none => (none, store)
  | some record =>
      match record.state.next event with
      | none => (none, store)
      | some next =>
          let stored := { change record with state := next }
          (some stored, { store with investigations := store.investigations.upsert stored })

def withServer (investigation : Investigation) (record : InvestigationRecord) :
    InvestigationRecord :=
  { record with serverId := some investigation.id }

def accepted (store : Store) (localId : String) (investigation : Investigation) (now : Int) :
    Option InvestigationRecord × Store :=
  match store.investigations.find? localId with
  | none => (none, store)
  | some record =>
      match record.state.next (.accepted investigation.processingStatus) with
      | none => (none, store)
      | some next =>
          let stored := { withServer investigation record with state := next }
          let imported := (byServerId store investigation.id).filter (·.localId != localId)
          let kept := match imported with
            | none => store.investigations
            | some other => store.investigations.delete (·.localId == other.localId)
          (some stored,
            cacheReport { store with investigations := kept.upsert stored } investigation now)

def importRecord (store : Store) (investigation : Investigation) : InvestigationRecord × Store :=
  let record := ⟨investigation.id, some investigation.id, .accepted⟩
  (record, { store with investigations := store.investigations.upsert record })

def recordRead (store : Store) (investigation : Investigation) (now : Int) :
    Option InvestigationRecord × Store :=
  let (existing, store) := match byServerId store investigation.id with
    | some record => (record, store)
    | none => importRecord store investigation
  let (stored, store) := apply store existing.localId (.server investigation.processingStatus)
    (withServer investigation)
  (stored, cacheReport store investigation now)

def gone (store : Store) (serverId : String) : Option InvestigationRecord × Store :=
  match byServerId store serverId with
  | none => (none, store)
  | some record => apply store record.localId .gone id

def abandon (store : Store) (localId : String) : Store :=
  match store.investigations.find? localId with
  | none => store
  | some record =>
      if record.serverId.isNone then
        { store with investigations := store.investigations.delete (·.localId == localId) }
      else store

def markUnconfirmed (store : Store) (maxAgeMillis now : Int) : Store :=
  markProvisionalStale store (now - maxAgeMillis)

end LocalJobs

open LocalJobs

inductive Call
  | startShare (record : InvestigationRecord)
  | apply (localId : String) (event : JobEvent)
  | accepted (localId : String) (investigation : Investigation) (now : Int)
  | recordRead (investigation : Investigation) (now : Int)
  | gone (serverId : String)
  | abandon (localId : String)
  | markUnconfirmed (maxAgeMillis now : Int)

/-- The store, and the server reads that it recorded. -/
structure Device where
  store : Store
  reads : List (Investigation × Int) := []

namespace Device

def empty : Device := ⟨⟨Table.empty, Table.empty⟩, []⟩

/-- The read that a call records. -/
def records (device : Device) : Call → Option (Investigation × Int)
  | .accepted localId investigation now => do
      let record ← device.store.investigations.find? localId
      let _ ← record.state.next (.accepted investigation.processingStatus)
      return (investigation, now)
  | .recordRead investigation now => some (investigation, now)
  | _ => none

def step (device : Device) (call : Call) : Device where
  store := match call with
    | .startShare record => LocalJobs.startShare device.store record
    | .apply localId event => (LocalJobs.apply device.store localId event id).2
    | .accepted localId investigation now =>
        (LocalJobs.accepted device.store localId investigation now).2
    | .recordRead investigation now => (LocalJobs.recordRead device.store investigation now).2
    | .gone serverId => (LocalJobs.gone device.store serverId).2
    | .abandon localId => LocalJobs.abandon device.store localId
    | .markUnconfirmed maxAgeMillis now => LocalJobs.markUnconfirmed device.store maxAgeMillis now
  reads := device.reads ++ (device.records call).toList

end Device

end Ovrly.Shares
