import Ovrly.Admission.Quotas

/-!
Account linking and saved reports (`auth/linking.py`, `auth/dependency.py`, `services/reports.py`).

A guest becomes an account in place, or its device continues as an account that exists and the
guest is merged into it with its saved reports. Links of one subject run one after another, and
each of these transactions locks the rows of the principals it reads.
-/

namespace Ovrly.Accounts

open Relational Ovrly.Jobs Ovrly.Reports Ovrly.Admission

inductive Kind
  | guest
  | account
  deriving DecidableEq, Repr

/-- A row of `principals`. -/
structure PrincipalRow where
  id : PrincipalId
  kind : Kind
  googleSub : Option String
  mergedInto : Option PrincipalId
  mergedAt : Option Time
  createdAt : Time
  deriving DecidableEq, Repr

structure Credential where
  tokenHash : String
  principalId : PrincipalId
  createdAt : Time
  revokedAt : Option Time
  deriving DecidableEq, Repr

/-- A row of `saved_reports`, with a report of type `δ`. -/
structure SavedReport (δ : Type) where
  ownerId : PrincipalId
  reportId : Uuid
  investigationId : Uuid
  version : Nat
  report : δ
  savedAt : Time
  deriving DecidableEq, Repr

/-- A row of `report_versions`. -/
structure ReportRow (δ : Type) where
  id : Uuid
  ownerId : PrincipalId
  investigationId : Uuid
  version : Nat
  payload : δ
  deriving DecidableEq, Repr

instance : Keyed PrincipalRow PrincipalId := ⟨PrincipalRow.id⟩
instance : Keyed Credential String := ⟨Credential.tokenHash⟩
instance {δ : Type} : Keyed (SavedReport δ) (PrincipalId × Uuid) :=
  ⟨fun saved => (saved.ownerId, saved.reportId)⟩

variable {δ : Type}

structure Directory (δ : Type) where
  principals : Table PrincipalRow
  credentials : Table Credential
  saved : Table (SavedReport δ)

def invalidCredential : ApiError :=
  { status := 401, code := "INVALID_CREDENTIAL", message := "The bearer credential is not valid" }

def createGuestPrincipal (directory : Directory δ) (id : PrincipalId) (tokenHash : String)
    (now : Time) : Except ApiError (Directory δ) :=
  match directory.principals.insert? ⟨id, .guest, none, none, none, now⟩ with
  | none => .error internalError
  | some principals =>
      match directory.credentials.insert? ⟨tokenHash, id, now, none⟩ with
      | none => .error internalError
      | some credentials => .ok { directory with principals, credentials }

def currentPrincipal (directory : Directory δ) (tokenHash : String) :
    Except ApiError PrincipalId :=
  match (directory.credentials.find? tokenHash).filter (·.revokedAt.isNone) with
  | none => .error invalidCredential
  | some credential =>
      match directory.principals.find? credential.principalId with
      | none => .error invalidCredential
      | some row => .ok row.id

def lockActivePrincipal (directory : Directory δ) (principal : PrincipalId) :
    Except ApiError Unit :=
  match directory.principals.find? principal with
  | none => .error invalidCredential
  | some row => if row.mergedInto.isSome then .error invalidCredential else .ok ()

section Transfer

def isSavedBy (saved : Table (SavedReport δ)) (owner : PrincipalId) (reportId : Uuid) : Bool :=
  (saved.find? (owner, reportId)).isSome

def movedTo (source target : PrincipalId) (row : SavedReport δ) : SavedReport δ :=
  if row.ownerId = source then { row with ownerId := target } else row

def transferable (saved : Table (SavedReport δ)) (source target : PrincipalId) :
    List (SavedReport δ) :=
  saved.rows.filter fun row => !(row.ownerId == source && isSavedBy saved target row.reportId)

theorem isSavedBy_of_mem {saved : Table (SavedReport δ)} {row : SavedReport δ}
    (member : row ∈ saved.rows) : isSavedBy saved row.ownerId row.reportId = true := by
  have found : saved.find? (row.ownerId, row.reportId) = some row := Table.find?_of_mem member
  rw [isSavedBy, found, Option.isSome_some]

theorem movedTo_injective {saved : Table (SavedReport δ)} {source target : PrincipalId}
    {first second : SavedReport δ} (member : first ∈ transferable saved source target)
    (other : second ∈ transferable saved source target)
    (same : (Keyed.key (movedTo source target first) : PrincipalId × Uuid) =
      Keyed.key (movedTo source target second)) : first = second := by
  obtain ⟨known, kept⟩ := List.mem_filter.mp member
  obtain ⟨otherKnown, otherKept⟩ := List.mem_filter.mp other
  obtain ⟨owners, reports⟩ := Prod.ext_iff.mp same
  have sameReport : first.reportId = second.reportId := by
    unfold movedTo at reports
    split at reports <;> split at reports <;> exact reports
  apply Table.eq_of_key known otherKnown
  refine Prod.ext ?_ sameReport
  by_cases moves : first.ownerId = source
  · by_cases moves' : second.ownerId = source
    · exact moves.trans moves'.symm
    · simp only [movedTo, if_pos moves, if_neg moves'] at owners
      have held := isSavedBy_of_mem otherKnown
      have owned : second.ownerId = target := owners.symm
      rw [owned, ← sameReport] at held
      simp [moves, held] at kept
  · by_cases moves' : second.ownerId = source
    · simp only [movedTo, if_neg moves, if_pos moves'] at owners
      have held := isSavedBy_of_mem known
      have owned : first.ownerId = target := owners
      rw [owned, sameReport] at held
      simp [moves', held] at otherKept
    · simp only [movedTo, if_neg moves, if_neg moves'] at owners
      exact owners

theorem transfer_unique (saved : Table (SavedReport δ)) (source target : PrincipalId) :
    (((transferable saved source target).map (movedTo source target)).map
      fun row => (Keyed.key row : PrincipalId × Uuid)).Nodup := by
  rw [List.map_map]
  refine (List.nodup_map_iff_inj_on ?_).mpr fun first member second other same =>
    movedTo_injective member other same
  exact List.Nodup.filter _ saved.unique.of_map

def transferSavedReports (saved : Table (SavedReport δ)) (source target : PrincipalId) :
    Table (SavedReport δ) :=
  ⟨(transferable saved source target).map (movedTo source target),
    transfer_unique saved source target⟩

end Transfer

section Link

structure LinkOutcome where
  principalId : PrincipalId
  mergedSavedReports : Nat
  /-- A new credential of another principal. -/
  credential : Option String
  deriving DecidableEq, Repr

def alreadyLinked : ApiError :=
  { status := 409
    code := "ACCOUNT_ALREADY_LINKED"
    message := "This principal is already linked to a different account" }

def asAccount (subject : String) (row : PrincipalRow) : PrincipalRow :=
  { row with googleSub := some subject, kind := .account }

def asMerged (account : PrincipalId) (now : Time) (row : PrincipalRow) : PrincipalRow :=
  { row with mergedInto := some account, mergedAt := some now }

def revoked (now : Time) (credential : Credential) : Credential :=
  { credential with revokedAt := some now }

theorem asAccount_key (subject : String) (row : PrincipalRow) :
    (Keyed.key (asAccount subject row) : PrincipalId) = Keyed.key row := rfl

theorem asMerged_key (account : PrincipalId) (now : Time) (row : PrincipalRow) :
    (Keyed.key (asMerged account now row) : PrincipalId) = Keyed.key row := rfl

theorem revoked_key (now : Time) (credential : Credential) :
    (Keyed.key (revoked now credential) : String) = Keyed.key credential := rfl

def holderOf (principals : Table PrincipalRow) (subject : String) : Option PrincipalRow :=
  principals.rows.find? (·.googleSub == some subject)

/-- `link_account`; `tokenHash` is the digest of the token it mints for another principal. -/
def linkAccount (directory : Directory δ) (principal : PrincipalId) (subject tokenHash : String)
    (now : Time) : Except ApiError (LinkOutcome × Directory δ) :=
  match directory.principals.find? principal with
  | none => .error internalError
  | some caller =>
      if caller.googleSub = some subject then .ok (⟨principal, 0, none⟩, directory)
      else if caller.googleSub.isSome then .error alreadyLinked
      else
        match holderOf directory.principals subject with
        | none =>
            .ok (⟨principal, 0, none⟩, { directory with
              principals := directory.principals.update (·.id == principal) (asAccount subject)
                (asAccount_key subject) })
        | some existing =>
            let moved := (transferable directory.saved principal existing.id).filter
              (·.ownerId == principal)
            let credentials := directory.credentials.update
              (fun credential => credential.principalId == principal &&
                credential.revokedAt.isNone) (revoked now) (revoked_key now)
            match credentials.insert? ⟨tokenHash, existing.id, now, none⟩ with
            | none => .error internalError
            | some credentials =>
                .ok (⟨existing.id, moved.length, some tokenHash⟩, {
                  principals := directory.principals.update (·.id == principal)
                    (asMerged existing.id now) (asMerged_key existing.id now)
                  credentials
                  saved := transferSavedReports directory.saved principal existing.id })

end Link

section Save

/-- `save_owned_report`; `version` is the row of `report_versions` with the id. -/
def saveOwnedReport (directory : Directory δ) (principal : PrincipalId) (reportId : Uuid)
    (version : Option (ReportRow δ)) (now : Time) :
    Except ApiError (SavedReport δ × Directory δ) :=
  match lockActivePrincipal directory principal with
  | .error refused => .error refused
  | .ok _ =>
      match directory.saved.find? (principal, reportId) with
      | some existing => .ok (existing, directory)
      | none =>
          match version.filter fun row => row.id == reportId && row.ownerId == principal with
          | none => .error notFound
          | some row =>
              let new : SavedReport δ :=
                ⟨principal, row.id, row.investigationId, row.version, row.payload, now⟩
              match directory.saved.insert? new with
              | none => .error internalError
              | some saved => .ok (new, { directory with saved })

def unsaveOwnedReport (directory : Directory δ) (principal : PrincipalId) (reportId : Uuid)
    (version : Option (ReportRow δ)) : Except ApiError (Directory δ) :=
  match lockActivePrincipal directory principal with
  | .error refused => .error refused
  | .ok _ =>
      if (directory.saved.find? (principal, reportId)).isSome then
        .ok { directory with
          saved := directory.saved.delete fun row =>
            row.ownerId == principal && row.reportId == reportId }
      else
        match version.filter fun row => row.id == reportId && row.ownerId == principal with
        | none => .error notFound
        | some _ => .ok directory

end Save

end Ovrly.Accounts
