import Ovrly.Extraction.Grounding
import Ovrly.Relational

/-!
The ledger of version codes (`.github/scripts/release_ledger.py`).

A record is the JSON message of an annotated tag; a field is `none` where the message lacks it or
holds a value of another type. Nothing updates or deletes a tag.
-/

namespace Ovrly.Releases

open Relational

def schema : String := "ovrly-release-ledger/v1"
def minCode : Nat := 1
def maxCode : Nat := 2100000000
def bootstrapFloor : Nat := 1
def canonicalPackage : String := "app.ovrly"

/-- A ref of the namespace; `other` is one that is neither the bootstrap nor a canonical code. -/
inductive Ref
  | bootstrap
  | reserve (code : Nat)
  | issue (code : Nat)
  | other (name : String)
  deriving DecidableEq, Repr

def Ref.name : Ref → String
  | .bootstrap => "refs/tags/release-ledger/bootstrap"
  | .reserve code => "refs/tags/release-ledger/reserve/" ++ toString code
  | .issue code => "refs/tags/release-ledger/issue/" ++ toString code
  | .other name => name

def Ref.reserved? : Ref → Option Nat
  | .reserve code => some code
  | _ => none

def Ref.issued? : Ref → Option Nat
  | .issue code => some code
  | _ => none

structure Binding where
  runId : Option Int
  runAttempt : Option Int
  workflowSha : Option String
  deriving DecidableEq, Repr

structure Record where
  schema : Option String := none
  kind : Option String := none
  floor : Option Int := none
  createdBy : Option String := none
  code : Option Int := none
  sourceSha : Option String := none
  anchorSha : Option String := none
  run : Binding := ⟨none, none, none⟩
  requestedBy : Option String := none
  reservation : Option (Binding × Option String) := none
  unsignedSha256 : Option String := none
  signedSha256 : Option String := none
  certSha256 : Option String := none
  package : Option String := none
  deriving DecidableEq, Repr

/-- A ref with the tag object it points at, as the API shows them. -/
structure Entry where
  ref : Ref
  annotated : Bool
  tagSha : String
  targetType : String
  target : Option String
  message : Option Record
  deriving DecidableEq, Repr

instance : Keyed Entry Ref := ⟨Entry.ref⟩

inductive LedgerError
  | failed (message : String)
  | referenceExists (ref : Ref)
  | anchorMoved (ref : Ref)
  deriving DecidableEq, Repr

section Parsing

def isHex (character : Char) : Bool :=
  character.isDigit || decide ('a' ≤ character ∧ character ≤ 'f')

/-- `[0-9a-f]{count}` -/
def isHexText (count : Nat) (text : String) : Bool :=
  decide (text.toList.length = count) && text.toList.all isHex

def isSha (text : String) : Bool := isHexText 40 text

def isHex64 (text : String) : Bool := isHexText 64 text

/-- `v.strip() == v and v` -/
def isStripped (text : String) : Bool :=
  match text.toList with
  | [] => false
  | first :: rest =>
      !Extraction.isSpace first && !Extraction.isSpace ((first :: rest).getLast?.getD first)

def isPositive (value : Option Int) : Bool := value.any fun number => decide (0 < number)

def require (ref : Ref) (holds : Bool) (message : String) : Except LedgerError Unit :=
  if holds then .ok ()
  else .error (.failed ("Ledger record " ++ ref.name ++ " is invalid: " ++ message))

def parseTag (entry : Entry) (kind : String) : Except LedgerError Record := do
  if entry.targetType ≠ "commit" then
    throw (.failed ("Ledger record " ++ entry.ref.name ++ " must tag a commit, not a " ++
      entry.targetType))
  match entry.message with
  | none => throw (.failed ("Ledger record " ++ entry.ref.name ++ " is not a JSON object"))
  | some record =>
      require entry.ref (record.schema == some schema) ("schema must be " ++ schema)
      require entry.ref (record.kind == some kind) ("kind must be " ++ kind)
      require entry.ref (entry.target.any isSha) "tag must target a commit"
      pure record

def parseBootstrap (entry : Entry) : Except LedgerError Record := do
  let record ← parseTag entry "bootstrap"
  require entry.ref (record.floor == some bootstrapFloor)
    ("floor must be " ++ toString bootstrapFloor)
  require entry.ref (record.createdBy.any isStripped) "created_by is required"
  pure record

def parseRecord (entry : Entry) (kind : String) (code : Nat) : Except LedgerError Record := do
  let record ← parseTag entry kind
  require entry.ref (record.code == some code) ("code must be " ++ toString code)
  require entry.ref (record.sourceSha.any isSha) "source_sha must be a full lowercase SHA"
  require entry.ref (isPositive record.run.runId) "run_id must be a positive integer"
  require entry.ref (isPositive record.run.runAttempt) "run_attempt must be a positive integer"
  require entry.ref (record.run.workflowSha.any isSha) "workflow_sha must be a full lowercase SHA"
  require entry.ref (record.anchorSha.any isSha) "anchor_sha must be a full lowercase SHA"
  if record.anchorSha ≠ entry.target then
    throw (.failed ("Ledger record " ++ entry.ref.name ++ " claims another anchor than its target"))
  pure record

def parseIssue (entry : Entry) (code : Nat) : Except LedgerError Record := do
  let record ← parseRecord entry "issue" code
  require entry.ref (record.unsignedSha256.any isHex64)
    "unsigned_sha256 must be a lowercase hex SHA-256"
  require entry.ref (record.signedSha256.any isHex64)
    "signed_sha256 must be a lowercase hex SHA-256"
  require entry.ref (record.certSha256.any isHex64) "cert_sha256 must be a lowercase hex SHA-256"
  require entry.ref (record.package == some canonicalPackage)
    ("package must be " ++ canonicalPackage)
  match record.reservation with
  | none =>
      throw (.failed ("Ledger record " ++ entry.ref.name ++
        " is invalid: reservation tuple is required"))
  | some (binding, _) =>
      if binding.runId.isNone then
        throw (.failed ("Ledger record " ++ entry.ref.name ++
          " reservation.run_id must be an integer"))
      if binding.runAttempt.isNone then
        throw (.failed ("Ledger record " ++ entry.ref.name ++
          " reservation.run_attempt must be an integer"))
      if !binding.workflowSha.any isSha then
        throw (.failed ("Ledger record " ++ entry.ref.name ++
          " reservation.workflow_sha must be a full SHA"))
      pure record

end Parsing

section Loading

structure Ledger where
  floor : Nat
  bootstrap : Record
  reservations : List (Nat × Record) := []
  issuances : List (Nat × Record) := []

def Ledger.reservedCodes (ledger : Ledger) : List Nat := ledger.reservations.map Prod.fst

def Ledger.issuedCodes (ledger : Ledger) : List Nat := ledger.issuances.map Prod.fst

def Ledger.used (ledger : Ledger) : List Nat := ledger.reservedCodes ++ ledger.issuedCodes

def Ledger.highWaterMark (ledger : Ledger) : Nat := ledger.issuedCodes.max?.getD ledger.floor

def Ledger.nextCode (ledger : Ledger) : Except LedgerError Nat :=
  let code := ledger.used.max?.getD ledger.floor + 1
  if maxCode < code then
    .error (.failed ("Version code space exhausted: next code " ++ toString code ++ " exceeds " ++
      toString maxCode))
  else .ok code

structure Settings where
  /-- `LEDGER_BOOTSTRAP_TAG_SHA`, stripped and in lower case. -/
  pin : String
  /-- The name is the owner's login, without regard to case. -/
  isOwner : String → Bool

def checkCode (ledger : Ledger) (ref : Ref) (code : Nat) : Except LedgerError Unit := do
  if ¬(minCode ≤ code ∧ code ≤ maxCode) then
    throw (.failed ("code in " ++ ref.name ++ " must be within " ++ toString minCode ++ ".." ++
      toString maxCode))
  if code ≤ ledger.floor then
    throw (.failed (ref.name ++ " uses a code which is not above the bootstrap floor " ++
      toString ledger.floor))

def Ledger.read (ledger : Ledger) (entry : Entry) : Except LedgerError Ledger :=
  match entry.ref with
  | .bootstrap => .ok ledger
  | .other name => .error (.failed ("Unexpected ref in ledger namespace: " ++ name))
  | .reserve code => do
      checkCode ledger entry.ref code
      let record ← parseRecord entry "reserve" code
      if ledger.reservedCodes.contains code then
        throw (.failed ("Code " ++ toString code ++ " appears twice as reserve"))
      pure { ledger with reservations := ledger.reservations ++ [(code, record)] }
  | .issue code => do
      checkCode ledger entry.ref code
      let record ← parseIssue entry code
      if ledger.issuedCodes.contains code then
        throw (.failed ("Code " ++ toString code ++ " appears twice as issue"))
      pure { ledger with issuances := ledger.issuances ++ [(code, record)] }

def issuanceMatches (issued reservation : Record) : Bool :=
  issued.reservation.map Prod.fst == some reservation.run && issued.run == reservation.run &&
    issued.sourceSha == reservation.sourceSha

def checkIssuance (ledger : Ledger) (issued : Nat × Record) : Except LedgerError Unit :=
  match ledger.reservations.find? (·.1 == issued.1) with
  | none =>
      .error (.failed ("Issued code " ++ toString issued.1 ++
        " has no reservation; ledger history is incomplete"))
  | some reservation =>
      if issuanceMatches issued.2 reservation.2 then .ok ()
      else .error (.failed ("Issued code " ++ toString issued.1 ++
        " does not match its reservation (source, run, attempt or workflow differ)"))

def checkListing (listing : List Entry) : Except LedgerError Unit := do
  match listing.find? (!·.annotated) with
  | some entry => throw (.failed (entry.ref.name ++ " is a lightweight tag"))
  | none => pure ()
  if ¬(listing.map Entry.ref).Nodup then
    throw (.failed "Duplicate ref returned by the API")

def loadBootstrap (settings : Settings) (listing : List Entry) : Except LedgerError Ledger := do
  match listing.find? (·.ref == .bootstrap) with
  | none => throw (.failed "Ledger is not initialised")
  | some entry =>
      if !isSha settings.pin then
        throw (.failed "LEDGER_BOOTSTRAP_TAG_SHA repository variable is missing or malformed")
      if entry.tagSha ≠ settings.pin then
        throw (.failed "Bootstrap tag object does not match the pinned LEDGER_BOOTSTRAP_TAG_SHA")
      let bootstrap ← parseBootstrap entry
      if !bootstrap.createdBy.any settings.isOwner then
        throw (.failed "Ledger bootstrap names another owner")
      pure { floor := bootstrapFloor, bootstrap }

/-- Reads the whole namespace. Fails closed on a missing bootstrap or any malformed record. -/
def load (settings : Settings) (listing : List Entry) : Except LedgerError Ledger := do
  checkListing listing
  let opened ← loadBootstrap settings listing
  let ledger ← listing.foldlM Ledger.read opened
  ledger.issuances.forM (checkIssuance ledger)
  if 1 < (ledger.issuances.map fun issued => issued.2.certSha256).dedup.length then
    throw (.failed "Ledger issuances carry different signing certificates; expected one identity")
  pure ledger

end Loading

section Records

structure Run where
  runId : Int
  runAttempt : Int
  workflowSha : String
  actor : String
  deriving DecidableEq, Repr

def Run.binding (run : Run) : Binding := ⟨some run.runId, some run.runAttempt, some run.workflowSha⟩

def baseRecord (kind : String) (code : Nat) (sourceSha : Option String) (run : Run)
    (anchor : String) : Record where
  schema := some schema
  kind := some kind
  code := some code
  sourceSha := sourceSha
  anchorSha := some anchor
  run := run.binding
  requestedBy := some run.actor

structure Evidence where
  unsignedSha256 : String
  signedSha256 : String
  certSha256 : String
  package : String
  deriving DecidableEq, Repr

def issueRecord (code : Nat) (reservation : Record) (run : Run) (evidence : Evidence)
    (anchor : String) : Record :=
  { baseRecord "issue" code reservation.sourceSha run anchor with
    reservation := some (reservation.run, reservation.requestedBy)
    unsignedSha256 := some evidence.unsignedSha256
    signedSha256 := some evidence.signedSha256
    certSha256 := some evidence.certSha256
    package := some evidence.package }

/-- The checks of `issue` before it writes anything. -/
def checkIssue (ledger : Ledger) (code : Nat) : Except LedgerError Unit :=
  if ledger.issuedCodes.contains code then
    .error (.failed ("Code " ++ toString code ++ " is already issued; it cannot be issued twice"))
  else if code ≤ ledger.highWaterMark then
    .error (.failed ("Code " ++ toString code ++ " is not above the issued high-water mark " ++
      toString ledger.highWaterMark))
  else .ok ()

end Records

end Ovrly.Releases
