import Ovrly.Captures.Recorder

/-!
The uploader of a capture next to its recorder and its owner (`CaptureUploader` of
`capture/CaptureUploads.kt`, `CaptureLedger` of `capture/CaptureStorage.kt`).

A run reads the manifest once and the choice again before every chunk. It can be cut off between
any two of its reads, writes and calls; the next run starts from the files. Runs of one capture
do not overlap.
-/

namespace Ovrly.Captures.Uploader

open Ovrly.Reports

inductive Request
  | openSession (idempotencyKey : Uuid)
  | putChunk (remote : String) (chunk : SealedChunk)
  | close (remote : String) (continueResearch : Bool) (durationMs : Nat)
  deriving DecidableEq, Repr

/-- What comes back. `unreachable` is any `IOException` without a server code. -/
inductive Answer
  | session (id : String)
  | chunk (isStored : Bool) (seq : Nat)
  | closed
  | failed (code : String) (retryable : Bool)
  | unreachable
  deriving DecidableEq, Repr

/-- The files of `CaptureLedger`. -/
structure CaptureLedger where
  remoteSessionId : Option String := none
  choice : Option Bool := none
  closed : Option Bool := none
  failure : Option String := none
  sent : List Nat := []
  deriving DecidableEq, Repr

namespace CaptureLedger

def isSent (ledger : CaptureLedger) (seq : Nat) : Bool := ledger.sent.contains seq

def recordChoice (ledger : CaptureLedger) (continueResearch : Bool) : CaptureLedger :=
  { ledger with choice := ledger.choice.or (some continueResearch) }

def markSent (ledger : CaptureLedger) (seq : Nat) : CaptureLedger :=
  { ledger with sent := ledger.sent ++ [seq] }

end CaptureLedger

structure Run where
  manifest : LocalManifest
  choice : Option Bool
  deriving DecidableEq, Repr

/-- Where a run is: behind a read or a call, and before the next. -/
inductive Position
  | idle
  | begun (manifest : LocalManifest)
  | opening (run : Run)
  | opened (run : Run) (remote : String)
  | sending (run : Run) (remote : String) (rest : List SealedChunk)
  | reading (run : Run) (remote : String) (chunk : SealedChunk) (rest : List SealedChunk)
  | putting (run : Run) (remote : String) (chunk : SealedChunk) (rest : List SealedChunk)
  | stored (run : Run) (remote : String) (chunk : SealedChunk) (rest : List SealedChunk)
  | closing (manifest : LocalManifest) (continueResearch : Bool)
  | awaiting (manifest : LocalManifest) (continueResearch : Bool)
  | answered (manifest : LocalManifest) (continueResearch : Bool)
  | failing (code : String)
  deriving DecidableEq, Repr

/-- The files of a capture, the run at work, and what was sent and acknowledged so far. -/
structure Device where
  manifest : LocalManifest
  files : List Nat
  ledger : CaptureLedger
  position : Position
  requests : List Request
  acknowledged : List Nat
  deriving DecidableEq, Repr

def missing : String := "CAPTURE_CHUNK_MISSING"

namespace Device

def goto (device : Device) (position : Position) : Device := { device with position := position }

def request (device : Device) (request : Request) (position : Position) : Device :=
  { device with requests := device.requests ++ [request], position := position }

def unsent (device : Device) (manifest : LocalManifest) : List SealedChunk :=
  manifest.chunks.filter fun chunk => !device.ledger.isSent chunk.seq

/-- `sync` up to its call of `upload`. -/
def sync (device : Device) : Device :=
  if device.position != .idle || device.ledger.closed.isSome || device.ledger.failure.isSome then
    device
  else device.goto (.begun device.manifest)

/-- The end of `upload`. -/
def conclude (device : Device) (run : Run) (stopped : Bool) : Device :=
  if stopped then
    if run.manifest.finished then device.goto (.closing run.manifest false) else device.goto .idle
  else if run.manifest.finished && run.choice == some true then
    device.goto (.closing run.manifest true)
  else device.goto .idle

/-- `upload` up to its first call. -/
def upload (device : Device) (manifest : LocalManifest) : Device :=
  let run : Run := ⟨manifest, device.ledger.choice⟩
  if run.choice == some false then
    if manifest.finished then device.goto (.closing manifest false) else device.goto .idle
  else
    match device.ledger.remoteSessionId with
    | some remote => device.goto (.sending run remote (device.unsent manifest))
    | none =>
        -- No server session is opened for a capture that sealed no chunk.
        if manifest.chunks.isEmpty then device.conclude run false
        else device.request (.openSession manifest.sessionId) (.opening run)

/-- The run goes on by itself where it does not wait for the server. -/
def next (device : Device) : Device :=
  match device.position with
  | .begun manifest => device.upload manifest
  | .opened run remote =>
      { device with
        ledger := { device.ledger with remoteSessionId := some remote }
        position := .sending run remote (device.unsent run.manifest) }
  | .sending run _ [] => device.conclude run (device.ledger.choice == some false)
  | .sending run remote (chunk :: rest) =>
      if device.ledger.choice == some false then device.conclude run true
      else device.goto (.reading run remote chunk rest)
  | .reading run remote chunk rest =>
      if device.files.contains chunk.seq then
        device.request (.putChunk remote chunk) (.putting run remote chunk rest)
      else device.goto (.failing missing)
  | .stored run remote chunk rest =>
      { device with
        ledger := device.ledger.markSent chunk.seq
        position := .sending run remote rest }
  | .closing manifest continueResearch =>
      match device.ledger.remoteSessionId with
      | some remote =>
          device.request (.close remote continueResearch manifest.durationMs)
            (.awaiting manifest continueResearch)
      | none => device.goto (.answered manifest continueResearch)
  | .answered _ continueResearch =>
      { device with
        ledger := { device.ledger with closed := some continueResearch }
        position := .idle }
  | .failing code =>
      { device with ledger := { device.ledger with failure := some code }, position := .idle }
  | _ => device

def error (device : Device) : Answer → Device
  | .failed code false => device.goto (.failing code)
  | _ => device.goto .idle

def answer (device : Device) (answer : Answer) : Device :=
  match device.position, answer with
  | .opening run, .session id => device.goto (.opened run id)
  | .putting run remote chunk rest, .chunk isStored seq =>
      if isStored && seq == chunk.seq then
        { device with
          acknowledged := device.acknowledged ++ [seq]
          position := .stored run remote chunk rest }
      else device.goto .idle
  | .awaiting manifest continueResearch, .closed =>
      device.goto (.answered manifest continueResearch)
  | .opening _, answer => device.error answer
  | .putting .., answer => device.error answer
  | .awaiting .., answer => device.error answer
  | _, _ => device

end Device

inductive Event
  | sealed (chunk : SealedChunk)
  | finished (durationMs : Nat)
  | evicted (seq : Nat)
  | chosen (continueResearch : Bool)
  | sync
  | next
  | answer (answer : Answer)
  | killed
  deriving DecidableEq, Repr

namespace Device

/-- The recorder seals chunks with sequences of their own until it finishes, and evicts only
chunks that are recorded sent. -/
def step (device : Device) : Event → Device
  | .sealed chunk =>
      if device.manifest.finished || (device.manifest.chunks.map (·.seq)).contains chunk.seq then
        device
      else { device with
        manifest := { device.manifest with chunks := device.manifest.chunks ++ [chunk] }
        files := device.files ++ [chunk.seq] }
  | .finished durationMs =>
      if device.manifest.finished then device
      else { device with
        manifest := { device.manifest with finished := true, durationMs := durationMs } }
  | .evicted seq =>
      if device.ledger.isSent seq then { device with files := device.files.filter (· != seq) }
      else device
  | .chosen continueResearch =>
      { device with ledger := device.ledger.recordChoice continueResearch }
  | .sync => device.sync
  | .next => device.next
  | .answer answer => device.answer answer
  | .killed => device.goto .idle

def begin (sessionId : Uuid) : Device where
  manifest := ⟨sessionId, false, 0, none, false, [], []⟩
  files := []
  ledger := {}
  position := .idle
  requests := []
  acknowledged := []

end Device

end Ovrly.Captures.Uploader
