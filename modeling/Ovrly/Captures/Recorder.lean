import Ovrly.Captures.Sessions
import Ovrly.Runs

/-!
The recording of a capture on the device (`capture/CaptureStorage.kt`, `CaptureFiles.kt` and
`CaptureChunks.kt` of the Android app).

Audio, frames and ticks carry their time on the capture timeline. A chunk whose frames are still
being read is held and later chunks queue behind it. Every manifest that was saved is kept in
the order of the saves: the process can die after any of them.
-/

namespace Ovrly.Captures

open Runs Ovrly.Reports

namespace CaptureLimits

def liveMs : Nat := 180000

def chunkMs : Nat := 10000

end CaptureLimits

namespace ChunkGrid

open CaptureLimits

def seqAt (elapsedMs : Int) : Nat := (max 0 (min elapsedMs (liveMs - 1))).toNat / chunkMs

def startOf (seq : Nat) : Nat := seq * chunkMs

def endOf (seq : Nat) : Nat := min (startOf seq + chunkMs) liveMs

def lastSeq : Nat := seqAt (liveMs - 1)

end ChunkGrid

inductive FrameStatus
  | recognized
  | noTextRegions
  | failed
  | capped
  deriving DecidableEq, Repr

structure TextObservation where
  text : String
  box : List Int
  framePtsMs : Int
  deriving DecidableEq, Repr

structure FrameText where
  framePtsMs : Int
  status : FrameStatus
  regions : Nat
  observations : List TextObservation
  recognitionMs : Int
  failedRegions : Nat
  deriving DecidableEq, Repr

structure OpenChunk where
  seq : Nat
  audio : List UInt8
  frames : List FrameText
  deriving DecidableEq, Repr

def OpenChunk.audioBytes (chunk : OpenChunk) : Nat := chunk.audio.length

structure SealedChunk where
  seq : Nat
  startMs : Nat
  endMs : Nat
  modality : Modality
  sizeBytes : Nat
  sha256 : String
  audioBytes : Nat
  frameOffsetsMs : List Int
  observations : Nat
  deriving DecidableEq, Repr

/-- The local manifest (`capture.json`). -/
structure LocalManifest where
  sessionId : Uuid
  finished : Bool
  durationMs : Nat
  stopReason : Option String
  playbackSignal : Bool
  chunks : List SealedChunk
  skippedSeqs : List Nat
  deriving DecidableEq, Repr

namespace ChunkPackage

/-- What `build` and `sha256` make of a chunk: the size and the digest of its ZIP file. -/
structure Packaged where
  sizeBytes : Nat
  sha256 : String
  deriving DecidableEq, Repr

abbrev Build := OpenChunk → Nat → Modality → Packaged

def modality (audioBytes readFrames : Nat) : Option Modality :=
  if 0 < audioBytes ∧ 0 < readFrames then some .both
  else if 0 < audioBytes then some .speech
  else if 0 < readFrames then some .text
  else none

end ChunkPackage

/-- How many frames were written, came too late for their chunk, were over the cap, could not be
read, or were given up on. -/
structure FrameCounts where
  frames : Nat := 0
  dropped : Nat := 0
  capped : Nat := 0
  failed : Nat := 0
  unfinished : Nat := 0
  deriving DecidableEq, Repr

/-- The manifest of the capture and those that were saved so far, the latest first. -/
structure ChunkStorage where
  manifest : LocalManifest
  written : List LocalManifest
  counts : FrameCounts := {}
  deriving DecidableEq, Repr

namespace ChunkStorage

/-- `ChunkStorage.open`. -/
def openChunk (seq : Nat) : OpenChunk where
  seq := seq
  audio := []
  frames := []

def save (storage : ChunkStorage) : ChunkStorage :=
  { storage with written := storage.manifest :: storage.written }

def count (storage : ChunkStorage) (change : FrameCounts → FrameCounts) : ChunkStorage :=
  { storage with counts := change storage.counts }

def unfinished (storage : ChunkStorage) (frames : Nat) : ChunkStorage :=
  storage.count fun counts => { counts with unfinished := counts.unfinished + frames }

def countFrame (storage : ChunkStorage) (text : FrameText) : Option Nat → ChunkStorage
  | none =>
      if text.framePtsMs < CaptureLimits.liveMs then
        storage.count fun counts => { counts with dropped := counts.dropped + 1 }
      else storage
  | some _ =>
      storage.count fun counts => { counts with
        frames := counts.frames + 1
        failed := counts.failed + if text.status = .failed then 1 else 0 }

def sealedChunk (build : ChunkPackage.Build) (chunk : OpenChunk) (endMs : Nat)
    (modality : Modality) : SealedChunk :=
  let packaged := build chunk endMs modality
  { seq := chunk.seq
    startMs := ChunkGrid.startOf chunk.seq
    endMs := endMs
    modality := modality
    sizeBytes := packaged.sizeBytes
    sha256 := packaged.sha256
    audioBytes := chunk.audioBytes
    frameOffsetsMs := chunk.frames.map (·.framePtsMs)
    observations := (chunk.frames.map (·.observations.length)).sum }

/-- The manifest after a chunk was sealed: a chunk without media is skipped and an empty
interval leaves nothing. -/
def sealedManifest (build : ChunkPackage.Build) (manifest : LocalManifest) (chunk : OpenChunk)
    (endMs : Nat) : LocalManifest :=
  let read := chunk.frames.countP (·.status != .failed)
  if endMs ≤ ChunkGrid.startOf chunk.seq then manifest
  else match ChunkPackage.modality chunk.audioBytes read with
    | none => { manifest with skippedSeqs := manifest.skippedSeqs ++ [chunk.seq] }
    | some modality =>
        { manifest with chunks := manifest.chunks ++ [sealedChunk build chunk endMs modality] }

/-- `ChunkStorage.seal`. -/
def sealChunk (build : ChunkPackage.Build) (storage : ChunkStorage) (chunk : OpenChunk)
    (endMs : Nat) : ChunkStorage :=
  save { storage with manifest := sealedManifest build storage.manifest chunk endMs }

def interruptedReason : String :=
  "Capture ended unexpectedly; the chunks sealed before that were kept."

/-- A capture whose process died while recording keeps its sealed chunks. -/
def finalizeInterrupted (stored : LocalManifest) : LocalManifest :=
  { stored with
    finished := true
    durationMs := max ((stored.chunks.map (·.endMs)).max?.getD 0)
      ((stored.skippedSeqs.map ChunkGrid.endOf).max?.getD 0)
    stopReason := some interruptedReason }

end ChunkStorage

/-- The open chunk, the chunks held for frames that are still being read and the capture times
of these frames. -/
structure ChunkCursor where
  storage : ChunkStorage
  current : Option OpenChunk
  reading : List Int
  expired : Finset Int
  held : List OpenChunk

namespace ChunkCursor

open CaptureLimits ChunkGrid

def holdLimitMs : Int := 5000 * 8 + 5000

def waits (reading : List Int) (chunk : OpenChunk) : Bool :=
  reading.any fun elapsedMs => seqAt elapsedMs == chunk.seq

def waitsForFrame (cursor : ChunkCursor) (chunk : OpenChunk) : Bool := waits cursor.reading chunk

/-- The loop of `sealReleased`: what stays held and the storage. -/
def sealHeld (build : ChunkPackage.Build) (reading : List Int) :
    List OpenChunk → ChunkStorage → List OpenChunk × ChunkStorage
  | [], storage => ([], storage)
  | chunk :: rest, storage =>
      if waits reading chunk then (chunk :: rest, storage)
      else sealHeld build reading rest (storage.sealChunk build chunk (endOf chunk.seq))

def sealReleased (build : ChunkPackage.Build) (cursor : ChunkCursor) : ChunkCursor :=
  let settled := sealHeld build cursor.reading cursor.held cursor.storage
  { cursor with held := settled.1, storage := settled.2 }

def expireStale (build : ChunkPackage.Build) (cursor : ChunkCursor) (nowMs : Int) : ChunkCursor :=
  let stale := cursor.reading.filter fun elapsedMs => holdLimitMs < nowMs - elapsedMs
  if stale.isEmpty then cursor
  else sealReleased build
    { cursor with
      reading := cursor.reading.filter fun elapsedMs => !stale.contains elapsedMs
      expired := cursor.expired ∪ stale.toFinset
      storage := cursor.storage.unfinished stale.length }

/-- The body of the loop of `chunkFor`: the chunk is held or sealed, and the next one opened. -/
def turn (build : ChunkPackage.Build) (cursor : ChunkCursor) (chunk : OpenChunk) : ChunkCursor :=
  let left := if !cursor.held.isEmpty || cursor.waitsForFrame chunk then
      { cursor with held := cursor.held ++ [chunk] }
    else { cursor with storage := cursor.storage.sealChunk build chunk (endOf chunk.seq) }
  { left with current := some (ChunkStorage.openChunk (chunk.seq + 1)) }

/-- The loop of `chunkFor`, which runs once for every chunk up to that of the time. -/
def turns (build : ChunkPackage.Build) : Nat → ChunkCursor → OpenChunk → ChunkCursor × OpenChunk
  | 0, cursor, chunk => (cursor, chunk)
  | count + 1, cursor, chunk =>
      turns build count (cursor.turn build chunk) (ChunkStorage.openChunk (chunk.seq + 1))

def closedMessage : String := "Capture output is closed."

def chunkFor (build : ChunkPackage.Build) (cursor : ChunkCursor) (elapsedMs : Int)
    (acceptLate : Bool) : Except String (Option Nat × ChunkCursor) :=
  match cursor.current with
  | none => .error closedMessage
  | some chunk =>
      let expired := cursor.expireStale build elapsedMs
      let seq := seqAt elapsedMs
      let moved := turns build (if elapsedMs < liveMs then seq - chunk.seq else 0) expired chunk
      .ok (if elapsedMs < liveMs ∧ (acceptLate ∨ moved.2.seq = seq) then some moved.2.seq
        else none, moved.1)

def write (cursor : ChunkCursor) (seq : Nat) (edit : OpenChunk → OpenChunk) : ChunkCursor :=
  let edited := fun (chunk : OpenChunk) => if chunk.seq = seq then edit chunk else chunk
  if cursor.held.any (·.seq == seq) then { cursor with held := cursor.held.map edited }
  else { cursor with current := cursor.current.map edited }

def frameStarted (cursor : ChunkCursor) (elapsedMs : Int) : ChunkCursor :=
  if cursor.current.isNone ∨ (liveMs : Int) ≤ elapsedMs then cursor
  else { cursor with reading := cursor.reading ++ [elapsedMs] }

def release (build : ChunkPackage.Build) (cursor : ChunkCursor) (elapsedMs : Int) : ChunkCursor :=
  let forgotten := { cursor with expired := cursor.expired.erase elapsedMs }
  if elapsedMs ∈ cursor.reading then
    sealReleased build { forgotten with reading := cursor.reading.erase elapsedMs }
  else forgotten

def addFrame (text : FrameText) (chunk : OpenChunk) : OpenChunk :=
  { chunk with frames := chunk.frames ++ [text] }

def addAudio (bytes : List UInt8) (chunk : OpenChunk) : OpenChunk :=
  { chunk with audio := chunk.audio ++ bytes }

def writeAt (cursor : ChunkCursor) (edit : OpenChunk → OpenChunk) : Option Nat → ChunkCursor
  | none => cursor
  | some seq => cursor.write seq edit

def frameDone (build : ChunkPackage.Build) (cursor : ChunkCursor) (text : FrameText) :
    Except String ChunkCursor := do
  let elapsedMs := text.framePtsMs
  if elapsedMs ∈ cursor.expired then
    return { cursor with expired := cursor.expired.erase elapsedMs }
  else
    let seq := seqAt elapsedMs
    let taken := { cursor with reading := cursor.reading.erase elapsedMs }
    let (place, moved) ←
      if taken.held.any (·.seq == seq) then pure (some seq, taken)
      else taken.chunkFor build elapsedMs false
    let counted := { moved with storage := moved.storage.countFrame text place }
    let written := counted.writeAt (addFrame text) place
    return if elapsedMs ∈ cursor.reading then written.sealReleased build else written

def atEnd (build : ChunkPackage.Build) (cursor : ChunkCursor) (durationMs : Nat) :
    Except String ChunkCursor :=
  if 0 < durationMs then (cursor.chunkFor build ((durationMs : Int) - 1) true).map Prod.snd
  else .ok cursor

def finish (build : ChunkPackage.Build) (cursor : ChunkCursor) (durationMs : Nat) :
    Except String ChunkCursor := do
  let moved ← (sealReleased build { cursor with
    reading := []
    storage := cursor.storage.unfinished cursor.reading.length }).atEnd build durationMs
  match moved.current with
  | none => return moved
  | some chunk =>
      return { moved with
        storage := moved.storage.sealChunk build chunk (max durationMs (startOf chunk.seq))
        current := none }

end ChunkCursor

namespace CaptureFiles

open CaptureLimits

/-- What the recorder receives while a capture runs. -/
inductive Event
  | writeAudio (bytes : List UInt8) (elapsedMs : Int)
  | frameStarted (elapsedMs : Int)
  | release (elapsedMs : Int)
  | writeFrame (text : FrameText)
  | advance (elapsedMs : Int)
  deriving DecidableEq, Repr

def Event.elapsedMs : Event → Int
  | .writeAudio _ elapsedMs => elapsedMs
  | .frameStarted elapsedMs => elapsedMs
  | .release elapsedMs => elapsedMs
  | .writeFrame text => text.framePtsMs
  | .advance elapsedMs => elapsedMs

def begin (sessionId : Uuid) : ChunkCursor where
  storage := ChunkStorage.save
    { manifest :=
        { sessionId, finished := false, durationMs := 0, stopReason := none,
          playbackSignal := false, chunks := [], skippedSeqs := [] }
      written := [] }
  current := some (ChunkStorage.openChunk 0)
  reading := []
  expired := ∅
  held := []

def writeAudio (build : ChunkPackage.Build) (cursor : ChunkCursor) (bytes : List UInt8)
    (elapsedMs : Int) : Except String ChunkCursor := do
  let (place, moved) ← cursor.chunkFor build elapsedMs true
  return moved.writeAt (ChunkCursor.addAudio bytes) place

def writeFrame (build : ChunkPackage.Build) (cursor : ChunkCursor) (text : FrameText) :
    Except String ChunkCursor :=
  if cursor.current.isNone then .ok cursor
  else if text.status = .capped then
    .ok { cursor with
      storage := cursor.storage.count fun counts => { counts with capped := counts.capped + 1 } }
  else cursor.frameDone build text

def advance (build : ChunkPackage.Build) (cursor : ChunkCursor) (elapsedMs : Int) :
    Except String ChunkCursor := do
  if cursor.current.isSome ∧ elapsedMs < liveMs then
    let (_, moved) ← cursor.chunkFor build elapsedMs true
    return moved
  else return cursor

def handle (build : ChunkPackage.Build) (cursor : ChunkCursor) : Event → Except String ChunkCursor
  | .writeAudio bytes elapsedMs => writeAudio build cursor bytes elapsedMs
  | .frameStarted elapsedMs => .ok (cursor.frameStarted elapsedMs)
  | .release elapsedMs => .ok (cursor.release build elapsedMs)
  | .writeFrame text => writeFrame build cursor text
  | .advance elapsedMs => advance build cursor elapsedMs

/-- A call that throws leaves the recorder as it was: only the open chunk being gone throws. -/
def step (build : ChunkPackage.Build) (cursor : ChunkCursor) (event : Event) : ChunkCursor :=
  match handle build cursor event with
  | .error _ => cursor
  | .ok next => next

structure Stop where
  durationMs : Int
  reason : String
  signal : Bool
  deriving DecidableEq, Repr

def finish (build : ChunkPackage.Build) (cursor : ChunkCursor) (stop : Stop) :
    Except String ChunkCursor := do
  let duration := (max 0 (min stop.durationMs liveMs)).toNat
  let settled ← if cursor.current.isSome then cursor.finish build duration else pure cursor
  return { settled with
    storage := ChunkStorage.save { settled.storage with
      manifest := { settled.storage.manifest with
        finished := true
        durationMs := duration
        stopReason := some stop.reason
        playbackSignal := stop.signal } } }

/-- A capture: what arrives before its stop has a time before it, and its process may also die
without one. -/
structure Capture where
  sessionId : Uuid
  events : List Event
  stop : Option Stop
  late : List Event
  ordered : ∀ last ∈ stop, ∀ event ∈ events, event.elapsedMs ≤ last.durationMs

def Capture.recorded (build : ChunkPackage.Build) (capture : Capture) : ChunkCursor :=
  exec (step build) (begin capture.sessionId) capture.events

def stopped (build : ChunkPackage.Build) (cursor : ChunkCursor) (stop : Stop) : ChunkCursor :=
  match finish build cursor stop with
  | .error _ => cursor
  | .ok next => next

def Capture.recorder (build : ChunkPackage.Build) (capture : Capture) : ChunkCursor :=
  exec (step build)
    (capture.stop.elim (capture.recorded build) (stopped build (capture.recorded build)))
    capture.late

/-- `restoreOrExpire`, up to the checks of what it restored. -/
def restore (stored : LocalManifest) : LocalManifest :=
  if stored.finished then stored else ChunkStorage.finalizeInterrupted stored

end CaptureFiles

end Ovrly.Captures
