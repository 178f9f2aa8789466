import Ovrly.Captures.Recorder
import Ovrly.Relational

/-!
The local storage of a capture on the device and its bound of 32 MiB (`ChunkStorage` of
`capture/CaptureStorage.kt`, `RollingEviction` and the writers of `CaptureFiles.kt`).

An operation that throws leaves behind what it did before. Files are deleted and written without
errors; what may be thrown is the storage limit, and a write to an audio stream that is closed.
-/

namespace Ovrly.Captures.LocalStorage

open Relational ChunkGrid

def maxBytes : Int := 32 * 1024 * 1024

def fitsStorage (current incoming : Int) : Bool :=
  0 ≤ current && 0 ≤ incoming && current ≤ maxBytes && incoming ≤ maxBytes - current

namespace RollingEviction

structure Stored where
  seq : Nat
  sizeBytes : Nat
  sent : Bool
  deriving DecidableEq, Repr

/-- The loop of `select`: what remains of the bytes and the sequences to delete. -/
def evictFrom (incoming : Int) : List Stored → Int → Int × List Nat
  | [], bytes => (bytes, [])
  | chunk :: rest, bytes =>
      if fitsStorage bytes incoming then (bytes, [])
      else
        let later := evictFrom incoming rest (bytes - chunk.sizeBytes)
        (later.1, chunk.seq :: later.2)

def oldestSent (stored : List Stored) : List Stored :=
  (stored.filter (·.sent)).mergeSort fun first second => first.seq ≤ second.seq

def select (stored : List Stored) (currentBytes incoming : Int) : Option (List Nat) :=
  let evicted := evictFrom incoming (oldestSent stored) currentBytes
  if fitsStorage evicted.1 incoming then some evicted.2 else none

end RollingEviction

structure ChunkFile where
  seq : Nat
  length : Nat
  deriving DecidableEq, Repr

structure FrameImage where
  elapsedMs : Int
  length : Nat
  deriving DecidableEq, Repr

instance : Keyed ChunkFile Nat := ⟨ChunkFile.seq⟩
instance : Keyed FrameImage Int := ⟨FrameImage.elapsedMs⟩

structure WorkingChunk extends OpenChunk where
  closed : Bool
  deriving DecidableEq, Repr

def WorkingChunk.rawBytes (chunk : WorkingChunk) : Nat := chunk.audio.length

def WorkingChunk.close (chunk : WorkingChunk) : WorkingChunk := { chunk with closed := true }

def WorkingChunk.addText (chunk : WorkingChunk) (text : FrameText) : WorkingChunk :=
  if chunk.seq = seqAt text.framePtsMs then { chunk with frames := chunk.frames ++ [text] }
  else chunk

/-- `ChunkStorage.open` -/
def openChunk (seq : Nat) : WorkingChunk := ⟨⟨seq, [], []⟩, false⟩

/-- The parts of `capture.json` that change while a capture runs. -/
structure Manifest where
  chunks : List SealedChunk := []
  skippedSeqs : List Nat := []
  evictedSeqs : List Nat := []
  deriving DecidableEq, Repr

/-- The storage of one capture, its open and held chunks and what the ledger says is sent. -/
structure Device where
  manifest : Manifest
  saved : Manifest
  bytes : Int
  files : Table ChunkFile
  images : Table FrameImage
  localFrames : List Int
  current : Option WorkingChunk
  held : List WorkingChunk
  sent : List Nat

inductive Failure
  | storageLimit (unsent : Nat)
  | io (message : String)
  deriving DecidableEq, Repr

abbrev Outcome := Except Failure Unit × Device

namespace Device

def isSent (device : Device) (seq : Nat) : Bool := device.sent.contains seq

def save (device : Device) : Device := { device with saved := device.manifest }

/-- Deletes an image; one that is gone already does not count. -/
def deleteFrame (device : Device) (elapsedMs : Int) : Device :=
  match device.images.find? elapsedMs with
  | none => device
  | some image =>
      { device with
        images := device.images.delete (·.elapsedMs == elapsedMs)
        bytes := device.bytes - image.length }

def dropFrames (incoming : Int) : List Int → Device → Device
  | [], device => { device with localFrames := [] }
  | elapsedMs :: rest, device =>
      if fitsStorage device.bytes incoming then { device with localFrames := elapsedMs :: rest }
      else dropFrames incoming rest (device.deleteFrame elapsedMs)

def kept (device : Device) : List SealedChunk :=
  device.manifest.chunks.filter fun chunk => !device.manifest.evictedSeqs.contains chunk.seq

def stored (device : Device) : List RollingEviction.Stored :=
  device.kept.map fun chunk => ⟨chunk.seq, chunk.sizeBytes, device.isSent chunk.seq⟩

/-- Deletes the file of a chunk; the length of a missing file is 0. -/
def deleteChunk (device : Device) (seq : Nat) : Device :=
  { device with
    files := device.files.delete (·.seq == seq)
    bytes := device.bytes - ((device.files.find? seq).map (·.length)).getD 0 }

def evict (device : Device) (seqs : List Nat) : Device :=
  let current := device.manifest
  let deleted := seqs.foldl deleteChunk device
  save { deleted with manifest := { current with evictedSeqs := current.evictedSeqs ++ seqs } }

def ensureRoom (device : Device) (incoming : Int) : Outcome :=
  let dropped := dropFrames incoming device.localFrames device
  if fitsStorage dropped.bytes incoming then (.ok (), dropped)
  else
    match RollingEviction.select dropped.stored dropped.bytes incoming with
    | none => (.error (.storageLimit (dropped.stored.countP fun chunk => !chunk.sent)), dropped)
    | some seqs => (.ok (), dropped.evict seqs)

/-- Keeps a frame image on the device only. -/
def keepFrame (device : Device) (jpeg : Nat) (elapsedMs : Int) : Outcome :=
  match device.ensureRoom jpeg with
  | (.error refused, next) => (.error refused, next)
  | (.ok _, next) =>
      (.ok (), { next with
        images := next.images.upsert ⟨elapsedMs, jpeg⟩
        localFrames := next.localFrames ++ [elapsedMs]
        bytes := next.bytes + jpeg })

/-- The end of `seal`: the working directory is deleted. -/
def discard (device : Device) (chunk : WorkingChunk) : Device :=
  save { device with bytes := device.bytes - chunk.rawBytes }

def storePackage (device : Device) (entry : SealedChunk) : Device :=
  { device with
    files := device.files.upsert ⟨entry.seq, entry.sizeBytes⟩
    bytes := device.bytes + entry.sizeBytes
    manifest := { device.manifest with chunks := device.manifest.chunks ++ [entry] } }

def sealChunk (build : ChunkPackage.Build) (device : Device) (chunk : WorkingChunk)
    (endMs : Nat) : Outcome :=
  let read := chunk.frames.countP (·.status != .failed)
  if endMs ≤ startOf chunk.seq then (.ok (), device.discard chunk)
  else
    match ChunkPackage.modality chunk.audioBytes read with
    | none =>
        (.ok (), discard
          { device with
            manifest := { device.manifest with
              skippedSeqs := device.manifest.skippedSeqs ++ [chunk.seq] } }
          chunk)
    | some modality =>
        let entry := ChunkStorage.sealedChunk build chunk.toOpenChunk endMs modality
        match device.ensureRoom (max (entry.sizeBytes - chunk.rawBytes) 0) with
        | (.error refused, next) => (.error refused, next)
        | (.ok _, next) => (.ok (), (next.storePackage entry).discard chunk)

def writeAudio (device : Device) (buffer : List UInt8) : Outcome :=
  match device.current with
  | none => (.error (.io "Capture output is closed."), device)
  | some chunk =>
      match device.ensureRoom buffer.length with
      | (.error refused, next) => (.error refused, next)
      | (.ok _, next) =>
          if chunk.closed then (.error (.io "Stream Closed"), next)
          else
            (.ok (), { next with
              current := some { chunk with audio := chunk.audio ++ buffer }
              bytes := next.bytes + buffer.length })

def addFrame (device : Device) (text : FrameText) : Device :=
  if device.held.any (·.seq == seqAt text.framePtsMs) then
    { device with held := device.held.map (·.addText text) }
  else { device with current := device.current.map (·.addText text) }

/-- `writeFrame` with the chunk of its frame, if that is still open or held. -/
def writeFrame (device : Device) (jpeg : Option Nat) (text : FrameText) : Outcome :=
  let seq := seqAt text.framePtsMs
  if device.current.isNone || text.status == .capped then (.ok (), device)
  else if !(device.held ++ device.current.toList).any (·.seq == seq) then (.ok (), device)
  else
    match jpeg with
    | none => (.ok (), device.addFrame text)
    | some length =>
        match device.keepFrame length text.framePtsMs with
        | (.error refused, next) => (.error refused, next)
        | (.ok _, next) => (.ok (), next.addFrame text)

def hold (device : Device) : Device :=
  match device.current with
  | none => device
  | some chunk =>
      { device with held := device.held ++ [chunk.close], current := some (openChunk (chunk.seq + 1)) }

def sealOpen (build : ChunkPackage.Build) (device : Device) (endMs : Nat) (last : Bool) :
    Outcome :=
  match device.current with
  | none => (.ok (), device)
  | some chunk =>
      match sealChunk build { device with current := some chunk.close } chunk endMs with
      | (.error refused, next) => (.error refused, next)
      | (.ok _, next) =>
          (.ok (), { next with
            current := if last then none else some (openChunk (chunk.seq + 1)) })

def sealHeld (build : ChunkPackage.Build) (device : Device) : Outcome :=
  match device.held with
  | [] => (.ok (), device)
  | chunk :: rest => sealChunk build { device with held := rest } chunk (endOf chunk.seq)

end Device

/-- What happens to the storage. Which chunk is held or sealed when is the cursor's. -/
inductive Operation
  | writeAudio (buffer : List UInt8)
  | writeFrame (jpeg : Option Nat) (text : FrameText)
  | hold
  | sealOpen (endMs : Nat) (last : Bool)
  | sealHeld
  | markSent (seq : Nat)
  deriving DecidableEq, Repr

namespace Device

def begin : Device where
  manifest := {}
  saved := {}
  bytes := 0
  files := Table.empty
  images := Table.empty
  localFrames := []
  current := some (openChunk 0)
  held := []
  sent := []

def perform (build : ChunkPackage.Build) (device : Device) : Operation → Outcome
  | .writeAudio buffer => device.writeAudio buffer
  | .writeFrame jpeg text => device.writeFrame jpeg text
  | .hold => (.ok (), device.hold)
  | .sealOpen endMs last => device.sealOpen build endMs last
  | .sealHeld => device.sealHeld build
  | .markSent seq => (.ok (), { device with sent := device.sent ++ [seq] })

def step (build : ChunkPackage.Build) (device : Device) (operation : Operation) : Device :=
  (device.perform build operation).2

end Device

end Ovrly.Captures.LocalStorage
