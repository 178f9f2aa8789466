import Ovrly.Captures.Eviction
import Ovrly.Runs

/-!
What the byte counter of a capture's local storage counts, over whole captures.

The counter is what the images, the raw audio of open and held chunks and the sealed chunks
take. It is more only where an image was written over another one, or where a held chunk was
taken out to be sealed and the storage limit refused its package.
-/

namespace Ovrly.Captures.LocalStorage

open Relational Runs ChunkGrid

namespace Device

section Seal

/-- Sealing a chunk: what became of the storage, and the raw audio that it no longer holds. -/
structure Sealing (chunk : WorkingChunk) (device : Device) (outcome : Outcome) : Prop where
  held : outcome.2.held = device.held
  current : outcome.2.current = device.current
  sent : outcome.2.sent = device.sent
  settled : outcome.2.Settled
  within : device.bytes ≤ maxBytes → outcome.2.bytes ≤ maxBytes
  chunks : outcome.2.manifest.chunks.map (·.seq) = device.manifest.chunks.map (·.seq) ∨
    outcome.1 = .ok () ∧ outcome.2.manifest.chunks.map (·.seq) =
      device.manifest.chunks.map (·.seq) ++ [chunk.seq]
  unsent : ∀ entry ∈ device.kept, device.isSent entry.seq = false → entry ∈ outcome.2.kept
  done : outcome.1 = .ok () → device.Framed →
    outcome.2.Framed ∧ outcome.2.spare = device.spare - chunk.rawBytes
  refused : outcome.1 ≠ .ok () → device.Framed →
    outcome.2.Framed ∧ outcome.2.spare = device.spare

theorem storePackage_kept {device : Device} (settled : device.Settled) {entry : SealedChunk}
    (fresh : entry.seq ∉ device.manifest.chunks.map (·.seq)) :
    (device.storePackage entry).kept = device.kept ++ [entry] := by
  have known : device.manifest.evictedSeqs.contains entry.seq = false := by
    rw [Bool.eq_false_iff, Ne, List.contains_iff_mem]
    exact fun member => fresh (settled.evicted _ member)
  unfold kept storePackage
  dsimp only
  rw [List.filter_append, List.filter_singleton, known]
  rfl

theorem storePackage_settled {device : Device} (settled : device.Settled) {entry : SealedChunk}
    (fresh : entry.seq ∉ device.manifest.chunks.map (·.seq)) :
    (device.storePackage entry).Settled := by
  have missing : device.files.find? entry.seq = none := by
    rw [Table.find?_eq_none, settled.onDisk]
    intro file member same
    obtain ⟨other, kept, rfl⟩ := List.mem_map.mp member
    exact fresh (List.mem_map.mpr ⟨other, List.mem_of_mem_filter kept, same⟩)
  refine ⟨?_, ?_, ?_⟩
  · have single : ((device.manifest.chunks ++ [entry]).map (·.seq)).Nodup := by
      rw [List.map_append, List.nodup_append]
      refine ⟨settled.distinct, List.nodup_singleton _, ?_⟩
      intro first member second last
      rw [List.mem_singleton.mp last]
      intro same
      have equal : first = entry.seq := same
      exact fresh (equal ▸ member)
    exact single
  · intro seq member
    have before := settled.evicted seq member
    unfold storePackage
    dsimp only
    rw [List.map_append]
    exact List.mem_append_left _ before
  · have rows : (device.files.upsert ⟨entry.seq, entry.sizeBytes⟩).rows =
        device.files.rows ++ [⟨entry.seq, entry.sizeBytes⟩] :=
      Table.rows_upsert_fresh missing
    rw [storePackage_kept settled fresh, List.map_append, ← settled.onDisk]
    exact rows

theorem discard_settled {device : Device} (settled : device.Settled) (chunk : WorkingChunk) :
    (device.discard chunk).Settled :=
  ⟨settled.distinct, settled.evicted, settled.onDisk⟩

theorem discard_spare (device : Device) (chunk : WorkingChunk) :
    (device.discard chunk).spare = device.spare - chunk.rawBytes := by
  have same : (device.discard chunk).accounted = device.accounted := rfl
  unfold spare
  rw [same]
  unfold discard save
  dsimp only
  omega

theorem discard_sealing {device next : Device} {chunk : WorkingChunk} (settled : next.Settled)
    (held : next.held = device.held) (current : next.current = device.current)
    (sent : next.sent = device.sent) (bytes : next.bytes = device.bytes)
    (chunks : next.manifest.chunks = device.manifest.chunks) (kept : next.kept = device.kept)
    (counted : device.Framed → next.Framed ∧ next.spare = device.spare) :
    Sealing chunk device (.ok (), next.discard chunk) where
  held := held
  current := current
  sent := sent
  settled := discard_settled settled chunk
  within below := by
    unfold discard save
    dsimp only
    omega
  chunks := Or.inl (congrArg (List.map (·.seq)) chunks)
  unsent entry member _ := by
    rw [← kept] at member
    exact member
  done _ framed := by
    obtain ⟨times, same⟩ := counted framed
    exact ⟨times, (discard_spare next chunk).trans (by rw [same])⟩
  refused wrong := absurd rfl wrong

theorem storePackage_sealing {device next : Device} {chunk : WorkingChunk} {entry : SealedChunk}
    (cleared : Cleared device next) (named : entry.seq = chunk.seq)
    (fresh : chunk.seq ∉ device.manifest.chunks.map (·.seq))
    (fits : fitsStorage next.bytes (max ((entry.sizeBytes : Int) - chunk.rawBytes) 0) = true) :
    Sealing chunk device (.ok (), (next.storePackage entry).discard chunk) := by
  have newer : entry.seq ∉ next.manifest.chunks.map (·.seq) := by
    rw [named, cleared.chunks]
    exact fresh
  have more := storePackage_kept cleared.settled newer
  refine ⟨cleared.held, cleared.current, cleared.sent,
    discard_settled (storePackage_settled cleared.settled newer) chunk, ?_, ?_, ?_, ?_,
    fun wrong => absurd rfl wrong⟩
  · intro _
    rw [fitsStorage_iff] at fits
    unfold discard save storePackage
    dsimp only
    omega
  · refine Or.inr ⟨rfl, ?_⟩
    have listed : ((next.manifest.chunks ++ [entry]).map (·.seq)) =
        device.manifest.chunks.map (·.seq) ++ [chunk.seq] := by
      rw [List.map_append, cleared.chunks, ← named]
      rfl
    exact listed
  · intro other member waiting
    have remains : other ∈ (next.storePackage entry).kept := by
      rw [more]
      exact List.mem_append_left _ (cleared.unsent other member waiting)
    exact remains
  · intro _ framed
    obtain ⟨times, -, same⟩ := cleared.counted framed
    have sizes : (next.storePackage entry).sealedBytes = next.sealedBytes + entry.sizeBytes := by
      rw [sealedBytes_eq, sealedBytes_eq, more, List.map_append, List.sum_append]
      simp
    have images : (next.storePackage entry).imageBytes = next.imageBytes := rfl
    have raw : (next.storePackage entry).rawBytes = next.rawBytes := rfl
    have bytes : (next.storePackage entry).bytes = next.bytes + entry.sizeBytes := rfl
    have equal : (next.storePackage entry).spare = next.spare := by
      unfold spare accounted
      rw [sizes, images, raw, bytes]
      push_cast
      omega
    refine ⟨times, ?_⟩
    rw [discard_spare, equal, same]

theorem sealChunk_sealing (build : ChunkPackage.Build) {device : Device} {chunk : WorkingChunk}
    (endMs : Nat) (settled : device.Settled)
    (fresh : chunk.seq ∉ device.manifest.chunks.map (·.seq)) :
    Sealing chunk device (sealChunk build device chunk endMs) := by
  unfold sealChunk
  dsimp only
  split
  · exact discard_sealing settled rfl rfl rfl rfl rfl rfl fun framed => ⟨framed, rfl⟩
  · split
    · exact discard_sealing ⟨settled.distinct, settled.evicted, settled.onDisk⟩ rfl rfl rfl rfl rfl
        rfl fun framed => ⟨framed, rfl⟩
    · rename_i modality _
      generalize grown : max (((ChunkStorage.sealedChunk build chunk.toOpenChunk endMs
        modality).sizeBytes : Int) - chunk.rawBytes) 0 = incoming
      have cleared := ensureRoom_cleared settled incoming
      split
      · rename_i failure next made
        rw [made] at cleared
        exact ⟨cleared.held, cleared.current, cleared.sent, cleared.settled,
          fun below => cleared.lower.trans below, Or.inl (by rw [cleared.chunks]), cleared.unsent,
          fun wrong => (by cases wrong), fun _ framed =>
            ⟨(cleared.counted framed).1, (cleared.counted framed).2.2⟩⟩
      · rename_i next made
        have fits := ensureRoom_fits settled made
        rw [made] at cleared
        rw [← grown] at fits
        exact storePackage_sealing cleared rfl fresh fits

variable {chunk : WorkingChunk} {device : Device} {outcome : Outcome}

theorem Sealing.apart (done : Sealing chunk device outcome) {held : List Nat}
    (distinct : (device.manifest.chunks.map (·.seq) ++ chunk.seq :: held).Nodup) :
    (outcome.2.manifest.chunks.map (·.seq) ++ held).Nodup := by
  rcases done.chunks with same | ⟨-, more⟩
  · rw [same]
    exact List.Nodup.sublist ((List.sublist_cons_self _ _).append_left _) distinct
  · rw [more, List.append_assoc]
    exact distinct

theorem Sealing.earlier (done : Sealing chunk device outcome) {held : List Nat} {seq : Nat}
    (member : seq ∈ outcome.2.manifest.chunks.map (·.seq) ++ held) :
    seq = chunk.seq ∨ seq ∈ device.manifest.chunks.map (·.seq) ++ held := by
  rcases done.chunks with same | ⟨-, more⟩
  · rw [same] at member
    exact Or.inr member
  · rw [more, List.append_assoc] at member
    rcases List.mem_append.mp member with before | rest
    · exact Or.inr (List.mem_append_left _ before)
    · rcases List.mem_cons.mp rest with this | other
      · exact Or.inl this
      · exact Or.inr (List.mem_append_right _ other)

end Seal

structure Sound (device : Device) : Prop where
  settled : device.Settled
  within : device.bytes ≤ maxBytes
  apart : (device.manifest.chunks.map (·.seq) ++ device.held.map (·.seq)).Nodup
  latest : ∀ seq ∈ device.manifest.chunks.map (·.seq) ++ device.held.map (·.seq),
    ∀ last ∈ device.current.map (·.seq), seq < last

/-- The counter is what the images, the raw audio and the sealed chunks take. -/
structure Balanced (device : Device) : Prop where
  framed : device.Framed
  counted : device.spare = 0

/-- What an operation keeps, and what it keeps where it meets a condition. -/
structure Served (clean : Prop) (device next : Device) : Prop where
  sound : next.Sound
  sent : ∀ seq ∈ device.sent, seq ∈ next.sent
  unsent : ∀ chunk ∈ device.kept, device.isSent chunk.seq = false → chunk ∈ next.kept
  balanced : clean → device.Balanced → next.Balanced

section Operations

variable {device next : Device}

theorem Sound.refl_served (sound : device.Sound) (clean : Prop) : Served clean device device :=
  ⟨sound, fun _ member => member, fun _ member _ => member, fun _ balanced => balanced⟩

theorem Sound.moved (sound : device.Sound) (settled : next.Settled)
    (within : next.bytes ≤ maxBytes)
    (chunks : next.manifest.chunks.map (·.seq) = device.manifest.chunks.map (·.seq))
    (held : next.held.map (·.seq) = device.held.map (·.seq))
    (current : next.current.map (·.seq) = device.current.map (·.seq)) : next.Sound where
  settled := settled
  within := within
  apart := by
    rw [chunks, held]
    exact sound.apart
  latest := by
    rw [chunks, held, current]
    exact sound.latest

theorem Cleared.served (cleared : Cleared device next) (sound : device.Sound) (clean : Prop) :
    Served clean device next where
  sound := sound.moved cleared.settled (cleared.lower.trans sound.within)
    (by rw [cleared.chunks]) (by rw [cleared.held]) (by rw [cleared.current])
  sent seq member := by
    rw [cleared.sent]
    exact member
  unsent := cleared.unsent
  balanced _ before :=
    ⟨(cleared.counted before.framed).1, (cleared.counted before.framed).2.2.trans before.counted⟩

theorem spare_eq (device : Device) :
    device.spare = device.bytes - imageLengths device.images - rawLengths device.held -
      rawLengths device.current.toList - keptLengths device.manifest := by
  unfold spare accounted imageBytes rawBytes sealedBytes
  rw [rawLengths_append]
  push_cast
  omega

theorem writeAudio_served (sound : device.Sound) (buffer : List UInt8) :
    Served True device (device.writeAudio buffer).2 := by
  have cleared := ensureRoom_cleared sound.settled (buffer.length : Int)
  unfold writeAudio
  cases open_ : device.current with
  | none => exact sound.refl_served True
  | some chunk =>
      dsimp only
      split
      · rename_i failure next made
        rw [made] at cleared
        exact cleared.served sound True
      · rename_i next made
        have fits := fitsStorage_iff.mp (ensureRoom_fits sound.settled made)
        rw [made] at cleared
        split
        · exact cleared.served sound True
        · have served := cleared.served sound True
          refine ⟨?_, served.sent, served.unsent, ?_⟩
          · refine sound.moved ⟨cleared.settled.distinct, cleared.settled.evicted,
              cleared.settled.onDisk⟩ ?_ ?_ ?_ ?_
            · dsimp only
              omega
            · rw [cleared.chunks]
            · rw [cleared.held]
            · rw [open_]
              rfl
          · intro _ before
            have after := served.balanced trivial before
            refine ⟨after.framed, ?_⟩
            have counted := after.counted
            rw [spare_eq, cleared.current, open_] at counted
            rw [spare_eq]
            simp only [Option.toList_some, rawLengths_cons, rawLengths_nil, WorkingChunk.rawBytes,
              List.length_append] at counted ⊢
            push_cast at counted ⊢
            omega

theorem keepFrame_served (sound : device.Sound) (jpeg : Nat) (elapsedMs : Int) :
    Served (device.images.find? elapsedMs = none) device (device.keepFrame jpeg elapsedMs).2 ∧
      (device.keepFrame jpeg elapsedMs).2.sent = device.sent := by
  have cleared := ensureRoom_cleared sound.settled (jpeg : Int)
  unfold keepFrame
  split
  · rename_i failure next made
    rw [made] at cleared
    exact ⟨cleared.served sound _, cleared.sent⟩
  · rename_i next made
    have fits := fitsStorage_iff.mp (ensureRoom_fits sound.settled made)
    rw [made] at cleared
    change Cleared device next at cleared
    have served := cleared.served sound True
    refine ⟨⟨?_, served.sent, served.unsent, ?_⟩, cleared.sent⟩
    · refine sound.moved ⟨cleared.settled.distinct, cleared.settled.evicted,
        cleared.settled.onDisk⟩ ?_ (by rw [cleared.chunks]) (by rw [cleared.held])
        (by rw [cleared.current])
      dsimp only
      omega
    · intro fresh before
      have after := served.balanced trivial before
      have shorter := (cleared.counted before.framed).2.1
      have times := after.framed
      have missing : next.images.find? elapsedMs = none := by
        rw [Table.find?_eq_none] at fresh ⊢
        intro image member same
        have remembered : elapsedMs ∈ next.images.rows.map (·.elapsedMs) :=
          List.mem_map.mpr ⟨image, member, same⟩
        rw [times] at remembered
        have earlier := shorter.subset remembered
        rw [← before.framed] at earlier
        obtain ⟨other, kept, equal⟩ := List.mem_map.mp earlier
        exact fresh other kept equal
      have rows : (next.images.upsert ⟨elapsedMs, jpeg⟩).rows =
          next.images.rows ++ [⟨elapsedMs, jpeg⟩] :=
        Table.rows_upsert_fresh missing
      refine ⟨?_, ?_⟩
      · unfold Framed at times ⊢
        dsimp only
        rw [rows, List.map_append, times]
        rfl
      · have counted := after.counted
        have images : imageLengths (next.images.upsert ⟨elapsedMs, jpeg⟩) =
            imageLengths next.images + jpeg := by
          unfold imageLengths
          rw [rows, List.map_append, List.sum_append]
          simp
        rw [spare_eq] at counted ⊢
        dsimp only
        rw [images]
        push_cast
        omega

theorem addFrame_served (sound : device.Sound) (text : FrameText) :
    Served True device (device.addFrame text) := by
  have settled := sound.settled
  unfold addFrame
  split
  · refine ⟨sound.moved ⟨settled.distinct, settled.evicted, settled.onDisk⟩ sound.within rfl ?_ rfl,
      fun _ member => member, fun _ member _ => member, fun _ before => ⟨before.framed, ?_⟩⟩
    · dsimp only
      rw [List.map_map]
      exact List.map_congr_left fun chunk _ => chunk.addText_seq text
    · have counted := before.counted
      have lengths : rawLengths (device.held.map (·.addText text)) = rawLengths device.held := by
        unfold rawLengths
        rw [List.map_map]
        exact congrArg List.sum (List.map_congr_left fun chunk _ => chunk.addText_rawBytes text)
      rw [spare_eq] at counted ⊢
      dsimp only
      rw [lengths]
      exact counted
  · refine ⟨sound.moved ⟨settled.distinct, settled.evicted, settled.onDisk⟩ sound.within rfl rfl ?_,
      fun _ member => member, fun _ member _ => member, fun _ before => ⟨before.framed, ?_⟩⟩
    · dsimp only
      cases device.current with
      | none => rfl
      | some chunk => exact congrArg some (chunk.addText_seq text)
    · have counted := before.counted
      have lengths : rawLengths (device.current.map (·.addText text)).toList =
          rawLengths device.current.toList := by
        cases device.current with
        | none => rfl
        | some chunk =>
            simp only [Option.map_some, Option.toList_some, rawLengths_cons, rawLengths_nil,
              WorkingChunk.addText_rawBytes]
      rw [spare_eq] at counted ⊢
      dsimp only
      rw [lengths]
      exact counted

/-- The image of a frame would be kept: a capture is running and its chunk is not sealed yet. -/
def takes (device : Device) (text : FrameText) : Bool :=
  device.current.isSome && text.status != .capped &&
    (device.held ++ device.current.toList).any (·.seq == seqAt text.framePtsMs)

theorem writeFrame_served (sound : device.Sound) (jpeg : Option Nat) (text : FrameText) :
    Served (jpeg.isSome = true → device.takes text = true →
        device.images.find? text.framePtsMs = none)
      device (device.writeFrame jpeg text).2 := by
  unfold writeFrame
  dsimp only
  split
  · exact sound.refl_served _
  · rename_i running
    split
    · exact sound.refl_served _
    · rename_i among
      have taken : device.takes text = true := by
        unfold takes
        simp only [Bool.or_eq_true, Option.isNone_iff_eq_none, beq_iff_eq, not_or] at running
        simp only [Bool.not_eq_true', Bool.not_eq_false] at among
        rw [among, Bool.and_true, Bool.and_eq_true, bne_iff_ne]
        exact ⟨Option.isSome_iff_ne_none.mpr running.1, running.2⟩
      split
      · have served := addFrame_served sound text
        exact ⟨served.sound, served.sent, served.unsent, fun _ => served.balanced trivial⟩
      · rename_i length
        obtain ⟨served, sent⟩ := keepFrame_served sound length text.framePtsMs
        split
        · rename_i failure next made
          rw [made] at served
          exact ⟨served.sound, served.sent, served.unsent,
            fun clean => served.balanced (clean rfl taken)⟩
        · rename_i next made
          rw [made] at served sent
          have written := addFrame_served served.sound text
          refine ⟨written.sound, fun seq member => written.sent seq (served.sent seq member), ?_,
            ?_⟩
          · intro chunk member waiting
            apply written.unsent chunk (served.unsent chunk member waiting)
            unfold isSent
            rw [sent]
            exact waiting
          · intro clean before
            exact written.balanced trivial (served.balanced (clean rfl taken) before)

theorem hold_served (sound : device.Sound) : Served True device device.hold := by
  unfold hold
  cases open_ : device.current with
  | none => exact sound.refl_served True
  | some chunk =>
      have latest := sound.latest
      rw [open_] at latest
      have before_ (seq : Nat) (member : seq ∈ device.manifest.chunks.map (·.seq) ++
          device.held.map (·.seq)) : seq < chunk.seq := latest seq member chunk.seq rfl
      have seqs : device.manifest.chunks.map (·.seq) ++
          (device.held ++ [chunk.close]).map (·.seq) =
          device.manifest.chunks.map (·.seq) ++ device.held.map (·.seq) ++ [chunk.seq] := by
        rw [List.map_append, ← List.append_assoc]
        rfl
      refine ⟨⟨⟨sound.settled.distinct, sound.settled.evicted, sound.settled.onDisk⟩,
        sound.within, ?_, ?_⟩, fun _ member => member, fun _ member _ => member,
        fun _ before => ⟨before.framed, ?_⟩⟩
      · dsimp only
        rw [seqs, List.nodup_append]
        refine ⟨sound.apart, List.nodup_singleton _, ?_⟩
        intro first member second last
        rw [List.mem_singleton.mp last]
        exact Nat.ne_of_lt (before_ first member)
      · dsimp only
        rw [seqs]
        rintro seq member last same
        have newest : chunk.seq + 1 = last := Option.some.inj same
        rcases List.mem_append.mp member with earlier | this
        · have lower := before_ seq earlier
          omega
        · rw [List.mem_singleton.mp this]
          omega
      · have counted := before.counted
        rw [spare_eq, open_] at counted
        rw [spare_eq]
        dsimp only
        rw [rawLengths_append]
        simp only [Option.toList_some, rawLengths_cons, rawLengths_nil] at counted ⊢
        have closed : chunk.close.rawBytes = chunk.rawBytes := rfl
        have empty : (openChunk (chunk.seq + 1)).rawBytes = 0 := rfl
        rw [closed, empty]
        push_cast at counted ⊢
        omega

/-- Sealing the open chunk keeps the counter also where the storage limit refuses its package:
the chunk stays open. -/
theorem sealOpen_served (build : ChunkPackage.Build) (sound : device.Sound) (endMs : Nat)
    (last : Bool) : Served True device (device.sealOpen build endMs last).2 := by
  unfold sealOpen
  cases open_ : device.current with
  | none => exact sound.refl_served True
  | some chunk =>
      have latest := sound.latest
      rw [open_] at latest
      have before_ (seq : Nat) (member : seq ∈ device.manifest.chunks.map (·.seq) ++
          device.held.map (·.seq)) : seq < chunk.seq := latest seq member chunk.seq rfl
      have fresh : chunk.seq ∉ device.manifest.chunks.map (·.seq) := fun member =>
        Nat.lt_irrefl _ (before_ _ (List.mem_append_left _ member))
      have done : Sealing chunk { device with current := some chunk.close }
          (sealChunk build { device with current := some chunk.close } chunk endMs) :=
        sealChunk_sealing build endMs
          ⟨sound.settled.distinct, sound.settled.evicted, sound.settled.onDisk⟩ fresh
      have closed : ({ device with current := some chunk.close } : Device).spare = device.spare := by
        rw [spare_eq, spare_eq, open_]
        rfl
      dsimp only
      split
      · rename_i failure next made
        rw [made] at done
        refine ⟨sound.moved done.settled (done.within sound.within) ?_ ?_ ?_,
          fun seq member => done.sent.symm ▸ member, done.unsent, ?_⟩
        · rcases done.chunks with same | ⟨wrong, -⟩
          · exact same
          · cases wrong
        · exact congrArg (List.map (·.seq)) done.held
        · have current : next.current = some chunk.close := done.current
          rw [current, open_]
          rfl
        · intro _ before
          obtain ⟨times, same⟩ := done.refused (by simp) before.framed
          exact ⟨times, same.trans (closed.trans before.counted)⟩
      · rename_i next made
        rw [made] at done
        have held : next.held = device.held := done.held
        have apart : (device.manifest.chunks.map (·.seq) ++ chunk.seq ::
            device.held.map (·.seq)).Nodup := by
          rw [List.nodup_middle, List.nodup_cons]
          exact ⟨fun member => Nat.lt_irrefl _ (before_ _ member), sound.apart⟩
        refine ⟨⟨⟨done.settled.distinct, done.settled.evicted, done.settled.onDisk⟩,
          done.within sound.within, ?_, ?_⟩, fun seq member => done.sent.symm ▸ member,
          done.unsent, ?_⟩
        · dsimp only
          rw [held]
          exact done.apart apart
        · dsimp only
          rw [held]
          rintro seq member newest same
          have bound : seq ≤ chunk.seq := by
            rcases done.earlier member with this | earlier
            · exact this.le
            · exact (before_ seq earlier).le
          cases last
          · have next_ : chunk.seq + 1 = newest := Option.some.inj same
            omega
          · cases same
        · intro _ before
          obtain ⟨times, same⟩ := done.done rfl before.framed
          refine ⟨times, ?_⟩
          have counted := before.counted
          have current : next.current = some chunk.close := done.current
          have raw : chunk.close.rawBytes = chunk.rawBytes := rfl
          rw [closed, counted, spare_eq, current] at same
          rw [spare_eq]
          simp only [Option.toList_some, rawLengths_cons, rawLengths_nil, raw] at same
          have empty : rawLengths (if last then none
              else some (openChunk (chunk.seq + 1))).toList = 0 := by
            cases last <;> rfl
          dsimp only
          rw [empty]
          push_cast at same ⊢
          omega

/-- There is room for the package of the first held chunk, all sent chunks left aside. -/
def HeldFits (build : ChunkPackage.Build) (device : Device) : Prop :=
  ∀ chunk ∈ device.held.head?,
    ((device.unsentBytes + growth build chunk (endOf chunk.seq) : Nat) : Int) ≤ maxBytes

theorem sealChunk_ok {build : ChunkPackage.Build} {device : Device} {chunk : WorkingChunk}
    {endMs : Nat} (settled : device.Settled) (framed : device.Framed)
    (covered : 0 ≤ device.spare)
    (fits : device.spare + device.unsentBytes + growth build chunk endMs ≤ maxBytes) :
    (sealChunk build device chunk endMs).1 = .ok () := by
  unfold growth at fits
  unfold sealChunk
  dsimp only at fits ⊢
  split
  · rfl
  · rename_i later
    rw [if_neg later] at fits
    split
    · rfl
    · rename_i modality chosen
      rw [chosen] at fits
      dsimp only at fits
      split
      · rename_i failure next refused
        have size : (ChunkStorage.sealedChunk build chunk.toOpenChunk endMs modality).sizeBytes =
            (build chunk.toOpenChunk endMs modality).sizeBytes := rfl
        have short := ensureRoom_short settled framed covered (by omega) refused
        rw [size] at short
        omega
      · rfl

/-- Where a held chunk is refused its package, its raw audio stays in the counter. -/
theorem sealHeld_served (build : ChunkPackage.Build) (sound : device.Sound) :
    Served (device.HeldFits build) device (device.sealHeld build).2 := by
  unfold sealHeld
  cases waiting : device.held with
  | nil => exact sound.refl_served _
  | cons chunk rest =>
      have distinct := sound.apart
      have latest := sound.latest
      rw [waiting, List.map_cons] at distinct latest
      have fresh : chunk.seq ∉ device.manifest.chunks.map (·.seq) := by
        rw [List.nodup_middle, List.nodup_cons] at distinct
        exact fun member => distinct.1 (List.mem_append_left _ member)
      have settled : ({ device with held := rest } : Device).Settled :=
        ⟨sound.settled.distinct, sound.settled.evicted, sound.settled.onDisk⟩
      have done : Sealing chunk { device with held := rest }
          (sealChunk build { device with held := rest } chunk (endOf chunk.seq)) :=
        sealChunk_sealing build (endOf chunk.seq) settled fresh
      have out : ({ device with held := rest } : Device).spare =
          device.spare + chunk.rawBytes := by
        rw [spare_eq, spare_eq, waiting, rawLengths_cons]
        push_cast
        omega
      dsimp only
      refine ⟨⟨done.settled, done.within sound.within, ?_, ?_⟩,
        fun seq member => done.sent.symm ▸ member, done.unsent, ?_⟩
      · rw [done.held]
        exact done.apart distinct
      · rw [done.held, done.current]
        intro seq member
        rcases done.earlier member with this | earlier
        · rw [this]
          exact latest _ (List.mem_append_right _ List.mem_cons_self)
        · apply latest
          rcases List.mem_append.mp earlier with before | after
          · exact List.mem_append_left _ before
          · exact List.mem_append_right _ (List.mem_cons_of_mem _ after)
      · intro clean before
        have fits := clean chunk (by rw [waiting]; rfl)
        have unsent : device.unsentBytes =
            chunk.rawBytes + ({ device with held := rest } : Device).unsentBytes := by
          unfold unsentBytes rawBytes
          rw [waiting, List.cons_append, rawLengths_cons, Nat.add_assoc]
          rfl
        have accepted : (sealChunk build { device with held := rest } chunk
            (endOf chunk.seq)).1 = .ok () := by
          apply sealChunk_ok settled before.framed
          · rw [out, before.counted]
            omega
          · rw [out, before.counted]
            omega
        obtain ⟨times, same⟩ := done.done accepted before.framed
        refine ⟨times, ?_⟩
        rw [same, out, before.counted]
        omega

/-- The condition under which an operation keeps the counter right: a kept image has a time of
its own, and there is room for the package of a held chunk that is sealed. -/
def Clean (build : ChunkPackage.Build) (device : Device) : Operation → Prop
  | .writeFrame jpeg text =>
      jpeg.isSome = true → device.takes text = true → device.images.find? text.framePtsMs = none
  | .sealHeld => device.HeldFits build
  | _ => True

theorem step_served (build : ChunkPackage.Build) (sound : device.Sound) (operation : Operation) :
    Served (device.Clean build operation) device (device.step build operation) := by
  cases operation with
  | writeAudio buffer => exact writeAudio_served sound buffer
  | writeFrame jpeg text => exact writeFrame_served sound jpeg text
  | hold => exact hold_served sound
  | sealOpen endMs last => exact sealOpen_served build sound endMs last
  | sealHeld => exact sealHeld_served build sound
  | markSent seq =>
      exact ⟨⟨⟨sound.settled.distinct, sound.settled.evicted, sound.settled.onDisk⟩, sound.within,
        sound.apart, sound.latest⟩, fun _ member => List.mem_append_left _ member,
        fun _ member _ => member, fun _ before => ⟨before.framed, before.counted⟩⟩

theorem sealChunk_refused {build : ChunkPackage.Build} {chunk : WorkingChunk} {endMs : Nat}
    {failure : Failure} (refused : sealChunk build device chunk endMs = (.error failure, next)) :
    next.manifest = device.manifest ∧ next.files = device.files := by
  unfold sealChunk at refused
  dsimp only at refused
  split at refused
  · cases (Prod.mk.inj refused).1
  · split at refused
    · cases (Prod.mk.inj refused).1
    · split at refused
      · rename_i made
        obtain ⟨-, rfl⟩ := Prod.mk.inj refused
        exact ensureRoom_refused made
      · cases (Prod.mk.inj refused).1

theorem perform_refused {build : ChunkPackage.Build} {operation : Operation} {unsent : Nat}
    (refused : device.perform build operation = (.error (.storageLimit unsent), next)) :
    next.manifest = device.manifest ∧ next.files = device.files := by
  cases operation with
  | writeAudio buffer =>
      unfold perform writeAudio at refused
      dsimp only at refused
      split at refused
      · cases (Prod.mk.inj refused).1
      · split at refused
        · rename_i made
          obtain ⟨-, rfl⟩ := Prod.mk.inj refused
          exact ensureRoom_refused made
        · split at refused
          · cases (Prod.mk.inj refused).1
          · cases (Prod.mk.inj refused).1
  | writeFrame jpeg text =>
      unfold perform writeFrame at refused
      dsimp only at refused
      split at refused
      · cases (Prod.mk.inj refused).1
      · split at refused
        · cases (Prod.mk.inj refused).1
        · split at refused
          · cases (Prod.mk.inj refused).1
          · split at refused
            · rename_i kept
              obtain ⟨-, rfl⟩ := Prod.mk.inj refused
              unfold keepFrame at kept
              split at kept
              · rename_i made
                obtain ⟨-, rfl⟩ := Prod.mk.inj kept
                exact ensureRoom_refused made
              · cases (Prod.mk.inj kept).1
            · cases (Prod.mk.inj refused).1
  | hold => cases (Prod.mk.inj refused).1
  | sealOpen endMs last =>
      unfold perform sealOpen at refused
      dsimp only at refused
      split at refused
      · cases (Prod.mk.inj refused).1
      · split at refused
        · rename_i made
          obtain ⟨-, rfl⟩ := Prod.mk.inj refused
          have kept := sealChunk_refused made
          exact kept
        · cases (Prod.mk.inj refused).1
  | sealHeld =>
      unfold perform sealHeld at refused
      dsimp only at refused
      split at refused
      · cases (Prod.mk.inj refused).1
      · have kept := sealChunk_refused refused
        exact kept
  | markSent seq => cases (Prod.mk.inj refused).1

theorem Cleared.unsentBytes_le (cleared : Cleared device next) (settled : device.Settled) :
    device.unsentBytes ≤ next.rawBytes + next.sealedBytes := by
  have raw : next.rawBytes = device.rawBytes := by
    unfold rawBytes
    rw [cleared.held, cleared.current]
  have distinct : (device.kept.filter fun chunk => !device.isSent chunk.seq).Nodup :=
    (List.Nodup.of_map _ settled.kept_distinct).filter _
  have among : (device.kept.filter fun chunk => !device.isSent chunk.seq).Subperm next.kept := by
    apply List.subperm_of_subset distinct
    intro chunk member
    obtain ⟨kept, waiting⟩ := List.mem_filter.mp member
    rw [Bool.not_eq_true'] at waiting
    exact cleared.unsent chunk kept waiting
  have weight : ((device.kept.filter fun chunk => !device.isSent chunk.seq).map
      (·.sizeBytes)).sum ≤ next.sealedBytes := by
    obtain ⟨same, ordered, sub⟩ := among
    rw [sealedBytes_eq, ← (ordered.map (·.sizeBytes)).sum_eq]
    exact (sub.map _).sum_le_sum fun _ _ => Nat.zero_le _
  unfold unsentBytes
  omega

/-- In a state with the right counter a held chunk is refused its package exactly where the
media that may not be deleted leaves no room for it. -/
theorem sealChunk_ok_iff {build : ChunkPackage.Build} {chunk : WorkingChunk} {endMs : Nat}
    (settled : device.Settled) (framed : device.Framed) (covered : 0 ≤ device.spare)
    (within : device.bytes ≤ maxBytes) :
    (sealChunk build device chunk endMs).1 = .ok () ↔
      device.spare + device.unsentBytes + growth build chunk endMs ≤ maxBytes := by
  refine ⟨fun accepted => ?_, sealChunk_ok settled framed covered⟩
  have bound : device.spare + device.unsentBytes ≤ maxBytes := by
    have split := sealedBytes_split device
    unfold spare accounted at *
    omega
  unfold growth
  unfold sealChunk at accepted
  dsimp only at accepted ⊢
  split
  · omega
  · rename_i later
    rw [if_neg later] at accepted
    split
    · omega
    · rename_i modality chosen
      rw [chosen] at accepted
      dsimp only at accepted
      split at accepted
      · cases accepted
      · rename_i next made
        have fits := fitsStorage_iff.mp (ensureRoom_fits settled made)
        have cleared := ensureRoom_cleared settled
          (max (((ChunkStorage.sealedChunk build chunk.toOpenChunk endMs modality).sizeBytes : Int)
            - chunk.rawBytes) 0)
        rw [made] at cleared
        have same := (cleared.counted framed).2.2
        have less := cleared.unsentBytes_le settled
        have size : (ChunkStorage.sealedChunk build chunk.toOpenChunk endMs modality).sizeBytes =
            (build chunk.toOpenChunk endMs modality).sizeBytes := rfl
        rw [size] at fits
        dsimp only at same less
        unfold spare accounted at same ⊢
        unfold spare accounted at covered bound
        omega

/-- Sealing a held chunk in a state with the right counter: either the counter stays right, or
the chunk is lost and its raw audio stays counted. -/
theorem sealHeld_spare (build : ChunkPackage.Build) (sound : device.Sound)
    (balanced : device.Balanced) {chunk : WorkingChunk} {rest : List WorkingChunk}
    (waiting : device.held = chunk :: rest) :
    (device.HeldFits build → (device.step build .sealHeld).spare = 0) ∧
      (¬device.HeldFits build →
        (device.step build .sealHeld).held = rest ∧
        (device.step build .sealHeld).manifest = device.manifest ∧
        (device.step build .sealHeld).spare = chunk.rawBytes) := by
  refine ⟨fun fits => ((sealHeld_served build sound).balanced fits balanced).counted, ?_⟩
  intro short
  have distinct := sound.apart
  rw [waiting, List.map_cons, List.nodup_middle, List.nodup_cons] at distinct
  have settled : ({ device with held := rest } : Device).Settled :=
    ⟨sound.settled.distinct, sound.settled.evicted, sound.settled.onDisk⟩
  have done : Sealing chunk { device with held := rest }
      (sealChunk build { device with held := rest } chunk (endOf chunk.seq)) :=
    sealChunk_sealing build (endOf chunk.seq) settled fun member =>
      distinct.1 (List.mem_append_left _ member)
  have out : ({ device with held := rest } : Device).spare = chunk.rawBytes := by
    have counted := balanced.counted
    rw [spare_eq, waiting, rawLengths_cons] at counted
    rw [spare_eq]
    push_cast at counted
    dsimp only
    omega
  have unsent : device.unsentBytes =
      chunk.rawBytes + ({ device with held := rest } : Device).unsentBytes := by
    unfold unsentBytes rawBytes
    rw [waiting, List.cons_append, rawLengths_cons, Nat.add_assoc]
    rfl
  have refused : (sealChunk build { device with held := rest } chunk (endOf chunk.seq)).1 ≠
      .ok () := by
    intro accepted
    apply short
    have fits := (sealChunk_ok_iff settled balanced.framed (by rw [out]; omega)
      sound.within).mp accepted
    rintro other first
    rw [waiting] at first
    obtain rfl := Option.some.inj first
    rw [out] at fits
    rw [unsent]
    push_cast
    exact fits
  have whole : device.perform build .sealHeld =
      sealChunk build { device with held := rest } chunk (endOf chunk.seq) := by
    unfold perform sealHeld
    rw [waiting]
  have kept : (sealChunk build { device with held := rest } chunk (endOf chunk.seq)).2.manifest =
      device.manifest := by
    cases made : sealChunk build { device with held := rest } chunk (endOf chunk.seq) with
    | mk result next =>
        rw [made] at refused
        cases result with
        | error failure => exact (sealChunk_refused made).1
        | ok done => exact absurd rfl refused
  unfold step
  rw [whole]
  exact ⟨done.held, kept, ((done.refused refused balanced.framed).2).trans out⟩

end Operations

theorem begin_sound : begin.Sound where
  settled := ⟨List.nodup_nil, fun _ member => (nomatch member), rfl⟩
  within := by decide
  apart := List.nodup_nil
  latest := fun _ member => (nomatch member)

theorem begin_balanced : begin.Balanced := ⟨rfl, rfl⟩

theorem exec_sound (build : ChunkPackage.Build) (operations : List Operation) :
    (exec (step build) begin operations).Sound :=
  exec_invariant Sound (fun _ operation sound => (step_served build sound operation).sound)
    begin_sound operations

theorem isSent_earlier {device next : Device} (more : ∀ seq ∈ device.sent, seq ∈ next.sent)
    {seq : Nat} (waiting : next.isSent seq = false) : device.isSent seq = false := by
  unfold isSent at waiting ⊢
  rw [Bool.eq_false_iff, Ne, List.contains_iff_mem] at waiting ⊢
  exact fun member => waiting (more seq member)

structure Carried (device next : Device) : Prop where
  sent : ∀ seq ∈ device.sent, seq ∈ next.sent
  kept : ∀ chunk ∈ device.kept, next.isSent chunk.seq = false → chunk ∈ next.kept

/-- A sealed chunk that was not recorded sent is kept through every run. -/
theorem exec_carried (build : ChunkPackage.Build) {device : Device} (sound : device.Sound)
    (operations : List Operation) : Carried device (exec (step build) device operations) := by
  refine exec_relation Sound ?_ ?_ ?_ ?_ sound operations
  · exact fun state => ⟨fun _ member => member, fun _ member _ => member⟩
  · rintro first second third before after
    refine ⟨fun seq member => after.sent seq (before.sent seq member), ?_⟩
    intro chunk member waiting
    exact after.kept chunk (before.kept chunk member (isSent_earlier after.sent waiting)) waiting
  · exact fun _ operation sound => (step_served build sound operation).sound
  · intro state operation sound
    have served := step_served build sound operation
    exact ⟨served.sent, fun chunk member waiting =>
      served.unsent chunk member (isSent_earlier served.sent waiting)⟩

theorem exec_balanced (build : ChunkPackage.Build) {operations : List Operation}
    (clean : Meets (step build) (Clean build) begin operations) :
    (exec (step build) begin operations).Balanced := by
  have both := exec_invariant_of_meets (fun device => device.Sound ∧ device.Balanced)
    (fun device operation clean ⟨sound, balanced⟩ =>
      ⟨(step_served build sound operation).sound,
        (step_served build sound operation).balanced clean balanced⟩)
    ⟨begin_sound, begin_balanced⟩ clean
  exact both.2

end Device

/-- The local storage of a capture: it stays within its bound, a sealed chunk that was not
recorded sent stays on disk, a refusal deletes no sealed chunk, and the counter is exact in every
run in which the held chunks that are sealed leave room for their packages. -/
theorem local_storage_bound (build : ChunkPackage.Build) (operations : List Operation) :
    let device := exec (Device.step build) Device.begin operations
    device.bytes ≤ maxBytes ∧
    device.files.rows = device.kept.map chunkFile ∧
    (∀ later, ∀ chunk ∈ device.kept,
      (exec (Device.step build) device later).isSent chunk.seq = false →
      chunk ∈ (exec (Device.step build) device later).kept) ∧
    (∀ operation unsent next,
      device.perform build operation = (.error (.storageLimit unsent), next) →
      next.manifest = device.manifest ∧ next.files = device.files) ∧
    (Meets (Device.step build) (Device.Clean build) Device.begin operations →
      device.bytes = device.accounted) := by
  have sound := Device.exec_sound build operations
  refine ⟨sound.within, sound.settled.onDisk,
    fun later => (Device.exec_carried build sound later).kept,
    fun _ _ _ refused => Device.perform_refused refused, fun clean => ?_⟩
  have counted := (Device.exec_balanced build clean).counted
  unfold Device.spare at counted
  exact Int.eq_of_sub_eq_zero counted

def examplePackage : ChunkPackage.Build := fun chunk _ _ => ⟨chunk.audio.length + 300, ""⟩

theorem local_storage_bound_held :
    (exec (Device.step examplePackage) Device.begin
        [.writeAudio [0, 0], .hold, .writeAudio [0, 0], .sealHeld, .markSent 0]).bytes =
      (exec (Device.step examplePackage) Device.begin
        [.writeAudio [0, 0], .hold, .writeAudio [0, 0], .sealHeld, .markSent 0]).accounted :=
  (local_storage_bound examplePackage
    [.writeAudio [0, 0], .hold, .writeAudio [0, 0], .sealHeld, .markSent 0]).2.2.2.2
    ⟨trivial, trivial, trivial, by
      rintro chunk first
      obtain rfl := Option.some.inj first
      decide, trivial, trivial⟩

/-- Where the counter is right, sealing a held chunk keeps it right if the media that may not be
deleted leaves room for the package. Otherwise the chunk is gone and its raw audio stays counted. -/
theorem held_seal_counted (build : ChunkPackage.Build) (operations : List Operation)
    (balanced : (exec (Device.step build) Device.begin operations).Balanced)
    {chunk : WorkingChunk} {rest : List WorkingChunk}
    (waiting : (exec (Device.step build) Device.begin operations).held = chunk :: rest) :
    let device := exec (Device.step build) Device.begin operations
    let next := device.step build .sealHeld
    (device.HeldFits build → next.bytes = next.accounted) ∧
      (¬device.HeldFits build →
        next.held = rest ∧ next.manifest = device.manifest ∧
        next.bytes = next.accounted + chunk.rawBytes) ∧
      (0 < chunk.rawBytes → (next.bytes = next.accounted ↔ device.HeldFits build)) := by
  intro device next
  obtain ⟨fits, short⟩ := Device.sealHeld_spare build (Device.exec_sound build operations) balanced
    waiting
  have counted (room : device.HeldFits build) : next.bytes = next.accounted := by
    have exact' := fits room
    unfold Device.spare at exact'
    exact Int.eq_of_sub_eq_zero exact'
  have lost (full : ¬device.HeldFits build) :
      next.held = rest ∧ next.manifest = device.manifest ∧
        next.bytes = next.accounted + chunk.rawBytes := by
    obtain ⟨held, manifest, spare⟩ := short full
    have extra : next.spare = chunk.rawBytes := spare
    refine ⟨held, manifest, ?_⟩
    unfold Device.spare at extra
    omega
  refine ⟨counted, lost, fun audio => ⟨fun right => ?_, counted⟩⟩
  by_contra full
  have off := (lost full).2.2
  rw [show next.bytes = next.accounted from right] at off
  omega

def largePackage : ChunkPackage.Build := fun _ _ _ => ⟨33554433, ""⟩

def heldRun (build : ChunkPackage.Build) : Device :=
  exec (Device.step build) Device.begin [.writeAudio [0, 0], .hold, .sealHeld]

theorem held_seal_counted_example :
    (heldRun examplePackage).bytes = (heldRun examplePackage).accounted ∧
      (heldRun largePackage).held = [] ∧ (heldRun largePackage).manifest = {} ∧
      (heldRun largePackage).bytes = (heldRun largePackage).accounted + 2 := by
  have short : ¬(exec (Device.step largePackage) Device.begin
      [.writeAudio [0, 0], .hold]).HeldFits largePackage := fun fits =>
    absurd (fits _ rfl) (by decide)
  constructor
  · refine (held_seal_counted examplePackage [.writeAudio [0, 0], .hold] ⟨rfl, by decide⟩ rfl).1 ?_
    rintro chunk first
    obtain rfl := Option.some.inj first
    decide
  · exact (held_seal_counted largePackage [.writeAudio [0, 0], .hold] ⟨rfl, by decide⟩ rfl).2.1
      short

end Ovrly.Captures.LocalStorage
