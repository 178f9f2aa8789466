import Ovrly.Captures.LocalStorage

/-!
What the local storage of a capture deletes to make room.

Images go first, then the chunks that were sent, oldest first; both are taken off the counter.
Room is refused only where the media that was not sent leaves none.
-/

namespace Relational.Table

variable {ρ κ : Type} [Keyed ρ κ] [DecidableEq κ]

theorem sum_delete (weight : ρ → Nat) {table : Table ρ} {key : κ} {row : ρ}
    (found : table.find? key = some row) :
    ((table.delete (Keyed.key · == key)).rows.map weight).sum + weight row =
      (table.rows.map weight).sum := by
  obtain ⟨rows, unique⟩ := table
  unfold find? at found
  unfold delete
  dsimp only at found ⊢
  induction rows with
  | nil => cases found
  | cons first rest ih =>
      rw [List.map_cons, List.nodup_cons] at unique
      rw [List.find?_cons] at found
      by_cases same : Keyed.key first = key
      · have mine : first = row := by simpa [same] using found
        have others : rest.filter (fun other => !(Keyed.key other == key)) = rest := by
          rw [List.filter_eq_self]
          intro other member
          have different : Keyed.key other ≠ key := fun equal =>
            unique.1 (List.mem_map.mpr ⟨other, member, equal.trans same.symm⟩)
          simpa using different
        rw [List.filter_cons_of_neg (by simp [same]), others, List.map_cons, List.sum_cons, mine]
        omega
      · have different : (Keyed.key first == key) = false := by simpa using same
        rw [different] at found
        have tail := ih unique.2 found
        rw [List.filter_cons_of_pos (by simp [same]), List.map_cons, List.map_cons, List.sum_cons,
          List.sum_cons]
        omega

theorem rows_delete_absent {table : Table ρ} {key : κ} (absent : table.find? key = none) :
    (table.delete (Keyed.key · == key)).rows = table.rows := by
  rw [find?_eq_none] at absent
  unfold delete
  dsimp only
  rw [List.filter_eq_self]
  intro other member
  simpa using absent other member

theorem keys_delete_head {table : Table ρ} {key : κ} {keys : List κ}
    (first : table.rows.map Keyed.key = key :: keys) :
    (table.delete (Keyed.key · == key)).rows.map Keyed.key = keys := by
  obtain ⟨rows, unique⟩ := table
  dsimp only at first
  unfold delete
  dsimp only
  cases rows with
  | nil => cases first
  | cons row rest =>
      rw [List.map_cons, List.cons.injEq] at first
      rw [List.map_cons, List.nodup_cons] at unique
      have others : rest.filter (fun other => !(Keyed.key other == key)) = rest := by
        rw [List.filter_eq_self]
        intro other member
        have different : Keyed.key other ≠ key := fun equal =>
          unique.1 (List.mem_map.mpr ⟨other, member, equal.trans first.1.symm⟩)
        simpa using different
      rw [List.filter_cons_of_neg (by simp [first.1]), others, first.2]

theorem rows_upsert_fresh {table : Table ρ} {row : ρ}
    (fresh : table.find? (Keyed.key row) = none) :
    (table.upsert row).rows = table.rows ++ [row] := by
  unfold upsert
  dsimp only
  rw [rows_delete_absent fresh]

end Relational.Table

namespace Ovrly.Captures.LocalStorage

open Relational ChunkGrid

section Select

open RollingEviction

def total (chunks : List Stored) : Nat := (chunks.map (·.sizeBytes)).sum

theorem evictFrom_take (incoming : Int) (chunks : List Stored) (bytes : Int) :
    ∃ count ≤ chunks.length,
      evictFrom incoming chunks bytes =
        (bytes - total (chunks.take count), (chunks.take count).map (·.seq)) ∧
      (count < chunks.length → fitsStorage (bytes - total (chunks.take count)) incoming = true) ∧
      ∀ fewer < count, fitsStorage (bytes - total (chunks.take fewer)) incoming = false := by
  induction chunks generalizing bytes with
  | nil => exact ⟨0, le_rfl, by simp [evictFrom, total], by simp, by simp⟩
  | cons chunk rest ih =>
      unfold evictFrom
      by_cases fits : fitsStorage bytes incoming = true
      · refine ⟨0, Nat.zero_le _, by simp [fits, total], fun _ => by simpa [total] using fits,
          by simp⟩
      · obtain ⟨count, bound, same, enough, needed⟩ := ih (bytes - chunk.sizeBytes)
        have shifted (more : Nat) : bytes - (total ((chunk :: rest).take (more + 1)) : Int) =
            bytes - chunk.sizeBytes - total (rest.take more) := by
          simp only [total, List.take_succ_cons, List.map_cons, List.sum_cons]
          push_cast
          omega
        refine ⟨count + 1, Nat.succ_le_succ bound, ?_, ?_, ?_⟩
        · rw [if_neg fits, same, shifted]
          rfl
        · intro less
          rw [shifted]
          exact enough (Nat.lt_of_succ_lt_succ less)
        · intro fewer less
          cases fewer with
          | zero => simpa [total] using fits
          | succ fewer =>
              rw [shifted]
              exact needed fewer (Nat.lt_of_succ_lt_succ less)

/-- `select` takes the shortest prefix of the sent chunks, oldest first, that makes room. -/
theorem select_some {stored : List Stored} {bytes incoming : Int} {seqs : List Nat} :
    select stored bytes incoming = some seqs ↔
      ∃ count ≤ (oldestSent stored).length,
        seqs = ((oldestSent stored).take count).map (·.seq) ∧
        fitsStorage (bytes - total ((oldestSent stored).take count)) incoming = true ∧
        ∀ fewer < count,
          fitsStorage (bytes - total ((oldestSent stored).take fewer)) incoming = false := by
  obtain ⟨count, bound, same, enough, needed⟩ :=
    evictFrom_take incoming (oldestSent stored) bytes
  unfold select
  rw [same]
  dsimp only
  constructor
  · intro chosen
    split at chosen
    · rename_i fits
      exact ⟨count, bound, (Option.some.inj chosen).symm, fits, needed⟩
    · cases chosen
  · rintro ⟨other, otherBound, rfl, fits, least⟩
    have equal : other = count := by
      rcases Nat.lt_trichotomy other count with less | equal | more
      · rw [needed other less] at fits
        cases fits
      · exact equal
      · have early := enough (by omega)
        rw [least count more] at early
        cases early
    subst equal
    rw [if_pos fits]

theorem select_none {stored : List Stored} {bytes incoming : Int} :
    select stored bytes incoming = none ↔
      ∀ count ≤ (oldestSent stored).length,
        fitsStorage (bytes - total ((oldestSent stored).take count)) incoming = false := by
  obtain ⟨count, bound, same, enough, needed⟩ :=
    evictFrom_take incoming (oldestSent stored) bytes
  unfold select
  rw [same]
  dsimp only
  constructor
  · intro refused other otherBound
    split at refused
    · cases refused
    · rename_i short
      rcases Nat.lt_or_ge other count with less | least
      · exact needed other less
      · rcases Nat.eq_or_lt_of_le least with equal | more
        · rw [← equal]
          exact Bool.eq_false_iff.mpr short
        · exact absurd (enough (by omega)) short
  · intro short
    rw [if_neg (by rw [short count bound]; exact Bool.false_ne_true)]

theorem fitsStorage_iff {current incoming : Int} :
    fitsStorage current incoming = true ↔
      0 ≤ current ∧ 0 ≤ incoming ∧ current ≤ maxBytes ∧ incoming ≤ maxBytes - current := by
  simp [fitsStorage, and_assoc]

theorem total_take_le (chunks : List Stored) (count : Nat) :
    total (chunks.take count) ≤ total chunks := by
  have split : total chunks = total (chunks.take count) + total (chunks.drop count) := by
    unfold total
    rw [← List.sum_append, ← List.map_append, List.take_append_drop]
  omega

/-- Where the counter covers the sent chunks, `select` gives up exactly when evicting all of
them is not enough. -/
theorem select_none_iff {stored : List Stored} {bytes incoming : Int}
    (covered : (total (oldestSent stored) : Int) ≤ bytes) :
    select stored bytes incoming = none ↔
      fitsStorage (bytes - total (oldestSent stored)) incoming = false := by
  rw [select_none]
  constructor
  · intro short
    have all := short (oldestSent stored).length le_rfl
    rwa [List.take_length] at all
  · intro short count _
    have part := total_take_le (oldestSent stored) count
    rw [Bool.eq_false_iff] at short ⊢
    intro fits
    apply short
    rw [fitsStorage_iff] at fits ⊢
    omega

theorem oldestSent_perm (stored : List Stored) :
    (oldestSent stored).Perm (stored.filter (·.sent)) :=
  List.mergeSort_perm _ _

theorem oldestSent_sorted (stored : List Stored) :
    (oldestSent stored).Pairwise fun first second => first.seq ≤ second.seq := by
  have sorted : (oldestSent stored).Pairwise fun first second =>
      decide (first.seq ≤ second.seq) = true := by
    unfold oldestSent
    apply List.pairwise_mergeSort
    · intro first second third lower upper
      simp only [decide_eq_true_eq] at lower upper ⊢
      exact Nat.le_trans lower upper
    · intro first second
      simpa using Nat.le_total first.seq second.seq
  exact sorted.imp fun ordered => by simpa using ordered

/-- `select` takes the shortest prefix, oldest first, of the sent chunks that makes room. It gives
up when no prefix does, which is when evicting all of them is not enough. -/
theorem select_shortest (stored : List Stored) (bytes incoming : Int) :
    (oldestSent stored).Perm (stored.filter (·.sent)) ∧
    ((oldestSent stored).Pairwise fun first second => first.seq ≤ second.seq) ∧
    (∀ seqs, select stored bytes incoming = some seqs ↔
      ∃ count ≤ (oldestSent stored).length,
        seqs = ((oldestSent stored).take count).map (·.seq) ∧
        fitsStorage (bytes - total ((oldestSent stored).take count)) incoming = true ∧
        ∀ fewer < count,
          fitsStorage (bytes - total ((oldestSent stored).take fewer)) incoming = false) ∧
    (select stored bytes incoming = none ↔
      ∀ count ≤ (oldestSent stored).length,
        fitsStorage (bytes - total ((oldestSent stored).take count)) incoming = false) ∧
    ((total (oldestSent stored) : Int) ≤ bytes →
      (select stored bytes incoming = none ↔
        fitsStorage (bytes - total (oldestSent stored)) incoming = false)) :=
  ⟨oldestSent_perm stored, oldestSent_sorted stored, fun _ => select_some, select_none,
    select_none_iff⟩

def exampleStored : List Stored := [⟨2, 9, true⟩, ⟨0, 7, true⟩, ⟨1, 4, false⟩]

theorem exampleStored_oldest : oldestSent exampleStored = [⟨0, 7, true⟩, ⟨2, 9, true⟩] := by
  simp [oldestSent, exampleStored, List.mergeSort, List.MergeSort.Internal.splitInTwo]

theorem select_shortest_single :
    select exampleStored maxBytes 6 = some [0] ∧ select exampleStored maxBytes 17 = none := by
  obtain ⟨-, -, chosen, -, -⟩ := select_shortest exampleStored maxBytes 6
  obtain ⟨-, -, -, -, refused⟩ := select_shortest exampleStored maxBytes 17
  rw [exampleStored_oldest] at chosen refused
  exact ⟨(chosen [0]).mpr ⟨1, by decide, by decide, by decide, by decide⟩,
    (refused (by decide)).mpr (by decide)⟩

theorem sum_filter_add {α : Type} (chosen : α → Bool) (weight : α → Nat) (elements : List α) :
    ((elements.filter chosen).map weight).sum +
      ((elements.filter fun element => !chosen element).map weight).sum =
      (elements.map weight).sum := by
  rw [← List.sum_append, ← List.map_append]
  exact ((List.filter_append_perm chosen elements).map weight).sum_eq

end Select

def chunkFile (chunk : SealedChunk) : ChunkFile := ⟨chunk.seq, chunk.sizeBytes⟩

def growth (build : ChunkPackage.Build) (chunk : WorkingChunk) (endMs : Nat) : Nat :=
  let read := chunk.frames.countP (·.status != .failed)
  if endMs ≤ startOf chunk.seq then 0
  else
    match ChunkPackage.modality chunk.audioBytes read with
    | none => 0
    | some modality => (build chunk.toOpenChunk endMs modality).sizeBytes - chunk.rawBytes

theorem WorkingChunk.addText_seq (chunk : WorkingChunk) (text : FrameText) :
    (chunk.addText text).seq = chunk.seq := by
  unfold addText
  split <;> rfl

theorem WorkingChunk.addText_rawBytes (chunk : WorkingChunk) (text : FrameText) :
    (chunk.addText text).rawBytes = chunk.rawBytes := by
  unfold addText
  split <;> rfl

def imageLengths (images : Table FrameImage) : Nat := (images.rows.map (·.length)).sum

def rawLengths (chunks : List WorkingChunk) : Nat := (chunks.map (·.rawBytes)).sum

@[simp] theorem rawLengths_nil : rawLengths [] = 0 := rfl

@[simp] theorem rawLengths_cons (chunk : WorkingChunk) (rest : List WorkingChunk) :
    rawLengths (chunk :: rest) = chunk.rawBytes + rawLengths rest := rfl

@[simp] theorem rawLengths_append (first second : List WorkingChunk) :
    rawLengths (first ++ second) = rawLengths first + rawLengths second := by
  unfold rawLengths
  rw [List.map_append, List.sum_append]

def keptLengths (manifest : Manifest) : Nat :=
  ((manifest.chunks.filter fun chunk => !manifest.evictedSeqs.contains chunk.seq).map
    (·.sizeBytes)).sum

def fileLengths (files : Table ChunkFile) : Nat := (files.rows.map (·.length)).sum

namespace Device

def imageBytes (device : Device) : Nat := imageLengths device.images

def rawBytes (device : Device) : Nat := rawLengths (device.held ++ device.current.toList)

def sealedBytes (device : Device) : Nat := keptLengths device.manifest

theorem sealedBytes_eq (device : Device) :
    device.sealedBytes = (device.kept.map (·.sizeBytes)).sum := rfl

def accounted (device : Device) : Nat :=
  device.imageBytes + device.rawBytes + device.sealedBytes

/-- What no eviction may delete. -/
def unsentBytes (device : Device) : Nat :=
  device.rawBytes +
    ((device.kept.filter fun chunk => !device.isSent chunk.seq).map (·.sizeBytes)).sum

/-- What the counter has beyond what is stored. -/
def spare (device : Device) : Int := device.bytes - device.accounted

def Framed (device : Device) : Prop :=
  device.images.rows.map (·.elapsedMs) = device.localFrames

/-- The chunks that were not evicted are on disk, and nothing else. -/
structure Settled (device : Device) : Prop where
  distinct : (device.manifest.chunks.map (·.seq)).Nodup
  evicted : ∀ seq ∈ device.manifest.evictedSeqs, seq ∈ device.manifest.chunks.map (·.seq)
  onDisk : device.files.rows = device.kept.map chunkFile

section Frames

theorem deleteFrame_cases (device : Device) (elapsedMs : Int) :
    ∃ images bytes,
      device.deleteFrame elapsedMs = { device with images := images, bytes := bytes } ∧
      bytes ≤ device.bytes ∧
      ∀ rest, device.images.rows.map (·.elapsedMs) = elapsedMs :: rest →
        images.rows.map (·.elapsedMs) = rest ∧
        bytes - (imageLengths images : Int) = device.bytes - device.imageBytes := by
  unfold deleteFrame
  cases found : device.images.find? elapsedMs with
  | none =>
      refine ⟨device.images, device.bytes, rfl, le_rfl, ?_⟩
      intro rest first
      have member : elapsedMs ∈ device.images.rows.map (·.elapsedMs) := by
        rw [first]
        exact List.mem_cons_self
      obtain ⟨image, kept, same⟩ := List.mem_map.mp member
      exact absurd same (Table.find?_eq_none.mp found image kept)
  | some image =>
      refine ⟨device.images.delete (·.elapsedMs == elapsedMs), device.bytes - image.length, rfl,
        by omega, ?_⟩
      intro rest first
      refine ⟨Table.keys_delete_head first, ?_⟩
      have weight : imageLengths (device.images.delete (·.elapsedMs == elapsedMs)) +
          image.length = imageLengths device.images :=
        Table.sum_delete FrameImage.length found
      unfold imageBytes
      omega

theorem dropFrames_cases (incoming : Int) (frames : List Int) (device : Device) :
    ∃ images bytes left,
      dropFrames incoming frames device =
        { device with images := images, bytes := bytes, localFrames := left } ∧
      bytes ≤ device.bytes ∧ left <:+ frames ∧
      (fitsStorage bytes incoming = true ∨ left = []) ∧
      (device.images.rows.map (·.elapsedMs) = frames →
        images.rows.map (·.elapsedMs) = left ∧
        bytes - (imageLengths images : Int) = device.bytes - device.imageBytes) := by
  induction frames generalizing device with
  | nil =>
      exact ⟨device.images, device.bytes, [], rfl, le_rfl, List.suffix_rfl, Or.inr rfl,
        fun same => ⟨same, rfl⟩⟩
  | cons elapsedMs rest ih =>
      unfold dropFrames
      by_cases fits : fitsStorage device.bytes incoming = true
      · rw [if_pos fits]
        exact ⟨device.images, device.bytes, elapsedMs :: rest, rfl, le_rfl, List.suffix_rfl,
          Or.inl fits, fun same => ⟨same, rfl⟩⟩
      · rw [if_neg fits]
        obtain ⟨fewer, lower, deleted, less, first⟩ := deleteFrame_cases device elapsedMs
        obtain ⟨images, bytes, left, dropped, below, end_, stopped, agree⟩ :=
          ih (device.deleteFrame elapsedMs)
        rw [deleted] at dropped below agree ⊢
        refine ⟨images, bytes, left, dropped, below.trans less, end_.trans (List.suffix_cons _ _),
          stopped, ?_⟩
        intro same
        obtain ⟨others, weight⟩ := first rest same
        obtain ⟨last, balance⟩ := agree others
        refine ⟨last, balance.trans ?_⟩
        exact weight

end Frames

section Evict

theorem foldl_deleteChunk (seqs : List Nat) (device : Device) :
    ∃ files bytes,
      seqs.foldl deleteChunk device = { device with files := files, bytes := bytes } ∧
      files.rows = device.files.rows.filter (fun file => !seqs.contains file.seq) ∧
      bytes - (fileLengths files : Int) = device.bytes - fileLengths device.files := by
  induction seqs generalizing device with
  | nil => exact ⟨device.files, device.bytes, rfl, by simp, rfl⟩
  | cons seq rest ih =>
      obtain ⟨files, bytes, deleted, rows, balance⟩ := ih (device.deleteChunk seq)
      refine ⟨files, bytes, by rw [List.foldl_cons, deleted]; rfl, ?_, ?_⟩
      · rw [rows]
        unfold deleteChunk Table.delete
        dsimp only
        rw [List.filter_filter]
        apply List.filter_congr
        intro file _
        simp only [List.contains_cons, Bool.not_or, Bool.and_comm]
      · rw [balance]
        unfold deleteChunk
        dsimp only
        cases found : device.files.find? seq with
        | none =>
            have same : fileLengths (device.files.delete (·.seq == seq)) =
                fileLengths device.files :=
              congrArg (fun rows : List ChunkFile => (rows.map ChunkFile.length).sum)
                (Table.rows_delete_absent found)
            rw [same]
            simp
        | some file =>
            have weight : fileLengths (device.files.delete (·.seq == seq)) + file.length =
                fileLengths device.files :=
              Table.sum_delete ChunkFile.length found
            simp only [Option.map_some, Option.getD_some]
            omega

theorem Settled.fileLengths_eq {device : Device} (settled : device.Settled) :
    fileLengths device.files = device.sealedBytes := by
  unfold fileLengths
  rw [settled.onDisk, List.map_map]
  rfl

theorem evict_cases {device : Device} (settled : device.Settled) {seqs : List Nat}
    (known : ∀ seq ∈ seqs, seq ∈ device.manifest.chunks.map (·.seq)) :
    ∃ files bytes saved,
      device.evict seqs =
        { device with
          files := files
          bytes := bytes
          saved := saved
          manifest := { device.manifest with
            evictedSeqs := device.manifest.evictedSeqs ++ seqs } } ∧
      (device.evict seqs).Settled ∧
      (device.evict seqs).kept = device.kept.filter (fun chunk => !seqs.contains chunk.seq) ∧
      bytes - ((device.evict seqs).sealedBytes : Int) = device.bytes - device.sealedBytes := by
  obtain ⟨files, bytes, deleted, rows, balance⟩ := foldl_deleteChunk seqs device
  have result : device.evict seqs =
      { device with
        files := files
        bytes := bytes
        saved := { device.manifest with evictedSeqs := device.manifest.evictedSeqs ++ seqs }
        manifest := { device.manifest with
          evictedSeqs := device.manifest.evictedSeqs ++ seqs } } := by
    unfold evict save
    rw [deleted]
  have left : (device.evict seqs).kept =
      device.kept.filter (fun chunk => !seqs.contains chunk.seq) := by
    rw [result]
    unfold kept
    dsimp only
    rw [List.filter_filter]
    apply List.filter_congr
    intro chunk _
    simp only [List.contains_eq_any_beq, List.any_append, Bool.not_or, Bool.and_comm]
  have remaining : files.rows = (device.evict seqs).kept.map chunkFile := by
    rw [rows, settled.onDisk, left, List.filter_map]
    rfl
  have next : (device.evict seqs).Settled := by
    refine ⟨?_, ?_, ?_⟩
    · rw [result]
      exact settled.distinct
    · rw [result]
      intro seq member
      rcases List.mem_append.mp member with before | chosen
      · exact settled.evicted seq before
      · exact known seq chosen
    · rw [remaining.symm, result]
  refine ⟨files, bytes, _, result, next, left, ?_⟩
  have sizes : fileLengths files = (device.evict seqs).sealedBytes := by
    have onDisk := next.fileLengths_eq
    rw [result] at onDisk ⊢
    exact onDisk
  rw [← sizes, ← settled.fileLengths_eq]
  exact balance

end Evict

section Room

theorem chosen_perm {stored chosen : List RollingEviction.Stored}
    (distinct : (stored.map (·.seq)).Nodup) (part : chosen.Subperm stored) :
    (stored.filter fun chunk => (chosen.map (·.seq)).contains chunk.seq).Perm chosen := by
  have single : chosen.Nodup := by
    obtain ⟨same, ordered, sub⟩ := part
    exact ordered.nodup (List.Nodup.sublist sub (List.Nodup.of_map _ distinct))
  rw [List.perm_ext_iff_of_nodup ((List.Nodup.of_map _ distinct).filter _) single]
  intro chunk
  rw [List.mem_filter, List.contains_iff_mem]
  constructor
  · rintro ⟨member, named⟩
    obtain ⟨other, picked, same⟩ := List.mem_map.mp named
    have equal : other = chunk :=
      List.inj_on_of_nodup_map distinct (part.subset picked) member same
    exact equal ▸ picked
  · intro picked
    exact ⟨part.subset picked, List.mem_map_of_mem picked⟩

theorem Settled.kept_distinct {device : Device} (settled : device.Settled) :
    (device.kept.map (·.seq)).Nodup :=
  List.Nodup.sublist (List.filter_sublist.map _) settled.distinct

theorem Settled.stored_distinct {device : Device} (settled : device.Settled) :
    (device.stored.map (·.seq)).Nodup := by
  unfold stored
  rw [List.map_map]
  exact settled.kept_distinct

theorem chosen_weight {device : Device} (settled : device.Settled)
    {chosen : List RollingEviction.Stored} (part : chosen.Subperm device.stored) :
    ((device.kept.filter fun chunk => (chosen.map (·.seq)).contains chunk.seq).map
      (·.sizeBytes)).sum = total chosen := by
  have same := ((chosen_perm settled.stored_distinct part).map (·.sizeBytes)).sum_eq
  unfold stored at same
  rw [List.filter_map, List.map_map] at same
  exact same

/-- Room was made: only images and sent chunks went, and the counter follows them. -/
structure Cleared (device next : Device) : Prop where
  held : next.held = device.held
  current : next.current = device.current
  sent : next.sent = device.sent
  chunks : next.manifest.chunks = device.manifest.chunks
  settled : next.Settled
  unsent : ∀ chunk ∈ device.kept, device.isSent chunk.seq = false → chunk ∈ next.kept
  lower : next.bytes ≤ device.bytes
  counted : device.Framed →
    next.Framed ∧ next.localFrames <:+ device.localFrames ∧ next.spare = device.spare

theorem Cleared.trans {first second third : Device} (before : Cleared first second)
    (after : Cleared second third) : Cleared first third where
  held := after.held.trans before.held
  current := after.current.trans before.current
  sent := after.sent.trans before.sent
  chunks := after.chunks.trans before.chunks
  settled := after.settled
  unsent chunk member waiting := by
    apply after.unsent chunk (before.unsent chunk member waiting)
    unfold isSent
    rw [before.sent]
    exact waiting
  lower := after.lower.trans before.lower
  counted framed := by
    obtain ⟨middle, shorter, same⟩ := before.counted framed
    obtain ⟨last, shortest, equal⟩ := after.counted middle
    exact ⟨last, shortest.trans shorter, equal.trans same⟩

theorem dropFrames_cleared {device : Device} (settled : device.Settled) (incoming : Int) :
    Cleared device (dropFrames incoming device.localFrames device) := by
  obtain ⟨images, bytes, left, dropped, lower, shorter, -, agree⟩ :=
    dropFrames_cases incoming device.localFrames device
  rw [dropped]
  refine ⟨rfl, rfl, rfl, rfl, ⟨settled.distinct, settled.evicted, settled.onDisk⟩,
    fun chunk member _ => member, lower, ?_⟩
  intro framed
  obtain ⟨times, balance⟩ := agree framed
  refine ⟨times, shorter, ?_⟩
  have rest : ({ device with images := images, bytes := bytes, localFrames := left } :
      Device).accounted = imageLengths images + device.rawBytes + device.sealedBytes := rfl
  unfold spare
  rw [rest]
  unfold accounted
  push_cast
  omega

theorem evict_cleared {device : Device} (settled : device.Settled)
    {chosen : List RollingEviction.Stored} (part : chosen.Subperm device.stored)
    (sent : ∀ chunk ∈ chosen, chunk.sent = true) :
    Cleared device (device.evict (chosen.map (·.seq))) ∧
      (device.evict (chosen.map (·.seq))).bytes = device.bytes - total chosen := by
  have known : ∀ seq ∈ chosen.map (·.seq), seq ∈ device.manifest.chunks.map (·.seq) := by
    intro seq member
    obtain ⟨chunk, picked, rfl⟩ := List.mem_map.mp member
    obtain ⟨entry, kept, rfl⟩ := List.mem_map.mp (part.subset picked)
    exact List.mem_map_of_mem (List.mem_of_mem_filter kept)
  obtain ⟨files, bytes, saved, result, next, left, balance⟩ := evict_cases settled known
  have weight : device.sealedBytes =
      total chosen + (device.evict (chosen.map (·.seq))).sealedBytes := by
    have sum := sum_filter_add (fun chunk : SealedChunk => (chosen.map (·.seq)).contains chunk.seq)
      (·.sizeBytes) device.kept
    rw [chosen_weight settled part, ← left] at sum
    exact sum.symm
  have fewer : bytes = device.bytes - total chosen := by omega
  have counted : (device.evict (chosen.map (·.seq))).bytes = bytes := by rw [result]
  refine ⟨⟨by rw [result], by rw [result], by rw [result], by rw [result], next, ?_, ?_, ?_⟩,
    counted.trans fewer⟩
  · intro chunk member waiting
    rw [left, List.mem_filter]
    refine ⟨member, ?_⟩
    rw [Bool.not_eq_true', Bool.eq_false_iff]
    intro named
    obtain ⟨other, picked, same⟩ := List.mem_map.mp (List.contains_iff_mem.mp named)
    have delivered := sent other picked
    obtain ⟨entry, kept, rfl⟩ := List.mem_map.mp (part.subset picked)
    dsimp only at same delivered
    rw [same, waiting] at delivered
    cases delivered
  · omega
  · intro framed
    have times : (device.evict (chosen.map (·.seq))).Framed := by
      rw [result]
      exact framed
    have shorter : (device.evict (chosen.map (·.seq))).localFrames = device.localFrames := by
      rw [result]
    have images : (device.evict (chosen.map (·.seq))).imageBytes = device.imageBytes := by
      rw [result]
      rfl
    have raw : (device.evict (chosen.map (·.seq))).rawBytes = device.rawBytes := by
      rw [result]
      rfl
    refine ⟨times, shorter ▸ List.suffix_rfl, ?_⟩
    unfold spare accounted
    rw [images, raw, counted]
    push_cast
    omega

/-- The chunks `select` may choose are those that were sent. -/
theorem oldestSent_subperm (stored : List RollingEviction.Stored) (count : Nat) :
    ((RollingEviction.oldestSent stored).take count).Subperm stored :=
  (List.take_sublist _ _).subperm.trans
    ((oldestSent_perm stored).subperm.trans List.filter_sublist.subperm)

theorem oldestSent_sent {stored : List RollingEviction.Stored} {count : Nat}
    {chunk : RollingEviction.Stored}
    (member : chunk ∈ (RollingEviction.oldestSent stored).take count) : chunk.sent = true := by
  have among := (oldestSent_perm stored).subset (List.mem_of_mem_take member)
  exact (List.mem_filter.mp among).2

/-- Whether or not there is room in the end, only images and sent chunks go. -/
theorem ensureRoom_cleared {device : Device} (settled : device.Settled) (incoming : Int) :
    Cleared device (device.ensureRoom incoming).2 := by
  have dropped := dropFrames_cleared settled incoming
  unfold ensureRoom
  dsimp only
  split
  · exact dropped
  · split
    · exact dropped
    · rename_i seqs chosen
      obtain ⟨count, -, rfl, -, -⟩ := select_some.mp chosen
      exact dropped.trans (evict_cleared dropped.settled (oldestSent_subperm _ count)
        fun chunk => oldestSent_sent).1

theorem ensureRoom_fits {device next : Device} (settled : device.Settled) {incoming : Int}
    (made : device.ensureRoom incoming = (.ok (), next)) :
    fitsStorage next.bytes incoming = true := by
  have dropped := dropFrames_cleared settled incoming
  unfold ensureRoom at made
  dsimp only at made
  split at made
  · rename_i fits
    rw [← (Prod.mk.inj made).2]
    exact fits
  · split at made
    · cases (Prod.mk.inj made).1
    · rename_i seqs chosen
      obtain ⟨count, -, rfl, fits, -⟩ := select_some.mp chosen
      rw [← (Prod.mk.inj made).2, (evict_cleared dropped.settled (oldestSent_subperm _ count)
        fun chunk => oldestSent_sent).2]
      exact fits

/-- A refusal is the storage limit, and leaves the manifest and the sealed chunks as they
are. -/
theorem ensureRoom_refused {device next : Device} {incoming : Int} {failure : Failure}
    (refused : device.ensureRoom incoming = (.error failure, next)) :
    next.manifest = device.manifest ∧ next.files = device.files := by
  obtain ⟨images, bytes, left, dropped, -, -, -, -⟩ :=
    dropFrames_cases incoming device.localFrames device
  unfold ensureRoom at refused
  rw [dropped] at refused
  dsimp only at refused
  split at refused
  · cases (Prod.mk.inj refused).1
  · split at refused
    · rw [← (Prod.mk.inj refused).2]
      exact ⟨rfl, rfl⟩
    · cases (Prod.mk.inj refused).1

theorem sealedBytes_split (device : Device) :
    device.sealedBytes + device.rawBytes =
      total (RollingEviction.oldestSent device.stored) + device.unsentBytes := by
  have delivered : total (RollingEviction.oldestSent device.stored) =
      ((device.kept.filter fun chunk => device.isSent chunk.seq).map (·.sizeBytes)).sum := by
    have same := ((oldestSent_perm device.stored).map (·.sizeBytes)).sum_eq
    unfold stored at same
    rw [List.filter_map, List.map_map] at same
    exact same
  have sum := sum_filter_add (fun chunk : SealedChunk => device.isSent chunk.seq) (·.sizeBytes)
    device.kept
  rw [sealedBytes_eq]
  unfold unsentBytes
  omega

/-- Room is refused only where the media that no eviction may delete leaves none. -/
theorem ensureRoom_short {device next : Device} {incoming : Int} {failure : Failure}
    (settled : device.Settled) (framed : device.Framed)
    (covered : 0 ≤ device.spare) (nonnegative : 0 ≤ incoming)
    (refused : device.ensureRoom incoming = (.error failure, next)) :
    maxBytes < device.spare + device.unsentBytes + incoming := by
  have cleared := dropFrames_cleared settled incoming
  obtain ⟨times, -, same⟩ := cleared.counted framed
  obtain ⟨images, bytes, left, dropped, lower, -, stopped, -⟩ :=
    dropFrames_cases incoming device.localFrames device
  unfold ensureRoom at refused
  dsimp only at refused
  split at refused
  · cases (Prod.mk.inj refused).1
  · rename_i full
    split at refused
    · rename_i none_
      have empty : left = [] := by
        rcases stopped with fits | empty
        · rw [dropped] at full
          exact absurd fits full
        · exact empty
      have all := select_none.mp none_ _ le_rfl
      rw [List.take_length] at all
      have images : imageLengths (dropFrames incoming device.localFrames device).images = 0 := by
        rw [dropped] at times ⊢
        have rows := List.map_eq_nil_iff.mp (times.trans empty)
        unfold imageLengths
        rw [rows]
        rfl
      have unsent : (dropFrames incoming device.localFrames device).unsentBytes =
          device.unsentBytes := by
        rw [dropped]
        rfl
      have split := sealedBytes_split (dropFrames incoming device.localFrames device)
      have below := cleared.lower
      unfold spare accounted imageBytes at same
      unfold spare accounted imageBytes at covered ⊢
      rw [Bool.eq_false_iff, Ne, fitsStorage_iff] at all
      omega
    · cases (Prod.mk.inj refused).1

end Room

end Device

end Ovrly.Captures.LocalStorage
