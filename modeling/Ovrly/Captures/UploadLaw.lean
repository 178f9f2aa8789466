import Ovrly.Captures.Uploader
import Ovrly.Runs

/-!
What the uploads of one capture keep over every interleaving of the recorder, the owner's choice,
the server's answers and runs that are cut off anywhere.
-/

namespace Ovrly.Captures.Uploader

open Runs Ovrly.Reports

namespace Device

def AllSent (device : Device) : Prop :=
  ∀ chunk ∈ device.manifest.chunks, chunk.seq ∈ device.ledger.sent

def InTurn (device : Device) (chunk : SealedChunk) : Prop :=
  ∃ earlier later, device.manifest.chunks = earlier ++ chunk :: later ∧
    ∀ before ∈ earlier, before.seq ∈ device.ledger.sent

/-- A manifest that was read earlier: chunks were only added since, and none to a finished one. -/
structure Read (device : Device) (manifest : LocalManifest) : Prop where
  chunks : manifest.chunks <+: device.manifest.chunks
  frozen : manifest.finished = true → device.manifest = manifest

structure Live (device : Device) : Prop where
  unclosed : device.ledger.closed = none
  unfailed : device.ledger.failure = none

structure Knows (device : Device) (run : Run) : Prop extends Live device where
  read : Read device run.manifest
  choice : ∀ choice, run.choice = some choice → device.ledger.choice = some choice

structure Closable (device : Device) (manifest : LocalManifest) (continueResearch : Bool) : Prop
    extends Live device where
  read : Read device manifest
  finished : manifest.finished = true
  chosen : device.ledger.choice = some continueResearch
  complete : continueResearch = true → device.AllSent

def Placed (device : Device) : Position → Prop
  | .idle => True
  | .begun manifest => device.Live ∧ device.Read manifest
  | .opening run => device.Knows run
  | .opened run _ => device.Knows run
  | .sending run _ rest => device.Knows run ∧ rest = device.unsent run.manifest
  | .reading run _ chunk rest => device.Knows run ∧ chunk :: rest = device.unsent run.manifest
  | .putting run _ chunk rest => device.Knows run ∧ chunk :: rest = device.unsent run.manifest
  | .stored run _ chunk rest =>
      device.Knows run ∧ chunk :: rest = device.unsent run.manifest ∧
        chunk.seq ∈ device.acknowledged
  | .closing manifest continueResearch => device.Closable manifest continueResearch
  | .awaiting manifest continueResearch => device.Closable manifest continueResearch
  | .answered manifest continueResearch => device.Closable manifest continueResearch
  | .failing _ => device.Live

/-- The law of the uploads of one capture. -/
structure Lawful (device : Device) : Prop where
  distinct : (device.manifest.chunks.map (·.seq)).Nodup
  onDisk : ∀ chunk ∈ device.manifest.chunks, chunk.seq ∉ device.ledger.sent →
    chunk.seq ∈ device.files
  delivered : ∀ seq ∈ device.ledger.sent, seq ∈ device.acknowledged
  inTurn : ∀ remote chunk, .putChunk remote chunk ∈ device.requests → device.InTurn chunk
  closes : ∀ remote continueResearch durationMs,
    .close remote continueResearch durationMs ∈ device.requests →
    device.ledger.choice = some continueResearch ∧ device.manifest.finished = true ∧
      device.manifest.durationMs = durationMs ∧ (continueResearch = true → device.AllSent)
  closed : ∀ continueResearch, device.ledger.closed = some continueResearch →
    device.ledger.choice = some continueResearch ∧ device.manifest.finished = true ∧
      (continueResearch = true → device.AllSent)
  placed : device.Placed device.position

theorem begin_lawful (sessionId : Uuid) : (begin sessionId).Lawful where
  distinct := List.nodup_nil
  onDisk _ member := (nomatch member)
  delivered _ member := (nomatch member)
  inTurn _ _ member := (nomatch member)
  closes _ _ _ member := (nomatch member)
  closed _ recorded := (nomatch recorded)
  placed := trivial

section Moves

variable {device next : Device}

theorem Read.self (device : Device) : Read device device.manifest := ⟨List.prefix_rfl, fun _ => rfl⟩

theorem mem_unsent {manifest : LocalManifest} {chunk : SealedChunk} :
    chunk ∈ device.unsent manifest ↔
      chunk ∈ manifest.chunks ∧ chunk.seq ∉ device.ledger.sent := by
  unfold unsent CaptureLedger.isSent
  rw [List.mem_filter, Bool.not_eq_true', Bool.eq_false_iff, Ne, List.contains_iff_mem]

theorem Read.allSent {manifest : LocalManifest} (read : Read device manifest)
    (finished : manifest.finished = true) (done : [] = device.unsent manifest) :
    device.AllSent := by
  intro chunk member
  rw [read.frozen finished] at member
  by_contra waiting
  have left := mem_unsent.mpr ⟨member, waiting⟩
  rw [← done] at left
  cases left

theorem Read.inTurn {manifest : LocalManifest} (read : Read device manifest) {chunk : SealedChunk}
    {rest : List SealedChunk} (first : chunk :: rest = device.unsent manifest) :
    device.InTurn chunk := by
  obtain ⟨more, whole⟩ := read.chunks
  obtain ⟨earlier, later, split, sent, -⟩ := List.filter_eq_cons_iff.mp first.symm
  refine ⟨earlier, later ++ more, by rw [← whole, split, List.append_assoc]; rfl, ?_⟩
  intro before member
  have kept := sent before member
  rwa [Bool.not_eq_true', Bool.not_eq_false, CaptureLedger.isSent, List.contains_iff_mem] at kept

/-- What may happen to a capture next to a run: it grows until it is finished. -/
structure Follows (device next : Device) : Prop where
  chunks : device.manifest.chunks <+: next.manifest.chunks
  frozen : device.manifest.finished = true → next.manifest = device.manifest
  choice : ∀ choice, device.ledger.choice = some choice → next.ledger.choice = some choice
  sent : ∀ seq ∈ device.ledger.sent, seq ∈ next.ledger.sent
  acknowledged : ∀ seq ∈ device.acknowledged, seq ∈ next.acknowledged

structure Steady (device next : Device) : Prop extends Follows device next where
  closed : next.ledger.closed = device.ledger.closed
  failure : next.ledger.failure = device.ledger.failure

theorem Live.mono (steady : Steady device next) (live : device.Live) : next.Live :=
  ⟨steady.closed.trans live.unclosed, steady.failure.trans live.unfailed⟩

theorem Read.mono {manifest : LocalManifest} (follows : Follows device next)
    (read : Read device manifest) : Read next manifest where
  chunks := read.chunks.trans follows.chunks
  frozen finished := by
    have same := read.frozen finished
    rw [follows.frozen (same ▸ finished), same]

theorem Knows.mono {run : Run} (steady : Steady device next) (knows : device.Knows run) :
    next.Knows run where
  toLive := knows.toLive.mono steady
  read := knows.read.mono steady.toFollows
  choice choice picked := steady.choice choice (knows.choice choice picked)

theorem AllSent.mono (follows : Follows device next) (finished : device.manifest.finished = true)
    (sent : device.AllSent) : next.AllSent := by
  intro chunk member
  rw [follows.frozen finished] at member
  exact follows.sent _ (sent chunk member)

theorem InTurn.mono {chunk : SealedChunk} (follows : Follows device next)
    (turn : device.InTurn chunk) : next.InTurn chunk := by
  obtain ⟨earlier, later, split, sent⟩ := turn
  obtain ⟨more, whole⟩ := follows.chunks
  refine ⟨earlier, later ++ more, by rw [← whole, split, List.append_assoc]; rfl, ?_⟩
  exact fun before member => follows.sent _ (sent before member)

theorem Closable.mono {manifest : LocalManifest} {continueResearch : Bool}
    (steady : Steady device next) (closable : device.Closable manifest continueResearch) :
    next.Closable manifest continueResearch where
  toLive := closable.toLive.mono steady
  read := closable.read.mono steady.toFollows
  finished := closable.finished
  chosen := steady.choice _ closable.chosen
  complete continues :=
    (closable.complete continues).mono steady.toFollows
      (closable.read.frozen closable.finished ▸ closable.finished)

theorem unsent_congr (sent : next.ledger.sent = device.ledger.sent) (manifest : LocalManifest) :
    next.unsent manifest = device.unsent manifest := by
  unfold unsent CaptureLedger.isSent
  rw [sent]

theorem Placed.mono {position : Position} (steady : Steady device next)
    (sent : next.ledger.sent = device.ledger.sent) (placed : device.Placed position) :
    next.Placed position := by
  cases position with
  | idle => trivial
  | begun manifest => exact ⟨placed.1.mono steady, placed.2.mono steady.toFollows⟩
  | opening run => exact Knows.mono steady placed
  | opened run remote => exact Knows.mono steady placed
  | sending run remote rest =>
      exact ⟨placed.1.mono steady, placed.2.trans (unsent_congr sent _).symm⟩
  | reading run remote chunk rest =>
      exact ⟨placed.1.mono steady, placed.2.trans (unsent_congr sent _).symm⟩
  | putting run remote chunk rest =>
      exact ⟨placed.1.mono steady, placed.2.trans (unsent_congr sent _).symm⟩
  | stored run remote chunk rest =>
      exact ⟨placed.1.mono steady, placed.2.1.trans (unsent_congr sent _).symm,
        steady.acknowledged _ placed.2.2⟩
  | closing manifest continueResearch => exact Closable.mono steady placed
  | awaiting manifest continueResearch => exact Closable.mono steady placed
  | answered manifest continueResearch => exact Closable.mono steady placed
  | failing code => exact Live.mono steady placed

theorem Lawful.moved (lawful : device.Lawful) (steady : Steady device next)
    (sent : next.ledger.sent = device.ledger.sent) (requests : next.requests = device.requests)
    (distinct : (next.manifest.chunks.map (·.seq)).Nodup)
    (onDisk : ∀ chunk ∈ next.manifest.chunks, chunk.seq ∉ device.ledger.sent →
      chunk.seq ∈ next.files)
    (placed : next.Placed next.position) : next.Lawful where
  distinct := distinct
  onDisk := by
    rw [sent]
    exact onDisk
  delivered seq member := by
    rw [sent] at member
    exact steady.acknowledged _ (lawful.delivered seq member)
  inTurn remote chunk member := by
    rw [requests] at member
    exact (lawful.inTurn remote chunk member).mono steady.toFollows
  closes remote continueResearch durationMs member := by
    rw [requests] at member
    obtain ⟨chosen, finished, duration, complete⟩ :=
      lawful.closes remote continueResearch durationMs member
    have same := steady.frozen finished
    exact ⟨steady.choice _ chosen, same ▸ finished, same ▸ duration,
      fun continues => (complete continues).mono steady.toFollows finished⟩
  closed continueResearch recorded := by
    rw [steady.closed] at recorded
    obtain ⟨chosen, finished, complete⟩ := lawful.closed continueResearch recorded
    exact ⟨steady.choice _ chosen, steady.frozen finished ▸ finished,
      fun continues => (complete continues).mono steady.toFollows finished⟩
  placed := placed

theorem steady_of_eq (manifest : next.manifest = device.manifest)
    (ledger : next.ledger = device.ledger)
    (acknowledged : ∀ seq ∈ device.acknowledged, seq ∈ next.acknowledged) :
    Steady device next where
  chunks := manifest ▸ List.prefix_rfl
  frozen _ := manifest
  closed := by rw [ledger]
  failure := by rw [ledger]
  choice _ picked := by
    rw [ledger]
    exact picked
  sent _ member := by
    rw [ledger]
    exact member
  acknowledged := acknowledged

theorem Lawful.goto (lawful : device.Lawful) {position : Position}
    (placed : device.Placed position) : (device.goto position).Lawful := by
  have steady : Steady device (device.goto position) :=
    steady_of_eq rfl rfl fun _ member => member
  exact lawful.moved steady rfl rfl lawful.distinct lawful.onDisk
    (placed.mono steady rfl)

theorem Lawful.request (lawful : device.Lawful) {request : Request} {position : Position}
    (turn : ∀ remote chunk, request = .putChunk remote chunk → device.InTurn chunk)
    (close : ∀ remote continueResearch durationMs,
      request = .close remote continueResearch durationMs →
      device.ledger.choice = some continueResearch ∧ device.manifest.finished = true ∧
        device.manifest.durationMs = durationMs ∧ (continueResearch = true → device.AllSent))
    (placed : device.Placed position) : (device.request request position).Lawful where
  distinct := lawful.distinct
  onDisk := lawful.onDisk
  delivered := lawful.delivered
  inTurn remote chunk member := by
    rcases List.mem_append.mp member with before | this
    · exact lawful.inTurn remote chunk before
    · exact turn remote chunk (List.mem_singleton.mp this).symm
  closes remote continueResearch durationMs member := by
    rcases List.mem_append.mp member with before | this
    · exact lawful.closes remote continueResearch durationMs before
    · exact close remote continueResearch durationMs (List.mem_singleton.mp this).symm
  closed := lawful.closed
  placed := by
    have steady : Steady device (device.request request position) :=
      steady_of_eq rfl rfl fun _ member => member
    exact placed.mono steady rfl

end Moves

section Steps

variable {device : Device}

theorem conclude_lawful (lawful : device.Lawful) {run : Run} (knows : device.Knows run)
    {stopped : Bool} (chosen : stopped = true → device.ledger.choice = some false)
    (done : stopped = false → run.manifest.finished = true → device.AllSent) :
    (device.conclude run stopped).Lawful := by
  unfold conclude
  cases stopped with
  | true =>
      rw [if_pos rfl]
      split
      · rename_i finished
        exact lawful.goto ⟨knows.toLive, knows.read, finished, chosen rfl, nofun⟩
      · exact lawful.goto trivial
  | false =>
      rw [if_neg Bool.false_ne_true]
      split
      · rename_i both
        rw [Bool.and_eq_true, beq_iff_eq] at both
        exact lawful.goto ⟨knows.toLive, knows.read, both.1, knows.choice true both.2,
          fun _ => done rfl both.1⟩
      · exact lawful.goto trivial

theorem upload_lawful (lawful : device.Lawful) {manifest : LocalManifest}
    (placed : device.Placed (.begun manifest)) : (device.upload manifest).Lawful := by
  obtain ⟨live, read⟩ := placed
  have knows : device.Knows ⟨manifest, device.ledger.choice⟩ := ⟨live, read, fun _ picked => picked⟩
  unfold upload
  dsimp only
  split
  · rename_i stop
    have chosen : device.ledger.choice = some false := eq_of_beq stop
    split
    · rename_i finished
      exact lawful.goto ⟨live, read, finished, chosen, nofun⟩
    · exact lawful.goto trivial
  · split
    · exact lawful.goto ⟨knows, rfl⟩
    · split
      · rename_i empty
        refine conclude_lawful lawful knows nofun fun _ finished => ?_
        apply read.allSent finished
        unfold unsent
        rw [List.isEmpty_iff.mp empty]
        rfl
      · exact lawful.request nofun nofun knows

theorem stored_lawful (lawful : device.Lawful) {run : Run} {remote : String} {chunk : SealedChunk}
    {rest : List SealedChunk} (knows : device.Knows run)
    (first : chunk :: rest = device.unsent run.manifest)
    (acknowledged : chunk.seq ∈ device.acknowledged) :
    Lawful { device with
      ledger := device.ledger.markSent chunk.seq
      position := .sending run remote rest } := by
  have steady : Steady device { device with
      ledger := device.ledger.markSent chunk.seq
      position := .sending run remote rest } :=
    ⟨⟨List.prefix_rfl, fun _ => rfl, fun _ picked => picked,
      fun _ member => List.mem_append_left _ member, fun _ member => member⟩, rfl, rfl⟩
  refine ⟨lawful.distinct, ?_, ?_, ?_, ?_, ?_, knows.mono steady, ?_⟩
  · intro other member waiting
    exact lawful.onDisk other member fun sent => waiting (List.mem_append_left _ sent)
  · intro seq member
    rcases List.mem_append.mp member with before | this
    · exact lawful.delivered seq before
    · exact List.mem_singleton.mp this ▸ acknowledged
  · intro remote other member
    exact (lawful.inTurn remote other member).mono steady.toFollows
  · intro remote continueResearch durationMs member
    obtain ⟨chosen, finished, duration, complete⟩ :=
      lawful.closes remote continueResearch durationMs member
    exact ⟨chosen, finished, duration,
      fun continues => (complete continues).mono steady.toFollows finished⟩
  · intro continueResearch recorded
    obtain ⟨chosen, finished, complete⟩ := lawful.closed continueResearch recorded
    exact ⟨chosen, finished, fun continues => (complete continues).mono steady.toFollows finished⟩
  · have distinct : ((chunk :: rest).map (·.seq)).Nodup := by
      rw [first]
      exact List.Nodup.sublist ((List.filter_sublist.trans knows.read.chunks.sublist).map _)
        lawful.distinct
    rw [List.map_cons, List.nodup_cons] at distinct
    have fewer : unsent { device with
          ledger := device.ledger.markSent chunk.seq
          position := .sending run remote rest } run.manifest =
        (device.unsent run.manifest).filter fun other => other.seq != chunk.seq := by
      unfold unsent
      rw [List.filter_filter]
      apply List.filter_congr
      intro other _
      unfold CaptureLedger.isSent CaptureLedger.markSent
      simp only [List.contains_eq_any_beq, List.any_append, List.any_cons, List.any_nil,
        Bool.or_false, Bool.not_or, bne]
      rw [Bool.and_comm]
    rw [fewer, ← first, List.filter_cons_of_neg (by simp)]
    symm
    rw [List.filter_eq_self]
    intro other member
    rw [bne_iff_ne]
    exact fun same => distinct.1 (List.mem_map.mpr ⟨other, member, same⟩)

theorem Lawful.ended (lawful : device.Lawful) {ledger : CaptureLedger}
    (sent : ledger.sent = device.ledger.sent) (choice : ledger.choice = device.ledger.choice)
    (closed : ∀ continueResearch, ledger.closed = some continueResearch →
      device.ledger.choice = some continueResearch ∧ device.manifest.finished = true ∧
        (continueResearch = true → device.AllSent)) :
    Lawful { device with ledger := ledger, position := .idle } := by
  have follows : Follows device { device with ledger := ledger, position := .idle } :=
    ⟨List.prefix_rfl, fun _ => rfl, fun _ picked => choice.trans picked,
      fun _ member => sent ▸ member, fun _ member => member⟩
  refine ⟨lawful.distinct, ?_, ?_, fun remote chunk member =>
    (lawful.inTurn remote chunk member).mono follows, ?_, ?_, trivial⟩
  · intro chunk member waiting
    exact lawful.onDisk chunk member (sent ▸ waiting)
  · intro seq member
    exact lawful.delivered seq (sent ▸ member)
  · intro remote continueResearch durationMs member
    obtain ⟨chosen, finished, duration, complete⟩ :=
      lawful.closes remote continueResearch durationMs member
    exact ⟨choice.trans chosen, finished, duration,
      fun continues => (complete continues).mono follows finished⟩
  · intro continueResearch recorded
    obtain ⟨chosen, finished, complete⟩ := closed continueResearch recorded
    exact ⟨choice.trans chosen, finished,
      fun continues => (complete continues).mono follows finished⟩

theorem next_lawful (lawful : device.Lawful) : device.next.Lawful := by
  have placed := lawful.placed
  unfold next
  split
  · rename_i manifest at_
    rw [at_] at placed
    exact upload_lawful lawful placed
  · rename_i run remote at_
    rw [at_] at placed
    have knows : device.Knows run := placed
    have steady : Steady device { device with
        ledger := { device.ledger with remoteSessionId := some remote }
        position := .sending run remote (device.unsent run.manifest) } :=
      ⟨⟨List.prefix_rfl, fun _ => rfl, fun _ picked => picked, fun _ member => member,
        fun _ member => member⟩, rfl, rfl⟩
    exact lawful.moved steady rfl rfl lawful.distinct lawful.onDisk
      ⟨knows.mono steady, rfl⟩
  · rename_i run remote at_
    rw [at_] at placed
    obtain ⟨knows, done⟩ := placed
    refine conclude_lawful lawful knows (fun stop => eq_of_beq stop) fun _ finished => ?_
    exact knows.read.allSent finished done
  · rename_i run remote chunk rest at_
    rw [at_] at placed
    split
    · rename_i stop
      exact conclude_lawful lawful placed.1 (fun _ => eq_of_beq stop) nofun
    · exact lawful.goto placed
  · rename_i run remote chunk rest at_
    rw [at_] at placed
    obtain ⟨knows, first⟩ := placed
    split
    · refine lawful.request ?_ nofun ⟨knows, first⟩
      rintro _ _ same
      cases same
      exact knows.read.inTurn first
    · exact lawful.goto knows.toLive
  · rename_i run remote chunk rest at_
    rw [at_] at placed
    obtain ⟨knows, first, acknowledged⟩ := placed
    exact stored_lawful lawful knows first acknowledged
  · rename_i manifest continueResearch at_
    rw [at_] at placed
    have closable : device.Closable manifest continueResearch := placed
    have same := closable.read.frozen closable.finished
    split
    · refine lawful.request nofun ?_ closable
      rintro _ _ _ equal
      cases equal
      exact ⟨closable.chosen, same ▸ closable.finished, by rw [same], closable.complete⟩
    · exact lawful.goto closable
  · rename_i manifest continueResearch at_
    rw [at_] at placed
    have closable : device.Closable manifest continueResearch := placed
    refine lawful.ended rfl rfl ?_
    rintro other recorded
    obtain rfl := Option.some.inj recorded
    exact ⟨closable.chosen, closable.read.frozen closable.finished ▸ closable.finished,
      closable.complete⟩
  · exact lawful.ended rfl rfl lawful.closed
  · exact lawful

theorem answer_lawful (lawful : device.Lawful) (answer : Answer) :
    (device.answer answer).Lawful := by
  have placed := lawful.placed
  have failed (answer : Answer) (live : device.Live) : (device.error answer).Lawful := by
    unfold error
    split
    · exact lawful.goto live
    · exact lawful.goto trivial
  unfold Device.answer
  split
  · rename_i run id at_
    rw [at_] at placed
    exact lawful.goto placed
  · rename_i run remote chunk rest isStored seq at_
    rw [at_] at placed
    obtain ⟨knows, first⟩ := placed
    split
    · rename_i matched
      rw [Bool.and_eq_true, beq_iff_eq] at matched
      have steady : Steady device { device with
          acknowledged := device.acknowledged ++ [seq]
          position := .stored run remote chunk rest } :=
        steady_of_eq rfl rfl fun _ member => List.mem_append_left _ member
      refine lawful.moved steady rfl rfl lawful.distinct lawful.onDisk
        ⟨knows.mono steady, first, ?_⟩
      rw [← matched.2]
      exact List.mem_append_right _ List.mem_cons_self
    · exact lawful.goto trivial
  · rename_i manifest continueResearch at_
    rw [at_] at placed
    exact lawful.goto placed
  · rename_i run at_ _
    rw [at_] at placed
    have knows : device.Knows run := placed
    exact failed _ knows.toLive
  · rename_i run remote chunk rest at_ _
    rw [at_] at placed
    exact failed _ placed.1.toLive
  · rename_i manifest continueResearch at_ _
    rw [at_] at placed
    have closable : device.Closable manifest continueResearch := placed
    exact failed _ closable.toLive
  · exact lawful

theorem sync_lawful (lawful : device.Lawful) : device.sync.Lawful := by
  unfold sync
  split
  · exact lawful
  · rename_i free
    simp only [Bool.or_eq_true, not_or, Option.isSome_iff_ne_none, not_not] at free
    exact lawful.goto ⟨⟨free.1.2, free.2⟩, Read.self device⟩

theorem grown_lawful (lawful : device.Lawful) {next : Device} (steady : Steady device next)
    (position : next.position = device.position) (requests : next.requests = device.requests)
    (sent : next.ledger.sent = device.ledger.sent)
    (distinct : (next.manifest.chunks.map (·.seq)).Nodup)
    (onDisk : ∀ chunk ∈ next.manifest.chunks, chunk.seq ∉ device.ledger.sent →
      chunk.seq ∈ next.files) : next.Lawful := by
  refine lawful.moved steady sent requests distinct onDisk ?_
  rw [position]
  exact lawful.placed.mono steady sent

theorem step_lawful (lawful : device.Lawful) (event : Event) : (device.step event).Lawful := by
  cases event with
  | sealed chunk =>
      unfold step
      dsimp only
      split
      · exact lawful
      · rename_i allowed
        rw [Bool.or_eq_true, not_or, List.contains_iff_mem] at allowed
        have distinct : ((device.manifest.chunks ++ [chunk]).map (·.seq)).Nodup := by
          rw [List.map_append, List.nodup_append]
          refine ⟨lawful.distinct, List.nodup_singleton _, ?_⟩
          intro first member second last
          rw [List.mem_singleton.mp last]
          intro same
          have equal : first = chunk.seq := same
          exact allowed.2 (equal ▸ member)
        refine grown_lawful lawful ⟨⟨List.prefix_append _ _, fun finished =>
          absurd finished allowed.1, fun _ picked => picked, fun _ member => member,
          fun _ member => member⟩, rfl, rfl⟩ rfl rfl rfl distinct ?_
        intro other member waiting
        rcases List.mem_append.mp member with before | this
        · exact List.mem_append_left _ (lawful.onDisk other before waiting)
        · rw [List.mem_singleton.mp this]
          exact List.mem_append_right _ List.mem_cons_self
  | finished durationMs =>
      unfold step
      dsimp only
      split
      · exact lawful
      · rename_i running
        exact grown_lawful lawful ⟨⟨List.prefix_rfl, fun finished => absurd finished running,
          fun _ picked => picked, fun _ member => member, fun _ member => member⟩, rfl, rfl⟩
          rfl rfl rfl lawful.distinct lawful.onDisk
  | evicted seq =>
      unfold step
      dsimp only
      split
      · rename_i sent
        unfold CaptureLedger.isSent at sent
        rw [List.contains_iff_mem] at sent
        refine grown_lawful lawful (steady_of_eq rfl rfl fun _ member => member) rfl rfl rfl
          lawful.distinct ?_
        intro chunk member waiting
        rw [List.mem_filter, bne_iff_ne]
        refine ⟨lawful.onDisk chunk member waiting, fun same => waiting (same ▸ sent)⟩
      · exact lawful
  | chosen continueResearch =>
      refine grown_lawful lawful ⟨⟨List.prefix_rfl, fun _ => rfl, ?_, fun _ member => member,
        fun _ member => member⟩, rfl, rfl⟩ rfl rfl rfl lawful.distinct lawful.onDisk
      intro choice picked
      have first : (device.ledger.choice.or (some continueResearch)) = some choice := by
        rw [picked]
        rfl
      exact first
  | sync => exact sync_lawful lawful
  | next => exact next_lawful lawful
  | answer answer => exact answer_lawful lawful answer
  | killed => exact lawful.goto trivial

theorem exec_lawful {device : Device} (lawful : device.Lawful) (events : List Event) :
    (exec step device events).Lawful :=
  exec_invariant Lawful (fun _ event lawful => step_lawful lawful event) lawful events

end Steps

section Ends

variable {device : Device}

def Ended (device : Device) : Prop :=
  device.ledger.closed.isSome = true ∨ device.ledger.failure.isSome = true

theorem Ended.not_live (ended : device.Ended) (live : device.Live) : False := by
  rcases ended with closed | failed
  · rw [live.unclosed] at closed
    cases closed
  · rw [live.unfailed] at failed
    cases failed

theorem Lawful.idle (lawful : device.Lawful) (ended : device.Ended) : device.position = .idle := by
  have placed := lawful.placed
  cases at_ : device.position with
  | idle => rfl
  | begun manifest =>
      rw [at_] at placed
      exact (ended.not_live placed.1).elim
  | opening run =>
      rw [at_] at placed
      exact (ended.not_live (Knows.toLive placed)).elim
  | opened run remote =>
      rw [at_] at placed
      exact (ended.not_live (Knows.toLive placed)).elim
  | sending run remote rest =>
      rw [at_] at placed
      exact (ended.not_live placed.1.toLive).elim
  | reading run remote chunk rest =>
      rw [at_] at placed
      exact (ended.not_live placed.1.toLive).elim
  | putting run remote chunk rest =>
      rw [at_] at placed
      exact (ended.not_live placed.1.toLive).elim
  | stored run remote chunk rest =>
      rw [at_] at placed
      exact (ended.not_live placed.1.toLive).elim
  | closing manifest continueResearch =>
      rw [at_] at placed
      exact (ended.not_live (Closable.toLive placed)).elim
  | awaiting manifest continueResearch =>
      rw [at_] at placed
      exact (ended.not_live (Closable.toLive placed)).elim
  | answered manifest continueResearch =>
      rw [at_] at placed
      exact (ended.not_live (Closable.toLive placed)).elim
  | failing code =>
      rw [at_] at placed
      exact (ended.not_live placed).elim

theorem step_ended (lawful : device.Lawful) (ended : device.Ended) (event : Event) :
    (device.step event).requests = device.requests ∧ (device.step event).Ended := by
  have free := lawful.idle ended
  have still {event : Event} (stays : device.step event = device) :
      (device.step event).requests = device.requests ∧ (device.step event).Ended := by
    rw [stays]
    exact ⟨rfl, ended⟩
  cases event with
  | sealed chunk =>
      unfold step
      dsimp only
      split <;> exact ⟨rfl, ended⟩
  | finished durationMs =>
      unfold step
      dsimp only
      split <;> exact ⟨rfl, ended⟩
  | evicted seq =>
      unfold step
      dsimp only
      split <;> exact ⟨rfl, ended⟩
  | chosen continueResearch => exact ⟨rfl, ended⟩
  | sync =>
      have stays : device.sync = device := by
        unfold sync
        rw [if_pos]
        rw [Bool.or_assoc, Bool.or_eq_true, Bool.or_eq_true]
        exact Or.inr ended
      exact still stays
  | next =>
      have stays : device.next = device := by
        unfold Device.next
        rw [free]
      exact still stays
  | answer given =>
      have stays : device.answer given = device := by
        unfold Device.answer
        rw [free]
      exact still stays
  | killed => exact ⟨rfl, ended⟩

theorem exec_ended (lawful : device.Lawful) (ended : device.Ended) (events : List Event) :
    (exec step device events).requests = device.requests := by
  have kept := @exec_invariant Device Event step
    (fun next => next.Lawful ∧ next.Ended ∧ next.requests = device.requests)
    (fun next event ⟨lawful, ended, same⟩ =>
      ⟨step_lawful lawful event, (step_ended lawful ended event).2,
        (step_ended lawful ended event).1.trans same⟩)
    device ⟨lawful, ended, rfl⟩ events
  exact kept.2.2

def puts (device : Device) : Nat :=
  device.requests.countP fun request =>
    match request with
    | .putChunk _ _ => true
    | _ => false

def due (device : Device) : Nat :=
  match device.position with
  | .reading .. => 1
  | _ => 0

theorem due_le_one (device : Device) : device.due ≤ 1 := by
  unfold due
  split <;> omega

theorem conclude_due (device : Device) (run : Run) (stopped : Bool) :
    (device.conclude run stopped).puts = device.puts ∧
      (device.conclude run stopped).due = 0 ∧
      (device.conclude run stopped).ledger = device.ledger := by
  unfold conclude
  split
  · split <;> exact ⟨rfl, rfl, rfl⟩
  · split <;> exact ⟨rfl, rfl, rfl⟩

theorem step_puts (stopped : device.ledger.choice = some false) (event : Event) :
    (device.step event).ledger.choice = some false ∧
      (device.step event).puts + (device.step event).due ≤ device.puts + device.due := by
  cases event with
  | sealed chunk =>
      unfold step
      dsimp only
      split <;> exact ⟨stopped, le_rfl⟩
  | finished durationMs =>
      unfold step
      dsimp only
      split <;> exact ⟨stopped, le_rfl⟩
  | evicted seq =>
      unfold step
      dsimp only
      split <;> exact ⟨stopped, le_rfl⟩
  | chosen continueResearch =>
      refine ⟨?_, le_rfl⟩
      have first : device.ledger.choice.or (some continueResearch) = some false := by
        rw [stopped]
        rfl
      exact first
  | sync =>
      unfold step sync
      dsimp only
      split
      · exact ⟨stopped, le_rfl⟩
      · exact ⟨stopped, Nat.add_le_add_left (Nat.zero_le _) _⟩
  | next =>
      have begun (position : Position) (fresh : (device.goto position).due = 0) :
          (device.goto position).ledger.choice = some false ∧
            (device.goto position).puts + (device.goto position).due ≤
              device.puts + device.due := by
        rw [fresh]
        exact ⟨stopped, Nat.add_le_add_left (Nat.zero_le _) _⟩
      have concluded (run : Run) (given : Bool) :
          (device.conclude run given).ledger.choice = some false ∧
            (device.conclude run given).puts + (device.conclude run given).due ≤
              device.puts + device.due := by
        obtain ⟨puts, due, ledger⟩ := conclude_due device run given
        rw [puts, due, ledger]
        exact ⟨stopped, Nat.add_le_add_left (Nat.zero_le _) _⟩
      unfold step Device.next
      dsimp only
      split
      · unfold upload
        dsimp only
        rw [stopped, if_pos (beq_self_eq_true _)]
        split
        · exact begun _ rfl
        · exact begun _ rfl
      · exact ⟨stopped, Nat.add_le_add_left (Nat.zero_le _) _⟩
      · exact concluded _ _
      · rw [stopped, if_pos (beq_self_eq_true _)]
        exact concluded _ _
      · rename_i run remote chunk rest at_
        have due : device.due = 1 := by
          unfold Device.due
          rw [at_]
        split
        · refine ⟨stopped, ?_⟩
          have puts : (device.request (.putChunk remote chunk)
              (.putting run remote chunk rest)).puts = device.puts + 1 := by
            unfold Device.puts Device.request
            dsimp only
            rw [List.countP_append]
            rfl
          rw [puts, due]
          exact le_rfl
        · exact begun _ rfl
      · exact ⟨stopped, Nat.add_le_add_left (Nat.zero_le _) _⟩
      · split
        · refine ⟨stopped, ?_⟩
          rename_i manifest continueResearch _ _ remote _
          have puts : (device.request (.close remote continueResearch manifest.durationMs)
              (.awaiting manifest continueResearch)).puts = device.puts := by
            unfold Device.puts Device.request
            dsimp only
            rw [List.countP_append]
            rfl
          rw [puts]
          exact Nat.add_le_add_left (Nat.zero_le _) _
        · exact begun _ rfl
      · exact ⟨stopped, Nat.add_le_add_left (Nat.zero_le _) _⟩
      · exact ⟨stopped, Nat.add_le_add_left (Nat.zero_le _) _⟩
      · exact ⟨stopped, le_rfl⟩
  | answer given =>
      have failed (answer : Answer) : (device.error answer).ledger.choice = some false ∧
          (device.error answer).puts + (device.error answer).due ≤ device.puts + device.due := by
        unfold error
        split <;> exact ⟨stopped, Nat.add_le_add_left (Nat.zero_le _) _⟩
      unfold step Device.answer
      dsimp only
      split
      · exact ⟨stopped, Nat.add_le_add_left (Nat.zero_le _) _⟩
      · split
        · exact ⟨stopped, Nat.add_le_add_left (Nat.zero_le _) _⟩
        · exact ⟨stopped, Nat.add_le_add_left (Nat.zero_le _) _⟩
      · exact ⟨stopped, Nat.add_le_add_left (Nat.zero_le _) _⟩
      · exact failed _
      · exact failed _
      · exact failed _
      · exact ⟨stopped, le_rfl⟩
  | killed => exact ⟨stopped, Nat.add_le_add_left (Nat.zero_le _) _⟩

theorem exec_puts (stopped : device.ledger.choice = some false) (events : List Event) :
    (exec step device events).puts ≤ device.puts + 1 := by
  have kept := @exec_invariant Device Event step
    (fun next => next.ledger.choice = some false ∧ next.puts + next.due ≤ device.puts + device.due)
    (fun next event ⟨stopped, fewer⟩ =>
      ⟨(step_puts stopped event).1, (step_puts stopped event).2.trans fewer⟩)
    device ⟨stopped, le_rfl⟩ events
  have last := due_le_one device
  omega

end Ends

section Completion

variable {device : Device}

/-- What a run does next by itself, or the answer of a server that does what it is asked. -/
inductive Granted : Position → Event → Prop
  | begun {manifest : LocalManifest} : Granted (.begun manifest) .next
  | opening {run : Run} {id : String} : Granted (.opening run) (.answer (.session id))
  | opened {run : Run} {remote : String} : Granted (.opened run remote) .next
  | sending {run : Run} {remote : String} {rest : List SealedChunk} :
      Granted (.sending run remote rest) .next
  | reading {run : Run} {remote : String} {chunk : SealedChunk} {rest : List SealedChunk} :
      Granted (.reading run remote chunk rest) .next
  | putting {run : Run} {remote : String} {chunk : SealedChunk} {rest : List SealedChunk} :
      Granted (.putting run remote chunk rest) (.answer (.chunk true chunk.seq))
  | stored {run : Run} {remote : String} {chunk : SealedChunk} {rest : List SealedChunk} :
      Granted (.stored run remote chunk rest) .next
  | closing {manifest : LocalManifest} {continueResearch : Bool} :
      Granted (.closing manifest continueResearch) .next
  | awaiting {manifest : LocalManifest} {continueResearch : Bool} :
      Granted (.awaiting manifest continueResearch) (.answer .closed)
  | answered {manifest : LocalManifest} {continueResearch : Bool} :
      Granted (.answered manifest continueResearch) .next
  | failing {code : String} : Granted (.failing code) .next

theorem granted_of_position {position : Position} (busy : position ≠ .idle) :
    ∃ event, Granted position event := by
  cases position with
  | idle => exact absurd rfl busy
  | begun manifest => exact ⟨_, .begun⟩
  | opening run => exact ⟨.answer (.session ""), .opening⟩
  | opened run remote => exact ⟨_, .opened⟩
  | sending run remote rest => exact ⟨_, .sending⟩
  | reading run remote chunk rest => exact ⟨_, .reading⟩
  | putting run remote chunk rest => exact ⟨_, .putting⟩
  | stored run remote chunk rest => exact ⟨_, .stored⟩
  | closing manifest continueResearch => exact ⟨_, .closing⟩
  | awaiting manifest continueResearch => exact ⟨_, .awaiting⟩
  | answered manifest continueResearch => exact ⟨_, .answered⟩
  | failing code => exact ⟨_, .failing⟩

/-- At most as many steps are left to a run, four for every chunk that it may send. -/
def left : Position → Nat
  | .idle => 0
  | .answered .. | .failing _ => 1
  | .awaiting .. => 2
  | .closing .. => 3
  | .sending _ _ rest => 4 * rest.length + 4
  | .stored _ _ _ rest => 4 * rest.length + 5
  | .putting _ _ _ rest => 4 * rest.length + 6
  | .reading _ _ _ rest => 4 * rest.length + 7
  | .opened run _ => 4 * run.manifest.chunks.length + 5
  | .opening run => 4 * run.manifest.chunks.length + 6
  | .begun manifest => 4 * manifest.chunks.length + 7

/-- Where a run is that gets to the close of a finished capture. -/
def Aimed (choice : Bool) (device : Device) : Position → Prop
  | .idle => device.ledger.closed = some choice
  | .begun manifest => manifest.finished = true
  | .opening run | .opened run _ | .sending run _ _ | .reading run _ _ _ | .putting run _ _ _
  | .stored run _ _ _ => choice = true ∧ run.choice = some true ∧ run.manifest.finished = true
  | .closing _ continueResearch | .awaiting _ continueResearch | .answered _ continueResearch =>
      continueResearch = choice
  | .failing _ => False

structure Heading (choice : Bool) (device : Device) : Prop where
  lawful : device.Lawful
  chosen : device.ledger.choice = some choice
  aimed : Aimed choice device device.position

structure Nearer (choice : Bool) (steps : Nat) (device : Device) : Prop where
  chosen : device.ledger.choice = some choice
  aimed : Aimed choice device device.position
  fewer : left device.position < steps

theorem unsent_length_le (device : Device) (manifest : LocalManifest) :
    (device.unsent manifest).length ≤ manifest.chunks.length :=
  List.length_filter_le _ _

theorem conclude_nearer {run : Run} (chosen : device.ledger.choice = some true)
    (whole : run.choice = some true) (finished : run.manifest.finished = true) {steps : Nat}
    (enough : 3 < steps) : Nearer true steps (device.conclude run false) := by
  have closing : device.conclude run false = device.goto (.closing run.manifest true) := by
    unfold conclude
    rw [if_neg (by decide), finished, whole]
    rfl
  rw [closing]
  exact ⟨chosen, rfl, enough⟩

theorem upload_nearer {choice : Bool} {manifest : LocalManifest}
    (chosen : device.ledger.choice = some choice) (finished : manifest.finished = true) :
    Nearer choice (4 * manifest.chunks.length + 7) (device.upload manifest) := by
  unfold upload
  dsimp only
  rw [chosen]
  cases choice with
  | false =>
      rw [if_pos (beq_self_eq_true _), if_pos finished]
      exact ⟨chosen, rfl, show 3 < _ by omega⟩
  | true =>
      rw [if_neg (by decide)]
      split
      · refine ⟨chosen, ⟨rfl, rfl, finished⟩, ?_⟩
        have fewer := unsent_length_le device manifest
        show 4 * (device.unsent manifest).length + 4 < _
        omega
      · split
        · exact conclude_nearer chosen rfl finished (by omega)
        · exact ⟨chosen, ⟨rfl, rfl, finished⟩, show 4 * manifest.chunks.length + 6 < _ by omega⟩

/-- A granted step brings the run nearer to the close. -/
theorem granted_step {choice : Bool} (heading : device.Heading choice) {event : Event}
    (granted : Granted device.position event) :
    (device.step event).Heading choice ∧
      left (device.step event).position < left device.position := by
  suffices nearer : Nearer choice (left device.position) (device.step event) from
    ⟨⟨step_lawful heading.lawful event, nearer.chosen, nearer.aimed⟩, nearer.fewer⟩
  have aimed := heading.aimed
  have chosen := heading.chosen
  have placed := heading.lawful.placed
  generalize at_ : device.position = position at granted aimed placed
  cases granted with
  | @begun manifest =>
      have moved : device.step .next = device.upload manifest := by
        unfold step Device.next
        rw [at_]
      rw [moved]
      exact upload_nearer chosen aimed
  | @opening run id =>
      have moved : device.step (.answer (.session id)) = device.goto (.opened run id) := by
        unfold step Device.answer
        rw [at_]
      rw [moved]
      exact ⟨chosen, aimed, Nat.lt_succ_self _⟩
  | @opened run remote =>
      have moved : device.step .next =
          { device with
            ledger := { device.ledger with remoteSessionId := some remote }
            position := .sending run remote (device.unsent run.manifest) } := by
        unfold step Device.next
        rw [at_]
      rw [moved]
      refine ⟨chosen, aimed, ?_⟩
      have fewer := unsent_length_le device run.manifest
      show 4 * (device.unsent run.manifest).length + 4 < 4 * run.manifest.chunks.length + 5
      omega
  | @sending run remote rest =>
      obtain ⟨rfl, whole, finished⟩ := aimed
      have goes : (device.ledger.choice == some false) = false := by
        rw [chosen]
        rfl
      cases rest with
      | nil =>
          have moved : device.step .next = device.conclude run false := by
            unfold step Device.next
            rw [at_]
            dsimp only
            rw [goes]
          rw [moved]
          exact conclude_nearer chosen whole finished (show 3 < 4 by decide)
      | cons chunk rest =>
          have moved : device.step .next = device.goto (.reading run remote chunk rest) := by
            unfold step Device.next
            rw [at_]
            dsimp only
            rw [goes, if_neg (by decide)]
          rw [moved]
          exact ⟨chosen, ⟨rfl, whole, finished⟩, by
            show 4 * rest.length + 7 < 4 * (rest.length + 1) + 4
            omega⟩
  | @reading run remote chunk rest =>
      obtain ⟨knows, first⟩ := placed
      have due : chunk ∈ device.unsent run.manifest := first ▸ List.mem_cons_self
      obtain ⟨read, waiting⟩ := mem_unsent.mp due
      -- A chunk that is not recorded sent is still on disk.
      have onDisk : device.files.contains chunk.seq = true := by
        rw [List.contains_iff_mem]
        exact heading.lawful.onDisk chunk (knows.read.chunks.subset read) waiting
      have moved : device.step .next =
          device.request (.putChunk remote chunk) (.putting run remote chunk rest) := by
        unfold step Device.next
        rw [at_]
        dsimp only
        rw [if_pos onDisk]
      rw [moved]
      exact ⟨chosen, aimed, Nat.lt_succ_self _⟩
  | @putting run remote chunk rest =>
      have moved : device.step (.answer (.chunk true chunk.seq)) =
          { device with
            acknowledged := device.acknowledged ++ [chunk.seq]
            position := .stored run remote chunk rest } := by
        unfold step Device.answer
        rw [at_]
        dsimp only
        rw [Bool.true_and, if_pos (beq_self_eq_true _)]
      rw [moved]
      exact ⟨chosen, aimed, Nat.lt_succ_self _⟩
  | @stored run remote chunk rest =>
      have moved : device.step .next =
          { device with
            ledger := device.ledger.markSent chunk.seq
            position := .sending run remote rest } := by
        unfold step Device.next
        rw [at_]
      rw [moved]
      exact ⟨chosen, aimed, Nat.lt_succ_self _⟩
  | @closing manifest continueResearch =>
      cases known : device.ledger.remoteSessionId with
      | none =>
          have moved : device.step .next = device.goto (.answered manifest continueResearch) := by
            unfold step Device.next
            rw [at_]
            dsimp only
            rw [known]
          rw [moved]
          exact ⟨chosen, aimed, by show 1 < 3; decide⟩
      | some remote =>
          have moved : device.step .next =
              device.request (.close remote continueResearch manifest.durationMs)
                (.awaiting manifest continueResearch) := by
            unfold step Device.next
            rw [at_]
            dsimp only
            rw [known]
          rw [moved]
          exact ⟨chosen, aimed, Nat.lt_succ_self _⟩
  | @awaiting manifest continueResearch =>
      have moved : device.step (.answer .closed) =
          device.goto (.answered manifest continueResearch) := by
        unfold step Device.answer
        rw [at_]
      rw [moved]
      exact ⟨chosen, aimed, Nat.lt_succ_self _⟩
  | @answered manifest continueResearch =>
      have moved : device.step .next =
          { device with
            ledger := { device.ledger with closed := some continueResearch }
            position := .idle } := by
        unfold step Device.next
        rw [at_]
      rw [moved]
      exact ⟨chosen, congrArg some aimed, Nat.lt_succ_self _⟩
  | failing => exact aimed.elim

/-- Every granted run stays on its way and takes at most the steps that are left. -/
theorem granted_run {choice : Bool} (heading : device.Heading choice) {run : List Event}
    (granted : Meets step (fun device event => Granted device.position event) device run) :
    (exec step device run).Heading choice ∧ run.length ≤ left device.position := by
  induction run generalizing device with
  | nil => exact ⟨heading, Nat.zero_le _⟩
  | cons event rest ih =>
      obtain ⟨first, later⟩ := granted
      obtain ⟨next, fewer⟩ := granted_step heading first
      obtain ⟨last, short⟩ := ih next later
      refine ⟨last, ?_⟩
      rw [List.length_cons]
      omega

theorem sync_heading (lawful : device.Lawful) (live : ¬device.Ended)
    (finished : device.manifest.finished = true) {choice : Bool}
    (chosen : device.ledger.choice = some choice) :
    (exec step device [.killed, .sync]).Heading choice ∧
      left (exec step device [.killed, .sync]).position = 4 * device.manifest.chunks.length + 7 := by
  have begun : exec step device [.killed, .sync] = device.goto (.begun device.manifest) := by
    unfold Ended at live
    simp only [not_or, Bool.not_eq_true, Option.isSome_eq_false_iff, Option.isNone_iff_eq_none]
      at live
    rw [exec_cons, exec_cons, exec_nil]
    unfold step sync goto
    dsimp only
    rw [live.1, live.2]
    rfl
  have ready := exec_lawful lawful [.killed, .sync]
  rw [begun] at ready ⊢
  exact ⟨⟨ready, chosen, finished⟩, rfl⟩

end Completion

end Device

/-- The uploads of one capture. Only acknowledged chunks are recorded sent; chunks are sent in
the order they were sealed and are on disk when their turn comes; every close carries the
recorded choice of a finished capture, and continues research only when every chunk is recorded
sent; nothing is sent once the capture ended; and at most one more upload begins after a stop
choice was recorded. -/
theorem upload_law (sessionId : Uuid) (events : List Event) :
    let device := exec Device.step (Device.begin sessionId) events
    (∀ seq ∈ device.ledger.sent, seq ∈ device.acknowledged) ∧
    (∀ remote chunk, .putChunk remote chunk ∈ device.requests → device.InTurn chunk) ∧
    (∀ run remote chunk rest, device.position = .reading run remote chunk rest →
      chunk.seq ∈ device.files) ∧
    (∀ remote continueResearch durationMs,
      .close remote continueResearch durationMs ∈ device.requests →
      device.ledger.choice = some continueResearch ∧ device.manifest.finished = true ∧
        device.manifest.durationMs = durationMs ∧ (continueResearch = true → device.AllSent)) ∧
    (∀ continueResearch, device.ledger.closed = some continueResearch →
      device.ledger.choice = some continueResearch ∧ device.manifest.finished = true ∧
        (continueResearch = true → device.AllSent)) ∧
    (device.Ended → ∀ later, (exec Device.step device later).requests = device.requests) ∧
    (device.ledger.choice = some false →
      ∀ later, (exec Device.step device later).puts ≤ device.puts + 1) := by
  have lawful := Device.exec_lawful (Device.begin_lawful sessionId) events
  refine ⟨lawful.delivered, lawful.inTurn, ?_, lawful.closes, lawful.closed,
    fun ended later => Device.exec_ended lawful ended later,
    fun stopped later => Device.exec_puts stopped later⟩
  intro run remote chunk rest at_
  have placed := lawful.placed
  rw [at_] at placed
  obtain ⟨knows, first⟩ := placed
  have due : chunk ∈ Device.unsent _ run.manifest := first ▸ List.mem_cons_self
  obtain ⟨read, waiting⟩ := Device.mem_unsent.mp due
  exact lawful.onDisk chunk (knows.read.chunks.subset read) waiting

def exampleChunk (seq : Nat) : SealedChunk :=
  ⟨seq, seq * 10000, (seq + 1) * 10000, .speech, 10, "", 8, [], 0⟩

def exampleStop : List Event :=
  [.sealed (exampleChunk 0), .sealed (exampleChunk 1), .sync, .next, .answer (.session "remote"),
    .next, .next, .next, .answer (.chunk true 0), .next, .next, .chosen false]

def exampleClose : List Event :=
  [.next, .answer (.chunk true 1), .next, .next, .finished 20000, .sync, .next, .next,
    .answer .closed, .next]

theorem upload_law_stopped :
    let stopped := exec Device.step (Device.begin "session") exampleStop
    let ended := exec Device.step (Device.begin "session") (exampleStop ++ exampleClose)
    stopped.puts = 1 ∧ (exec Device.step stopped exampleClose).puts ≤ stopped.puts + 1 ∧
      ended.ledger.closed = some false ∧
      ∀ later, (exec Device.step ended later).requests = ended.requests :=
  ⟨by decide, (upload_law "session" exampleStop).2.2.2.2.2.2 rfl exampleClose, rfl,
    (upload_law "session" (exampleStop ++ exampleClose)).2.2.2.2.2.1 (Or.inl rfl)⟩

/-- From every state a capture can get to, wherever the last run was cut off: once it is finished
and a choice is recorded, every run whose calls the server answers can go on until it has closed
the capture with that choice, and gets there within its steps. -/
theorem upload_completes (sessionId : Uuid) (events : List Event) {continueResearch : Bool}
    (live : ¬(exec Device.step (Device.begin sessionId) events).Ended)
    (finished : (exec Device.step (Device.begin sessionId) events).manifest.finished = true)
    (chosen : (exec Device.step (Device.begin sessionId) events).ledger.choice =
      some continueResearch)
    {run : List Event}
    (granted : Meets Device.step (fun device event => Device.Granted device.position event)
      (exec Device.step (Device.begin sessionId) (events ++ [.killed, .sync])) run) :
    let device := exec Device.step (Device.begin sessionId) (events ++ [.killed, .sync] ++ run)
    (device.position = .idle → device.ledger.closed = some continueResearch ∧
      (continueResearch = true → device.AllSent)) ∧
    (device.position ≠ .idle → ∃ event, Device.Granted device.position event) ∧
    run.length ≤
      4 * (exec Device.step (Device.begin sessionId) events).manifest.chunks.length + 7 := by
  have lawful := Device.exec_lawful (Device.begin_lawful sessionId) events
  obtain ⟨heading, steps⟩ := Device.sync_heading lawful live finished chosen
  rw [exec_append] at granted
  obtain ⟨last, short⟩ := Device.granted_run heading granted
  rw [exec_append, exec_append]
  refine ⟨fun idle => ?_, Device.granted_of_position, steps ▸ short⟩
  have closed := last.aimed
  rw [idle] at closed
  exact ⟨closed, (last.lawful.closed continueResearch closed).2.2⟩

def exampleCut : List Event :=
  [.sealed (exampleChunk 0), .finished 10000, .chosen true, .sync, .next,
    .answer (.session "remote"), .next, .next, .next]

def exampleRun : List Event :=
  [.next, .next, .next, .answer (.chunk true 0), .next, .next, .next, .answer .closed, .next]

theorem upload_completes_cut :
    (exec Device.step (Device.begin "session")
      (exampleCut ++ [.killed, .sync] ++ exampleRun)).ledger.closed = some true ∧
    (exec Device.step (Device.begin "session")
      (exampleCut ++ [.killed, .sync] ++ exampleRun)).AllSent := by
  have done := upload_completes "session" exampleCut
    (by rintro (closed | failed) <;> contradiction) rfl rfl
    (show Meets Device.step (fun device event => Device.Granted device.position event) _ exampleRun
      from ⟨.begun, .sending, .reading, .putting, .stored, .sending, .closing, .awaiting, .answered,
        trivial⟩)
  exact (done.1 rfl).imp_right fun sent => sent rfl

end Ovrly.Captures.Uploader
