import Ovrly.Pipeline.Analysis

/-!
When an analysis says of both modalities what became of them: always for a capture, and for an
upload unless its text is complete and no frame of it was read.
-/

namespace Ovrly.Pipeline.Analysis

open Runs Ovrly.Jobs Ovrly.Reports Ovrly.Asr Ovrly.Uploads Ovrly.Pipeline.CaptureMedia
open Ovrly.Captures (CaptureSession CaptureChunk Span isReceived manifest receivedInOrder spanOf)

def framesIn : Option AnalysisText → List TextFrame
  | none => []
  | some (.upload document) => framesOf document.batches
  | some (.capture chunks) => chunks.flatMap (·.frames)

def Usable (speech : SpeechRead) (read : AnalysisRead) : Prop :=
  speech.segments ≠ [] ∨ ∃ frame ∈ framesIn read.text, frame.textObservations ≠ []

/-- Nothing about a modality is left unsaid. -/
structure Truthful (speech : SpeechRead) (read : AnalysisRead) : Prop where
  listed : ∀ modality, modality ∈ read.analyzedModalities ∨ modality ∈ read.pendingModalities ∨
    modality ∈ read.unavailableModalities
  apart : ∀ modality ∈ read.pendingModalities, modality ∉ read.unavailableModalities
  explained : ∀ modality ∈ read.unavailableModalities, ∃ gap ∈ read.gaps, gap.modality = modality
  finished : read.status = .complete → Usable speech read ∧ read.gaps = [] ∧
    read.pendingModalities = [] ∧ read.unavailableModalities = []

theorem analysisStatus_complete {usable : Bool} {gaps : List AnalysisGap}
    {pending : List AnalysisModality} :
    analysisStatus usable gaps pending = .complete ↔ usable = true ∧ gaps = [] ∧ pending = [] := by
  unfold analysisStatus
  split_ifs with found unsettled waiting
  · simp only [false_iff, not_and]
    exact fun _ none some => unsettled.elim (· none) (· some)
  · simp only [true_iff]
    rw [not_or, not_not, not_not] at unsettled
    exact ⟨found, unsettled⟩
  · simp [found]
  · simp [found]

section Uploads

variable (totalMs : Nat) (speech : SpeechRead) (text : Option DeviceTextRead)
  (deadline : Option Time) (expired : Bool)

def Vanished (text : Option DeviceTextRead) : Prop :=
  (text.bind (·.completion)).isSome = true ∧ ∀ frame ∈ textFrames text, isRead frame = false

theorem mem_analyzed {modality : AnalysisModality} :
    modality ∈ (summarize totalMs speech text deadline expired).analyzedModalities ↔
      (modality = .speech ∧ speech.status = .completed) ∨
        (modality = .text ∧ ∃ frame ∈ textFrames text, isRead frame = true) := by
  simp only [summarize, List.mem_append, List.mem_ite_nil_right, List.mem_singleton,
    List.any_eq_true]
  tauto

theorem mem_pending {modality : AnalysisModality} :
    modality ∈ (summarize totalMs speech text deadline expired).pendingModalities ↔
      (modality = .speech ∧ (speech.status = .pending ∨ speech.status = .running)) ∨
        (modality = .text ∧ text.bind (·.completion) = none ∧ expired = false) := by
  simp only [summarize, List.mem_append, List.mem_ite_nil_right, List.mem_singleton]
  tauto

theorem mem_unavailable {modality : AnalysisModality} :
    modality ∈ (summarize totalMs speech text deadline expired).unavailableModalities ↔
      (modality = .speech ∧ speech.status = .unavailable) ∨
        (modality = .text ∧ text.bind (·.completion) = none ∧ expired = true) := by
  simp only [summarize, List.mem_append, List.mem_ite_nil_right, List.mem_singleton]
  cases speech.status <;> simp <;> tauto

theorem gap_of_unavailable {modality : AnalysisModality}
    (missing : modality ∈ (summarize totalMs speech text deadline expired).unavailableModalities) :
    ∃ gap ∈ (summarize totalMs speech text deadline expired).gaps, gap.modality = modality := by
  rcases (mem_unavailable ..).mp missing with ⟨rfl, silent⟩ | ⟨rfl, none, late⟩
  · exact ⟨⟨.speech, speechGap speech.reason, some ⟨0, totalMs⟩⟩, by simp [summarize, silent], rfl⟩
  · exact ⟨⟨.text, if textFrames text = [] then .deviceTextMissing else .deviceTextIncomplete,
      some ⟨0, totalMs⟩⟩, by simp [summarize, none, late], rfl⟩

theorem summarize_usable : (!speech.segments.isEmpty ||
      (textFrames text).any fun frame => !frame.textObservations.isEmpty) = true ↔
    Usable speech (summarize totalMs speech text deadline expired) := by
  have frames : framesIn (summarize totalMs speech text deadline expired).text =
      textFrames text := by
    cases text with
    | none => rfl
    | some document => rfl
  simp [Usable, frames]

theorem summarize_truthful :
    Truthful speech (summarize totalMs speech text deadline expired) ↔ ¬ Vanished text := by
  constructor
  · rintro truthful ⟨completed, unread⟩
    rw [Option.isSome_iff_ne_none] at completed
    rcases truthful.listed .text with analyzed | pending | unavailable
    · rcases (mem_analyzed ..).mp analyzed with ⟨speaks, -⟩ | ⟨-, frame, member, read⟩
      · cases speaks
      · rw [unread frame member] at read
        cases read
    · rcases (mem_pending ..).mp pending with ⟨speaks, -⟩ | ⟨-, none, -⟩
      · cases speaks
      · exact completed none
    · rcases (mem_unavailable ..).mp unavailable with ⟨speaks, -⟩ | ⟨-, none, -⟩
      · cases speaks
      · exact completed none
  · intro known
    refine ⟨?_, ?_, fun _ missing => gap_of_unavailable _ _ _ _ _ missing, ?_⟩
    · intro modality
      rw [mem_analyzed, mem_pending, mem_unavailable]
      cases modality with
      | speech => cases speech.status <;> simp
      | text =>
          by_cases completed : text.bind (·.completion) = none
          · cases expired <;> simp [completed]
          · refine .inl (.inr ⟨rfl, ?_⟩)
            by_contra unread
            refine known ⟨Option.isSome_iff_ne_none.mpr completed, fun frame member => ?_⟩
            exact Bool.eq_false_iff.mpr fun read => unread ⟨frame, member, read⟩
    · intro modality pending unavailable
      rw [mem_pending] at pending
      rw [mem_unavailable] at unavailable
      rcases pending with ⟨rfl, waits⟩ | ⟨rfl, -, early⟩
      · rcases unavailable with ⟨-, silent⟩ | ⟨texts, -⟩
        · rcases waits with waits | waits <;> simp [silent] at waits
        · cases texts
      · rcases unavailable with ⟨speaks, -⟩ | ⟨-, -, late⟩
        · cases speaks
        · simp [early] at late
    · intro complete
      obtain ⟨found, noGap, noWait⟩ := analysisStatus_complete.mp complete
      refine ⟨(summarize_usable ..).mp found, noGap, noWait, ?_⟩
      rw [List.eq_nil_iff_forall_not_mem]
      intro modality missing
      obtain ⟨gap, member, -⟩ := gap_of_unavailable _ _ _ _ _ missing
      exact List.ne_nil_of_mem member noGap

end Uploads

section Captures

variable {ids : String → Nat → Uuid} {digest : Uuid → Nat → String} {tally : Tally}
  {modality : AnalysisModality}

/-- The tally says what became of the modality in some chunk. -/
def Said (modality : AnalysisModality) (tally : Tally) : Prop :=
  modality ∈ tally.pending ∨ modality ∈ tally.analyzed ∨
    ∃ gap ∈ tally.gaps, gap.modality = modality

theorem said_addPending (modality : AnalysisModality) (tally : Tally) :
    Said modality (addPending modality tally) := .inl (by simp [addPending])

theorem said_addGap (modality : AnalysisModality) (reason : GapReason) (interval : Option Span)
    (tally : Tally) : Said modality (addGap modality reason interval tally) :=
  .inr (.inr ⟨⟨modality, reason, interval⟩, by simp [addGap], rfl⟩)

theorem Said.addPending (said : Said modality tally) (other : AnalysisModality) :
    Said modality (addPending other tally) :=
  said.imp_left fun member => by simp [Analysis.addPending, member]

theorem Said.addGap (said : Said modality tally) (other : AnalysisModality) (reason : GapReason)
    (interval : Option Span) : Said modality (addGap other reason interval tally) :=
  said.imp_right fun rest => rest.imp_right fun ⟨gap, member, same⟩ =>
    ⟨gap, by simp [Analysis.addGap, member], same⟩

theorem said_addSpeech (span : Span) (row : Option (RowState ChunkSpeech)) (tally : Tally) :
    Said .speech (addSpeech span row tally) := by
  cases row with
  | none => exact said_addPending ..
  | some state =>
      cases state with
      | queued => exact said_addPending ..
      | leased => exact said_addPending ..
      | running => exact said_addPending ..
      | ended failure => exact said_addGap ..
      | published result =>
          cases result with
          | completed source segments => exact .inr (.inl (by simp [addSpeech]))
          | unavailable reason => exact said_addGap ..

theorem said_addText (seq : Nat) (span : Span) (row : Option (RowState (TextResult ids)))
    (tally : Tally) : Said .text (addText ids seq span row tally) := by
  cases row with
  | none => exact said_addPending ..
  | some state =>
      cases state with
      | queued => exact said_addPending ..
      | leased => exact said_addPending ..
      | running => exact said_addPending ..
      | ended failure => exact said_addGap ..
      | published result =>
          obtain ⟨text, produced⟩ := result
          cases text with
          | unavailable reason => exact said_addGap ..
          | completed sourceSha256 sampling recognizer frames =>
              by_cases read : frames.any isRead = true
              · exact .inr (.inl (by simp [addText, read]))
              · obtain ⟨frame, member⟩ := List.exists_mem_of_ne_nil frames produced.frames
                have failed : isFailed frame = true := by
                  have unread : isRead frame ≠ true := fun seen =>
                    read (List.any_eq_true.mpr ⟨frame, member, seen⟩)
                  cases status : frame.status with
                  | recognized => simp [isRead, status] at unread
                  | noTextRegions => simp [isRead, status] at unread
                  | failed => simp [isFailed, status]
                have gap : ⟨.text, .deviceTextFrameFailed, none⟩ ∈ frameGaps frames :=
                  List.mem_map.mpr ⟨frame, List.mem_filter.mpr ⟨member, failed⟩, rfl⟩
                exact .inr (.inr ⟨_, List.mem_append_right _ gap, rfl⟩)

theorem Said.addText (said : Said modality tally) (seq : Nat) (span : Span)
    (row : Option (RowState (TextResult ids))) : Said modality (addText ids seq span row tally) := by
  cases row with
  | none => exact said.addPending _
  | some state =>
      cases state with
      | queued => exact said.addPending _
      | leased => exact said.addPending _
      | running => exact said.addPending _
      | ended failure => exact said.addGap ..
      | published result =>
          obtain ⟨text, produced⟩ := result
          cases text with
          | unavailable reason => exact said.addGap ..
          | completed sourceSha256 sampling recognizer frames =>
              rcases said with waits | analyzed | ⟨gap, member, same⟩
              · exact .inl waits
              · refine .inr (.inl ?_)
                show modality ∈ if frames.any isRead then _ else _
                split
                · exact List.mem_insert_of_mem analyzed
                · exact analyzed
              · exact .inr (.inr ⟨gap, List.mem_append_left _ member, same⟩)

theorem said_addChunk (session : CaptureSession) (rows : List (StageRow ids)) (tally : Tally)
    (chunk : CaptureChunk) (modality : AnalysisModality) :
    Said modality (addChunk ids digest session rows tally chunk) := by
  have waiting : Said modality (addPending .text (addPending .speech tally)) := by
    cases modality with
    | speech => exact (said_addPending ..).addPending _
    | text => exact said_addPending ..
  unfold addChunk
  dsimp only
  split
  · exact waiting
  · split
    · exact waiting
    · split
      · cases modality with
        | speech => exact (said_addSpeech ..).addText ..
        | text => exact said_addText ..
      · cases modality with
        | speech => exact (said_addGap ..).addGap ..
        | text => exact said_addGap ..

theorem said_received (session : CaptureSession) (rows : List (StageRow ids))
    {received : List CaptureChunk} (some : received ≠ []) (tally : Tally)
    (modality : AnalysisModality) :
    Said modality (received.foldl (addChunk ids digest session rows) tally) := by
  rcases List.eq_nil_or_concat received with rfl | ⟨before, last, rfl⟩
  · exact absurd rfl some
  · rw [List.concat_eq_append, List.foldl_append]
    exact said_addChunk ..

theorem captureSpeech_segments (tally : Tally) :
    (captureSpeech tally).segments.Perm tally.segments := by
  unfold captureSpeech
  dsimp only
  split
  · exact List.mergeSort_perm ..
  · split
    · exact List.mergeSort_perm ..
    · exact List.mergeSort_perm ..

theorem captureRead_truthful (said : ∀ modality, Said modality tally) (missing : List Span) :
    Truthful (captureSpeech tally) (captureRead tally missing) := by
  have both : ∀ modality, modality ∈ bothModalities := by
    intro modality
    cases modality <;> simp [bothModalities]
  have explained : ∀ modality ∈ (captureRead tally missing).unavailableModalities,
      ∃ gap ∈ (captureRead tally missing).gaps, gap.modality = modality := by
    intro modality unavailable
    obtain ⟨-, absent⟩ := List.mem_filter.mp unavailable
    rw [decide_eq_true_eq] at absent
    rcases said modality with waits | analyzed | ⟨gap, member, same⟩
    · exact absurd waits absent.2
    · exact absurd analyzed absent.1
    · exact ⟨gap, List.mem_append_left _ member, same⟩
  refine ⟨?_, ?_, explained, ?_⟩
  · intro modality
    simp only [captureRead, List.mem_filter, both, true_and, decide_eq_true_eq]
    tauto
  · intro modality pending unavailable
    obtain ⟨-, waits⟩ := List.mem_filter.mp pending
    obtain ⟨-, absent⟩ := List.mem_filter.mp unavailable
    rw [decide_eq_true_eq] at waits absent
    exact absent.2 waits
  · intro complete
    obtain ⟨found, noGap, noWait⟩ := analysisStatus_complete.mp complete
    refine ⟨?_, noGap, ?_, ?_⟩
    · rw [Bool.or_eq_true] at found
      rcases found with spoken | observed
      · refine .inl fun none => ?_
        have empty : tally.segments = [] :=
          (none ▸ captureSpeech_segments tally).nil_eq.symm
        simp [empty] at spoken
      · obtain ⟨chunk, member, frames⟩ := List.any_eq_true.mp observed
        obtain ⟨frame, shown, some⟩ := List.any_eq_true.mp frames
        exact .inr ⟨frame, List.mem_flatMap.mpr ⟨chunk, member, shown⟩, by simpa using some⟩
    · simp [captureRead, noWait]
    · rw [List.eq_nil_iff_forall_not_mem]
      intro modality unavailable
      obtain ⟨gap, member, -⟩ := explained modality unavailable
      exact List.ne_nil_of_mem member noGap

end Captures

section Reads

variable (ids : String → Nat → Uuid) (digest : Uuid → Nat → String)

/-- The delivery is complete, and every frame of it failed. -/
def Unread (document : Option TextDocument) : Prop :=
  ∃ current, document = some current ∧ current.completion.isSome = true ∧
    ∀ frame ∈ framesOf current.batches, frame.status = .failed

theorem isRead_eq_false {frame : TextFrame} : isRead frame = false ↔ frame.status = .failed := by
  cases status : frame.status <;> simp [isRead, status]

theorem uploadedAnalysis_some {source : TextUpload} {state : Option MediaAnalysis}
    {document : Option TextDocument} {textJob : Option JobStatus} {speech : SpeechRead}
    {read : AnalysisRead}
    (found : uploadedAnalysis source state document textJob speech = some read) :
    ∃ text deadline expired, read = summarize source.totalMs speech text deadline expired ∧
      (Vanished text ↔ Unread document) := by
  obtain ⟨state, rfl, answered⟩ := Option.bind_eq_some_iff.mp found
  clear found
  dsimp only at answered
  split at answered
  · cases answered
  · cases document with
    | none =>
        refine ⟨none, _, _, (Option.some.inj answered).symm, ?_⟩
        simp [Vanished, Unread]
    | some current =>
        obtain ⟨job, rfl, summarized⟩ := Option.bind_eq_some_iff.mp answered
        clear answered
        split at summarized
        · cases summarized
        · refine ⟨_, _, _, (Option.some.inj summarized).symm, ?_⟩
          simp [Vanished, Unread, textFrames, isRead_eq_false]

/-- The analysis of an upload is truthful unless its text is complete and every frame failed; that
of a capture always is. -/
theorem analysis_truthful_iff (source : TextUpload) (state : Option MediaAnalysis)
    (document : Option TextDocument) (textJob : Option JobStatus) (speech : SpeechRead)
    (session : Option CaptureSession) (chunks : List CaptureChunk) (rows : List (StageRow ids)) :
    (∀ read ∈ uploadedAnalysis source state document textJob speech,
      (Truthful speech read ↔ ¬ Unread document)) ∧
    ∀ answer ∈ captureAnalysis ids digest session chunks rows, Truthful answer.1 answer.2 := by
  constructor
  · intro read found
    obtain ⟨text, deadline, expired, rfl, same⟩ := uploadedAnalysis_some found
    rw [summarize_truthful, same]
  · intro answer found
    obtain ⟨session, rfl, answered⟩ := Option.bind_eq_some_iff.mp found
    clear found
    dsimp only at answered
    split at answered
    · cases answered
    · next some =>
        obtain rfl := Option.some.inj answered
        exact captureRead_truthful (said_received session _ some _) _

def exampleUpload : TextUpload := ⟨"upload", "sha256", 1, 1000⟩

def exampleMedia : MediaAnalysis := ⟨1, .published, none, false⟩

def exampleSpeech : SpeechRead :=
  ⟨.completed, none, some ⟨"groq", "model", 1, "settings"⟩, [⟨"Water is wet.", 0, 900, .media⟩]⟩

def emptyCompletion : TextCompletion where
  uploadId := "upload"
  sourceSha256 := "sha256"
  recognizer := none
  sampling := none
  batchCount := 0
  droppedFrames := 0
  cappedFrames := 0
  unfinishedFrames := 0

def exampleSession : CaptureSession :=
  ⟨"capture", 1, "key", 10000, false, 0, none, 0, none, none⟩

def exampleChunk : CaptureChunk :=
  ⟨"capture", 0, 10000, 1, "sha256", "application/zip", .both, "key", some 0, some 1⟩

def exampleFrame (framePts : Nat) (status : FrameStatus) : TextFrame :=
  ⟨framePts, status, 1, 20, 0, []⟩

def exampleDocument (frames : List TextFrame) : TextDocument where
  jobId := 2
  mediaJobId := 1
  batches := [⟨0, ⟨⟨"upload", "sha256", none, none⟩, frames⟩⟩]
  completion := some { emptyCompletion with batchCount := 1 }

def exampleAnalysis (frames : List TextFrame) : Option AnalysisRead :=
  uploadedAnalysis exampleUpload (some exampleMedia) (some (exampleDocument frames))
    (some ⟨.queued, false⟩) exampleSpeech

/-- A frame that failed is a gap as long as another one was read. -/
theorem analysis_truthful_iff_example :
    (∃ read, exampleAnalysis [exampleFrame 0 .failed, exampleFrame 500 .noTextRegions] = some read ∧
      read.status = .partially ∧ Truthful exampleSpeech read) ∧
    (∃ read, exampleAnalysis [exampleFrame 0 .failed, exampleFrame 500 .failed] = some read ∧
      ¬ Truthful exampleSpeech read) ∧
    ∃ answer, captureAnalysis (fun sha256 _ => sha256) (fun id _ => id) (some exampleSession)
      [exampleChunk] [] = some answer ∧ Truthful answer.1 answer.2 := by
  have each (frames : List TextFrame) := analysis_truthful_iff (fun sha256 _ => sha256)
    (fun id _ => id) exampleUpload (some exampleMedia) (some (exampleDocument frames))
    (some ⟨.queued, false⟩) exampleSpeech (some exampleSession) [exampleChunk] []
  have received : receivedInOrder [exampleChunk] = [exampleChunk] := by
    rw [receivedInOrder, show [exampleChunk].filter isReceived = [exampleChunk] from rfl,
      List.mergeSort_singleton]
  have answered : (captureAnalysis (fun sha256 _ => sha256) (fun id _ => id)
      (some exampleSession) [exampleChunk] []).isSome = true := by
    simp [captureAnalysis, received]
  obtain ⟨answer, found⟩ := Option.isSome_iff_exists.mp answered
  refine ⟨⟨_, rfl, rfl, ((each _).1 _ rfl).mpr ?_⟩, ⟨_, rfl, fun truthful => ?_⟩, answer, found,
    (each []).2 answer found⟩
  · rintro ⟨current, same, -, failed⟩
    cases same
    exact absurd (failed (exampleFrame 500 .noTextRegions) (by decide)) (by decide)
  · refine ((each _).1 _ rfl).mp truthful ⟨_, rfl, rfl, ?_⟩
    decide

/-- The client completes a delivery without a batch: the text is in no list, and the analysis is
complete. -/
theorem empty_delivery_vanishes :
    ∃ read, uploadedAnalysis exampleUpload (some exampleMedia)
        (deliver exampleUpload none (⟨none, 2⟩, .complete emptyCompletion)) (some ⟨.queued, false⟩)
        exampleSpeech = some read ∧
      read.status = .complete ∧ read.analyzedModalities = [.speech] ∧
      read.pendingModalities = [] ∧ read.unavailableModalities = [] ∧
      ¬ Truthful exampleSpeech read := by
  refine ⟨_, rfl, rfl, rfl, rfl, rfl, fun truthful => ?_⟩
  rcases truthful.listed .text with analyzed | pending | unavailable
  · exact absurd analyzed (by decide)
  · exact absurd pending (by decide)
  · exact absurd unavailable (by decide)

end Reads

end Ovrly.Pipeline.Analysis
