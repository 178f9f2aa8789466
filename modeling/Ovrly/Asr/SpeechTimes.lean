import Ovrly.Asr.Speech

/-!
Speech times stay inside the audio, and inside the chunk that recorded it, up to the observations
that reach extraction.
-/

namespace Ovrly.Asr

open Ovrly.Reports (Timebase)
open Ovrly.Extraction (Observation blank)

/-- A nonempty interval `[startMs, endMs)` between two times. -/
def Within (first last startMs endMs : Int) : Prop :=
  first ≤ startMs ∧ startMs < endMs ∧ endMs ≤ last

theorem roundHalfEven_nonneg {value : ℚ} (nonneg : 0 ≤ value) : 0 ≤ roundHalfEven value := by
  have floor : (0 : Int) ≤ ⌊value⌋ := Int.floor_nonneg.mpr nonneg
  unfold roundHalfEven
  dsimp only
  split
  · exact floor
  · split
    · omega
    · split <;> omega

section Segments

variable {durationMs offsetMs : Int}

theorem segment_within (positive : 0 < durationMs) {fields : List (String × Json)}
    {found : Segment} (accepted : segment durationMs offsetMs fields = some found) :
    Within offsetMs (offsetMs + durationMs) found.startMs found.endMs := by
  unfold segment at accepted
  split at accepted
  · next start stop text _ _ _ =>
      split at accepted
      · cases accepted
      · next checked =>
          have begins : 0 ≤ start := by
            by_contra negative
            exact checked (Or.inl fun ordered => negative ordered.1)
          have rounded := roundHalfEven_nonneg (mul_nonneg begins (by norm_num : (0 : ℚ) ≤ 1000))
          dsimp only at accepted
          split at accepted
          · cases accepted
          · next ordered =>
              obtain rfl := (Option.some.inj accepted).symm
              unfold Within
              dsimp only
              omega
  · cases accepted

theorem mem_mapM {α β : Type} {step : α → Option β} {items : List α} {results : List β}
    (mapped : items.mapM step = some results) :
    List.Forall₂ (fun item result => step item = some result) items results := by
  induction items generalizing results with
  | nil =>
      obtain rfl : [] = results := Option.some.inj mapped
      exact List.Forall₂.nil
  | cons item items ih =>
      rw [List.mapM_cons] at mapped
      cases first : step item with
      | none => simp [first] at mapped
      | some result =>
          cases rest : items.mapM step with
          | none => simp [first, rest] at mapped
          | some others =>
              simp only [first, rest, Option.bind_eq_bind, Option.bind_some,
                Option.pure_def, Option.some.injEq] at mapped
              rw [← mapped]
              exact List.Forall₂.cons first (ih rest)

theorem exists_of_forall₂ {α β : Type} {related : α → β → Prop} {items : List α}
    {results : List β} (pairs : List.Forall₂ related items results) {result : β}
    (member : result ∈ results) : ∃ item, related item result := by
  induction pairs with
  | nil => cases member
  | cons first _ ih =>
      rcases List.mem_cons.mp member with rfl | later
      · exact ⟨_, first⟩
      · exact ih later

theorem segments_within (positive : 0 < durationMs) {data : Json} {found : List Segment}
    (accepted : segments durationMs offsetMs data = some found) :
    ∀ item ∈ found, Within offsetMs (offsetMs + durationMs) item.startMs item.endMs := by
  unfold segments at accepted
  split at accepted
  · split at accepted
    · split at accepted
      · cases accepted
      · intro item member
        obtain ⟨source, step⟩ := exists_of_forall₂ (mem_mapM accepted) member
        unfold segmentItem at step
        split at step
        · exact segment_within positive step
        · cases step
    · cases accepted
  · cases accepted

theorem captureSegments_within {chunkEnd : Int} (nonempty : offsetMs < chunkEnd)
    {found : List Segment}
    (within : ∀ item ∈ found, Within offsetMs (offsetMs + durationMs) item.startMs item.endMs) :
    ∀ item ∈ captureSegments chunkEnd found, Within offsetMs chunkEnd item.startMs item.endMs := by
  intro item member
  obtain ⟨segment, listed, rfl⟩ := List.mem_map.mp member
  have bounds := within segment listed
  unfold Within at bounds ⊢
  dsimp only
  omega

end Segments

section Pieces

theorem pieces_flatten (text : List Char) : (pieces text).flatten = text := by
  have joined : ∀ count, ((List.range count).map fun index =>
      (text.drop (index * observationMaxChars)).take observationMaxChars).flatten =
        text.take (count * observationMaxChars) := by
    intro count
    induction count with
    | zero => simp
    | succ count ih =>
        rw [List.range_succ, List.map_append, List.flatten_append, ih, Nat.add_mul, Nat.one_mul,
          List.take_add]
        simp
  rw [pieces, joined, List.take_of_length_le]
  unfold observationMaxChars
  omega

theorem pieces_length (text : List Char) : (pieces text).length ≤ text.length := by
  rw [pieces, List.length_map, List.length_range]
  unfold observationMaxChars
  omega

theorem length_piece {text piece : List Char} (member : piece ∈ pieces text) :
    piece.length ≤ 8000 := by
  obtain ⟨index, _, rfl⟩ := List.mem_map.mp member
  exact List.length_take_le _ _

end Pieces

section Identifiers

theorem digits_then {first second rest other : List Char}
    (digits : ∀ character ∈ first, character.isDigit = true)
    (others : ∀ character ∈ second, character.isDigit = true)
    (ends : rest.head?.all (!·.isDigit)) (stops : other.head?.all (!·.isDigit))
    (same : first ++ rest = second ++ other) : first = second ∧ rest = other := by
  have taken : ∀ {front back : List Char}, (∀ character ∈ front, character.isDigit = true) →
      back.head?.all (!·.isDigit) → (front ++ back).takeWhile Char.isDigit = front := by
    intro front back all stop
    rw [List.takeWhile_append_of_pos (by simpa using all)]
    cases back with
    | nil => simp
    | cons character back =>
        rw [List.takeWhile_cons_of_neg (by simpa using stop), List.append_nil]
  have front : first = second := by
    rw [← taken digits ends, same, taken others stops]
  subst front
  exact ⟨rfl, List.append_cancel_left same⟩

theorem digits_toString (number : Nat) :
    ∀ character ∈ (toString number).toList, character.isDigit = true := by
  rw [Nat.toString_eq_ofList_toDigits, String.toList_ofList]
  exact fun character member => Nat.isDigit_of_mem_toDigits (by decide) (by decide) member

theorem toString_injective {number other : Nat}
    (same : (toString number).toList = (toString other).toList) : number = other :=
  Nat.repr_injective (String.toList_inj.mp same)

theorem speechId_injective {label : String} {index other parts pieces part piece : Nat}
    (same : speechId label index parts part = speechId label other pieces piece) :
    index = other ∧ (1 < parts → 1 < pieces → part = piece) := by
  have texts := congrArg String.toList same
  simp only [speechId, String.toList_append, List.append_assoc] at texts
  have rest := List.append_cancel_left (List.append_cancel_left texts)
  have suffix : ∀ many (number : Nat), ((if 1 < many then ":" ++ toString number
      else "").toList.head?.all (!·.isDigit)) = true := by
    intro many number
    split
    · rw [String.toList_append]
      rfl
    · rfl
  obtain ⟨digits, tails⟩ := digits_then (digits_toString index) (digits_toString other)
    (suffix parts part) (suffix pieces piece) rest
  refine ⟨toString_injective digits, fun several more => ?_⟩
  rw [if_pos several, if_pos more, String.toList_append, String.toList_append] at tails
  exact toString_injective (List.append_cancel_left tails)

theorem toString_length {number : Nat} (small : number < 10 ^ 19) :
    (toString number).length ≤ 19 :=
  (Nat.length_repr_le_iff (by decide)).mpr small

theorem speechId_length {label : String} {index parts part : Nat} (short : label.length ≤ 150)
    (first : index < 10 ^ 19) (second : part < 10 ^ 19) :
    1 ≤ (speechId label index parts part).length ∧
      (speechId label index parts part).length ≤ 200 := by
  have digits := toString_length first
  have more := toString_length second
  have colon : (":speech:" : String).length = 8 := rfl
  have mark : (":" : String).length = 1 := rfl
  unfold speechId
  split
  · simp only [String.length_append, colon, mark]
    omega
  · simp only [String.length_append, colon, String.length_empty]
    omega

theorem speechId_spoken (label : String) (index parts part : Nat) :
    blank (speechId label index parts part).toList = false := by
  have colon : ':' ∈ (speechId label index parts part).toList := by
    simp only [speechId, String.toList_append, List.mem_append]
    exact Or.inl (Or.inl (Or.inr (by decide)))
  rw [blank, List.all_eq_false]
  exact ⟨':', colon, by decide⟩

end Identifiers

section Observing

/-- The observations of a segment: its interval, and its text without blank pieces. -/
structure SpokenOf (segment : SpeechSegment) (found : List Observation) : Prop where
  times : ∀ item ∈ found, (item.startMs : Int) = segment.startMs ∧
    (item.endMs : Int) = segment.endMs
  target : ∀ item ∈ found, item.timebase = segment.timebase ∧ item.role = .target ∧
    item.modality = .speech ∧ item.speakerId = none
  named : ∀ item ∈ found, 1 ≤ item.id.length ∧ item.id.length ≤ 200 ∧
    blank item.id.toList = false
  text : ∃ cut : List (List Char), cut.flatten = segment.text.toList ∧
    found.map (·.text.toList) = cut.filter (!blank ·)

structure Observed (stored : List SpeechSegment) (observations : List Observation) : Prop where
  distinct : (observations.map (·.id)).Nodup
  ordered : ∃ groups, observations = groups.flatten ∧ List.Forall₂ SpokenOf stored groups

theorem spoken_some (timebase : Timebase) {id : String} {text : List Char} {startMs endMs : Int}
    (named : 1 ≤ id.length ∧ id.length ≤ 200) (visible : blank id.toList = false)
    (short : text.length ≤ 8000) (said : blank text = false) (begins : 0 ≤ startMs)
    (ordered : startMs < endMs) :
    ∃ item, spoken id text timebase startMs endMs = some item ∧ item.id = id ∧
      item.text.toList = text ∧ (item.startMs : Int) = startMs ∧ (item.endMs : Int) = endMs ∧
      item.timebase = timebase ∧ item.role = .target ∧ item.modality = .speech ∧
      item.speakerId = none := by
  unfold spoken
  rw [if_neg (by simp [named, visible]), dif_pos short, dif_pos said, dif_pos ⟨begins, ordered⟩]
  refine ⟨_, rfl, rfl, String.toList_ofList, ?_, ?_, rfl, rfl, rfl, rfl⟩
  · exact Int.toNat_of_nonneg begins
  · exact Int.toNat_of_nonneg (by omega)

variable {label : String}

theorem mapM_some {α β : Type} {step : α → Option β} {related : α → β → Prop} {items : List α}
    (each : ∀ item ∈ items, ∃ result, step item = some result ∧ related item result) :
    ∃ results, items.mapM step = some results ∧ List.Forall₂ related items results := by
  induction items with
  | nil => exact ⟨[], rfl, List.Forall₂.nil⟩
  | cons item items ih =>
      obtain ⟨result, first, holds⟩ := each item (by simp)
      obtain ⟨results, rest, all⟩ := ih fun other member => each other (by simp [member])
      exact ⟨result :: results, by simp [List.mapM_cons, first, rest],
        List.Forall₂.cons holds all⟩

theorem map_eq_of_forall₂ {α β γ : Type} {left : α → γ} {right : β → γ} {items : List α}
    {results : List β} (pairs : List.Forall₂ (fun item result => right result = left item) items
      results) : results.map right = items.map left := by
  induction pairs with
  | nil => rfl
  | cons same _ ih => rw [List.map_cons, List.map_cons, same, ih]

def kept (segment : SpeechSegment) : List (List Char × Nat) :=
  (pieces segment.text.toList).zipIdx.filter fun piece => !blank piece.1

theorem kept_texts (segment : SpeechSegment) :
    (kept segment).map Prod.fst = (pieces segment.text.toList).filter (!blank ·) := by
  conv_rhs => rw [← List.zipIdx_map_fst 0 (pieces segment.text.toList), List.filter_map]
  rfl

theorem kept_parts (segment : SpeechSegment) : ((kept segment).map Prod.snd).Nodup := by
  have all : ((pieces segment.text.toList).zipIdx.map Prod.snd).Nodup := by
    rw [List.zipIdx_map_snd]
    exact List.nodup_range'
  exact all.sublist (List.filter_sublist.map _)

/-- An observation of one piece of a segment. -/
structure PieceOf (label : String) (segment : SpeechSegment) (index : Nat)
    (piece : List Char × Nat) (item : Observation) : Prop where
  id : item.id = speechId label index (pieces segment.text.toList).length piece.2
  text : item.text.toList = piece.1
  times : (item.startMs : Int) = segment.startMs ∧ (item.endMs : Int) = segment.endMs
  target : item.timebase = segment.timebase ∧ item.role = .target ∧ item.modality = .speech ∧
    item.speakerId = none
  named : 1 ≤ item.id.length ∧ item.id.length ≤ 200 ∧ blank item.id.toList = false

theorem segmentObservations_some (short : label.length ≤ 150) {segment : SpeechSegment}
    {index : Nat} (begins : 0 ≤ segment.startMs) (ordered : segment.startMs < segment.endMs)
    (indexed : index < 10 ^ 19) (sized : segment.text.length ≤ 2 ^ 63) :
    ∃ found, segmentObservations label segment index = some found ∧
      List.Forall₂ (PieceOf label segment index) (kept segment) found := by
  have small : (pieces segment.text.toList).length < 10 ^ 19 := by
    have bound := pieces_length segment.text.toList
    rw [String.length_toList] at bound
    omega
  have later : max segment.endMs (segment.startMs + 1) = segment.endMs := by omega
  have each : ∀ piece ∈ kept segment, ∃ item, spoken
      (speechId label index (pieces segment.text.toList).length piece.2) piece.1 segment.timebase
        segment.startMs (max segment.endMs (segment.startMs + 1)) = some item ∧
      PieceOf label segment index piece item := by
    intro piece member
    obtain ⟨listed, said⟩ := List.mem_filter.mp member
    have among := List.fst_mem_of_mem_zipIdx listed
    have numbered : piece.2 < (pieces segment.text.toList).length := by
      have bound := List.mem_zipIdx listed
      omega
    have named : 1 ≤ (speechId label index (pieces segment.text.toList).length piece.2).length ∧
        (speechId label index (pieces segment.text.toList).length piece.2).length ≤ 200 :=
      speechId_length short indexed (numbered.trans small)
    have visible := speechId_spoken label index (pieces segment.text.toList).length piece.2
    rw [later]
    obtain ⟨item, built, id, text, start, stop, timebase, role, modality, speaker⟩ :=
      spoken_some segment.timebase named visible (length_piece among) (by simpa using said)
        begins ordered
    refine ⟨item, built, id, text, ⟨start, stop⟩, ⟨timebase, role, modality, speaker⟩, ?_⟩
    rw [id]
    exact ⟨named.1, named.2, visible⟩
  exact mapM_some each

theorem PieceOf.spokenOf {segment : SpeechSegment} {index : Nat} {found : List Observation}
    (pairs : List.Forall₂ (PieceOf label segment index) (kept segment) found) :
    SpokenOf segment found := by
  have every : ∀ item ∈ found, ∃ piece, PieceOf label segment index piece item := fun item member =>
    exists_of_forall₂ pairs member
  refine ⟨?_, ?_, ?_, pieces segment.text.toList, pieces_flatten _, ?_⟩
  · intro item member
    obtain ⟨piece, holds⟩ := every item member
    exact holds.times
  · intro item member
    obtain ⟨piece, holds⟩ := every item member
    exact holds.target
  · intro item member
    obtain ⟨piece, holds⟩ := every item member
    exact holds.named
  · rw [← kept_texts]
    exact map_eq_of_forall₂ (pairs.imp fun _ _ holds => holds.text)

theorem PieceOf.ids {segment : SpeechSegment} {index : Nat} {found : List Observation}
    (pairs : List.Forall₂ (PieceOf label segment index) (kept segment) found) :
    found.map (·.id) = ((kept segment).map Prod.snd).map
      (speechId label index (pieces segment.text.toList).length) := by
  rw [List.map_map]
  exact map_eq_of_forall₂ (pairs.imp fun _ _ holds => holds.id)

theorem PieceOf.distinct {segment : SpeechSegment} {index : Nat} {found : List Observation}
    (pairs : List.Forall₂ (PieceOf label segment index) (kept segment) found) :
    (found.map (·.id)).Nodup := by
  rw [PieceOf.ids pairs]
  have bounded : ∀ part ∈ (kept segment).map Prod.snd,
      part < (pieces segment.text.toList).length := by
    intro part member
    obtain ⟨piece, listed, rfl⟩ := List.mem_map.mp member
    have bound := List.mem_zipIdx (List.mem_of_mem_filter listed)
    omega
  refine List.Nodup.map_on ?_ (kept_parts segment)
  intro first firstMember second secondMember same
  have belowFirst := bounded first firstMember
  have belowSecond := bounded second secondMember
  by_cases several : 1 < (pieces segment.text.toList).length
  · exact (speechId_injective same).2 several several
  · omega

def Grouped (label : String) (stored : List SpeechSegment) (first : Nat)
    (groups : List (List Observation)) : Prop :=
  List.Forall₂ (fun item group => List.Forall₂ (PieceOf label item.1 item.2) (kept item.1) group)
    (stored.zipIdx first) groups

theorem Grouped.distinct {stored : List SpeechSegment} {first : Nat}
    {groups : List (List Observation)} (grouped : Grouped label stored first groups) :
    (groups.flatten.map (·.id)).Nodup ∧ ∀ item ∈ groups.flatten, ∃ index parts part,
      first ≤ index ∧ item.id = speechId label index parts part := by
  induction stored generalizing first groups with
  | nil =>
      cases grouped
      simp
  | cons segment stored ih =>
      unfold Grouped at grouped
      rw [List.zipIdx_cons] at grouped
      cases grouped with
      | cons pairs rest =>
          next group others =>
            obtain ⟨distinct, later⟩ := ih rest
            have named : ∀ item ∈ group, ∃ parts part,
                item.id = speechId label first parts part := by
              intro item member
              obtain ⟨piece, holds⟩ := exists_of_forall₂ pairs member
              exact ⟨_, _, holds.id⟩
            rw [List.flatten_cons, List.map_append, List.nodup_append]
            refine ⟨⟨PieceOf.distinct pairs, distinct, ?_⟩, ?_⟩
            · rintro id here id' there rfl
              obtain ⟨item, member, rfl⟩ := List.mem_map.mp here
              obtain ⟨other, among, same⟩ := List.mem_map.mp there
              obtain ⟨parts, part, isItem⟩ := named item member
              obtain ⟨index, pieces, piece, bound, isOther⟩ := later other among
              have equal := (speechId_injective (isItem.symm.trans (same.symm.trans isOther))).1
              omega
            · intro item member
              rcases List.mem_append.mp member with here | there
              · obtain ⟨parts, part, isItem⟩ := named item here
                exact ⟨first, parts, part, Nat.le_refl _, isItem⟩
              · obtain ⟨index, parts, part, bound, isItem⟩ := later item there
                exact ⟨index, parts, part, by omega, isItem⟩

theorem speechObservations_some (short : label.length ≤ 150) {stored : List SpeechSegment}
    (times : ∀ item ∈ stored, 0 ≤ item.startMs ∧ item.startMs < item.endMs)
    (sized : ∀ item ∈ stored, item.text.length ≤ 2 ^ 63) (count : stored.length ≤ 2 ^ 63) :
    ∃ observations, speechObservations label (.completed stored) = some observations ∧
      Observed stored observations := by
  have each : ∀ item ∈ stored.zipIdx, ∃ group, segmentObservations label item.1 item.2 = some group ∧
      List.Forall₂ (PieceOf label item.1 item.2) (kept item.1) group := by
    intro item member
    have listed := List.fst_mem_of_mem_zipIdx member
    have bound := List.mem_zipIdx member
    exact segmentObservations_some short (times _ listed).1 (times _ listed).2 (by omega)
      (sized _ listed)
  obtain ⟨groups, mapped, pairs⟩ := mapM_some each
  have grouped : Grouped label stored 0 groups := pairs
  refine ⟨groups.flatten, ?_, grouped.distinct.1, groups, rfl, ?_⟩
  · rw [speechObservations, mapped]
    rfl
  · rw [← List.zipIdx_map_fst 0 stored, List.forall₂_map_left_iff]
    exact pairs.imp fun _ _ holds => PieceOf.spokenOf holds

end Observing

/-- Speech times stay inside the audio and inside the chunk. A list or a text of Python has fewer
than `2 ^ 63` items, and producers label observations with far fewer than 150 characters. -/
theorem speech_times (data : Json) (durationMs offsetMs : Int) (positive : 0 < durationMs)
    (nonneg : 0 ≤ offsetMs) (found : List Segment)
    (accepted : segments durationMs offsetMs data = some found) :
    (∀ item ∈ found, Within offsetMs (offsetMs + durationMs) item.startMs item.endMs) ∧
      (∀ chunkEnd, offsetMs < chunkEnd → ∀ item ∈ captureSegments chunkEnd found,
        Within offsetMs chunkEnd item.startMs item.endMs) ∧
      ∀ stored, (stored = mediaSegments found ∨
          ∃ chunkEnd, offsetMs < chunkEnd ∧ stored = captureSegments chunkEnd found) →
        stored.length ≤ 2 ^ 63 → (∀ item ∈ stored, item.text.length ≤ 2 ^ 63) →
        ∀ label : String, label.length ≤ 150 →
          ∃ observations, speechObservations label (.completed stored) = some observations ∧
            Observed stored observations := by
  have within := segments_within positive accepted
  refine ⟨within, fun chunkEnd nonempty => captureSegments_within nonempty within, ?_⟩
  intro stored origin count sized label short
  refine speechObservations_some short ?_ sized count
  rcases origin with rfl | ⟨chunkEnd, nonempty, rfl⟩
  · intro item member
    obtain ⟨segment, listed, rfl⟩ := List.mem_map.mp member
    have bounds := within segment listed
    exact ⟨nonneg.trans bounds.1, bounds.2.1⟩
  · intro item member
    have bounds := captureSegments_within nonempty within item member
    exact ⟨nonneg.trans bounds.1, bounds.2.1⟩

section Example

/-- The prefixes that producers give to observations: `upload`, and one for each chunk. -/
def captureLabel (seq : Nat) : String := "capture:" ++ toString seq

theorem captureLabel_length {seq : Nat} (small : seq < 10 ^ 19) :
    (captureLabel seq).length ≤ 150 := by
  have digits := toString_length small
  have name : ("capture:" : String).length = 8 := rfl
  rw [captureLabel, String.length_append, name]
  omega

def lateSpeech : Json :=
  .object [("text", .string "Sleep improves memory. It does."),
    ("segments", .array [
      .object [("start", .number (1 / 2)), ("end", .number (37 / 10)),
        ("text", .string "Sleep improves memory.")],
      .object [("start", .number (99999 / 10000)), ("end", .number (21 / 2)),
        ("text", .string "It does.")]])]

def lateSegments : List Segment :=
  [⟨10500, 13700, "Sleep improves memory."⟩, ⟨20000, 20250, "It does."⟩]

theorem speech_times_example :
    captureSegments 20000 lateSegments =
        [⟨"Sleep improves memory.", 10500, 13700, .capture⟩, ⟨"It does.", 19999, 20000, .capture⟩] ∧
      (∀ item ∈ captureSegments 20000 lateSegments, Within 10000 20000 item.startMs item.endMs) ∧
      ∃ observations, speechObservations (captureLabel 1)
        (.completed (captureSegments 20000 lateSegments)) = some observations ∧
      Observed (captureSegments 20000 lateSegments) observations := by
  obtain ⟨-, within, observed⟩ := speech_times lateSpeech 10250 10000 (by decide) (by decide)
    lateSegments (by decide +kernel)
  exact ⟨by decide, within 20000 (by decide), observed (captureSegments 20000 lateSegments)
    (Or.inr ⟨20000, by decide, rfl⟩) (by decide) (by decide) (captureLabel 1)
    (captureLabel_length (by decide))⟩

end Example

end Ovrly.Asr
