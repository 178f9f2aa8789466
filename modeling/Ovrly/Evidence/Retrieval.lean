import Ovrly.Extraction.Grounding
import Ovrly.PyText

/-!
Queries and hits of the retrieval for one claim (`evidence/retrieval.py`, `Paper` of
`providers/papers.py`).

`str.lower` is a parameter: nothing below depends on which characters it maps.
-/

namespace Ovrly.Evidence

open Ovrly.Extraction (isSpace)

section Papers

structure Paper where
  title : String
  summary : String
  doi : Option String
  arxivId : Option String
  deriving DecidableEq, Repr

/-- A text before the newline it may end with: what `$` matches at. -/
def beforeNewline (text : List Char) : List Char :=
  if text.getLast? = some '\n' then text.dropLast else text

/-- `v(\d+)$`: the digits, and the text without the match. -/
def versionMatch (text : List Char) : Option (List Char × List Char) :=
  let body := beforeNewline text
  let digits := (body.reverse.takeWhile fun character => (PyText.digit? character).isSome).reverse
  let before := body.take (body.length - digits.length)
  if digits.isEmpty || before.getLast? ≠ some 'v' then none
  else some (digits, before.dropLast ++ text.drop body.length)

/-- `re.IGNORECASE` for a lower-case letter of the pattern. -/
def caseless (letter character : Char) : Bool :=
  character == letter || character.toLower == letter ||
    (letter == 'i' && (character.toNat == 0x130 || character.toNat == 0x131))

/-- `^10\.48550/arxiv\.(.+)$`, ignoring case. -/
def arxivDoi? (doi : List Char) : Option (List Char) :=
  let literal := "10.48550/arxiv.".toList
  if doi.length < literal.length ∨ (List.zipWith caseless literal doi).all id = false then none
  else
    let rest := beforeNewline (doi.drop literal.length)
    if rest.isEmpty || rest.contains '\n' then none else some rest

def present (field : Option String) : Option String := field.filter (· ≠ "")

def Paper.origin (lower : String → String) (paper : Paper) : String :=
  let arxivDoi := (present paper.doi).bind fun doi => arxivDoi? doi.toList
  match present paper.doi, arxivDoi with
  | some doi, none => "doi:" ++ lower doi
  | _, _ =>
      match present ((present paper.arxivId).or (arxivDoi.map String.ofList)) with
      | some arxivId =>
          "arxiv:" ++ lower (((versionMatch arxivId.toList).map fun found =>
            String.ofList found.2).getD arxivId)
      | none =>
          "title:" ++ String.ofList (PyText.join (PyText.split isSpace (lower paper.title).toList))

def version (paper : Paper) : Nat :=
  ((versionMatch (paper.arxivId.getD "").toList).map fun found =>
    PyText.digitsValue found.1).getD 0

end Papers

inductive QueryKind
  | neutral
  | disconfirming
  deriving DecidableEq, Repr

section Dedupe

/-- One work in the dictionaries of `dedupe`: its origin, the paper kept and the kinds of the
queries that found it. -/
structure Work where
  origin : String
  paper : Paper
  kinds : List QueryKind
  deriving DecidableEq, Repr

variable (origin : Paper → String)

def latest (kept paper : Paper) : Paper :=
  if version paper > version kept ∨ (kept.summary = "" ∧ paper.summary ≠ "") then paper else kept

def noteKind (kinds : List QueryKind) (kind : QueryKind) : List QueryKind :=
  if kinds.contains kind then kinds else kinds ++ [kind]

/-- The body of the loop of `dedupe`. -/
def addHit (works : List Work) (hit : QueryKind × Paper) : List Work :=
  if works.any (·.origin == origin hit.2) then
    works.map fun work => if work.origin = origin hit.2 then
      { work with paper := latest work.paper hit.2, kinds := noteKind work.kinds hit.1 } else work
  else works ++ [⟨origin hit.2, hit.2, [hit.1]⟩]

def dedupe (found : List (QueryKind × Paper)) : List (Paper × List QueryKind) :=
  (found.foldl (addHit origin) []).map fun work => (work.paper, work.kinds)

def hitsOf (found : List (QueryKind × Paper)) (work : String) : List Paper :=
  (found.map Prod.snd).filter fun paper => origin paper == work

def keptOf (papers : List Paper) : Option Paper :=
  match papers with
  | [] => none
  | first :: rest => some (rest.foldl latest first)

def firstAppearances (found : List (QueryKind × Paper)) : List String :=
  ((found.map fun hit => origin hit.2).reverse.dedup).reverse

variable {origin}

theorem keptOf_concat (papers : List Paper) (paper : Paper) :
    keptOf (papers ++ [paper]) = some ((keptOf papers).elim paper (latest · paper)) := by
  cases papers with
  | nil => rfl
  | cons first rest => simp [keptOf, List.foldl_append]

theorem hitsOf_concat (found : List (QueryKind × Paper)) (hit : QueryKind × Paper) (work : String) :
    hitsOf origin (found ++ [hit]) work =
      hitsOf origin found work ++ if origin hit.2 = work then [hit.2] else [] := by
  by_cases same : origin hit.2 = work <;> simp [hitsOf, same]

theorem firstAppearances_concat (found : List (QueryKind × Paper)) (hit : QueryKind × Paper) :
    firstAppearances origin (found ++ [hit]) =
      if origin hit.2 ∈ found.map (fun hit => origin hit.2) then firstAppearances origin found
      else firstAppearances origin found ++ [origin hit.2] := by
  unfold firstAppearances
  rw [List.map_append, List.map_singleton, List.reverse_append, List.reverse_singleton,
    List.singleton_append]
  by_cases known : origin hit.2 ∈ found.map fun hit => origin hit.2
  · rw [if_pos known, List.dedup_cons_of_mem (List.mem_reverse.mpr known)]
  · rw [if_neg known, List.dedup_cons_of_notMem (fun member => known (List.mem_reverse.mp member)),
      List.reverse_cons]

structure Gathered (origin : Paper → String) (found : List (QueryKind × Paper))
    (works : List Work) : Prop where
  order : works.map (·.origin) = firstAppearances origin found
  paper : ∀ work ∈ works, keptOf (hitsOf origin found work.origin) = some work.paper
  kinds : ∀ work ∈ works, work.kinds.Nodup ∧ ∀ kind, kind ∈ work.kinds ↔
    ∃ hit ∈ found, hit.1 = kind ∧ origin hit.2 = work.origin

theorem mem_firstAppearances {found : List (QueryKind × Paper)} {work : String} :
    work ∈ firstAppearances origin found ↔ ∃ hit ∈ found, origin hit.2 = work := by
  simp [firstAppearances]

theorem mem_noteKind {kinds : List QueryKind} {kind other : QueryKind} :
    other ∈ noteKind kinds kind ↔ other ∈ kinds ∨ other = kind := by
  unfold noteKind
  by_cases known : kinds.contains kind = true
  · rw [if_pos known]
    have member : kind ∈ kinds := by simpa using known
    constructor
    · exact Or.inl
    · rintro (listed | rfl)
      · exact listed
      · exact member
  · rw [if_neg known, List.mem_append, List.mem_singleton]

theorem noteKind_nodup {kinds : List QueryKind} (distinct : kinds.Nodup) (kind : QueryKind) :
    (noteKind kinds kind).Nodup := by
  unfold noteKind
  by_cases known : kinds.contains kind = true
  · rw [if_pos known]
    exact distinct
  · rw [if_neg known]
    have absent : kind ∉ kinds := by simpa using known
    exact List.nodup_append.mpr ⟨distinct, List.nodup_singleton _, fun other member single listed =>
      fun same => absent (by rw [List.mem_singleton.mp listed] at same; exact same ▸ member)⟩

theorem Gathered.add {found : List (QueryKind × Paper)} {works : List Work}
    (gathered : Gathered origin found works) (hit : QueryKind × Paper) :
    Gathered origin (found ++ [hit]) (addHit origin works hit) := by
  have listed : works.any (·.origin == origin hit.2) = true ↔
      origin hit.2 ∈ found.map fun hit => origin hit.2 := by
    rw [List.any_eq_true]
    have order := gathered.order
    constructor
    · rintro ⟨work, member, same⟩
      have appears : work.origin ∈ firstAppearances origin found := by
        rw [← order]
        exact List.mem_map_of_mem member
      obtain ⟨other, found, equal⟩ := mem_firstAppearances.mp appears
      exact List.mem_map.mpr ⟨other, found, equal.trans (beq_iff_eq.mp same)⟩
    · intro known
      obtain ⟨other, member, same⟩ := List.mem_map.mp known
      have appears : origin hit.2 ∈ works.map (·.origin) := by
        rw [order]
        exact mem_firstAppearances.mpr ⟨other, member, same⟩
      obtain ⟨work, present, equal⟩ := List.mem_map.mp appears
      exact ⟨work, present, beq_iff_eq.mpr equal⟩
  unfold addHit
  by_cases known : works.any (·.origin == origin hit.2) = true
  · rw [if_pos known]
    have kept : ∀ work : Work, (if work.origin = origin hit.2 then
        { work with paper := latest work.paper hit.2, kinds := noteKind work.kinds hit.1 }
        else work).origin = work.origin := by
      intro work
      split <;> rfl
    refine ⟨?_, ?_, ?_⟩
    · rw [firstAppearances_concat, if_pos (listed.mp known), ← gathered.order, List.map_map]
      simp only [Function.comp_def, kept]
    · intro work member
      obtain ⟨before, present, rfl⟩ := List.mem_map.mp member
      rw [kept, hitsOf_concat]
      by_cases same : before.origin = origin hit.2
      · rw [if_pos same, if_pos same.symm, keptOf_concat, gathered.paper before present]
        rfl
      · rw [if_neg same, if_neg fun equal => same equal.symm, List.append_nil]
        exact gathered.paper before present
    · intro work member
      obtain ⟨before, present, rfl⟩ := List.mem_map.mp member
      obtain ⟨distinct, exactly⟩ := gathered.kinds before present
      rw [kept]
      simp only [List.mem_append, List.mem_singleton, or_and_right, exists_or, exists_eq_left]
      by_cases same : before.origin = origin hit.2
      · rw [if_pos same]
        refine ⟨noteKind_nodup distinct hit.1, fun kind => ?_⟩
        rw [mem_noteKind, exactly]
        simp only [same, and_true, eq_comm]
      · rw [if_neg same]
        refine ⟨distinct, fun kind => ?_⟩
        rw [exactly]
        constructor
        · exact Or.inl
        · exact fun either => either.resolve_right fun both => same both.2.symm
  · rw [if_neg known]
    have absent : origin hit.2 ∉ found.map fun hit => origin hit.2 := fun member =>
      known (listed.mpr member)
    have none : hitsOf origin found (origin hit.2) = [] := by
      refine List.filter_eq_nil_iff.mpr fun paper member same => absent ?_
      obtain ⟨other, present, rfl⟩ := List.mem_map.mp member
      exact List.mem_map.mpr ⟨other, present, beq_iff_eq.mp same⟩
    refine ⟨?_, ?_, ?_⟩
    · rw [firstAppearances_concat, if_neg absent, List.map_append, gathered.order]
      rfl
    · intro work member
      rw [hitsOf_concat]
      rcases List.mem_append.mp member with earlier | new
      · have other : origin hit.2 ≠ work.origin := fun same => known
          (List.any_eq_true.mpr ⟨work, earlier, beq_iff_eq.mpr same.symm⟩)
        rw [if_neg other, List.append_nil]
        exact gathered.paper work earlier
      · rw [List.mem_singleton.mp new, none, if_pos rfl]
        rfl
    · intro work member
      simp only [List.mem_append, List.mem_singleton, or_and_right, exists_or, exists_eq_left]
      rcases List.mem_append.mp member with earlier | new
      · have other : origin hit.2 ≠ work.origin := fun same => known
          (List.any_eq_true.mpr ⟨work, earlier, beq_iff_eq.mpr same.symm⟩)
        obtain ⟨distinct, exactly⟩ := gathered.kinds work earlier
        refine ⟨distinct, fun kind => ?_⟩
        rw [exactly]
        constructor
        · exact Or.inl
        · exact fun either => either.resolve_right fun both => other both.2
      · rw [List.mem_singleton.mp new]
        refine ⟨List.nodup_singleton _, fun kind => ?_⟩
        rw [List.mem_singleton]
        constructor
        · exact fun same => Or.inr ⟨same.symm, rfl⟩
        · rintro (⟨other, present, -, same⟩ | ⟨same, -⟩)
          · exact absurd (List.mem_map.mpr ⟨other, present, same⟩) absent
          · exact same.symm

theorem gathered (found : List (QueryKind × Paper)) :
    Gathered origin found (found.foldl (addHit origin) []) := by
  induction found using List.reverseRecOn with
  | nil =>
      refine ⟨rfl, ?_, ?_⟩
      · intro work member
        simp at member
      · intro work member
        simp at member
  | append_singleton found hit ih =>
      rw [List.foldl_append, List.foldl_cons, List.foldl_nil]
      exact ih.add hit

theorem keptOf_mem {papers : List Paper} {kept : Paper} (found : keptOf papers = some kept) :
    kept ∈ papers := by
  induction papers using List.reverseRecOn generalizing kept with
  | nil => simp [keptOf] at found
  | append_singleton papers paper ih =>
      rw [keptOf_concat] at found
      cases before : keptOf papers with
      | none =>
          rw [before] at found
          obtain rfl : paper = kept := Option.some.inj found
          simp
      | some earlier =>
          rw [before] at found
          obtain rfl : latest earlier paper = kept := Option.some.inj found
          unfold latest
          split
          · simp
          · exact List.mem_append_left _ (ih before)

theorem mem_hitsOf {found : List (QueryKind × Paper)} {work : String} {paper : Paper} :
    paper ∈ hitsOf origin found work ↔ ∃ hit ∈ found, hit.2 = paper ∧ origin paper = work := by
  simp only [hitsOf, List.mem_filter, List.mem_map, beq_iff_eq]
  constructor
  · rintro ⟨⟨hit, member, rfl⟩, same⟩
    exact ⟨hit, member, rfl, same⟩
  · rintro ⟨hit, member, rfl, same⟩
    exact ⟨⟨hit, member, rfl⟩, same⟩

/-- Some paper of the highest version number among the papers has a summary, if any has. -/
def LatestSummarized (papers : List Paper) : Prop :=
  ∀ paper ∈ papers, paper.summary ≠ "" → ∃ last ∈ papers, last.summary ≠ "" ∧
    ∀ other ∈ papers, version other ≤ version last

theorem keptOf_latest_bare {papers : List Paper} {kept : Paper}
    (bare : ∀ paper ∈ papers, paper.summary = "") (found : keptOf papers = some kept) :
    ∀ other ∈ papers, version other ≤ version kept := by
  induction papers using List.reverseRecOn generalizing kept with
  | nil => simp
  | append_singleton papers paper ih =>
      rw [keptOf_concat] at found
      have last : paper.summary = "" := bare paper (by simp)
      intro other member
      cases before : keptOf papers with
      | none =>
          rw [before] at found
          obtain rfl : paper = kept := Option.some.inj found
          cases papers with
          | nil => rw [List.mem_singleton.mp member]
          | cons first rest => simp [keptOf] at before
      | some earlier =>
          rw [before] at found
          obtain rfl : latest earlier paper = kept := Option.some.inj found
          have bound := ih (fun paper member => bare paper (by simp [member])) before
          unfold latest
          rcases List.mem_append.mp member with present | single
          · have := bound other present
            split
            · next newer =>
                rcases newer with newer | ⟨_, summarized⟩
                · omega
                · exact absurd last summarized
            · exact this
          · rw [List.mem_singleton.mp single]
            split
            · exact Nat.le_refl _
            · next older =>
                simp only [not_or] at older
                omega

/-- A summarized paper of the highest version stays, whatever follows it. -/
theorem keptOf_latest_summarized {papers : List Paper} {kept last : Paper}
    (member : last ∈ papers) (summarized : last.summary ≠ "")
    (highest : ∀ other ∈ papers, version other ≤ version last)
    (found : keptOf papers = some kept) :
    version kept = version last ∧ kept.summary ≠ "" := by
  induction papers using List.reverseRecOn generalizing kept with
  | nil => simp at member
  | append_singleton papers paper ih =>
      rw [keptOf_concat] at found
      cases before : keptOf papers with
      | none =>
          rw [before] at found
          obtain rfl : paper = kept := Option.some.inj found
          cases papers with
          | nil =>
              obtain rfl := List.mem_singleton.mp member
              exact ⟨rfl, summarized⟩
          | cons first rest => simp [keptOf] at before
      | some earlier =>
          rw [before] at found
          obtain rfl : latest earlier paper = kept := Option.some.inj found
          have paperBound := highest paper (by simp)
          have earlierBound := highest earlier (by simp [keptOf_mem before])
          by_cases present : last ∈ papers
          · obtain ⟨same, stays⟩ :=
              ih present (fun other listed => highest other (by simp [listed])) before
            rw [latest, if_neg (by rintro (newer | ⟨bare, _⟩) <;> [omega; exact stays bare])]
            exact ⟨same, stays⟩
          · obtain rfl : last = paper := by simpa [present] using member
            unfold latest
            split
            · exact ⟨rfl, summarized⟩
            · next older =>
                simp only [not_or, not_and, not_not] at older
                have stays : earlier.summary ≠ "" := fun bare => summarized (older.2 bare)
                exact ⟨by omega, stays⟩

theorem LatestSummarized.kept {papers other : List Paper} {kept : Paper}
    (condition : LatestSummarized papers) (moved : other.Perm papers)
    (found : keptOf other = some kept) : ∀ paper ∈ papers, version paper ≤ version kept := by
  intro paper member
  by_cases bare : ∀ paper ∈ papers, paper.summary = ""
  · exact keptOf_latest_bare (fun paper listed => bare paper (moved.subset listed)) found paper
      (moved.symm.subset member)
  · push Not at bare
    obtain ⟨one, listed, summarized⟩ := bare
    obtain ⟨last, present, lasting, highest⟩ := condition one listed summarized
    have same := (keptOf_latest_summarized (moved.symm.subset present) lasting
      (fun paper listed => highest paper (moved.subset listed)) found).1
    rw [same]
    exact highest paper member

theorem keptOf_concat_summarized {papers : List Paper} {paper kept : Paper}
    (summarized : paper.summary ≠ "") (found : keptOf (papers ++ [paper]) = some kept) :
    kept.summary ≠ "" := by
  rw [keptOf_concat] at found
  obtain rfl := Option.some.inj found
  cases keptOf papers with
  | none => exact summarized
  | some earlier =>
      rw [Option.elim_some, latest]
      split
      · exact summarized
      · next older =>
          simp only [not_or, not_and, not_not] at older
          exact fun bare => summarized (older.2 bare)

theorem mem_dedupe {found : List (QueryKind × Paper)} {entry : Paper × List QueryKind}
    (member : entry ∈ dedupe origin found) :
    ∃ work ∈ found.foldl (addHit origin) [], work.origin = origin entry.1 ∧
      work.paper = entry.1 ∧ work.kinds = entry.2 := by
  obtain ⟨work, listed, rfl⟩ := List.mem_map.mp member
  have kept := keptOf_mem ((gathered found).paper work listed)
  obtain ⟨_, _, _, same⟩ := mem_hitsOf.mp kept
  exact ⟨work, listed, same.symm, rfl, rfl⟩

theorem dedupe_origins (found : List (QueryKind × Paper)) :
    (dedupe origin found).map (fun entry => origin entry.1) = firstAppearances origin found := by
  rw [← (gathered found).order, dedupe, List.map_map]
  refine List.map_congr_left fun work member => ?_
  obtain ⟨_, _, _, same⟩ := mem_hitsOf.mp (keptOf_mem ((gathered found).paper work member))
  exact same

theorem dedupe_kept {found : List (QueryKind × Paper)} {entry : Paper × List QueryKind}
    (member : entry ∈ dedupe origin found) :
    keptOf (hitsOf origin found (origin entry.1)) = some entry.1 := by
  obtain ⟨work, listed, same, kept, -⟩ := mem_dedupe member
  rw [← same, ← kept]
  exact (gathered found).paper work listed

theorem dedupe_has {found : List (QueryKind × Paper)} {hit : QueryKind × Paper}
    (member : hit ∈ found) :
    ∃ entry ∈ dedupe origin found, origin entry.1 = origin hit.2 := by
  have appears : origin hit.2 ∈ (dedupe origin found).map (fun entry => origin entry.1) := by
    rw [dedupe_origins]
    exact mem_firstAppearances.mpr ⟨hit, member, rfl⟩
  exact List.mem_map.mp appears

/-- What deduplication is for: one entry per work in order of first appearance, with the kinds of
its hits and its latest version, which does not depend on the order of the hits. -/
structure Deduplicated (origin : Paper → String) (found : List (QueryKind × Paper)) : Prop where
  origins : (dedupe origin found).map (fun entry => origin entry.1) = firstAppearances origin found
  kinds : ∀ entry ∈ dedupe origin found, entry.2.Nodup ∧ ∀ kind, kind ∈ entry.2 ↔
    ∃ hit ∈ found, hit.1 = kind ∧ origin hit.2 = origin entry.1
  kept : ∀ entry ∈ dedupe origin found, ∃ hit ∈ found, hit.2 = entry.1
  latest : ∀ entry ∈ dedupe origin found, ∀ hit ∈ found, origin hit.2 = origin entry.1 →
    version hit.2 ≤ version entry.1
  anyOrder : ∀ other, other.Perm found → ∀ entry ∈ dedupe origin found,
    ∀ again ∈ dedupe origin other, origin again.1 = origin entry.1 →
      version again.1 = version entry.1

/-- Every work of which a hit has a summary has one with a summary among its latest hits. -/
def SummariesCurrent (origin : Paper → String) (found : List (QueryKind × Paper)) : Prop :=
  ∀ hit ∈ found, LatestSummarized (hitsOf origin found (origin hit.2))

theorem hitsOf_perm {found other : List (QueryKind × Paper)} (moved : other.Perm found)
    (work : String) : (hitsOf origin other work).Perm (hitsOf origin found work) :=
  (moved.map Prod.snd).filter _

theorem dedupe_latest_iff (lower : String → String) (found : List (QueryKind × Paper)) :
    Deduplicated (Paper.origin lower) found ↔ SummariesCurrent (Paper.origin lower) found := by
  constructor
  · intro ok hit member paper listed summarized
    obtain ⟨other, present, rfl, same⟩ := mem_hitsOf.mp listed
    -- The hit with the summary comes last, after all the others.
    have moved : (found.erase other ++ [other]).Perm found :=
      (List.perm_append_singleton other _).trans (List.perm_cons_erase present).symm
    obtain ⟨entry, kept, equal⟩ : ∃ entry ∈ dedupe (Paper.origin lower) found, _ :=
      dedupe_has present
    obtain ⟨again, final, equal'⟩ : ∃ entry ∈ dedupe (Paper.origin lower) _, _ :=
      dedupe_has (moved.symm.subset present)
    have stays := dedupe_kept final
    rw [equal', hitsOf_concat, if_pos rfl] at stays
    have highest := ok.anyOrder _ moved entry kept again final (equal'.trans equal.symm)
    have last : again.1 ∈ hitsOf (Paper.origin lower) found (Paper.origin lower hit.2) := by
      rw [← same, ← equal']
      exact (hitsOf_perm moved _).subset (keptOf_mem (dedupe_kept final))
    refine ⟨again.1, last, keptOf_concat_summarized summarized stays, ?_⟩
    intro paper listed
    obtain ⟨later, here, rfl, origin⟩ := mem_hitsOf.mp listed
    rw [highest]
    exact ok.latest entry kept later here (origin.trans (same.symm.trans equal.symm))
  · intro condition
    have bound : ∀ other, other.Perm found → ∀ entry ∈ dedupe (Paper.origin lower) other,
        ∀ hit ∈ found, Paper.origin lower hit.2 = Paper.origin lower entry.1 →
          version hit.2 ≤ version entry.1 := by
      intro other moved entry member hit present same
      have current := condition hit present
      rw [same] at current
      exact current.kept (hitsOf_perm moved _) (dedupe_kept member) _
        (mem_hitsOf.mpr ⟨hit, present, rfl, same⟩)
    have hits : ∀ other, other.Perm found → ∀ entry ∈ dedupe (Paper.origin lower) other,
        ∃ hit ∈ found, hit.2 = entry.1 := by
      intro other moved entry member
      obtain ⟨hit, present, same, -⟩ := mem_hitsOf.mp (keptOf_mem (dedupe_kept member))
      exact ⟨hit, moved.subset present, same⟩
    refine ⟨dedupe_origins found, ?_, hits found (List.Perm.refl _),
      bound found (List.Perm.refl _), ?_⟩
    · intro entry member
      obtain ⟨work, listed, same, -, kinds⟩ := mem_dedupe member
      rw [← kinds, ← same]
      exact (gathered found).kinds work listed
    · intro other moved entry member again final same
      obtain ⟨hit, present, equal⟩ := hits found (List.Perm.refl _) entry member
      obtain ⟨hit', present', equal'⟩ := hits other moved again final
      have upper := bound other moved again final hit present (by rw [equal, same])
      have lower := bound found (List.Perm.refl _) entry member hit' present' (by rw [equal', same])
      rw [equal] at upper
      rw [equal'] at lower
      omega

/-- A later version without a summary gives way to an earlier one with a summary. -/
theorem dedupe_older_kept : ¬ Deduplicated (Paper.origin id)
    [(.neutral, ⟨"Sleep", "", none, some "2401.00001v3"⟩),
      (.neutral, ⟨"Sleep", "We measure.", none, some "2401.00001v1"⟩)] := by
  intro ok
  exact absurd (ok.latest (⟨"Sleep", "We measure.", none, some "2401.00001v1"⟩, [.neutral])
    (by decide +kernel) (.neutral, ⟨"Sleep", "", none, some "2401.00001v3"⟩) (by decide +kernel)
    (by decide +kernel)) (by decide +kernel)

end Dedupe

end Ovrly.Evidence
