import Ovrly.Extraction.Incremental

/-!
Incremental admission loses, repeats and forgets no observation.

The ledger is compared with what was submitted: the batches of the calls that went through, in
order, and the windows these calls issued. One law covers the admission of a batch, one a round
of the window loop, and the run is by induction on the calls.
-/

namespace Ovrly.Extraction

open Relational Runs Ovrly.Jobs Ovrly.Reports Ovrly.Pipeline

section Admission

/-- The observations accepted out of what was submitted: each identifier once, with the content
submitted first, and everything else reported as left out. -/
structure Admits (config : Config) (submitted accepted : List Observation)
    (unadmitted : List Unadmitted) : Prop where
  distinct : (accepted.map Observation.id).Nodup
  first : ∀ source ∈ accepted, submitted.find? (·.id == source.id) = some source
  settled : ∀ observation ∈ submitted, observation.id ∈ accepted.map Observation.id ∨
    config.producer.isSome = true ∧ observation.id ∈ unadmitted.map Unadmitted.id
  apart : ∀ item ∈ unadmitted, item.id ∉ accepted.map Observation.id
  produced : config.producer.isSome = false → unadmitted = []

theorem Admits.empty (config : Config) : Admits config [] [] [] where
  distinct := List.nodup_nil
  first := by simp
  settled := by simp
  apart := by simp
  produced _ := rfl

theorem Admits.perm {config : Config} {submitted accepted other : List Observation}
    {unadmitted listed : List Unadmitted} (admits : Admits config submitted accepted unadmitted)
    (same : other.Perm accepted) (reported : listed.Perm unadmitted) :
    Admits config submitted other listed where
  distinct := (same.map _).nodup_iff.mpr admits.distinct
  first source member := admits.first source (same.mem_iff.mp member)
  settled observation member := by
    rcases admits.settled observation member with accepted | ⟨producer, left⟩
    · exact Or.inl ((same.map _).mem_iff.mpr accepted)
    · exact Or.inr ⟨producer, (reported.map _).mem_iff.mpr left⟩
  apart item member known :=
    admits.apart item (reported.mem_iff.mp member) ((same.map _).mem_iff.mp known)
  produced none := by
    have nothing := admits.produced none
    rw [nothing] at reported
    exact reported.eq_nil

def sourcesOf (items : List Accepted) : List Observation := items.map Accepted.source

theorem ids_sourcesOf (items : List Accepted) :
    (sourcesOf items).map Observation.id = items.map Accepted.id := by
  rw [sourcesOf, List.map_map]
  rfl

theorem find?_append_of_found {submitted : List Observation} {source : Observation}
    {id : String} (found : submitted.find? (·.id == id) = some source) (more : List Observation) :
    (submitted ++ more).find? (·.id == id) = some source := by
  rw [List.find?_append, found]
  rfl

variable {config : Config} {closed finalized : Bool} {submitted : List Observation}
  {intake next : Intake} {observation : Observation}

theorem accepted?_some {item : Accepted} {id : String} (found : intake.accepted? id = some item) :
    item ∈ intake.existing ∧ item.id = id :=
  ⟨List.mem_of_find?_eq_some found, by simpa using List.find?_some found⟩

theorem accepted?_none {id : String} (absent : intake.accepted? id = none) :
    id ∉ (sourcesOf intake.existing).map Observation.id := by
  rw [ids_sourcesOf]
  intro member
  obtain ⟨item, belongs, same⟩ := List.mem_map.mp member
  have unmatched := List.find?_eq_none.mp absent item belongs
  simp [same] at unmatched

inductive AdmitsOne (config : Config) (intake : Intake) (observation : Observation) :
    Intake → Prop
  | replayed {previous : Accepted} : previous ∈ intake.existing →
      previous.source = observation → AdmitsOne config intake observation intake
  | refusedBefore : intake.refuses observation.id = true →
      AdmitsOne config intake observation intake
  | leftOut (reason : SkipReason) : config.producer.isSome = true →
      observation.id ∉ (sourcesOf intake.existing).map Observation.id →
      AdmitsOne config intake observation
        { intake with unadmitted := intake.unadmitted ++ [unadmittedOf observation reason] }
  | accepted : intake.refuses observation.id = false →
      observation.id ∉ (sourcesOf intake.existing).map Observation.id →
      AdmitsOne config intake observation
        { intake with existing := intake.existing ++ [{ source := observation }] }

theorem admitOne_cases
    (admitted : admitOne config closed finalized intake observation = .ok next) :
    AdmitsOne config intake observation next := by
  unfold admitOne at admitted
  cases found : intake.accepted? observation.id with
  | some previous =>
      simp only [found] at admitted
      split at admitted
      · cases admitted
      · rename_i same
        obtain rfl := Except.ok.inj admitted
        exact .replayed (accepted?_some found).1 (not_not.mp same)
  | none =>
      have fresh := accepted?_none found
      simp only [found] at admitted
      split at admitted
      · rename_i refused
        obtain rfl := Except.ok.inj admitted
        exact .refusedBefore refused
      · rename_i unrefused
        split at admitted
        · rename_i reason skipped
          obtain rfl := Except.ok.inj admitted
          refine .leftOut reason ?_ fresh
          by_contra produced
          simp [produced] at skipped
        · split at admitted
          · cases admitted
          · obtain rfl := Except.ok.inj admitted
            exact .accepted (by simpa using unrefused) fresh

theorem Admits.one (admits : Admits config submitted (sourcesOf intake.existing) intake.unadmitted)
    (admitted : AdmitsOne config intake observation next) :
    Admits config (submitted ++ [observation]) (sourcesOf next.existing) next.unadmitted := by
  have earlier : ∀ source ∈ sourcesOf intake.existing,
      (submitted ++ [observation]).find? (·.id == source.id) = some source :=
    fun source member => find?_append_of_found (admits.first source member) _
  cases admitted with
  | replayed member same =>
      refine ⟨admits.distinct, earlier, ?_, admits.apart, admits.produced⟩
      intro other belongs
      rcases List.mem_append.mp belongs with before | last
      · exact admits.settled other before
      · left
        rw [List.mem_singleton.mp last, ← same, ids_sourcesOf]
        exact List.mem_map_of_mem member
  | refusedBefore refused =>
      refine ⟨admits.distinct, earlier, ?_, admits.apart, admits.produced⟩
      intro other belongs
      rcases List.mem_append.mp belongs with before | last
      · exact admits.settled other before
      · right
        obtain ⟨item, listed, same⟩ := List.any_eq_true.mp refused
        rw [List.mem_singleton.mp last]
        constructor
        · by_contra unproduced
          rw [admits.produced (by simpa using unproduced)] at listed
          simp at listed
        · rw [← beq_iff_eq.mp same]
          exact List.mem_map_of_mem listed
  | leftOut reason produced fresh =>
      refine ⟨admits.distinct, earlier, ?_, ?_, ?_⟩
      · intro other belongs
        rcases List.mem_append.mp belongs with before | last
        · rcases admits.settled other before with accepted | ⟨_, left⟩
          · exact Or.inl accepted
          · right
            rw [List.map_append]
            exact ⟨produced, List.mem_append_left _ left⟩
        · right
          rw [List.mem_singleton.mp last, List.map_append]
          exact ⟨produced, List.mem_append_right _ (by simp [unadmittedOf])⟩
      · intro item belongs
        rcases List.mem_append.mp belongs with before | last
        · exact admits.apart item before
        · rw [List.mem_singleton.mp last]
          exact fresh
      · intro unproduced
        rw [unproduced] at produced
        cases produced
  | accepted unrefused fresh =>
      have sources : sourcesOf (intake.existing ++ [{ source := observation }]) =
          sourcesOf intake.existing ++ [observation] := by
        simp [sourcesOf]
      have new : ∀ other ∈ submitted, other.id ≠ observation.id := by
        intro other before same
        rcases admits.settled other before with accepted | ⟨_, left⟩
        · rw [same] at accepted
          exact fresh accepted
        · obtain ⟨item, listed, named⟩ := List.mem_map.mp left
          have refused : intake.refuses observation.id = true :=
            List.any_eq_true.mpr ⟨item, listed, by simp [named, same]⟩
          rw [unrefused] at refused
          cases refused
      rw [sources]
      refine ⟨?_, ?_, ?_, ?_, admits.produced⟩
      · rw [List.map_append, List.nodup_append]
        refine ⟨admits.distinct, List.nodup_singleton _, ?_⟩
        intro id member other last same
        rw [List.map_singleton, List.mem_singleton] at last
        rw [← last, ← same] at fresh
        exact fresh member
      · intro source belongs
        rcases List.mem_append.mp belongs with before | last
        · exact earlier source before
        · rw [List.mem_singleton.mp last, List.find?_append, List.find?_eq_none.mpr]
          · simp
          · intro other before
            simpa using new other before
      · intro other belongs
        rw [List.map_append]
        rcases List.mem_append.mp belongs with before | last
        · rcases admits.settled other before with accepted | left
          · exact Or.inl (List.mem_append_left _ accepted)
          · exact Or.inr left
        · rw [List.mem_singleton.mp last]
          exact Or.inl (List.mem_append_right _ (by simp))
      · intro item belongs
        rw [List.map_append, List.mem_append]
        rintro (before | last)
        · exact admits.apart item belongs before
        · rw [List.map_singleton, List.mem_singleton] at last
          have refused : intake.refuses observation.id = true :=
            List.any_eq_true.mpr ⟨item, belongs, by simp [last]⟩
          rw [unrefused] at refused
          cases refused

structure Grows (before after : List Accepted) : Prop where
  kept : before <+: after
  fresh : ∀ item ∈ after, item ∈ before ∨
    item.id ∉ before.map Accepted.id ∧ item.jobId = none ∧ item.reason = none

theorem Grows.refl (items : List Accepted) : Grows items items :=
  ⟨List.prefix_refl items, fun _ member => Or.inl member⟩

theorem Grows.trans {first second third : List Accepted} (grows : Grows first second)
    (further : Grows second third) : Grows first third where
  kept := grows.kept.trans further.kept
  fresh item member := by
    rcases further.fresh item member with earlier | ⟨new, uncovered⟩
    · exact grows.fresh item earlier
    · refine Or.inr ⟨?_, uncovered⟩
      intro known
      obtain ⟨other, belongs, same⟩ := List.mem_map.mp known
      exact new (List.mem_map.mpr ⟨other, grows.kept.subset belongs, same⟩)

theorem AdmitsOne.grows (admitted : AdmitsOne config intake observation next) :
    Grows intake.existing next.existing := by
  cases admitted with
  | accepted _ fresh =>
      refine ⟨List.prefix_append _ _, ?_⟩
      intro item member
      rcases List.mem_append.mp member with before | last
      · exact Or.inl before
      · rw [List.mem_singleton.mp last]
        rw [ids_sourcesOf] at fresh
        exact Or.inr ⟨fresh, rfl, rfl⟩
  | replayed _ _ => exact Grows.refl _
  | refusedBefore _ => exact Grows.refl _
  | leftOut _ _ _ => exact Grows.refl _

theorem AdmitsOne.stored {given : Config}
    (kept : given.producer.isSome = true → config.producer.isSome = true)
    (admitted : AdmitsOne given intake observation next) :
    AdmitsOne config intake observation next := by
  cases admitted with
  | replayed member same => exact .replayed member same
  | refusedBefore refused => exact .refusedBefore refused
  | leftOut reason produced fresh => exact .leftOut reason (kept produced) fresh
  | accepted unrefused fresh => exact .accepted unrefused fresh

theorem admitAll_sound {given : Config} {batch : List Observation}
    (kept : given.producer.isSome = true → config.producer.isSome = true)
    (admits : Admits config submitted (sourcesOf intake.existing) intake.unadmitted)
    (admitted : admitAll given closed finalized intake batch = .ok next) :
    Admits config (submitted ++ batch) (sourcesOf next.existing) next.unadmitted ∧
      Grows intake.existing next.existing := by
  induction batch generalizing intake submitted with
  | nil =>
      simp only [admitAll, List.foldlM_nil, pure, Except.pure, Except.ok.injEq] at admitted
      rw [← admitted, List.append_nil]
      exact ⟨admits, Grows.refl _⟩
  | cons observation rest ih =>
      simp only [admitAll, List.foldlM_cons] at admitted
      cases first : admitOne given closed finalized intake observation with
      | error raised => simp [first, bind, Except.bind] at admitted
      | ok middle =>
          rw [first] at admitted
          have step := (admitOne_cases first).stored kept
          have tail := ih (admits.one step) admitted
          rw [List.append_assoc] at tail
          exact ⟨tail.1, step.grows.trans tail.2⟩

end Admission

section Selecting

theorem trimOverlap_suffix (room : Nat) (items : List Accepted) :
    trimOverlap room items <:+ items := by
  induction items with
  | nil => exact List.suffix_refl _
  | cons item rest ih =>
      simp only [trimOverlap]
      split
      · exact ih.trans (List.suffix_cons _ _)
      · exact List.suffix_refl _

theorem trimOverlap_fits {room : Nat} (items : List Accepted) (short : room ≤ 24000) :
    charactersOf (trimOverlap room items) + room ≤ 24000 := by
  induction items with
  | nil => simpa [trimOverlap, charactersOf] using short
  | cons item rest ih =>
      simp only [trimOverlap]
      split
      · exact ih
      · omega

theorem selectFrom_isPrefix (characters : Nat) (items : List Accepted) :
    selectFrom characters items <+: items := by
  induction items generalizing characters with
  | nil => exact List.prefix_refl _
  | cons item rest ih =>
      simp only [selectFrom]
      split
      · exact List.nil_prefix
      · exact List.cons_prefix_cons.mpr ⟨rfl, ih _⟩

variable {data : RunData} {pending overlap selected : List Accepted}

theorem overlap_covered {first item : Accepted} (member : item ∈ data.overlap first) :
    item ∈ data.observations ∧ item.jobId.isSome = true := by
  have covered := (trimOverlap_suffix _ _).subset member
  have listed := List.mem_filter.mp (List.mem_of_mem_drop covered)
  exact ⟨List.mem_of_mem_take listed.1, listed.2⟩

/-- A round selects a prefix of the pending observations that is not empty: the first of them
always fits beside the trimmed overlap. -/
theorem selected_prefix (data : RunData) (first : Accepted) (rest : List Accepted)
    (threshold : Nat) :
    let selected := selectFrom (charactersOf (data.overlap first))
      ((first :: rest).take (batchSize threshold (first :: rest)))
    selected <+: first :: rest ∧ selected ≠ [] := by
  intro selected
  refine ⟨(selectFrom_isPrefix _ _).trans (List.take_prefix _ _), ?_⟩
  have short : first.characters ≤ 8000 := first.source.short
  have fits : charactersOf (data.overlap first) + first.characters ≤ 24000 :=
    trimOverlap_fits _ (by omega)
  have positive : 0 < batchSize threshold (first :: rest) := by
    simp only [batchSize]
    omega
  obtain ⟨size, taken⟩ := Nat.exists_eq_succ_of_ne_zero (Nat.ne_of_gt positive)
  simp only [selected, taken, List.take_succ_cons, selectFrom]
  rw [if_neg (by omega)]
  exact List.cons_ne_nil _ _

inductive MoveSpec (data : RunData) (pending : List Accepted) : Move → Prop
  | stop : pending = [] ∨ data.closed = false → MoveSpec data pending .stop
  | skip {selected : List Accepted} : selected <+: pending → selected ≠ [] →
      MoveSpec data pending (.skip selected)
  | window {overlap selected : List Accepted} : selected <+: pending → selected ≠ [] →
      (∀ item ∈ overlap, item ∈ data.observations ∧ item.jobId.isSome = true) →
      MoveSpec data pending (.window overlap selected)

theorem move_spec (data : RunData) (pending : List Accepted) :
    MoveSpec data pending (data.move pending) := by
  cases pending with
  | nil => exact .stop (Or.inl rfl)
  | cons first rest =>
      have chosen := selected_prefix data first rest data.threshold
      simp only [RunData.move]
      split
      · rename_i waits
        simp only [Bool.and_eq_true, Bool.not_eq_true'] at waits
        exact .stop (Or.inr waits.2)
      · split
        · split
          · rename_i waits
            simp only [Bool.and_eq_true, Bool.not_eq_true'] at waits
            exact .stop (Or.inr waits.1)
          · exact .skip chosen.1 chosen.2
        · exact .window chosen.1 chosen.2 fun item member => overlap_covered member

end Selecting

section Marking

def marked (selected : List Accepted) (change : Accepted → Accepted) (item : Accepted) :
    Accepted :=
  if selected.any (·.id == item.id) then change item else item

theorem mark_observations (data : RunData) (selected : List Accepted)
    (change : Accepted → Accepted) :
    (data.mark selected change).observations = data.observations.map (marked selected change) :=
  rfl

variable {items selected : List Accepted} {change : Accepted → Accepted}

theorem skipped_source (item : Accepted) : (skipped item).source = item.source := rfl

theorem joined_source (jobId : JobId) (item : Accepted) :
    (joined jobId item).source = item.source := rfl

theorem joined_jobId (jobId : JobId) (item : Accepted) :
    (joined jobId item).jobId = item.jobId := rfl

theorem taken_source (jobId : JobId) (item : Accepted) :
    (taken jobId item).source = item.source := rfl

theorem any_id {id : String} :
    selected.any (·.id == id) = true ↔ id ∈ selected.map Accepted.id := by
  simp [List.any_eq_true, List.mem_map]

theorem marked_source (keeps : ∀ item, (change item).source = item.source) (item : Accepted) :
    (marked selected change item).source = item.source := by
  unfold marked
  split
  · exact keeps item
  · rfl

theorem marked_id (keeps : ∀ item, (change item).source = item.source) (item : Accepted) :
    (marked selected change item).id = item.id := by
  simp only [Accepted.id, marked_source keeps]

theorem marked_jobId (keeps : ∀ item, (change item).jobId = item.jobId) (item : Accepted) :
    (marked selected change item).jobId = item.jobId := by
  unfold marked
  split
  · exact keeps item
  · rfl

theorem sourcesOf_marked (keeps : ∀ item, (change item).source = item.source) :
    sourcesOf (items.map (marked selected change)) = sourcesOf items := by
  simp only [sourcesOf, List.map_map]
  apply List.map_congr_left
  intro item _
  exact marked_source keeps item

theorem ids_marked (keeps : ∀ item, (change item).source = item.source) :
    (items.map (marked selected change)).map Accepted.id = items.map Accepted.id := by
  rw [← ids_sourcesOf, sourcesOf_marked keeps, ids_sourcesOf]

theorem eq_of_id (distinct : (items.map Accepted.id).Nodup) {first second : Accepted}
    (member : first ∈ items) (other : second ∈ items) (same : first.id = second.id) :
    first = second :=
  List.inj_on_of_nodup_map distinct member other same

theorem pending_marked {rest : List Accepted} (distinct : (items.map Accepted.id).Nodup)
    (pending : sourcesOf (items.filter Accepted.isPending) = sourcesOf (selected ++ rest))
    (keeps : ∀ item, (change item).source = item.source)
    (settles : ∀ item, (change item).isPending = false) :
    sourcesOf ((items.map (marked selected change)).filter Accepted.isPending) =
      sourcesOf rest := by
  have apart : ((selected ++ rest).map Accepted.id).Nodup := by
    rw [← ids_sourcesOf, ← pending, ids_sourcesOf]
    exact distinct.sublist (List.filter_sublist.map _)
  rw [List.map_append, List.nodup_append] at apart
  have left : ∀ item : Accepted, item ∈ rest → selected.any (·.id == item.id) = false := by
    intro item member
    rw [← Bool.not_eq_true, any_id]
    intro known
    exact apart.2.2 item.id known item.id (List.mem_map_of_mem member) rfl
  have test : (Accepted.isPending ∘ marked selected change) = fun item : Accepted =>
      !selected.any (·.id == item.id) && item.isPending := by
    funext item
    simp only [Function.comp_apply, marked]
    cases hit : selected.any (·.id == item.id) with
    | true => simp [settles]
    | false => simp
  have bySource (list : List Accepted) :
      sourcesOf (list.filter fun item : Accepted => !selected.any (·.id == item.id)) =
        (sourcesOf list).filter fun source : Observation =>
          !selected.any (·.id == source.id) := by
    rw [sourcesOf, sourcesOf, List.filter_map]
    rfl
  rw [List.filter_map, test, ← List.filter_filter, sourcesOf_marked keeps, bySource, pending,
    ← bySource]
  have gone : selected.filter (fun item : Accepted => !selected.any (·.id == item.id)) = [] := by
    rw [List.filter_eq_nil_iff]
    intro item member
    have hit : selected.any (·.id == item.id) = true := any_id.mpr (List.mem_map_of_mem member)
    simp [hit]
  have stays : rest.filter (fun item : Accepted => !selected.any (·.id == item.id)) = rest := by
    rw [List.filter_eq_self]
    intro item member
    simp [left item member]
  rw [List.filter_append, gone, stays, List.nil_append]

theorem pending_marked_same (keeps : ∀ item, (change item).source = item.source)
    (unsettled : ∀ item, (change item).isPending = item.isPending) :
    sourcesOf ((items.map (marked selected change)).filter Accepted.isPending) =
      sourcesOf (items.filter Accepted.isPending) := by
  have test : (Accepted.isPending ∘ marked selected change) = Accepted.isPending := by
    funext item
    simp only [Function.comp_apply, marked]
    split
    · exact unsettled item
    · rfl
  rw [List.filter_map, test, sourcesOf_marked keeps]

end Marking

section Booking

def Issue.covers (id : String) (issue : Issue) : Bool := issue.selected.any (·.id == id)

theorem Issue.covers_iff {id : String} {issue : Issue} :
    issue.covers id = true ↔ id ∈ issue.selected.map Accepted.id :=
  any_id

/-- The windows issued so far and the marks on the observations agree. -/
structure Booked (issued : List Issue) (items : List Accepted) : Prop where
  once : ∀ item ∈ items,
    issued.countP (Issue.covers item.id) = if item.jobId.isSome then 1 else 0
  named : ∀ item ∈ items, ∀ job, item.jobId = some job →
    ∃ issue ∈ issued, issue.covers item.id = true ∧ issue.enqueued.jobId = job
  known : ∀ issue ∈ issued, ∀ item ∈ issue.overlap ++ issue.selected,
    item.id ∈ items.map Accepted.id
  distinct : ∀ issue ∈ issued, ((issue.overlap ++ issue.selected).map Accepted.id).Nodup

theorem Booked.empty : Booked [] [] where
  once := by simp
  named := by simp
  known := by simp
  distinct := by simp

variable {issued : List Issue} {items after : List Accepted}

theorem Booked.uncovered {id : String} (booked : Booked issued items)
    (fresh : id ∉ items.map Accepted.id) : issued.countP (Issue.covers id) = 0 := by
  rw [List.countP_eq_zero]
  intro issue member covered
  obtain ⟨item, selected, same⟩ := List.mem_map.mp (Issue.covers_iff.mp covered)
  apply fresh
  rw [← same]
  exact booked.known issue member item (List.mem_append_right _ selected)

theorem Booked.grow (booked : Booked issued items) (grows : Grows items after) :
    Booked issued after where
  once item member := by
    rcases grows.fresh item member with before | ⟨new, uncovered, -⟩
    · exact booked.once item before
    · rw [booked.uncovered new, uncovered]
      rfl
  named item member job marked := by
    rcases grows.fresh item member with before | ⟨-, uncovered, -⟩
    · exact booked.named item before job marked
    · rw [uncovered] at marked
      cases marked
  known issue member item belongs := by
    have before := booked.known issue member item belongs
    exact List.map_subset _ grows.kept.subset before
  distinct := booked.distinct

theorem Booked.perm (booked : Booked issued items) (same : after.Perm items) :
    Booked issued after where
  once item member := booked.once item (same.mem_iff.mp member)
  named item member := booked.named item (same.mem_iff.mp member)
  known issue member item belongs :=
    (same.map _).mem_iff.mpr (booked.known issue member item belongs)
  distinct := booked.distinct

theorem Booked.mark {selected : List Accepted} {change : Accepted → Accepted}
    (booked : Booked issued items) (keeps : ∀ item, (change item).source = item.source)
    (uncharged : ∀ item, (change item).jobId = item.jobId) :
    Booked issued (items.map (marked selected change)) where
  once item member := by
    obtain ⟨old, before, rfl⟩ := List.mem_map.mp member
    rw [marked_id keeps, marked_jobId uncharged]
    exact booked.once old before
  named item member job charged := by
    obtain ⟨old, before, rfl⟩ := List.mem_map.mp member
    rw [marked_jobId uncharged] at charged
    rw [marked_id keeps]
    exact booked.named old before job charged
  known issue member item belongs := by
    rw [ids_marked keeps]
    exact booked.known issue member item belongs
  distinct := booked.distinct

/-- A window books the observations it newly covers, which no window covered before. -/
theorem Booked.issue {enqueued : Enqueued} {overlap selected : List Accepted}
    (booked : Booked issued items)
    (distinct : ((overlap ++ selected).map Accepted.id).Nodup)
    (known : ∀ item ∈ overlap ++ selected, item.id ∈ items.map Accepted.id)
    (pending : ∀ item ∈ items, selected.any (·.id == item.id) = true → item.jobId = none) :
    Booked (issued ++ [⟨enqueued, overlap, selected⟩])
      (items.map (marked selected (taken enqueued.jobId))) where
  once item member := by
    obtain ⟨old, before, rfl⟩ := List.mem_map.mp member
    rw [marked_id (taken_source _), List.countP_append, booked.once old before,
      List.countP_singleton]
    by_cases chosen : selected.any (·.id == old.id) = true
    · simp [Issue.covers, marked, chosen, taken, pending old before chosen]
    · simp [Issue.covers, marked, chosen]
  named item member job charged := by
    obtain ⟨old, before, rfl⟩ := List.mem_map.mp member
    rw [marked_id (taken_source _)]
    by_cases chosen : selected.any (·.id == old.id) = true
    · simp only [marked, chosen, if_true, taken, Option.some.injEq] at charged
      exact ⟨⟨enqueued, overlap, selected⟩, by simp, chosen, charged⟩
    · simp only [marked, chosen, Bool.false_eq_true, if_false] at charged
      obtain ⟨issue, listed, covered, same⟩ := booked.named old before job charged
      exact ⟨issue, List.mem_append_left _ listed, covered, same⟩
  known issue member item belongs := by
    rw [ids_marked (taken_source _)]
    rcases List.mem_append.mp member with before | last
    · exact booked.known issue before item belongs
    · rw [List.mem_singleton.mp last] at belongs
      exact known item belongs
  distinct issue member := by
    rcases List.mem_append.mp member with before | last
    · exact booked.distinct issue before
    · rw [List.mem_singleton.mp last]
      exact distinct

end Booking

section Cutting

/-- The ledger agrees with what was submitted and with the windows issued. -/
structure Kept (submitted : List Observation) (issued : List Issue) (data : RunData) : Prop where
  admits : Admits data.config submitted (sourcesOf data.observations) data.unadmitted
  bounded : data.observations.length ≤ data.config.policy.maxObservations
  booked : Booked issued data.observations
  listed : data.windows = issued.map (·.enqueued.jobId)

variable {submitted : List Observation} {issued : List Issue} {data : RunData}

theorem Kept.ids (kept : Kept submitted issued data) :
    (data.observations.map Accepted.id).Nodup := by
  rw [← ids_sourcesOf]
  exact kept.admits.distinct

theorem Kept.mark {selected : List Accepted} {change : Accepted → Accepted}
    (kept : Kept submitted issued data) (keeps : ∀ item, (change item).source = item.source)
    (uncharged : ∀ item, (change item).jobId = item.jobId) :
    Kept submitted issued (data.mark selected change) where
  admits := by
    rw [mark_observations, sourcesOf_marked keeps]
    exact kept.admits
  bounded := by
    rw [mark_observations, List.length_map]
    exact kept.bounded
  booked := kept.booked.mark keeps uncharged
  listed := kept.listed

theorem Kept.issue {enqueued : Enqueued} {overlap selected rest : List Accepted}
    (kept : Kept submitted issued data)
    (pending : sourcesOf (data.observations.filter Accepted.isPending) =
      sourcesOf (selected ++ rest))
    (repeated : ∀ item ∈ overlap, item ∈ data.observations)
    (distinct : ((overlap ++ selected).map Accepted.id).Nodup) :
    Kept submitted (issued ++ [⟨enqueued, overlap, selected⟩])
      ((({ data with windows := data.windows ++ [enqueued.jobId] } : RunData).mark
        (overlap ++ selected) (joined enqueued.jobId)).mark selected (taken enqueued.jobId)) where
  admits := by
    simp only [mark_observations]
    rw [sourcesOf_marked (taken_source _), sourcesOf_marked (joined_source _)]
    exact kept.admits
  bounded := by
    simp only [mark_observations, List.length_map]
    exact kept.bounded
  booked := by
    simp only [mark_observations]
    have waiting : ∀ item ∈ selected, ∃ old ∈ data.observations,
        old.id = item.id ∧ old.isPending = true := by
      intro item member
      have listed : item.source ∈ sourcesOf (selected ++ rest) :=
        List.mem_map_of_mem (List.mem_append_left _ member)
      rw [← pending] at listed
      obtain ⟨old, belongs, same⟩ := List.mem_map.mp listed
      have found := List.mem_filter.mp belongs
      exact ⟨old, found.1, congrArg Observation.id same, found.2⟩
    apply (kept.booked.mark (joined_source _) fun _ => rfl).issue distinct
    · intro item member
      rw [ids_marked (joined_source _)]
      rcases List.mem_append.mp member with again | chosen
      · exact List.mem_map_of_mem (repeated item again)
      · obtain ⟨old, belongs, same, -⟩ := waiting item chosen
        rw [← same]
        exact List.mem_map_of_mem belongs
    · intro item member chosen
      obtain ⟨before, belongs, rfl⟩ := List.mem_map.mp member
      rw [marked_id (joined_source _), any_id] at chosen
      obtain ⟨other, selects, same⟩ := List.mem_map.mp chosen
      obtain ⟨old, listed, equal, unbooked⟩ := waiting other selects
      obtain rfl := eq_of_id kept.ids listed belongs (equal.trans same)
      rw [marked_jobId (joined_jobId _)]
      simp only [Accepted.isPending, Bool.and_eq_true, Option.isNone_iff_eq_none] at unbooked
      exact unbooked.1
  listed := by
    simp only [RunData.mark, List.map_append, List.map_singleton, kept.listed]

variable {σ ρ : Type} [EmptyCollection σ] {extractionKey : Payload → String}
  {investigationId : Uuid} {ownerId : PrincipalId} {call : Submission}
  {cutting next : Cutting σ ρ} {overlap selected pending : List Accepted}

theorem windowOf_ok {config : Config} {number : Nat} {observations : List Observation}
    {window : ObservationWindow} (built : windowOf config number observations = .ok window) :
    (observations.map Observation.id).Nodup := by
  unfold windowOf at built
  split at built
  · rename_i valid
    exact valid.1
  · cases built

theorem Cutting.issue_ok
    (issued : cutting.issue extractionKey investigationId ownerId call overlap selected =
      .ok next) :
    ((overlap ++ selected).map Accepted.id).Nodup ∧
      ∃ enqueued : Enqueued,
        next.data = (({ cutting.data with
          windows := cutting.data.windows ++ [enqueued.jobId] } : RunData).mark
            (overlap ++ selected) (joined enqueued.jobId)).mark selected
            (taken enqueued.jobId) ∧
        next.issues = cutting.issues ++ [⟨enqueued, overlap, selected⟩] := by
  simp only [Cutting.issue, bind, Except.bind, pure, Except.pure] at issued
  cases built : windowOf cutting.data.config (cutting.data.windows.length + 1)
      ((overlap ++ selected).map (·.source)) with
  | error raised => simp only [built, reduceCtorEq] at issued
  | ok window =>
      have distinct := windowOf_ok built
      rw [← sourcesOf, ids_sourcesOf] at distinct
      simp only [built] at issued
      cases answer : enqueueExtraction extractionKey investigationId ownerId cutting.queue call
          (cutting.data.windows.length + 1) window with
      | error raised => simp [answer] at issued
      | ok queued =>
          simp only [answer, Except.ok.injEq] at issued
          subst next
          exact ⟨distinct, queued.1, rfl, rfl⟩

/-- What the rounds of the loop keep: the ledger agrees with the windows issued so far, and the
pending observations are those no window covers. -/
structure Cut (submitted : List Observation) (earlier : List Issue) (cutting : Cutting σ ρ)
    (pending : List Accepted) : Prop where
  kept : Kept submitted (earlier ++ cutting.issues) cutting.data
  pending : sourcesOf (cutting.data.observations.filter Accepted.isPending) = sourcesOf pending

variable {earlier : List Issue}

omit [EmptyCollection σ] in
theorem Cut.skip (state : Cut submitted earlier cutting (selected ++ pending)) :
    Cut submitted earlier { cutting with data := cutting.data.mark selected skipped } pending where
  kept := state.kept.mark skipped_source fun _ => rfl
  pending := pending_marked state.kept.ids state.pending skipped_source fun item => by
    simp [Accepted.isPending, skipped]

theorem Cut.issue (state : Cut submitted earlier cutting (selected ++ pending))
    (repeated : ∀ item ∈ overlap, item ∈ cutting.data.observations)
    (issued : cutting.issue extractionKey investigationId ownerId call overlap selected =
      .ok next) :
    Cut submitted earlier next pending := by
  obtain ⟨distinct, enqueued, data, issues⟩ := Cutting.issue_ok issued
  constructor
  · rw [data, issues, ← List.append_assoc]
    exact state.kept.issue state.pending repeated distinct
  · rw [data]
    simp only [mark_observations]
    apply pending_marked
    · rw [ids_marked (joined_source _)]
      exact state.kept.ids
    · rw [pending_marked_same (joined_source _) fun _ => rfl]
      exact state.pending
    · exact taken_source _
    · intro item
      simp [Accepted.isPending, taken]

structure SameInput (before after : RunData) : Prop where
  config : after.config = before.config
  closed : after.closed = before.closed
  sources : sourcesOf after.observations = sourcesOf before.observations

theorem SameInput.refl (data : RunData) : SameInput data data := ⟨rfl, rfl, rfl⟩

theorem SameInput.trans {first second third : RunData} (same : SameInput first second)
    (further : SameInput second third) : SameInput first third where
  config := further.config.trans same.config
  closed := further.closed.trans same.closed
  sources := further.sources.trans same.sources

theorem SameInput.mark {change : Accepted → Accepted}
    (keeps : ∀ item, (change item).source = item.source) :
    SameInput data (data.mark selected change) :=
  ⟨rfl, rfl, sourcesOf_marked keeps⟩

theorem Cutting.issue_input
    (issued : cutting.issue extractionKey investigationId ownerId call overlap selected =
      .ok next) : SameInput cutting.data next.data := by
  obtain ⟨-, enqueued, data, -⟩ := Cutting.issue_ok issued
  rw [data]
  have listed : SameInput cutting.data
      { cutting.data with windows := cutting.data.windows ++ [enqueued.jobId] } := ⟨rfl, rfl, rfl⟩
  exact (listed.trans (.mark (joined_source _))).trans (.mark (taken_source _))

variable (extractionKey investigationId ownerId call) in
/-- The rule of the window loop: it ends within its fuel, in a round that stops or one whose window
is not enqueued, and what every round keeps holds there. -/
theorem cut_rule (holds : Cutting σ ρ → List Accepted → Prop)
    (skips : ∀ cutting selected rest, holds cutting (selected ++ rest) →
      cutting.data.move (selected ++ rest) = .skip selected →
      holds { cutting with data := cutting.data.mark selected skipped } rest)
    (issues : ∀ cutting next overlap selected rest, holds cutting (selected ++ rest) →
      cutting.data.move (selected ++ rest) = .window overlap selected →
      cutting.issue extractionKey investigationId ownerId call overlap selected = .ok next →
      holds next rest)
    (start : holds cutting pending) {fuel : Nat} (enough : pending.length < fuel) :
    ∃ answer, cutting.cut extractionKey investigationId ownerId call fuel pending = some answer ∧
      (∀ final, answer = .ok final → ∃ rest, holds final rest ∧ final.data.move rest = .stop) ∧
      ∀ raised, answer = .error raised → ∃ before overlap selected rest,
        holds before (selected ++ rest) ∧
        before.data.move (selected ++ rest) = .window overlap selected ∧
        before.issue extractionKey investigationId ownerId call overlap selected =
          .error raised := by
  induction fuel generalizing cutting pending with
  | zero => omega
  | succ fuel ih =>
      simp only [Cutting.cut]
      have spec := move_spec cutting.data pending
      cases chosen : cutting.data.move pending with
      | stop =>
          refine ⟨.ok cutting, rfl, ?_, ?_⟩
          · intro final same
            obtain rfl := Except.ok.inj same
            exact ⟨pending, start, chosen⟩
          · intro raised same
            cases same
      | skip selected =>
          rw [chosen] at spec
          cases spec with
          | skip begins some =>
              obtain ⟨rest, rfl⟩ := begins
              have positive := List.length_pos_iff.mpr some
              rw [List.length_append] at enough
              simp only [List.drop_left]
              exact ih (skips cutting selected rest start chosen) (by omega)
      | window overlap selected =>
          rw [chosen] at spec
          cases spec with
          | window begins some covered =>
              obtain ⟨rest, rfl⟩ := begins
              have positive := List.length_pos_iff.mpr some
              rw [List.length_append] at enough
              simp only [List.drop_left]
              cases issued : cutting.issue extractionKey investigationId ownerId call overlap
                  selected with
              | error raised =>
                  refine ⟨.error raised, rfl, ?_, ?_⟩
                  · intro final same
                    cases same
                  · intro other same
                    obtain rfl := Except.error.inj same
                    exact ⟨cutting, overlap, selected, rest, start, chosen, issued⟩
              | ok next =>
                  exact ih (issues cutting next overlap selected rest start chosen issued)
                    (by omega)

theorem move_window_covered (moved : data.move pending = .window overlap selected) :
    ∀ item ∈ overlap, item ∈ data.observations ∧ item.jobId.isSome = true := by
  have spec := move_spec data pending
  rw [moved] at spec
  cases spec with
  | window _ _ covered => exact covered

theorem move_stop (moved : data.move pending = .stop) : pending = [] ∨ data.closed = false := by
  have spec := move_spec data pending
  rw [moved] at spec
  cases spec with
  | stop done => exact done

variable (extractionKey investigationId ownerId call) in
/-- Where the loop raises nothing the ledger is kept, and a closed ledger has nothing left to
cover. -/
theorem cut_sound (state : Cut submitted earlier cutting pending) {fuel : Nat}
    (enough : pending.length < fuel) :
    ∃ answer, cutting.cut extractionKey investigationId ownerId call fuel pending = some answer ∧
      ∀ final, answer = .ok final →
        Kept submitted (earlier ++ final.issues) final.data ∧
          SameInput cutting.data final.data ∧
          (cutting.data.closed = true →
            final.data.observations.filter Accepted.isPending = []) := by
  obtain ⟨answer, ended, stopped, -⟩ := cut_rule extractionKey investigationId ownerId call
    (fun current waiting =>
      Cut submitted earlier current waiting ∧ SameInput cutting.data current.data)
    (fun current selected rest kept _ =>
      ⟨kept.1.skip, kept.2.trans (.mark skipped_source)⟩)
    (fun current next overlap selected rest kept moved issued =>
      ⟨kept.1.issue (fun item member => (move_window_covered moved item member).1) issued,
        kept.2.trans (Cutting.issue_input issued)⟩)
    ⟨state, .refl _⟩ enough
  refine ⟨answer, ended, ?_⟩
  intro final same
  obtain ⟨rest, ⟨kept, input⟩, moved⟩ := stopped final same
  refine ⟨kept.kept, input, ?_⟩
  intro closed
  rcases move_stop moved with nothing | opened
  · have none := kept.pending
    rw [nothing] at none
    exact List.map_eq_nil_iff.mp none
  · rw [input.closed, closed] at opened
    cases opened

def ledgerFor (config : Config) (stored : Option RunData) : RunData :=
  stored.getD { config := config }

theorem Kept.opened (config : Config) : Kept [] [] { config := config } where
  admits := .empty config
  bounded := Nat.zero_le _
  booked := .empty
  listed := rfl

theorem unchanged_config {stored given : Config} (same : stored.changed given = false) :
    stored.policy = given.policy ∧
      (given.producer.isSome = true → stored.producer.isSome = true) := by
  simp only [Config.changed, ne_eq, Bool.or_eq_false_iff, decide_eq_false_iff_not, not_not] at same
  refine ⟨same.1.1.1, ?_⟩
  intro produced
  have equal := same.2
  simp only [produced, Bool.true_and, decide_eq_false_iff_not, not_not] at equal
  rwa [equal]

theorem admission_intake {config : Config} {stored : Option RunData}
    (admitted : admission config stored call = .ok data) :
    (ledgerFor config stored).config.changed config = false ∧
      ∃ intake, admitAll config (ledgerFor config stored).closed call.finalized
          ⟨(ledgerFor config stored).observations, (ledgerFor config stored).unadmitted⟩
          call.observations = .ok intake ∧
        intake.existing.length ≤ config.policy.maxObservations ∧
        data = { ledgerFor config stored with
          observations := intake.existing.mergeSort Accepted.before
          unadmitted := intake.unadmitted.mergeSort Unadmitted.before
          closed := (ledgerFor config stored).closed || call.closed } := by
  simp only [admission, bind, Except.bind, pure, Except.pure, throw, throwThe,
    MonadExceptOf.throw] at admitted
  rw [← ledgerFor] at admitted
  split at admitted
  · cases admitted
  split at admitted
  · cases admitted
  split at admitted
  · cases admitted
  generalize ledgerFor config stored = before at admitted ⊢
  split at admitted
  · cases admitted
  rename_i unchanged
  cases taken : admitAll config before.closed call.finalized
      ⟨before.observations, before.unadmitted⟩ call.observations with
  | error raised => simp only [taken, reduceCtorEq] at admitted
  | ok intake =>
      simp only [taken] at admitted
      split at admitted
      · cases admitted
      rename_i fits
      split at admitted
      · cases admitted
      exact ⟨by simpa using unchanged, intake, rfl, by omega, (Except.ok.inj admitted).symm⟩

theorem admission_kept {config : Config} {stored : Option RunData}
    (kept : Kept submitted issued (ledgerFor config stored))
    (admitted : admission config stored call = .ok data) :
    Kept (submitted ++ call.observations) issued data ∧
      data.closed = ((ledgerFor config stored).closed || call.closed) ∧
      data.config = (ledgerFor config stored).config ∧
      sourcesOf (ledgerFor config stored).observations ⊆ sourcesOf data.observations := by
  obtain ⟨unchanged, intake, taken, fits, rfl⟩ := admission_intake admitted
  obtain ⟨policy, producer⟩ := unchanged_config unchanged
  obtain ⟨admits, grows⟩ := admitAll_sound producer kept.admits taken
  have sorted := List.mergeSort_perm intake.existing Accepted.before
  refine ⟨⟨?_, ?_, ?_, kept.listed⟩, rfl, rfl, ?_⟩
  · exact admits.perm (sorted.map _) (List.mergeSort_perm _ _)
  · rw [sorted.length_eq, policy]
    exact fits
  · exact (kept.booked.grow grows).perm sorted
  · apply List.map_subset
    intro item member
    exact sorted.mem_iff.mpr (grows.kept.subset member)

variable {config : Config} {stored : Option RunData} {queue : Database Payload σ ρ}

variable (extractionKey investigationId ownerId call queue) in
/-- The loop starts in agreement, also on a finalized run, where nothing is cut. -/
theorem submit_sound (kept : Kept submitted issued (ledgerFor config stored)) :
    ∃ answer, submitObservations extractionKey investigationId ownerId config stored queue call =
        some answer ∧
      ∀ final, answer = .ok final →
        Kept (submitted ++ call.observations) (issued ++ final.issues) final.data ∧
          final.data.config = (ledgerFor config stored).config ∧
          sourcesOf (ledgerFor config stored).observations ⊆ sourcesOf final.data.observations ∧
          (call.closed = true → call.finalized = false →
            final.data.observations.filter Accepted.isPending = []) := by
  simp only [submitObservations]
  cases admitted : admission config stored call with
  | error raised =>
      refine ⟨.error raised, rfl, ?_⟩
      intro final same
      cases same
  | ok data =>
      obtain ⟨after, closed, fixed, keeps⟩ := admission_kept kept admitted
      by_cases finalized : call.finalized = true
      · simp only [RunData.pending, finalized, if_true, Cutting.cut,
          RunData.move]
        refine ⟨_, rfl, ?_⟩
        intro final same
        obtain rfl := Except.ok.inj same
        rw [List.append_nil]
        exact ⟨after, fixed, keeps, by simp⟩
      · simp only [RunData.pending, finalized, Bool.false_eq_true, if_false]
        have start : Cut (σ := σ) (ρ := ρ) (submitted ++ call.observations) issued
            ⟨data, queue, []⟩ (data.observations.filter Accepted.isPending) :=
          ⟨by simpa using after, rfl⟩
        obtain ⟨answer, ended, sound⟩ := cut_sound extractionKey investigationId ownerId call start
          (Nat.lt_succ_self _)
        refine ⟨answer, ended, ?_⟩
        intro final same
        obtain ⟨kept, input, covered⟩ := sound final same
        refine ⟨kept, input.config.trans fixed, ?_, ?_⟩
        · rw [input.sources]
          exact keeps
        · intro closing _
          apply covered
          simp [closed, closing]

end Cutting

section Feeding

/-- The ledger of one investigation and the queue, with the batches of the calls that went
through and the windows they issued. -/
structure Feed (σ ρ : Type) where
  stored : Option RunData := none
  queue : Database Payload σ ρ := .empty
  submitted : List Observation := []
  issued : List Issue := []

/-- What happens to the ledger: a call, a batch of a producer, a recorded request, or other
work on the queue. A transaction that went through may still not commit. -/
inductive Event (σ ρ : Type)
  | submit (config : Config) (call : Submission) (commits : Bool)
  | produced (settings : AdmitSettings) (source : Source) (openLedger : Bool) (call : Submission)
      (commits : Bool)
  | record (inputBytes outputTokens : Nat) (reconciliation : Bool)
  | work (queue : Database Payload σ ρ)

variable {σ ρ : Type} [EmptyCollection σ] (extractionKey : Payload → String)
  (investigationId : Uuid) (ownerId : PrincipalId)

omit [EmptyCollection σ] in
def Feed.save (feed : Feed σ ρ) (call : Submission) (cutting : Cutting σ ρ) : Feed σ ρ where
  stored := some cutting.data
  queue := cutting.queue
  submitted := feed.submitted ++ call.observations
  issued := feed.issued ++ cutting.issues

def Feed.step (feed : Feed σ ρ) : Event σ ρ → Feed σ ρ
  | .submit config call commits =>
      match submitObservations extractionKey investigationId ownerId config feed.stored feed.queue
          call with
      | some (.ok cutting) => if commits then feed.save call cutting else feed
      | _ => feed
  | .produced settings source openLedger call commits =>
      match producerAdmit extractionKey investigationId ownerId settings source openLedger
          feed.stored feed.queue call with
      | some (.released cutting) => if commits then feed.save call cutting else feed
      | _ => feed
  | .record inputBytes outputTokens reconciliation =>
      match feed.stored with
      | none => feed
      | some data =>
          match data.recordRequest inputBytes outputTokens reconciliation with
          | .error _ => feed
          | .ok recorded => { feed with stored := some recorded }
  | .work queue => { feed with queue }

def Feed.run (events : List (Event σ ρ)) : Feed σ ρ :=
  exec (Feed.step extractionKey investigationId ownerId) {} events

/-- Whatever config the next call brings, it finds a ledger that is kept. -/
def Feed.Kept (feed : Feed σ ρ) : Prop :=
  ∀ config, Extraction.Kept feed.submitted feed.issued (ledgerFor config feed.stored)

def Feed.Extends (before after : Feed σ ρ) : Prop :=
  ∀ data, before.stored = some data → ∃ later, after.stored = some later ∧
    later.config = data.config ∧ sourcesOf data.observations ⊆ sourcesOf later.observations

omit [EmptyCollection σ] in
theorem Feed.Extends.refl (feed : Feed σ ρ) : Feed.Extends feed feed :=
  fun data stored => ⟨data, stored, rfl, List.Subset.refl _⟩

omit [EmptyCollection σ] in
theorem Feed.Extends.trans {first second third : Feed σ ρ} (step : Feed.Extends first second)
    (further : Feed.Extends second third) : Feed.Extends first third := by
  intro data stored
  obtain ⟨middle, found, config, sources⟩ := step data stored
  obtain ⟨later, kept, same, more⟩ := further middle found
  exact ⟨later, kept, same.trans config, List.Subset.trans sources more⟩

variable {extractionKey investigationId ownerId}

omit [EmptyCollection σ] in
theorem kept_start : Feed.Kept ({} : Feed σ ρ) := fun config => .opened config

theorem Feed.Kept.save {feed : Feed σ ρ} {config : Config} {call : Submission}
    {cutting : Cutting σ ρ} (kept : feed.Kept)
    (submitted : submitObservations extractionKey investigationId ownerId config feed.stored
      feed.queue call = some (.ok cutting)) :
    (feed.save call cutting).Kept ∧ Feed.Extends feed (feed.save call cutting) ∧
      (call.closed = true → call.finalized = false →
        cutting.data.observations.filter Accepted.isPending = []) := by
  obtain ⟨answer, ended, sound⟩ := submit_sound extractionKey investigationId ownerId call
    feed.queue (kept config)
  rw [submitted, Option.some.injEq] at ended
  obtain ⟨after, fixed, sources, covered⟩ := sound cutting ended.symm
  refine ⟨fun _ => after, ?_, covered⟩
  intro data stored
  simp only [ledgerFor, stored, Option.getD_some] at fixed sources
  exact ⟨cutting.data, rfl, fixed, sources⟩

theorem admit_released {settings : AdmitSettings} {source : Source} {openLedger : Bool}
    {stored : Option RunData} {queue : Database Payload σ ρ} {call : Submission}
    {cutting : Cutting σ ρ}
    (released : producerAdmit extractionKey investigationId ownerId settings source openLedger stored queue
      call = some (.released cutting)) :
    submitObservations extractionKey investigationId ownerId (settings.config source stored) stored
      queue { call with closed := false } = some (.ok cutting) := by
  simp only [producerAdmit] at released
  split at released
  · cases released
  · split at released
    · cases released
    · cases released
    · rename_i committed submitted
      rw [submitted]
      simp only [Option.some.injEq, Admitted.released.injEq] at released
      rw [released]

theorem recordRequest_kept {submitted : List Observation} {issued : List Issue}
    {data recorded : RunData} {inputBytes outputTokens : Nat} {reconciliation : Bool}
    (kept : Extraction.Kept submitted issued data)
    (answer : data.recordRequest inputBytes outputTokens reconciliation = .ok recorded) :
    Extraction.Kept submitted issued recorded ∧ recorded.config = data.config ∧
      recorded.observations = data.observations := by
  obtain ⟨-, -, rfl⟩ := RunData.recordRequest_ok.mp answer
  exact ⟨⟨kept.admits, kept.bounded, kept.booked, kept.listed⟩, rfl, rfl⟩

theorem Feed.Kept.step {feed : Feed σ ρ} (kept : feed.Kept) (event : Event σ ρ) :
    (feed.step extractionKey investigationId ownerId event).Kept ∧
      Feed.Extends feed (feed.step extractionKey investigationId ownerId event) := by
  have same : feed.Kept ∧ Feed.Extends feed feed := ⟨kept, .refl feed⟩
  cases event with
  | submit config call commits =>
      simp only [Feed.step]
      split
      · rename_i cutting submitted
        have saved := kept.save submitted
        cases commits with
        | true => exact ⟨saved.1, saved.2.1⟩
        | false => exact same
      · exact same
  | produced settings source openLedger call commits =>
      simp only [Feed.step]
      split
      · rename_i cutting released
        have saved := kept.save (admit_released released)
        cases commits with
        | true => exact ⟨saved.1, saved.2.1⟩
        | false => exact same
      · exact same
  | record inputBytes outputTokens reconciliation =>
      simp only [Feed.step]
      split
      · exact same
      · rename_i data stored
        split
        · exact same
        · rename_i recorded answer
          have ledger := kept data.config
          simp only [ledgerFor, stored, Option.getD_some] at ledger
          obtain ⟨after, config, observations⟩ := recordRequest_kept ledger answer
          refine ⟨fun _ => after, ?_⟩
          intro other found
          obtain rfl := Option.some.inj (stored.symm.trans found)
          refine ⟨recorded, rfl, config, ?_⟩
          rw [observations]
          exact List.Subset.refl _
  | work queue => exact ⟨kept, fun data stored => ⟨data, stored, rfl, List.Subset.refl _⟩⟩

theorem kept_run (events : List (Event σ ρ)) :
    (Feed.run extractionKey investigationId ownerId events).Kept :=
  exec_invariant Feed.Kept (fun _ event kept => (kept.step event).1) kept_start events

/-- What a stored ledger says about the batches of the calls that went through and the windows
they issued. -/
structure ExactlyOnce (submitted : List Observation) (issued : List Issue) (data : RunData) :
    Prop where
  distinct : (data.observations.map Accepted.id).Nodup
  content : ∀ item ∈ data.observations,
    submitted.find? (·.id == item.id) = some item.source
  unproduced : data.config.producer = none → ∀ observation ∈ submitted,
    observation.id ∈ data.observations.map Accepted.id
  produced : data.config.producer.isSome = true → ∀ observation ∈ submitted,
    observation.id ∈ data.observations.map Accepted.id ∨
      observation.id ∈ data.unadmitted.map Unadmitted.id
  apart : ∀ item ∈ data.unadmitted, item.id ∉ data.observations.map Accepted.id
  bounded : data.observations.length ≤ data.config.policy.maxObservations
  selectedOnce : ∀ issue ∈ issued, (issue.selected.map Accepted.id).Nodup ∧
    ∀ item ∈ issue.selected, item.id ∈ data.observations.map Accepted.id ∧
      item.id ∉ issue.overlap.map Accepted.id
  covered : ∀ item ∈ data.observations,
    issued.countP (Issue.covers item.id) = if item.jobId.isSome then 1 else 0
  named : ∀ item ∈ data.observations, ∀ job, item.jobId = some job →
    ∃ issue ∈ issued, issue.covers item.id = true ∧ issue.enqueued.jobId = job
  listed : data.windows = issued.map (·.enqueued.jobId)

theorem Kept.exactlyOnce {submitted : List Observation} {issued : List Issue} {data : RunData}
    (kept : Extraction.Kept submitted issued data) : ExactlyOnce submitted issued data where
  distinct := kept.ids
  content item member := kept.admits.first item.source (List.mem_map_of_mem member)
  unproduced none observation member := by
    rw [← ids_sourcesOf]
    rcases kept.admits.settled observation member with accepted | ⟨produced, -⟩
    · exact accepted
    · simp [none] at produced
  produced _ observation member := by
    rw [← ids_sourcesOf]
    exact (kept.admits.settled observation member).imp id And.right
  apart item member := by
    rw [← ids_sourcesOf]
    exact kept.admits.apart item member
  bounded := kept.bounded
  selectedOnce issue member := by
    have distinct := kept.booked.distinct issue member
    rw [List.map_append, List.nodup_append] at distinct
    refine ⟨distinct.2.1, ?_⟩
    intro item selected
    refine ⟨kept.booked.known issue member item (List.mem_append_right _ selected), ?_⟩
    intro repeated
    exact distinct.2.2 item.id repeated item.id (List.mem_map_of_mem selected) rfl
  covered := kept.booked.once
  named := kept.booked.named
  listed := kept.listed

/-- What the feed promises in one state: of the stored ledger, of whatever happens to it
later, and of the next call. -/
structure Lawful (extractionKey : Payload → String) (investigationId : Uuid)
    (ownerId : PrincipalId) (feed : Feed σ ρ) : Prop where
  ledger : ∀ data, feed.stored = some data → ExactlyOnce feed.submitted feed.issued data
  lasting : ∀ events,
    Feed.Extends feed (exec (Feed.step extractionKey investigationId ownerId) feed events)
  ends : ∀ config call, ∃ answer, submitObservations extractionKey investigationId ownerId config
    feed.stored feed.queue call = some answer
  raises : ∀ config call raised commits, submitObservations extractionKey investigationId ownerId
    config feed.stored feed.queue call = some (.error raised) →
    feed.step extractionKey investigationId ownerId (.submit config call commits) = feed
  rejects : ∀ settings source openLedger call reason commits, producerAdmit extractionKey investigationId
    ownerId settings source openLedger feed.stored feed.queue call = some (.rejected reason) →
    feed.step extractionKey investigationId ownerId
      (.produced settings source openLedger call commits) = feed
  closes : ∀ config call cutting, submitObservations extractionKey investigationId ownerId config
    feed.stored feed.queue call = some (.ok cutting) → call.closed = true →
    call.finalized = false →
    feed.step extractionKey investigationId ownerId (.submit config call true) =
        feed.save call cutting ∧
      ∀ item ∈ cutting.data.observations, item.jobId.isSome = true ∨ item.reason.isSome = true

theorem Feed.Kept.lawful {feed : Feed σ ρ} (kept : feed.Kept) :
    Lawful extractionKey investigationId ownerId feed where
  ledger data stored := by
    have ledger := kept data.config
    simp only [ledgerFor, stored, Option.getD_some] at ledger
    exact ledger.exactlyOnce
  lasting events :=
    exec_relation Feed.Kept Feed.Extends.refl (fun step further => step.trans further)
      (fun _ event kept => (kept.step event).1) (fun _ event kept => (kept.step event).2) kept
      events
  ends config call := by
    obtain ⟨answer, ended, -⟩ := submit_sound extractionKey investigationId ownerId call
      feed.queue (kept config)
    exact ⟨answer, ended⟩
  raises config call raised commits raising := by simp only [Feed.step, raising]
  rejects settings source openLedger call reason commits rejected := by
    simp only [Feed.step, rejected]
  closes config call cutting submitted closing ongoing := by
    refine ⟨by simp only [Feed.step, submitted, if_true], ?_⟩
    have covered := (kept.save submitted).2.2 closing ongoing
    intro item member
    have settled := List.filter_eq_nil_iff.mp covered item member
    simp only [Accepted.isPending, Bool.and_eq_true, Option.isNone_iff_eq_none, not_and_or]
      at settled
    exact settled.imp Option.isSome_iff_ne_none.mpr Option.isSome_iff_ne_none.mpr

/-- However calls, producers, recorded requests and other work on the queue follow each other,
admission covers each accepted observation in exactly one window or reports it. -/
theorem incremental_exactly_once (events : List (Event σ ρ)) :
    Lawful extractionKey investigationId ownerId
      (Feed.run extractionKey investigationId ownerId events) :=
  (kept_run events).lawful

end Feeding

end Ovrly.Extraction
