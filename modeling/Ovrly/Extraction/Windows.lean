import Ovrly.Extraction.ExactlyOnce
import Ovrly.Extraction.StageKey
import Ovrly.Jobs.Workers

/-!
Extraction windows are always valid.

Each window fits the validators of `ObservationWindow`, repeats only earlier observations and has
a number of its own, so that its stage key is its own as well.
-/

namespace Ovrly.Extraction

open Relational Runs Ovrly.Jobs Ovrly.Reports Ovrly.Pipeline

section Order

theorem sortsBefore_trans {startMs endMs otherStart otherEnd lastStart lastEnd : Nat}
    {id otherId lastId : String}
    (first : sortsBefore startMs endMs id otherStart otherEnd otherId = true)
    (second : sortsBefore otherStart otherEnd otherId lastStart lastEnd lastId = true) :
    sortsBefore startMs endMs id lastStart lastEnd lastId = true := by
  simp only [sortsBefore, decide_eq_true_eq] at first second ⊢
  by_cases starts : startMs < lastStart
  · exact Or.inl starts
  · right
    refine ⟨by omega, ?_⟩
    by_cases ends : endMs < lastEnd
    · exact Or.inl ends
    · right
      rcases first with early | ⟨firstStart, early | ⟨firstEnd, earlier⟩⟩
      · omega
      · omega
      · rcases second with early | ⟨secondStart, early | ⟨secondEnd, later⟩⟩
        · omega
        · omega
        · exact ⟨by omega, earlier.trans later⟩

theorem sortsBefore_total (startMs endMs : Nat) (id : String) (otherStart otherEnd : Nat)
    (otherId : String) :
    (sortsBefore startMs endMs id otherStart otherEnd otherId ||
      sortsBefore otherStart otherEnd otherId startMs endMs id) = true := by
  simp only [sortsBefore, Bool.or_eq_true, decide_eq_true_eq]
  rcases le_total id otherId with names | names
  · by_cases starts : startMs = otherStart
    · by_cases ends : endMs = otherEnd
      · exact Or.inl (Or.inr ⟨starts, Or.inr ⟨ends, names⟩⟩)
      · omega
    · omega
  · by_cases starts : startMs = otherStart
    · by_cases ends : endMs = otherEnd
      · exact Or.inr (Or.inr ⟨starts.symm, Or.inr ⟨ends.symm, names⟩⟩)
      · omega
    · omega

def Ordered (items : List Accepted) : Prop := items.Pairwise fun first second => first.before second

theorem Accepted.before_trans (first second third : Accepted)
    (early : first.before second = true) (late : second.before third = true) :
    first.before third = true :=
  sortsBefore_trans early late

theorem Accepted.before_total (first second : Accepted) :
    (first.before second || second.before first) = true :=
  sortsBefore_total _ _ _ _ _ _

theorem mergeSort_ordered (items : List Accepted) : Ordered (items.mergeSort Accepted.before) :=
  List.pairwise_mergeSort Accepted.before_trans Accepted.before_total items

theorem Ordered.sources {items others : List Accepted} (ordered : Ordered items)
    (same : sourcesOf others = sourcesOf items) : Ordered others := by
  have bySource (list : List Accepted) : Ordered list ↔
      (sourcesOf list).Pairwise fun first second =>
        sortsBefore first.startMs first.endMs first.id second.startMs second.endMs second.id := by
    unfold Ordered sourcesOf
    rw [List.pairwise_map]
    rfl
  rw [bySource, same]
  exact (bySource items).mp ordered

theorem oneTimebase_sources {items others : List Accepted}
    (same : sourcesOf others = sourcesOf items) : oneTimebase others = oneTimebase items := by
  have bySource (list : List Accepted) : oneTimebase list =
      (sourcesOf list).all fun first => (sourcesOf list).all fun second =>
        first.timebase == second.timebase := by
    simp only [oneTimebase, sourcesOf, List.all_map]
    rfl
  rw [bySource, same, ← bySource]

end Order

section Windows

variable {data : RunData} {overlap selected pending : List Accepted}

theorem move_window (moved : data.move pending = .window overlap selected) :
    ∃ first rest, pending = first :: rest ∧ overlap = data.overlap first ∧
      selected = selectFrom (charactersOf (data.overlap first))
        ((first :: rest).take (batchSize data.threshold (first :: rest))) ∧
      (overlap ++ selected).any Accepted.isTarget = true := by
  cases pending with
  | nil => simp [RunData.move] at moved
  | cons first rest =>
      simp only [RunData.move] at moved
      split at moved
      · cases moved
      · split at moved
        · split at moved <;> cases moved
        · rename_i targeted
          simp only [Move.window.injEq] at moved
          obtain ⟨rfl, rfl⟩ := moved
          exact ⟨first, rest, rfl, rfl, rfl,
            by simpa only [Bool.not_eq_true', Bool.not_eq_false] using targeted⟩

theorem selectFrom_fits (items : List Accepted) {characters : Nat} (start : characters ≤ 24000) :
    characters + charactersOf (selectFrom characters items) ≤ 24000 := by
  induction items generalizing characters with
  | nil => simpa [selectFrom, charactersOf] using start
  | cons item rest ih =>
      unfold selectFrom
      by_cases full : characters + item.characters > 24000
      · rw [if_pos full]
        simpa [charactersOf] using start
      · rw [if_neg full]
        have further := ih (not_lt.mp full)
        have sum : charactersOf (item :: selectFrom (characters + item.characters) rest) =
            item.characters + charactersOf (selectFrom (characters + item.characters) rest) :=
          List.sum_cons
        omega

theorem overlap_sublist (first : Accepted) : (data.overlap first).Sublist data.observations :=
  (trimOverlap_suffix _ _).sublist.trans ((List.drop_sublist _ _).trans
    (List.filter_sublist.trans (List.take_sublist _ _)))

theorem overlap_length (first : Accepted) :
    (data.overlap first).length ≤ data.config.policy.overlapObservations := by
  refine (trimOverlap_suffix _ _).length_le.trans ?_
  rw [List.length_drop]
  omega

theorem window_distinct (distinct : (data.observations.map Accepted.id).Nodup)
    (waiting : sourcesOf (data.observations.filter Accepted.isPending) = sourcesOf pending)
    {first : Accepted} (begins : selected <+: pending) :
    ((data.overlap first ++ selected).map Accepted.id).Nodup := by
  have pendingIds : pending.map Accepted.id =
      (data.observations.filter Accepted.isPending).map Accepted.id := by
    rw [← ids_sourcesOf, ← waiting, ids_sourcesOf]
  have unique : (pending.map Accepted.id).Nodup := by
    rw [pendingIds]
    exact distinct.sublist (List.filter_sublist.map _)
  rw [List.map_append, List.nodup_append]
  refine ⟨distinct.sublist ((overlap_sublist first).map _),
    unique.sublist (begins.sublist.map _), ?_⟩
  intro id repeated other chosen same
  obtain ⟨covered, member, rfl⟩ := List.mem_map.mp repeated
  obtain ⟨known, has⟩ := overlap_covered member
  have listed : other ∈ pending.map Accepted.id := (begins.sublist.map _).subset chosen
  rw [pendingIds] at listed
  obtain ⟨open_, belongs, named⟩ := List.mem_map.mp listed
  obtain ⟨present, unbooked⟩ := List.mem_filter.mp belongs
  have one := eq_of_id distinct known present (same.trans named.symm)
  rw [one] at has
  simp only [Accepted.isPending, Bool.and_eq_true, Option.isNone_iff_eq_none] at unbooked
  rw [unbooked.1] at has
  cases has

/-- `ObservationWindow(...)` never raises in the loop. -/
theorem windowOf_total (number : Nat)
    (distinct : (data.observations.map Accepted.id).Nodup)
    (waiting : sourcesOf (data.observations.filter Accepted.isPending) = sourcesOf pending)
    (single : oneTimebase data.observations = true)
    (moved : data.move pending = .window overlap selected) :
    ∃ window, windowOf data.config number ((overlap ++ selected).map (·.source)) = .ok window := by
  obtain ⟨first, rest, rfl, rfl, chosen, targeted⟩ := move_window moved
  obtain ⟨begins, -⟩ := selected_prefix data first rest data.threshold
  rw [← chosen] at begins
  have listed : ∀ item ∈ data.overlap first ++ selected,
      ∃ known ∈ data.observations, known.source = item.source := by
    intro item member
    rcases List.mem_append.mp member with repeated | new
    · exact ⟨item, (overlap_sublist first).subset repeated, rfl⟩
    · have open_ : item.source ∈ sourcesOf (first :: rest) :=
        List.mem_map_of_mem (begins.subset new)
      rw [← waiting] at open_
      obtain ⟨known, belongs, same⟩ := List.mem_map.mp open_
      exact ⟨known, List.mem_of_mem_filter belongs, same⟩
  have short : first.characters ≤ 8000 := first.source.short
  have overlapFits : charactersOf (data.overlap first) + first.characters ≤ 24000 :=
    trimOverlap_fits _ (by omega)
  have fits : charactersOf (data.overlap first) + charactersOf selected ≤ 24000 := by
    rw [chosen]
    exact selectFrom_fits _ (by omega)
  have many : selected.length ≤ 64 := by
    rw [chosen]
    refine (selectFrom_isPrefix _ _).length_le.trans ((List.length_take_le _ _).trans ?_)
    exact min_le_left _ _
  have few : (data.overlap first).length ≤ 32 :=
    (overlap_length first).trans data.config.policy.overlapBound.2
  refine ⟨_, dif_pos ⟨?_, ?_, ?_, ?_, ?_⟩⟩
  · rw [← sourcesOf, ids_sourcesOf]
    exact window_distinct distinct waiting begins
  · intro one member two other
    obtain ⟨item, here, rfl⟩ := List.mem_map.mp member
    obtain ⟨another, there, rfl⟩ := List.mem_map.mp other
    obtain ⟨known, belongs, same⟩ := listed item here
    obtain ⟨other, present, equal⟩ := listed another there
    simp only [oneTimebase, List.all_eq_true, beq_iff_eq] at single
    rw [← same, ← equal]
    exact single known belongs other present
  · obtain ⟨item, member, target⟩ := List.any_eq_true.mp targeted
    exact ⟨item.source, List.mem_map_of_mem member, by simpa [Accepted.isTarget] using target⟩
  · rw [List.map_map]
    have sum : ((data.overlap first ++ selected).map
        ((fun source : Observation => source.text.length) ∘ fun item => item.source)).sum =
        charactersOf (data.overlap first) + charactersOf selected := by
      simp only [charactersOf, List.map_append, List.sum_append]
      rfl
    rw [sum]
    exact fits
  · rw [List.length_map, List.length_append]
    omega

/-- What a window repeats stands before everything it newly covers. -/
theorem overlap_precedes (ordered : Ordered data.observations)
    (distinct : (data.observations.map Accepted.id).Nodup)
    (waiting : sourcesOf (data.observations.filter Accepted.isPending) = sourcesOf pending)
    (moved : data.move pending = .window overlap selected) :
    ∀ earlier ∈ overlap, ∀ later ∈ selected, earlier.before later = true := by
  obtain ⟨first, rest, rfl, rfl, chosen, -⟩ := move_window moved
  obtain ⟨begins, -⟩ := selected_prefix data first rest data.threshold
  rw [← chosen] at begins
  obtain ⟨front, others, found⟩ : ∃ front others,
      data.observations.filter Accepted.isPending = front :: others := by
    cases found : data.observations.filter Accepted.isPending with
    | nil => simp [sourcesOf, found] at waiting
    | cons front others => exact ⟨front, others, rfl⟩
  have sameFirst : front.source = first.source := by
    rw [found] at waiting
    exact (List.cons.inj waiting).1
  have sameId : front.id = first.id := congrArg Observation.id sameFirst
  obtain ⟨before, after, split, settled, -, -⟩ := List.filter_eq_cons_iff.mp found
  have start : data.observations.findIdx (·.id == first.id) = before.length := by
    have absent : before.findIdx (·.id == first.id) = before.length := by
      rw [List.findIdx_eq_length]
      intro item member
      rw [split, List.map_append, List.nodup_append] at distinct
      have apart := distinct.2.2 item.id (List.mem_map_of_mem member) front.id
        (List.mem_map_of_mem List.mem_cons_self)
      simpa [sameId] using apart
    rw [split, List.findIdx_append, absent, if_neg (lt_irrefl _)]
    simp [List.findIdx_cons, sameId]
  intro earlier repeated later new
  have early : earlier ∈ before := by
    have covered := (trimOverlap_suffix _ _).subset repeated
    have listed := List.mem_of_mem_filter (List.mem_of_mem_drop covered)
    rw [start, split, List.take_left] at listed
    exact listed
  have open_ : later.source ∈ sourcesOf (first :: rest) := List.mem_map_of_mem (begins.subset new)
  rw [← waiting] at open_
  obtain ⟨known, belongs, same⟩ := List.mem_map.mp open_
  obtain ⟨present, unsettled⟩ := List.mem_filter.mp belongs
  have late : known ∈ front :: after := by
    rw [split] at present
    rcases List.mem_append.mp present with passed | late
    · exact absurd unsettled (settled known passed)
    · exact late
  have precedes : earlier.before known = true := by
    unfold Ordered at ordered
    rw [split, List.pairwise_append] at ordered
    exact ordered.2.2 earlier early known late
  unfold Accepted.before Accepted.id at precedes ⊢
  rwa [same] at precedes

end Windows

section Issuing

/-- The validators of a window, and what is repeated in it. -/
structure Windowed (config : Config) (index : Nat) (issue : Issue) : Prop where
  built : ∃ window,
    windowOf config (index + 1) (sourcesOf (issue.overlap ++ issue.selected)) = .ok window
  length : 1 ≤ (issue.overlap ++ issue.selected).length ∧
    (issue.overlap ++ issue.selected).length ≤ 128
  distinct : ((issue.overlap ++ issue.selected).map Accepted.id).Nodup
  oneTimebase : oneTimebase (issue.overlap ++ issue.selected) = true
  targeted : ∃ item ∈ issue.overlap ++ issue.selected, item.source.role = .target
  bounded : charactersOf (issue.overlap ++ issue.selected) ≤ 24000
  few : issue.overlap.length ≤ config.policy.overlapObservations
  precedes : ∀ earlier ∈ issue.overlap, ∀ later ∈ issue.selected,
    earlier.before later = true ∧ earlier.id ≠ later.id

theorem windowOf_valid {config : Config} {number : Nat} {items : List Accepted}
    {window : ObservationWindow} (built : windowOf config number (sourcesOf items) = .ok window) :
    items.length ≤ 128 ∧ (items.map Accepted.id).Nodup ∧ oneTimebase items = true ∧
      (∃ item ∈ items, item.source.role = .target) ∧ charactersOf items ≤ 24000 ∧
      window.windowId = windowName number := by
  unfold windowOf at built
  split at built
  · rename_i valid
    obtain rfl := Except.ok.inj built
    obtain ⟨unique, single, ⟨source, member, target⟩, short, few⟩ := valid
    refine ⟨?_, ?_, ?_, ?_, ?_, rfl⟩
    · rwa [sourcesOf, List.length_map] at few
    · rwa [ids_sourcesOf] at unique
    · simp only [oneTimebase, List.all_eq_true, beq_iff_eq]
      intro first one second other
      exact single first.source (List.mem_map_of_mem one) second.source (List.mem_map_of_mem other)
    · obtain ⟨item, belongs, rfl⟩ := List.mem_map.mp member
      exact ⟨item, belongs, target⟩
    · rwa [sourcesOf, List.map_map] at short
  · cases built

/-- The job of a window stands in the queue under the window's key. -/
def Keyed {σ ρ : Type} (digest : List Char → String) (investigationId : Uuid) (config : Config)
    (queue : Database Payload σ ρ) (index : Nat) (issue : Issue) : Prop :=
  ∃ window, windowOf config (index + 1) (sourcesOf (issue.overlap ++ issue.selected)) =
      .ok window ∧
    ∃ row ∈ queue.jobs.rows, row.id = issue.enqueued.jobId ∧
      row.key = ⟨1, "claim_extraction", extractionKey digest ⟨investigationId, window, true⟩⟩

variable {σ ρ : Type} [EmptyCollection σ] {digest : List Char → String} {investigationId : Uuid}
  {ownerId : PrincipalId} {call : Submission} {cutting next : Cutting σ ρ}
  {data : RunData} {overlap selected pending rest : List Accepted} {submitted : List Observation}
  {earlier : List Issue}

theorem enqueue_row {π : Type} {db after : Database π σ ρ} {new : NewJob π} {clock : Clock}
    {answer : Enqueued} (accepted : enqueue db new clock = .ok (answer, after)) :
    (∃ row ∈ after.jobs.rows, row.id = answer.jobId ∧ row.key = new.key) ∧
      db.jobs.rows ⊆ after.jobs.rows := by
  rcases enqueue_rows accepted with ⟨existing, member, key, named, same⟩ | ⟨-, named, rows⟩
  · rw [same, named]
    exact ⟨⟨existing, member, rfl, key⟩, List.Subset.refl _⟩
  · rw [rows, named]
    exact ⟨⟨newRow new clock, List.mem_append_right _ (List.mem_singleton_self _), rfl, rfl⟩,
      List.subset_append_left _ _⟩

theorem issue_keyed
    (issued : cutting.issue (extractionKey digest) investigationId ownerId call overlap selected =
      .ok next) :
    ∃ enqueued, next.issues = cutting.issues ++ [⟨enqueued, overlap, selected⟩] ∧
      Keyed digest investigationId cutting.data.config next.queue cutting.data.windows.length
        ⟨enqueued, overlap, selected⟩ ∧
      cutting.queue.jobs.rows ⊆ next.queue.jobs.rows := by
  simp only [Cutting.issue, bind, Except.bind, pure, Except.pure] at issued
  cases built : windowOf cutting.data.config (cutting.data.windows.length + 1)
      ((overlap ++ selected).map (·.source)) with
  | error raised => simp only [built, reduceCtorEq] at issued
  | ok window =>
      simp only [built] at issued
      cases answer : enqueueExtraction (extractionKey digest) investigationId ownerId cutting.queue
          call (cutting.data.windows.length + 1) window with
      | error raised => simp [answer] at issued
      | ok queued =>
          simp only [answer, Except.ok.injEq] at issued
          subst next
          unfold enqueueExtraction at answer
          dsimp only at answer
          split at answer
          · cases answer
          · rename_i accepted
            obtain rfl := Except.ok.inj answer
            obtain ⟨row, kept⟩ := enqueue_row accepted
            exact ⟨_, rfl, ⟨window, built, row⟩, kept⟩

omit [EmptyCollection σ] in
theorem Keyed.mono {config : Config} {queue later : Database Payload σ ρ} {index : Nat}
    {issue : Issue} (keyed : Keyed digest investigationId config queue index issue)
    (kept : queue.jobs.rows ⊆ later.jobs.rows) :
    Keyed digest investigationId config later index issue := by
  obtain ⟨window, built, row, member, named, key⟩ := keyed
  exact ⟨window, built, row, kept member, named, key⟩

/-- A round that cuts a window out of an ordered ledger cuts a valid one. -/
theorem move_windowed (index : Nat) (enqueued : Enqueued)
    (ordered : Ordered data.observations) (single : oneTimebase data.observations = true)
    (distinct : (data.observations.map Accepted.id).Nodup)
    (waiting : sourcesOf (data.observations.filter Accepted.isPending) = sourcesOf pending)
    (moved : data.move pending = .window overlap selected) :
    Windowed data.config index ⟨enqueued, overlap, selected⟩ := by
  obtain ⟨window, built⟩ := windowOf_total (index + 1) distinct waiting single moved
  obtain ⟨many, unique, timebase, targeted, short, -⟩ := windowOf_valid built
  have apart := unique
  rw [List.map_append, List.nodup_append] at apart
  have precedes := overlap_precedes ordered distinct waiting moved
  obtain ⟨first, rest, rfl, rfl, chosen, -⟩ := move_window moved
  obtain ⟨begins, some⟩ := selected_prefix data first rest data.threshold
  rw [← chosen] at some
  refine ⟨⟨window, built⟩, ⟨?_, many⟩, unique, timebase, targeted, short, overlap_length first, ?_⟩
  · exact List.length_pos_iff.mpr (List.append_ne_nil_of_right_ne_nil _ some)
  · intro early repeated late new
    exact ⟨precedes early repeated late new,
      apart.2.2 early.id (List.mem_map_of_mem repeated) late.id (List.mem_map_of_mem new)⟩

structure AllWindowed (digest : List Char → String) (investigationId : Uuid) (config : Config)
    (earlier : List Issue) (cutting : Cutting σ ρ) : Prop where
  windowed : ∀ index issue, (earlier ++ cutting.issues)[index]? = some issue →
    Windowed config index issue
  keyed : ∀ index issue, cutting.issues[index]? = some issue →
    Keyed digest investigationId config cutting.queue (earlier.length + index) issue

omit [EmptyCollection σ] in
theorem AllWindowed.issue {config : Config} {enqueued : Enqueued}
    (all : AllWindowed digest investigationId config earlier cutting)
    (issues : next.issues = cutting.issues ++ [⟨enqueued, overlap, selected⟩])
    (windowed : Windowed config (earlier ++ cutting.issues).length ⟨enqueued, overlap, selected⟩)
    (keyed : Keyed digest investigationId config next.queue (earlier ++ cutting.issues).length
      ⟨enqueued, overlap, selected⟩)
    (kept : cutting.queue.jobs.rows ⊆ next.queue.jobs.rows) :
    AllWindowed digest investigationId config earlier next where
  windowed index issue found := by
    rw [issues, ← List.append_assoc, List.getElem?_append] at found
    by_cases old : index < (earlier ++ cutting.issues).length
    · rw [if_pos old] at found
      exact all.windowed index issue found
    · rw [if_neg old, List.getElem?_singleton] at found
      split at found
      · obtain rfl := Option.some.inj found
        have last : index = (earlier ++ cutting.issues).length := by omega
        rwa [last]
      · cases found
  keyed index issue found := by
    rw [issues, List.getElem?_append] at found
    by_cases old : index < cutting.issues.length
    · rw [if_pos old] at found
      exact (all.keyed index issue found).mono kept
    · rw [if_neg old, List.getElem?_singleton] at found
      split at found
      · obtain rfl := Option.some.inj found
        have last : earlier.length + index = (earlier ++ cutting.issues).length := by
          rw [List.length_append]
          omega
        rwa [last]
      · cases found

def windowInvalid : Pipeline.Failure := .nonRetriableInput "Observation window is invalid"

theorem issue_error {raised : Pipeline.Failure}
    (single : oneTimebase cutting.data.observations = true)
    (distinct : (cutting.data.observations.map Accepted.id).Nodup)
    (waiting : sourcesOf (cutting.data.observations.filter Accepted.isPending) =
      sourcesOf pending)
    (moved : cutting.data.move pending = .window overlap selected)
    (failed : cutting.issue (extractionKey digest) investigationId ownerId call overlap selected =
      .error raised) : raised ≠ windowInvalid := by
  obtain ⟨window, built⟩ := windowOf_total (cutting.data.windows.length + 1) distinct waiting
    single moved
  simp only [Cutting.issue, bind, Except.bind, pure, Except.pure, built] at failed
  cases answer : enqueueExtraction (extractionKey digest) investigationId ownerId cutting.queue
      call (cutting.data.windows.length + 1) window with
  | ok queued => simp [answer] at failed
  | error refused =>
      simp only [answer, Except.error.injEq] at failed
      unfold enqueueExtraction at answer
      dsimp only at answer
      split at answer
      · rw [← failed, ← Except.error.inj answer]
        decide
      · cases answer

theorem admitOne_error {config : Config} {closed finalized : Bool} {intake : Intake}
    {observation : Observation} {raised : Pipeline.Failure}
    (failed : admitOne config closed finalized intake observation = .error raised) :
    raised ≠ windowInvalid := by
  unfold admitOne at failed
  split at failed
  · split at failed
    · rw [← Except.error.inj failed]
      decide
    · cases failed
  · split at failed
    · cases failed
    · dsimp only at failed
      split at failed
      · cases failed
      · split at failed
        · rw [← Except.error.inj failed]
          decide
        · cases failed

theorem admitAll_error {config : Config} {closed finalized : Bool} {intake : Intake}
    {batch : List Observation} {raised : Pipeline.Failure}
    (failed : admitAll config closed finalized intake batch = .error raised) :
    raised ≠ windowInvalid := by
  induction batch generalizing intake with
  | nil => cases failed
  | cons observation rest ih =>
      simp only [admitAll, List.foldlM_cons] at failed
      cases first : admitOne config closed finalized intake observation with
      | error reason =>
          simp only [first, bind, Except.bind, Except.error.injEq] at failed
          rw [← failed]
          exact admitOne_error first
      | ok middle =>
          rw [first] at failed
          exact ih failed

/-- What a call admits is in order and on one timebase, and the window validator is not what
admission raises. -/
theorem admission_cases (config : Config) (stored : Option RunData) (call : Submission) :
    (∃ raised, admission config stored call = .error raised ∧ raised ≠ windowInvalid) ∨
      ∃ data, admission config stored call = .ok data ∧ Ordered data.observations ∧
        oneTimebase data.observations = true := by
  unfold admission
  simp only [bind, Except.bind, pure, Except.pure, throw, throwThe, MonadExceptOf.throw]
  by_cases stopped : call.captureStopped = true
  · rw [if_pos stopped]
    exact Or.inl ⟨_, rfl, by decide⟩
  rw [if_neg stopped]
  by_cases unowned : (!call.owned || !config.hostedProcessingApproved) = true
  · rw [if_pos unowned]
    exact Or.inl ⟨_, rfl, by decide⟩
  rw [if_neg unowned]
  by_cases reopened : (call.finalized && config.producer.isNone) = true
  · rw [if_pos reopened]
    exact Or.inl ⟨_, rfl, by decide⟩
  rw [if_neg reopened]
  by_cases changed : (stored.getD { config := config }).config.changed config = true
  · rw [if_pos changed]
    exact Or.inl ⟨_, rfl, by decide⟩
  rw [if_neg changed]
  cases admitted : admitAll config (stored.getD { config := config }).closed call.finalized
      ⟨(stored.getD { config := config }).observations,
        (stored.getD { config := config }).unadmitted⟩ call.observations with
  | error raised => exact Or.inl ⟨raised, rfl, admitAll_error admitted⟩
  | ok intake =>
      dsimp only
      by_cases full : config.policy.maxObservations < intake.existing.length
      · rw [if_pos full]
        exact Or.inl ⟨_, rfl, by decide⟩
      rw [if_neg full]
      by_cases mixed : (!oneTimebase (intake.existing.mergeSort Accepted.before)) = true
      · rw [if_pos mixed]
        exact Or.inl ⟨_, rfl, by decide⟩
      rw [if_neg mixed]
      exact Or.inr ⟨_, rfl, mergeSort_ordered _, by simpa using mixed⟩

omit [EmptyCollection σ] in
theorem SameInput.ordered {before after : RunData} (same : SameInput before after)
    (ordered : Ordered before.observations) : Ordered after.observations :=
  ordered.sources same.sources

theorem SameInput.single {before after : RunData} (same : SameInput before after)
    (single : oneTimebase before.observations = true) : oneTimebase after.observations = true := by
  rw [oneTimebase_sources same.sources, single]

variable (digest investigationId ownerId call) in
theorem cut_windowed (state : Cut submitted earlier cutting pending)
    (ordered : Ordered cutting.data.observations)
    (single : oneTimebase cutting.data.observations = true)
    (all : AllWindowed digest investigationId cutting.data.config earlier cutting) {fuel : Nat}
    (enough : pending.length < fuel) :
    ∃ answer, cutting.cut (extractionKey digest) investigationId ownerId call fuel pending =
        some answer ∧ answer ≠ .error windowInvalid ∧
      ∀ final, answer = .ok final →
        AllWindowed digest investigationId final.data.config earlier final := by
  obtain ⟨answer, ended, stopped, failed⟩ := cut_rule (extractionKey digest) investigationId
    ownerId call
    (fun current waiting => Cut submitted earlier current waiting ∧
      SameInput cutting.data current.data ∧
      AllWindowed digest investigationId cutting.data.config earlier current)
    (fun current selected rest kept _ =>
      ⟨kept.1.skip, kept.2.1.trans (.mark skipped_source), kept.2.2.windowed, kept.2.2.keyed⟩)
    (by
      rintro current next overlap selected rest ⟨kept, input, all⟩ moved issued
      obtain ⟨enqueued, issues, keyed, rows⟩ := issue_keyed issued
      have windowed := move_windowed (earlier ++ current.issues).length enqueued
        (input.ordered ordered) (input.single single) kept.kept.ids kept.pending moved
      rw [kept.kept.listed, List.length_map] at keyed
      rw [input.config] at keyed windowed
      exact ⟨kept.issue (fun item member => (move_window_covered moved item member).1) issued,
        input.trans (Cutting.issue_input issued), all.issue issues windowed keyed rows⟩)
    ⟨state, .refl _, all⟩ enough
  refine ⟨answer, ended, ?_, ?_⟩
  · intro raised
    obtain ⟨before, overlap, selected, rest, ⟨kept, input, -⟩, moved, refused⟩ :=
      failed windowInvalid raised
    exact issue_error (input.single single) kept.kept.ids kept.pending moved refused rfl
  · intro final same
    obtain ⟨rest, ⟨-, input, all⟩, -⟩ := stopped final same
    rwa [input.config]

variable (digest investigationId ownerId call) in
theorem submit_windowed {config : Config} {stored : Option RunData} (queue : Database Payload σ ρ)
    {issued : List Issue}
    (kept : Kept submitted issued (ledgerFor config stored))
    (before : ∀ index issue, issued[index]? = some issue →
      Windowed (ledgerFor config stored).config index issue) :
    ∃ answer, submitObservations (extractionKey digest) investigationId ownerId config stored queue
        call = some answer ∧ answer ≠ .error windowInvalid ∧
      ∀ final, answer = .ok final →
        AllWindowed digest investigationId final.data.config issued final := by
  rcases admission_cases config stored call with ⟨raised, admitted, valid⟩ |
    ⟨data, admitted, ordered, single⟩
  · simp only [submitObservations, admitted]
    refine ⟨_, rfl, ?_, ?_⟩
    · intro same
      exact valid (Except.error.inj same)
    · intro final same
      cases same
  · obtain ⟨after, -, config, -⟩ := admission_kept kept admitted
    have all : AllWindowed (σ := σ) (ρ := ρ) digest investigationId data.config issued
        ⟨data, queue, []⟩ := by
      constructor
      · intro index issue found
        rw [List.append_nil] at found
        rw [config]
        exact before index issue found
      · intro index issue found
        simp at found
    simp only [submitObservations, admitted]
    by_cases finalized : call.finalized = true
    · simp only [RunData.pending, finalized, if_true, Cutting.cut, RunData.move]
      refine ⟨_, rfl, by simp, ?_⟩
      intro final same
      obtain rfl := Except.ok.inj same
      exact all
    · simp only [RunData.pending, finalized, Bool.false_eq_true, if_false]
      exact cut_windowed digest investigationId ownerId call
        ⟨by simpa using after, rfl⟩ ordered single all (Nat.lt_succ_self _)

end Issuing

section Feeding

variable {σ ρ : Type} [EmptyCollection σ] {digest : List Char → String} {investigationId : Uuid}
  {ownerId : PrincipalId} {feed : Feed σ ρ}

def Feed.Windowed (feed : Feed σ ρ) : Prop :=
  ∀ config index issue, feed.issued[index]? = some issue →
    Extraction.Windowed (ledgerFor config feed.stored).config index issue

theorem Feed.Windowed.save {config : Config} {call : Submission} {cutting : Cutting σ ρ}
    (windowed : feed.Windowed) (kept : feed.Kept)
    (submitted : submitObservations (extractionKey digest) investigationId ownerId config feed.stored
      feed.queue call = some (.ok cutting)) : (feed.save call cutting).Windowed := by
  obtain ⟨answer, ended, -, all⟩ := submit_windowed digest investigationId ownerId call feed.queue
    (kept config) (windowed config)
  rw [submitted, Option.some.injEq] at ended
  intro _ index issue found
  exact (all cutting ended.symm).windowed index issue found

theorem Feed.Windowed.step (windowed : feed.Windowed) (kept : feed.Kept) (event : Event σ ρ) :
    (feed.step (extractionKey digest) investigationId ownerId event).Windowed := by
  cases event with
  | submit config call commits =>
      simp only [Feed.step]
      split
      · rename_i cutting submitted
        cases commits with
        | true => exact windowed.save kept submitted
        | false => exact windowed
      · exact windowed
  | produced settings source openLedger call commits =>
      simp only [Feed.step]
      split
      · rename_i cutting released
        cases commits with
        | true =>
            have saved := windowed.save kept (admit_released released)
            exact saved
        | false => exact windowed
      · exact windowed
  | record inputBytes outputTokens reconciliation =>
      simp only [Feed.step]
      split
      · exact windowed
      · rename_i data stored
        split
        · exact windowed
        · rename_i recorded answer
          obtain ⟨-, -, rfl⟩ := RunData.recordRequest_ok.mp answer
          intro config index issue found
          have before := windowed config index issue found
          simp only [ledgerFor, stored, Option.getD_some] at before
          exact before
  | work queue => exact windowed

variable (digest investigationId ownerId) in
theorem windowed_run (events : List (Event σ ρ)) :
    (Feed.run (extractionKey digest) investigationId ownerId events).Kept ∧
      (Feed.run (extractionKey digest) investigationId ownerId events).Windowed := by
  apply exec_invariant (fun feed : Feed σ ρ => feed.Kept ∧ feed.Windowed)
  · intro feed event ⟨kept, windowed⟩
    exact ⟨(kept.step event).1, windowed.step kept event⟩
  · exact ⟨kept_start, fun config index issue found => by simp at found⟩

/-- SHA-256 gives two different texts of windows different digests. -/
def TellsApart (digest : List Char → String) (first second : Payload) : Prop :=
  digest (canonical first) = digest (canonical second) → canonical first = canonical second

structure ValidWindows (digest : List Char → String) (investigationId : Uuid)
    (earlier : List Issue) (cutting : Cutting σ ρ) : Prop
    extends AllWindowed digest investigationId cutting.data.config earlier cutting where
  apart : ∀ index other issue another window second, index ≠ other →
    (earlier ++ cutting.issues)[index]? = some issue →
    (earlier ++ cutting.issues)[other]? = some another →
    windowOf cutting.data.config (index + 1) (sourcesOf (issue.overlap ++ issue.selected)) =
      .ok window →
    windowOf cutting.data.config (other + 1) (sourcesOf (another.overlap ++ another.selected)) =
      .ok second →
    TellsApart digest ⟨investigationId, window, true⟩ ⟨investigationId, second, true⟩ →
    extractionKey digest ⟨investigationId, window, true⟩ ≠
      extractionKey digest ⟨investigationId, second, true⟩

omit [EmptyCollection σ] in
theorem AllWindowed.valid {earlier : List Issue} {cutting : Cutting σ ρ}
    (all : AllWindowed digest investigationId cutting.data.config earlier cutting) :
    ValidWindows digest investigationId earlier cutting where
  toAllWindowed := all
  apart index other issue another window second numbers _ _ built next tells same := by
    have name := (windowOf_valid built).2.2.2.2.2
    have otherName := (windowOf_valid next).2.2.2.2.2
    have differs : canonical ⟨investigationId, window, true⟩ ≠
        canonical ⟨investigationId, second, true⟩ :=
      canonical_differs name otherName (by omega)
    exact differs (tells same)

/-- Whatever the ledger went through before, the window loop of a call ends, each window passes
its validators and has its own key. -/
theorem windows_valid (events : List (Event σ ρ)) (config : Config) (call : Submission) :
    ∃ answer, submitObservations (extractionKey digest) investigationId ownerId config
        (Feed.run (extractionKey digest) investigationId ownerId events).stored
        (Feed.run (extractionKey digest) investigationId ownerId events).queue call =
          some answer ∧
      answer ≠ .error windowInvalid ∧
      ∀ cutting, answer = .ok cutting → ValidWindows digest investigationId
        (Feed.run (extractionKey digest) investigationId ownerId events).issued cutting := by
  obtain ⟨kept, windowed⟩ := windowed_run digest investigationId ownerId events
  obtain ⟨answer, ended, valid, all⟩ := submit_windowed digest investigationId ownerId call
    (Feed.run (extractionKey digest) investigationId ownerId events).queue (kept config)
    (windowed config)
  exact ⟨answer, ended, valid, fun cutting same => (all cutting same).valid⟩

end Feeding

end Ovrly.Extraction
