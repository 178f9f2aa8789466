import Ovrly.Releases.Publishing

/-!
Version codes are unique and increase.

Creating a ref is atomic, so a code is reserved and issued once whatever the runs do. That issued
codes increase rests on the concurrency group of the publish jobs: the ledger that a publish job
loaded still has every issued code when it issues its own.
-/

namespace Ovrly.Releases

open Relational Runs

section Loading

def reservedIn (entries : List Entry) : List Nat := entries.filterMap (·.ref.reserved?)

def issuedIn (entries : List Entry) : List Nat := entries.filterMap (·.ref.issued?)

variable {ledger next : Ledger} {entry : Entry} {listing : List Entry} {settings : Settings}

theorem read_codes (read : ledger.read entry = .ok next) :
    next.reservedCodes = ledger.reservedCodes ++ reservedIn [entry] ∧
      next.issuedCodes = ledger.issuedCodes ++ issuedIn [entry] := by
  unfold Ledger.read at read
  cases kind : entry.ref with
  | bootstrap =>
      simp only [kind, Except.ok.injEq] at read
      simp [reservedIn, issuedIn, kind, Ref.reserved?, Ref.issued?, read]
  | other name => simp [kind] at read
  | reserve code =>
      simp only [kind, bind, Except.bind, pure, Except.pure] at read
      split at read
      · cases read
      · split at read
        · cases read
        · split at read
          · cases read
          · obtain rfl := Except.ok.inj read
            simp [reservedIn, issuedIn, kind, Ref.reserved?, Ref.issued?, Ledger.reservedCodes,
              Ledger.issuedCodes]
  | issue code =>
      simp only [kind, bind, Except.bind, pure, Except.pure] at read
      split at read
      · cases read
      · split at read
        · cases read
        · split at read
          · cases read
          · obtain rfl := Except.ok.inj read
            simp [reservedIn, issuedIn, kind, Ref.reserved?, Ref.issued?, Ledger.reservedCodes,
              Ledger.issuedCodes]

theorem readAll_codes (read : listing.foldlM Ledger.read ledger = .ok next) :
    next.reservedCodes = ledger.reservedCodes ++ reservedIn listing ∧
      next.issuedCodes = ledger.issuedCodes ++ issuedIn listing := by
  induction listing generalizing ledger with
  | nil =>
      simp only [List.foldlM_nil, pure, Except.pure, Except.ok.injEq] at read
      simp [reservedIn, issuedIn, read]
  | cons entry rest ih =>
      rw [List.foldlM_cons] at read
      cases first : ledger.read entry with
      | error raised => simp [first, bind, Except.bind] at read
      | ok middle =>
          rw [first] at read
          obtain ⟨reserved, issued⟩ := read_codes first
          obtain ⟨laterReserved, laterIssued⟩ := ih read
          rw [laterReserved, laterIssued, reserved, issued, List.append_assoc, List.append_assoc,
            reservedIn, reservedIn, issuedIn, issuedIn, ← List.filterMap_append,
            ← List.filterMap_append]
          exact ⟨rfl, rfl⟩

theorem loadBootstrap_codes (opened : loadBootstrap settings listing = .ok ledger) :
    ledger.reservedCodes = [] ∧ ledger.issuedCodes = [] := by
  unfold loadBootstrap at opened
  simp only [bind, Except.bind, pure, Except.pure, throw, throwThe, MonadExceptOf.throw] at opened
  split at opened
  · cases opened
  · split at opened
    · cases opened
    · split at opened
      · cases opened
      · split at opened
        · cases opened
        · split at opened
          · cases opened
          · obtain rfl := Except.ok.inj opened
            exact ⟨rfl, rfl⟩

theorem load_codes (loaded : load settings listing = .ok ledger) :
    ledger.reservedCodes = reservedIn listing ∧ ledger.issuedCodes = issuedIn listing := by
  unfold load at loaded
  simp only [bind, Except.bind, pure, Except.pure, throw, throwThe, MonadExceptOf.throw] at loaded
  split at loaded
  · cases loaded
  · split at loaded
    · cases loaded
    · rename_i opened openedOk
      split at loaded
      · cases loaded
      · rename_i read readOk
        split at loaded
        · cases loaded
        · split at loaded
          · cases loaded
          · obtain rfl := Except.ok.inj loaded
            obtain ⟨noReserved, noIssued⟩ := loadBootstrap_codes openedOk
            obtain ⟨reserved, issued⟩ := readAll_codes readOk
            rw [noReserved, List.nil_append] at reserved
            rw [noIssued, List.nil_append] at issued
            exact ⟨reserved, issued⟩

end Loading

section Writing

variable {refs : Table Entry} {writing : Writing} {answer : Answer} {head : String}

inductive Attempted (refs : Table Entry) (writing : Writing) : Attempt → Prop
  | written (next : Table Entry) (entry : Entry) (record : Record) : entry.ref = writing.ref →
      next.rows = refs.rows ++ [entry] → Attempted refs writing ⟨next, true, .written record⟩
  | lost (next : Table Entry) (entry : Entry) : entry.ref = writing.ref →
      next.rows = refs.rows ++ [entry] → Attempted refs writing ⟨next, true, .raised⟩
  | taken : Attempted refs writing ⟨refs, false, .exists_⟩
  | again (next : Writing) : next.ref = writing.ref →
      Attempted refs writing ⟨refs, false, .again next⟩
  | raised : Attempted refs writing ⟨refs, false, .raised⟩

theorem write_attempted (refs : Table Entry) (writing : Writing) (answer : Answer)
    (head : String) : Attempted refs writing (write refs writing answer head) := by
  cases answer with
  | created tagSha =>
      cases inserted : refs.insert? (writing.entry tagSha) with
      | none =>
          simp only [write, inserted]
          exact .taken
      | some next =>
          simp only [write, inserted]
          exact .written next (writing.entry tagSha) _ rfl (Table.rows_insert? inserted)
  | lost tagSha =>
      cases inserted : refs.insert? (writing.entry tagSha) with
      | none =>
          simp only [write, inserted]
          exact .raised
      | some next =>
          simp only [write, inserted]
          exact .lost next (writing.entry tagSha) rfl (Table.rows_insert? inserted)
  | moved =>
      unfold write
      dsimp only
      split
      · exact .raised
      · exact .again _ rfl
  | failed => exact .raised

end Writing

section Invariant

def World.reservedCodes (world : World) : List Nat := reservedIn world.refs.rows

def World.issuedCodes (world : World) : List Nat := issuedIn world.refs.rows

structure Party.Fits (party : Party) : Prop where
  loaded : ∀ ledger, party.ledger = some ledger → party.loaded ⊆ ledger.used
  allocating : ∀ allocation writing, party.task = .allocating allocation writing →
    writing.ref = .reserve allocation.code ∧
      ∃ ledger, party.ledger = some ledger ∧ ∀ code ∈ ledger.used, code < allocation.code
  issuing : ∀ code writing, party.task = .issuing code writing →
    writing.ref = .issue code ∧ party.job = some .publish ∧
      ∃ ledger, party.ledger = some ledger ∧ ∀ other ∈ ledger.issuedCodes, other < code

/-- Every reservation is noted, above all codes its run knew. -/
structure World.Sound (world : World) : Prop where
  fits : ∀ party, (world.parties party).Fits
  noted : world.reserved.map Reserved.code = world.reservedCodes
  above : ∀ reserved ∈ world.reserved, ∀ code ∈ reserved.known, code < reserved.code

/-- The publish job that runs knows every issued code. -/
structure World.Serial (world : World) : Prop where
  held : ∀ party, (world.parties party).job = some .publish → world.holder = some party
  listing : ∀ party since again, (world.parties party).job = some .publish →
    (world.parties party).task = .listing since again → world.issuedCodes ⊆ issuedIn since
  known : ∀ party ledger, (world.parties party).job = some .publish →
    (world.parties party).ledger = some ledger → world.issuedCodes ⊆ ledger.issuedCodes
  increasing : world.issuedCodes.Pairwise (· < ·)

theorem lt_of_max? {items : List Nat} {floor code : Nat}
    (above : items.max?.getD floor < code) : ∀ item ∈ items, item < code := by
  intro item member
  cases found : items.max? with
  | none =>
      rw [List.max?_eq_none_iff] at found
      rw [found] at member
      cases member
  | some largest =>
      rw [found, Option.getD_some] at above
      exact lt_of_le_of_lt ((List.max?_eq_some_iff.mp found).2 item member) above

theorem nextCode_above {ledger : Ledger} {code : Nat} (next : ledger.nextCode = .ok code) :
    ∀ other ∈ ledger.used, other < code := by
  unfold Ledger.nextCode at next
  dsimp only at next
  split at next
  · cases next
  · obtain rfl := Except.ok.inj next
    exact lt_of_max? (Nat.lt_succ_self _)

theorem checkIssue_above {ledger : Ledger} {code : Nat} (checked : checkIssue ledger code = .ok ()) :
    ∀ other ∈ ledger.issuedCodes, other < code := by
  unfold checkIssue at checked
  split at checked
  · cases checked
  · split at checked
    · cases checked
    · rename_i above
      exact lt_of_max? (Nat.lt_of_not_le above)

theorem fits_start : Party.Fits {} where
  loaded ledger held := by cases held
  allocating allocation writing doing := by cases doing
  issuing code writing doing := by cases doing

variable {world next : World} {party : Nat} {state : Party}

@[simp] theorem set_parties (other : Nat) :
    (world.set party state).parties other =
      if other = party then state else world.parties other := by
  simp [World.set, Function.update_apply]

@[simp] theorem set_refs : (world.set party state).refs = world.refs := rfl
@[simp] theorem set_holder : (world.set party state).holder = world.holder := rfl
@[simp] theorem set_reserved : (world.set party state).reserved = world.reserved := rfl

@[simp] theorem leave_parties (other : Nat) :
    (world.leave party).parties other = if other = party then {} else world.parties other := by
  simp [World.leave, World.set, Function.update_apply]

@[simp] theorem leave_refs : (world.leave party).refs = world.refs := rfl
@[simp] theorem leave_reserved : (world.leave party).reserved = world.reserved := rfl

theorem World.Sound.set (sound : world.Sound) (fits : state.Fits) :
    (world.set party state).Sound where
  fits other := by
    rw [set_parties]
    by_cases same : other = party
    · rw [if_pos same]
      exact fits
    · rw [if_neg same]
      exact sound.fits other
  noted := sound.noted
  above := sound.above

theorem World.Sound.leave (sound : world.Sound) : (world.leave party).Sound where
  fits other := by
    rw [leave_parties]
    by_cases same : other = party
    · rw [if_pos same]
      exact fits_start
    · rw [if_neg same]
      exact sound.fits other
  noted := sound.noted
  above := sound.above

theorem World.Serial.leave (serial : world.Serial) : (world.leave party).Serial where
  held other publishing := by
    rw [leave_parties] at publishing
    by_cases same : other = party
    · rw [if_pos same] at publishing
      cases publishing
    · rw [if_neg same] at publishing
      have holder := serial.held other publishing
      simp only [World.leave, holder, Option.some.injEq, if_neg same]
  listing other since again publishing doing := by
    rw [leave_parties] at publishing doing
    by_cases same : other = party
    · rw [if_pos same] at publishing
      cases publishing
    · rw [if_neg same] at publishing doing
      exact serial.listing other since again publishing doing
  known other ledger publishing held := by
    rw [leave_parties] at publishing held
    by_cases same : other = party
    · rw [if_pos same] at publishing
      cases publishing
    · rw [if_neg same] at publishing held
      exact serial.known other ledger publishing held
  increasing := serial.increasing

theorem World.Serial.set (serial : world.Serial) (job : state.job = (world.parties party).job)
    (listing : ∀ since again, state.job = some .publish → state.task = .listing since again →
      world.issuedCodes ⊆ issuedIn since)
    (known : ∀ ledger, state.job = some .publish → state.ledger = some ledger →
      world.issuedCodes ⊆ ledger.issuedCodes) :
    (world.set party state).Serial where
  held other publishing := by
    rw [set_parties] at publishing
    by_cases same : other = party
    · rw [if_pos same, job] at publishing
      rw [same]
      exact serial.held party publishing
    · rw [if_neg same] at publishing
      exact serial.held other publishing
  listing other since again publishing doing := by
    rw [set_parties] at publishing doing
    by_cases same : other = party
    · rw [if_pos same] at publishing doing
      exact listing since again publishing doing
    · rw [if_neg same] at publishing doing
      exact serial.listing other since again publishing doing
  known other ledger publishing held := by
    rw [set_parties] at publishing held
    by_cases same : other = party
    · rw [if_pos same] at publishing held
      exact known ledger publishing held
    · rw [if_neg same] at publishing held
      exact serial.known other ledger publishing held
  increasing := serial.increasing

end Invariant

section Steps

variable {world : World} {party : Nat} {ledger : Ledger} {settings : Settings}

theorem World.Sound.allocate (sound : world.Sound)
    (loaded : (world.parties party).loaded ⊆ ledger.used) (sourceSha : String) (run : Run)
    (head : String) (attempts : Nat) :
    (world.allocate party ledger sourceSha run head attempts).Sound := by
  cases attempts with
  | zero => exact sound.leave
  | succ attempts =>
      simp only [World.allocate]
      cases chosen : ledger.nextCode with
      | error raised => exact sound.leave
      | ok code =>
          dsimp only
          split
          · exact sound.leave
          · apply sound.set
            refine ⟨?_, ?_, ?_⟩
            · intro held same
              obtain rfl := Option.some.inj same
              exact loaded
            · intro allocation writing doing
              simp only [Task.allocating.injEq] at doing
              obtain ⟨rfl, rfl⟩ := doing
              exact ⟨rfl, ledger, rfl, nextCode_above chosen⟩
            · intro other writing doing
              cases doing

theorem World.Serial.allocate (serial : world.Serial)
    (known : (world.parties party).job = some .publish → world.issuedCodes ⊆ ledger.issuedCodes)
    (sourceSha : String) (run : Run) (head : String) (attempts : Nat) :
    (world.allocate party ledger sourceSha run head attempts).Serial := by
  cases attempts with
  | zero => exact serial.leave
  | succ attempts =>
      simp only [World.allocate]
      split
      · exact serial.leave
      · split
        · exact serial.leave
        · refine serial.set ?_ ?_ ?_
          · rfl
          · intro since again _ doing
            cases doing
          · intro held publishing same
            obtain rfl := Option.some.inj same
            exact known publishing

theorem issued_subset {first second : List Entry} (subset : first ⊆ second) :
    issuedIn first ⊆ issuedIn second := by
  intro code member
  obtain ⟨entry, listed, issued⟩ := List.mem_filterMap.mp member
  exact List.mem_filterMap.mpr ⟨entry, subset listed, issued⟩

theorem shows_since {since listing : List Entry} (shows : world.shows since listing = true) :
    since ⊆ listing := by
  simp only [World.shows, Bool.and_eq_true, List.all_eq_true, List.contains_iff_mem] at shows
  exact fun entry member => shows.1 entry member

theorem World.Sound.listed (sound : world.Sound) (listing : List Entry) (head : String)
    (again : Option Allocation) : (world.listed settings party listing head again).Sound := by
  unfold World.listed
  cases loaded : load settings listing with
  | error raised => exact sound.leave
  | ok fresh =>
      have fits : Party.Fits { world.parties party with
          ledger := some fresh, loaded := fresh.used, task := .idle } := by
        refine ⟨?_, ?_, ?_⟩
        · intro held same
          obtain rfl := Option.some.inj same
          exact List.Subset.refl _
        · intro allocation writing doing
          cases doing
        · intro code writing doing
          cases doing
      cases again with
      | none => exact sound.set fits
      | some allocation =>
          apply (sound.set fits).allocate
          rw [set_parties, if_pos rfl]
          exact List.Subset.refl _

theorem World.Serial.listed (serial : world.Serial) {since listing : List Entry}
    {again : Option Allocation} (doing : (world.parties party).task = .listing since again)
    (shows : world.shows since listing = true) (head : String) :
    (world.listed settings party listing head again).Serial := by
  unfold World.listed
  cases loaded : load settings listing with
  | error raised => exact serial.leave
  | ok fresh =>
      have known : (world.parties party).job = some .publish →
          world.issuedCodes ⊆ fresh.issuedCodes := by
        intro publishing
        rw [(load_codes loaded).2]
        exact List.Subset.trans (serial.listing party since again publishing doing)
          (issued_subset (shows_since shows))
      have settled : (world.set party { world.parties party with
          ledger := some fresh, loaded := fresh.used, task := .idle }).Serial := by
        refine serial.set ?_ ?_ ?_
        · rfl
        · intro since again _ listing
          cases listing
        · intro held publishing same
          obtain rfl := Option.some.inj same
          exact known publishing
      cases again with
      | none => exact settled
      | some allocation =>
          apply settled.allocate
          rw [set_parties, if_pos rfl]
          exact known

theorem World.Sound.issue (sound : world.Sound) (job : (world.parties party).job = some .publish)
    (held : (world.parties party).ledger = some ledger) (code : Nat) (reservation : Record)
    (run : Run) (evidence : Evidence) (head : String) :
    (world.issue party code reservation run evidence head ledger).Sound := by
  unfold World.issue
  cases checked : checkIssue ledger code with
  | error raised => exact sound.leave
  | ok _ =>
      dsimp only
      split
      · exact sound.leave
      · apply sound.set
        refine ⟨(sound.fits party).loaded, ?_, ?_⟩
        · intro allocation writing doing
          cases doing
        · intro other writing doing
          simp only [Task.issuing.injEq] at doing
          obtain ⟨rfl, rfl⟩ := doing
          exact ⟨rfl, job, ledger, held, checkIssue_above checked⟩

theorem World.Serial.issue (serial : world.Serial) (code : Nat) (reservation : Record)
    (run : Run) (evidence : Evidence) (head : String) :
    (world.issue party code reservation run evidence head ledger).Serial := by
  unfold World.issue
  split
  · exact serial.leave
  · split
    · exact serial.leave
    · refine serial.set ?_ ?_ ?_
      · rfl
      · intro since again _ doing
        cases doing
      · intro held publishing same
        exact serial.known party held publishing same

variable {next : World}

theorem reservedIn_snoc (entries : List Entry) (entry : Entry) :
    reservedIn (entries ++ [entry]) = reservedIn entries ++ entry.ref.reserved?.toList := by
  cases reserved : entry.ref.reserved? <;> simp [reservedIn, reserved]

theorem issuedIn_snoc (entries : List Entry) (entry : Entry) :
    issuedIn (entries ++ [entry]) = issuedIn entries ++ entry.ref.issued?.toList := by
  cases issued : entry.ref.issued? <;> simp [issuedIn, issued]

theorem World.Sound.refs (sound : world.Sound) (parties : next.parties = world.parties)
    (reserved : next.reserved = world.reserved)
    (codes : next.reservedCodes = world.reservedCodes) : next.Sound where
  fits party := by
    rw [parties]
    exact sound.fits party
  noted := by
    rw [reserved, codes]
    exact sound.noted
  above := by
    rw [reserved]
    exact sound.above

theorem World.Serial.refs (serial : world.Serial) (parties : next.parties = world.parties)
    (holder : next.holder = world.holder) (codes : next.issuedCodes = world.issuedCodes) :
    next.Serial where
  held := by
    rw [parties, holder]
    exact serial.held
  listing := by
    rw [parties, codes]
    exact serial.listing
  known := by
    rw [parties, codes]
    exact serial.known
  increasing := by
    rw [codes]
    exact serial.increasing

theorem World.Sound.reserve (sound : world.Sound) {refs : Table Entry} {entry : Entry}
    {outcome : Outcome} {code : Nat} (ref : entry.ref = .reserve code)
    (rows : refs.rows = world.refs.rows ++ [entry])
    (above : ∀ other ∈ (world.parties party).loaded, other < code) :
    (world.noted ⟨refs, true, outcome⟩ party code).Sound where
  fits := sound.fits
  noted := by
    simp only [World.noted, if_true, List.map_append, List.map_singleton, sound.noted,
      World.reservedCodes, rows, reservedIn_snoc, ref, Ref.reserved?, Option.toList_some]
  above reserved member := by
    simp only [World.noted, if_true, List.mem_append, List.mem_singleton] at member
    rcases member with earlier | rfl
    · exact sound.above reserved earlier
    · exact above

theorem World.Sound.allocating (sound : world.Sound) {allocation : Allocation} {writing : Writing}
    {attempt : Attempt}
    (doing : (world.parties party).task = .allocating allocation writing)
    (held : (world.parties party).ledger = some ledger)
    (attempted : Attempted world.refs writing attempt) :
    (world.allocating party ledger allocation attempt).Sound := by
  have fits := sound.fits party
  obtain ⟨ref, other, same, above⟩ := fits.allocating allocation writing doing
  obtain rfl := Option.some.inj (same.symm.trans held)
  have loaded := fits.loaded other held
  have below : ∀ code ∈ (world.parties party).loaded, code < allocation.code :=
    fun code member => above code (loaded member)
  have idle (later : Ledger) (wider : other.used ⊆ later.used) : Party.Fits
      { world.parties party with ledger := some later, task := .idle } := by
    refine ⟨?_, ?_, ?_⟩
    · intro kept same
      obtain rfl := Option.some.inj same
      exact List.Subset.trans loaded wider
    · intro next writing doing
      cases doing
    · intro code writing doing
      cases doing
  unfold World.allocating
  cases attempted with
  | written refs entry record named rows =>
      apply (sound.reserve (named.trans ref) rows below).set
      apply idle
      intro code member
      simp only [Ledger.used, Ledger.reservedCodes, Ledger.issuedCodes, List.map_append,
        List.mem_append] at member ⊢
      tauto
  | lost refs entry named rows => exact (sound.reserve (named.trans ref) rows below).leave
  | taken =>
      apply World.Sound.set sound
      refine ⟨fits.loaded, ?_, ?_⟩
      · intro allocation writing doing
        cases doing
      · intro code writing doing
        cases doing
  | again writing named =>
      apply World.Sound.set sound
      refine ⟨fits.loaded, ?_, ?_⟩
      · intro next later doing
        simp only [Task.allocating.injEq] at doing
        obtain ⟨rfl, rfl⟩ := doing
        exact ⟨named.trans ref, other, held, above⟩
      · intro code writing doing
        cases doing
  | raised => exact World.Sound.leave sound

theorem World.Serial.allocating (serial : world.Serial) {allocation : Allocation}
    {writing : Writing} {attempt : Attempt} (ref : writing.ref = .reserve allocation.code)
    (held : (world.parties party).ledger = some ledger)
    (attempted : Attempted world.refs writing attempt) :
    (world.allocating party ledger allocation attempt).Serial := by
  have created {refs : Table Entry} {entry : Entry} (outcome : Outcome)
      (named : entry.ref = writing.ref) (rows : refs.rows = world.refs.rows ++ [entry]) :
      (world.noted ⟨refs, true, outcome⟩ party allocation.code).Serial := by
    refine serial.refs ?_ ?_ ?_
    · rfl
    · rfl
    · simp only [World.noted, World.issuedCodes, rows, issuedIn_snoc, named, ref, Ref.issued?,
        Option.toList_none, List.append_nil]
  unfold World.allocating
  cases attempted with
  | written refs entry record named rows =>
      refine (created _ named rows).set ?_ ?_ ?_
      · rfl
      · intro since again _ doing
        cases doing
      · intro later publishing same
        obtain rfl := Option.some.inj same
        exact (created (.written record) named rows).known party ledger publishing held
  | lost refs entry named rows => exact (created _ named rows).leave
  | taken =>
      refine World.Serial.set serial ?_ ?_ ?_
      · rfl
      · intro since again _ doing
        simp only [Task.listing.injEq] at doing
        rw [← doing.1]
        exact List.Subset.refl _
      · exact fun later publishing same => serial.known party later publishing same
  | again writing named =>
      refine World.Serial.set serial ?_ ?_ ?_
      · rfl
      · intro since again _ doing
        cases doing
      · exact fun later publishing same => serial.known party later publishing same
  | raised => exact World.Serial.leave serial

theorem World.Sound.issuing (sound : world.Sound) {code : Nat} {writing : Writing}
    {attempt : Attempt} (doing : (world.parties party).task = .issuing code writing)
    (held : (world.parties party).ledger = some ledger)
    (attempted : Attempted world.refs writing attempt) :
    (world.issuing party ledger code attempt).Sound := by
  have fits := sound.fits party
  obtain ⟨ref, job, other, same, above⟩ := fits.issuing code writing doing
  obtain rfl := Option.some.inj (same.symm.trans held)
  have loaded := fits.loaded other held
  have created {refs : Table Entry} {entry : Entry} (named : entry.ref = writing.ref)
      (rows : refs.rows = world.refs.rows ++ [entry]) : { world with refs }.Sound := by
    refine sound.refs ?_ ?_ ?_
    · rfl
    · rfl
    · simp only [World.reservedCodes, rows, reservedIn_snoc, named, ref, Ref.reserved?,
        Option.toList_none, List.append_nil]
  unfold World.issuing
  cases attempted with
  | written refs entry record named rows =>
      apply (created named rows).set
      refine ⟨?_, ?_, ?_⟩
      · intro kept same
        obtain rfl := Option.some.inj same
        refine List.Subset.trans loaded ?_
        intro code member
        simp only [Ledger.used, Ledger.reservedCodes, Ledger.issuedCodes, List.map_append,
          List.mem_append] at member ⊢
        tauto
      · intro next writing doing
        cases doing
      · intro code writing doing
        cases doing
  | lost refs entry named rows => exact (created named rows).leave
  | taken => exact World.Sound.leave sound
  | again writing named =>
      apply World.Sound.set sound
      refine ⟨fits.loaded, ?_, ?_⟩
      · intro allocation writing doing
        cases doing
      · intro next later doing
        simp only [Task.issuing.injEq] at doing
        obtain ⟨rfl, rfl⟩ := doing
        exact ⟨named.trans ref, job, other, held, above⟩
  | raised => exact World.Sound.leave sound

/-- The publish job that holds the group issues above every code. -/
theorem World.Serial.issue_above (serial : world.Serial) {code : Nat}
    (publishing : (world.parties party).job = some .publish)
    (above : ∀ other ∈ world.issuedCodes, other < code)
    (codes : next.issuedCodes = world.issuedCodes ++ [code])
    (others : ∀ other, other ≠ party → next.parties other = world.parties other)
    (held : (next.parties party).job = some .publish → next.holder = some party)
    (listing : ∀ since again, (next.parties party).job = some .publish →
      (next.parties party).task ≠ .listing since again)
    (known : ∀ ledger, (next.parties party).job = some .publish →
      (next.parties party).ledger = some ledger → next.issuedCodes ⊆ ledger.issuedCodes) :
    next.Serial := by
  have alone : ∀ other, (next.parties other).job = some .publish → other = party := by
    intro other works
    by_contra different
    rw [others other different] at works
    have first := serial.held other works
    rw [serial.held party publishing] at first
    exact different (Option.some.inj first).symm
  refine ⟨?_, ?_, ?_, ?_⟩
  · intro other works
    obtain rfl := alone other works
    exact held works
  · intro other since again works doing
    obtain rfl := alone other works
    exact absurd doing (listing since again works)
  · intro other ledger works same
    obtain rfl := alone other works
    exact known ledger works same
  · rw [codes, List.pairwise_append]
    refine ⟨serial.increasing, List.pairwise_singleton _ _, ?_⟩
    intro earlier member last same
    rw [List.mem_singleton.mp same]
    exact above earlier member

theorem World.Serial.issuing (serial : world.Serial) {code : Nat} {writing : Writing}
    {attempt : Attempt} (fits : (world.parties party).Fits)
    (doing : (world.parties party).task = .issuing code writing)
    (held : (world.parties party).ledger = some ledger)
    (attempted : Attempted world.refs writing attempt) :
    (world.issuing party ledger code attempt).Serial := by
  obtain ⟨ref, job, other, same, below⟩ := fits.issuing code writing doing
  obtain rfl := Option.some.inj (same.symm.trans held)
  have known := serial.known party other job held
  have above : ∀ earlier ∈ world.issuedCodes, earlier < code :=
    fun earlier member => below earlier (known member)
  have codes {refs : Table Entry} {entry : Entry} (named : entry.ref = writing.ref)
      (rows : refs.rows = world.refs.rows ++ [entry]) :
      issuedIn refs.rows = world.issuedCodes ++ [code] := by
    simp only [World.issuedCodes, rows, issuedIn_snoc, named, ref, Ref.issued?,
      Option.toList_some]
  unfold World.issuing
  cases attempted with
  | written refs entry record named rows =>
      apply serial.issue_above job above (codes named rows)
      · intro later different
        simp only [set_parties, if_neg different]
      · intro _
        exact serial.held party job
      · intro since again _ listing
        simp only [set_parties, if_true, reduceCtorEq] at listing
      · intro later _ same
        simp only [set_parties, if_true, Option.some.injEq] at same
        subst later
        intro earlier member
        have added : earlier ∈ world.issuedCodes ++ [code] := (codes named rows) ▸ member
        simp only [Ledger.issuedCodes, List.map_append, List.map_singleton, List.mem_append]
        exact (List.mem_append.mp added).imp (fun old => known old) id
  | lost refs entry named rows =>
      apply serial.issue_above job above (codes named rows)
      · intro later different
        simp only [leave_parties, if_neg different]
      · intro works
        simp only [leave_parties, if_true] at works
        cases works
      · intro since again works
        simp only [leave_parties, if_true] at works
        cases works
      · intro later works
        simp only [leave_parties, if_true] at works
        cases works
  | taken => exact World.Serial.leave serial
  | again writing named =>
      refine World.Serial.set serial ?_ ?_ ?_
      · rfl
      · intro since again _ doing
        cases doing
      · exact fun later publishing same => serial.known party later publishing same
  | raised => exact World.Serial.leave serial

theorem World.Sound.create (sound : world.Sound) (answer : Answer) (head : String) :
    (world.create party answer head).Sound := by
  unfold World.create
  split
  · rename_i allocation writing ledger doing held
    exact sound.allocating doing held (write_attempted _ _ _ _)
  · rename_i code writing ledger doing held
    exact sound.issuing doing held (write_attempted _ _ _ _)
  · exact sound

theorem World.Serial.create (serial : world.Serial) (sound : world.Sound) (answer : Answer)
    (head : String) : (world.create party answer head).Serial := by
  unfold World.create
  split
  · rename_i allocation writing ledger doing held
    obtain ⟨ref, -⟩ := (sound.fits party).allocating allocation writing doing
    exact serial.allocating ref held (write_attempted _ _ _ _)
  · rename_i code writing ledger doing held
    exact serial.issuing (sound.fits party) doing held (write_attempted _ _ _ _)
  · exact serial

end Steps

section Runs

variable {settings : Settings} {serialized : Bool} {world : World}

theorem World.Sound.step (sound : world.Sound) (action : Action) :
    (world.step settings serialized action).Sound := by
  cases action with
  | place entry =>
      simp only [World.step]
      split
      · exact sound
      · rename_i stray
        split
        · exact sound
        · rename_i refs inserted
          refine sound.refs ?_ ?_ ?_
          · rfl
          · rfl
          · have unreserved : entry.ref.reserved? = none := by
              cases reserved : entry.ref.reserved? with
              | none => rfl
              | some code => simp [reserved] at stray
            simp only [World.reservedCodes, Table.rows_insert? inserted, reservedIn_snoc,
              unreserved, Option.toList_none, List.append_nil]
  | enter party job =>
      simp only [World.step]
      split
      · have entered : (world.set party { job := some job }).Sound := by
          apply sound.set
          refine ⟨?_, ?_, ?_⟩
          · intro ledger held
            cases held
          · intro allocation writing doing
            cases doing
          · intro code writing doing
            cases doing
        exact ⟨entered.fits, entered.noted, entered.above⟩
      · exact sound
  | leave party => exact sound.leave
  | list party =>
      simp only [World.step]
      split
      · apply sound.set
        refine ⟨(sound.fits party).loaded, ?_, ?_⟩
        · intro allocation writing doing
          cases doing
        · intro code writing doing
          cases doing
      · exact sound
  | listed party listing head =>
      simp only [World.step]
      split
      · split
        · exact sound.listed listing head _
        · exact sound
      · exact sound
  | reserve party sourceSha run head =>
      simp only [World.step]
      split
      · rename_i ledger job idle held
        exact sound.allocate ((sound.fits party).loaded ledger held) sourceSha run head 5
      · exact sound
  | issue party code reservation run evidence head =>
      simp only [World.step]
      split
      · rename_i ledger job idle held
        exact sound.issue job held code reservation run evidence head
      · exact sound
  | create party answer head => exact sound.create answer head

theorem World.Serial.enter (serial : world.Serial) {party : Nat} {job : Job}
    (admits : world.admits true party job = true) :
    World.Serial { world.set party { job := some job } with
      holder := if job = .publish then some party else world.holder } := by
  simp only [World.admits, Bool.and_eq_true, Bool.or_eq_true, Bool.not_true, Bool.false_eq_true,
    false_or, beq_iff_eq, Option.isNone_iff_eq_none] at admits
  obtain ⟨fresh, waits⟩ := admits
  refine ⟨?_, ?_, ?_, serial.increasing⟩
  · intro other publishing
    dsimp only at publishing ⊢
    rw [set_parties] at publishing
    by_cases same : other = party
    · rw [if_pos same] at publishing
      rw [if_pos (Option.some.inj publishing), same]
    · rw [if_neg same] at publishing
      have holder := serial.held other publishing
      rcases waits with preflight | free
      · rw [preflight, if_neg (by decide), holder]
      · rw [free] at holder
        cases holder
  · intro other since again publishing doing
    dsimp only at publishing doing
    rw [set_parties] at publishing doing
    by_cases same : other = party
    · rw [if_pos same] at doing
      cases doing
    · rw [if_neg same] at publishing doing
      exact serial.listing other since again publishing doing
  · intro other ledger publishing held
    dsimp only at publishing held
    rw [set_parties] at publishing held
    by_cases same : other = party
    · rw [if_pos same] at held
      cases held
    · rw [if_neg same] at publishing held
      exact serial.known other ledger publishing held

theorem World.Serial.step (serial : world.Serial) (sound : world.Sound) (action : Action) :
    (world.step settings true action).Serial := by
  cases action with
  | place entry =>
      simp only [World.step]
      split
      · exact serial
      · rename_i stray
        split
        · exact serial
        · rename_i refs inserted
          refine serial.refs ?_ ?_ ?_
          · rfl
          · rfl
          · have unissued : entry.ref.issued? = none := by
              cases issued : entry.ref.issued? with
              | none => rfl
              | some code => simp [issued] at stray
            simp only [World.issuedCodes, Table.rows_insert? inserted, issuedIn_snoc, unissued,
              Option.toList_none, List.append_nil]
  | enter party job =>
      simp only [World.step]
      split
      · rename_i admits
        exact serial.enter admits
      · exact serial
  | leave party => exact serial.leave
  | list party =>
      simp only [World.step]
      split
      · refine serial.set ?_ ?_ ?_
        · rfl
        · intro since again _ doing
          simp only [Task.listing.injEq] at doing
          rw [← doing.1]
          exact List.Subset.refl _
        · exact fun ledger publishing held => serial.known party ledger publishing held
      · exact serial
  | listed party listing head =>
      simp only [World.step]
      split
      · rename_i since again doing
        split
        · rename_i shows
          exact serial.listed doing shows head
        · exact serial
      · exact serial
  | reserve party sourceSha run head =>
      simp only [World.step]
      split
      · rename_i ledger job idle held
        exact serial.allocate (fun publishing => serial.known party ledger publishing held)
          sourceSha run head 5
      · exact serial
  | issue party code reservation run evidence head =>
      simp only [World.step]
      split
      · exact serial.issue code reservation run evidence head
      · exact serial
  | create party answer head => exact serial.create sound answer head

theorem sound_start : World.Sound {} where
  fits _ := fits_start
  noted := rfl
  above reserved member := by cases member

theorem serial_start : World.Serial {} where
  held party publishing := by cases publishing
  listing party since again publishing := by cases publishing
  known party ledger publishing := by cases publishing
  increasing := List.Pairwise.nil

variable (settings serialized) in
theorem sound_run (actions : List Action) : (World.run settings serialized actions).Sound :=
  exec_invariant World.Sound (fun _ action sound => sound.step action) sound_start actions

variable (settings) in
theorem serial_run (actions : List Action) : (World.run settings true actions).Serial :=
  (exec_invariant (fun world : World => world.Sound ∧ world.Serial)
    (fun _ action kept => ⟨kept.1.step action, kept.2.step kept.1 action⟩)
    ⟨sound_start, serial_start⟩ actions).2

theorem codes_nodup {entries : List Entry} (code? : Ref → Option Nat)
    (unique : (entries.map Entry.ref).Nodup)
    (injective : ∀ first second code, code? first = some code → code? second = some code →
      first = second) : (entries.filterMap fun entry => code? entry.ref).Nodup := by
  have split : (entries.filterMap fun entry => code? entry.ref) =
      (entries.map Entry.ref).filterMap code? := by
    rw [List.filterMap_map]
    rfl
  rw [split]
  exact unique.filterMap fun first second code => injective first second code

/-- What the refs say of the codes: each is reserved and issued at most once, and reserved above
all that its run had loaded. -/
structure Unique (world : World) : Prop where
  reserved : (world.reserved.map Reserved.code).Nodup
  refs : world.reservedCodes = world.reserved.map Reserved.code
  above : ∀ reserved ∈ world.reserved, ∀ code ∈ reserved.known, code < reserved.code
  issued : world.issuedCodes.Nodup

theorem World.Sound.unique (sound : world.Sound) : Unique world := by
  have refs := world.refs.unique
  have reserved : world.reservedCodes.Nodup := by
    apply codes_nodup Ref.reserved? refs
    intro first second code one other
    cases first <;> cases second <;> simp_all [Ref.reserved?]
  have issued : world.issuedCodes.Nodup := by
    apply codes_nodup Ref.issued? refs
    intro first second code one other
    cases first <;> cases second <;> simp_all [Ref.issued?]
  refine ⟨?_, sound.noted.symm, sound.above, issued⟩
  rw [sound.noted]
  exact reserved

/-- In every interleaving of release runs codes are reserved and issued once, and reserved above
what the run had loaded; where publish jobs run one at a time, issued codes increase. -/
theorem release_codes (settings : Settings) (actions : List Action) :
    (∀ serialized, Unique (World.run settings serialized actions)) ∧
      (World.run settings true actions).issuedCodes.Pairwise (· < ·) :=
  ⟨fun serialized => (sound_run settings serialized actions).unique,
    (serial_run settings actions).increasing⟩

end Runs

section Overtaking

def commitSha : String := "0123456789abcdef0123456789abcdef01234567"

def apkDigest : String := "0123456789abcdef0123456789abcdef0123456789abcdef0123456789abcdef"

def ownSettings : Settings := ⟨commitSha, (· == "owner")⟩

def entryOf (ref : Ref) (record : Record) : Entry :=
  ⟨ref, true, commitSha, "commit", some commitSha, some record⟩

def bootstrapEntry : Entry :=
  entryOf .bootstrap
    { schema := some schema, kind := some "bootstrap", floor := some 1, createdBy := some "owner" }

def runOf (party : Nat) : Run := ⟨party + 1, 1, commitSha, "owner"⟩

def reservation (party code : Nat) : Record :=
  baseRecord "reserve" code (some commitSha) (runOf party) commitSha

def reserving (party : Nat) (listing : List Entry) : List Action :=
  [.enter party .preflight, .list party, .listed party listing commitSha,
    .reserve party commitSha (runOf party) commitSha, .create party (.created commitSha) commitSha,
    .leave party]

def publishing (party code : Nat) : List Action :=
  [.issue party code (reservation party code) (runOf party)
      ⟨apkDigest, apkDigest, apkDigest, canonicalPackage⟩ commitSha,
    .create party (.created commitSha) commitSha]

def firstReserved : List Entry := [bootstrapEntry, entryOf (.reserve 2) (reservation 0 2)]

def bothReserved : List Entry := firstReserved ++ [entryOf (.reserve 3) (reservation 1 3)]

def overtaking : List Action :=
  [.place bootstrapEntry] ++ reserving 0 [bootstrapEntry] ++ reserving 1 firstReserved ++
    [.enter 0 .publish, .list 0, .listed 0 bothReserved commitSha,
      .enter 1 .publish, .list 1, .listed 1 bothReserved commitSha] ++
    publishing 1 3 ++ publishing 0 2

/-- The scripts alone do not keep the order: the ledger of the first job is out of date. -/
theorem overtaking_decreases :
    ¬(World.run ownSettings false overtaking).issuedCodes.Pairwise (· < ·) := by
  decide +kernel

end Overtaking

end Ovrly.Releases
