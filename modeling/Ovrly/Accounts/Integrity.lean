import Ovrly.Accounts.Linking
import Ovrly.Runs

/-!
What account linking keeps, and when.

A link takes its caller from an earlier transaction and does not look whether the caller was
merged since, as a save does. The laws hold in the runs whose merged callers only repeat the link
that merged them, and in no other.
-/

namespace Ovrly.Accounts

open Relational Runs Ovrly.Jobs Ovrly.Reports Ovrly.Admission

variable {δ : Type}

/-- The stored rows, and the callers that were authenticated and may still act. -/
structure Desk (δ : Type) where
  directory : Directory δ
  callers : List PrincipalId

inductive Event (δ : Type)
  | createGuest (id : PrincipalId) (tokenHash : String) (now : Time)
  | authenticate (tokenHash : String)
  | link (caller : PrincipalId) (subject tokenHash : String) (now : Time)
  | save (caller : PrincipalId) (reportId : Uuid) (version : Option (ReportRow δ)) (now : Time)
  | unsave (caller : PrincipalId) (reportId : Uuid) (version : Option (ReportRow δ))

def committed {α : Type} (directory : Directory δ) :
    Except ApiError (α × Directory δ) → Directory δ
  | .error _ => directory
  | .ok (_, next) => next

def Desk.step (desk : Desk δ) : Event δ → Desk δ
  | .createGuest id tokenHash now =>
      { desk with
        directory := committed desk.directory
          ((createGuestPrincipal desk.directory id tokenHash now).map ((), ·)) }
  | .authenticate tokenHash =>
      match currentPrincipal desk.directory tokenHash with
      | .error _ => desk
      | .ok principal => { desk with callers := desk.callers ++ [principal] }
  | .link caller subject tokenHash now =>
      if caller ∈ desk.callers then
        { desk with
          directory := committed desk.directory
            (linkAccount desk.directory caller subject tokenHash now) }
      else desk
  | .save caller reportId version now =>
      if caller ∈ desk.callers then
        { desk with
          directory := committed desk.directory
            (saveOwnedReport desk.directory caller reportId version now) }
      else desk
  | .unsave caller reportId version =>
      if caller ∈ desk.callers then
        { desk with
          directory := committed desk.directory
            ((unsaveOwnedReport desk.directory caller reportId version).map ((), ·)) }
      else desk

def Desk.empty : Desk δ := ⟨⟨Table.empty, Table.empty, Table.empty⟩, []⟩

section Laws

structure Integrity (directory : Directory δ) : Prop where
  /-- A subject belongs to one principal. -/
  subjects : ∀ first second row other subject,
    directory.principals.find? first = some row → directory.principals.find? second = some other →
    row.googleSub = some subject → other.googleSub = some subject → first = second
  exclusive : ∀ id row, directory.principals.find? id = some row → row.googleSub.isSome →
    row.mergedInto = none
  /-- There is no chain of merges. -/
  flat : ∀ id row account, directory.principals.find? id = some row →
    row.mergedInto = some account →
    ∃ other, directory.principals.find? account = some other ∧ other.mergedInto = none
  /-- A merged principal holds no saved report. -/
  emptied : ∀ id row, directory.principals.find? id = some row → row.mergedInto.isSome →
    ∀ saved ∈ directory.saved.rows, saved.ownerId ≠ id

/-- The saved reports of a guest and of the account it is merged into, with those of the account
in front. -/
def unionOf (saved : Table (SavedReport δ)) (guest account : PrincipalId) (reportId : Uuid) :
    Option (SavedReport δ) :=
  (saved.find? (account, reportId)).or
    ((saved.find? (guest, reportId)).map fun row => { row with ownerId := account })

/-- What a transaction leaves: the integrity, every merge that was made, and after a new merge
the union of the saved reports. -/
structure Keeps (before after : Directory δ) : Prop where
  integrity : Integrity after
  settled : ∀ id row account, before.principals.find? id = some row →
    row.mergedInto = some account →
    ∃ later, after.principals.find? id = some later ∧ later.mergedInto = some account
  united : ∀ guest row later account, before.principals.find? guest = some row →
    row.mergedInto = none → after.principals.find? guest = some later →
    later.mergedInto = some account →
    ∀ reportId, after.saved.find? (account, reportId) =
      unionOf before.saved guest account reportId

/-- The caller of the link is not merged, or links the subject of its own account again, or its
new token is taken. -/
def RepeatsItsMerge (directory : Directory δ) (caller : PrincipalId) (subject tokenHash : String) :
    Prop :=
  ∀ row account, directory.principals.find? caller = some row → row.mergedInto = some account →
    ∃ other, holderOf directory.principals subject = some other ∧
      (other.id = account ∨ (directory.credentials.find? tokenHash).isSome)

def Allowed (desk : Desk δ) : Event δ → Prop
  | .link caller subject tokenHash _ =>
      caller ∈ desk.callers → RepeatsItsMerge desk.directory caller subject tokenHash
  | _ => True

end Laws

section Principals

variable {principals : Table PrincipalRow} {id principal : PrincipalId} {subject : String}

theorem find?_updateId {change : PrincipalRow → PrincipalRow}
    {keeps : ∀ row, (Keyed.key (change row) : PrincipalId) = Keyed.key row} :
    (principals.update (·.id == principal) change keeps).find? id =
      if id = principal then (principals.find? id).map change else principals.find? id := by
  rw [Table.find?_update]
  cases found : principals.find? id with
  | none => simp
  | some row =>
      have named : row.id = id := Table.find?_key found
      by_cases mine : id = principal
      · simp [named, mine]
      · simp [named, mine]

theorem holderOf_none (absent : holderOf principals subject = none) {row : PrincipalRow}
    (found : principals.find? id = some row) : row.googleSub ≠ some subject := by
  have other := List.find?_eq_none.mp absent row (Table.mem_of_find? found)
  simpa using other

theorem holderOf_some {row : PrincipalRow} (held : holderOf principals subject = some row) :
    principals.find? row.id = some row ∧ row.googleSub = some subject := by
  refine ⟨Table.find?_of_mem (List.mem_of_find?_eq_some held), ?_⟩
  simpa using List.find?_some held

end Principals

section Transfer

variable {saved : Table (SavedReport δ)} {source target : PrincipalId}

theorem mem_transfer {row : SavedReport δ} :
    row ∈ (transferSavedReports saved source target).rows ↔
      ∃ before ∈ saved.rows,
        ¬(before.ownerId = source ∧ isSavedBy saved target before.reportId = true) ∧
          movedTo source target before = row := by
  simp [transferSavedReports, transferable, List.mem_map, List.mem_filter, and_assoc,
    imp_iff_not_or]

theorem find?_saved {owner : PrincipalId} {reportId : Uuid} {row : SavedReport δ}
    (found : saved.find? (owner, reportId) = some row) :
    row ∈ saved.rows ∧ row.ownerId = owner ∧ row.reportId = reportId :=
  ⟨Table.mem_of_find? found, (Prod.mk.inj (Table.find?_key found)).1,
    (Prod.mk.inj (Table.find?_key found)).2⟩

theorem find?_transfer (different : source ≠ target) (reportId : Uuid) :
    (transferSavedReports saved source target).find? (target, reportId) =
      unionOf saved source target reportId := by
  unfold unionOf
  cases own : saved.find? (target, reportId) with
  | some row =>
      obtain ⟨member, owner, report⟩ := find?_saved own
      have stays : row.ownerId ≠ source := fun same => different (same.symm.trans owner)
      have kept : row ∈ (transferSavedReports saved source target).rows :=
        mem_transfer.mpr ⟨row, member, fun both => stays both.1, if_neg stays⟩
      have found := Table.find?_of_mem kept
      rw [show (Keyed.key row : PrincipalId × Uuid) = (target, reportId) from
        Prod.ext owner report] at found
      rw [found, Option.some_or]
  | none =>
      rw [Option.none_or]
      cases guests : saved.find? (source, reportId) with
      | some row =>
          obtain ⟨member, owner, report⟩ := find?_saved guests
          have unsaved : isSavedBy saved target row.reportId = false := by
            rw [isSavedBy, report, own, Option.isSome_none]
          have moved : { row with ownerId := target } ∈
              (transferSavedReports saved source target).rows :=
            mem_transfer.mpr ⟨row, member, fun both => by simp [unsaved] at both, if_pos owner⟩
          subst report
          exact Table.find?_of_mem moved
      | none =>
          rw [Option.map_none, Table.find?_eq_none]
          intro row member same
          obtain ⟨before, known, -, rfl⟩ := mem_transfer.mp member
          obtain ⟨owner, report⟩ := Prod.mk.inj same
          by_cases moves : before.ownerId = source
          · simp only [movedTo, if_pos moves] at report
            exact Table.find?_eq_none.mp guests before known (Prod.ext moves report)
          · simp only [movedTo, if_neg moves] at owner report
            exact Table.find?_eq_none.mp own before known (Prod.ext owner report)

end Transfer

section Steps

/-- What the laws rest on: who holds a subject is not merged, and every merge is into such a
principal. -/
structure Sound (directory : Directory δ) : Prop where
  subjects : ∀ first second row other subject,
    directory.principals.find? first = some row → directory.principals.find? second = some other →
    row.googleSub = some subject → other.googleSub = some subject → first = second
  exclusive : ∀ id row, directory.principals.find? id = some row → row.googleSub.isSome →
    row.mergedInto = none
  accounts : ∀ id row account, directory.principals.find? id = some row →
    row.mergedInto = some account →
    ∃ other, directory.principals.find? account = some other ∧ other.googleSub.isSome
  emptied : ∀ id row, directory.principals.find? id = some row → row.mergedInto.isSome →
    ∀ saved ∈ directory.saved.rows, saved.ownerId ≠ id

theorem Sound.integrity {directory : Directory δ} (sound : Sound directory) :
    Integrity directory where
  subjects := sound.subjects
  exclusive := sound.exclusive
  flat id row account found merged := by
    obtain ⟨other, known, linked⟩ := sound.accounts id row account found merged
    exact ⟨other, known, sound.exclusive account other known linked⟩
  emptied := sound.emptied

theorem sound_empty : Sound (Desk.empty : Desk δ).directory where
  subjects _ _ _ _ _ found := by cases found
  exclusive _ _ found := by cases found
  accounts _ _ _ found := by cases found
  emptied _ _ found := by cases found

structure Lawful (before after : Directory δ) : Prop where
  sound : Sound after
  settled : ∀ id row account, before.principals.find? id = some row →
    row.mergedInto = some account →
    ∃ later, after.principals.find? id = some later ∧ later.mergedInto = some account
  united : ∀ guest row later account, before.principals.find? guest = some row →
    row.mergedInto = none → after.principals.find? guest = some later →
    later.mergedInto = some account →
    ∀ reportId, after.saved.find? (account, reportId) =
      unionOf before.saved guest account reportId

theorem Lawful.keeps {before after : Directory δ} (lawful : Lawful before after) :
    Keeps before after where
  integrity := lawful.sound.integrity
  settled := lawful.settled
  united := lawful.united

variable {directory next : Directory δ}

theorem Sound.saves (sound : Sound directory) (same : next.principals = directory.principals)
    (owners : ∀ row ∈ next.saved.rows, row ∈ directory.saved.rows ∨
      ∀ owner, directory.principals.find? row.ownerId = some owner → owner.mergedInto = none) :
    Lawful directory next where
  sound :=
    { subjects := by rw [same]; exact sound.subjects
      exclusive := by rw [same]; exact sound.exclusive
      accounts := by rw [same]; exact sound.accounts
      emptied := by
        rw [same]
        intro id row found merged saved member owner
        rcases owners saved member with before | active
        · exact sound.emptied id row found merged saved before owner
        · rw [active row (by rw [owner]; exact found)] at merged
          cases merged }
  settled id row account found merged := ⟨row, by rw [same]; exact found, merged⟩
  united guest row later account found unmerged after merged := by
    rw [same, found, Option.some.injEq] at after
    rw [← after, unmerged] at merged
    cases merged

theorem Sound.same (sound : Sound directory) : Lawful directory directory :=
  sound.saves rfl fun _ member => Or.inl member

theorem Sound.guest (sound : Sound directory) {new : PrincipalRow}
    (inserted : directory.principals.insert? new = some next.principals)
    (unlinked : new.googleSub = none) (unmerged : new.mergedInto = none)
    (saved : next.saved = directory.saved) : Lawful directory next := by
  have lookup : ∀ id row, next.principals.find? id = some row →
      row = new ∨ directory.principals.find? id = some row := by
    intro id row found
    rw [Table.find?_insert? inserted] at found
    split at found
    · exact Or.inl (Option.some.inj found).symm
    · exact Or.inr found
  have known : ∀ id row, directory.principals.find? id = some row →
      next.principals.find? id = some row := by
    intro id row found
    rw [Table.find?_insert? inserted, if_neg, found]
    intro same
    have fresh := Table.insert?_fresh inserted
    rw [same, found] at fresh
    cases fresh
  refine ⟨⟨?_, ?_, ?_, ?_⟩, ?_, ?_⟩
  · intro first second row other subject found otherFound linked otherLinked
    rcases lookup first row found with rfl | before
    · rw [unlinked] at linked
      cases linked
    · rcases lookup second other otherFound with rfl | otherBefore
      · rw [unlinked] at otherLinked
        cases otherLinked
      · exact sound.subjects first second row other subject before otherBefore linked otherLinked
  · intro id row found linked
    rcases lookup id row found with rfl | before
    · exact unmerged
    · exact sound.exclusive id row before linked
  · intro id row account found merged
    rcases lookup id row found with rfl | before
    · rw [unmerged] at merged
      cases merged
    · obtain ⟨other, target, linked⟩ := sound.accounts id row account before merged
      exact ⟨other, known account other target, linked⟩
  · rw [saved]
    intro id row found merged
    rcases lookup id row found with rfl | before
    · rw [unmerged] at merged
      cases merged
    · exact sound.emptied id row before merged
  · exact fun id row account found merged => ⟨row, known id row found, merged⟩
  · intro guest row later account found none after merged
    rw [known guest row found, Option.some.injEq] at after
    rw [← after, none] at merged
    cases merged

theorem Sound.linked (sound : Sound directory) {principal : PrincipalId} {caller : PrincipalRow}
    {subject : String} (found : directory.principals.find? principal = some caller)
    (unmerged : caller.mergedInto = none)
    (absent : holderOf directory.principals subject = none) :
    Lawful directory { directory with
      principals := directory.principals.update (·.id == principal) (asAccount subject)
        (asAccount_key subject) } := by
  have lookup : ∀ id row, (directory.principals.update (·.id == principal) (asAccount subject)
      (asAccount_key subject)).find? id = some row →
      (id = principal ∧ row = asAccount subject caller) ∨
        id ≠ principal ∧ directory.principals.find? id = some row := by
    intro id row here
    rw [find?_updateId] at here
    by_cases mine : id = principal
    · rw [if_pos mine, mine, found, Option.map_some, Option.some.injEq] at here
      exact Or.inl ⟨mine, here.symm⟩
    · rw [if_neg mine] at here
      exact Or.inr ⟨mine, here⟩
  refine ⟨⟨?_, ?_, ?_, ?_⟩, ?_, ?_⟩
  · intro first second row other wanted here there linked otherLinked
    rcases lookup first row here with ⟨rfl, rfl⟩ | ⟨-, before⟩
    · rcases lookup second other there with ⟨rfl, -⟩ | ⟨-, otherBefore⟩
      · rfl
      · exact absurd (otherLinked.trans linked.symm) (holderOf_none absent otherBefore)
    · rcases lookup second other there with ⟨rfl, rfl⟩ | ⟨-, otherBefore⟩
      · exact absurd (linked.trans otherLinked.symm) (holderOf_none absent before)
      · exact sound.subjects first second row other wanted before otherBefore linked otherLinked
  · intro id row here linked
    rcases lookup id row here with ⟨-, rfl⟩ | ⟨-, before⟩
    · exact unmerged
    · exact sound.exclusive id row before linked
  · intro id row account here merged
    have before : ∃ earlier, directory.principals.find? id = some earlier ∧
        earlier.mergedInto = some account := by
      rcases lookup id row here with ⟨rfl, rfl⟩ | ⟨-, before⟩
      · exact ⟨caller, found, merged⟩
      · exact ⟨row, before, merged⟩
    obtain ⟨earlier, known, mergedBefore⟩ := before
    obtain ⟨other, target, linked⟩ := sound.accounts id earlier account known mergedBefore
    rw [find?_updateId]
    by_cases mine : account = principal
    · rw [if_pos mine, target]
      exact ⟨asAccount subject other, rfl, rfl⟩
    · rw [if_neg mine]
      exact ⟨other, target, linked⟩
  · intro id row here merged
    rcases lookup id row here with ⟨rfl, rfl⟩ | ⟨-, before⟩
    · have none : (asAccount subject caller).mergedInto = none := unmerged
      rw [none] at merged
      cases merged
    · exact sound.emptied id row before merged
  · intro id row account here merged
    rw [find?_updateId]
    by_cases mine : id = principal
    · rw [if_pos mine, here]
      exact ⟨asAccount subject row, rfl, merged⟩
    · rw [if_neg mine]
      exact ⟨row, here, merged⟩
  · intro guest row later account here unmergedRow after merged
    rcases lookup guest later after with ⟨rfl, rfl⟩ | ⟨-, before⟩
    · have none : (asAccount subject caller).mergedInto = none := unmerged
      rw [none] at merged
      cases merged
    · rw [before, Option.some.injEq] at here
      rw [here, unmergedRow] at merged
      cases merged

theorem Sound.merged (sound : Sound directory) {principal : PrincipalId}
    {caller existing : PrincipalRow} {subject : String} {now : Time}
    (found : directory.principals.find? principal = some caller)
    (unlinked : caller.googleSub = none)
    (held : holderOf directory.principals subject = some existing)
    (repeats : ∀ account, caller.mergedInto = some account → existing.id = account)
    (principals : next.principals = directory.principals.update (·.id == principal)
      (asMerged existing.id now) (asMerged_key existing.id now))
    (saved : next.saved = transferSavedReports directory.saved principal existing.id) :
    Lawful directory next := by
  obtain ⟨target, linked⟩ := holderOf_some held
  have different : principal ≠ existing.id := by
    intro same
    rw [← same, found, Option.some.injEq] at target
    rw [← target, unlinked] at linked
    cases linked
  have isLinked : existing.googleSub.isSome := by rw [linked]; rfl
  have lookup : ∀ id row, next.principals.find? id = some row →
      (id = principal ∧ row = asMerged existing.id now caller) ∨
        id ≠ principal ∧ directory.principals.find? id = some row := by
    intro id row here
    rw [principals, find?_updateId] at here
    by_cases mine : id = principal
    · rw [if_pos mine, mine, found, Option.map_some, Option.some.injEq] at here
      exact Or.inl ⟨mine, here.symm⟩
    · rw [if_neg mine] at here
      exact Or.inr ⟨mine, here⟩
  have others : ∀ id row, id ≠ principal → directory.principals.find? id = some row →
      next.principals.find? id = some row := by
    intro id row other here
    rw [principals, find?_updateId, if_neg other]
    exact here
  have subjectsKept : ∀ id row, next.principals.find? id = some row →
      ∃ before, directory.principals.find? id = some before ∧ row.googleSub = before.googleSub := by
    intro id row here
    rcases lookup id row here with ⟨rfl, rfl⟩ | ⟨-, before⟩
    · exact ⟨caller, found, rfl⟩
    · exact ⟨row, before, rfl⟩
  refine ⟨⟨?_, ?_, ?_, ?_⟩, ?_, ?_⟩
  · intro first second row other wanted here there one two
    obtain ⟨before, known, same⟩ := subjectsKept first row here
    obtain ⟨otherBefore, otherKnown, otherSame⟩ := subjectsKept second other there
    exact sound.subjects first second before otherBefore wanted known otherKnown
      (same.symm.trans one) (otherSame.symm.trans two)
  · intro id row here isSome
    rcases lookup id row here with ⟨rfl, rfl⟩ | ⟨-, before⟩
    · have none : (asMerged existing.id now caller).googleSub = none := unlinked
      rw [none] at isSome
      cases isSome
    · exact sound.exclusive id row before isSome
  · intro id row account here merged
    rcases lookup id row here with ⟨rfl, rfl⟩ | ⟨-, before⟩
    · cases merged
      exact ⟨existing, others existing.id existing (Ne.symm different) target, isLinked⟩
    · obtain ⟨other, known, otherLinked⟩ := sound.accounts id row account before merged
      have elsewhere : account ≠ principal := by
        rintro rfl
        rw [found, Option.some.injEq] at known
        rw [← known, unlinked] at otherLinked
        cases otherLinked
      exact ⟨other, others account other elsewhere known, otherLinked⟩
  · intro id row here merged savedRow member owner
    rw [saved] at member
    obtain ⟨before, known, -, rfl⟩ := mem_transfer.mp member
    have kept : id ≠ existing.id := by
      rintro rfl
      rcases lookup existing.id row here with ⟨same, -⟩ | ⟨-, earlier⟩
      · exact different same.symm
      · rw [target, Option.some.injEq] at earlier
        rw [← earlier, sound.exclusive existing.id existing target isLinked] at merged
        cases merged
    by_cases moves : before.ownerId = principal
    · rw [movedTo, if_pos moves] at owner
      exact kept owner.symm
    · rw [movedTo, if_neg moves] at owner
      rcases lookup id row here with ⟨rfl, -⟩ | ⟨-, earlier⟩
      · exact moves owner
      · exact sound.emptied id row earlier merged before known owner
  · intro id row account here merged
    by_cases mine : id = principal
    · subst mine
      rw [found, Option.some.injEq] at here
      refine ⟨asMerged existing.id now caller, ?_, ?_⟩
      · rw [principals, find?_updateId, if_pos rfl, found]
        rfl
      · rw [← repeats account (by rw [here]; exact merged)]
        rfl
    · exact ⟨row, others id row mine here, merged⟩
  · intro guest row later account here none after merged
    rcases lookup guest later after with ⟨rfl, rfl⟩ | ⟨-, before⟩
    · cases merged
      rw [saved]
      exact find?_transfer different
    · rw [before, Option.some.injEq] at here
      rw [here, none] at merged
      cases merged

theorem createGuestPrincipal_lawful (sound : Sound directory) {id : PrincipalId}
    {tokenHash : String} {now : Time}
    (created : createGuestPrincipal directory id tokenHash now = .ok next) :
    Lawful directory next := by
  unfold createGuestPrincipal at created
  split at created
  · cases created
  rename_i principals inserted
  split at created
  · cases created
  cases created
  exact sound.guest inserted rfl rfl rfl

theorem lockActivePrincipal_ok {principal : PrincipalId}
    (locked : lockActivePrincipal directory principal = .ok ()) :
    ∀ row, directory.principals.find? principal = some row → row.mergedInto = none := by
  intro row found
  simp only [lockActivePrincipal, found] at locked
  split at locked
  · cases locked
  · rename_i unmerged
    simpa using unmerged

theorem saveOwnedReport_lawful (sound : Sound directory) {principal : PrincipalId}
    {reportId : Uuid} {version : Option (ReportRow δ)} {now : Time} {answer : SavedReport δ}
    (accepted : saveOwnedReport directory principal reportId version now = .ok (answer, next)) :
    Lawful directory next := by
  unfold saveOwnedReport at accepted
  split at accepted
  · cases accepted
  rename_i locked
  split at accepted
  · cases accepted
    exact sound.same
  split at accepted
  · cases accepted
  rename_i row _
  dsimp only at accepted
  split at accepted
  · cases accepted
  rename_i saved inserted
  cases accepted
  refine sound.saves rfl fun other member => ?_
  have rows : saved.rows = directory.saved.rows ++
      [⟨principal, row.id, row.investigationId, row.version, row.payload, now⟩] :=
    Table.rows_insert? inserted
  have listed : other ∈ saved.rows := member
  rw [rows] at listed
  rcases List.mem_append.mp listed with before | new
  · exact Or.inl before
  · rw [List.mem_singleton.mp new]
    exact Or.inr (lockActivePrincipal_ok locked)

theorem unsaveOwnedReport_lawful (sound : Sound directory) {principal : PrincipalId}
    {reportId : Uuid} {version : Option (ReportRow δ)}
    (accepted : unsaveOwnedReport directory principal reportId version = .ok next) :
    Lawful directory next := by
  unfold unsaveOwnedReport at accepted
  split at accepted
  · cases accepted
  split at accepted
  · cases accepted
    exact sound.saves rfl fun _ member => Or.inl (List.mem_filter.mp member).1
  split at accepted
  · cases accepted
  · cases accepted
    exact sound.same

theorem revoke_find? (principal : PrincipalId) (now : Time) (tokenHash : String) :
    (directory.credentials.update (fun credential => credential.principalId == principal &&
        credential.revokedAt.isNone) (revoked now) (revoked_key now)).find? tokenHash = none ↔
      directory.credentials.find? tokenHash = none := by
  rw [Table.find?_update, Option.map_eq_none_iff]

/-- What a link did: nothing, or it gave its caller the free subject, or merged it into the
holder. -/
theorem linkAccount_ok {principal : PrincipalId} {subject tokenHash : String} {now : Time}
    {outcome : LinkOutcome}
    (accepted : linkAccount directory principal subject tokenHash now = .ok (outcome, next)) :
    next = directory ∨
      ∃ caller, directory.principals.find? principal = some caller ∧ caller.googleSub = none ∧
        ((holderOf directory.principals subject = none ∧
            next = { directory with
              principals := directory.principals.update (·.id == principal) (asAccount subject)
                (asAccount_key subject) }) ∨
          ∃ existing, holderOf directory.principals subject = some existing ∧
            directory.credentials.find? tokenHash = none ∧
            next.principals = directory.principals.update (·.id == principal)
              (asMerged existing.id now) (asMerged_key existing.id now) ∧
            next.saved = transferSavedReports directory.saved principal existing.id) := by
  unfold linkAccount at accepted
  split at accepted
  · cases accepted
  rename_i caller found
  split at accepted
  · cases accepted
    exact Or.inl rfl
  split at accepted
  · cases accepted
  rename_i unlinked
  have none : caller.googleSub = none := by simpa using unlinked
  split at accepted
  · rename_i absent
    cases accepted
    exact Or.inr ⟨caller, found, none, Or.inl ⟨absent, rfl⟩⟩
  · rename_i existing held
    dsimp only at accepted
    split at accepted
    · cases accepted
    rename_i credentials inserted
    cases accepted
    refine Or.inr ⟨caller, found, none, Or.inr ⟨existing, held, ?_, rfl, rfl⟩⟩
    exact (revoke_find? principal now tokenHash).mp (Table.insert?_fresh inserted)

theorem linkAccount_lawful (sound : Sound directory) {principal : PrincipalId}
    {subject tokenHash : String} {now : Time} {outcome : LinkOutcome}
    (repeats : RepeatsItsMerge directory principal subject tokenHash)
    (accepted : linkAccount directory principal subject tokenHash now = .ok (outcome, next)) :
    Lawful directory next := by
  rcases linkAccount_ok accepted with
    rfl | ⟨caller, found, unlinked, ⟨absent, rfl⟩ | ⟨existing, held, fresh, principals, saved⟩⟩
  · exact sound.same
  · refine sound.linked found ?_ absent
    cases merged : caller.mergedInto with
    | none => rfl
    | some account =>
        obtain ⟨other, known, -⟩ := repeats caller account found merged
        rw [absent] at known
        cases known
  · refine sound.merged found unlinked held ?_ principals saved
    intro account merged
    obtain ⟨other, known, same | taken⟩ := repeats caller account found merged
    · rw [held, Option.some.injEq] at known
      rw [known]
      exact same
    · rw [fresh] at taken
      cases taken

/-- A link of a merged caller that is not its own breaks a law. -/
theorem linkAccount_broken (sound : Sound directory) {principal : PrincipalId}
    {subject tokenHash : String} {now : Time}
    (strays : ¬RepeatsItsMerge directory principal subject tokenHash) :
    ¬Keeps directory
      (committed directory (linkAccount directory principal subject tokenHash now)) := by
  intro keeps
  apply strays
  intro row account found merged
  have unlinked : row.googleSub = none := by
    cases linked : row.googleSub with
    | none => rfl
    | some other =>
        rw [sound.exclusive principal row found (by rw [linked]; rfl)] at merged
        cases merged
  cases held : holderOf directory.principals subject with
  | none =>
      have accepted : linkAccount directory principal subject tokenHash now =
          .ok (⟨principal, 0, none⟩, { directory with
            principals := directory.principals.update (·.id == principal) (asAccount subject)
              (asAccount_key subject) }) := by
        simp [linkAccount, found, unlinked, held]
      rw [accepted] at keeps
      have exclusive : (asAccount subject row).mergedInto = none := by
        refine keeps.integrity.exclusive principal (asAccount subject row) ?_ rfl
        simp only [committed]
        rw [find?_updateId, if_pos rfl, found, Option.map_some]
      have kept : (asAccount subject row).mergedInto = some account := merged
      rw [exclusive] at kept
      cases kept
  | some existing =>
      refine ⟨existing, rfl, ?_⟩
      by_cases taken : directory.credentials.find? tokenHash = none
      · left
        have fresh := (revoke_find? principal now tokenHash).mpr taken
        obtain ⟨credentials, inserted⟩ := Table.insert?_isSome
          (show (directory.credentials.update (fun credential =>
            credential.principalId == principal && credential.revokedAt.isNone) (revoked now)
            (revoked_key now)).find?
              (Keyed.key (Credential.mk tokenHash existing.id now none)) = none from fresh)
        have accepted : committed directory (linkAccount directory principal subject tokenHash now) =
            { principals := directory.principals.update (·.id == principal)
                (asMerged existing.id now) (asMerged_key existing.id now)
              credentials
              saved := transferSavedReports directory.saved principal existing.id } := by
          simp [linkAccount, found, unlinked, held, inserted, committed]
        rw [accepted] at keeps
        obtain ⟨later, known, kept⟩ := keeps.settled principal row account found merged
        rw [find?_updateId, if_pos rfl, found, Option.map_some, Option.some.injEq] at known
        rw [← known] at kept
        exact Option.some.inj kept
      · right
        exact Option.isSome_iff_ne_none.mpr taken

end Steps

section Runs

/-- An allowed transaction keeps the laws. -/
theorem Desk.step_lawful {desk : Desk δ} {event : Event δ} (sound : Sound desk.directory)
    (allowed : Allowed desk event) : Lawful desk.directory (desk.step event).directory := by
  cases event with
  | createGuest id tokenHash now =>
      simp only [Desk.step]
      cases created : createGuestPrincipal desk.directory id tokenHash now with
      | error refused => exact sound.same
      | ok next => exact createGuestPrincipal_lawful sound created
  | authenticate tokenHash =>
      simp only [Desk.step]
      split
      · exact sound.same
      · exact sound.same
  | link caller subject tokenHash now =>
      simp only [Desk.step]
      split
      · rename_i known
        cases linked : linkAccount desk.directory caller subject tokenHash now with
        | error refused => exact sound.same
        | ok answer => exact linkAccount_lawful sound (allowed known) linked
      · exact sound.same
  | save caller reportId version now =>
      simp only [Desk.step]
      split
      · cases accepted : saveOwnedReport desk.directory caller reportId version now with
        | error refused => exact sound.same
        | ok answer => exact saveOwnedReport_lawful sound accepted
      · exact sound.same
  | unsave caller reportId version =>
      simp only [Desk.step]
      split
      · cases accepted : unsaveOwnedReport desk.directory caller reportId version with
        | error refused => exact sound.same
        | ok next => exact unsaveOwnedReport_lawful sound accepted
      · exact sound.same

theorem Desk.step_keeps {desk : Desk δ} (event : Event δ) (sound : Sound desk.directory) :
    Allowed desk event ↔ Keeps desk.directory (desk.step event).directory := by
  constructor
  · exact fun allowed => (Desk.step_lawful sound allowed).keeps
  · intro keeps
    cases event with
    | createGuest _ _ _ => trivial
    | authenticate _ => trivial
    | save _ _ _ _ => trivial
    | unsave _ _ _ => trivial
    | link caller subject tokenHash now =>
        intro known
        by_contra strays
        simp only [Desk.step, if_pos known] at keeps
        exact linkAccount_broken sound strays keeps

theorem keeps_iff {desk : Desk δ} (sound : Sound desk.directory) (events : List (Event δ)) :
    Meets Desk.step Allowed desk events ↔
      Meets Desk.step (fun desk event => Keeps desk.directory (desk.step event).directory) desk
        events := by
  induction events generalizing desk with
  | nil => exact Iff.rfl
  | cons event rest ih =>
      constructor
      · rintro ⟨allowed, later⟩
        have lawful := Desk.step_lawful sound allowed
        exact ⟨lawful.keeps, (ih lawful.sound).mp later⟩
      · rintro ⟨keeps, later⟩
        have allowed := (Desk.step_keeps event sound).mpr keeps
        exact ⟨allowed, (ih (Desk.step_lawful sound allowed).sound).mpr later⟩

/-- Every transaction of a run keeps the laws exactly when its merged callers link nothing but
their own account. -/
theorem linking_integrity (events : List (Event δ)) :
    Meets Desk.step Allowed Desk.empty events ↔
      Meets Desk.step (fun desk event => Keeps desk.directory (desk.step event).directory)
        Desk.empty events :=
  keeps_iff sound_empty events

/-- A guest whose device sends two links at once: the first merges it, the second gives it a
subject of its own. -/
def exampleEvents : List (Event Unit) :=
  [.createGuest 1 "one" 0, .createGuest 2 "two" 0, .authenticate "one", .authenticate "two",
    .authenticate "two", .link 1 "alice" "three" 1, .link 2 "alice" "four" 2,
    .link 2 "bob" "five" 3]

theorem linking_integrity_raced :
    ¬Integrity (exec Desk.step (Desk.empty : Desk Unit) exampleEvents).directory := by
  intro integrity
  have exclusive := integrity.exclusive 2 ⟨2, .account, some "bob", some 1, some 2, 0⟩ (by decide)
    rfl
  cases exclusive

end Runs

end Ovrly.Accounts
