import Ovrly.Releases.Ledger
import Ovrly.Runs

/-!
Release runs over the shared refs.

A run reserves a code in its preflight job and issues it in its publish job. Each job is a process
of its own and loads the ledger itself; listing the refs and creating a ref are separate requests,
and a process can end between any two of them. The publish jobs run in one concurrency group, which
`serialized` stands for.
-/

namespace Ovrly.Releases

open Relational Runs

inductive Job
  | preflight
  | publish
  deriving DecidableEq, Repr

/-- `_write_anchored`: the ref, the record for an anchor, and the attempts that are left. -/
structure Writing where
  ref : Ref
  build : String → Record
  anchor : String
  attempts : Nat

/-- `reserve`: the code of this attempt, and how many attempts follow. -/
structure Allocation where
  sourceSha : String
  run : Run
  code : Nat
  attempts : Nat

inductive Task
  | idle
  /-- Pages of refs are being read, since the refs were the given ones. -/
  | listing (since : List Entry) (again : Option Allocation)
  | allocating (allocation : Allocation) (writing : Writing)
  | issuing (code : Nat) (writing : Writing)

/-- A release run: the job it is in, the ledger the job holds, and the codes of the ledger it
loaded last. -/
structure Party where
  job : Option Job := none
  ledger : Option Ledger := none
  loaded : List Nat := []
  task : Task := .idle

/-- A code that a run reserved, with the codes of the ledger it had loaded last. -/
structure Reserved where
  party : Nat
  code : Nat
  known : List Nat

structure World where
  refs : Table Entry := .empty
  parties : Nat → Party := fun _ => {}
  holder : Option Nat := none
  reserved : List Reserved := []

/-- How GitHub answers the creation of a ref; one that exists is never created. -/
inductive Answer
  | created (tagSha : String)
  /-- Created, but the answer was lost. -/
  | lost (tagSha : String)
  | moved
  | failed
  deriving DecidableEq, Repr

inductive Action
  /-- The owner sets up the namespace, or tags something else in it. -/
  | place (entry : Entry)
  | enter (party : Nat) (job : Job)
  | leave (party : Nat)
  | list (party : Nat)
  | listed (party : Nat) (listing : List Entry) (head : String)
  | reserve (party : Nat) (sourceSha : String) (run : Run) (head : String)
  | issue (party : Nat) (code : Nat) (reservation : Record) (run : Run) (evidence : Evidence)
      (head : String)
  | create (party : Nat) (answer : Answer) (head : String)

section Steps

def World.set (world : World) (party : Nat) (state : Party) : World :=
  { world with parties := Function.update world.parties party state }

def World.leave (world : World) (party : Nat) : World :=
  { world.set party {} with holder := if world.holder = some party then none else world.holder }

/-- The next attempt of `reserve` with the ledger at hand. -/
def World.allocate (world : World) (party : Nat) (ledger : Ledger) (sourceSha : String) (run : Run)
    (head : String) : Nat → World
  | 0 => world.leave party
  | attempts + 1 =>
      match ledger.nextCode with
      | .error _ => world.leave party
      | .ok code =>
          if !isSha head then world.leave party
          else
            world.set party { world.parties party with
              ledger := some ledger
              task := .allocating ⟨sourceSha, run, code, attempts⟩
                ⟨.reserve code, baseRecord "reserve" code (some sourceSha) run, head, 3⟩ }

/-- A listing shows every ref that was there when it began, and only refs that exist. -/
def World.shows (world : World) (since listing : List Entry) : Bool :=
  since.all listing.contains && listing.all world.refs.rows.contains

def World.listed (settings : Settings) (world : World) (party : Nat) (listing : List Entry)
    (head : String) (again : Option Allocation) : World :=
  match load settings listing with
  | .error _ => world.leave party
  | .ok fresh =>
      let loaded := { world.parties party with
        ledger := some fresh, loaded := fresh.used, task := .idle }
      match again with
      | none => world.set party loaded
      | some allocation =>
          (world.set party loaded).allocate party fresh allocation.sourceSha allocation.run head
            allocation.attempts

def World.issue (world : World) (party : Nat) (code : Nat) (reservation : Record) (run : Run)
    (evidence : Evidence) (head : String) (ledger : Ledger) : World :=
  match checkIssue ledger code with
  | .error _ => world.leave party
  | .ok _ =>
      if !isSha head then world.leave party
      else
        world.set party { world.parties party with
          task := .issuing code
            ⟨.issue code, issueRecord code reservation run evidence, head, 3⟩ }

def Writing.entry (writing : Writing) (tagSha : String) : Entry where
  ref := writing.ref
  annotated := true
  tagSha := tagSha
  targetType := "commit"
  target := some writing.anchor
  message := some (writing.build writing.anchor)

inductive Outcome
  | written (record : Record)
  | exists_
  | again (writing : Writing)
  | raised

/-- The refs after an attempt, whether it created its ref, and what the process sees of it. -/
structure Attempt where
  refs : Table Entry
  created : Bool
  outcome : Outcome

/-- One attempt of `_write_anchored`. -/
def write (refs : Table Entry) (writing : Writing) (answer : Answer) (head : String) : Attempt :=
  match answer with
  | .created tagSha =>
      match refs.insert? (writing.entry tagSha) with
      | none => ⟨refs, false, .exists_⟩
      | some next => ⟨next, true, .written (writing.build writing.anchor)⟩
  | .lost tagSha =>
      match refs.insert? (writing.entry tagSha) with
      | none => ⟨refs, false, .raised⟩
      | some next => ⟨next, true, .raised⟩
  | .moved =>
      -- HEAD must verifiably have moved, and the attempts are limited.
      if !isSha head || head == writing.anchor || writing.attempts ≤ 1 then ⟨refs, false, .raised⟩
      else ⟨refs, false, .again { writing with anchor := head, attempts := writing.attempts - 1 }⟩
  | .failed => ⟨refs, false, .raised⟩

/-- A reservation is noted when its ref is created, also where the answer was lost. -/
def World.noted (world : World) (attempt : Attempt) (party code : Nat) : World :=
  { world with
    refs := attempt.refs
    reserved :=
      if attempt.created then world.reserved ++ [⟨party, code, (world.parties party).loaded⟩]
      else world.reserved }

def World.allocating (world : World) (party : Nat) (ledger : Ledger) (allocation : Allocation)
    (attempt : Attempt) : World :=
  let next := world.noted attempt party allocation.code
  match attempt.outcome with
  | .written record =>
      next.set party { world.parties party with
        ledger := some { ledger with
          reservations := ledger.reservations ++ [(allocation.code, record)] }
        task := .idle }
  | .exists_ =>
      next.set party { world.parties party with
        task := .listing attempt.refs.rows (some allocation) }
  | .again writing =>
      next.set party { world.parties party with task := .allocating allocation writing }
  | .raised => next.leave party

def World.issuing (world : World) (party : Nat) (ledger : Ledger) (code : Nat)
    (attempt : Attempt) : World :=
  let next := { world with refs := attempt.refs }
  match attempt.outcome with
  | .written record =>
      next.set party { world.parties party with
        ledger := some { ledger with issuances := ledger.issuances ++ [(code, record)] }
        task := .idle }
  | .again writing => next.set party { world.parties party with task := .issuing code writing }
  | .exists_ => next.leave party
  | .raised => next.leave party

def World.create (world : World) (party : Nat) (answer : Answer) (head : String) : World :=
  match (world.parties party).task, (world.parties party).ledger with
  | .allocating allocation writing, some ledger =>
      world.allocating party ledger allocation (write world.refs writing answer head)
  | .issuing code writing, some ledger =>
      world.issuing party ledger code (write world.refs writing answer head)
  | _, _ => world

variable (settings : Settings) (serialized : Bool)

/-- Whether a job can start: a publish job waits for the one that runs. -/
def World.admits (world : World) (party : Nat) (job : Job) : Bool :=
  (world.parties party).job.isNone &&
    (!serialized || job == .preflight || world.holder.isNone)

def World.step (world : World) : Action → World
  | .place entry =>
      if entry.ref.reserved?.isSome || entry.ref.issued?.isSome then world
      else
        match world.refs.insert? entry with
        | none => world
        | some refs => { world with refs }
  | .enter party job =>
      if world.admits serialized party job then
        { world.set party { job := some job } with
          holder := if job = .publish then some party else world.holder }
      else world
  | .leave party => world.leave party
  | .list party =>
      match (world.parties party).job, (world.parties party).task with
      | some _, .idle =>
          world.set party { world.parties party with task := .listing world.refs.rows none }
      | _, _ => world
  | .listed party listing head =>
      match (world.parties party).task with
      | .listing since again =>
          if world.shows since listing then world.listed settings party listing head again
          else world
      | _ => world
  | .reserve party sourceSha run head =>
      match (world.parties party).job, (world.parties party).task,
          (world.parties party).ledger with
      | some .preflight, .idle, some ledger => world.allocate party ledger sourceSha run head 5
      | _, _, _ => world
  | .issue party code reservation run evidence head =>
      match (world.parties party).job, (world.parties party).task,
          (world.parties party).ledger with
      | some .publish, .idle, some ledger =>
          world.issue party code reservation run evidence head ledger
      | _, _, _ => world
  | .create party answer head => world.create party answer head

def World.run (actions : List Action) : World :=
  exec (World.step settings serialized) {} actions

end Steps

end Ovrly.Releases
