import Ovrly.Relational
import Ovrly.Runs

/-!
The tool calls of a voice session (`voice/VoiceActions.kt` of the Android app).

A product command is handed to its executor, which reports back once; every other call is
answered at once. Which calls are commands, and what a call is answered, is left open.
-/

namespace Ovrly.Voice

open Relational Runs

structure Tool where
  id : String
  name : String
  arguments : Option String
  deriving DecidableEq, Repr

/-- A recorded call, its result and the replies that wait for it. -/
structure Call where
  tool : Tool
  result : Option String
  waiting : Nat
  deriving DecidableEq, Repr

instance : Keyed Call String := ⟨fun call => call.tool.id⟩

structure VoiceActions where
  calls : Table Call := Table.empty
  executed : List Tool := []

/-- How `respond` ends: it throws, it refuses the call, or it makes these replies. -/
inductive Response
  | invalid
  | refused
  | replied (results : List String)
  deriving DecidableEq, Repr

namespace VoiceActions

def maxActions : Nat := 32

def waits (actions : VoiceActions) (id : String) : VoiceActions :=
  { actions with
    calls := actions.calls.update (·.tool.id == id)
      (fun call => { call with waiting := call.waiting + 1 }) fun _ => rfl }

def replay (actions : VoiceActions) (previous : Call) (tool : Tool) : Response × VoiceActions :=
  if previous.tool ≠ tool then (.invalid, actions)
  else
    match previous.result with
    | some result => (.replied [result], actions)
    | none => (.replied [], actions.waits tool.id)

def complete (actions : VoiceActions) (id result : String) : List String × VoiceActions :=
  match actions.calls.find? id with
  | none => ([], actions)
  | some call =>
      (List.replicate call.waiting result,
        { actions with
          calls := actions.calls.update (·.tool.id == id)
            (fun call => { call with result := some result, waiting := 0 }) fun _ => rfl })

def running (actions : VoiceActions) (id : String) : Bool :=
  (actions.calls.find? id).any (·.result.isNone)

/-- A new call is recorded; a command runs unless the session is finishing. -/
def execute (isCommand : Tool → Bool) (actions : VoiceActions) (tool : Tool) (finishing : Bool)
    (now : String) : Response × VoiceActions :=
  match actions.calls.insert? ⟨tool, none, 1⟩ with
  | none => (.refused, actions)
  | some calls =>
      if !finishing && isCommand tool then
        (.replied [], { actions with calls := calls, executed := actions.executed ++ [tool] })
      else
        let (results, completed) := ({ actions with calls := calls } : VoiceActions).complete
          tool.id now
        (.replied results, completed)

/-- `now` is the result of a call that is no command. -/
def respond (isCommand : Tool → Bool) (actions : VoiceActions) (tool : Tool) (finishing : Bool)
    (now : String) : Response × VoiceActions :=
  match actions.calls.find? tool.id with
  | some previous => actions.replay previous tool
  | none =>
      if maxActions ≤ actions.calls.rows.length then (.refused, actions)
      else actions.execute isCommand tool finishing now

end VoiceActions

inductive ToolEvent
  | call (tool : Tool) (finishing : Bool) (now : String)
  | outcome (id result : String)
  deriving DecidableEq, Repr

/-- The calls of a session, the ids it accepted so far and the replies it made, with their ids. -/
structure ToolLog where
  actions : VoiceActions := {}
  accepted : List String := []
  replies : List (String × String) := []

namespace ToolLog

def record (log : ToolLog) (tool : Tool) : Response × VoiceActions → ToolLog
  | (.replied results, actions) =>
      ⟨actions, log.accepted ++ [tool.id], log.replies ++ results.map (tool.id, ·)⟩
  | (_, actions) => { log with actions := actions }

def step (isCommand : Tool → Bool) (log : ToolLog) : ToolEvent → ToolLog
  | .call tool finishing now =>
      log.record tool (log.actions.respond isCommand tool finishing now)
  | .outcome id result =>
      if log.actions.running id then
        let (results, actions) := log.actions.complete id result
        { log with actions := actions, replies := log.replies ++ results.map (id, ·) }
      else log

structure Lawful (isCommand : Tool → Bool) (log : ToolLog) : Prop where
  bounded : log.actions.calls.rows.length ≤ VoiceActions.maxActions
  recorded : ∀ tool ∈ log.actions.executed, isCommand tool = true ∧
    ∃ call ∈ log.actions.calls.rows, call.tool = tool
  once : (log.actions.executed.map (·.id)).Nodup
  running : ∀ call ∈ log.actions.calls.rows, call.result = none → call.tool ∈ log.actions.executed
  settled : ∀ call ∈ log.actions.calls.rows, call.result.isSome = true → call.waiting = 0
  answered : ∀ call ∈ log.actions.calls.rows,
    log.replies.countP (·.1 == call.tool.id) + call.waiting = log.accepted.count call.tool.id
  same : ∀ reply ∈ log.replies, ∃ call ∈ log.actions.calls.rows,
    call.tool.id = reply.1 ∧ call.result = some reply.2
  known : ∀ id ∈ log.accepted, ∃ call ∈ log.actions.calls.rows, call.tool.id = id

end ToolLog

end Ovrly.Voice
