import Ovrly.Voice.Actions

/-!
A voice session and its conversation (`voice/VoiceSession.kt`, `voice/VoiceConversation.kt` and
`voice/VoiceTurnTimers.kt` of the Android app).

Everything runs on one dispatcher. Messages of the transport, audio callbacks, outcomes of
commands and timers carry the token of the session they were made for and can arrive at any time
later; a cancelled timer does not fire.
-/

namespace Ovrly.Voice

inductive VoiceInteractionPhase
  | idle
  | connecting
  | listening
  | thinking
  | speaking
  | finishing
  | error
  deriving DecidableEq, Repr

inductive Message
  | input
  | toolResult (result : String)
  | interrupt
  deriving DecidableEq, Repr

structure VoiceTurnTimers where
  window : Bool := false
  grace : Bool := false
  silence : Bool := false
  thinking : Bool := false
  deriving DecidableEq, Repr

structure VoiceConversation where
  speaking : Bool := false
  finishing : Bool := false
  awaitingReply : Bool := false
  holding : Bool
  timers : VoiceTurnTimers := {}
  actions : VoiceActions := {}

namespace VoiceConversation

def acceptingInput (conversation : VoiceConversation) : Bool :=
  !conversation.speaking && !conversation.finishing

def waitingForUser (conversation : VoiceConversation) : Bool :=
  conversation.acceptingInput && !conversation.awaitingReply && !conversation.holding

def armSilence (conversation : VoiceConversation) : VoiceConversation :=
  { conversation with
    timers := { conversation.timers with silence := conversation.waitingForUser } }

def cancelSilence (conversation : VoiceConversation) : VoiceConversation :=
  { conversation with timers := { conversation.timers with silence := false } }

def cancelThinking (conversation : VoiceConversation) : VoiceConversation :=
  { conversation with timers := { conversation.timers with thinking := false } }

end VoiceConversation

structure VoiceSession where
  generation : Nat := 0
  closed : Bool := false
  active : Bool := false
  phase : VoiceInteractionPhase := .idle
  deadline : Bool := false
  conversation : Option VoiceConversation := none
  heldStart : Bool := false
  sent : List Message := []

inductive VoiceEvent
  | ready
  | audio (enqueued : Bool)
  | tool (tool : Tool) (now : String)
  | text
  | interrupted
  | turnComplete
  | error
  | unknown
  deriving DecidableEq, Repr

/-- Work that was posted for a session. -/
inductive Callback
  | message (event : VoiceEvent)
  | failed
  | microphone (speech : Bool)
  | drained
  | audioFailed
  | outcome (id result : String)
  deriving DecidableEq, Repr

inductive Timer
  | deadline
  | window
  | grace
  | silence
  | thinking
  deriving DecidableEq, Repr

namespace VoiceSession

def finish (session : VoiceSession) (error : Bool) : VoiceSession :=
  { session with
    generation := session.generation + 1
    active := false
    phase := if error then .error else .idle
    deadline := false
    conversation := none
    heldStart := false }

def isCurrent (session : VoiceSession) (token : Nat) : Bool :=
  !session.closed && session.generation == token && session.active

/-- Messages are sent while the transport takes them; the first it refuses ends the session. -/
def send (session : VoiceSession) (messages : List Message) (accepted : Nat) : VoiceSession :=
  let sent := { session with sent := session.sent ++ messages.take accepted }
  if messages.length ≤ accepted then sent else sent.finish true

def talk (session : VoiceSession) (conversation : VoiceConversation) : VoiceSession :=
  { session with conversation := some conversation }

/-- `start`: the connection is set up unless voice is unavailable or not permitted. -/
def begin (session : VoiceSession) (permitted starts : Bool) : VoiceSession :=
  if session.closed || session.active then session
  else if !permitted then { session with phase := .idle }
  else
    let connecting := { session with
      generation := session.generation + 1
      active := true
      phase := .connecting
      deadline := true }
    if starts then connecting else connecting.finish true

def listening (session : VoiceSession) (conversation : VoiceConversation) : VoiceSession :=
  let quiet := { conversation with speaking := false }.cancelThinking
  if quiet.finishing then
    if quiet.awaitingReply then session.talk quiet else session.finish false
  else { session with phase := .listening }.talk quiet.armSilence

/-- A visual hint only. -/
def thinking (session : VoiceSession) (conversation : VoiceConversation) : VoiceSession :=
  if !conversation.acceptingInput || session.phase == VoiceInteractionPhase.thinking then session
  else { session with phase := .thinking }

def ready (session : VoiceSession) (permitted started : Bool) : VoiceSession :=
  if !permitted then session.finish true
  else
    let created : VoiceConversation :=
      { holding := session.heldStart, timers := { window := true } }
    let opened := { session with deadline := false, phase := .listening }.talk created
    if started then opened.talk created.armSilence else opened.finish true

def speak (session : VoiceSession) (conversation : VoiceConversation) (enqueued : Bool) :
    VoiceSession :=
  let speaking := { conversation with
    speaking := true
    awaitingReply := conversation.finishing && conversation.awaitingReply }
  let next := session.talk speaking.cancelSilence.cancelThinking
  let shown := if conversation.finishing then next else { next with phase := .speaking }
  if enqueued then shown else shown.finish true

def tool (isCommand : Tool → Bool) (session : VoiceSession) (conversation : VoiceConversation)
    (tool : Tool) (now : String) (accepted : Nat) : VoiceSession :=
  let awaiting := { conversation with awaitingReply := true }.cancelSilence.cancelThinking
  let hinted := (session.talk awaiting).thinking awaiting
  let (response, actions) := awaiting.actions.respond isCommand tool awaiting.finishing now
  match response with
  | .invalid => hinted.finish true
  | .refused => hinted.finish true
  | .replied results =>
      (hinted.talk { awaiting with actions := actions }).send (results.map .toolResult) accepted

def receive (isCommand : Tool → Bool) (session : VoiceSession) (conversation : VoiceConversation)
    (accepted : Nat) : VoiceEvent → VoiceSession
  | .audio enqueued => session.speak conversation enqueued
  | .tool tool now => VoiceSession.tool isCommand session conversation tool now accepted
  | .interrupted => session.listening { conversation with awaitingReply := false }
  | .turnComplete =>
      let replied := { conversation with awaitingReply := false }
      if replied.speaking then session.talk replied else session.listening replied
  | _ => session

def route (isCommand : Tool → Bool) (session : VoiceSession) (permitted started : Bool)
    (accepted : Nat) (event : VoiceEvent) : VoiceSession :=
  if event = .error then session.finish true
  else
    match session.conversation with
    | none =>
        if event = .ready then session.ready permitted started
        else if event = .unknown then session
        else session.finish true
    | some conversation => session.receive isCommand conversation accepted event

def microphone (session : VoiceSession) (conversation : VoiceConversation)
    (permitted speech : Bool) (accepted : Nat) : VoiceSession :=
  if !permitted then session.finish true
  else if conversation.acceptingInput then
    let heard :=
      if speech then
        let awaiting := { conversation with awaitingReply := true }.cancelSilence
        { session with
          phase := if session.phase = VoiceInteractionPhase.thinking then .listening
            else session.phase }.talk
          { awaiting with timers := { awaiting.timers with thinking := true } }
      else session
    heard.send [.input] accepted
  else session

/-- At the input cutoff the microphone closes and only a reply on its way may finish. -/
def beginFinishing (session : VoiceSession) (conversation : VoiceConversation) : VoiceSession :=
  let stopped := { conversation with
    finishing := true
    awaitingReply := conversation.speaking || conversation.awaitingReply
    timers := { conversation.timers with window := false } }.cancelSilence.cancelThinking
  if stopped.awaitingReply then
    { session with phase := .finishing }.talk
      { stopped with timers := { stopped.timers with grace := true } }
  else session.finish false

def hold (session : VoiceSession) (conversation : VoiceConversation) (pressed : Bool) :
    VoiceSession :=
  if pressed && conversation.acceptingInput then
    session.talk { conversation with holding := true }.cancelSilence
  else if !pressed && conversation.holding then
    session.talk { conversation with holding := false }.armSilence
  else session

def holdStart (session : VoiceSession) (permitted starts : Bool) : VoiceSession :=
  if session.closed then session
  else
    match session.conversation with
    | some conversation => session.hold conversation true
    | none =>
        if session.active then session
        else
          let begun := session.begin permitted starts
          { begun with heldStart := begun.active }

def holdEnd (session : VoiceSession) : VoiceSession :=
  if session.closed then session
  else
    match session.conversation with
    | some conversation => { session.hold conversation false with heldStart := false }
    | none =>
        if session.heldStart && session.active then session.finish false
        else { session with heldStart := false }

def interrupt (session : VoiceSession) (accepted : Nat) : VoiceSession :=
  match session.conversation with
  | none => session
  | some conversation =>
      if session.closed || !conversation.speaking then session
      else
        let told := session.send [.interrupt] accepted
        match told.conversation with
        | none => told
        | some conversation => told.listening { conversation with awaitingReply := false }

def stop (session : VoiceSession) : VoiceSession :=
  if session.closed || !session.active then session else session.finish false

def close (session : VoiceSession) : VoiceSession :=
  if session.closed then session else { session.finish false with closed := true }

/-- Posted work runs only for the current session; an executor reports back once. -/
def run (isCommand : Tool → Bool) (session : VoiceSession) (token : Nat) (permitted started : Bool)
    (accepted : Nat) (callback : Callback) : VoiceSession :=
  if !session.isCurrent token then session
  else
    match callback, session.conversation with
    | .message event, _ => session.route isCommand permitted started accepted event
    | .failed, _ => session.finish true
    | .audioFailed, some _ => session.finish true
    | .microphone speech, some conversation =>
        session.microphone conversation permitted speech accepted
    | .drained, some conversation =>
        if conversation.speaking then session.listening conversation else session
    | .outcome id result, some conversation =>
        if conversation.actions.running id then
          let (results, actions) := conversation.actions.complete id result
          (session.talk { conversation with actions := actions }).send
            (results.map .toolResult) accepted
        else session
    | _, none => session

def fire (session : VoiceSession) (timer : Timer) : VoiceSession :=
  match timer, session.conversation with
  | .deadline, _ => if session.deadline then session.finish true else session
  | .window, some conversation =>
      if conversation.timers.window then session.beginFinishing conversation else session
  | .grace, some conversation =>
      if conversation.timers.grace then session.finish false else session
  | .silence, some conversation =>
      if conversation.timers.silence then session.finish false else session
  | .thinking, some conversation =>
      if conversation.timers.thinking then
        let fired := session.talk conversation.cancelThinking
        if conversation.awaitingReply then fired.thinking conversation else fired
      else session
  | _, none => session

end VoiceSession

/-- What happens to a voice session, with what its surroundings answer. -/
inductive SessionEvent
  | start (permitted starts : Bool)
  | holdStart (permitted starts : Bool)
  | holdEnd
  | interrupt (accepted : Nat)
  | stop
  | close
  | callback (token : Nat) (permitted started : Bool) (accepted : Nat) (callback : Callback)
  | timer (timer : Timer)
  deriving DecidableEq, Repr

def VoiceSession.step (isCommand : Tool → Bool) (session : VoiceSession) :
    SessionEvent → VoiceSession
  | .start permitted starts => session.begin permitted starts
  | .holdStart permitted starts => session.holdStart permitted starts
  | .holdEnd => session.holdEnd
  | .interrupt accepted => session.interrupt accepted
  | .stop => session.stop
  | .close => session.close
  | .callback token permitted started accepted callback =>
      session.run isCommand token permitted started accepted callback
  | .timer timer => session.fire timer

end Ovrly.Voice
