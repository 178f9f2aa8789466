import Ovrly.Voice.ActionsLaw
import Ovrly.Voice.Session

/-!
What a voice session keeps over every order of its events.
-/

namespace Ovrly.Voice

open Runs

structure VoiceConversation.Sound (isCommand : Tool → Bool) (conversation : VoiceConversation) :
    Prop where
  silence : conversation.timers.silence = conversation.waitingForUser
  window : conversation.timers.window = !conversation.finishing
  grace : conversation.timers.grace = conversation.finishing
  thinking : conversation.timers.thinking = true →
    conversation.acceptingInput = true ∧ conversation.awaitingReply = true
  pending : conversation.finishing = true →
    conversation.speaking = true ∨ conversation.awaitingReply = true
  recorded : ∃ log : ToolLog, log.actions = conversation.actions ∧ log.Lawful isCommand

structure VoiceConversation.Timed (isCommand : Tool → Bool) (conversation : VoiceConversation) :
    Prop where
  silenced : conversation.finishing = true → conversation.timers.silence = false
  window : conversation.timers.window = !conversation.finishing
  grace : conversation.timers.grace = conversation.finishing
  recorded : ∃ log : ToolLog, log.actions = conversation.actions ∧ log.Lawful isCommand

theorem VoiceConversation.Sound.timed {isCommand : Tool → Bool} {conversation : VoiceConversation}
    (sound : conversation.Sound isCommand) : conversation.Timed isCommand where
  silenced finishing := by
    rw [sound.silence]
    simp [waitingForUser, acceptingInput, finishing]
  window := sound.window
  grace := sound.grace
  recorded := sound.recorded

namespace VoiceSession

variable {isCommand : Tool → Bool} {session : VoiceSession}

structure Sound (isCommand : Tool → Bool) (session : VoiceSession) : Prop where
  talking : ∀ conversation, session.conversation = some conversation →
    conversation.Sound isCommand ∧ session.active = true ∧ session.deadline = false
  unclosed : session.active = true → session.closed = false
  connecting : session.active = true → session.conversation = none → session.deadline = true
  waiting : session.deadline = true → session.active = true

theorem initial_sound (isCommand : Tool → Bool) : ({} : VoiceSession).Sound isCommand :=
  ⟨nofun, nofun, nofun, nofun⟩

theorem finish_sound (session : VoiceSession) (error : Bool) :
    (session.finish error).Sound isCommand :=
  ⟨nofun, nofun, nofun, nofun⟩

structure Ready (session : VoiceSession) : Prop where
  active : session.active = true
  unclosed : session.closed = false
  set : session.deadline = false

theorem Sound.ready (sound : session.Sound isCommand) {conversation : VoiceConversation}
    (talks : session.conversation = some conversation) : session.Ready :=
  ⟨(sound.talking conversation talks).2.1, sound.unclosed (sound.talking conversation talks).2.1,
    (sound.talking conversation talks).2.2⟩

theorem Ready.talk_sound (ready : session.Ready) {conversation : VoiceConversation}
    (sound : conversation.Sound isCommand) : (session.talk conversation).Sound isCommand := by
  refine ⟨?_, fun _ => ready.unclosed, nofun, ?_⟩
  · rintro other same
    obtain rfl := Option.some.inj same
    exact ⟨sound, ready.active, ready.set⟩
  · intro pending
    have none_ : session.deadline = true := pending
    rw [ready.set] at none_
    cases none_

theorem Ready.talk (ready : session.Ready) (conversation : VoiceConversation) :
    (session.talk conversation).Ready :=
  ⟨ready.active, ready.unclosed, ready.set⟩

theorem Ready.thinking (ready : session.Ready) (conversation : VoiceConversation) :
    (session.thinking conversation).Ready := by
  unfold VoiceSession.thinking
  split
  · exact ready
  · exact ⟨ready.active, ready.unclosed, ready.set⟩

theorem send_sound (sound : session.Sound isCommand) (messages : List Message) (accepted : Nat) :
    (session.send messages accepted).Sound isCommand := by
  unfold send
  dsimp only
  split
  · exact ⟨sound.talking, sound.unclosed, sound.connecting, sound.waiting⟩
  · exact finish_sound _ _

theorem phased_sound (sound : session.Sound isCommand) (phase : VoiceInteractionPhase) :
    ({ session with phase := phase } : VoiceSession).Sound isCommand :=
  ⟨sound.talking, sound.unclosed, sound.connecting, sound.waiting⟩

theorem begin_sound (sound : session.Sound isCommand) (permitted starts : Bool) :
    (session.begin permitted starts).Sound isCommand := by
  unfold begin
  split
  · exact sound
  · rename_i idle
    rw [Bool.or_eq_true, not_or, Bool.not_eq_true, Bool.not_eq_true] at idle
    split
    · exact phased_sound sound _
    · dsimp only
      split
      · have silent : session.conversation = none := by
          cases talks : session.conversation with
          | none => rfl
          | some conversation =>
              have active := (sound.talking conversation talks).2.1
              rw [idle.2] at active
              cases active
        refine ⟨?_, fun _ => idle.1, fun _ _ => rfl, fun _ => rfl⟩
        intro conversation talks
        have some_ : session.conversation = some conversation := talks
        rw [silent] at some_
        cases some_
      · exact finish_sound _ _

theorem thinking_sound (sound : session.Sound isCommand) (conversation : VoiceConversation) :
    (session.thinking conversation).Sound isCommand := by
  unfold thinking
  split
  · exact sound
  · exact phased_sound sound _

theorem listening_sound (ready : session.Ready) {conversation : VoiceConversation}
    (timed : conversation.Timed isCommand) :
    (session.listening conversation).Sound isCommand := by
  unfold listening
  dsimp only
  split
  · rename_i finishing
    have last : conversation.finishing = true := finishing
    split
    · rename_i awaiting
      have due : conversation.awaitingReply = true := awaiting
      refine ready.talk_sound ⟨?_, timed.window, timed.grace, nofun, fun _ => Or.inr due,
        timed.recorded⟩
      have waits : (VoiceConversation.cancelThinking
          { conversation with speaking := false }).waitingForUser = false := by
        simp [VoiceConversation.waitingForUser, VoiceConversation.acceptingInput,
          VoiceConversation.cancelThinking, last]
      rw [waits]
      exact timed.silenced last
    · exact finish_sound _ _
  · rename_i going
    have open_ : conversation.finishing = false := by
      rw [← Bool.not_eq_true]
      exact going
    refine Ready.talk_sound ?_ ?_
    · exact ⟨ready.active, ready.unclosed, ready.set⟩
    refine ⟨rfl, timed.window, timed.grace, nofun, ?_, timed.recorded⟩
    intro finishing
    have last : conversation.finishing = true := finishing
    rw [open_] at last
    cases last

theorem ready_sound (sound : session.Sound isCommand) (active : session.active = true)
    (permitted started : Bool) : (session.ready permitted started).Sound isCommand := by
  unfold VoiceSession.ready
  split
  · exact finish_sound _ _
  · dsimp only
    split
    · refine Ready.talk_sound ?_ ?_
      · exact ⟨active, sound.unclosed active, rfl⟩
      · exact ⟨rfl, rfl, rfl, nofun, nofun, {}, rfl, ToolLog.empty_lawful isCommand⟩
    · exact finish_sound _ _

theorem speak_sound (ready : session.Ready) {conversation : VoiceConversation}
    (sound : conversation.Sound isCommand) (enqueued : Bool) :
    (session.speak conversation enqueued).Sound isCommand := by
  have next : (session.talk (VoiceConversation.cancelThinking (VoiceConversation.cancelSilence
      { conversation with
        speaking := true
        awaitingReply := conversation.finishing && conversation.awaitingReply }))).Sound
      isCommand :=
    ready.talk_sound ⟨rfl, sound.window, sound.grace, nofun, fun _ => Or.inl rfl, sound.recorded⟩
  unfold speak
  dsimp only
  split
  · split
    · exact next
    · exact phased_sound next _
  · exact finish_sound _ _

theorem respond_recorded {actions : VoiceActions}
    (recorded : ∃ log : ToolLog, log.actions = actions ∧ log.Lawful isCommand) (tool : Tool)
    (finishing : Bool) (now : String) :
    ∃ log : ToolLog, log.actions = (actions.respond isCommand tool finishing now).2 ∧
      log.Lawful isCommand := by
  obtain ⟨log, rfl, lawful⟩ := recorded
  refine ⟨log.step isCommand (.call tool finishing now), ?_, ToolLog.step_lawful lawful _⟩
  unfold ToolLog.step ToolLog.record
  dsimp only
  split
  · rename_i same
    rw [same]
  · rename_i same
    rw [same]

theorem outcome_recorded {actions : VoiceActions}
    (recorded : ∃ log : ToolLog, log.actions = actions ∧ log.Lawful isCommand) {id : String}
    (running : actions.running id = true) (result : String) :
    ∃ log : ToolLog, log.actions = (actions.complete id result).2 ∧ log.Lawful isCommand := by
  obtain ⟨log, rfl, lawful⟩ := recorded
  refine ⟨log.step isCommand (.outcome id result), ?_, ToolLog.step_lawful lawful _⟩
  unfold ToolLog.step
  dsimp only
  rw [if_pos running]

theorem tool_sound (ready : session.Ready) {conversation : VoiceConversation}
    (sound : conversation.Sound isCommand) (called : Tool) (now : String) (accepted : Nat) :
    (session.tool isCommand conversation called now accepted).Sound isCommand := by
  unfold VoiceSession.tool
  dsimp only
  have recorded := respond_recorded sound.recorded called conversation.finishing now
  have same : ((VoiceConversation.cancelThinking (VoiceConversation.cancelSilence
      { conversation with awaitingReply := true })).actions.respond isCommand called
      (VoiceConversation.cancelThinking (VoiceConversation.cancelSilence
      { conversation with awaitingReply := true })).finishing now) =
      conversation.actions.respond isCommand called conversation.finishing now := rfl
  rw [same]
  generalize conversation.actions.respond isCommand called conversation.finishing now = outcome
    at recorded
  obtain ⟨response, actions⟩ := outcome
  cases response with
  | invalid => exact finish_sound _ _
  | refused => exact finish_sound _ _
  | replied results =>
      apply send_sound
      refine Ready.talk_sound ?_ ?_
      · exact (ready.talk _).thinking _
      refine ⟨?_, sound.window, sound.grace, nofun, fun _ => Or.inr rfl, recorded⟩
      simp [VoiceConversation.waitingForUser, VoiceConversation.cancelThinking,
        VoiceConversation.cancelSilence]

theorem receive_sound (sound : session.Sound isCommand) {conversation : VoiceConversation}
    (talks : session.conversation = some conversation) (accepted : Nat) (event : VoiceEvent) :
    (session.receive isCommand conversation accepted event).Sound isCommand := by
  have ready := sound.ready talks
  have own := (sound.talking conversation talks).1
  have timed := own.timed
  cases event with
  | audio enqueued => exact speak_sound ready own enqueued
  | tool called now => exact tool_sound ready own called now accepted
  | interrupted =>
      exact listening_sound ready ⟨timed.silenced, timed.window, timed.grace, timed.recorded⟩
  | turnComplete =>
      unfold receive
      dsimp only
      split
      · rename_i speaking
        have plays : conversation.speaking = true := speaking
        refine ready.talk_sound ⟨?_, own.window, own.grace, ?_, fun _ => Or.inl plays,
          own.recorded⟩
        · have before := own.silence
          simp only [VoiceConversation.waitingForUser, VoiceConversation.acceptingInput, plays]
            at before ⊢
          exact before
        · intro hint
          have accepting := (own.thinking hint).1
          simp [VoiceConversation.acceptingInput, plays] at accepting
      · exact listening_sound ready ⟨timed.silenced, timed.window, timed.grace, timed.recorded⟩
  | ready => exact sound
  | text => exact sound
  | error => exact sound
  | unknown => exact sound

theorem route_sound (sound : session.Sound isCommand) (active : session.active = true)
    (permitted started : Bool) (accepted : Nat) (event : VoiceEvent) :
    (session.route isCommand permitted started accepted event).Sound isCommand := by
  unfold route
  split
  · exact finish_sound _ _
  · split
    · split
      · exact ready_sound sound active permitted started
      · split
        · exact sound
        · exact finish_sound _ _
    · rename_i conversation talks
      exact receive_sound sound talks accepted event

theorem microphone_sound (sound : session.Sound isCommand) {conversation : VoiceConversation}
    (talks : session.conversation = some conversation) (permitted speech : Bool)
    (accepted : Nat) :
    (session.microphone conversation permitted speech accepted).Sound isCommand := by
  have ready := sound.ready talks
  have own := (sound.talking conversation talks).1
  unfold microphone
  split
  · exact finish_sound _ _
  · split
    · rename_i accepting
      dsimp only
      apply send_sound
      split
      · refine Ready.talk_sound ?_ ?_
        · exact ⟨ready.active, ready.unclosed, ready.set⟩
        refine ⟨?_, own.window, own.grace, fun _ => ⟨accepting, rfl⟩, fun _ => Or.inr rfl,
          own.recorded⟩
        simp [VoiceConversation.waitingForUser, VoiceConversation.cancelSilence]
      · exact sound
    · exact sound

theorem beginFinishing_sound (sound : session.Sound isCommand) {conversation : VoiceConversation}
    (talks : session.conversation = some conversation) :
    (session.beginFinishing conversation).Sound isCommand := by
  have ready := sound.ready talks
  have own := (sound.talking conversation talks).1
  unfold beginFinishing
  dsimp only
  split
  · rename_i awaiting
    refine Ready.talk_sound ?_ ?_
    · exact ⟨ready.active, ready.unclosed, ready.set⟩
    refine ⟨?_, rfl, rfl, nofun, fun _ => Or.inr awaiting, own.recorded⟩
    simp [VoiceConversation.waitingForUser, VoiceConversation.acceptingInput,
      VoiceConversation.cancelThinking, VoiceConversation.cancelSilence]
  · exact finish_sound _ _

theorem hold_sound (sound : session.Sound isCommand) {conversation : VoiceConversation}
    (talks : session.conversation = some conversation) (pressed : Bool) :
    (session.hold conversation pressed).Sound isCommand := by
  have ready := sound.ready talks
  have own := (sound.talking conversation talks).1
  unfold hold
  split
  · refine Ready.talk_sound ready ⟨?_, own.window, own.grace, own.thinking, own.pending,
      own.recorded⟩
    simp [VoiceConversation.waitingForUser, VoiceConversation.cancelSilence]
  · split
    · exact Ready.talk_sound ready ⟨rfl, own.window, own.grace, own.thinking, own.pending,
        own.recorded⟩
    · exact sound

theorem held_sound (sound : session.Sound isCommand) (held : Bool) :
    ({ session with heldStart := held } : VoiceSession).Sound isCommand :=
  ⟨sound.talking, sound.unclosed, sound.connecting, sound.waiting⟩

theorem holdStart_sound (sound : session.Sound isCommand) (permitted starts : Bool) :
    (session.holdStart permitted starts).Sound isCommand := by
  unfold holdStart
  split
  · exact sound
  · split
    · rename_i conversation talks
      exact hold_sound sound talks true
    · split
      · exact sound
      · exact held_sound (begin_sound sound permitted starts) _

theorem holdEnd_sound (sound : session.Sound isCommand) : session.holdEnd.Sound isCommand := by
  unfold holdEnd
  split
  · exact sound
  · split
    · rename_i conversation talks
      exact held_sound (hold_sound sound talks false) _
    · split
      · exact finish_sound _ _
      · exact held_sound sound _

theorem interrupt_sound (sound : session.Sound isCommand) (accepted : Nat) :
    (session.interrupt accepted).Sound isCommand := by
  unfold interrupt
  split
  · exact sound
  · rename_i conversation talks
    split
    · exact sound
    · have told := send_sound sound [.interrupt] accepted
      dsimp only
      split
      · exact told
      · rename_i again still
        have timed := (told.talking again still).1.timed
        exact listening_sound (told.ready still)
          ⟨timed.silenced, timed.window, timed.grace, timed.recorded⟩

theorem run_sound (sound : session.Sound isCommand) (token : Nat) (permitted started : Bool)
    (accepted : Nat) (callback : Callback) :
    (session.run isCommand token permitted started accepted callback).Sound isCommand := by
  unfold run
  split
  · exact sound
  · rename_i current
    have active : session.active = true := by
      unfold isCurrent at current
      rw [Bool.not_eq_true', Bool.not_eq_false, Bool.and_eq_true] at current
      exact current.2
    split
    · exact route_sound sound active permitted started accepted _
    · exact finish_sound _ _
    · exact finish_sound _ _
    · rename_i speech conversation talks
      exact microphone_sound sound talks permitted speech accepted
    · rename_i conversation talks
      split
      · exact listening_sound (sound.ready talks) (sound.talking conversation talks).1.timed
      · exact sound
    · rename_i id result conversation talks
      split
      · rename_i running
        have own := (sound.talking conversation talks).1
        have recorded := outcome_recorded own.recorded running result
        dsimp only
        apply send_sound
        exact Ready.talk_sound (sound.ready talks) ⟨own.silence, own.window, own.grace,
          own.thinking, own.pending, recorded⟩
      · exact sound
    · exact sound

theorem fire_sound (sound : session.Sound isCommand) (timer : Timer) :
    (session.fire timer).Sound isCommand := by
  unfold fire
  split
  · split
    · exact finish_sound _ _
    · exact sound
  · rename_i conversation talks
    split
    · exact beginFinishing_sound sound talks
    · exact sound
  · split
    · exact finish_sound _ _
    · exact sound
  · split
    · exact finish_sound _ _
    · exact sound
  · rename_i conversation talks
    split
    · have own := (sound.talking conversation talks).1
      have fired : (session.talk conversation.cancelThinking).Sound isCommand :=
        Ready.talk_sound (sound.ready talks) ⟨own.silence, own.window, own.grace, nofun,
          own.pending, own.recorded⟩
      dsimp only
      split
      · exact thinking_sound fired conversation
      · exact fired
    · exact sound
  · exact sound

theorem step_sound (sound : session.Sound isCommand) (event : SessionEvent) :
    (session.step isCommand event).Sound isCommand := by
  cases event with
  | start permitted starts => exact begin_sound sound permitted starts
  | holdStart permitted starts => exact holdStart_sound sound permitted starts
  | holdEnd => exact holdEnd_sound sound
  | interrupt accepted => exact interrupt_sound sound accepted
  | stop =>
      unfold step stop
      dsimp only
      split
      · exact sound
      · exact finish_sound _ _
  | close =>
      unfold step close
      dsimp only
      split
      · exact sound
      · exact ⟨nofun, nofun, nofun, nofun⟩
  | callback token permitted started accepted callback =>
      exact run_sound sound token permitted started accepted callback
  | timer timer => exact fire_sound sound timer

theorem exec_sound (isCommand : Tool → Bool) (events : List SessionEvent) :
    (exec (step isCommand) {} events).Sound isCommand :=
  exec_invariant (Sound isCommand) (fun _ event sound => step_sound sound event)
    (initial_sound isCommand) events

end VoiceSession

end Ovrly.Voice
