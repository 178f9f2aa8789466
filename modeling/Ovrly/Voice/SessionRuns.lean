import Ovrly.Voice.SessionLaw

/-!
What the timers and the connections of a voice session come to over every order of its events.
-/

namespace Ovrly.Voice

open Runs

namespace VoiceSession

variable {isCommand : Tool → Bool} {session : VoiceSession}

section Later

@[simp] theorem thinking_conversation (session : VoiceSession)
    (conversation : VoiceConversation) :
    (session.thinking conversation).conversation = session.conversation := by
  unfold thinking
  split <;> rfl

/-- Where a session does not end, its finishing conversation stays one; the generation only
grows. -/
structure Follows (session next : VoiceSession) : Prop where
  grows : session.generation ≤ next.generation
  lives : next.generation = session.generation → session.active = true → next.active = true
  finishing : next.generation = session.generation → ∀ conversation,
    session.conversation = some conversation → conversation.finishing = true →
    ∃ later, next.conversation = some later ∧ later.finishing = true

theorem Follows.refl (session : VoiceSession) : Follows session session :=
  ⟨le_rfl, fun _ => id, fun _ conversation talks last => ⟨conversation, talks, last⟩⟩

theorem Follows.middle {first second third : VoiceSession} (before : Follows first second)
    (after : Follows second third) (same : third.generation = first.generation) :
    second.generation = first.generation := by
  have one := before.grows
  have two := after.grows
  omega

theorem Follows.trans {first second third : VoiceSession} (before : Follows first second)
    (after : Follows second third) : Follows first third where
  grows := before.grows.trans after.grows
  lives same active := by
    have middle := before.middle after same
    exact after.lives (same.trans middle.symm) (before.lives middle active)
  finishing same conversation talks last := by
    have middle := before.middle after same
    obtain ⟨later, still, ends⟩ := before.finishing middle conversation talks last
    exact after.finishing (same.trans middle.symm) later still ends

theorem follows_more {next : VoiceSession} (more : session.generation < next.generation) :
    Follows session next :=
  ⟨more.le, fun same => absurd same more.ne', fun same => absurd same more.ne'⟩

theorem follows_finish (session : VoiceSession) (error : Bool) :
    Follows session (session.finish error) :=
  follows_more (Nat.lt_succ_self _)

theorem follows_same {next : VoiceSession} (generation : next.generation = session.generation)
    (active : next.active = session.active) (goes : next.conversation = session.conversation) :
    Follows session next :=
  ⟨generation.ge, fun _ => active.trans,
    fun _ conversation talks last => ⟨conversation, goes.trans talks, last⟩⟩

theorem follows_talk {next : VoiceSession} {conversation later : VoiceConversation}
    (talks : session.conversation = some conversation)
    (generation : next.generation = session.generation)
    (active : next.active = session.active) (goes : next.conversation = some later)
    (kept : conversation.finishing = true → later.finishing = true) : Follows session next := by
  refine ⟨generation.ge, fun _ => active.trans, ?_⟩
  intro _ other same last
  rw [talks] at same
  obtain rfl := Option.some.inj same
  exact ⟨later, goes, kept last⟩

theorem follows_send (session : VoiceSession) (messages : List Message) (accepted : Nat) :
    Follows session (session.send messages accepted) := by
  unfold send
  dsimp only
  split
  · exact follows_same rfl rfl rfl
  · exact follows_more (Nat.lt_succ_self _)

theorem follows_thinking (session : VoiceSession) (conversation : VoiceConversation) :
    Follows session (session.thinking conversation) := by
  unfold thinking
  split
  · exact .refl session
  · exact follows_same rfl rfl rfl

theorem follows_begin (session : VoiceSession) (permitted starts : Bool) :
    Follows session (session.begin permitted starts) := by
  unfold begin
  split
  · exact .refl session
  · split
    · exact follows_same rfl rfl rfl
    · dsimp only
      split
      · exact follows_more (Nat.lt_succ_self _)
      · exact follows_more (Nat.lt_succ_of_lt (Nat.lt_succ_self _))

theorem follows_listening {conversation later : VoiceConversation}
    (talks : session.conversation = some conversation)
    (kept : conversation.finishing = true → later.finishing = true) :
    Follows session (session.listening later) := by
  unfold listening
  dsimp only
  split
  · split
    · exact follows_talk talks rfl rfl rfl kept
    · exact follows_finish _ _
  · exact follows_talk talks rfl rfl rfl kept

theorem follows_ready (silent : session.conversation = none) (permitted started : Bool) :
    Follows session (session.ready permitted started) := by
  have nothing : ∀ next : VoiceSession, next.generation = session.generation →
      next.active = session.active → Follows session next := by
    intro next same active
    refine ⟨same.ge, fun _ => active.trans, ?_⟩
    intro _ conversation talks
    rw [silent] at talks
    cases talks
  unfold VoiceSession.ready
  split
  · exact follows_finish _ _
  · dsimp only
    split
    · exact nothing _ rfl rfl
    · exact follows_more (Nat.lt_succ_self _)

theorem follows_speak {conversation : VoiceConversation}
    (talks : session.conversation = some conversation) (enqueued : Bool) :
    Follows session (session.speak conversation enqueued) := by
  unfold speak
  dsimp only
  split
  · split
    · exact follows_talk talks rfl rfl rfl id
    · exact follows_talk talks rfl rfl rfl id
  · split
    · exact follows_more (Nat.lt_succ_self _)
    · exact follows_more (Nat.lt_succ_self _)

theorem follows_tool {conversation : VoiceConversation}
    (talks : session.conversation = some conversation) (called : Tool) (now : String)
    (accepted : Nat) :
    Follows session (session.tool isCommand conversation called now accepted) := by
  unfold VoiceSession.tool
  dsimp only
  generalize waits : VoiceConversation.cancelThinking (VoiceConversation.cancelSilence
    { conversation with awaitingReply := true }) = awaiting
  have kept : awaiting.finishing = conversation.finishing := by
    rw [← waits]
    rfl
  have hinted : Follows session ((session.talk awaiting).thinking awaiting) := by
    refine Follows.trans ?_ (follows_thinking _ _)
    exact follows_talk talks rfl rfl rfl fun last => kept.trans last
  split
  · exact hinted.trans (follows_finish _ _)
  · exact hinted.trans (follows_finish _ _)
  · refine hinted.trans (Follows.trans ?_ (follows_send _ _ _))
    exact follows_talk (thinking_conversation _ _) rfl rfl rfl id

theorem follows_receive {conversation : VoiceConversation}
    (talks : session.conversation = some conversation) (accepted : Nat) (event : VoiceEvent) :
    Follows session (session.receive isCommand conversation accepted event) := by
  cases event with
  | audio enqueued => exact follows_speak talks enqueued
  | tool called now => exact follows_tool talks called now accepted
  | interrupted => exact follows_listening talks id
  | turnComplete =>
      unfold receive
      dsimp only
      split
      · exact follows_talk talks rfl rfl rfl id
      · exact follows_listening talks id
  | ready => exact .refl session
  | text => exact .refl session
  | error => exact .refl session
  | unknown => exact .refl session

theorem follows_route (session : VoiceSession) (permitted started : Bool) (accepted : Nat)
    (event : VoiceEvent) :
    Follows session (session.route isCommand permitted started accepted event) := by
  unfold route
  split
  · exact follows_finish _ _
  · split
    · rename_i silent
      split
      · exact follows_ready silent permitted started
      · split
        · exact .refl session
        · exact follows_finish _ _
    · rename_i conversation talks
      exact follows_receive talks accepted event

theorem follows_microphone {conversation : VoiceConversation}
    (talks : session.conversation = some conversation) (permitted speech : Bool)
    (accepted : Nat) :
    Follows session (session.microphone conversation permitted speech accepted) := by
  unfold microphone
  split
  · exact follows_finish _ _
  · split
    · dsimp only
      refine Follows.trans ?_ (follows_send _ _ _)
      split
      · exact follows_talk talks rfl rfl rfl id
      · exact .refl session
    · exact .refl session

theorem follows_beginFinishing {conversation : VoiceConversation}
    (talks : session.conversation = some conversation) :
    Follows session (session.beginFinishing conversation) := by
  unfold beginFinishing
  dsimp only
  split
  · exact follows_talk talks rfl rfl rfl fun _ => rfl
  · exact follows_finish _ _

theorem follows_hold {conversation : VoiceConversation}
    (talks : session.conversation = some conversation) (pressed : Bool) :
    Follows session (session.hold conversation pressed) := by
  unfold hold
  split
  · exact follows_talk talks rfl rfl rfl id
  · split
    · exact follows_talk talks rfl rfl rfl id
    · exact .refl session

theorem follows_holdStart (session : VoiceSession) (permitted starts : Bool) :
    Follows session (session.holdStart permitted starts) := by
  unfold holdStart
  split
  · exact .refl session
  · split
    · rename_i conversation talks
      exact follows_hold talks true
    · split
      · exact .refl session
      · exact (follows_begin session permitted starts).trans (follows_same rfl rfl rfl)

theorem follows_holdEnd (session : VoiceSession) : Follows session session.holdEnd := by
  unfold holdEnd
  split
  · exact .refl session
  · split
    · rename_i conversation talks
      exact (follows_hold talks false).trans (follows_same rfl rfl rfl)
    · split
      · exact follows_finish _ _
      · exact follows_same rfl rfl rfl

theorem follows_interrupt (session : VoiceSession) (accepted : Nat) :
    Follows session (session.interrupt accepted) := by
  unfold interrupt
  split
  · exact .refl session
  · split
    · exact .refl session
    · have told := follows_send session [.interrupt] accepted
      dsimp only
      split
      · exact told
      · rename_i again still
        exact told.trans (follows_listening still id)

theorem follows_run (session : VoiceSession) (token : Nat) (permitted started : Bool)
    (accepted : Nat) (callback : Callback) :
    Follows session (session.run isCommand token permitted started accepted callback) := by
  unfold run
  split
  · exact .refl session
  · split
    · exact follows_route session permitted started accepted _
    · exact follows_finish _ _
    · exact follows_finish _ _
    · rename_i speech conversation talks
      exact follows_microphone talks permitted speech accepted
    · rename_i conversation talks
      split
      · exact follows_listening talks id
      · exact .refl session
    · rename_i id result conversation talks
      split
      · dsimp only
        refine Follows.trans ?_ (follows_send _ _ _)
        exact follows_talk talks rfl rfl rfl fun last => last
      · exact .refl session
    · exact .refl session

theorem follows_fire (session : VoiceSession) (timer : Timer) :
    Follows session (session.fire timer) := by
  unfold fire
  split
  · split
    · exact follows_finish _ _
    · exact .refl session
  · rename_i conversation talks
    split
    · exact follows_beginFinishing talks
    · exact .refl session
  · split
    · exact follows_finish _ _
    · exact .refl session
  · split
    · exact follows_finish _ _
    · exact .refl session
  · rename_i conversation talks
    split
    · have fired : Follows session (session.talk conversation.cancelThinking) :=
        follows_talk talks rfl rfl rfl id
      dsimp only
      split
      · exact fired.trans (follows_thinking _ _)
      · exact fired
    · exact .refl session
  · exact .refl session

theorem step_follows (session : VoiceSession) (event : SessionEvent) :
    Follows session (session.step isCommand event) := by
  cases event with
  | start permitted starts => exact follows_begin session permitted starts
  | holdStart permitted starts => exact follows_holdStart session permitted starts
  | holdEnd => exact follows_holdEnd session
  | interrupt accepted => exact follows_interrupt session accepted
  | stop =>
      unfold step stop
      dsimp only
      split
      · exact .refl session
      · exact follows_finish _ _
  | close =>
      unfold step close
      dsimp only
      split
      · exact .refl session
      · exact follows_more (Nat.lt_succ_self _)
  | callback token permitted started accepted callback =>
      exact follows_run session token permitted started accepted callback
  | timer timer => exact follows_fire session timer

end Later

section Inputs

def inputs (session : VoiceSession) : Nat := session.sent.count .input

theorem send_inputs (session : VoiceSession) (messages : List Message) (accepted : Nat) :
    (session.send messages accepted).inputs =
      session.inputs + (messages.take accepted).count .input := by
  unfold send inputs
  dsimp only
  split
  · exact List.count_append
  · exact List.count_append

theorem send_silent (session : VoiceSession) {messages : List Message}
    (silent : .input ∉ messages) (accepted : Nat) :
    (session.send messages accepted).inputs = session.inputs := by
  rw [send_inputs, List.count_eq_zero_of_not_mem fun sent => silent (List.mem_of_mem_take sent)]
  rfl

theorem send_input_inputs (session : VoiceSession) (accepted : Nat) :
    (session.send [.input] accepted).inputs = session.inputs ∨
      (session.send [.input] accepted).inputs = session.inputs + 1 := by
  rw [send_inputs]
  cases accepted with
  | zero => exact Or.inl rfl
  | succ more =>
      refine Or.inr ?_
      rw [List.take_succ_cons, List.take_nil]
      rfl

theorem results_silent (results : List String) : Message.input ∉ results.map .toolResult := by
  simp

theorem thinking_inputs (session : VoiceSession) (conversation : VoiceConversation) :
    (session.thinking conversation).inputs = session.inputs := by
  unfold thinking
  split <;> rfl

theorem begin_inputs (session : VoiceSession) (permitted starts : Bool) :
    (session.begin permitted starts).inputs = session.inputs := by
  unfold begin
  split
  · rfl
  · split
    · rfl
    · dsimp only
      split <;> rfl

theorem listening_inputs (session : VoiceSession) (conversation : VoiceConversation) :
    (session.listening conversation).inputs = session.inputs := by
  unfold listening
  dsimp only
  split
  · split <;> rfl
  · rfl

theorem ready_inputs (session : VoiceSession) (permitted started : Bool) :
    (session.ready permitted started).inputs = session.inputs := by
  unfold VoiceSession.ready
  split
  · rfl
  · dsimp only
    split <;> rfl

theorem speak_inputs (session : VoiceSession) (conversation : VoiceConversation)
    (enqueued : Bool) : (session.speak conversation enqueued).inputs = session.inputs := by
  unfold speak
  dsimp only
  split
  · split <;> rfl
  · split <;> rfl

theorem tool_inputs (session : VoiceSession) (conversation : VoiceConversation) (called : Tool)
    (now : String) (accepted : Nat) :
    (session.tool isCommand conversation called now accepted).inputs = session.inputs := by
  unfold VoiceSession.tool
  dsimp only
  split
  · exact thinking_inputs _ _
  · exact thinking_inputs _ _
  · rw [send_silent _ (results_silent _)]
    exact thinking_inputs _ _

theorem receive_inputs (session : VoiceSession) (conversation : VoiceConversation)
    (accepted : Nat) (event : VoiceEvent) :
    (session.receive isCommand conversation accepted event).inputs = session.inputs := by
  cases event with
  | audio enqueued => exact speak_inputs _ _ _
  | tool called now => exact tool_inputs _ _ _ _ _
  | interrupted => exact listening_inputs _ _
  | turnComplete =>
      unfold receive
      dsimp only
      split
      · rfl
      · exact listening_inputs _ _
  | ready => rfl
  | text => rfl
  | error => rfl
  | unknown => rfl

theorem route_inputs (session : VoiceSession) (permitted started : Bool) (accepted : Nat)
    (event : VoiceEvent) :
    (session.route isCommand permitted started accepted event).inputs = session.inputs := by
  unfold route
  split
  · rfl
  · split
    · split
      · exact ready_inputs _ _ _
      · split <;> rfl
    · exact receive_inputs _ _ _ _

theorem microphone_inputs (session : VoiceSession) (conversation : VoiceConversation)
    (permitted speech : Bool) (accepted : Nat) :
    (session.microphone conversation permitted speech accepted).inputs = session.inputs ∨
      permitted = true ∧ conversation.acceptingInput = true ∧
        (session.microphone conversation permitted speech accepted).inputs =
          session.inputs + 1 := by
  unfold microphone
  split
  · exact Or.inl rfl
  · rename_i allowed
    have granted : permitted = true := by
      simpa using allowed
    split
    · rename_i accepting
      dsimp only
      rcases send_input_inputs _ accepted with same | more
      · refine Or.inl (same.trans ?_)
        split <;> rfl
      · refine Or.inr ⟨granted, accepting, more.trans ?_⟩
        split <;> rfl
    · exact Or.inl rfl

theorem beginFinishing_inputs (session : VoiceSession) (conversation : VoiceConversation) :
    (session.beginFinishing conversation).inputs = session.inputs := by
  unfold beginFinishing
  dsimp only
  split <;> rfl

theorem hold_inputs (session : VoiceSession) (conversation : VoiceConversation)
    (pressed : Bool) : (session.hold conversation pressed).inputs = session.inputs := by
  unfold hold
  split
  · rfl
  · split <;> rfl

theorem holdStart_inputs (session : VoiceSession) (permitted starts : Bool) :
    (session.holdStart permitted starts).inputs = session.inputs := by
  unfold holdStart
  split
  · rfl
  · split
    · exact hold_inputs _ _ _
    · split
      · rfl
      · exact begin_inputs _ _ _

theorem holdEnd_inputs (session : VoiceSession) :
    session.holdEnd.inputs = session.inputs := by
  unfold holdEnd
  split
  · rfl
  · split
    · exact hold_inputs _ _ _
    · split <;> rfl

theorem interrupt_inputs (session : VoiceSession) (accepted : Nat) :
    (session.interrupt accepted).inputs = session.inputs := by
  unfold interrupt
  split
  · rfl
  · split
    · rfl
    · have told : (session.send [.interrupt] accepted).inputs = session.inputs :=
        send_silent _ (by simp) _
      dsimp only
      split
      · exact told
      · exact (listening_inputs _ _).trans told

theorem fire_inputs (session : VoiceSession) (timer : Timer) :
    (session.fire timer).inputs = session.inputs := by
  unfold fire
  split
  · split <;> rfl
  · split
    · exact beginFinishing_inputs _ _
    · rfl
  · split <;> rfl
  · split <;> rfl
  · split
    · dsimp only
      split
      · exact thinking_inputs _ _
      · rfl
    · rfl
  · rfl

theorem run_inputs (session : VoiceSession) (token : Nat) (permitted started : Bool)
    (accepted : Nat) (callback : Callback) :
    (session.run isCommand token permitted started accepted callback).inputs = session.inputs ∨
      ∃ speech conversation, callback = .microphone speech ∧ permitted = true ∧
        session.isCurrent token = true ∧ session.conversation = some conversation ∧
        conversation.acceptingInput = true ∧
        (session.run isCommand token permitted started accepted callback).inputs =
          session.inputs + 1 := by
  unfold run
  split
  · exact Or.inl rfl
  · rename_i current
    have live : session.isCurrent token = true := by
      simpa using current
    split
    · exact Or.inl (route_inputs _ _ _ _ _)
    · exact Or.inl rfl
    · exact Or.inl rfl
    · rename_i speech conversation talks
      rcases microphone_inputs session conversation permitted speech accepted with
        same | ⟨granted, accepting, more⟩
      · exact Or.inl same
      · exact Or.inr ⟨speech, conversation, rfl, granted, live, talks, accepting, more⟩
    · split
      · exact Or.inl (listening_inputs _ _)
      · exact Or.inl rfl
    · split
      · exact Or.inl (send_silent _ (results_silent _) _)
      · exact Or.inl rfl
    · exact Or.inl rfl

theorem step_inputs (session : VoiceSession) (event : SessionEvent) :
    (session.step isCommand event).inputs = session.inputs ∨
      ∃ token started accepted speech conversation,
        event = .callback token true started accepted (.microphone speech) ∧
        session.isCurrent token = true ∧ session.conversation = some conversation ∧
        conversation.acceptingInput = true ∧
        (session.step isCommand event).inputs = session.inputs + 1 := by
  cases event with
  | start permitted starts => exact Or.inl (begin_inputs _ _ _)
  | holdStart permitted starts => exact Or.inl (holdStart_inputs _ _ _)
  | holdEnd => exact Or.inl (holdEnd_inputs _)
  | interrupt accepted => exact Or.inl (interrupt_inputs _ _)
  | stop =>
      refine Or.inl ?_
      unfold step stop
      dsimp only
      split <;> rfl
  | close =>
      refine Or.inl ?_
      unfold step close
      dsimp only
      split <;> rfl
  | callback token permitted started accepted callback =>
      rcases run_inputs session token permitted started accepted callback with
        same | ⟨speech, conversation, rfl, rfl, live, talks, accepting, more⟩
      · exact Or.inl same
      · exact Or.inr
          ⟨token, started, accepted, speech, conversation, rfl, live, talks, accepting, more⟩
  | timer timer => exact Or.inl (fire_inputs _ _)

end Inputs

section Runs

def after (isCommand : Tool → Bool) (events : List SessionEvent) : VoiceSession :=
  exec (step isCommand) {} events

theorem after_sound (isCommand : Tool → Bool) (events : List SessionEvent) :
    (after isCommand events).Sound isCommand :=
  exec_sound isCommand events

theorem after_append (isCommand : Tool → Bool) (events later : List SessionEvent) :
    after isCommand (events ++ later) = exec (step isCommand) (after isCommand events) later :=
  exec_append _ _ _

/-- A finishing conversation sends no more microphone audio. -/
def Quiet (session next : VoiceSession) : Prop :=
  next.generation = session.generation → ∀ conversation,
    session.conversation = some conversation → conversation.finishing = true →
    next.inputs = session.inputs

theorem step_quiet (session : VoiceSession) (event : SessionEvent) :
    Quiet session (session.step isCommand event) := by
  intro _ conversation talks last
  rcases @step_inputs isCommand session event with
    same | ⟨token, started, accepted, speech, other, _, _, same, accepting, _⟩
  · exact same
  · rw [talks] at same
    obtain rfl := Option.some.inj same
    simp [VoiceConversation.acceptingInput, last] at accepting

theorem Quiet.trans {first second third : VoiceSession} (follows : Follows first second)
    (ends : Follows second third) (before : Quiet first second) (after : Quiet second third) :
    Quiet first third := by
  intro same conversation talks last
  have middle := follows.middle ends same
  obtain ⟨later, still, last_⟩ := follows.finishing middle conversation talks last
  exact (after (same.trans middle.symm) later still last_).trans
    (before middle conversation talks last)

theorem exec_quiet (isCommand : Tool → Bool) (session : VoiceSession)
    (events : List SessionEvent) :
    Follows session (exec (step isCommand) session events) ∧
      Quiet session (exec (step isCommand) session events) :=
  @exec_relation _ _ (step isCommand) (fun _ => True)
    (fun session next => Follows session next ∧ Quiet session next)
    (fun session => ⟨.refl session, fun _ _ _ _ => rfl⟩)
    (fun before after =>
      ⟨before.1.trans after.1, Quiet.trans before.1 after.1 before.2 after.2⟩)
    (fun _ _ _ => trivial)
    (fun session event _ => ⟨step_follows session event, step_quiet session event⟩)
    session trivial events

theorem isCurrent_true {token : Nat} (live : session.isCurrent token = true) :
    session.generation = token ∧ session.active = true := by
  unfold isCurrent at live
  rw [Bool.and_eq_true, Bool.and_eq_true] at live
  exact ⟨beq_iff_eq.mp live.1.2, live.2⟩

theorem after_follows (isCommand : Tool → Bool) (events later : List SessionEvent) :
    Follows (after isCommand events) (after isCommand (events ++ later)) := by
  rw [after_append]
  exact (exec_quiet isCommand _ later).1

theorem Sound.silent (sound : session.Sound isCommand) (ended : session.active = false) :
    session.conversation = none := by
  cases talks : session.conversation with
  | none => rfl
  | some conversation =>
      have active := (sound.talking conversation talks).2.1
      rw [ended] at active
      cases active

theorem Sound.undue (sound : session.Sound isCommand) (ended : session.active = false) :
    session.deadline = false := by
  cases due : session.deadline with
  | false => rfl
  | true =>
      have active := sound.waiting due
      rw [ended] at active
      cases active

theorem Sound.fire_ended (sound : session.Sound isCommand) (ended : session.active = false)
    (timer : Timer) : session.fire timer = session := by
  unfold fire
  rw [sound.silent ended, sound.undue ended]
  cases timer <;> rfl

theorem run_stale (isCommand : Tool → Bool) {token : Nat}
    (stale : session.isCurrent token = false) (permitted started : Bool) (accepted : Nat)
    (callback : Callback) :
    session.run isCommand token permitted started accepted callback = session := by
  unfold run
  rw [stale]
  rfl

/-- A closed session does nothing any more. -/
theorem Sound.step_closed (sound : session.Sound isCommand) (closed : session.closed = true)
    (event : SessionEvent) : session.step isCommand event = session := by
  have ended : session.active = false := by
    cases active : session.active with
    | false => rfl
    | true =>
        have open_ := sound.unclosed active
        rw [closed] at open_
        cases open_
  cases event with
  | start permitted starts => simp [step, begin, closed]
  | holdStart permitted starts => simp [step, holdStart, closed]
  | holdEnd => simp [step, holdEnd, closed]
  | interrupt accepted => simp [step, interrupt, sound.silent ended]
  | stop => simp [step, stop, closed]
  | close => simp [step, VoiceSession.close, closed]
  | callback token permitted started accepted callback =>
      exact run_stale isCommand (by simp [isCurrent, closed]) permitted started accepted callback
  | timer timer => exact sound.fire_ended ended timer

theorem fire_deadline (sound : session.Sound isCommand) (active : session.active = true) :
    (session.fire .deadline).active = false ∨
      ∃ conversation, (session.fire .deadline).conversation = some conversation := by
  unfold fire
  dsimp only
  split
  · exact Or.inl rfl
  · rename_i undue
    cases talks : session.conversation with
    | none => exact absurd (sound.connecting active talks) undue
    | some conversation => exact Or.inr ⟨conversation, rfl⟩

theorem fire_window (sound : session.Sound isCommand) {conversation : VoiceConversation}
    (talks : session.conversation = some conversation) :
    (session.fire .window).active = false ∨
      ∃ last, (session.fire .window).conversation = some last ∧ last.finishing = true := by
  have own := (sound.talking conversation talks).1
  unfold fire
  rw [talks]
  dsimp only
  split
  · unfold beginFinishing
    dsimp only
    split
    · exact Or.inr ⟨_, rfl, rfl⟩
    · exact Or.inl rfl
  · rename_i passed
    have window := own.window
    cases last : conversation.finishing with
    | true => exact Or.inr ⟨conversation, talks, last⟩
    | false =>
        rw [last] at window
        exact absurd window passed

theorem fire_grace (sound : session.Sound isCommand) {conversation : VoiceConversation}
    (talks : session.conversation = some conversation) (last : conversation.finishing = true) :
    (session.fire .grace).active = false := by
  have grace := (sound.talking conversation talks).1.grace
  rw [last] at grace
  unfold fire
  rw [talks]
  dsimp only
  rw [if_pos grace]
  rfl

/-- The setup deadline, the input window and the finishing grace end whatever goes on. -/
theorem timers_end (sound : session.Sound isCommand) :
    (exec (step isCommand) session [.timer .deadline, .timer .window, .timer .grace]).active =
      false := by
  have ends : ∀ (next : VoiceSession) (timer : Timer), next.Sound isCommand →
      next.active = false → (next.fire timer).active = false := by
    intro next timer sound ended
    rw [sound.fire_ended ended]
    exact ended
  have second : (session.fire .deadline).Sound isCommand := fire_sound sound _
  have third : ((session.fire .deadline).fire .window).Sound isCommand := fire_sound second _
  show (((session.fire .deadline).fire .window).fire .grace).active = false
  cases active : session.active with
  | false => exact ends _ _ third (ends _ _ second (ends _ _ sound active))
  | true =>
      rcases fire_deadline sound active with ended | ⟨conversation, talks⟩
      · exact ends _ _ third (ends _ _ second ended)
      · rcases fire_window second talks with ended | ⟨later, still, last⟩
        · exact ends _ _ third ended
        · exact fire_grace third still last

end Runs

/-- The timers of every session that was reached by any order of its events: which of them are
pending follows from its turn, and firing them always ends it. -/
theorem voice_timers (isCommand : Tool → Bool) (events : List SessionEvent) :
    (∀ conversation, (after isCommand events).conversation = some conversation →
      conversation.timers.silence = conversation.waitingForUser ∧
      conversation.timers.window = !conversation.finishing ∧
      conversation.timers.grace = conversation.finishing ∧
      (conversation.timers.thinking = true →
        conversation.acceptingInput = true ∧ conversation.awaitingReply = true) ∧
      (conversation.finishing = true →
        conversation.speaking = true ∨ conversation.awaitingReply = true)) ∧
    ((after isCommand events).active = true → (after isCommand events).conversation = none →
      (after isCommand events).deadline = true) ∧
    ((after isCommand events).active = false → ∀ timer,
      (after isCommand events).fire timer = after isCommand events) ∧
    (after isCommand (events ++
      [.timer .deadline, .timer .window, .timer .grace])).active = false := by
  have sound := after_sound isCommand events
  refine ⟨?_, sound.connecting, sound.fire_ended, ?_⟩
  · intro conversation talks
    have own := (sound.talking conversation talks).1
    exact ⟨own.silence, own.window, own.grace, own.thinking, own.pending⟩
  · rw [after_append]
    exact timers_end sound

def exampleStart : List SessionEvent :=
  [.start true true, .callback 1 true true 1 (.message .ready)]

def exampleConversation : VoiceConversation :=
  { holding := false, timers := { window := true, silence := true } }

theorem voice_timers_ready :
    exampleConversation.timers.silence = exampleConversation.waitingForUser :=
  ((voice_timers (fun _ => true) exampleStart).1 exampleConversation rfl).1

/-- What one connection of every reachable session sends and runs, and what is left of it once it
ends. -/
theorem voice_connection (isCommand : Tool → Bool) (events later : List SessionEvent) :
    (∀ event, (after isCommand (events ++ [event])).inputs = (after isCommand events).inputs ∨
      ∃ started accepted speech conversation,
        event = .callback (after isCommand events).generation true started accepted
          (.microphone speech) ∧
        (after isCommand events).active = true ∧
        (after isCommand events).conversation = some conversation ∧
        conversation.acceptingInput = true ∧
        (after isCommand (events ++ [event])).inputs = (after isCommand events).inputs + 1) ∧
    (∀ conversation, (after isCommand events).conversation = some conversation →
      (conversation.actions.executed.map (·.id)).Nodup ∧
      conversation.actions.executed.length ≤ VoiceActions.maxActions) ∧
    (∀ conversation, (after isCommand events).conversation = some conversation →
      conversation.finishing = true →
      (after isCommand (events ++ later)).generation = (after isCommand events).generation →
      (after isCommand (events ++ later)).inputs = (after isCommand events).inputs ∧
      ∃ last, (after isCommand (events ++ later)).conversation = some last ∧
        last.finishing = true) ∧
    (∀ middle, (after isCommand events).active = true →
      (after isCommand (events ++ middle)).active = false →
      ∀ permitted started accepted callback,
        (after isCommand (events ++ middle ++ later)).run isCommand
            (after isCommand events).generation permitted started accepted callback =
          after isCommand (events ++ middle ++ later)) ∧
    ((after isCommand events).closed = true →
      after isCommand (events ++ later) = after isCommand events) := by
  refine ⟨?_, ?_, ?_, ?_, ?_⟩
  · intro event
    rw [after_append, exec_cons, exec_nil]
    rcases @step_inputs isCommand (after isCommand events) event with
      same | ⟨token, started, accepted, speech, conversation, rfl, live, talks, accepting, more⟩
    · exact Or.inl same
    · obtain ⟨rfl, active⟩ := isCurrent_true live
      exact Or.inr ⟨started, accepted, speech, conversation, rfl, active, talks, accepting, more⟩
  · intro conversation talks
    obtain ⟨log, same, lawful⟩ :=
      ((after_sound isCommand events).talking conversation talks).1.recorded
    rw [← same]
    exact ⟨lawful.once, lawful.executed_length⟩
  · intro conversation talks last same
    have after_ := exec_quiet isCommand (after isCommand events) later
    rw [← after_append] at after_
    exact ⟨after_.2 same conversation talks last, after_.1.finishing same conversation talks last⟩
  · intro middle active ended permitted started accepted callback
    apply run_stale
    have first := after_follows isCommand events middle
    have second := after_follows isCommand (events ++ middle) later
    cases current : (after isCommand (events ++ middle ++ later)).isCurrent
      (after isCommand events).generation with
    | false => rfl
    | true =>
        have lives := first.lives (first.middle second (isCurrent_true current).1) active
        rw [ended] at lives
        cases lives
  · intro closed
    have sound := after_sound isCommand events
    rw [after_append]
    induction later with
    | nil => rfl
    | cons event rest ih =>
        rw [exec_cons, sound.step_closed closed event]
        exact ih

theorem voice_connection_stale :
    (after (fun _ => true) [.start true true, .stop, .start true true]).run (fun _ => true)
        1 true true 1 .failed =
      after (fun _ => true) [.start true true, .stop, .start true true] :=
  (voice_connection (fun _ => true) [.start true true] [.start true true]).2.2.2.1 [.stop] rfl rfl
    true true 1 .failed

end VoiceSession

end Ovrly.Voice
