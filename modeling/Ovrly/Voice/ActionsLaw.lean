import Mathlib.Data.List.Perm.Subperm
import Ovrly.Voice.Actions

/-!
What the tool calls of a voice session keep over every order of calls and outcomes.
-/

namespace Ovrly.Voice

open Relational Runs

namespace ToolLog

variable {isCommand : Tool → Bool} {log : ToolLog}

theorem mem_update_call {calls : Table Call} {id : String} {change : Call → Call}
    (keeps : ∀ call, Keyed.key (change call) = Keyed.key call) {call : Call} :
    call ∈ (calls.update (·.tool.id == id) change keeps).rows ↔
      ∃ old ∈ calls.rows, call = if old.tool.id = id then change old else old := by
  unfold Table.update
  rw [List.mem_map]
  constructor
  · rintro ⟨old, member, same⟩
    refine ⟨old, member, ?_⟩
    rw [← same]
    by_cases mine : old.tool.id = id
    · simp [mine]
    · simp [mine]
  · rintro ⟨old, member, same⟩
    refine ⟨old, member, ?_⟩
    rw [same]
    by_cases mine : old.tool.id = id
    · simp [mine]
    · simp [mine]

theorem mem_waits {actions : VoiceActions} {id : String} {call : Call} :
    call ∈ (actions.waits id).calls.rows ↔
      ∃ old ∈ actions.calls.rows,
        call = if old.tool.id = id then { old with waiting := old.waiting + 1 } else old := by
  exact @mem_update_call actions.calls id (fun call => { call with waiting := call.waiting + 1 })
    (fun _ => rfl) call

theorem countP_replies (replies : List (String × String)) (id other : String)
    (results : List String) :
    (replies ++ results.map (id, ·)).countP (·.1 == other) =
      replies.countP (·.1 == other) + if id = other then results.length else 0 := by
  rw [List.countP_append, List.countP_map]
  split
  · rename_i same
    subst same
    congr 1
    rw [List.countP_eq_length]
    intro result _
    simp
  · rename_i different
    congr 1
    rw [List.countP_eq_zero]
    intro result _
    simpa using different

theorem count_accepted (accepted : List String) (id other : String) :
    (accepted ++ [id]).count other = accepted.count other + if id = other then 1 else 0 := by
  rw [List.count_append, List.count_singleton]
  by_cases same : id = other
  · rw [if_pos same, if_pos (beq_iff_eq.mpr same)]
  · rw [if_neg same, if_neg (fun equal => same (beq_iff_eq.mp equal))]

theorem empty_lawful (isCommand : Tool → Bool) : ({} : ToolLog).Lawful isCommand where
  bounded := Nat.zero_le _
  recorded _ member := (nomatch member)
  once := List.nodup_nil
  running _ member := (nomatch member)
  settled _ member := (nomatch member)
  answered _ member := (nomatch member)
  same _ member := (nomatch member)
  known _ member := (nomatch member)

theorem Lawful.replayed (lawful : log.Lawful isCommand) {call : Call} {result : String}
    (found : log.actions.calls.find? call.tool.id = some call)
    (known : call.result = some result) :
    Lawful isCommand ⟨log.actions, log.accepted ++ [call.tool.id],
      log.replies ++ [result].map (call.tool.id, ·)⟩ where
  bounded := lawful.bounded
  recorded := lawful.recorded
  once := lawful.once
  running := lawful.running
  settled := lawful.settled
  answered other member := by
    have before := lawful.answered other member
    rw [countP_replies, count_accepted, List.length_singleton]
    omega
  same reply member := by
    rcases List.mem_append.mp member with before | this
    · exact lawful.same reply before
    · rw [List.map_singleton, List.mem_singleton] at this
      rw [this]
      exact ⟨call, Table.mem_of_find? found, rfl, known⟩
  known id member := by
    rcases List.mem_append.mp member with before | this
    · exact lawful.known id before
    · exact ⟨call, Table.mem_of_find? found, (List.mem_singleton.mp this).symm⟩

theorem Lawful.waited (lawful : log.Lawful isCommand) {call : Call}
    (found : log.actions.calls.find? call.tool.id = some call) (open_ : call.result = none) :
    Lawful isCommand ⟨log.actions.waits call.tool.id, log.accepted ++ [call.tool.id],
      log.replies⟩ := by
  have rows {row : Call} (member : row ∈ (log.actions.waits call.tool.id).calls.rows) :
      row = { call with waiting := call.waiting + 1 } ∨
        row ∈ log.actions.calls.rows ∧ row.tool.id ≠ call.tool.id := by
    obtain ⟨old, before, same⟩ := mem_waits.mp member
    by_cases mine : old.tool.id = call.tool.id
    · rw [if_pos mine] at same
      have equal : old = call :=
        Table.eq_of_key before (Table.mem_of_find? found) mine
      exact Or.inl (equal ▸ same)
    · rw [if_neg mine] at same
      exact Or.inr (same ▸ ⟨before, mine⟩)
  have kept {row : Call} (member : row ∈ log.actions.calls.rows) :
      ∃ later ∈ (log.actions.waits call.tool.id).calls.rows,
        later.tool = row.tool ∧ later.result = row.result := by
    by_cases mine : row.tool.id = call.tool.id
    · exact ⟨{ row with waiting := row.waiting + 1 },
        mem_waits.mpr ⟨row, member, by rw [if_pos mine]⟩, rfl, rfl⟩
    · exact ⟨row, mem_waits.mpr ⟨row, member, by rw [if_neg mine]⟩, rfl, rfl⟩
  refine ⟨?_, ?_, lawful.once, ?_, ?_, ?_, ?_, ?_⟩
  · have length : (log.actions.waits call.tool.id).calls.rows.length =
        log.actions.calls.rows.length := List.length_map _
    rw [length]
    exact lawful.bounded
  · intro tool member
    obtain ⟨command, row, before, same⟩ := lawful.recorded tool member
    obtain ⟨later, after, equal, -⟩ := kept before
    exact ⟨command, later, after, equal.trans same⟩
  · intro row member unknown
    rcases rows member with rfl | ⟨before, -⟩
    · exact lawful.running call (Table.mem_of_find? found) open_
    · exact lawful.running row before unknown
  · intro row member done
    rcases rows member with rfl | ⟨before, -⟩
    · have wrong : call.result.isSome = true := done
      rw [open_] at wrong
      cases wrong
    · exact lawful.settled row before done
  · intro row member
    rw [count_accepted]
    rcases rows member with rfl | ⟨before, other⟩
    · have sum := lawful.answered call (Table.mem_of_find? found)
      simp only [↓reduceIte]
      omega
    · have sum := lawful.answered row before
      rw [if_neg (Ne.symm other)]
      exact sum
  · intro reply member
    obtain ⟨row, before, same, result⟩ := lawful.same reply member
    obtain ⟨later, after, equal, still⟩ := kept before
    exact ⟨later, after, (congrArg Tool.id equal).trans same, still.trans result⟩
  · intro id member
    rcases List.mem_append.mp member with before | this
    · obtain ⟨row, known, same⟩ := lawful.known id before
      obtain ⟨later, after, equal, -⟩ := kept known
      exact ⟨later, after, (congrArg Tool.id equal).trans same⟩
    · obtain ⟨later, after, equal, -⟩ := kept (Table.mem_of_find? found)
      exact ⟨later, after, (congrArg Tool.id equal).trans (List.mem_singleton.mp this).symm⟩

theorem complete_found {actions : VoiceActions} {call : Call} {result : String}
    (found : actions.calls.find? call.tool.id = some call) :
    (actions.complete call.tool.id result).1 = List.replicate call.waiting result ∧
      (actions.complete call.tool.id result).2.executed = actions.executed ∧
      (actions.complete call.tool.id result).2.calls.rows.length = actions.calls.rows.length ∧
      ∀ row, row ∈ (actions.complete call.tool.id result).2.calls.rows ↔
        row = { call with result := some result, waiting := 0 } ∨
          row ∈ actions.calls.rows ∧ row.tool.id ≠ call.tool.id := by
  unfold VoiceActions.complete
  rw [found]
  refine ⟨rfl, rfl, List.length_map _, ?_⟩
  intro row
  rw [mem_update_call]
  constructor
  · rintro ⟨old, member, same⟩
    by_cases mine : old.tool.id = call.tool.id
    · have equal : old = call := Table.eq_of_key member (Table.mem_of_find? found) mine
      rw [if_pos mine, equal] at same
      exact Or.inl same
    · rw [if_neg mine] at same
      exact Or.inr (same ▸ ⟨member, mine⟩)
  · rintro (same | ⟨member, other⟩)
    · exact ⟨call, Table.mem_of_find? found, by rw [if_pos rfl]; exact same⟩
    · exact ⟨row, member, by rw [if_neg other]⟩

theorem Lawful.completed (lawful : log.Lawful isCommand) {call : Call} {result : String}
    (found : log.actions.calls.find? call.tool.id = some call) (open_ : call.result = none) :
    Lawful isCommand ⟨(log.actions.complete call.tool.id result).2, log.accepted,
      log.replies ++ (log.actions.complete call.tool.id result).1.map (call.tool.id, ·)⟩ := by
  obtain ⟨results, executed, length, rows⟩ := @complete_found _ _ result found
  have mine := Table.mem_of_find? found
  have kept {row : Call} (member : row ∈ log.actions.calls.rows) :
      ∃ later ∈ (log.actions.complete call.tool.id result).2.calls.rows,
        later.tool = row.tool ∧ ∀ known, row.result = some known → later.result = some known := by
    by_cases same : row.tool.id = call.tool.id
    · have equal : row = call := Table.eq_of_key member mine same
      refine ⟨_, (rows _).mpr (Or.inl rfl), (congrArg Call.tool equal).symm, ?_⟩
      intro known before
      rw [equal, open_] at before
      cases before
    · exact ⟨row, (rows _).mpr (Or.inr ⟨member, same⟩), rfl, fun _ before => before⟩
  refine ⟨length.trans_le lawful.bounded, ?_, ?_, ?_, ?_, ?_, ?_, ?_⟩
  · intro tool member
    rw [executed] at member
    obtain ⟨command, row, before, same⟩ := lawful.recorded tool member
    obtain ⟨later, after, equal, -⟩ := kept before
    exact ⟨command, later, after, equal.trans same⟩
  · rw [executed]
    exact lawful.once
  · intro row member unknown
    rw [executed]
    rcases (rows row).mp member with rfl | ⟨before, -⟩
    · cases unknown
    · exact lawful.running row before unknown
  · intro row member done
    rcases (rows row).mp member with rfl | ⟨before, -⟩
    · rfl
    · exact lawful.settled row before done
  · intro row member
    rw [countP_replies, results, List.length_replicate]
    rcases (rows row).mp member with rfl | ⟨before, other⟩
    · have sum := lawful.answered call mine
      rw [if_pos rfl]
      exact sum
    · have sum := lawful.answered row before
      rw [if_neg (Ne.symm other)]
      exact sum
  · intro reply member
    rcases List.mem_append.mp member with before | this
    · obtain ⟨row, present, same, known⟩ := lawful.same reply before
      obtain ⟨later, after, equal, still⟩ := kept present
      exact ⟨later, after, (congrArg Tool.id equal).trans same, still _ known⟩
    · obtain ⟨text, given, rfl⟩ := List.mem_map.mp this
      rw [results] at given
      rw [List.eq_of_mem_replicate given]
      exact ⟨_, (rows _).mpr (Or.inl rfl), rfl, rfl⟩
  · intro id member
    obtain ⟨row, known, same⟩ := lawful.known id member
    obtain ⟨later, after, equal, -⟩ := kept known
    exact ⟨later, after, (congrArg Tool.id equal).trans same⟩

inductive Entered (isCommand : Tool → Bool) (actions : VoiceActions) (tool : Tool) :
    Call → List String → List Tool → Prop
  | running : isCommand tool = true →
      Entered isCommand actions tool ⟨tool, none, 1⟩ [] (actions.executed ++ [tool])
  | answered (now : String) :
      Entered isCommand actions tool ⟨tool, some now, 0⟩ [now] actions.executed

theorem Lawful.entered (lawful : log.Lawful isCommand) {tool : Tool} {calls : Table Call}
    {executed : List Tool} {entry : Call} {results : List String}
    (fresh : ∀ row ∈ log.actions.calls.rows, row.tool.id ≠ tool.id)
    (bounded : calls.rows.length ≤ VoiceActions.maxActions)
    (rows : ∀ row, row ∈ calls.rows ↔ row = entry ∨ row ∈ log.actions.calls.rows)
    (enters : Entered isCommand log.actions tool entry results executed) :
    Lawful isCommand ⟨⟨calls, executed⟩, log.accepted ++ [tool.id],
      log.replies ++ results.map (tool.id, ·)⟩ := by
  have named : entry.tool = tool := by
    cases enters <;> rfl
  have unheard : log.accepted.count tool.id = 0 := by
    rw [List.count_eq_zero]
    intro member
    obtain ⟨row, present, same⟩ := lawful.known _ member
    exact fresh row present same
  have unreplied : log.replies.countP (·.1 == tool.id) = 0 := by
    rw [List.countP_eq_zero]
    intro reply member same
    obtain ⟨row, present, equal, -⟩ := lawful.same reply member
    exact fresh row present (equal.trans (beq_iff_eq.mp same))
  have others : ∀ other ∈ log.actions.executed, other.id ≠ tool.id := by
    intro other member same
    obtain ⟨-, row, present, equal⟩ := lawful.recorded other member
    exact fresh row present ((congrArg Tool.id equal).trans same)
  have before : ∀ other ∈ log.actions.executed, isCommand other = true ∧
      ∃ call ∈ calls.rows, call.tool = other := by
    intro other member
    obtain ⟨command, row, present, same⟩ := lawful.recorded other member
    exact ⟨command, row, (rows row).mpr (Or.inr present), same⟩
  refine ⟨bounded, ?_, ?_, ?_, ?_, ?_, ?_, ?_⟩
  · intro other member
    cases enters with
    | answered now => exact before other member
    | running command =>
        rcases List.mem_append.mp member with earlier | this
        · exact before other earlier
        · rw [List.mem_singleton.mp this]
          exact ⟨command, _, (rows _).mpr (Or.inl rfl), rfl⟩
  · cases enters with
    | answered now => exact lawful.once
    | running command =>
        dsimp only
        rw [List.map_append, List.nodup_append]
        refine ⟨lawful.once, List.nodup_singleton _, ?_⟩
        intro first member second last
        obtain ⟨other, earlier, rfl⟩ := List.mem_map.mp member
        rw [List.mem_singleton.mp last]
        exact others other earlier
  · intro row member unknown
    rcases (rows row).mp member with rfl | earlier
    · cases enters with
      | answered now => cases unknown
      | running command => exact List.mem_append_right _ List.mem_cons_self
    · have waits := lawful.running row earlier unknown
      cases enters with
      | answered now => exact waits
      | running command => exact List.mem_append_left _ waits
  · intro row member done
    rcases (rows row).mp member with rfl | earlier
    · cases enters with
      | running command => cases done
      | answered now => rfl
    · exact lawful.settled row earlier done
  · intro row member
    rw [countP_replies, count_accepted]
    rcases (rows row).mp member with rfl | earlier
    · rw [named, if_pos rfl, if_pos rfl, unheard, unreplied]
      cases enters <;> rfl
    · rw [if_neg (Ne.symm (fresh row earlier)), if_neg (Ne.symm (fresh row earlier))]
      exact lawful.answered row earlier
  · intro reply member
    rcases List.mem_append.mp member with earlier | this
    · obtain ⟨row, present, same, known⟩ := lawful.same reply earlier
      exact ⟨row, (rows row).mpr (Or.inr present), same, known⟩
    · obtain ⟨text, given, rfl⟩ := List.mem_map.mp this
      refine ⟨entry, (rows entry).mpr (Or.inl rfl), congrArg Tool.id named, ?_⟩
      cases enters with
      | running command => cases given
      | answered now => rw [List.mem_singleton.mp given]
  · intro id member
    rcases List.mem_append.mp member with earlier | this
    · obtain ⟨row, known, same⟩ := lawful.known id earlier
      exact ⟨row, (rows row).mpr (Or.inr known), same⟩
    · exact ⟨entry, (rows entry).mpr (Or.inl rfl),
        (congrArg Tool.id named).trans (List.mem_singleton.mp this).symm⟩

theorem Lawful.executed (lawful : log.Lawful isCommand) {tool : Tool} {finishing : Bool}
    {now : String} (absent : log.actions.calls.find? tool.id = none)
    (room : log.actions.calls.rows.length < VoiceActions.maxActions) :
    Lawful isCommand
      (log.record tool (log.actions.execute isCommand tool finishing now)) := by
  have fresh := Table.find?_eq_none.mp absent
  unfold VoiceActions.execute
  cases inserted : log.actions.calls.insert? ⟨tool, none, 1⟩ with
  | none => exact lawful
  | some calls =>
      have added := Table.rows_insert? inserted
      have length : calls.rows.length ≤ VoiceActions.maxActions := by
        rw [added, List.length_append, List.length_singleton]
        omega
      have joined (row : Call) : row ∈ calls.rows ↔
          row = ⟨tool, none, 1⟩ ∨ row ∈ log.actions.calls.rows := by
        rw [added, List.mem_append, List.mem_singleton, or_comm]
      dsimp only
      by_cases command : (!finishing && isCommand tool) = true
      · rw [if_pos command]
        have entered := lawful.entered fresh length joined
          (.running (Bool.and_eq_true_iff.mp command).2)
        exact entered
      · rw [if_neg command]
        have here : calls.find? tool.id = some ⟨tool, none, 1⟩ :=
          (Table.find?_insert? inserted _).trans (if_pos rfl)
        have found : ({ log.actions with calls := calls } : VoiceActions).calls.find?
            (⟨tool, none, 1⟩ : Call).tool.id = some ⟨tool, none, 1⟩ := here
        have done := @complete_found { log.actions with calls := calls } ⟨tool, none, 1⟩ now found
        generalize ({ log.actions with calls := calls } : VoiceActions).complete tool.id now =
          completed at done
        obtain ⟨results, ⟨after, commands⟩⟩ := completed
        obtain ⟨replied, executed, same, rows⟩ := done
        dsimp only at replied executed same rows
        have all (row : Call) : row ∈ after.rows ↔
            row = ⟨tool, some now, 0⟩ ∨ row ∈ log.actions.calls.rows := by
          rw [rows row]
          constructor
          · rintro (this | ⟨earlier, other⟩)
            · exact Or.inl this
            · rcases (joined row).mp earlier with new | old
              · exact absurd (congrArg (·.tool.id) new) other
              · exact Or.inr old
          · rintro (this | old)
            · exact Or.inl this
            · exact Or.inr ⟨(joined row).mpr (Or.inr old), fresh row old⟩
        have entered := lawful.entered fresh (same.trans_le length) all (.answered now)
        rw [replied, executed]
        exact entered

theorem step_lawful (lawful : log.Lawful isCommand) (event : ToolEvent) :
    (log.step isCommand event).Lawful isCommand := by
  cases event with
  | outcome id result =>
      unfold step VoiceActions.running
      dsimp only
      cases found : log.actions.calls.find? id with
      | none => exact lawful
      | some call =>
          obtain rfl := Table.find?_key found
          dsimp only [Option.any_some]
          split
          · rename_i open_
            exact lawful.completed found (Option.isNone_iff_eq_none.mp open_)
          · exact lawful
  | call tool finishing now =>
      unfold step VoiceActions.respond
      dsimp only
      cases found : log.actions.calls.find? tool.id with
      | some previous =>
          dsimp only
          unfold VoiceActions.replay
          by_cases same : previous.tool = tool
          · rw [if_neg (not_not_intro same)]
            subst same
            cases known : previous.result with
            | some result => exact lawful.replayed found known
            | none =>
                unfold record
                simp only [List.map_nil, List.append_nil]
                exact lawful.waited found known
          · rw [if_pos same]
            exact lawful
      | none =>
          dsimp only
          by_cases full : VoiceActions.maxActions ≤ log.actions.calls.rows.length
          · rw [if_pos full]
            exact lawful
          · rw [if_neg full]
            exact lawful.executed found (Nat.lt_of_not_le full)

theorem exec_lawful (isCommand : Tool → Bool) (events : List ToolEvent) :
    (exec (step isCommand) {} events).Lawful isCommand :=
  exec_invariant (Lawful isCommand) (fun _ event lawful => step_lawful lawful event)
    (empty_lawful isCommand) events

theorem Lawful.executed_length (lawful : log.Lawful isCommand) :
    log.actions.executed.length ≤ VoiceActions.maxActions := by
  have among : log.actions.executed.map (·.id) ⊆ log.actions.calls.rows.map (·.tool.id) := by
    intro id member
    obtain ⟨tool, runs, rfl⟩ := List.mem_map.mp member
    obtain ⟨-, call, present, same⟩ := lawful.recorded tool runs
    exact List.mem_map.mpr ⟨call, present, congrArg Tool.id same⟩
  have fewer := (List.subperm_of_subset lawful.once among).length_le
  rw [List.length_map, List.length_map] at fewer
  exact fewer.trans lawful.bounded

/-- A call that is recorded with other content is turned away. -/
theorem step_conflict {tool : Tool} {call : Call}
    (found : log.actions.calls.find? tool.id = some call) (other : call.tool ≠ tool)
    (finishing : Bool) (now : String) : log.step isCommand (.call tool finishing now) = log := by
  unfold step VoiceActions.respond
  dsimp only
  rw [found]
  dsimp only
  unfold VoiceActions.replay
  rw [if_pos other]
  rfl

end ToolLog

/-- The tool calls of a session, in every order of calls and outcomes. A command runs at most once
for an id and for at most the session's limit of ids; all replies for one id are the same; once
the result of an id is known, every call of it that was accepted has been answered, and none was
before; a call that reuses an id with other content changes nothing. -/
theorem tool_calls_once (isCommand : Tool → Bool) (events : List ToolEvent) :
    let log := exec (ToolLog.step isCommand) {} events
    (log.actions.executed.map (·.id)).Nodup ∧
    log.actions.executed.length ≤ VoiceActions.maxActions ∧
    (∀ tool ∈ log.actions.executed, isCommand tool = true) ∧
    (∀ id first second, (id, first) ∈ log.replies → (id, second) ∈ log.replies →
      first = second) ∧
    (∀ call ∈ log.actions.calls.rows,
      log.replies.countP (·.1 == call.tool.id) =
        if call.result.isSome then log.accepted.count call.tool.id else 0) ∧
    (∀ tool call finishing now, log.actions.calls.find? tool.id = some call → call.tool ≠ tool →
      log.step isCommand (.call tool finishing now) = log) := by
  have lawful := ToolLog.exec_lawful isCommand events
  refine ⟨lawful.once, lawful.executed_length, fun tool runs => (lawful.recorded tool runs).1,
    ?_, ?_, fun tool call finishing now found other =>
      ToolLog.step_conflict found other finishing now⟩
  · intro id first second one two
    obtain ⟨call, present, same, known⟩ := lawful.same _ one
    obtain ⟨again, there, equal, result⟩ := lawful.same _ two
    obtain rfl : call = again := Table.eq_of_key present there (same.trans equal.symm)
    exact Option.some.inj (known.symm.trans result)
  · intro call present
    have sum := lawful.answered call present
    split
    · rename_i known
      have settled := lawful.settled call present known
      omega
    · rename_i unknown
      rw [List.countP_eq_zero]
      intro reply member same
      obtain ⟨other, there, equal, known⟩ := lawful.same reply member
      obtain rfl : other = call :=
        Table.eq_of_key there present (equal.trans (beq_iff_eq.mp same))
      rw [known] at unknown
      exact unknown rfl

def exampleTools : Tool × Tool := (⟨"a", "save_report", none⟩, ⟨"a", "open_check", none⟩)

theorem tool_calls_once_conflict :
    (exec (ToolLog.step fun _ => true) {} [.call exampleTools.1 false ""]).step (fun _ => true)
        (.call exampleTools.2 false "") =
      exec (ToolLog.step fun _ => true) {} [.call exampleTools.1 false ""] :=
  (tool_calls_once (fun _ => true) [.call exampleTools.1 false ""]).2.2.2.2.2 exampleTools.2
    ⟨exampleTools.1, none, 1⟩ false "" (by decide) (by decide)

end Ovrly.Voice
