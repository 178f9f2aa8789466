import Mathlib

/-!
Requests served in turn, each with the first of its choices that no earlier one took.
-/

namespace Allotment

variable {σ ε : Type} [DecidableEq σ]

def pick (used : List σ) (first : σ) (rest : List σ) : σ :=
  ((first :: rest).find? (· ∉ used)).getD first

theorem pick_mem (used : List σ) (first : σ) (rest : List σ) :
    pick used first rest ∈ first :: rest := by
  unfold pick
  cases found : (first :: rest).find? (· ∉ used) with
  | none => simp
  | some item => exact List.mem_of_find?_eq_some found

theorem pick_unused {used : List σ} {first choice : σ} {rest : List σ}
    (member : choice ∈ first :: rest) (free : choice ∉ used) : pick used first rest ∉ used := by
  unfold pick
  cases found : (first :: rest).find? (· ∉ used) with
  | none =>
      have taken := List.find?_eq_none.mp found choice member
      exact absurd free (by simpa using taken)
  | some item => simpa using List.find?_some found

/-- Each entry of the log took its first unused choice. -/
def Served (choices : ε → List σ) (taken : ε → σ) : List σ → List ε → Prop
  | _, [] => True
  | used, entry :: rest =>
      (∃ first others, choices entry = first :: others ∧ taken entry = pick used first others) ∧
        Served choices taken (taken entry :: used) rest

variable {choices : ε → List σ} {taken : ε → σ}

theorem Served.mem {used : List σ} {log : List ε} (served : Served choices taken used log) :
    ∀ entry ∈ log, taken entry ∈ choices entry := by
  induction log generalizing used with
  | nil => simp
  | cons head rest ih =>
      obtain ⟨⟨first, others, isChoices, isTaken⟩, later⟩ := served
      intro entry member
      rcases List.mem_cons.mp member with rfl | inRest
      · rw [isChoices, isTaken]
        exact pick_mem used first others
      · exact ih later entry inRest

theorem Served.first {used : List σ} {log before after : List ε} {entry : ε} {first : σ}
    {others : List σ} (served : Served choices taken used log)
    (split : log = before ++ entry :: after) (isChoices : choices entry = first :: others)
    (unused : first ∉ used) (earlier : ∀ other ∈ before, taken other ≠ first) :
    taken entry = first := by
  subst split
  induction before generalizing used with
  | nil =>
      obtain ⟨⟨head, rest, same, isTaken⟩, -⟩ := served
      obtain ⟨rfl, rfl⟩ := List.cons.inj (isChoices.symm.trans same)
      rw [isTaken]
      unfold pick
      rw [List.find?_cons_of_pos (by simpa using unused), Option.getD_some]
  | cons head before ih =>
      refine ih ?_ (fun other member => earlier other (List.mem_cons_of_mem _ member)) served.2
      intro inUsed
      rcases List.mem_cons.mp inUsed with same | before'
      · exact earlier head (by simp) same.symm
      · exact unused before'

/-- Entries with the same choices take different ones, as long as enough choices are taken by no
other entry. -/
theorem Served.distinct {used : List σ} {log : List ε} (served : Served choices taken used log)
    (group : ε → Bool) {free : List σ} (nodup : free.Nodup)
    (offered : ∀ entry ∈ log, group entry = true → ∀ choice ∈ free, choice ∈ choices entry)
    (unused : ∀ choice ∈ free, choice ∉ used)
    (others : ∀ entry ∈ log, group entry = false → taken entry ∉ free)
    (room : (log.filter group).length ≤ free.length) :
    ((log.filter group).map taken).Nodup ∧
      ∀ entry ∈ log, group entry = true → taken entry ∉ used := by
  induction log generalizing used free with
  | nil => simp
  | cons entry rest ih =>
      obtain ⟨⟨first, alternatives, isChoices, isTaken⟩, later⟩ := served
      cases mine : group entry with
      | false =>
          have skipped : taken entry ∉ free := others entry (by simp) mine
          rw [List.filter_cons_of_neg (by simp [mine])] at room ⊢
          have fresh : ∀ choice ∈ free, choice ∉ taken entry :: used := by
            intro choice member inUsed
            rcases List.mem_cons.mp inUsed with rfl | earlier
            · exact skipped member
            · exact unused choice member earlier
          obtain ⟨distinct, outside⟩ := ih later nodup
            (fun item member => offered item (List.mem_cons_of_mem _ member)) fresh
            (fun item member => others item (List.mem_cons_of_mem _ member)) room
          refine ⟨distinct, ?_⟩
          intro item member isMine
          rcases List.mem_cons.mp member with rfl | inRest
          · rw [mine] at isMine
            cases isMine
          · exact fun inUsed => outside item inRest isMine (List.mem_cons_of_mem _ inUsed)
      | true =>
          rw [List.filter_cons_of_pos mine, List.length_cons] at room
          have own : taken entry ∉ used := by
            cases free with
            | nil => simp at room
            | cons choice free =>
                have member := offered entry (by simp) mine choice (by simp)
                rw [isChoices] at member
                rw [isTaken]
                exact pick_unused member (unused choice (by simp))
          -- One free choice fewer is left to the rest.
          have left : (rest.filter group).length ≤ (free.erase (taken entry)).length := by
            have shorter : free.length ≤ (free.erase (taken entry)).length + 1 := by
              rw [List.length_erase]
              split <;> omega
            omega
          have fresh : ∀ choice ∈ free.erase (taken entry), choice ∉ taken entry :: used := by
            intro choice member inUsed
            have there := nodup.mem_erase_iff.mp member
            rcases List.mem_cons.mp inUsed with same | earlier
            · exact there.1 same
            · exact unused choice there.2 earlier
          obtain ⟨distinct, outside⟩ := ih later (nodup.erase _)
            (fun item member isMine choice inFree =>
              offered item (List.mem_cons_of_mem _ member) isMine choice
                (List.mem_of_mem_erase inFree)) fresh
            (fun item member notMine inFree =>
              others item (List.mem_cons_of_mem _ member) notMine (List.mem_of_mem_erase inFree))
            left
          constructor
          · rw [List.filter_cons_of_pos mine, List.map_cons, List.nodup_cons]
            refine ⟨?_, distinct⟩
            intro again
            obtain ⟨item, member, same⟩ := List.mem_map.mp again
            obtain ⟨inRest, isMine⟩ := List.mem_filter.mp member
            exact outside item inRest isMine (by simp [same])
          · intro item member isMine
            rcases List.mem_cons.mp member with rfl | inRest
            · exact own
            · exact fun inUsed => outside item inRest isMine (List.mem_cons_of_mem _ inUsed)

end Allotment
