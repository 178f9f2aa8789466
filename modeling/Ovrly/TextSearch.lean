import Mathlib

/-!
Searching a text for another: the first appearance, and all of them.
-/

namespace TextSearch

variable {α : Type} [DecidableEq α]

def Contains (pattern text : List α) : Prop :=
  ∃ before after, text = before ++ (pattern ++ after)

def find (pattern : List α) : List α → Option Nat
  | [] => if pattern = [] then some 0 else none
  | head :: tail =>
      if pattern.isPrefixOf (head :: tail) then some 0 else (find pattern tail).map (· + 1)

def contains (pattern text : List α) : Bool := (find pattern text).isSome

/-- The indices of all appearances, overlapping ones included. -/
def findAll (pattern : List α) : Nat → List α → List Nat
  | offset, [] => if pattern = [] then [offset] else []
  | offset, head :: tail =>
      if pattern.isPrefixOf (head :: tail) then offset :: findAll pattern (offset + 1) tail
      else findAll pattern (offset + 1) tail

theorem isPrefixOf_iff {pattern text : List α} :
    pattern.isPrefixOf text = true ↔ ∃ after, text = pattern ++ after := by
  rw [List.isPrefixOf_iff_prefix]
  constructor
  · rintro ⟨after, rfl⟩
    exact ⟨after, rfl⟩
  · rintro ⟨after, rfl⟩
    exact ⟨after, rfl⟩

/-- What the first appearance is: the one that the fewest elements come before. -/
theorem find_some {pattern text : List α} {index : Nat} (found : find pattern text = some index) :
    ∃ before after, text = before ++ (pattern ++ after) ∧ before.length = index ∧
      ∀ front back, text = front ++ (pattern ++ back) → index ≤ front.length := by
  induction text generalizing index with
  | nil =>
      unfold find at found
      split at found
      · next empty =>
          cases found
          exact ⟨[], [], by simp [empty], rfl, fun _ _ _ => Nat.zero_le _⟩
      · cases found
  | cons head tail ih =>
      unfold find at found
      split at found
      · next first =>
          cases found
          obtain ⟨after, split⟩ := isPrefixOf_iff.mp first
          exact ⟨[], after, split, rfl, fun _ _ _ => Nat.zero_le _⟩
      · next later =>
          obtain ⟨past, there, rfl⟩ := Option.map_eq_some_iff.mp found
          obtain ⟨before, after, rfl, rfl, least⟩ := ih there
          refine ⟨head :: before, after, rfl, rfl, ?_⟩
          intro front back split
          cases front with
          | nil => exact absurd (isPrefixOf_iff.mpr ⟨back, split⟩) later
          | cons first front =>
              have rest := least front back (List.cons.inj split).2
              simp only [List.length_cons]
              omega

theorem find_none_iff {pattern text : List α} :
    find pattern text = none ↔ ¬ Contains pattern text := by
  induction text with
  | nil =>
      unfold find Contains
      by_cases empty : pattern = []
      · simp [empty]
      · simp [empty]
  | cons head tail ih =>
      unfold find
      constructor
      · intro missing
        split at missing
        · cases missing
        · next later =>
            rintro ⟨before, after, split⟩
            cases before with
            | nil => exact later (isPrefixOf_iff.mpr ⟨after, split⟩)
            | cons first before =>
                refine ih.mp (Option.map_eq_none_iff.mp missing) ⟨before, after, ?_⟩
                exact (List.cons.inj split).2
      · intro absent
        rw [if_neg]
        · refine Option.map_eq_none_iff.mpr (ih.mpr ?_)
          rintro ⟨before, after, rfl⟩
          exact absent ⟨head :: before, after, rfl⟩
        · intro first
          obtain ⟨after, split⟩ := isPrefixOf_iff.mp first
          exact absent ⟨[], after, split⟩

theorem contains_iff {pattern text : List α} :
    contains pattern text = true ↔ Contains pattern text := by
  rw [contains, Option.isSome_iff_ne_none, ne_eq, find_none_iff, not_not]

omit [DecidableEq α] in
/-- A pattern whose first element is nowhere else in it does not overlap itself, so nothing
straddles the place where it is put. -/
theorem straddles {first : α} {rest before after front back : List α} (once : first ∉ rest)
    (absent : ¬ Contains (first :: rest) before)
    (same : before ++ (first :: rest ++ after) = front ++ (first :: rest ++ back)) :
    before.length ≤ front.length := by
  by_contra shorter
  simp only [Nat.not_le] at shorter
  rw [List.append_eq_append_iff] at same
  rcases same with ⟨gap, isFront, -⟩ | ⟨gap, isBefore, split⟩
  · rw [isFront, List.length_append] at shorter
    omega
  · subst isBefore
    -- The appearance at the front either ends before this one begins or reaches into it.
    rw [List.append_eq_append_iff] at split
    rcases split with ⟨cut, isGap, -⟩ | ⟨cut, isPattern, tail⟩
    · exact absent ⟨front, cut, by rw [isGap]⟩
    · cases gap with
      | nil => simp at shorter
      | cons head gap =>
          obtain ⟨rfl, isRest⟩ := List.cons.inj isPattern
          cases cut with
          | nil => exact absent ⟨front, [], by simp [isRest]⟩
          | cons other cut =>
              obtain rfl : first = other := (List.cons.inj tail).1
              exact once (by simp [isRest])

omit [DecidableEq α] in
theorem Contains.of_append {first : α} {rest word text : List α} (absent : first ∉ word)
    (found : Contains (first :: rest) (word ++ text)) : Contains (first :: rest) text := by
  obtain ⟨before, after, same⟩ := found
  rw [List.append_eq_append_iff] at same
  rcases same with ⟨gap, -, split⟩ | ⟨gap, isWord, split⟩
  · exact ⟨gap, after, split⟩
  · cases gap with
    | nil => exact ⟨[], after, split.symm⟩
    | cons head gap =>
        obtain rfl : first = head := (List.cons.inj split).1
        exact absurd (by simp [isWord]) absent

omit [DecidableEq α] in
/-- An appearance lies past an element that the pattern does not have, if it does not lie before
it. -/
theorem past {element : α} {pattern before after front back : List α} (other : element ∉ pattern)
    (absent : ¬ Contains pattern before)
    (same : before ++ element :: after = front ++ (pattern ++ back)) :
    before.length < front.length := by
  rw [List.append_eq_append_iff] at same
  rcases same with ⟨gap, isFront, split⟩ | ⟨gap, isBefore, split⟩
  · cases gap with
    | nil =>
        cases pattern with
        | nil => exact absurd ⟨[], before, rfl⟩ absent
        | cons head pattern =>
            obtain rfl : element = head := (List.cons.inj split).1
            exact absurd (by simp) other
    | cons head gap =>
        rw [isFront]
        simp
  · rw [List.append_eq_append_iff] at split
    rcases split with ⟨cut, isGap, -⟩ | ⟨cut, isPattern, tail⟩
    · exact absurd ⟨front, cut, by rw [isBefore, isGap]⟩ absent
    · cases cut with
      | nil => exact absurd ⟨front, [], by simp [isBefore, isPattern]⟩ absent
      | cons head cut =>
          obtain rfl : element = head := (List.cons.inj tail).1
          exact absurd (by simp [isPattern]) other

theorem find_first {first : α} {rest before after : List α} (once : first ∉ rest)
    (absent : ¬ Contains (first :: rest) before) :
    find (first :: rest) (before ++ (first :: rest ++ after)) = some before.length := by
  cases found : find (first :: rest) (before ++ (first :: rest ++ after)) with
  | none => exact absurd ⟨before, after, rfl⟩ (find_none_iff.mp found)
  | some index =>
      obtain ⟨front, back, split, rfl, least⟩ := find_some found
      have upper := least before after rfl
      have lower := straddles once absent split
      rw [Option.some.injEq]
      omega

theorem find_before {pattern before after : List α}
    (found : find pattern (before ++ (pattern ++ after)) = some before.length)
    (nonempty : pattern ≠ []) : ¬ Contains pattern before := by
  rintro ⟨front, back, rfl⟩
  obtain ⟨_, _, _, _, least⟩ := find_some found
  have bound := least front (back ++ (pattern ++ after)) (by simp)
  have positive := List.length_pos_iff.mpr nonempty
  simp only [List.length_append] at bound
  omega

theorem mem_findAll {pattern text : List α} {offset index : Nat} :
    index ∈ findAll pattern offset text ↔ ∃ before after, text = before ++ (pattern ++ after) ∧
      index = offset + before.length := by
  induction text generalizing offset with
  | nil =>
      unfold findAll
      by_cases empty : pattern = []
      · simp [empty]
      · simp [empty]
  | cons head tail ih =>
      have later : index ∈ findAll pattern (offset + 1) tail ↔ ∃ before after,
          head :: tail = head :: before ++ (pattern ++ after) ∧
            index = offset + (head :: before).length := by
        rw [ih]
        simp only [List.cons_append, List.cons.injEq, true_and, List.length_cons]
        constructor
        · rintro ⟨before, after, split, rfl⟩
          exact ⟨before, after, split, by omega⟩
        · rintro ⟨before, after, split, rfl⟩
          exact ⟨before, after, split, by omega⟩
      unfold findAll
      constructor
      · intro member
        split at member
        · next here =>
            rcases List.mem_cons.mp member with rfl | there
            · obtain ⟨after, split⟩ := isPrefixOf_iff.mp here
              exact ⟨[], after, split, rfl⟩
            · obtain ⟨before, after, split, isIndex⟩ := later.mp there
              exact ⟨head :: before, after, split, isIndex⟩
        · obtain ⟨before, after, split, isIndex⟩ := later.mp member
          exact ⟨head :: before, after, split, isIndex⟩
      · rintro ⟨before, after, split, rfl⟩
        cases before with
        | nil =>
            rw [if_pos (isPrefixOf_iff.mpr ⟨after, split⟩)]
            simp
        | cons first before =>
            obtain ⟨rfl, rest⟩ := List.cons.inj split
            have there := later.mpr ⟨before, after, by rw [rest]; rfl, rfl⟩
            split
            · exact List.mem_cons_of_mem _ there
            · exact there

theorem findAll_pairwise (pattern : List α) (offset : Nat) (text : List α) :
    (findAll pattern offset text).Pairwise (· < ·) := by
  induction text generalizing offset with
  | nil =>
      unfold findAll
      split <;> simp
  | cons head tail ih =>
      unfold findAll
      split
      · refine List.pairwise_cons.mpr ⟨?_, ih (offset + 1)⟩
        intro index member
        obtain ⟨before, _, _, rfl⟩ := mem_findAll.mp member
        omega
      · exact ih (offset + 1)

theorem findAll_of_none {pattern text : List α} (offset : Nat) (missing : find pattern text = none) :
    findAll pattern offset text = [] := by
  induction text generalizing offset with
  | nil =>
      unfold find at missing
      unfold findAll
      split at missing
      · cases missing
      · next nonempty => rw [if_neg nonempty]
  | cons head tail ih =>
      unfold find at missing
      unfold findAll
      split at missing
      · cases missing
      · next later =>
          rw [if_neg later]
          exact ih (offset + 1) (Option.map_eq_none_iff.mp missing)

theorem findAll_of_some {pattern text : List α} {index : Nat} (offset : Nat)
    (found : find pattern text = some index) :
    findAll pattern offset text = (offset + index) ::
      if index < text.length then findAll pattern (offset + index + 1) (text.drop (index + 1))
      else [] := by
  induction text generalizing offset index with
  | nil =>
      unfold find at found
      unfold findAll
      split at found
      · next empty =>
          cases found
          rw [if_pos empty, if_neg (by simp), Nat.add_zero]
      · cases found
  | cons head tail ih =>
      unfold find at found
      rw [findAll]
      split at found
      · next first =>
          cases found
          rw [if_pos first, if_pos (by simp)]
          rfl
      · next later =>
          obtain ⟨past, there, rfl⟩ := Option.map_eq_some_iff.mp found
          rw [if_neg later, ih (offset + 1) there, List.length_cons, List.drop_succ_cons,
            show offset + 1 + past = offset + (past + 1) by omega]
          by_cases inside : past < tail.length
          · rw [if_pos inside, if_pos (by omega)]
          · rw [if_neg inside, if_neg (by omega)]

end TextSearch
