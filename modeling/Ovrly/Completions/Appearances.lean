import Ovrly.Completions.Quotes
import Ovrly.Completions.Grammar

/-!
Where a quote appears in a text, and that the search finds every appearance.
-/

namespace Ovrly.Completions

open JsonGrammar (Text Value codes)
open TextSearch (Contains)

section Searching

def slice (text : Text) (start stop : Nat) : Text := (text.drop start).take (stop - start)

theorem slice_split {text found : Text} {start : Nat} :
    (start + found.length ≤ text.length ∧ slice text start (start + found.length) = found) ↔
      ∃ before after, text = before ++ (found ++ after) ∧ start = before.length := by
  unfold slice
  rw [Nat.add_sub_cancel_left]
  constructor
  · rintro ⟨inside, same⟩
    refine ⟨text.take start, text.drop (start + found.length), ?_, ?_⟩
    · conv_lhs => rw [← List.take_append_drop start text, ← List.take_append_drop found.length
        (text.drop start), same, List.drop_drop]
    · rw [List.length_take]
      omega
  · rintro ⟨before, after, rfl, rfl⟩
    constructor
    · simp only [List.length_append]
      omega
    · rw [List.drop_left, List.take_left]

/-- With enough fuel the loop finds every appearance from its start on. -/
theorem collect_eq (haystack needle : Text) {fuel from' : Nat}
    (enough : haystack.length + 1 ≤ from' + fuel) (inside : from' ≤ haystack.length) :
    collect haystack needle fuel from' =
      TextSearch.findAll needle from' (haystack.drop from') := by
  induction fuel generalizing from' with
  | zero => omega
  | succ fuel ih =>
      unfold collect findFrom
      rw [if_pos inside]
      cases found : TextSearch.find needle (haystack.drop from') with
      | none => rw [TextSearch.findAll_of_none from' found, Option.map_none]
      | some index =>
          rw [TextSearch.findAll_of_some from' found, Option.map_some]
          dsimp only
          obtain ⟨before, after, split, rfl, -⟩ := TextSearch.find_some found
          have total := congrArg List.length split
          simp only [List.length_drop, List.length_append] at total
          congr 1
          rw [List.length_drop, List.drop_drop, ← Nat.add_assoc]
          split
          · next short => exact ih (by omega) (by omega)
          · next past =>
              cases fuel with
              | zero => rfl
              | succ fuel =>
                  unfold collect findFrom
                  rw [if_neg (by omega)]

theorem findAll_eq (haystack needle : Text) :
    findAll haystack needle = TextSearch.findAll needle 0 haystack :=
  collect_eq haystack needle (by omega) (Nat.zero_le _)

theorem mem_findAll {haystack needle : Text} {start : Nat} :
    start ∈ findAll haystack needle ↔ start + needle.length ≤ haystack.length ∧
      slice haystack start (start + needle.length) = needle := by
  rw [findAll_eq, TextSearch.mem_findAll, slice_split]
  simp only [Nat.zero_add]

theorem findAll_nodup (haystack needle : Text) : (findAll haystack needle).Nodup := by
  rw [findAll_eq]
  exact (TextSearch.findAll_pairwise needle 0 haystack).imp fun less => Nat.ne_of_lt less

end Searching

section Unquoting

def Enclosed (quote wanted : Text) : Prop :=
  ∃ left right inner, [left, right] ∈ quoteMarks ∧ quote = left :: (inner ++ [right]) ∧
    wanted = strip inner

theorem unquote_cases (text quote : Text) :
    unquote text quote = quote ∨
      ¬ Contains quote text ∧ Enclosed quote (unquote text quote) := by
  unfold unquote
  split
  · next enclosed =>
      obtain ⟨absent, long, marks⟩ := enclosed
      refine Or.inr ⟨?_, ?_⟩
      · rw [← TextSearch.contains_iff, absent]
        decide
      · cases quote with
        | nil => simp at long
        | cons left rest =>
            obtain ⟨inner, right, rfl⟩ : ∃ inner right, rest = inner ++ [right] := by
              refine ⟨rest.dropLast, rest.getLast ?_, (List.dropLast_append_getLast _).symm⟩
              rintro rfl
              simp at long
            refine ⟨left, right, inner, ?_, rfl, ?_⟩
            · simpa using marks
            · simp
  · exact Or.inl rfl

end Unquoting

section Folding

variable {N κ : Type} (python : Python N κ)

theorem length_le_foldText (text : Text) : text.length ≤ (foldText python text).length := by
  unfold foldText
  induction text with
  | nil => simp
  | cons code text ih =>
      have positive := List.length_pos_iff.mpr (python.fold_nonempty code)
      simp only [List.flatMap_cons, List.length_append, List.length_cons]
      omega

theorem foldText_inPlace {text : Text} (same : (foldText python text).length = text.length) :
    ∃ folded : Nat → Nat, ∀ code ∈ text, python.fold code = [folded code] := by
  refine ⟨fun code => (python.fold code).headD 0, ?_⟩
  induction text with
  | nil => simp
  | cons code text ih =>
      have positive := List.length_pos_iff.mpr (python.fold_nonempty code)
      have rest := length_le_foldText python text
      unfold foldText at same rest ih
      simp only [List.flatMap_cons, List.length_append, List.length_cons] at same
      intro other member
      rcases List.mem_cons.mp member with rfl | later
      · obtain ⟨single, isSingle⟩ := List.length_eq_one_iff.mp
          (show (python.fold other).length = 1 by omega)
        simp [isSingle]
      · exact ih (by omega) other later

theorem foldText_slice {text : Text} (same : (foldText python text).length = text.length)
    (start stop : Nat) :
    foldText python (slice text start stop) = slice (foldText python text) start stop := by
  obtain ⟨folded, inPlace⟩ := foldText_inPlace python same
  have mapped {part : Text} (within : ∀ code ∈ part, code ∈ text) :
      foldText python part = part.map folded := by
    rw [List.map_eq_flatMap]
    exact List.flatMap_congr fun code member => inPlace code (within code member)
  unfold slice
  rw [mapped fun code member => member,
    mapped fun code member => List.mem_of_mem_drop (List.mem_of_mem_take member),
    List.map_take, List.map_drop]

theorem foldText_eq_nil {text : Text} : foldText python text = [] ↔ text = [] := by
  constructor
  · intro empty
    have short := length_le_foldText python text
    rw [empty] at short
    exact List.eq_nil_of_length_eq_zero (Nat.le_zero.mp short)
  · rintro rfl
    rfl

end Folding

section Appearing

variable {N κ : Type} (python : Python N κ)

/-- A span where a quote is found: as it is, or up to case when it is nowhere as it is. -/
structure Appears (text quote : Text) (start stop : Nat) : Prop where
  ordered : start ≤ stop
  inside : stop ≤ text.length
  same : slice text start stop = quote ∨
    ¬ Contains quote text ∧ foldText python (slice text start stop) = foldText python quote

variable {python}

theorem length_slice {text : Text} (start : Nat) {stop : Nat} (inside : stop ≤ text.length) :
    (slice text start stop).length = stop - start := by
  unfold slice
  rw [List.length_take, List.length_drop]
  omega

theorem Appears.lt {text quote : Text} {start stop : Nat}
    (appears : Appears python text quote start stop) (visible : quote ≠ []) : start < stop := by
  have nonempty : slice text start stop ≠ [] := by
    intro empty
    rcases appears.same with same | ⟨-, same⟩
    · exact visible (same.symm.trans empty)
    · rw [empty] at same
      exact visible ((foldText_eq_nil python).mp same.symm)
  have positive := List.length_pos_iff.mpr nonempty
  rw [length_slice start appears.inside] at positive
  omega

theorem Appears.not_lt {text : Text} {start stop : Nat} (appears : Appears python text [] start stop) :
    ¬ start < stop := by
  rcases appears.same with same | ⟨absent, -⟩
  · have length := length_slice start appears.inside
    rw [same, List.length_nil] at length
    omega
  · exact absurd ⟨[], text, rfl⟩ absent

variable (python)

def starts (text quote : Text) : List Nat :=
  findAll (searched python text quote).2 (searched python text quote).1

/-- The spans that a reference may take. -/
def offers (text quote : Text) (key : κ) : List (Span κ) :=
  (starts python text quote).map fun start =>
    (key, start, start + (searched python text quote).1.length)

theorem searched_cases (text quote : Text) :
    (¬ Contains quote text ∧ (foldText python text).length = text.length ∧
      searched python text quote = (foldText python quote, foldText python text)) ∨
    searched python text quote = (quote, text) := by
  unfold searched
  split
  · next folded =>
      refine Or.inl ⟨?_, folded.2, rfl⟩
      rw [← TextSearch.contains_iff, folded.1]
      decide
  · exact Or.inr rfl

theorem contains_slice {text quote : Text} {start stop : Nat}
    (same : slice text start stop = quote) : Contains quote text := by
  refine ⟨text.take start, (text.drop start).drop (stop - start), ?_⟩
  rw [← same]
  unfold slice
  rw [List.take_append_drop, List.take_append_drop]

variable {python}

theorem appears_of_offered {text quote : Text} {key other : κ} {start stop : Nat}
    (offered : (other, start, stop) ∈ offers python text quote key) :
    other = key ∧ Appears python text quote start stop := by
  obtain ⟨first, member, same⟩ := List.mem_map.mp offered
  simp only [Prod.mk.injEq] at same
  obtain ⟨rfl, rfl, rfl⟩ := same
  obtain ⟨inside, found⟩ := mem_findAll.mp member
  refine ⟨rfl, ?_⟩
  rcases searched_cases python text quote with ⟨absent, length, shape⟩ | shape
  · rw [shape] at inside found ⊢
    dsimp only at inside found ⊢
    rw [length] at inside
    rw [← foldText_slice python length] at found
    exact ⟨Nat.le_add_right _ _, inside, Or.inr ⟨absent, found⟩⟩
  · rw [shape] at inside found ⊢
    exact ⟨Nat.le_add_right _ _, inside, Or.inl found⟩

theorem Appears.offered {text quote : Text} {key : κ} {start stop : Nat}
    (appears : Appears python text quote start stop) (found : offers python text quote key ≠ []) :
    (key, start, stop) ∈ offers python text quote key := by
  have length := length_slice start appears.inside
  have ordered := appears.ordered
  have inside := appears.inside
  -- An offer shows which way the quote was searched.
  obtain ⟨⟨other, first, last⟩, member⟩ := List.exists_mem_of_ne_nil _ found
  have isFound : slice (searched python text quote).2 start stop = (searched python text quote).1 ∧
      (searched python text quote).2.length = text.length := by
    rcases searched_cases python text quote with ⟨absent, sameLength, shape⟩ | shape
    · rw [shape]
      refine ⟨?_, sameLength⟩
      rcases appears.same with same | ⟨-, same⟩
      · exact absurd (contains_slice same) absent
      · rw [← same, foldText_slice python sameLength]
    · rw [shape]
      refine ⟨?_, rfl⟩
      rcases appears.same with same | ⟨absent, -⟩
      · exact same
      · obtain ⟨begin, isStart, -⟩ := List.mem_map.mp member
        have exactly := (mem_findAll.mp isStart).2
        rw [shape] at exactly
        exact absurd (contains_slice exactly) absent
  have needle := length_slice start
    (show stop ≤ (searched python text quote).2.length by omega)
  rw [isFound.1] at needle
  refine List.mem_map.mpr ⟨start, mem_findAll.mpr ?_, ?_⟩
  · rw [needle, show start + (stop - start) = stop by omega]
    exact ⟨by omega, isFound.1⟩
  · rw [needle, show start + (stop - start) = stop by omega]

end Appearing

end Ovrly.Completions
