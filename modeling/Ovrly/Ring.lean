import Mathlib

/-!
A queue laid out around a list of cells, the unused cells blank.
-/

namespace Ring

variable {α : Type}

def put (cells : List α) (start : Nat) (values : List α) : List α :=
  cells.take start ++ (values ++ cells.drop (start + values.length))

/-- Read around from the head, the cells are the queue and then blank. -/
structure Holds (blank : α) (cells : List α) (head : Nat) (queue : List α) : Prop where
  fits : queue.length ≤ cells.length
  around : cells.rotate head = queue ++ List.replicate (cells.length - queue.length) blank

variable {blank : α} {cells queue : List α} {head : Nat}

theorem put_left (front values back : List α) :
    put (front ++ back) front.length values = front ++ (values ++ back.drop values.length) := by
  rw [put, List.take_left, List.drop_length_add_append]

@[simp] theorem length_put {start : Nat} {values : List α}
    (inside : start + values.length ≤ cells.length) :
    (put cells start values).length = cells.length := by
  simp only [put, List.length_append, List.length_take, List.length_drop]
  omega

theorem put_around (values start rest : List α)
    (fits : values.length ≤ (start ++ rest).length) :
    (put (put (start ++ rest) start.length (values.take rest.length)) 0
      (values.drop rest.length)).rotate start.length =
        values ++ (rest ++ start).drop values.length := by
  rw [List.length_append] at fits
  rw [put_left]
  by_cases short : values.length ≤ rest.length
  · rw [List.take_of_length_le short, List.drop_eq_nil_of_le short, put]
    simp only [List.take_zero, List.nil_append, List.length_nil, Nat.add_zero, List.drop_zero]
    rw [List.rotate_append_length_eq, List.drop_append_of_le_length short, List.append_assoc]
  · have cut : (values.take rest.length).length = rest.length := by
      rw [List.length_take]
      omega
    rw [cut, List.drop_length, List.append_nil, put, List.take_zero, List.nil_append, Nat.zero_add,
      List.length_drop, List.drop_append_of_le_length (by omega), ← List.append_assoc]
    have whole : (values.drop rest.length ++ start.drop (values.length - rest.length)).length =
        start.length := by
      simp only [List.length_append, List.length_drop]
      omega
    conv_lhs => rw [← whole]
    rw [List.rotate_append_length_eq, ← List.append_assoc, List.take_append_drop, List.drop_append,
      List.drop_eq_nil_of_le (by omega : rest.length ≤ values.length), List.nil_append]

theorem Holds.behind (holds : Holds blank cells head queue) :
    cells.rotate ((head + queue.length) % cells.length) =
      List.replicate (cells.length - queue.length) blank ++ queue := by
  rw [List.rotate_mod, ← List.rotate_rotate, holds.around, List.rotate_append_length_eq]

theorem wrap {start count length : Nat} (below : start < length) (fits : count ≤ length) :
    (start + count) % length =
      if start + count < length then start + count else start + count - length := by
  split
  · next short => exact Nat.mod_eq_of_lt short
  · rw [Nat.mod_eq_sub_mod (by omega), Nat.mod_eq_of_lt (by omega)]

/-- Values put behind the queue are queued. -/
theorem Holds.push (holds : Holds blank cells head queue) (values : List α)
    (room : values.length ≤ cells.length - queue.length) (inside : head < cells.length) :
    let tail := (head + queue.length) % cells.length
    let first := min values.length (cells.length - tail)
    Holds blank (put (put cells tail (values.take first)) 0 (values.drop first)) head
      (queue ++ values) := by
  intro tail first
  have fits := holds.fits
  have behind := holds.behind
  have isTail : tail = if head + queue.length < cells.length then head + queue.length
      else head + queue.length - cells.length := wrap inside fits
  have below : tail < cells.length := Nat.mod_lt _ (by omega)
  have isStart : (cells.take tail).length = tail := by
    rw [List.length_take]
    omega
  have isRest : (cells.drop tail).length = cells.length - tail := List.length_drop
  have sameTake : values.take first = values.take (cells.length - tail) := by
    rw [List.take_eq_take_iff]
    omega
  have sameDrop : values.drop first = values.drop (cells.length - tail) := by
    by_cases short : values.length ≤ cells.length - tail
    · rw [List.drop_eq_nil_of_le (by omega), List.drop_eq_nil_of_le short]
    · rw [show first = cells.length - tail by omega]
  have around := put_around values (cells.take tail) (cells.drop tail)
    (by rw [List.take_append_drop]; omega)
  rw [List.take_append_drop, isStart, isRest, ← List.rotate_eq_drop_append_take (by omega), behind,
    List.drop_append_of_le_length (by rw [List.length_replicate]; omega), List.drop_replicate]
    at around
  rw [sameTake, sameDrop]
  generalize put (put cells tail (values.take (cells.length - tail))) 0
    (values.drop (cells.length - tail)) = result at around
  have kept : result.length = cells.length := by
    have same := congrArg List.length around
    simp only [List.length_rotate, List.length_append, List.length_replicate] at same
    omega
  have turned : result.rotate head =
      (result.rotate tail).rotate (cells.length - queue.length) := by
    rw [List.rotate_rotate, ← List.rotate_mod result (tail + _), kept]
    congr 1
    rw [wrap below (by omega), isTail]
    split <;> split <;> omega
  constructor
  · rw [kept, List.length_append]
    omega
  · rw [turned, around, kept, ← List.append_assoc]
    have whole : (values ++ List.replicate (cells.length - queue.length - values.length)
        blank).length = cells.length - queue.length := by
      rw [List.length_append, List.length_replicate]
      omega
    have turn := List.rotate_append_length_eq (values ++ List.replicate
      (cells.length - queue.length - values.length) blank) queue
    rw [whole] at turn
    rw [turn, List.length_append, ← List.append_assoc, Nat.sub_add_eq]

theorem Holds.front (holds : Holds blank cells head queue) {count : Nat}
    (queued : count ≤ queue.length) (straight : head + count ≤ cells.length) :
    (cells.drop head).take count = queue.take count := by
  have around := holds.around
  rw [List.rotate_eq_drop_append_take (by omega)] at around
  have same := congrArg (List.take count) around
  rwa [List.take_append_of_le_length (by rw [List.length_drop]; omega),
    List.take_append_of_le_length queued] at same

/-- Blanks put over the front of the queue take it off. -/
theorem Holds.pop (holds : Holds blank cells head queue) {count : Nat}
    (queued : count ≤ queue.length) (straight : head + count ≤ cells.length) :
    Holds blank (put cells head (List.replicate count blank)) ((head + count) % cells.length)
      (queue.drop count) := by
  have fits := holds.fits
  have around := holds.around
  rw [List.rotate_eq_drop_append_take (by omega)] at around
  have same := congrArg (List.drop count) around
  rw [List.drop_append_of_le_length (by rw [List.length_drop]; omega), List.drop_drop,
    List.drop_append_of_le_length queued] at same
  have kept : (put cells head (List.replicate count blank)).length = cells.length :=
    length_put (by rw [List.length_replicate]; exact straight)
  have isFront : (cells.take head ++ List.replicate count blank).length = head + count := by
    rw [List.length_append, List.length_take, List.length_replicate]
    omega
  have turn := List.rotate_append_length_eq (cells.take head ++ List.replicate count blank)
    (cells.drop (head + count))
  constructor
  · rw [kept, List.length_drop]
    omega
  · rw [← kept, List.rotate_mod, kept]
    rw [isFront, List.append_assoc] at turn
    rw [put, List.length_replicate, turn, ← List.append_assoc, same, List.append_assoc,
      ← List.replicate_add, List.length_drop]
    congr 2
    omega

theorem Holds.outside (holds : Holds blank cells head queue) (below : head < cells.length)
    {index : Nat} (inside : index < cells.length)
    (unqueued : ∀ place < queue.length, index ≠ (head + place) % cells.length) :
    cells[index]? = some blank := by
  have reached : ∃ place < cells.length, (head + place) % cells.length = index := by
    by_cases after : head ≤ index
    · exact ⟨index - head, by omega, by rw [Nat.mod_eq_of_lt (by omega)]; omega⟩
    · refine ⟨index + cells.length - head, by omega, ?_⟩
      rw [Nat.mod_eq_sub_mod (by omega), Nat.mod_eq_of_lt (by omega)]
      omega
  obtain ⟨place, bound, rfl⟩ := reached
  have past : queue.length ≤ place := by
    by_contra queued
    exact unqueued place (by omega) rfl
  rw [Nat.add_comm, ← List.getElem?_rotate bound, holds.around, List.getElem?_append_right past,
    List.getElem?_replicate, if_pos (by omega)]

theorem holds_blank (length : Nat) (head : Nat) :
    Holds blank (List.replicate length blank) head [] := by
  refine ⟨Nat.zero_le _, ?_⟩
  rw [List.rotate_replicate, List.length_replicate]
  rfl

end Ring
