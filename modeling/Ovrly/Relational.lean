import Mathlib.Data.List.Forall2
import Mathlib.Data.List.Nodup

/-!
Tables with a primary key and the set-oriented statements that change them.

A statement is given by its `WHERE` clause and its `SET` clause, as functions of one row.
The lemmas below turn every statement into its effect on the row of one key, so that a
program made of such statements can be reasoned about row by row.
-/

namespace Relational

/-- The primary key of a row. -/
class Keyed (ρ : Type) (κ : outParam Type) where
  key : ρ → κ

/-- Rows whose keys are pairwise distinct, as a primary key constraint guarantees. -/
structure Table (ρ : Type) {κ : Type} [Keyed ρ κ] where
  rows : List ρ
  unique : (rows.map Keyed.key).Nodup

namespace Table

variable {ρ κ : Type} [Keyed ρ κ]

def empty : Table ρ := ⟨[], List.nodup_nil⟩

/-- `UPDATE ... WHERE condition SET change`. -/
def update (table : Table ρ) (condition : ρ → Bool) (change : ρ → ρ)
    (keeps : ∀ row, Keyed.key (change row) = Keyed.key row) : Table ρ where
  rows := table.rows.map fun row => if condition row then change row else row
  unique := by
    have sameKeys : (table.rows.map fun row => if condition row then change row else row).map
        Keyed.key = table.rows.map Keyed.key := by
      rw [List.map_map]
      apply List.map_congr_left
      intro row _
      by_cases chosen : condition row
      · simp [chosen, keeps]
      · simp [chosen]
    rw [sameKeys]
    exact table.unique

theorem keys_update (table : Table ρ) (condition : ρ → Bool) (change : ρ → ρ)
    (keeps : ∀ row, Keyed.key (change row) = Keyed.key row) :
    (table.update condition change keeps).rows.map Keyed.key = table.rows.map Keyed.key := by
  rw [update, List.map_map]
  apply List.map_congr_left
  intro row _
  by_cases chosen : condition row
  · simp [chosen, keeps]
  · simp [chosen]

/-- A statement whose `WHERE` clause matches no row changes nothing. -/
theorem update_eq_self {table : Table ρ} {condition : ρ → Bool} {change : ρ → ρ}
    {keeps : ∀ row, Keyed.key (change row) = Keyed.key row}
    (unmatched : ∀ row ∈ table.rows, condition row = false) :
    table.update condition change keeps = table := by
  have sameRows : (table.rows.map fun row => if condition row then change row else row) =
      table.rows := by
    conv_rhs => rw [← List.map_id table.rows]
    apply List.map_congr_left
    intro row member
    simp [unmatched row member]
  rcases table with ⟨rows, unique⟩
  simp only [update, Table.mk.injEq]
  exact sameRows

/-- The number of rows a `WHERE` clause matches. -/
def rowcount (table : Table ρ) (condition : ρ → Bool) : Nat :=
  table.rows.countP condition

/-- `DELETE FROM ... WHERE condition`. -/
def delete (table : Table ρ) (condition : ρ → Bool) : Table ρ where
  rows := table.rows.filter fun row => !condition row
  unique := table.unique.sublist (List.filter_sublist.map Keyed.key)

variable [DecidableEq κ]

def find? (table : Table ρ) (key : κ) : Option ρ :=
  table.rows.find? fun row => Keyed.key row == key

/-- `INSERT`, refused when the key is taken. -/
def insert? (table : Table ρ) (row : ρ) : Option (Table ρ) :=
  if fresh : Keyed.key row ∉ table.rows.map Keyed.key then
    some ⟨table.rows ++ [row], by
      rw [List.map_append, List.map_singleton, List.nodup_append]
      refine ⟨table.unique, List.nodup_singleton _, ?_⟩
      intro first member second last
      rw [List.mem_singleton.mp last]
      exact fun same => fresh (same ▸ member)⟩
  else none

/-- `INSERT`, or the row in place of the one with its key. -/
def upsert (table : Table ρ) (row : ρ) : Table ρ where
  rows := (table.delete fun other => Keyed.key other == Keyed.key row).rows ++ [row]
  unique := by
    rw [List.map_append, List.map_singleton, List.nodup_append]
    refine ⟨(table.delete _).unique, List.nodup_singleton _, ?_⟩
    intro first member second last
    rw [List.mem_singleton.mp last]
    rintro rfl
    obtain ⟨other, kept, same⟩ := List.mem_map.mp member
    simp [delete, same] at kept

theorem mem_upsert {table : Table ρ} {row other : ρ} :
    other ∈ (table.upsert row).rows ↔
      other = row ∨ other ∈ table.rows ∧ Keyed.key other ≠ Keyed.key row := by
  simp only [upsert, delete, List.mem_append, List.mem_filter, List.mem_singleton,
    Bool.not_eq_true', beq_eq_false_iff_ne]
  exact or_comm

theorem find?_empty (key : κ) : (empty : Table ρ).find? key = none := rfl

theorem find?_key {table : Table ρ} {key : κ} {row : ρ} (found : table.find? key = some row) :
    Keyed.key row = key := by
  have matched := List.find?_some found
  simpa using matched

theorem mem_of_find? {table : Table ρ} {key : κ} {row : ρ} (found : table.find? key = some row) :
    row ∈ table.rows :=
  List.mem_of_find?_eq_some found

private theorem find?_of_unique {rows : List ρ} (unique : (rows.map Keyed.key).Nodup) {row : ρ}
    (member : row ∈ rows) :
    rows.find? (fun other => Keyed.key other == Keyed.key row) = some row := by
  induction rows with
  | nil => simp at member
  | cons first rest ih =>
      rw [List.map_cons, List.nodup_cons] at unique
      rw [List.find?_cons]
      by_cases same : Keyed.key first = Keyed.key row
      · simp only [same, beq_self_eq_true]
        rcases List.mem_cons.mp member with equal | later
        · rw [equal]
        · exact absurd (List.mem_map.mpr ⟨row, later, same.symm⟩) unique.1
      · have different : (Keyed.key first == Keyed.key row) = false := by simpa using same
        rw [different]
        apply ih unique.2
        rcases List.mem_cons.mp member with equal | later
        · exact absurd (by rw [equal]) same
        · exact later

theorem find?_of_mem {table : Table ρ} {row : ρ} (member : row ∈ table.rows) :
    table.find? (Keyed.key row) = some row :=
  find?_of_unique table.unique member

theorem find?_eq_none {table : Table ρ} {key : κ} :
    table.find? key = none ↔ ∀ row ∈ table.rows, Keyed.key row ≠ key := by
  simp [find?, List.find?_eq_none]

@[simp] theorem find?_update (table : Table ρ) (condition : ρ → Bool) (change : ρ → ρ)
    (keeps : ∀ row, Keyed.key (change row) = Keyed.key row) (key : κ) :
    (table.update condition change keeps).find? key =
      (table.find? key).map fun row => if condition row then change row else row := by
  simp only [find?, update, List.find?_map]
  congr 1
  have sameTest : ((fun row => Keyed.key row == key) ∘
      fun row => if condition row then change row else row) = fun row => Keyed.key row == key := by
    funext row
    by_cases chosen : condition row
    · simp [chosen, keeps]
    · simp [chosen]
  rw [sameTest]

theorem find?_insert? {table next : Table ρ} {row : ρ} (inserted : table.insert? row = some next)
    (key : κ) :
    next.find? key = if Keyed.key row = key then some row else table.find? key := by
  simp only [insert?] at inserted
  split at inserted
  · rename_i fresh
    simp only [Option.some.injEq] at inserted
    subst next
    simp only [find?, List.find?_append, List.find?_singleton]
    by_cases same : Keyed.key row = key
    · have absent : table.rows.find? (fun other => Keyed.key other == key) = none := by
        rw [List.find?_eq_none]
        intro other member
        have different : Keyed.key other ≠ key := fun equal =>
          fresh (List.mem_map.mpr ⟨other, member, equal.trans same.symm⟩)
        simpa using different
      simp [same, absent]
    · simp [same]
  · simp at inserted

theorem insert?_fresh {table next : Table ρ} {row : ρ} (inserted : table.insert? row = some next) :
    table.find? (Keyed.key row) = none := by
  simp only [insert?] at inserted
  split at inserted
  · rename_i fresh
    rw [find?_eq_none]
    exact fun other member same => fresh (List.mem_map.mpr ⟨other, member, same⟩)
  · simp at inserted

theorem insert?_isSome {table : Table ρ} {row : ρ} (fresh : table.find? (Keyed.key row) = none) :
    ∃ next, table.insert? row = some next := by
  rw [find?_eq_none] at fresh
  have absent : Keyed.key row ∉ table.rows.map Keyed.key := by
    intro member
    obtain ⟨other, belongs, same⟩ := List.mem_map.mp member
    exact fresh other belongs same
  simp only [insert?, dif_pos absent]
  exact ⟨_, rfl⟩

theorem rows_insert? {table next : Table ρ} {row : ρ} (inserted : table.insert? row = some next) :
    next.rows = table.rows ++ [row] := by
  simp only [insert?] at inserted
  split at inserted
  · simp only [Option.some.injEq] at inserted
    rw [← inserted]
  · simp at inserted

omit [DecidableEq κ] in
theorem eq_of_key {table : Table ρ} {first second : ρ} (member : first ∈ table.rows)
    (other : second ∈ table.rows) (same : Keyed.key first = Keyed.key second) : first = second :=
  List.inj_on_of_nodup_map table.unique member other same

/-- Two tables with the same keys in the same order are related row by row where the rows of
each key are. -/
theorem forall₂_of_find? {related : ρ → ρ → Prop} {table later : Table ρ}
    (keys : later.rows.map Keyed.key = table.rows.map Keyed.key)
    (moved : ∀ row ∈ table.rows, ∃ next, later.find? (Keyed.key row) = some next ∧
      related row next) :
    List.Forall₂ related table.rows later.rows := by
  have length : table.rows.length = later.rows.length := by
    have counted := congrArg List.length keys
    simpa using counted.symm
  rw [List.forall₂_iff_get]
  refine ⟨length, ?_⟩
  intro index bound laterBound
  obtain ⟨next, found, steps⟩ := moved (table.rows.get ⟨index, bound⟩) (List.get_mem _ _)
  have same : Keyed.key (later.rows.get ⟨index, laterBound⟩) =
      Keyed.key (table.rows.get ⟨index, bound⟩) := by
    have lookup := congrArg (fun list : List κ => list[index]?) keys
    simpa [List.getElem?_eq_getElem bound, List.getElem?_eq_getElem laterBound] using lookup
  have equal : later.rows.get ⟨index, laterBound⟩ = next := by
    apply eq_of_key (List.get_mem _ _) (mem_of_find? found)
    rw [same, find?_key found]
  rw [equal]
  exact steps

theorem length_filter_key (table : Table ρ) (key : κ) :
    (table.rows.filter fun row => Keyed.key row == key).length ≤ 1 := by
  have counted := List.nodup_iff_count_le_one.mp table.unique key
  rwa [List.count, List.countP_map, List.countP_eq_length_filter] at counted

/-- A `WHERE` clause that fixes the key matches one row exactly when the row of that key
satisfies it. -/
theorem rowcount_eq_one {table : Table ρ} {condition : ρ → Bool} {key : κ}
    (pinned : ∀ row, condition row = true → Keyed.key row = key) :
    table.rowcount condition = 1 ↔ ∃ row, table.find? key = some row ∧ condition row = true := by
  constructor
  · intro counted
    obtain ⟨row, member, chosen⟩ := List.countP_pos_iff.mp
      (by rw [show table.rows.countP condition = 1 from counted]; exact Nat.one_pos)
    refine ⟨row, ?_, chosen⟩
    rw [← pinned row chosen]
    exact find?_of_mem member
  · rintro ⟨row, found, chosen⟩
    have member := mem_of_find? found
    have only : ∀ other ∈ table.rows, condition other = true → other = row := by
      intro other belongs accepted
      have same := find?_of_mem belongs
      rw [pinned other accepted, found, Option.some.injEq] at same
      exact same.symm
    have single : table.rows.countP condition = table.rows.countP fun other =>
        decide (Keyed.key other = Keyed.key row) := by
      apply List.countP_congr
      intro other belongs
      constructor
      · intro accepted
        simp [only other belongs accepted]
      · intro sameKey
        have equal := find?_of_mem belongs
        rw [of_decide_eq_true sameKey, find?_of_mem member, Option.some.injEq] at equal
        exact equal ▸ chosen
    have counted : (table.rows.map Keyed.key).count (Keyed.key row) = 1 :=
      List.count_eq_one_of_mem table.unique (List.mem_map_of_mem member)
    rw [rowcount, single, ← counted, List.count, List.countP_map]
    apply List.countP_congr
    intro other _
    simp

end Table

end Relational
