import Mathlib.Data.List.Forall2

/-!
Lists read value by value by functions that may fail.
-/

namespace OptionList

variable {α β : Type}

theorem mapM_map {reader : α → Option β} {change : α → α}
    (same : ∀ part, reader (change part) = reader part) (parts : List α) :
    (parts.map change).mapM reader = parts.mapM reader := by
  induction parts with
  | nil => rfl
  | cons part rest ih => simp only [List.map_cons, List.mapM_cons, same, ih]

theorem mapM_none {reader : α → Option β} {part : α} {parts : List α}
    (member : part ∈ parts) (refused : reader part = none) :
    parts.mapM reader = none := by
  induction parts with
  | nil => exact absurd member List.not_mem_nil
  | cons first rest ih =>
      rw [List.mapM_cons]
      rcases List.mem_cons.mp member with rfl | later
      · rw [refused]
        rfl
      · rw [ih later]
        cases reader first <;> rfl

theorem forall₂_of_mapM {reader : α → Option β} {list : List α} {results : List β}
    (read : list.mapM reader = some results) :
    List.Forall₂ (fun value result => reader value = some result) list results := by
  induction list generalizing results with
  | nil =>
      obtain rfl := Option.some.inj read
      exact .nil
  | cons value rest ih =>
      rw [List.mapM_cons] at read
      cases first : reader value with
      | none => simp [first] at read
      | some result =>
          cases later : rest.mapM reader with
          | none => simp [first, later] at read
          | some tail =>
              simp only [first, later, Option.bind_eq_bind, Option.bind_some, Option.pure_def,
                Option.some.injEq] at read
              subst read
              exact .cons first (ih later)

theorem length_mapM {reader : α → Option β} {list : List α} {results : List β}
    (read : list.mapM reader = some results) : results.length = list.length :=
  (forall₂_of_mapM read).length_eq.symm

theorem filterAuxM_some {test : α → Option Bool} {list : List α}
    (defined : ∀ value ∈ list, (test value).isSome) (kept : List α) :
    list.filterAuxM test kept =
      some ((list.filter fun value => test value = some true).reverse ++ kept) := by
  induction list generalizing kept with
  | nil => rfl
  | cons value rest ih =>
      obtain ⟨answer, tested⟩ := Option.isSome_iff_exists.mp (defined value List.mem_cons_self)
      rw [List.filterAuxM, tested]
      simp only [Option.bind_eq_bind, Option.bind_some]
      rw [ih fun other member => defined other (List.mem_cons_of_mem _ member)]
      cases answer <;> simp [tested]

/-- Where every test is defined, the values that pass are those of `List.filter`. -/
theorem filterM_some {test : α → Option Bool} {list : List α}
    (defined : ∀ value ∈ list, (test value).isSome) :
    list.filterM test = some (list.filter fun value => test value = some true) := by
  rw [List.filterM, filterAuxM_some defined]
  simp

theorem mem_mapM {reader : α → Option β} {list : List α} {results : List β}
    (read : list.mapM reader = some results) :
    (∀ value ∈ list, ∃ result ∈ results, reader value = some result) ∧
      ∀ result ∈ results, ∃ value ∈ list, reader value = some result := by
  have related := forall₂_of_mapM read
  clear read
  induction related with
  | nil => simp
  | @cons value result rest results same _ ih =>
      constructor
      · intro other member
        rcases List.mem_cons.mp member with rfl | later
        · exact ⟨result, List.mem_cons_self, same⟩
        · obtain ⟨found, belongs, equal⟩ := ih.1 other later
          exact ⟨found, List.mem_cons_of_mem _ belongs, equal⟩
      · intro found member
        rcases List.mem_cons.mp member with rfl | later
        · exact ⟨value, List.mem_cons_self, same⟩
        · obtain ⟨other, belongs, equal⟩ := ih.2 found later
          exact ⟨other, List.mem_cons_of_mem _ belongs, equal⟩

theorem mapM_isSome {reader : α → Option β} {list : List α}
    (defined : ∀ value ∈ list, (reader value).isSome) :
    ∃ results, list.mapM reader = some results := by
  induction list with
  | nil => exact ⟨[], rfl⟩
  | cons value rest ih =>
      obtain ⟨result, first⟩ := Option.isSome_iff_exists.mp (defined value List.mem_cons_self)
      obtain ⟨results, later⟩ := ih fun other member => defined other (List.mem_cons_of_mem _ member)
      exact ⟨result :: results, by rw [List.mapM_cons, first, later]; rfl⟩

end OptionList
