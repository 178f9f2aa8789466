import Ovrly.JsonGrammar

/-!
Values of JSON text: the grammar, a reader, and that the reader accepts exactly the grammar.
-/

namespace JsonGrammar

section Sequences

variable {V : Type}

def Blank (text : Text) : Prop := ∀ code ∈ text, isBlank code = true

inductive Elements (related : Text → V → Prop) : Text → List V → Prop
  | last {before text after : Text} {value : V} : Blank before → related text value →
      Blank after → Elements related (before ++ (text ++ after)) [value]
  | more {before text after rest : Text} {value : V} {values : List V} : Blank before →
      related text value → Blank after → Elements related rest values →
      Elements related (before ++ (text ++ (after ++ comma :: rest))) (value :: values)

def Sequence (related : Text → V → Prop) (text : Text) (values : List V) : Prop :=
  (Blank text ∧ values = []) ∨ Elements related text values

variable (item : Text → Option (V × Text)) (close : Nat)

def elements : Nat → Text → Option (List V × Text)
  | 0, _ => none
  | fuel + 1, text =>
      match item text with
      | none => none
      | some (value, rest) =>
          match skipBlank rest with
          | [] => none
          | code :: more =>
              if code = comma then
                (elements fuel (skipBlank more)).map fun found => (value :: found.1, found.2)
              else if code = close then some ([value], more)
              else none

def sequence (text : Text) : Option (List V × Text) :=
  match skipBlank text with
  | [] => none
  | code :: more =>
      if code = close then some ([], more) else elements item close text.length (code :: more)

def Ends (rest : Text) : Prop :=
  ∀ code ∈ rest.head?, isBlank code = true ∨ code = comma ∨ code = closeBracket ∨ code = closeBrace

/-- A reader of the values that a relation describes. -/
structure Reads (item : Text → Option (V × Text)) (related : Text → V → Prop) : Prop where
  sound : ∀ {text rest value}, item text = some (value, rest) →
    ∃ read, text = read ++ rest ∧ related read value
  complete : ∀ {read value rest}, related read value → Ends rest →
    item (read ++ rest) = some (value, rest)
  starts : ∀ {read value}, related read value → ∃ head tail, read = head :: tail ∧
    isBlank head = false ∧ head ≠ closeBracket ∧ head ≠ closeBrace

theorem skipBlank_append {before text : Text} (blank : Blank before)
    (visible : ∀ code ∈ text.head?, isBlank code = false) : skipBlank (before ++ text) = text :=
  (takeWhile_all blank visible).2

theorem skipBlank_split (text : Text) :
    ∃ before, text = before ++ skipBlank text ∧ Blank before ∧
      ∀ code ∈ (skipBlank text).head?, isBlank code = false := by
  refine ⟨text.takeWhile isBlank, (List.takeWhile_append_dropWhile ..).symm,
    fun code member => mem_takeWhile member, ?_⟩
  intro code member
  cases found : skipBlank text with
  | nil => simp [found] at member
  | cons head tail =>
      obtain rfl : head = code := by simpa [found] using member
      have shape : text.dropWhile isBlank = head :: tail := found
      have first := List.head_dropWhile_not isBlank (l := text) (by simp [shape])
      simpa [shape] using first

variable {item close} {related : Text → V → Prop}

theorem Elements.blank_append {text before : Text} {values : List V}
    (listed : Elements related text values) (blank : Blank before) :
    Elements related (before ++ text) values := by
  cases listed with
  | last first value after =>
      rw [← List.append_assoc]
      exact .last (fun code member => (List.mem_append.mp member).elim (blank code) (first code))
        value after
  | more first value after rest =>
      rw [← List.append_assoc]
      exact .more (fun code member => (List.mem_append.mp member).elim (blank code) (first code))
        value after rest

theorem elements_sound (reads : Reads item related) {fuel : Nat} {text rest : Text}
    {values : List V} (found : elements item close fuel text = some (values, rest)) :
    ∃ inner, text = inner ++ close :: rest ∧ Elements related inner values := by
  induction fuel generalizing text values with
  | zero => cases found
  | succ fuel ih =>
      unfold elements at found
      split at found
      · cases found
      · next value more step =>
          obtain ⟨read, rfl, isValue⟩ := reads.sound step
          obtain ⟨after, split, blank, -⟩ := skipBlank_split more
          split at found
          · cases found
          · next code tail next =>
              rw [next] at split
              split at found
              · next isComma =>
                  subst isComma
                  cases later : elements item close fuel (skipBlank tail) with
                  | none => simp [later] at found
                  | some others =>
                      simp only [later, Option.map_some, Option.some.injEq, Prod.mk.injEq] at found
                      obtain ⟨rfl, rfl⟩ := found
                      obtain ⟨inner, same, listed⟩ := ih later
                      obtain ⟨before, whole, leading, -⟩ := skipBlank_split tail
                      have all : Elements related
                          ([] ++ (read ++ (after ++ comma :: (before ++ inner))))
                          (value :: others.1) :=
                        .more (by simp [Blank]) isValue blank (listed.blank_append leading)
                      refine ⟨_, ?_, all⟩
                      rw [split, whole, same]
                      simp
              · split at found
                · next isClose =>
                    subst isClose
                    cases found
                    have all : Elements related ([] ++ (read ++ after)) [value] :=
                      .last (by simp [Blank]) isValue blank
                    refine ⟨_, ?_, all⟩
                    rw [split]
                    simp
                · cases found

theorem ends_of_blank {after rest : Text} {code : Nat} (blank : Blank after)
    (stops : code = comma ∨ code = closeBracket ∨ code = closeBrace) :
    Ends (after ++ code :: rest) := by
  intro head member
  cases after with
  | nil =>
      obtain rfl : code = head := by simpa using member
      exact Or.inr stops
  | cons first after =>
      obtain rfl : first = head := by simpa using member
      exact Or.inl (blank first (by simp))

theorem Elements.length_le (reads : Reads item related) {text : Text} {values : List V}
    (listed : Elements related text values) : values.length ≤ text.length := by
  induction listed with
  | last _ value _ =>
      obtain ⟨head, tail, rfl, -⟩ := reads.starts value
      simp only [List.length_append, List.length_cons, List.length_nil]
      omega
  | more _ value _ _ ih =>
      simp only [List.length_append, List.length_cons]
      omega

theorem Elements.starts (reads : Reads item related) {text rest : Text} {values : List V}
    (listed : Elements related text values) :
    ∃ head tail, skipBlank (text ++ rest) = head :: tail ∧ head ≠ closeBracket ∧
      head ≠ closeBrace := by
  cases listed with
  | last before value _ | more before value _ _ =>
      obtain ⟨head, tail, rfl, visible, notBracket, notBrace⟩ := reads.starts value
      simp only [List.append_assoc, List.cons_append]
      rw [skipBlank_append before (by simpa using visible)]
      exact ⟨head, _, rfl, notBracket, notBrace⟩

theorem elements_complete (reads : Reads item related)
    (closes : close = closeBracket ∨ close = closeBrace) {fuel : Nat} {text rest : Text}
    {values : List V} (listed : Elements related text values) (enough : values.length ≤ fuel) :
    elements item close fuel (skipBlank (text ++ close :: rest)) = some (values, rest) := by
  have visible : isBlank close = false ∧ close ≠ comma := by
    rcases closes with rfl | rfl <;> decide
  induction listed generalizing fuel with
  | last before value after =>
      obtain ⟨fuel, rfl⟩ : ∃ more, fuel = more + 1 := ⟨fuel - 1, by simp at enough; omega⟩
      obtain ⟨head, tail, shape, seen, -⟩ := reads.starts value
      rw [List.append_assoc, List.append_assoc, skipBlank_append before (by
        simpa [shape] using seen), elements, reads.complete value
          (ends_of_blank after (Or.inr closes))]
      dsimp only
      rw [skipBlank_append after (by simpa using visible.1)]
      simp [visible.2]
  | more before value after _ ih =>
      obtain ⟨fuel, rfl⟩ : ∃ more, fuel = more + 1 := ⟨fuel - 1, by simp at enough; omega⟩
      obtain ⟨head, tail, shape, seen, -⟩ := reads.starts value
      simp only [List.append_assoc, List.cons_append]
      rw [skipBlank_append before (by simpa [shape] using seen), elements, reads.complete value
        (ends_of_blank after (Or.inl rfl))]
      dsimp only
      rw [skipBlank_append after (by simp [isBlank])]
      simp only [if_true]
      rw [ih (by simpa using enough)]
      rfl

theorem sequence_sound (reads : Reads item related) {text rest : Text} {values : List V}
    (found : sequence item close text = some (values, rest)) :
    ∃ inner, text = inner ++ close :: rest ∧ Sequence related inner values := by
  obtain ⟨before, split, blank, -⟩ := skipBlank_split text
  unfold sequence at found
  split at found
  · cases found
  · next code more next =>
      rw [next] at split
      split at found
      · next isClose =>
          subst isClose
          cases found
          exact ⟨before, split, Or.inl ⟨blank, rfl⟩⟩
      · obtain ⟨inner, same, listed⟩ := elements_sound reads found
        refine ⟨before ++ inner, ?_, Or.inr (listed.blank_append blank)⟩
        rw [List.append_assoc, ← same]
        exact split

theorem sequence_complete (reads : Reads item related)
    (closes : close = closeBracket ∨ close = closeBrace) {text rest : Text} {values : List V}
    (listed : Sequence related text values) :
    sequence item close (text ++ close :: rest) = some (values, rest) := by
  have visible : isBlank close = false := by
    rcases closes with rfl | rfl <;> decide
  rcases listed with ⟨blank, rfl⟩ | listed
  · rw [sequence, skipBlank_append blank (by simpa using visible)]
    simp
  · obtain ⟨head, tail, shape, notBracket, notBrace⟩ : ∃ head tail,
        skipBlank (text ++ close :: rest) = head :: tail ∧ _ := listed.starts reads
    have other : head ≠ close := by
      rcases closes with rfl | rfl
      · exact notBracket
      · exact notBrace
    have enough : values.length ≤ (text ++ close :: rest).length := by
      have bound := listed.length_le reads
      rw [List.length_append]
      omega
    have read : elements item close _ (skipBlank (text ++ close :: rest)) = some (values, rest) :=
      elements_complete reads closes listed enough
    rw [shape] at read
    rw [sequence, shape]
    simp only [other, if_false]
    exact read

end Sequences

section Values

variable {N : Type}

abbrev Value (N : Type) := JsonValue Text N

def expect (expected text : Text) : Option Text :=
  if expected.isPrefixOf text then some (text.drop expected.length) else none

-- What the decoder makes of a number literal, if it takes it.
variable (number : Text → Option N)

def scalar (text : Text) : Option (Value N × Text) :=
  match text with
  | quote :: rest => (scanString rest).map fun found => (.string (joinUnits found.1), found.2)
  | _ =>
      match expect (codes "null") text with
      | some rest => some (.null, rest)
      | none =>
          match expect (codes "true") text with
          | some rest => some (.bool true, rest)
          | none =>
              match expect (codes "false") text with
              | some rest => some (.bool false, rest)
              | none =>
                  match scanNumber text with
                  | none => none
                  | some found => (number found.1).map fun value => (.number value, found.2)

def member {V : Type} (item : Text → Option (V × Text)) : Text → Option ((Text × V) × Text)
  | quote :: rest =>
      match scanString rest with
      | none => none
      | some found =>
          match skipBlank found.2 with
          | colon :: more =>
              (item (skipBlank more)).map fun value => ((joinUnits found.1, value.1), value.2)
          | _ => none
  | _ => none

def value : Nat → Text → Option (Value N × Text)
  | 0, text => scalar number text
  | depth + 1, text =>
      match text with
      | openBracket :: rest =>
          (sequence (value depth) closeBracket rest).map fun found => (.array found.1, found.2)
      | openBrace :: rest =>
          match sequence (member (value depth)) closeBrace rest with
          | none => none
          | some found =>
              if (found.1.map Prod.fst).Nodup then some (.object found.1, found.2) else none
      | _ => scalar number text

def parse (depth : Nat) (text : Text) : Option (Value N) :=
  match value number depth (skipBlank text) with
  | none => none
  | some found => if skipBlank found.2 = [] then some found.1 else none

inductive Scalar : Text → Value N → Prop
  | null : Scalar (codes "null") .null
  | true : Scalar (codes "true") (.bool true)
  | false : Scalar (codes "false") (.bool false)
  | number {literal : Text} {value : N} : NumberText literal → number literal = some value →
      Scalar literal (.number value)
  | string {body : Text} {units : List StringUnit} : StringText body units →
      Scalar (quote :: (body ++ [quote])) (.string (joinUnits units))

def Member {V : Type} (related : Text → V → Prop) (text : Text) (entry : Text × V) : Prop :=
  ∃ name units before after rest, StringText name units ∧ Blank before ∧ Blank after ∧
    related rest entry.2 ∧ entry.1 = joinUnits units ∧
    text = quote :: (name ++ quote :: (before ++ colon :: (after ++ rest)))

/-- The value that a JSON text denotes. -/
def Denotes : Nat → Text → Value N → Prop
  | 0, text, value => Scalar number text value
  | depth + 1, text, value =>
      Scalar number text value ∨
      (∃ inner values, text = openBracket :: (inner ++ [closeBracket]) ∧
        Sequence (Denotes depth) inner values ∧ value = .array values) ∨
      ∃ inner fields, text = openBrace :: (inner ++ [closeBrace]) ∧
        Sequence (Member (Denotes depth)) inner fields ∧ (fields.map Prod.fst).Nodup ∧
        value = .object fields

theorem expect_some {expected text rest : Text} :
    expect expected text = some rest ↔ text = expected ++ rest := by
  unfold expect
  constructor
  · intro found
    split at found
    · next begins =>
        obtain ⟨tail, rfl⟩ := List.isPrefixOf_iff_prefix.mp begins
        rw [List.drop_left, Option.some.injEq] at found
        rw [found]
    · cases found
  · rintro rfl
    rw [if_pos (List.isPrefixOf_iff_prefix.mpr (List.prefix_append _ _)), List.drop_left]

theorem Ends.numberEnds {rest : Text} (ends : Ends rest) : NumberEnds rest := by
  intro code member
  rcases ends code member with blank | rfl | rfl | rfl
  · simp only [isBlank, Bool.or_eq_true, beq_iff_eq] at blank
    rcases blank with ((rfl | rfl) | rfl) | rfl <;> decide
  · decide
  · decide
  · decide

theorem NumberText.head {literal : Text} (isNumber : NumberText literal) :
    ∃ head tail, literal = head :: tail ∧ (head = minus ∨ isDigit head = Bool.true) := by
  obtain ⟨sign, integer, fraction, exponent, rfl, isSign, isInteger, -, -⟩ := isNumber
  rcases isSign with rfl | rfl
  · rcases isInteger with rfl | ⟨first, rest, rfl, -, digit, -⟩
    · exact ⟨zero, _, rfl, Or.inr rfl⟩
    · exact ⟨first, _, rfl, Or.inr digit⟩
  · exact ⟨minus, _, rfl, Or.inl rfl⟩

variable {number}

theorem scalar_head {text : Text} {found : Value N} (isScalar : Scalar number text found) :
    ∃ head tail, text = head :: tail ∧ isBlank head = Bool.false ∧ head ≠ openBracket ∧
      head ≠ openBrace ∧ head ≠ closeBracket ∧ head ≠ closeBrace := by
  cases isScalar with
  | null => exact ⟨_, _, rfl, by decide⟩
  | true => exact ⟨_, _, rfl, by decide⟩
  | false => exact ⟨_, _, rfl, by decide⟩
  | string isBody => exact ⟨_, _, rfl, by decide⟩
  | number isNumber known =>
      obtain ⟨head, tail, rfl, first⟩ := isNumber.head
      refine ⟨head, tail, rfl, ?_⟩
      rcases first with rfl | digit
      · decide
      · simp only [isDigit, Bool.and_eq_true, decide_eq_true_eq] at digit
        simp only [isBlank, Bool.or_eq_false_iff, beq_eq_false_iff_ne]
        unfold openBracket openBrace closeBracket closeBrace
        omega

theorem scalar_reads : Reads (scalar number) (Scalar number) where
  sound := by
    intro text rest found step
    unfold scalar at step
    split at step
    · next more =>
        cases scanned : scanString more with
        | none => simp [scanned] at step
        | some string =>
            simp only [scanned, Option.map_some, Option.some.injEq, Prod.mk.injEq] at step
            obtain ⟨rfl, rfl⟩ := step
            obtain ⟨body, rfl, isBody⟩ := scanString_sound scanned
            exact ⟨quote :: (body ++ [quote]), by simp, .string isBody⟩
    · split at step
      · next null =>
          cases step
          exact ⟨_, expect_some.mp null, .null⟩
      · split at step
        · next isTrue =>
            cases step
            exact ⟨_, expect_some.mp isTrue, .true⟩
        · split at step
          · next isFalse =>
              cases step
              exact ⟨_, expect_some.mp isFalse, .false⟩
          · split at step
            · cases step
            · next literal scanned =>
                cases read : number literal.1 with
                | none => simp [read] at step
                | some known =>
                    simp only [read, Option.map_some, Option.some.injEq, Prod.mk.injEq] at step
                    obtain ⟨rfl, rfl⟩ := step
                    obtain ⟨same, isNumber⟩ := scanNumber_sound scanned
                    exact ⟨literal.1, same, .number isNumber read⟩
  complete := by
    intro read found rest isScalar ends
    have wordless : ∀ {head : Nat} {tail word : Text} {first : Nat}, first ≠ head →
        expect (first :: word) (head :: tail) = none := by
      intro head tail word first differs
      unfold expect
      rw [if_neg]
      simp [List.isPrefixOf, differs]
    cases isScalar with
    | null => rfl
    | true => rfl
    | false => rfl
    | string isBody =>
        have scanned := scanString_complete isBody rest
        rw [List.cons_append, List.append_assoc, List.singleton_append, scalar, scanned]
        rfl
    | number isNumber known =>
        obtain ⟨head, tail, rfl, first⟩ := isNumber.head
        have scanned := scanNumber_complete isNumber ends.numberEnds
        have apart : head ≠ quote ∧ 110 ≠ head ∧ 116 ≠ head ∧ 102 ≠ head := by
          rcases first with rfl | digit
          · decide
          · simp only [isDigit, Bool.and_eq_true, decide_eq_true_eq] at digit
            unfold quote
            omega
        rw [List.cons_append] at scanned ⊢
        rw [scalar]
        · rw [show expect (codes "null") (head :: (tail ++ rest)) = none from wordless apart.2.1,
            show expect (codes "true") (head :: (tail ++ rest)) = none from wordless apart.2.2.1,
            show expect (codes "false") (head :: (tail ++ rest)) = none from
              wordless apart.2.2.2, scanned]
          simp [known]
        · exact fun _ same => apart.1 (List.cons.inj same).1
  starts := by
    intro read found isScalar
    obtain ⟨head, tail, rfl, visible, -, -, ends⟩ := scalar_head isScalar
    exact ⟨head, tail, rfl, visible, ends⟩

theorem member_reads {V : Type} {item : Text → Option (V × Text)} {related : Text → V → Prop}
    (reads : Reads item related) : Reads (member item) (Member related) where
  sound := by
    intro text rest entry step
    unfold member at step
    split at step
    · next more =>
        split at step
        · cases step
        · next named scanned =>
            obtain ⟨name, split, isName⟩ := scanString_sound scanned
            obtain ⟨before, whole, blank, -⟩ := skipBlank_split named.2
            split at step
            · next tail next =>
                rw [next] at whole
                obtain ⟨after, spaced, leading, -⟩ := skipBlank_split tail
                cases found : item (skipBlank tail) with
                | none => simp [found] at step
                | some result =>
                    simp only [found, Option.map_some, Option.some.injEq, Prod.mk.injEq] at step
                    obtain ⟨rfl, rfl⟩ := step
                    obtain ⟨read, same, isValue⟩ := reads.sound found
                    refine ⟨_, ?_, name, named.1, before, after, read, isName, blank, leading,
                      isValue, rfl, rfl⟩
                    rw [split, whole, spaced, same]
                    simp
            · cases step
    · cases step
  complete := by
    rintro read entry rest ⟨name, units, before, after, text, isName, blank, leading, isValue,
      isEntry, rfl⟩ ends
    obtain ⟨head, tail, shape, visible, -⟩ := reads.starts isValue
    have scanned := scanString_complete isName
      (before ++ colon :: (after ++ (text ++ rest)))
    simp only [List.cons_append, List.append_assoc]
    rw [member, scanned]
    dsimp only
    rw [skipBlank_append blank (by simp [isBlank])]
    show (item (skipBlank (after ++ (text ++ rest)))).map _ = _
    rw [skipBlank_append leading (by simpa [shape] using visible), reads.complete isValue ends,
      Option.map_some, ← isEntry]
  starts := by
    rintro read entry ⟨name, units, before, after, text, -, -, -, -, -, rfl⟩
    exact ⟨_, _, rfl, by decide⟩

theorem value_reads (depth : Nat) : Reads (value number depth) (Denotes number depth) := by
  induction depth with
  | zero => exact scalar_reads
  | succ depth ih =>
      have members := member_reads ih
      refine ⟨?_, ?_, ?_⟩
      · intro text rest found step
        unfold value at step
        split at step
        · next inner =>
            cases read : sequence (value number depth) closeBracket inner with
            | none => simp [read] at step
            | some values =>
                simp only [read, Option.map_some, Option.some.injEq, Prod.mk.injEq] at step
                obtain ⟨rfl, rfl⟩ := step
                obtain ⟨body, rfl, listed⟩ := sequence_sound ih read
                exact ⟨openBracket :: (body ++ [closeBracket]), by simp,
                  Or.inr (Or.inl ⟨body, values.1, rfl, listed, rfl⟩)⟩
        · next inner =>
            split at step
            · cases step
            · next fields read =>
                split at step
                · next distinct =>
                    simp only [Option.some.injEq, Prod.mk.injEq] at step
                    obtain ⟨rfl, rfl⟩ := step
                    obtain ⟨body, rfl, listed⟩ := sequence_sound members read
                    exact ⟨openBrace :: (body ++ [closeBrace]), by simp,
                      Or.inr (Or.inr ⟨body, fields.1, rfl, listed, distinct, rfl⟩)⟩
                · cases step
        · obtain ⟨read, same, isScalar⟩ := scalar_reads.sound step
          exact ⟨read, same, Or.inl isScalar⟩
      · intro read found rest denotes ends
        rcases denotes with isScalar | ⟨inner, values, rfl, listed, rfl⟩ |
          ⟨inner, fields, rfl, listed, distinct, rfl⟩
        · have step := scalar_reads.complete isScalar ends
          obtain ⟨head, tail, rfl, -, notArray, notObject, -⟩ := scalar_head isScalar
          rw [List.cons_append] at step ⊢
          rw [value]
          · exact step
          · exact fun _ same => notArray (List.cons.inj same).1
          · exact fun _ same => notObject (List.cons.inj same).1
        · have step : sequence (value number depth) closeBracket
              (inner ++ closeBracket :: rest) = some (values, rest) :=
            sequence_complete ih (Or.inl rfl) listed
          rw [List.cons_append, List.append_assoc, List.singleton_append, value, step]
          rfl
        · have step : sequence (member (value number depth)) closeBrace
              (inner ++ closeBrace :: rest) = some (fields, rest) :=
            sequence_complete members (Or.inr rfl) listed
          rw [List.cons_append, List.append_assoc, List.singleton_append, value, step]
          simp [distinct]
      · intro read found denotes
        rcases denotes with isScalar | ⟨inner, values, rfl, -⟩ | ⟨inner, fields, rfl, -⟩
        · exact scalar_reads.starts isScalar
        · exact ⟨_, _, rfl, by decide⟩
        · exact ⟨_, _, rfl, by decide⟩

/-- A text is read as a value exactly when it denotes that value, with white space around it. -/
theorem parse_iff {depth : Nat} {text : Text} {found : Value N} :
    parse number depth text = some found ↔ ∃ before body after,
      text = before ++ (body ++ after) ∧ Blank before ∧ Blank after ∧
        Denotes number depth body found := by
  have reads : Reads (value number depth) (Denotes number depth) := value_reads depth
  unfold parse
  constructor
  · intro parsed
    obtain ⟨before, split, blank, -⟩ := skipBlank_split text
    split at parsed
    · cases parsed
    · next result step =>
        split at parsed
        · next empty =>
            obtain rfl := Option.some.inj parsed
            obtain ⟨read, same, denotes⟩ := reads.sound step
            obtain ⟨after, whole, trailing, -⟩ := skipBlank_split result.2
            refine ⟨before, read, result.2, ?_, blank, ?_, denotes⟩
            · rw [← same]
              exact split
            · rw [whole, empty, List.append_nil]
              exact trailing
        · cases parsed
  · rintro ⟨before, body, after, rfl, blank, trailing, denotes⟩
    obtain ⟨head, tail, shape, visible, -⟩ := reads.starts denotes
    have ends : Ends after := fun code member =>
      Or.inl (trailing code (List.mem_of_mem_head? member))
    rw [skipBlank_append blank (by simpa [shape] using visible), reads.complete denotes ends]
    dsimp only
    have rest : skipBlank after = [] := List.dropWhile_eq_nil_iff.mpr trailing
    rw [if_pos rest]

end Values

end JsonGrammar
