import Ovrly.Voice.StrictReaders

/-!
What the recogniser of `voice/VoiceProtocol.kt` accepts: the grammar of RFC 8259 with its bounds,
over the string literals that the caller's decoder takes.
-/

namespace Ovrly.Voice.StrictJson

open JsonGrammar

section Grammar

-- Which units a string literal stands for.
variable (literal : Text → Text → Prop)

def Quoted (digit : Nat → Option Nat) (text units : Text) : Prop :=
  ∃ body, text = quote :: (body ++ [quote]) ∧ StringBody digit body units

def Decoded (jsonArray : Text → Option Text) (text string : Text) : Prop :=
  (∃ units, Quoted digit16 text units) ∧
    jsonArray (openBracket :: (text ++ [closeBracket])) = some string

inductive Scalar : Text → Prop
  | true : Scalar (codes "true")
  | false : Scalar (codes "false")
  | null : Scalar (codes "null")
  | number {text : Text} : NumberText text → Scalar text
  | string {text units : Text} : literal text units → Scalar text

def Entry (related : Text → Nat → Prop) (text : Text) (entry : Text × Nat) : Prop :=
  ∃ key before after rest, literal key entry.1 ∧ Blank before ∧ Blank after ∧
    related rest entry.2 ∧ text = key ++ (before ++ colon :: (after ++ rest))

/-- A JSON value with so many values in it, itself included, on at most so many depths, and no key
twice in an object. -/
def Written : Nat → Text → Nat → Prop
  | 0, _, _ => False
  | depths + 1, text, count =>
      (Scalar literal text ∧ count = 1) ∨
      (∃ inner counts, text = openBracket :: (inner ++ [closeBracket]) ∧
        Sequence (Written depths) inner counts ∧ count = 1 + counts.sum) ∨
      ∃ inner entries, text = openBrace :: (inner ++ [closeBrace]) ∧
        Sequence (Entry literal (Written depths)) inner entries ∧
        (entries.map Prod.fst).Nodup ∧ count = 1 + (entries.map Prod.snd).sum

/-- An object within the bounds of `StrictJson`, with white space around it. -/
def BoundedObject (source : Text) : Prop :=
  ∃ before text after count, source = before ++ (text ++ after) ∧ Blank before ∧ Blank after ∧
    text.head? = some openBrace ∧ Written literal depths text count ∧ count ≤ 512

end Grammar

section Literals

variable {jsonArray : Text → Option Text} {text rest key read : Text}

theorem string_ok : string jsonArray text = .ok (key, rest) ↔
    ∃ after body, text = quote :: after ∧ scan after = some (body, rest) ∧
      jsonArray (openBracket :: quote :: (body ++ [closeBracket])) = some key := by
  simp only [string, require, Result.bind_ok, orThrow_ok, @expect_ok _ _ quote (by decide)]
  constructor
  · rintro ⟨after, rfl, ⟨body, tail⟩, scanned, decoded, known, found⟩
    cases found
    exact ⟨after, body, rfl, scanned, known⟩
  · rintro ⟨after, body, rfl, scanned, known⟩
    exact ⟨after, rfl, (body, rest), scanned, key, known, rfl⟩

theorem string_sound (found : string jsonArray text = .ok (key, rest)) :
    ∃ read, text = read ++ rest ∧ Decoded jsonArray read key := by
  obtain ⟨after, body, rfl, scanned, known⟩ := string_ok.mp found
  obtain ⟨inner, units, rfl, rfl, isBody⟩ := scan_sound scanned
  exact ⟨quote :: (inner ++ [quote]), by simp, ⟨units, inner, rfl, isBody⟩, known⟩

theorem string_complete (decoded : Decoded jsonArray read key) (rest : Text) :
    string jsonArray (read ++ rest) = .ok (key, rest) := by
  obtain ⟨⟨units, body, rfl, isBody⟩, known⟩ := decoded
  exact string_ok.mpr ⟨body ++ quote :: rest, body ++ [quote], by simp,
    scan_complete isBody rest, known⟩

theorem string_halts (text : Text) : string jsonArray text ≠ .error .fuel := by
  intro spent
  rcases Result.bind_fuel.mp spent with opened | ⟨after, -, scanned⟩
  · exact expect_halts _ _ opened
  · rcases Result.bind_fuel.mp scanned with missing | ⟨found, -, decoded⟩
    · exact orThrow_fuel (by decide) missing
    · rcases Result.bind_fuel.mp decoded with unknown | ⟨_, -, returned⟩
      · exact orThrow_fuel (by decide) unknown
      · cases returned

theorem Decoded.head (decoded : Decoded jsonArray read key) :
    ∃ tail, read = quote :: tail := by
  obtain ⟨⟨_, body, rfl, _⟩, _⟩ := decoded
  exact ⟨_, rfl⟩

end Literals

structure Recognises (item : Item) (related : Text → Nat → Prop) : Prop where
  sound : ∀ {cursor next}, item cursor = .ok next → ∃ before text count,
    cursor.rest = before ++ (text ++ next.rest) ∧ Blank before ∧ related text count ∧
      next.values = cursor.values + count ∧ next.values ≤ 512
  complete : ∀ {before text rest values count}, Blank before → related text count → Ends rest →
    values + count ≤ 512 → item ⟨before ++ (text ++ rest), values⟩ = .ok ⟨rest, values + count⟩
  starts : ∀ {text count}, related text count → ∃ head tail, text = head :: tail ∧
    isBlank head = false ∧ head ≠ closeBracket ∧ head ≠ closeBrace
  halts : ∀ cursor, item cursor ≠ .error .fuel

section Loops

variable {item : Item} {related : Text → Nat → Prop} {jsonArray : Text → Option Text}
  {fuel : Nat} {cursor next : Cursor}

theorem Recognises.shorter (recognises : Recognises item related)
    (found : item cursor = .ok next) : next.rest.length < cursor.rest.length := by
  obtain ⟨before, text, count, split, -, isValue, -⟩ := recognises.sound found
  obtain ⟨head, tail, rfl, -⟩ := recognises.starts isValue
  rw [split]
  simp only [List.length_append, List.length_cons]
  omega

theorem whitespace_length (text : Text) : (whitespace text).length ≤ text.length :=
  (List.dropWhile_sublist _).length_le

theorem closeOr_ok {close : Nat} {again : Item} {last : Cursor} (present : close ≠ 0)
    (closes : close ≠ comma) : closeOr close again cursor = .ok last ↔
      (∃ rest, whitespace cursor.rest = close :: rest ∧ last = ⟨rest, cursor.values⟩) ∨
        ∃ rest, whitespace cursor.rest = comma :: rest ∧
          again ⟨rest, cursor.values⟩ = .ok last := by
  unfold closeOr
  dsimp only
  split
  · next rest closed =>
      rw [take_some present] at closed
      constructor
      · intro found
        cases found
        exact .inl ⟨rest, closed, rfl⟩
      · rintro (⟨other, same, rfl⟩ | ⟨other, same, -⟩)
        · cases closed.symm.trans same
          rfl
        · exact absurd (List.cons.inj (closed.symm.trans same)).1 closes
  · next unclosed =>
      rw [Result.bind_ok]
      simp only [@expect_ok _ _ comma (by decide)]
      constructor
      · rintro ⟨rest, same, found⟩
        exact .inr ⟨rest, same, found⟩
      · rintro (⟨rest, same, -⟩ | ⟨rest, same, found⟩)
        · rw [same, take_cons] at unclosed
          cases unclosed
        · exact ⟨rest, same, found⟩

theorem closeOr_fuel {close : Nat} {again : Item}
    (spent : closeOr close again cursor = .error .fuel) :
    ∃ rest, whitespace cursor.rest = comma :: rest ∧
      again ⟨rest, cursor.values⟩ = .error .fuel := by
  unfold closeOr at spent
  dsimp only at spent
  split at spent
  · cases spent
  · rcases Result.bind_fuel.mp spent with missing | ⟨rest, separated, loop⟩
    · exact absurd missing (expect_halts _ _)
    · exact ⟨rest, (expect_ok (by decide)).mp separated, loop⟩

/-- What one turn of the loop of `'['` does. -/
theorem elements_ok {last : Cursor} : elements item (fuel + 1) cursor = .ok last ↔
    ∃ next, item cursor = .ok next ∧
      ((∃ rest, whitespace next.rest = closeBracket :: rest ∧ last = ⟨rest, next.values⟩) ∨
        ∃ rest, whitespace next.rest = comma :: rest ∧
          elements item fuel ⟨rest, next.values⟩ = .ok last) := by
  rw [elements, Result.bind_ok]
  exact exists_congr fun next => and_congr_right fun _ => closeOr_ok (by decide) (by decide)

theorem members_ok {keys : List Text} {last : Cursor} :
    members jsonArray item (fuel + 1) keys cursor = .ok last ↔
      ∃ key after rest next, string jsonArray (whitespace cursor.rest) = .ok (key, after) ∧
        key ∉ keys ∧ whitespace after = colon :: rest ∧ item ⟨rest, cursor.values⟩ = .ok next ∧
        ((∃ rest, whitespace next.rest = closeBrace :: rest ∧ last = ⟨rest, next.values⟩) ∨
          ∃ rest, whitespace next.rest = comma :: rest ∧
            members jsonArray item fuel (key :: keys) ⟨rest, next.values⟩ = .ok last) := by
  rw [members, Result.bind_ok]
  constructor
  · rintro ⟨⟨key, after⟩, named, found⟩
    dsimp only at found
    split at found
    · cases found
    · next fresh =>
        obtain ⟨rest, separated, found⟩ := Result.bind_ok.mp found
        obtain ⟨next, step, found⟩ := Result.bind_ok.mp found
        rw [List.contains_iff_mem] at fresh
        exact ⟨key, after, rest, next, named, fresh, (expect_ok (by decide)).mp separated, step,
          (closeOr_ok (by decide) (by decide)).mp found⟩
  · rintro ⟨key, after, rest, next, named, fresh, separated, step, found⟩
    refine ⟨(key, after), named, ?_⟩
    dsimp only
    rw [← List.contains_iff_mem] at fresh
    rw [if_neg fresh, Result.bind_ok]
    refine ⟨rest, (expect_ok (by decide)).mpr separated, ?_⟩
    rw [Result.bind_ok]
    exact ⟨next, step, (closeOr_ok (by decide) (by decide)).mpr found⟩

theorem elements_sound (recognises : Recognises item related)
    (found : elements item fuel cursor = .ok next) :
    ∃ inner counts, cursor.rest = inner ++ closeBracket :: next.rest ∧
      Elements related inner counts ∧ next.values = cursor.values + counts.sum ∧
      next.values ≤ 512 := by
  induction fuel generalizing cursor with
  | zero => cases found
  | succ fuel ih =>
      obtain ⟨middle, step, closes | continues⟩ := elements_ok.mp found
      · obtain ⟨rest, closed, rfl⟩ := closes
        obtain ⟨before, text, count, split, blank, isValue, counted, few⟩ :=
          recognises.sound step
        obtain ⟨after, spaced, trailing, -⟩ := skipBlank_split middle.rest
        refine ⟨before ++ (text ++ after), [count], ?_, .last blank isValue trailing, ?_, few⟩
        · rw [split, spaced, show skipBlank middle.rest = closeBracket :: rest from closed]
          simp
        · simpa using counted
      · obtain ⟨rest, separated, later⟩ := continues
        obtain ⟨before, text, count, split, blank, isValue, counted, few⟩ :=
          recognises.sound step
        obtain ⟨after, spaced, trailing, -⟩ := skipBlank_split middle.rest
        obtain ⟨inner, counts, same, listed, total, within⟩ := ih later
        refine ⟨before ++ (text ++ (after ++ comma :: inner)), count :: counts, ?_,
          .more blank isValue trailing listed, ?_, within⟩
        · rw [split, spaced, show skipBlank middle.rest = comma :: rest from separated,
            show rest = inner ++ closeBracket :: next.rest from same]
          simp
        · rw [total, List.sum_cons]
          dsimp only
          omega

theorem whitespace_blank {after rest : Text} {head : Nat} (blank : Blank after)
    (visible : isBlank head = false) : whitespace (after ++ head :: rest) = head :: rest :=
  skipBlank_append blank (by simpa using visible)

theorem elements_complete (recognises : Recognises item related) {inner : Text}
    {counts : List Nat} (listed : Elements related inner counts) {rest : Text} {values : Nat}
    (enough : inner.length < fuel) (few : values + counts.sum ≤ 512) :
    elements item fuel ⟨inner ++ closeBracket :: rest, values⟩ =
      .ok ⟨rest, values + counts.sum⟩ := by
  induction listed generalizing fuel values with
  | last before isValue after =>
      cases fuel with
      | zero => exact absurd enough (Nat.not_lt_zero _)
      | succ fuel =>
          simp only [List.append_assoc, List.sum_cons, List.sum_nil, Nat.add_zero] at few ⊢
          exact elements_ok.mpr ⟨_, recognises.complete before isValue
            (ends_of_blank after (.inr (.inl rfl))) few,
            .inl ⟨rest, whitespace_blank after rfl, rfl⟩⟩
  | more before isValue after _ ih =>
      cases fuel with
      | zero => exact absurd enough (Nat.not_lt_zero _)
      | succ fuel =>
          simp only [List.append_assoc, List.cons_append, List.sum_cons, List.length_append,
            List.length_cons] at few enough ⊢
          refine elements_ok.mpr ⟨_, recognises.complete before isValue
            (ends_of_blank after (.inl rfl)) (by omega),
            .inr ⟨_, whitespace_blank after rfl, ?_⟩⟩
          rw [← Nat.add_assoc]
          exact ih (by omega) (by dsimp only; omega)

theorem elements_halts (recognises : Recognises item related)
    (enough : cursor.rest.length < fuel) : elements item fuel cursor ≠ .error .fuel := by
  induction fuel generalizing cursor with
  | zero => omega
  | succ fuel ih =>
      intro spent
      rcases Result.bind_fuel.mp spent with first | ⟨next, step, later⟩
      · exact recognises.halts cursor first
      · obtain ⟨rest, separated, loop⟩ := closeOr_fuel later
        have shorter := recognises.shorter step
        have bound := whitespace_length next.rest
        rw [separated, List.length_cons] at bound
        exact ih (by dsimp only; omega) loop

/-- Whether the keys of a loop are all new and distinct. -/
def Fresh (keys : List Text) (entries : List (Text × Nat)) : Prop :=
  (entries.map Prod.fst).Nodup ∧ ∀ entry ∈ entries, entry.1 ∉ keys

theorem fresh_cons {keys : List Text} {entry : Text × Nat} {entries : List (Text × Nat)} :
    Fresh keys (entry :: entries) ↔ entry.1 ∉ keys ∧ Fresh (entry.1 :: keys) entries := by
  simp only [Fresh, List.map_cons, List.nodup_cons, List.forall_mem_cons]
  simp only [List.mem_map, List.mem_cons, not_or, not_exists, not_and]
  constructor
  · rintro ⟨⟨apart, distinct⟩, first, others⟩
    exact ⟨first, distinct, fun other member => ⟨fun same => apart other member same,
      others other member⟩⟩
  · rintro ⟨first, distinct, others⟩
    exact ⟨⟨fun other member => (others other member).1, distinct⟩, first,
      fun other member => (others other member).2⟩

theorem members_sound (recognises : Recognises item related) {keys : List Text}
    (found : members jsonArray item fuel keys cursor = .ok next) :
    ∃ inner entries, cursor.rest = inner ++ closeBrace :: next.rest ∧
      Elements (Entry (Decoded jsonArray) related) inner entries ∧ Fresh keys entries ∧
      next.values = cursor.values + (entries.map Prod.snd).sum ∧ next.values ≤ 512 := by
  induction fuel generalizing cursor keys with
  | zero => cases found
  | succ fuel ih =>
      obtain ⟨key, named, valued, middle, isKey, fresh, separated, step, turn⟩ :=
        members_ok.mp found
      obtain ⟨front, opened, leading, -⟩ := skipBlank_split cursor.rest
      obtain ⟨name, split, decoded⟩ := string_sound isKey
      obtain ⟨before, spaced, blank, -⟩ := skipBlank_split named
      obtain ⟨after, text, count, whole, trailing, isValue, counted, few⟩ :=
        recognises.sound step
      obtain ⟨last, ended, finish, -⟩ := skipBlank_split middle.rest
      have entry : Entry (Decoded jsonArray) related
          (name ++ (before ++ colon :: (after ++ text))) (key, count) :=
        ⟨name, before, after, text, decoded, blank, trailing, isValue, rfl⟩
      have same : cursor.rest =
          front ++ (name ++ (before ++ colon :: (after ++ text)) ++ (last ++
            whitespace middle.rest)) := by
        rw [opened, show skipBlank cursor.rest = name ++ named from split, spaced,
          show skipBlank named = colon :: valued from separated,
          show valued = after ++ (text ++ middle.rest) from whole]
        conv_lhs => rw [ended]
        simp [whitespace]
      rcases turn with ⟨rest, closed, rfl⟩ | ⟨rest, continued, later⟩
      · refine ⟨_, [(key, count)], ?_, .last leading entry finish,
          fresh_cons.mpr ⟨fresh, by simp [Fresh]⟩, ?_, few⟩
        · rw [same, closed]
          simp
        · simpa using counted
      · obtain ⟨inner, entries, shape, listed, others, total, within⟩ := ih later
        refine ⟨_, (key, count) :: entries, ?_, .more leading entry finish listed,
          fresh_cons.mpr ⟨fresh, others⟩, ?_, within⟩
        · rw [same, continued, show rest = inner ++ closeBrace :: next.rest from shape]
          simp
        · rw [total, List.map_cons, List.sum_cons]
          dsimp only at counted ⊢
          omega

theorem members_complete (recognises : Recognises item related) {inner : Text}
    {entries : List (Text × Nat)}
    (listed : Elements (Entry (Decoded jsonArray) related) inner entries) {keys : List Text}
    {rest : Text} {values : Nat} (fresh : Fresh keys entries) (enough : inner.length < fuel)
    (few : values + (entries.map Prod.snd).sum ≤ 512) :
    members jsonArray item fuel keys ⟨inner ++ closeBrace :: rest, values⟩ =
      .ok ⟨rest, values + (entries.map Prod.snd).sum⟩ := by
  induction listed generalizing fuel keys values with
  | last front isEntry finish =>
      obtain ⟨key, before, after, text, decoded, blank, trailing, isValue, rfl⟩ := isEntry
      cases fuel with
      | zero => exact absurd enough (Nat.not_lt_zero _)
      | succ fuel =>
          obtain ⟨tail, shape⟩ := decoded.head
          simp only [List.append_assoc, List.cons_append, List.map_cons, List.map_nil,
            List.sum_cons, List.sum_nil, Nat.add_zero] at few ⊢
          refine members_ok.mpr ⟨_, _, _, _, ?_, (fresh_cons.mp fresh).1,
            whitespace_blank blank rfl, recognises.complete trailing isValue
              (ends_of_blank finish (.inr (.inr rfl))) few,
            .inl ⟨rest, whitespace_blank finish rfl, rfl⟩⟩
          rw [← string_complete decoded, shape, List.cons_append, whitespace_blank front rfl]
  | @more _ _ _ others _ _ front isEntry finish _ ih =>
      obtain ⟨key, before, after, text, decoded, blank, trailing, isValue, rfl⟩ := isEntry
      cases fuel with
      | zero => exact absurd enough (Nat.not_lt_zero _)
      | succ fuel =>
          obtain ⟨tail, shape⟩ := decoded.head
          simp only [List.append_assoc, List.cons_append, List.map_cons, List.sum_cons,
            List.length_append, List.length_cons] at few enough ⊢
          refine members_ok.mpr ⟨_, _, _, _, ?_, (fresh_cons.mp fresh).1,
            whitespace_blank blank rfl, recognises.complete trailing isValue
              (ends_of_blank finish (.inl rfl)) (by dsimp only; omega),
            .inr ⟨others ++ closeBrace :: rest, whitespace_blank finish rfl, ?_⟩⟩
          · rw [← string_complete decoded, shape, List.cons_append, whitespace_blank front rfl]
          · rw [← Nat.add_assoc]
            exact ih (fresh_cons.mp fresh).2 (by omega) (by dsimp only; omega)

theorem members_halts (recognises : Recognises item related) {keys : List Text}
    (enough : cursor.rest.length < fuel) :
    members jsonArray item fuel keys cursor ≠ .error .fuel := by
  induction fuel generalizing cursor keys with
  | zero => omega
  | succ fuel ih =>
      intro spent
      rcases Result.bind_fuel.mp spent with unnamed | ⟨key, named, spent⟩
      · exact string_halts _ unnamed
      · split at spent
        · cases spent
        · rcases Result.bind_fuel.mp spent with missing | ⟨valued, separated, spent⟩
          · exact expect_halts _ _ missing
          · rcases Result.bind_fuel.mp spent with first | ⟨next, step, later⟩
            · exact recognises.halts _ first
            · obtain ⟨rest, continued, loop⟩ := closeOr_fuel later
              obtain ⟨name, split, decoded⟩ := string_sound named
              rw [expect_ok (by decide)] at separated
              have shorter := recognises.shorter step
              have opened := whitespace_length cursor.rest
              have spaced := whitespace_length key.2
              have bound := whitespace_length next.rest
              rw [continued, List.length_cons] at bound
              rw [separated, List.length_cons] at spaced
              rw [split, List.length_append] at opened
              exact ih (by dsimp only at shorter ⊢; omega) loop

theorem skipBlank_elements {V : Type} {related : Text → V → Prop}
    (starts : ∀ {text value}, related text value → ∃ head tail, text = head :: tail ∧
      isBlank head = false ∧ head ≠ closeBracket ∧ head ≠ closeBrace)
    {text : Text} {values : List V} (listed : Elements related text values) :
    ∃ head tail, (∀ rest, skipBlank (text ++ rest) = head :: (tail ++ rest)) ∧
      head ≠ closeBracket ∧ head ≠ closeBrace ∧ Elements related (head :: tail) values := by
  cases listed with
  | last before isValue after =>
      obtain ⟨head, tail, rfl, visible, notBracket, notBrace⟩ := starts isValue
      refine ⟨head, _, fun rest => ?_, notBracket, notBrace,
        .last (by simp [Blank] : Blank []) isValue after⟩
      rw [List.append_assoc]
      exact skipBlank_append before (by simpa using visible)
  | more before isValue after others =>
      obtain ⟨head, tail, rfl, visible, notBracket, notBrace⟩ := starts isValue
      refine ⟨head, _, fun rest => ?_, notBracket, notBrace,
        .more (by simp [Blank] : Blank []) isValue after others⟩
      rw [List.append_assoc]
      exact skipBlank_append before (by simpa using visible)

end Loops

section Values

variable {jsonArray : Text → Option Text} {text rest read : Text}

theorem scalar_starts (isScalar : Scalar (Decoded jsonArray) read) :
    ∃ head tail, read = head :: tail ∧ isBlank head = false ∧ head ≠ openBracket ∧
      head ≠ openBrace ∧ head ≠ closeBracket ∧ head ≠ closeBrace := by
  cases isScalar with
  | true => exact ⟨_, _, rfl, by decide⟩
  | false => exact ⟨_, _, rfl, by decide⟩
  | null => exact ⟨_, _, rfl, by decide⟩
  | string decoded =>
      obtain ⟨tail, rfl⟩ := decoded.head
      exact ⟨_, _, rfl, by decide⟩
  | number isNumber =>
      obtain ⟨head, tail, rfl, first⟩ := isNumber.head
      refine ⟨head, tail, rfl, ?_⟩
      rcases first with rfl | digit
      · decide
      · simp only [isDigit, Bool.and_eq_true, decide_eq_true_eq] at digit
        simp only [isBlank, Bool.or_eq_false_iff, beq_eq_false_iff_ne]
        unfold openBracket openBrace closeBracket closeBrace
        omega

theorem scalar_sound (found : scalar jsonArray text = .ok rest) :
    ∃ read, text = read ++ rest ∧ Scalar (Decoded jsonArray) read := by
  unfold scalar at found
  split_ifs at found
  · cases quoted : string jsonArray text with
    | error fault =>
        rw [quoted] at found
        cases found
    | ok pair =>
        obtain ⟨key, after⟩ := pair
        rw [quoted] at found
        cases found
        obtain ⟨read, split, decoded⟩ := string_sound quoted
        exact ⟨read, split, .string decoded⟩
  · exact ⟨_, literal_ok.mp found, .true⟩
  · exact ⟨_, literal_ok.mp found, .false⟩
  · exact ⟨_, literal_ok.mp found, .null⟩
  · obtain ⟨read, split, isNumber⟩ := number_sound (orThrow_ok.mp found)
    exact ⟨read, split, .number isNumber⟩

theorem scalar_complete (isScalar : Scalar (Decoded jsonArray) read) (ends : Ends rest) :
    scalar jsonArray (read ++ rest) = .ok rest := by
  cases isScalar with
  | true => rfl
  | false => rfl
  | null => rfl
  | string decoded =>
      obtain ⟨tail, shape⟩ := decoded.head
      have first : peek (read ++ rest) = quote := by rw [shape]; rfl
      rw [scalar, if_pos first, string_complete decoded]
      rfl
  | number isNumber =>
      obtain ⟨head, tail, shape, first⟩ := isNumber.head
      have apart : head ≠ quote ∧ head ≠ 116 ∧ head ≠ 102 ∧ head ≠ 110 := by
        rcases first with rfl | digit
        · decide
        · simp only [isDigit, Bool.and_eq_true, decide_eq_true_eq] at digit
          unfold quote
          omega
      have seen : peek (read ++ rest) = head := by rw [shape]; rfl
      rw [scalar, seen, if_neg apart.1, if_neg apart.2.1, if_neg apart.2.2.1,
        if_neg apart.2.2.2, require, orThrow_ok]
      exact number_complete isNumber ends.numberEnds

theorem scalar_halts (text : Text) : scalar jsonArray text ≠ .error .fuel := by
  intro spent
  unfold scalar at spent
  split_ifs at spent
  · cases quoted : string jsonArray text with
    | error fault =>
        rw [quoted] at spent
        cases spent
        exact string_halts text quoted
    | ok pair =>
        rw [quoted] at spent
        cases spent
  · exact orThrow_fuel (by decide) spent
  · exact orThrow_fuel (by decide) spent
  · exact orThrow_fuel (by decide) spent
  · exact orThrow_fuel (by decide) spent

theorem Entry.starts {related : Text → Nat → Prop} {entry : Text × Nat}
    (isEntry : Entry (Decoded jsonArray) related text entry) :
    ∃ head tail, text = head :: tail ∧ isBlank head = false ∧ head ≠ closeBracket ∧
      head ≠ closeBrace := by
  obtain ⟨key, before, after, value, decoded, -, -, -, rfl⟩ := isEntry
  obtain ⟨tail, rfl⟩ := decoded.head
  exact ⟨_, _, rfl, by decide⟩

theorem Written.starts {depths count : Nat}
    (written : Written (Decoded jsonArray) depths text count) :
    ∃ head tail, text = head :: tail ∧ isBlank head = false ∧ head ≠ closeBracket ∧
      head ≠ closeBrace := by
  cases depths with
  | zero => exact written.elim
  | succ depths =>
      rcases written with ⟨isScalar, -⟩ | ⟨inner, counts, rfl, -⟩ | ⟨inner, entries, rfl, -⟩
      · obtain ⟨head, tail, rfl, visible, -, -, ends⟩ := scalar_starts isScalar
        exact ⟨head, tail, rfl, visible, ends⟩
      · exact ⟨_, _, rfl, by decide⟩
      · exact ⟨_, _, rfl, by decide⟩

variable {depths : Nat} {cursor next : Cursor}

theorem value_sound (ih : Recognises (value jsonArray depths) (Written (Decoded jsonArray) depths))
    (found : value jsonArray (depths + 1) cursor = .ok next) : ∃ before text count,
      cursor.rest = before ++ (text ++ next.rest) ∧ Blank before ∧
        Written (Decoded jsonArray) (depths + 1) text count ∧
        next.values = cursor.values + count ∧ next.values ≤ 512 := by
  obtain ⟨before, split, blank, -⟩ := skipBlank_split cursor.rest
  unfold value at found
  dsimp only at found
  split at found
  · cases found
  · next few =>
      split at found
      · next braced =>
          obtain ⟨after, opened⟩ := (peek_eq (by decide)).mp braced
          rw [opened, List.tail_cons] at found
          obtain ⟨spaces, spaced, blanks, -⟩ := skipBlank_split after
          rw [show skipBlank cursor.rest = openBrace :: after from opened, spaced] at split
          split at found
          · next rest closed =>
              cases found
              rw [take_some (by decide)] at closed
              refine ⟨before, openBrace :: (spaces ++ [closeBrace]), 1, ?_, blank,
                .inr (.inr ⟨spaces, [], rfl, .inl ⟨blanks, rfl⟩, List.nodup_nil, rfl⟩), rfl,
                by dsimp only; omega⟩
              rw [split, show skipBlank after = closeBrace :: rest from closed]
              simp
          · obtain ⟨inner, entries, same, listed, fresh, total, within⟩ :=
              members_sound ih found
            refine ⟨before, openBrace :: (spaces ++ inner ++ [closeBrace]), _, ?_, blank,
              .inr (.inr ⟨spaces ++ inner, entries, rfl, .inr (listed.blank_append blanks),
                fresh.1, rfl⟩), ?_, within⟩
            · rw [split, show skipBlank after = inner ++ closeBrace :: next.rest from same]
              simp
            · rw [total, Nat.add_assoc]
      · split at found
        · next bracketed =>
            obtain ⟨after, opened⟩ := (peek_eq (by decide)).mp bracketed
            rw [opened, List.tail_cons] at found
            obtain ⟨spaces, spaced, blanks, -⟩ := skipBlank_split after
            rw [show skipBlank cursor.rest = openBracket :: after from opened, spaced] at split
            split at found
            · next rest closed =>
                cases found
                rw [take_some (by decide)] at closed
                refine ⟨before, openBracket :: (spaces ++ [closeBracket]), 1, ?_, blank,
                  .inr (.inl ⟨spaces, [], rfl, .inl ⟨blanks, rfl⟩, rfl⟩), rfl,
                  by dsimp only; omega⟩
                rw [split, show skipBlank after = closeBracket :: rest from closed]
                simp
            · obtain ⟨inner, counts, same, listed, total, within⟩ := elements_sound ih found
              refine ⟨before, openBracket :: (spaces ++ inner ++ [closeBracket]), _, ?_, blank,
                .inr (.inl ⟨spaces ++ inner, counts, rfl, .inr (listed.blank_append blanks),
                  rfl⟩), ?_, within⟩
              · rw [split, show skipBlank after = inner ++ closeBracket :: next.rest from same]
                simp
              · rw [total, Nat.add_assoc]
        · obtain ⟨rest, read, found⟩ := Result.bind_ok.mp found
          cases found
          obtain ⟨text, same, isScalar⟩ := scalar_sound read
          refine ⟨before, text, 1, ?_, blank, .inl ⟨isScalar, rfl⟩, rfl, by dsimp only; omega⟩
          rw [← same]
          exact split

variable {before after : Text} {values count : Nat}

theorem value_brace (blank : Blank before) (few : values + 1 ≤ 512) :
    value jsonArray (depths + 1) ⟨before ++ openBrace :: after, values⟩ =
      match take closeBrace (whitespace after) with
      | some rest => .ok ⟨rest, values + 1⟩
      | none => members jsonArray (value jsonArray depths) ((whitespace after).length + 1) []
          ⟨whitespace after, values + 1⟩ := by
  rw [value]
  dsimp only
  rw [if_neg (by omega), whitespace_blank blank rfl]
  rfl

theorem value_bracket (blank : Blank before) (few : values + 1 ≤ 512) :
    value jsonArray (depths + 1) ⟨before ++ openBracket :: after, values⟩ =
      match take closeBracket (whitespace after) with
      | some rest => .ok ⟨rest, values + 1⟩
      | none => elements (value jsonArray depths) ((whitespace after).length + 1)
          ⟨whitespace after, values + 1⟩ := by
  rw [value]
  dsimp only
  rw [if_neg (by omega), whitespace_blank blank rfl]
  rfl

theorem value_complete
    (ih : Recognises (value jsonArray depths) (Written (Decoded jsonArray) depths))
    (blank : Blank before) (written : Written (Decoded jsonArray) (depths + 1) text count)
    (ends : Ends rest) (few : values + count ≤ 512) :
    value jsonArray (depths + 1) ⟨before ++ (text ++ rest), values⟩ =
      .ok ⟨rest, values + count⟩ := by
  rcases written with ⟨isScalar, rfl⟩ | ⟨inner, counts, rfl, isSequence, rfl⟩ |
    ⟨inner, entries, rfl, isSequence, distinct, rfl⟩
  · obtain ⟨head, tail, shape, visible, notBracket, notBrace, -⟩ := scalar_starts isScalar
    have spaced : whitespace (before ++ (text ++ rest)) = text ++ rest := by
      rw [shape, List.cons_append, whitespace_blank blank visible]
    have seen : peek (text ++ rest) = head := by rw [shape]; rfl
    rw [value]
    dsimp only
    rw [if_neg (by omega), spaced, seen, if_neg notBrace, if_neg notBracket,
      scalar_complete isScalar ends]
    rfl
  · have step : value jsonArray (depths + 1)
        ⟨before ++ openBracket :: (inner ++ closeBracket :: rest), values⟩ = _ :=
      value_bracket blank (by omega)
    simp only [List.cons_append, List.append_assoc, List.nil_append]
    rw [step]
    rcases isSequence with ⟨spaces, rfl⟩ | listed
    · rw [whitespace_blank spaces rfl, take_cons]
      rfl
    · obtain ⟨head, tail, seen, notBracket, -, listed⟩ :=
        skipBlank_elements (Recognises.starts ih) listed
      rw [show whitespace (inner ++ closeBracket :: rest) =
        head :: (tail ++ closeBracket :: rest) from seen _,
        take_none (by simpa using notBracket) (by decide)]
      rw [← Nat.add_assoc]
      exact elements_complete ih listed (by simp) (by omega)
  · have step : value jsonArray (depths + 1)
        ⟨before ++ openBrace :: (inner ++ closeBrace :: rest), values⟩ = _ :=
      value_brace blank (by omega)
    simp only [List.cons_append, List.append_assoc, List.nil_append]
    rw [step]
    rcases isSequence with ⟨spaces, rfl⟩ | listed
    · rw [whitespace_blank spaces rfl, take_cons]
      rfl
    · obtain ⟨head, tail, seen, -, notBrace, listed⟩ :=
        skipBlank_elements Entry.starts listed
      rw [show whitespace (inner ++ closeBrace :: rest) =
        head :: (tail ++ closeBrace :: rest) from seen _,
        take_none (by simpa using notBrace) (by decide)]
      rw [← Nat.add_assoc]
      exact members_complete ih listed ⟨distinct, by simp⟩ (by simp) (by omega)

theorem value_halts (ih : Recognises (value jsonArray depths) (Written (Decoded jsonArray) depths))
    (cursor : Cursor) : value jsonArray (depths + 1) cursor ≠ .error .fuel := by
  intro spent
  unfold value at spent
  dsimp only at spent
  split at spent
  · cases spent
  · split at spent
    · split at spent
      · cases spent
      · exact members_halts ih (Nat.lt_succ_self _) spent
    · split at spent
      · split at spent
        · cases spent
        · exact elements_halts ih (Nat.lt_succ_self _) spent
      · rcases Result.bind_fuel.mp spent with first | ⟨_, -, returned⟩
        · exact scalar_halts _ first
        · cases returned

theorem value_recognises (jsonArray : Text → Option Text) (depths : Nat) :
    Recognises (value jsonArray depths) (Written (Decoded jsonArray) depths) := by
  induction depths with
  | zero =>
      refine ⟨fun found => ?_, fun _ written => written.elim, fun written => written.elim,
        fun cursor spent => ?_⟩
      · cases found
      · cases spent
  | succ depths ih => exact ⟨value_sound ih, value_complete ih, Written.starts, value_halts ih⟩

/-- The recogniser accepts the bounded objects of the literals that the decoder takes. -/
theorem validate_ok {source : Text} :
    validate jsonArray source = .ok () ↔ BoundedObject (Decoded jsonArray) source := by
  have recognises : Recognises (value jsonArray _) (Written (Decoded jsonArray) _) :=
    value_recognises jsonArray StrictJson.depths
  constructor
  · intro accepted
    obtain ⟨before, split, blank, -⟩ := skipBlank_split source
    unfold validate at accepted
    dsimp only at accepted
    split at accepted
    · cases accepted
    · next braced =>
        obtain ⟨inner, opened⟩ := (peek_eq (by decide)).mp (not_not.mp braced)
        obtain ⟨next, found, ended⟩ := Result.bind_ok.mp accepted
        split at ended
        · next finished =>
            obtain ⟨spaces, text, count, same, blanks, written, counted, few⟩ :=
              recognises.sound found
            obtain ⟨after, trailing, finish, -⟩ := skipBlank_split next.rest
            rw [show skipBlank next.rest = [] from finished, List.append_nil] at trailing
            have visible : whitespace source = openBrace :: inner := opened
            obtain ⟨head, tail, rfl, seen, -⟩ := written.starts
            -- Nothing stands before the brace that the first white space ran up to.
            have first : spaces = [] ∧ head = openBrace := by
              rw [visible] at same
              cases spaces with
              | nil => exact ⟨rfl, (List.cons.inj same).1.symm⟩
              | cons space spaces =>
                  have isSpace : openBrace = space := (List.cons.inj same).1
                  exact absurd (blanks space List.mem_cons_self) (by rw [← isSpace]; decide)
            obtain ⟨rfl, rfl⟩ := first
            refine ⟨before, openBrace :: tail, next.rest, count, ?_, blank, ?_, rfl, written, ?_⟩
            · rw [split, show skipBlank source = _ from same]
              rfl
            · rw [trailing]
              exact finish
            · dsimp only at counted
              omega
        · cases ended
  · rintro ⟨before, text, after, count, rfl, blank, trailing, braced, written, few⟩
    obtain ⟨head, tail, rfl, visible, -⟩ := written.starts
    obtain rfl : head = openBrace := by simpa using braced
    have spaced :
        whitespace (before ++ (openBrace :: tail ++ after)) = openBrace :: tail ++ after :=
      whitespace_blank blank rfl
    have ends : Ends after := fun unit member => .inl (trailing unit (List.mem_of_mem_head? member))
    have found := recognises.complete (by simp [Blank] : Blank []) written ends
      (by omega : 0 + count ≤ 512)
    have finished : whitespace after = [] := List.dropWhile_eq_nil_iff.mpr trailing
    rw [validate, spaced]
    rw [if_neg (by simp [peek]), Result.bind_ok]
    exact ⟨_, found, by simp [finished]; rfl⟩

theorem validate_halts (source : Text) : validate jsonArray source ≠ .error .fuel := by
  intro spent
  unfold validate at spent
  dsimp only at spent
  split at spent
  · cases spent
  · rcases Result.bind_fuel.mp spent with first | ⟨next, -, ended⟩
    · exact (value_recognises jsonArray _).halts _ first
    · split at ended
      · cases ended
      · cases ended

end Values

end Ovrly.Voice.StrictJson
