import Ovrly.Completions.Scan

/-!
Which completions hold JSON: thinking blocks after prose, prose, one JSON object and at most one
closing fence.
-/

namespace Ovrly.Completions

open JsonGrammar (Text Value codes openBrace closeBrace)
open TextSearch (Contains)
open Ovrly.Extraction (ExtractionInvalid)

variable {N : Type} (number : Text → Option N) (depth : Nat)

/-- Prose, the JSON object, and what may follow it. -/
structure Final (text : Text) (value : Value N) (prose json tail : Text) : Prop where
  split : text = prose ++ (json ++ tail)
  braceless : openBrace ∉ prose
  unopened : ¬ Contains openTag prose
  unclosed : ¬ Contains closeTag prose
  object : json.head? = some openBrace
  denotes : JsonGrammar.Denotes number depth json value
  fenced : tail = [] ∨ ∃ spaces, (∀ code ∈ spaces, isSpaceCode code = true) ∧
    tail = spaces ++ fence

/-- The texts a completion may hold, with the value of its JSON. -/
inductive Accepted : Text → Value N → Prop
  | final {text prose json tail : Text} {value : Value N} :
      Final number depth text value prose json tail → Accepted text value
  | block {prose body rest : Text} {value : Value N} : openBrace ∉ prose →
      ¬ Contains openTag prose → ¬ Contains openTag body → ¬ Contains closeTag body →
      Accepted rest value →
      Accepted (prose ++ (openTag ++ (body ++ (closeTag ++ rest)))) value

def openWord : Text := codes "think>"

def closeWord : Text := codes "/think>"

theorem notMem_openWord : 60 ∉ openWord := by decide

theorem notMem_closeWord : 60 ∉ closeWord := by decide

/-- The text ends in something visible, if it does not end at once. -/
def Trimmed (text : Text) : Prop := ∀ code ∈ text.getLast?, isSpaceCode code = false

section Trimming

theorem Trimmed.suffix {front back : Text} (trimmed : Trimmed (front ++ back)) : Trimmed back := by
  intro code member
  refine trimmed code ?_
  rw [List.getLast?_append]
  simp only [Option.mem_def] at member
  simp [member]

theorem rstrip_trimmed (text : Text) : Trimmed (rstrip text) := by
  intro code member
  rw [rstrip, List.getLast?_reverse] at member
  have shape := List.head?_dropWhile_not isSpaceCode text.reverse
  simp only [Option.mem_def] at member
  rw [member] at shape
  simpa using shape

theorem rstrip_split (text : Text) : ∃ spaces, text = rstrip text ++ spaces ∧
    ∀ code ∈ spaces, isSpaceCode code = true := by
  refine ⟨(text.reverse.takeWhile isSpaceCode).reverse, ?_, ?_⟩
  · rw [rstrip, ← List.reverse_append, List.takeWhile_append_dropWhile, List.reverse_reverse]
  · intro code member
    exact List.mem_takeWhile_imp (List.mem_reverse.mp member)

theorem rstrip_append {text spaces : Text} (trimmed : Trimmed text)
    (blank : ∀ code ∈ spaces, isSpaceCode code = true) : rstrip (text ++ spaces) = text := by
  rw [rstrip, List.reverse_append, List.dropWhile_append_of_pos (by simpa using blank)]
  cases shape : text.reverse with
  | nil =>
      rw [List.reverse_eq_nil_iff] at shape
      rw [shape]
      rfl
  | cons code rest =>
      have last : text.getLast? = some code := by
        rw [← List.head?_reverse, shape]
        rfl
      rw [List.dropWhile_cons_of_neg (by simp [trimmed code last]), ← shape, List.reverse_reverse]

theorem rstrip_of_trimmed {text : Text} (trimmed : Trimmed text) : rstrip text = text := by
  have same := rstrip_append trimmed (show ∀ code ∈ ([] : Text), isSpaceCode code = true by simp)
  rwa [List.append_nil] at same

end Trimming

section Turns

theorem find_openTag {prose after : Text} (unopened : ¬ Contains openTag prose) :
    TextSearch.find openTag (prose ++ (openTag ++ after)) = some prose.length :=
  TextSearch.find_first notMem_openWord unopened

theorem find_brace {prose after : Text} (braceless : openBrace ∉ prose) :
    TextSearch.find [openBrace] (prose ++ openBrace :: after) = some prose.length := by
  refine TextSearch.find_first (by simp) ?_
  rintro ⟨before, rest, rfl⟩
  simp at braceless

theorem closeTag_after_open {body : Text} (unclosed : ¬ Contains closeTag body) :
    ¬ Contains closeTag (openTag ++ body) := by
  intro found
  have later : Contains closeTag (openWord ++ body) := by
    obtain ⟨before, after, same⟩ := found
    cases before with
    | nil =>
        have second := (List.cons.inj (List.cons.inj same).2).1
        exact absurd second (by decide)
    | cons head before => exact ⟨before, after, (List.cons.inj same).2⟩
  exact unclosed (TextSearch.Contains.of_append notMem_openWord later)

theorem turn_block {prose body rest : Text} (braceless : openBrace ∉ prose)
    (unopened : ¬ Contains openTag prose) (single : ¬ Contains openTag body)
    (unclosed : ¬ Contains closeTag body) :
    turn (prose ++ (openTag ++ (body ++ (closeTag ++ rest)))) = .next (lstrip rest) := by
  have brace : (TextSearch.find [openBrace]
      (prose ++ (openTag ++ (body ++ (closeTag ++ rest))))).any (· < prose.length) = false := by
    rw [Option.any_eq_false]
    intro start found
    obtain ⟨before, after, same, rfl, -⟩ := TextSearch.find_some found
    rw [decide_eq_false_iff_not]
    intro inside
    rw [List.append_eq_append_iff] at same
    rcases same with ⟨gap, isBefore, -⟩ | ⟨gap, isProse, split⟩
    · rw [isBefore, List.length_append] at inside
      omega
    · cases gap with
      | nil =>
          rw [isProse, List.append_nil] at inside
          omega
      | cons head gap =>
          obtain rfl : openBrace = head := (List.cons.inj split).1
          exact braceless (by simp [isProse])
  have closing : TextSearch.find closeTag (openTag ++ (body ++ (closeTag ++ rest))) =
      some (openTag ++ body).length := by
    rw [← List.append_assoc]
    exact TextSearch.find_first notMem_closeWord (closeTag_after_open unclosed)
  have middle : ((prose ++ (openTag ++ (body ++ (closeTag ++ rest)))).drop
      (prose.length + openTag.length)).take ((openTag ++ body).length - openTag.length) = body := by
    rw [List.drop_length_add_append, List.drop_left, List.length_append, Nat.add_sub_cancel_left,
      List.take_left]
  have tail : (prose ++ (openTag ++ (body ++ (closeTag ++ rest)))).drop
      (prose.length + (openTag ++ body).length + closeTag.length) = rest := by
    rw [Nat.add_assoc, List.drop_length_add_append, ← List.append_assoc openTag,
      List.drop_length_add_append, List.drop_left]
  have alone : TextSearch.contains openTag body = false := by
    rw [Bool.eq_false_iff, ne_eq, TextSearch.contains_iff]
    exact single
  unfold turn
  rw [find_openTag unopened]
  dsimp only
  rw [brace, List.drop_left, closing]
  dsimp only
  rw [middle, tail, alone]
  rfl

theorem open_front {after front tail : Text}
    (same : openTag ++ after = front ++ (closeTag ++ tail)) :
    ∃ body, front = openTag ++ body ∧ after = body ++ (closeTag ++ tail) := by
  cases front with
  | nil =>
      have second := (List.cons.inj (List.cons.inj same).2).1
      exact absurd second (by decide)
  | cons head front =>
      obtain rfl : 60 = head := (List.cons.inj same).1
      have split : openWord ++ after = front ++ (closeTag ++ tail) := (List.cons.inj same).2
      rw [List.append_eq_append_iff] at split
      rcases split with ⟨body, rfl, rest⟩ | ⟨gap, isWord, rest⟩
      · exact ⟨body, rfl, rest⟩
      · cases gap with
        | nil => exact ⟨[], by rw [List.append_nil] at isWord ⊢; rw [← isWord]; rfl, rest.symm⟩
        | cons head gap =>
            obtain rfl : 60 = head := (List.cons.inj rest).1
            exact absurd (by simp [isWord]) notMem_openWord

theorem turn_next {text rest : Text} (next : turn text = .next rest) :
    ∃ prose body tail, text = prose ++ (openTag ++ (body ++ (closeTag ++ tail))) ∧
      openBrace ∉ prose ∧ ¬ Contains openTag prose ∧ ¬ Contains openTag body ∧
      ¬ Contains closeTag body ∧ rest = lstrip tail := by
  unfold turn at next
  split at next
  · cases next
  · next opening found =>
      split at next
      · cases next
      · next noBrace =>
          obtain ⟨prose, after, rfl, rfl, -⟩ := TextSearch.find_some found
          have unopened := TextSearch.find_before found (by decide)
          have braceless : openBrace ∉ prose := by
            intro inside
            obtain ⟨before, between, rfl⟩ := List.append_of_mem inside
            cases brace : TextSearch.find [openBrace]
                (before ++ openBrace :: between ++ (openTag ++ after)) with
            | none =>
                refine TextSearch.find_none_iff.mp brace ⟨before, between ++ (openTag ++ after), ?_⟩
                simp
            | some start =>
                obtain ⟨_, _, _, _, least⟩ := TextSearch.find_some brace
                have early := least before (between ++ (openTag ++ after)) (by simp)
                rw [brace] at noBrace
                simp only [Option.any_some, List.length_append, List.length_cons,
                  decide_eq_true_eq] at noBrace
                omega
          rw [List.drop_left] at next
          split at next
          · cases next
          · next closing stops =>
              split at next
              · cases next
              · next single =>
                  obtain ⟨front, tail, split, rfl, -⟩ := TextSearch.find_some stops
                  obtain ⟨body, rfl, rfl⟩ := open_front split
                  rw [List.drop_length_add_append, List.drop_left, List.length_append,
                    Nat.add_sub_cancel_left, List.take_left, TextSearch.contains_iff] at single
                  have unclosed : ¬ Contains closeTag body := by
                    rintro ⟨before, behind, rfl⟩
                    obtain ⟨_, _, _, _, least⟩ := TextSearch.find_some stops
                    have bound := least (openTag ++ before) (behind ++ (closeTag ++ tail)) (by simp)
                    have positive : 0 < closeTag.length := by decide
                    simp only [List.length_append] at bound
                    omega
                  refine ⟨prose, body, tail, rfl, braceless, unopened, single, unclosed, ?_⟩
                  obtain rfl := Turn.next.inj next
                  rw [Nat.add_assoc, List.drop_length_add_append, ← List.append_assoc openTag,
                    List.drop_length_add_append, List.drop_left]

theorem turn_stop {prose after : Text} (braceless : openBrace ∉ prose)
    (unopened : ¬ Contains openTag prose) : turn (prose ++ openBrace :: after) = .stop := by
  unfold turn
  cases found : TextSearch.find openTag (prose ++ openBrace :: after) with
  | none => rfl
  | some opening =>
      obtain ⟨front, back, same, rfl, -⟩ := TextSearch.find_some found
      have later := TextSearch.past (by decide) unopened same
      dsimp only
      rw [find_brace braceless, Option.any_some, decide_eq_true later, if_pos rfl]

theorem unopened_of_stop {prose after : Text} (braceless : openBrace ∉ prose)
    (stop : turn (prose ++ openBrace :: after) = .stop) : ¬ Contains openTag prose := by
  rintro ⟨front, back, rfl⟩
  unfold turn at stop
  rw [find_brace braceless] at stop
  split at stop
  · next missing =>
      exact TextSearch.find_none_iff.mp missing ⟨front, back ++ openBrace :: after, by simp⟩
  · next opening found =>
      obtain ⟨_, _, _, _, least⟩ := TextSearch.find_some found
      have early := least front (back ++ openBrace :: after) (by simp)
      rw [Option.any_some, if_neg] at stop
      · split at stop
        · cases stop
        · split at stop <;> cases stop
      · have positive : 0 < openTag.length := by decide
        simp only [List.length_append, decide_eq_true_eq]
        omega

end Turns

section Objects

variable {number depth}

theorem isSpaceCode_of_blank {text : Text} (blank : JsonGrammar.Blank text) :
    ∀ code ∈ text, isSpaceCode code = true := by
  intro code member
  have found := blank code member
  simp only [JsonGrammar.isBlank, Bool.or_eq_true, beq_iff_eq] at found
  rcases found with ((rfl | rfl) | rfl) | rfl <;> decide

theorem object_last {json : Text} {value : Value N} (object : json.head? = some openBrace)
    (denotes : JsonGrammar.Denotes number depth json value) :
    ∃ inner, json = openBrace :: (inner ++ [closeBrace]) := by
  have notScalar : ¬ JsonGrammar.Scalar number json value := by
    intro isScalar
    obtain ⟨head, tail, rfl, -, -, other, -⟩ := JsonGrammar.scalar_head isScalar
    exact other (Option.some.inj object)
  cases depth with
  | zero => exact absurd denotes notScalar
  | succ depth =>
      rcases denotes with isScalar | ⟨inner, values, rfl, -⟩ | ⟨inner, fields, rfl, -⟩
      · exact absurd isScalar notScalar
      · cases object
      · exact ⟨inner, rfl⟩

theorem fence_trimmed (text : Text) : Trimmed (text ++ fence) := by
  intro code member
  rw [List.getLast?_append, Option.mem_def, show fence.getLast? = some 96 from rfl,
    Option.some_or, Option.some.injEq] at member
  subst member
  decide

theorem object_trimmed (inner : Text) : Trimmed (openBrace :: (inner ++ [closeBrace])) := by
  intro code member
  rw [← List.cons_append, Option.mem_def, List.getLast?_concat,
    Option.some.injEq] at member
  subst member
  decide

theorem not_fenced (inner : Text) :
    fence.isSuffixOf (openBrace :: (inner ++ [closeBrace])) = false := by
  rw [Bool.eq_false_iff, ne_eq, List.isSuffixOf_iff_suffix]
  rintro ⟨front, same⟩
  have last := congrArg List.getLast? same
  rw [← List.cons_append, List.getLast?_concat, List.getLast?_append,
    show fence.getLast? = some 96 from rfl, Option.some_or] at last
  exact absurd (Option.some.inj last) (by decide)

theorem parse_object {json : Text} {value : Value N}
    (denotes : JsonGrammar.Denotes number depth json value) :
    JsonGrammar.parse number depth json = some value :=
  JsonGrammar.parse_iff.mpr ⟨[], json, [], by simp, by simp [JsonGrammar.Blank],
    by simp [JsonGrammar.Blank], denotes⟩

theorem Final.read {text prose json tail : Text} {value : Value N}
    (final : Final number depth text value prose json tail) :
    turn text = .stop ∧ jsonAfter number depth text = .ok value := by
  obtain ⟨inner, rfl⟩ := object_last final.object final.denotes
  have open' : TextSearch.contains closeTag prose = false := by
    rw [Bool.eq_false_iff, ne_eq, TextSearch.contains_iff]
    exact final.unclosed
  rw [final.split]
  refine ⟨turn_stop final.braceless final.unopened, ?_⟩
  unfold jsonAfter
  rw [List.cons_append, find_brace final.braceless]
  dsimp only
  rw [List.take_left, List.drop_left, open', if_neg (by decide), ← List.cons_append]
  rcases final.fenced with rfl | ⟨spaces, blank, rfl⟩
  · rw [List.append_nil, rstrip_of_trimmed (object_trimmed inner), if_neg (by simp [not_fenced]),
      parse_object final.denotes]
  · rw [← List.append_assoc, rstrip_of_trimmed (fence_trimmed _),
      if_pos (List.isSuffixOf_iff_suffix.mpr (List.suffix_append ..)), List.length_append,
      Nat.add_sub_cancel, List.take_left, rstrip_append (object_trimmed inner) blank,
      parse_object final.denotes]

theorem parse_start {text : Text} {value : Value N}
    (parsed : JsonGrammar.parse number depth text = some value)
    (object : text.head? = some openBrace) :
    ∃ json after, text = json ++ after ∧ json.head? = some openBrace ∧ JsonGrammar.Blank after ∧
      JsonGrammar.Denotes number depth json value := by
  obtain ⟨before, json, after, rfl, blank, trailing, denotes⟩ := JsonGrammar.parse_iff.mp parsed
  cases before with
  | cons head before =>
      obtain rfl : head = openBrace := Option.some.inj object
      exact absurd (blank openBrace (by simp)) (by decide)
  | nil =>
      have reads := @JsonGrammar.value_reads N number depth
      obtain ⟨head, tail, rfl, -⟩ := reads.starts denotes
      exact ⟨head :: tail, after, rfl, object, trailing, denotes⟩

theorem jsonAfter_final {text : Text} {value : Value N} (trimmed : Trimmed text)
    (stop : turn text = .stop) (read : jsonAfter number depth text = .ok value) :
    ∃ prose json tail, Final number depth text value prose json tail := by
  unfold jsonAfter at read
  split at read
  · cases read
  · next start found =>
      obtain ⟨prose, after, rfl, rfl, -⟩ := TextSearch.find_some found
      have braceless : openBrace ∉ prose := by
        intro inside
        obtain ⟨before, between, rfl⟩ := List.append_of_mem inside
        exact TextSearch.find_before found (by simp) ⟨before, between, by simp⟩
      have unopened := unopened_of_stop braceless stop
      rw [List.take_left, List.drop_left] at read
      split at read
      · cases read
      · next open' =>
          have unclosed : ¬ Contains closeTag prose := by
            rwa [TextSearch.contains_iff] at open'
          have ended : Trimmed (openBrace :: after) := trimmed.suffix
          dsimp only at read
          rw [List.singleton_append, rstrip_of_trimmed ended] at read
          split at read
          · next value' parsed =>
              obtain rfl := Except.ok.inj read
              split at parsed
              · next fenced =>
                  obtain ⟨front, same⟩ := List.isSuffixOf_iff_suffix.mp fenced
                  rw [← same, List.length_append, Nat.add_sub_cancel, List.take_left] at parsed
                  obtain ⟨spaces, split, blank⟩ := rstrip_split front
                  have first : (rstrip front).head? = some openBrace := by
                    cases shape : rstrip front with
                    | nil =>
                        rw [shape] at parsed
                        obtain ⟨before, json, after', empty, -, -, denotes⟩ :=
                          JsonGrammar.parse_iff.mp parsed
                        obtain ⟨head, tail, rfl, -⟩ :=
                          (@JsonGrammar.value_reads N number depth).starts denotes
                        simp at empty
                    | cons head rest =>
                        rw [split, shape] at same
                        exact congrArg some (List.cons.inj same).1
                  obtain ⟨json, after', isJson, object, trailing, denotes⟩ :=
                    parse_start parsed first
                  refine ⟨prose, json, after' ++ spaces ++ fence, ?_, braceless, unopened, unclosed,
                    object, denotes, Or.inr ⟨after' ++ spaces, ?_, rfl⟩⟩
                  · rw [List.singleton_append, ← same, split, isJson]
                    simp
                  · intro code member
                    rcases List.mem_append.mp member with earlier | later
                    · exact isSpaceCode_of_blank trailing code earlier
                    · exact blank code later
              · obtain ⟨json, after', isJson, object, trailing, denotes⟩ := parse_start parsed rfl
                refine ⟨prose, json, [], ?_, braceless, unopened, unclosed, object, denotes,
                  Or.inl rfl⟩
                cases visible : after'.getLast? with
                | none =>
                    rw [List.singleton_append, isJson, List.getLast?_eq_none_iff.mp visible]
                | some code =>
                    have space := isSpaceCode_of_blank trailing code
                      (List.mem_of_getLast? visible)
                    rw [isJson] at ended
                    rw [ended.suffix code visible] at space
                    cases space
          · cases read

end Objects

section Acceptance

variable {number depth}

theorem Final.visible {text prose json tail : Text} {value : Value N}
    (final : Final number depth text value prose json tail) :
    ∃ after, text = prose ++ openBrace :: after := by
  obtain ⟨inner, rfl⟩ := object_last final.object final.denotes
  exact ⟨_, final.split⟩

theorem accepted_cons {code : Nat} {text : Text} {value : Value N}
    (space : isSpaceCode code = true) :
    Accepted number depth (code :: text) value ↔ Accepted number depth text value := by
  have plain : code ≠ openBrace ∧ code ≠ 60 := by
    constructor
    · rintro rfl
      exact absurd space (by decide)
    · rintro rfl
      exact absurd space (by decide)
  have outside {pattern prose : Text} :
      Contains pattern prose → Contains pattern (code :: prose) := by
    rintro ⟨before, after, rfl⟩
    exact ⟨code :: before, after, rfl⟩
  have inside {word prose : Text} :
      Contains (60 :: word) (code :: prose) → Contains (60 :: word) prose :=
    TextSearch.Contains.of_append (show 60 ∉ [code] by simpa using plain.2.symm)
  constructor
  · intro accepted
    generalize shape : code :: text = whole at accepted
    cases accepted with
    | @final _ prose json tail _ final =>
        have split := final.split
        cases prose with
        | nil =>
            obtain ⟨after, same⟩ := final.visible
            rw [← shape] at same
            exact absurd (List.cons.inj same).1 plain.1
        | cons head prose =>
            rw [← shape] at split
            obtain ⟨rfl, rest⟩ := List.cons.inj split
            exact .final ⟨rest, fun member => final.braceless (List.mem_cons_of_mem _ member),
              fun found => final.unopened (outside found),
              fun found => final.unclosed (outside found), final.object, final.denotes,
              final.fenced⟩
    | @block prose body rest _ braceless unopened single unclosed accepted =>
        cases prose with
        | nil => exact absurd (List.cons.inj shape).1 plain.2
        | cons head prose =>
            obtain ⟨rfl, rfl⟩ := List.cons.inj shape
            exact .block (fun member => braceless (List.mem_cons_of_mem _ member))
              (fun found => unopened (outside found)) single unclosed accepted
  · intro accepted
    cases accepted with
    | @final _ prose json tail _ final =>
        refine @Accepted.final N number depth _ (code :: prose) _ _ _ ⟨?_, ?_, fun found => final.unopened (inside found),
          fun found => final.unclosed (inside found), final.object, final.denotes, final.fenced⟩
        · rw [final.split]
          rfl
        · simpa using ⟨plain.1.symm, final.braceless⟩
    | @block prose body rest _ braceless unopened single unclosed accepted =>
        refine @Accepted.block N number depth (code :: prose) _ _ _ ?_ (fun found => unopened (inside found)) single
          unclosed accepted
        simpa using ⟨plain.1.symm, braceless⟩

theorem accepted_lstrip {text : Text} {value : Value N} :
    Accepted number depth (lstrip text) value ↔ Accepted number depth text value := by
  induction text with
  | nil => rfl
  | cons code text ih =>
      unfold lstrip
      by_cases space : isSpaceCode code = true
      · rw [List.dropWhile_cons_of_pos space, accepted_cons space]
        exact ih
      · rw [List.dropWhile_cons_of_neg space]

theorem Trimmed.lstrip {text : Text} (trimmed : Trimmed text) : Trimmed (lstrip text) := by
  have split : text.takeWhile isSpaceCode ++ Completions.lstrip text = text :=
    List.takeWhile_append_dropWhile
  rw [← split] at trimmed
  exact trimmed.suffix

theorem skipThinking_stop {text : Text} (stop : turn text = .stop) :
    skipThinking text = .ok text := by
  rw [skipThinking]
  split
  · rfl
  · simp_all
  · simp_all

theorem skipThinking_invalid {text : Text} (invalid : turn text = .invalid) :
    skipThinking text = .error ⟨"Unterminated or nested thinking block", none⟩ := by
  rw [skipThinking]
  split
  · simp_all
  · rfl
  · simp_all

theorem skipThinking_next {text rest : Text} (next : turn text = .next rest) :
    skipThinking text = skipThinking rest := by
  rw [skipThinking]
  split
  · simp_all
  · simp_all
  · next other found =>
      rw [found] at next
      rw [Turn.next.inj next]

/-- The loop and what follows it accept the grammar. -/
theorem skipThinking_accepted (number : Text → Option N) (depth : Nat) (text : Text) (value : Value N) (trimmed : Trimmed text) :
    (∃ rest, skipThinking text = .ok rest ∧ jsonAfter number depth rest = .ok value) ↔
      Accepted number depth text value := by
  induction text using skipThinking.induct with
  | case1 text stop =>
      have same := skipThinking_stop stop
      constructor
      · rintro ⟨rest, found, read⟩
        obtain rfl : text = rest := Except.ok.inj (same.symm.trans found)
        obtain ⟨prose, json, tail, final⟩ := jsonAfter_final trimmed stop read
        exact .final final
      · intro accepted
        refine ⟨text, same, ?_⟩
        cases accepted with
        | final final => exact final.read.2
        | block braceless unopened single unclosed accepted =>
            rw [turn_block braceless unopened single unclosed] at stop
            cases stop
  | case2 text invalid =>
      constructor
      · rintro ⟨rest, found, -⟩
        rw [skipThinking_invalid invalid] at found
        cases found
      · intro accepted
        cases accepted with
        | final final =>
            rw [final.read.1] at invalid
            cases invalid
        | block braceless unopened single unclosed accepted =>
            rw [turn_block braceless unopened single unclosed] at invalid
            cases invalid
  | case3 text rest next ih =>
      rw [skipThinking_next next]
      obtain ⟨prose, body, tail, rfl, braceless, unopened, single, unclosed, rfl⟩ := turn_next next
      have ended : Trimmed (lstrip tail) := trimmed.suffix.suffix.suffix.suffix.lstrip
      rw [ih ended, accepted_lstrip]
      constructor
      · exact .block braceless unopened single unclosed
      · intro accepted
        generalize shape : prose ++ (openTag ++ (body ++ (closeTag ++ tail))) = whole at accepted
        cases accepted with
        | final final =>
            rw [shape, final.read.1] at next
            cases next
        | @block prose' body' tail' _ braceless' unopened' single' unclosed' accepted =>
            rw [shape, turn_block braceless' unopened' single' unclosed'] at next
            rw [← accepted_lstrip, ← Turn.next.inj next, accepted_lstrip]
            exact accepted

variable (number depth)

/-- A stopped completion is read if and only if its text is of the grammar, as the value that its
JSON denotes. -/
theorem completionJson_iff (completion : Completion)
    (stopped : completion.finishReason = codes "stop") (value : Value N) (flags : Flags) :
    completionJson number depth completion = .ok (value, flags) ↔
      Accepted number depth (strip completion.content) value ∧
        flags = flagsOf (strip completion.content) := by
  have accepted := skipThinking_accepted number depth
    (strip completion.content) value (rstrip_trimmed _)
  unfold completionJson
  rw [if_neg (by simp [stopped]), ← accepted]
  constructor
  · intro read
    cases skipped : skipThinking (strip completion.content) with
    | error invalid =>
        rw [skipped] at read
        cases read
    | ok rest =>
        rw [skipped] at read
        cases after : jsonAfter number depth rest with
        | error invalid =>
            simp only [after, bind, Except.bind] at read
            cases read
        | ok found =>
            simp only [after, bind, Except.bind, pure, Except.pure, Except.ok.injEq,
              Prod.mk.injEq] at read
            exact ⟨⟨rest, rfl, after.trans (congrArg _ read.1)⟩, read.2.symm⟩
  · rintro ⟨⟨rest, skipped, read⟩, rfl⟩
    rw [skipped]
    simp only [read, bind, Except.bind, pure, Except.pure]

theorem empty_denotes (number : Text → Option Unit) :
    JsonGrammar.Denotes number 1 (codes "{}") (.object []) :=
  Or.inr (Or.inr ⟨[], [], rfl, Or.inl ⟨fun _ member => (List.not_mem_nil member).elim, rfl⟩,
    List.nodup_nil, rfl⟩)

theorem empty_read (number : Text → Option Unit) :
    Final number 1 (codes "{}") (.object []) [] (codes "{}") [] :=
  ⟨rfl, List.not_mem_nil, TextSearch.find_none_iff.mp rfl, TextSearch.find_none_iff.mp rfl, rfl,
    empty_denotes number, Or.inl rfl⟩

theorem empty_final (number : Text → Option Unit) :
    Accepted number 1 (codes "{}") (.object []) :=
  .final (empty_read number)

theorem completionJson_iff_example :
    completionJson (fun _ => some ()) 1 ⟨codes " so:<think>\x7b</think>\x7b\x7d", codes "stop"⟩ =
      .ok (.object [], ⟨true, false⟩) :=
  (completionJson_iff (fun _ => some ()) 1 ⟨codes " so:<think>\x7b</think>\x7b\x7d", codes "stop"⟩ rfl
    (.object []) ⟨true, false⟩).mpr
      ⟨@Accepted.block Unit _ 1 (codes "so:") (codes "\x7b") (codes "{}") _ (by decide)
        (TextSearch.find_none_iff.mp (by decide)) (TextSearch.find_none_iff.mp (by decide))
        (TextSearch.find_none_iff.mp (by decide)) (empty_final _), by decide⟩

inductive Blocks : Text → Value N → Prop
  | final {text prose json tail : Text} {value : Value N} :
      Final number depth text value prose json tail → closeBrace ∉ prose → Blocks text value
  | block {prose body rest : Text} {value : Value N} : openBrace ∉ prose → closeBrace ∉ prose →
      ¬ Contains openTag body → Blocks rest value →
      Blocks (prose ++ (openTag ++ (body ++ (closeTag ++ rest)))) value

/-- A block is neither opened twice nor closed twice. -/
theorem completionJson_nested :
    let content := codes "<think>a<think>b</think>{}"
    Blocks (fun _ => some ()) 1 (strip content) (.object []) ∧
      completionJson (fun _ => some ()) 1 ⟨content, codes "stop"⟩ =
        .error ⟨"Unterminated or nested thinking block", none⟩ := by
  have invalid : turn (strip (codes "<think>a<think>b</think>{}")) = .invalid := by decide
  refine ⟨@Blocks.block Unit _ 1 (codes "<think>a") (codes "b") (codes "{}") _ (by decide)
    (by decide) (TextSearch.find_none_iff.mp (by decide)) ?_, ?_⟩
  · exact .final (empty_read _) List.not_mem_nil
  · unfold completionJson
    dsimp only
    rw [skipThinking_invalid invalid]
    rfl

end Acceptance

end Ovrly.Completions
