import Ovrly.Voice.StrictGrammar

/-!
The objects of RFC 8259 among the texts that `StrictJson` accepts: `digitToIntOrNull(16)` also takes
the digits of other scripts, which the grammar of an escape does not.
-/

namespace Ovrly.Voice.StrictJson

open JsonGrammar

section Digits

theorem digit16_of_hexDigit {unit value : Nat} (known : hexDigit? unit = some value) :
    digit16 unit = some value := by
  have ascii : unit < 128 := by
    unfold hexDigit? at known
    split_ifs at known <;> omega
  have agree : ∀ unit < 128, (hexDigit? unit).isSome = true → digit16 unit = hexDigit? unit := by
    decide
  rw [agree unit ascii (by rw [known]; rfl), known]

theorem StringBody.digit16 {body units : Text} (isBody : StringBody hexDigit? body units) :
    StringBody digit16 body units := by
  induction isBody with
  | nil => exact .nil
  | plain notQuote notBackslash printable _ ih => exact .plain notQuote notBackslash printable ih
  | short found _ ih => exact .short found ih
  | unicode a b c d _ ih =>
      exact .unicode (digit16_of_hexDigit a) (digit16_of_hexDigit b) (digit16_of_hexDigit c)
        (digit16_of_hexDigit d) ih

theorem Quoted.digit16 {text units : Text} (quoted : Quoted hexDigit? text units) :
    Quoted digit16 text units := by
  obtain ⟨body, rfl, isBody⟩ := quoted
  exact ⟨body, rfl, isBody.digit16⟩

end Digits

/-- Every `\u` escape has four ASCII digits of base 16. -/
def asciiEscapes : Text → Bool
  | [] => true
  | backslash :: letterU :: first :: second :: third :: fourth :: rest =>
      (hexDigit? first).isSome && (hexDigit? second).isSome && (hexDigit? third).isSome &&
        (hexDigit? fourth).isSome && asciiEscapes rest
  | backslash :: _ :: rest => asciiEscapes rest
  | _ :: rest => asciiEscapes rest

section Clear

variable {text other body units : Text}

theorem asciiEscapes_plain {unit : Nat} (plain : unit ≠ backslash) (rest : Text) :
    asciiEscapes (unit :: rest) = asciiEscapes rest := by
  rw [asciiEscapes]
  · rintro _ _ _ _ _ rfl
    exact absurd rfl plain
  · rintro _ _ rfl
    exact absurd rfl plain

theorem asciiEscapes_short {letter : Nat} (short : letter ≠ letterU) (rest : Text) :
    asciiEscapes (backslash :: letter :: rest) = asciiEscapes rest := by
  rw [asciiEscapes]
  rintro _ _ _ _ _ rfl
  exact absurd rfl short

def Clear (text : Text) : Prop := ∀ rest, asciiEscapes (text ++ rest) = asciiEscapes rest

theorem Clear.append (first : Clear text) (second : Clear other) : Clear (text ++ other) := by
  intro rest
  rw [List.append_assoc, first, second]

theorem clear_of_plain (plain : ∀ unit ∈ text, unit ≠ backslash) : Clear text := by
  intro rest
  induction text with
  | nil => rfl
  | cons unit text ih =>
      rw [List.cons_append, asciiEscapes_plain (plain unit List.mem_cons_self)]
      exact ih fun other member => plain other (List.mem_cons_of_mem _ member)

theorem Clear.cons {unit : Nat} (clear : Clear text) (plain : unit ≠ backslash) :
    Clear (unit :: text) :=
  (clear_of_plain (by simpa using plain) : Clear [unit]).append clear

theorem clear_blank (blank : Blank text) : Clear text := by
  apply clear_of_plain
  rintro unit member rfl
  exact absurd (blank _ member) (by decide)

theorem clear_digits {digits : Text} (isDigits : ∀ unit ∈ digits, isDigit unit = true) :
    Clear digits := by
  apply clear_of_plain
  rintro unit member rfl
  exact absurd (isDigits _ member) (by decide)

theorem clear_number (isNumber : NumberText text) : Clear text := by
  obtain ⟨sign, whole, part, power, rfl, isSign, isWhole, isPart, isPower⟩ := isNumber
  refine ((Clear.append ?_ ?_).append ?_).append ?_
  · rcases isSign with rfl | rfl
    · exact clear_of_plain (by simp)
    · exact clear_of_plain (by decide)
  · rcases isWhole with rfl | ⟨first, rest, rfl, -, digit, digits⟩
    · exact clear_of_plain (by decide)
    · exact clear_digits (by simpa using ⟨digit, digits⟩)
  · rcases isPart with rfl | ⟨digits, rfl, isDigits⟩
    · exact clear_of_plain (by simp)
    · exact (clear_digits isDigits.2).cons (by decide)
  · rcases isPower with rfl | ⟨letter, sign, digits, rfl, isLetter, isSign, isDigits⟩
    · exact clear_of_plain (by simp)
    · refine Clear.append (Clear.cons ?_ ?_) (clear_digits isDigits.2)
      · rcases isSign with rfl | rfl | rfl
        · exact clear_of_plain (by simp)
        · exact clear_of_plain (by decide)
        · exact clear_of_plain (by decide)
      · rcases isLetter with rfl | rfl <;> decide

theorem clear_body (isBody : StringBody hexDigit? body units) : Clear body := by
  intro rest
  induction isBody with
  | nil => rfl
  | plain _ notBackslash _ _ ih => rw [List.cons_append, asciiEscapes_plain notBackslash, ih]
  | @short letter _ _ _ found _ ih =>
      have short : letter ≠ letterU := by
        rintro rfl
        rw [shortEscape_letterU] at found
        cases found
      rw [List.cons_append, List.cons_append, asciiEscapes_short short, ih]
  | unicode a b c d _ ih => simp [asciiEscapes, a, b, c, d, ih]

theorem clear_quoted (quoted : Quoted hexDigit? text units) : Clear text := by
  obtain ⟨body, rfl, isBody⟩ := quoted
  exact ((clear_body isBody).append (clear_of_plain (by decide))).cons (by decide)

theorem ascii_body (isBody : StringBody digit16 body units) {rest : Text}
    (ascii : asciiEscapes (body ++ rest) = true) :
    StringBody hexDigit? body units ∧ asciiEscapes rest = true := by
  induction isBody with
  | nil => exact ⟨.nil, ascii⟩
  | plain notQuote notBackslash printable _ ih =>
      rw [List.cons_append, asciiEscapes_plain notBackslash] at ascii
      exact ⟨.plain notQuote notBackslash printable (ih ascii).1, (ih ascii).2⟩
  | @short letter _ _ _ found _ ih =>
      have short : letter ≠ letterU := by
        rintro rfl
        rw [shortEscape_letterU] at found
        cases found
      rw [List.cons_append, List.cons_append, asciiEscapes_short short] at ascii
      exact ⟨.short found (ih ascii).1, (ih ascii).2⟩
  | unicode a b c d _ ih =>
      have known : ∀ {unit value : Nat}, digit16 unit = some value →
          (hexDigit? unit).isSome = true → hexDigit? unit = some value := by
        intro unit value read some
        obtain ⟨other, same⟩ := Option.isSome_iff_exists.mp some
        rw [same, ← digit16_of_hexDigit same, read]
      simp only [List.cons_append, asciiEscapes, Bool.and_eq_true] at ascii
      obtain ⟨⟨⟨⟨first, second⟩, third⟩, fourth⟩, tail⟩ := ascii
      exact ⟨.unicode (known a first) (known b second) (known c third) (known d fourth)
        (ih tail).1, (ih tail).2⟩

end Clear

section Containers

variable {V : Type} {related strict : Text → V → Prop} {text : Text} {values : List V}

theorem Elements.mono (widens : ∀ {text value}, strict text value → related text value)
    (listed : Elements strict text values) : Elements related text values := by
  induction listed with
  | last before isValue after => exact .last before (widens isValue) after
  | more before isValue after _ ih => exact .more before (widens isValue) after ih

theorem Sequence.mono (widens : ∀ {text value}, strict text value → related text value)
    (isSequence : Sequence strict text values) : Sequence related text values :=
  isSequence.imp_right (Elements.mono widens)

theorem clear_elements (clear : ∀ {text value}, related text value → Clear text)
    (listed : Elements related text values) : Clear text := by
  induction listed with
  | last before isValue after =>
      exact (clear_blank before).append ((clear isValue).append (clear_blank after))
  | more before isValue after _ ih =>
      exact (clear_blank before).append ((clear isValue).append
        ((clear_blank after).append (ih.cons (by decide))))

theorem clear_sequence (clear : ∀ {text value}, related text value → Clear text)
    (isSequence : Sequence related text values) : Clear text :=
  isSequence.elim (fun blank => clear_blank blank.1) (clear_elements clear)

/-- What a relation describes belongs to a narrower one where the escapes are ASCII. -/
def Narrows (related strict : Text → V → Prop) : Prop :=
  ∀ text value rest, related text value → asciiEscapes (text ++ rest) = true →
    strict text value ∧ asciiEscapes rest = true

theorem Narrows.elements (narrows : Narrows related strict) :
    Narrows (Elements related) (Elements strict) := by
  intro text values rest listed ascii
  induction listed generalizing rest with
  | last before isValue after =>
      simp only [List.append_assoc] at ascii
      rw [clear_blank before] at ascii
      obtain ⟨isStrict, ascii⟩ := narrows _ _ _ isValue ascii
      rw [clear_blank after] at ascii
      exact ⟨.last before isStrict after, ascii⟩
  | more before isValue after _ ih =>
      simp only [List.append_assoc, List.cons_append] at ascii
      rw [clear_blank before] at ascii
      obtain ⟨isStrict, ascii⟩ := narrows _ _ _ isValue ascii
      rw [clear_blank after, asciiEscapes_plain (by decide)] at ascii
      exact ⟨.more before isStrict after (ih _ ascii).1, (ih _ ascii).2⟩

theorem Narrows.sequence (narrows : Narrows related strict) :
    Narrows (Sequence related) (Sequence strict) := by
  rintro text values rest (⟨blank, rfl⟩ | listed) ascii
  · exact ⟨.inl ⟨blank, rfl⟩, (clear_blank blank rest).symm.trans ascii⟩
  · obtain ⟨isStrict, ascii⟩ := narrows.elements _ _ _ listed ascii
    exact ⟨.inr isStrict, ascii⟩

end Containers

section Objects

variable {literal strict : Text → Text → Prop} {text : Text} {depths count : Nat}

theorem Scalar.mono (widens : ∀ {text units}, strict text units → literal text units)
    (isScalar : Scalar strict text) : Scalar literal text := by
  cases isScalar with
  | true => exact .true
  | false => exact .false
  | null => exact .null
  | number isNumber => exact .number isNumber
  | string isString => exact .string (widens isString)

theorem Entry.mono {related narrow : Text → Nat → Prop} {entry : Text × Nat}
    (widens : ∀ {text units}, strict text units → literal text units)
    (values : ∀ {text count}, narrow text count → related text count)
    (isEntry : Entry strict narrow text entry) : Entry literal related text entry := by
  obtain ⟨key, before, after, rest, isKey, blank, trailing, isValue, rfl⟩ := isEntry
  exact ⟨key, before, after, rest, widens isKey, blank, trailing, values isValue, rfl⟩

theorem Written.mono (widens : ∀ {text units}, strict text units → literal text units)
    (written : Written strict depths text count) : Written literal depths text count := by
  induction depths generalizing text count with
  | zero => exact written
  | succ depths ih =>
      rcases written with ⟨isScalar, rfl⟩ | ⟨inner, counts, rfl, isSequence, rfl⟩ |
        ⟨inner, entries, rfl, isSequence, distinct, rfl⟩
      · exact .inl ⟨isScalar.mono widens, rfl⟩
      · exact .inr (.inl ⟨inner, counts, rfl, Sequence.mono ih isSequence, rfl⟩)
      · exact .inr (.inr ⟨inner, entries, rfl, Sequence.mono (Entry.mono widens ih) isSequence,
          distinct, rfl⟩)

theorem Scalar.clear (isScalar : Scalar (Quoted hexDigit?) text) : Clear text := by
  cases isScalar with
  | true => exact clear_of_plain (by decide)
  | false => exact clear_of_plain (by decide)
  | null => exact clear_of_plain (by decide)
  | number isNumber => exact clear_number isNumber
  | string quoted => exact clear_quoted quoted

theorem Written.clear (written : Written (Quoted hexDigit?) depths text count) : Clear text := by
  induction depths generalizing text count with
  | zero => exact written.elim
  | succ depths ih =>
      rcases written with ⟨isScalar, rfl⟩ | ⟨inner, counts, rfl, isSequence, rfl⟩ |
        ⟨inner, entries, rfl, isSequence, distinct, rfl⟩
      · exact isScalar.clear
      · exact ((clear_sequence ih isSequence).append (clear_of_plain (by decide))).cons (by decide)
      · have entry : ∀ {text entry}, Entry (Quoted hexDigit?)
            (Written (Quoted hexDigit?) depths) text entry → Clear text := by
          rintro text entry ⟨key, before, after, rest, isKey, blank, trailing, isValue, rfl⟩
          exact (clear_quoted isKey).append ((clear_blank blank).append
            (((clear_blank trailing).append (ih isValue)).cons (by decide)))
        exact ((clear_sequence entry isSequence).append (clear_of_plain (by decide))).cons
          (by decide)

theorem Scalar.narrows (narrows : Narrows literal strict) {rest : Text}
    (isScalar : Scalar literal text) (ascii : asciiEscapes (text ++ rest) = Bool.true) :
    Scalar strict text ∧ asciiEscapes rest = Bool.true := by
  have word : ∀ word, (∀ unit ∈ word, unit ≠ backslash) →
      asciiEscapes (word ++ rest) = Bool.true → asciiEscapes rest = Bool.true :=
    fun word plain begun => (clear_of_plain plain rest).symm.trans begun
  cases isScalar with
  | true => exact ⟨.true, word _ (by decide) ascii⟩
  | false => exact ⟨.false, word _ (by decide) ascii⟩
  | null => exact ⟨.null, word _ (by decide) ascii⟩
  | number isNumber => exact ⟨.number isNumber, (clear_number isNumber rest).symm.trans ascii⟩
  | string isString =>
      obtain ⟨isStrict, ascii⟩ := narrows _ _ _ isString ascii
      exact ⟨.string isStrict, ascii⟩

theorem Entry.narrows {related narrow : Text → Nat → Prop} (narrows : Narrows literal strict)
    (values : Narrows related narrow) : Narrows (Entry literal related) (Entry strict narrow) := by
  rintro text entry rest ⟨key, before, after, value, isKey, blank, trailing, isValue, rfl⟩ ascii
  simp only [List.append_assoc, List.cons_append] at ascii
  obtain ⟨isStrict, ascii⟩ := narrows _ _ _ isKey ascii
  rw [clear_blank blank, asciiEscapes_plain (by decide), clear_blank trailing] at ascii
  obtain ⟨isNarrow, ascii⟩ := values _ _ _ isValue ascii
  exact ⟨⟨key, before, after, value, isStrict, blank, trailing, isNarrow, rfl⟩, ascii⟩

theorem Written.narrows (narrows : Narrows literal strict) (depths : Nat) :
    Narrows (Written literal depths) (Written strict depths) := by
  induction depths with
  | zero => exact fun _ _ _ written _ => written.elim
  | succ depths ih =>
      rintro text count rest (⟨isScalar, rfl⟩ | ⟨inner, counts, rfl, isSequence, rfl⟩ |
        ⟨inner, entries, rfl, isSequence, distinct, rfl⟩) ascii
      · obtain ⟨isStrict, ascii⟩ := isScalar.narrows narrows ascii
        exact ⟨.inl ⟨isStrict, rfl⟩, ascii⟩
      · simp only [List.cons_append, List.append_assoc] at ascii
        rw [asciiEscapes_plain (by decide)] at ascii
        obtain ⟨isStrict, ascii⟩ := ih.sequence _ _ _ isSequence ascii
        exact ⟨.inr (.inl ⟨inner, counts, rfl, isStrict, rfl⟩),
          (asciiEscapes_plain (by decide) rest).symm.trans ascii⟩
      · simp only [List.cons_append, List.append_assoc] at ascii
        rw [asciiEscapes_plain (by decide)] at ascii
        obtain ⟨isStrict, ascii⟩ := (Entry.narrows narrows ih).sequence _ _ _ isSequence ascii
        exact ⟨.inr (.inr ⟨inner, entries, rfl, isStrict, distinct, rfl⟩),
          (asciiEscapes_plain (by decide) rest).symm.trans ascii⟩

theorem BoundedObject.mono {source : Text}
    (widens : ∀ {text units}, strict text units → literal text units)
    (object : BoundedObject strict source) : BoundedObject literal source := by
  obtain ⟨before, text, after, count, rfl, blank, trailing, braced, written, few⟩ := object
  exact ⟨before, text, after, count, rfl, blank, trailing, braced, written.mono widens, few⟩

theorem BoundedObject.clear {source : Text} (object : BoundedObject (Quoted hexDigit?) source) :
    asciiEscapes source = true := by
  obtain ⟨before, text, after, count, rfl, blank, trailing, braced, written, few⟩ := object
  rw [clear_blank blank, written.clear, ← List.append_nil after, clear_blank trailing]
  rfl

theorem BoundedObject.narrow (narrows : Narrows literal strict) {source : Text}
    (object : BoundedObject literal source) (ascii : asciiEscapes source = true) :
    BoundedObject strict source := by
  obtain ⟨before, text, after, count, rfl, blank, trailing, braced, written, few⟩ := object
  rw [clear_blank blank] at ascii
  exact ⟨before, text, after, count, rfl, blank, trailing, braced,
    (Written.narrows narrows _ _ _ _ written ascii).1, few⟩

end Objects

section Decoders

variable {jsonArray : Text → Option Text}

def Decodes (jsonArray : Text → Option Text) : Prop :=
  ∀ text units, Quoted hexDigit? text units →
    jsonArray (openBracket :: (text ++ [closeBracket])) = some units

theorem Decodes.widens (decodes : Decodes jsonArray) {text units : Text}
    (quoted : Quoted hexDigit? text units) : Decoded jsonArray text units :=
  ⟨⟨units, quoted.digit16⟩, decodes text units quoted⟩

theorem Decodes.narrows (decodes : Decodes jsonArray) :
    Narrows (Decoded jsonArray) (Quoted hexDigit?) := by
  rintro text string rest ⟨⟨units, body, rfl, isBody⟩, known⟩ ascii
  simp only [List.cons_append, List.append_assoc] at ascii
  rw [asciiEscapes_plain (by decide)] at ascii
  obtain ⟨isStrict, ascii⟩ := ascii_body isBody ascii
  have quoted : Quoted hexDigit? (quote :: (body ++ [quote])) units := ⟨body, rfl, isStrict⟩
  obtain rfl : string = units := Option.some.inj (known.symm.trans (decodes _ _ quoted))
  exact ⟨quoted, (asciiEscapes_plain (by decide) rest).symm.trans ascii⟩

/-- Every text ends the recogniser, and it accepts exactly the bounded objects of RFC 8259 unless
an escape of the text has a digit of another script and the text is otherwise such an object. -/
theorem validate_iff (decodes : Decodes jsonArray) (source : Text) :
    (validate jsonArray source = .ok () ∨ validate jsonArray source = .error .voiceProtocol ∨
      validate jsonArray source = .error .json) ∧
    ((validate jsonArray source = .ok () ↔ BoundedObject (Quoted hexDigit?) source) ↔
      asciiEscapes source = true ∨ ¬ BoundedObject (Decoded jsonArray) source) := by
  constructor
  · cases answer : validate jsonArray source with
    | ok done => exact .inl rfl
    | error fault =>
        cases fault with
        | voiceProtocol => exact .inr (.inl rfl)
        | json => exact .inr (.inr rfl)
        | fuel => exact absurd answer (validate_halts source)
  · rw [validate_ok]
    constructor
    · intro agrees
      by_cases object : BoundedObject (Decoded jsonArray) source
      · exact .inl (agrees.mp object).clear
      · exact .inr object
    · rintro (ascii | other)
      · exact ⟨fun object => object.narrow decodes.narrows ascii,
          BoundedObject.mono decodes.widens⟩
      · exact ⟨fun object => absurd object other,
          fun object => absurd (object.mono decodes.widens) other⟩

def unescape : Text → Option Text
  | [] => none
  | quote :: _ => some []
  | backslash :: letterU :: first :: second :: third :: fourth :: rest => do
      let a ← digit16 first
      let b ← digit16 second
      let c ← digit16 third
      let d ← digit16 fourth
      let units ← unescape rest
      return (((a * 16 + b) * 16 + c) * 16 + d) :: units
  | backslash :: letter :: rest => do
      let unit ← shortEscape? letter
      let units ← unescape rest
      return unit :: units
  | unit :: rest => (unescape rest).map (unit :: ·)

def firstString : Text → Option Text
  | openBracket :: quote :: rest => unescape rest
  | _ => none

theorem unescape_body {body units : Text} (isBody : StringBody digit16 body units) (rest : Text) :
    unescape (body ++ quote :: rest) = some units := by
  induction isBody with
  | nil => rfl
  | plain notQuote notBackslash _ _ ih =>
      rw [List.cons_append, unescape, ih]
      · rfl
      · exact notQuote
      · rintro _ _ _ _ _ rfl
        exact absurd rfl notBackslash
      · rintro _ _ rfl
        exact absurd rfl notBackslash
  | short found _ ih =>
      rw [List.cons_append, List.cons_append, unescape, found, ih]
      · rfl
      · rintro _ _ _ _ _ rfl
        rw [shortEscape_letterU] at found
        cases found
  | unicode a b c d _ ih => simp [unescape, a, b, c, d, ih]

theorem firstString_decodes : Decodes firstString := by
  rintro text units ⟨body, rfl, isBody⟩
  rw [List.cons_append, List.append_assoc]
  exact unescape_body isBody.digit16 _

theorem validate_iff_example :
    Decodes firstString ∧
      (validate firstString (codes "\x7b\"a\": [1, true]\x7d") = .ok () ↔
        BoundedObject (Quoted hexDigit?) (codes "\x7b\"a\": [1, true]\x7d")) :=
  ⟨firstString_decodes, (validate_iff firstString_decodes _).2.mpr (.inl (by decide))⟩

/-- The four digits of `A` in the Arabic script. -/
theorem arabic_escape_accepted :
    Decodes firstString ∧
      validate firstString (codes "\x7b\"a\":\"\\u\u0660\u0660\u0664\u0661\"\x7d") = .ok () ∧
      ¬ BoundedObject (Quoted hexDigit?)
        (codes "\x7b\"a\":\"\\u\u0660\u0660\u0664\u0661\"\x7d") :=
  ⟨firstString_decodes, rfl, fun object => absurd object.clear (by decide)⟩

end Decoders

end Ovrly.Voice.StrictJson
