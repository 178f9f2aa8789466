import Ovrly.IpAddress

/-!
The outbound request guard (`services/providers/egress.py`): which addresses and hosts it refuses,
and the hosts whose numeric spelling makes it raise anything but a refusal.
-/

namespace Ovrly.Egress

open OptionList PyText IpAddress

inductive Reason
  | invalidUrl
  | schemeNotAllowed
  | credentialsInUrl
  | portNotAllowed
  | internalName
  | blockedAddress
  | unresolvable
  | schemeDowngrade
  | tooManyRedirects
  | unixSocket
  deriving DecidableEq, Repr

/-- What escapes a check: a refusal, or `ipaddress.AddressValueError`. -/
inductive Raised
  | unsafeUrl (reason : Reason)
  | addressValueError
  deriving DecidableEq, Repr

/-- The classes of `ipaddress` for addresses of so many bits. -/
structure Classes (bits : Nat) where
  isGlobal : Fin (2 ^ bits) → Bool
  isMulticast : Fin (2 ^ bits) → Bool
  isPrivate : Fin (2 ^ bits) → Bool
  isLoopback : Fin (2 ^ bits) → Bool
  isLinkLocal : Fin (2 ^ bits) → Bool
  isReserved : Fin (2 ^ bits) → Bool
  isUnspecified : Fin (2 ^ bits) → Bool

/-- What the guard uses of the standard library beside the reading of addresses. -/
structure Library extends Lowercase where
  ipv4 : Classes 32
  ipv6 : Classes 128
  isSiteLocal : Fin (2 ^ 128) → Bool

structure Network where
  base : Nat
  length : Nat

def Network.contains {bits : Nat} (network : Network) (address : Fin (2 ^ bits)) : Bool :=
  address.val / 2 ^ (bits - network.length) = network.base / 2 ^ (bits - network.length)

/-- `100.64.0.0/10`, `192.0.0.0/24` and `198.18.0.0/15` -/
def extraBlocked4 : List Network := [⟨0x64400000, 10⟩, ⟨0xC0000000, 24⟩, ⟨0xC6120000, 15⟩]

/-- `64:ff9b:1::/48` -/
def extraBlocked6 : List Network := [⟨0x0064FF9B000100000000000000000000, 48⟩]

/-- `64:ff9b::/96` -/
def nat64 : Network := ⟨0x0064FF9B000000000000000000000000, 96⟩

def Classes.refuses {bits : Nat} (classes : Classes bits) (extraBlocked : List Network)
    (address : Fin (2 ^ bits)) : Bool :=
  !classes.isGlobal address || classes.isMulticast address || classes.isPrivate address ||
    classes.isLoopback address || classes.isLinkLocal address || classes.isReserved address ||
    classes.isUnspecified address || extraBlocked.any (·.contains address)

section Guard

variable (library : Library)

def blockedIPv4 (address : IPv4Address) : Bool :=
  library.ipv4.refuses extraBlocked4 address

def embedded (address : IPv6Address) : Option IPv4Address :=
  match address.ipv4Mapped with
  | some ipv4 => some ipv4
  | none => if nat64.contains address.ip then some (address.bits 0) else address.sixtofour

def blockedAddress : Address → Bool
  | .v4 address => blockedIPv4 library address
  | .v6 address =>
      if address.teredo || address.ip.val / 2 ^ 32 = 0 then true
      else
        match embedded address with
        | some ipv4 => blockedIPv4 library ipv4
        | none =>
            if library.isSiteLocal address.ip then true
            else library.ipv6.refuses extraBlocked6 address.ip

def partValue (part : List Char) : Option Int :=
  if ['0', 'x'].isPrefixOf (library.lower part) then
    int 16 (if part.drop 2 = [] then ['0'] else part.drop 2)
  else if 1 < part.length ∧ part.head? = some '0' then int 8 part
  else int 10 part

def partValues (host : List Char) : Option (List Int) :=
  let parts := host.splitOn '.'
  if 1 ≤ parts.length ∧ parts.length ≤ 4 then parts.mapM (partValue library) else none

/-- `*head, last = values` -/
def inRange (values : List Int) : Bool :=
  !(values.dropLast.any (255 < ·) || 256 ^ (5 - values.length) ≤ values.getLastD 0)

def number (values : List Int) : Int :=
  Int.lor
    (values.dropLast.foldl (fun number value => Int.lor (number * 2 ^ 8) value) 0 *
      2 ^ (8 * (5 - values.length)))
    (values.getLastD 0)

/-- `ipaddress.IPv4Address(number)` -/
def ipv4OfInt (number : Int) : Except Raised IPv4Address :=
  if number < 0 then .error .addressValueError
  else
    match ofNat? 32 number.toNat with
    | none => .error .addressValueError
    | some address => .ok address

def legacyIPv4 (host : List Char) : Except Raised (Option IPv4Address) :=
  match partValues library host with
  | none => .ok none
  | some values => if inRange values then (ipv4OfInt (number values)).map some else .ok none

def isBracket (character : Char) : Bool := character = '[' || character = ']'

def isDot (character : Char) : Bool := character = '.'

def literalAddress (host : List Char) : Except Raised (Option Address) :=
  match ipAddress (strip isBracket host) with
  | some address => .ok (some address)
  | none => (legacyIPv4 library host).map (Option.map .v4)

def blockedNames : List (List Char) :=
  ["localhost".toList, "metadata".toList, "metadata.google.internal".toList]

def blockedSuffixes : List (List Char) :=
  [".localhost".toList, ".internal".toList, ".local".toList, ".home.arpa".toList, ".lan".toList]

def checkHost (host : List Char) : Except Raised Unit := do
  let name := library.lower (rstrip isDot host)
  if name = [] then throw (.unsafeUrl .invalidUrl)
  match ← literalAddress library name with
  | some literal =>
      if blockedAddress library literal then throw (.unsafeUrl .blockedAddress)
  | none =>
      if name ∈ blockedNames ∨ blockedSuffixes.any (·.isSuffixOf name) ∨ '.' ∉ name then
        throw (.unsafeUrl .internalName)

/-- `none` for an `OSError`. -/
abbrev Resolver := List Char → Nat → Option (List (List Char))

/-- `ip_address(answer.split("%", 1)[0])` -/
def answerAddress (answer : List Char) : Option Address :=
  ipAddress (answer.takeWhile (· ≠ '%'))

def pinnedAddress (host : List Char) (port : Nat) (resolve : Resolver) :
    Except Raised (List Char) := do
  checkHost library host
  match ← literalAddress library (rstrip isDot host) with
  | some literal => return literal.str
  | none =>
      match resolve host port with
      | none => throw (.unsafeUrl .unresolvable)
      | some answers =>
          match answers.mapM answerAddress with
          | none | some [] => throw (.unsafeUrl .unresolvable)
          | some (first :: rest) =>
              if (first :: rest).any (blockedAddress library) then
                throw (.unsafeUrl .blockedAddress)
              return first.str

end Guard

section Number

theorem lor_neg (first second : Int) :
    Int.lor first second < 0 ↔ first < 0 ∨ second < 0 := by
  cases first with
  | ofNat first =>
      cases second with
      | ofNat second =>
          simp only [Int.lor, Int.ofNat_eq_natCast]
          omega
      | negSucc second => simp [Int.lor, Int.negSucc_lt_zero]
  | negSucc first => cases second <;> simp [Int.lor, Int.negSucc_lt_zero]

theorem lor_lt {first second : Int} {bits : Nat} (positive : 0 ≤ first) (positive' : 0 ≤ second)
    (small : first < 2 ^ bits) (small' : second < 2 ^ bits) :
    Int.lor first second < 2 ^ bits := by
  lift first to Nat using positive
  lift second to Nat using positive'
  have bound : first ||| second < 2 ^ bits := Nat.or_lt_two_pow (by exact_mod_cast small)
    (by exact_mod_cast small')
  have same : Int.lor first second = ((first ||| second : Nat) : Int) := rfl
  rw [same]
  exact_mod_cast bound

theorem head_neg (head : List Int) (start : Int) :
    head.foldl (fun number value => Int.lor (number * 2 ^ 8) value) start < 0 ↔
      start < 0 ∨ ∃ value ∈ head, value < 0 := by
  induction head generalizing start with
  | nil => simp
  | cons value rest ih =>
      have sign : start * 2 ^ 8 < 0 ↔ start < 0 := by omega
      rw [List.foldl_cons, ih, lor_neg, sign, or_assoc]
      simp

theorem head_lt {head : List Int} {start : Int} {count : Nat} (positive : 0 ≤ start)
    (small : start < 2 ^ (8 * count)) (bytes : ∀ value ∈ head, 0 ≤ value ∧ value ≤ 255) :
    head.foldl (fun number value => Int.lor (number * 2 ^ 8) value) start <
      2 ^ (8 * (count + head.length)) := by
  induction head generalizing start count with
  | nil => simpa using small
  | cons value rest ih =>
      obtain ⟨low, high⟩ := bytes value List.mem_cons_self
      have wide : (2 : Int) ^ (8 * (count + 1)) = 2 ^ (8 * count) * 2 ^ 8 := by
        rw [← pow_add]
        congr 1
      have byte : (1 : Int) ≤ 2 ^ (8 * count) := one_le_pow₀ (by norm_num)
      rw [List.foldl_cons, List.length_cons, ← Nat.add_assoc, Nat.add_right_comm]
      apply ih
      · have sign := not_congr (lor_neg (start * 2 ^ 8) value)
        rw [not_lt] at sign
        refine sign.mpr ?_
        omega
      · apply lor_lt (by omega) low
        · rw [wide]
          omega
        · rw [wide]
          omega
      · exact fun other member => bytes other (List.mem_cons_of_mem _ member)

theorem getLastD_eq {values : List Int} (nonempty : values ≠ []) :
    values.getLastD 0 = values.getLast nonempty := by
  rw [List.getLastD_eq_getLast?, List.getLast?_eq_some_getLast nonempty, Option.getD_some]

theorem number_neg {values : List Int} (nonempty : values ≠ []) :
    number values < 0 ↔ ∃ value ∈ values, value < 0 := by
  have whole := List.dropLast_append_getLast nonempty
  have positive : (0 : Int) < 2 ^ (8 * (5 - values.length)) := by positivity
  have shift : ∀ head : Int, head * 2 ^ (8 * (5 - values.length)) < 0 ↔ head < 0 := by
    intro head
    constructor
    · intro sign
      by_contra natural
      exact absurd sign (not_lt.mpr (mul_nonneg (not_lt.mp natural) positive.le))
    · exact fun sign => mul_neg_of_neg_of_pos sign positive
  rw [number, lor_neg, shift, head_neg, getLastD_eq nonempty]
  constructor
  · rintro ((absurdity | ⟨value, member, sign⟩) | sign)
    · exact absurd absurdity (lt_irrefl 0)
    · exact ⟨value, List.dropLast_subset values member, sign⟩
    · exact ⟨_, List.getLast_mem nonempty, sign⟩
  · rintro ⟨value, member, sign⟩
    rw [← whole, List.mem_append, List.mem_singleton] at member
    rcases member with head | rfl
    · exact .inl (.inr ⟨value, head, sign⟩)
    · exact .inr sign

/-- Parts in their ranges that are not negative write an address of 32 bits. -/
theorem number_lt {values : List Int} (nonempty : values ≠ []) (few : values.length ≤ 4)
    (inside : inRange values = true) (positive : ∀ value ∈ values, 0 ≤ value) :
    number values < 2 ^ 32 := by
  simp only [inRange, Bool.not_eq_true', Bool.or_eq_false_iff, List.any_eq_false,
    decide_eq_true_eq, decide_eq_false_iff_not, not_lt, not_le] at inside
  obtain ⟨bytes, last⟩ := inside
  have head := @head_lt values.dropLast 0 0 (le_refl 0) (by norm_num) fun value member =>
    ⟨positive value (List.dropLast_subset values member), bytes value member⟩
  have sign : 0 ≤ values.dropLast.foldl (fun number value => Int.lor (number * 2 ^ 8) value) 0 := by
    rw [← not_lt, head_neg]
    rintro (absurdity | ⟨value, member, sign⟩)
    · exact lt_irrefl 0 absurdity
    · exact absurd sign (not_lt.mpr (positive value (List.dropLast_subset values member)))
  have lastSign : 0 ≤ values.getLastD 0 := by
    rw [getLastD_eq nonempty]
    exact positive _ (List.getLast_mem nonempty)
  have count : 0 < values.length := List.length_pos_iff.mpr nonempty
  rw [List.length_dropLast, Nat.zero_add] at head
  obtain one | two | three | four : values.length = 1 ∨ values.length = 2 ∨ values.length = 3 ∨
      values.length = 4 := by omega
  · rw [one] at head last
    rw [number, one]
    exact lor_lt (by omega) lastSign (by omega) (by omega)
  · rw [two] at head last
    rw [number, two]
    exact lor_lt (by omega) lastSign (by omega) (by omega)
  · rw [three] at head last
    rw [number, three]
    exact lor_lt (by omega) lastSign (by omega) (by omega)
  · rw [four] at head last
    rw [number, four]
    exact lor_lt (by omega) lastSign (by omega) (by omega)

end Number

section Spelling

variable (library : Library)

theorem ascii_of_x {mark : Char} (small : asciiLower mark = 'x') : mark.toNat < 128 := by
  by_cases upper : mark ∈ upperLetters
  · fin_cases upper <;> decide
  · rw [asciiLower, if_neg upper] at small
    rw [small]
    decide

theorem hexadecimal_iff (part : List Char) :
    ['0', 'x'].isPrefixOf (library.lower part) = true ↔
      ∃ mark rest, part = '0' :: mark :: rest ∧ asciiLower mark = 'x' := by
  have lowers := library.lowers part
  constructor
  · intro marked
    obtain ⟨more, same⟩ := List.isPrefixOf_iff_prefix.mp marked
    rw [← same] at lowers
    obtain ⟨first, tail, rfl, zero, lowers⟩ := lowers.of_head
      (not_inert (by decide) (by decide) (by decide))
    obtain ⟨mark, rest, rfl, small, -⟩ := lowers.of_head
      (not_inert (by decide) (by decide) (by decide))
    have zero : first = '0' := (zero_asciiLower first).mp zero
    exact ⟨mark, rest, by rw [zero], small⟩
  · rintro ⟨mark, rest, rfl, small⟩
    obtain ⟨tail, front, lowers⟩ := lowers.of_ascii (by decide)
    obtain ⟨more, back, -⟩ := lowers.of_ascii (ascii_of_x small)
    rw [front, back, small]
    rfl

theorem asciiLower_idem (character : Char) :
    asciiLower (asciiLower character) = asciiLower character := by
  refine asciiLower_cases (motive := fun before after => asciiLower after = after) ?_ ?_ character
  · intro letter upper
    fin_cases upper <;> rfl
  · intro other small
    rw [asciiLower, if_neg small]

theorem hexadecimal_asciiLower (part : List Char) :
    ['0', 'x'].isPrefixOf (library.lower (part.map asciiLower)) =
      ['0', 'x'].isPrefixOf (library.lower part) := by
  rw [Bool.eq_iff_iff, hexadecimal_iff, hexadecimal_iff]
  constructor
  · rintro ⟨mark, rest, same, small⟩
    match part, same with
    | [_], same => simp at same
    | first :: second :: more, same =>
        simp only [List.map_cons, List.cons.injEq] at same
        refine ⟨second, more, by rw [(zero_asciiLower first).mp same.1], ?_⟩
        rw [← asciiLower_idem, same.2.1, small]
  · rintro ⟨mark, rest, rfl, small⟩
    exact ⟨asciiLower mark, rest.map asciiLower, rfl, by rw [asciiLower_idem, small]⟩

theorem partValue_asciiLower (part : List Char) :
    partValue library (part.map asciiLower) = partValue library part := by
  have head : (part.map asciiLower).head? = some '0' ↔ part.head? = some '0' := by
    cases part with
    | nil => rfl
    | cons first rest => simp [zero_asciiLower]
  have tail : (if (part.map asciiLower).drop 2 = [] then ['0'] else (part.map asciiLower).drop 2) =
      (if part.drop 2 = [] then ['0'] else part.drop 2).map asciiLower := by
    rw [← List.map_drop]
    cases part.drop 2 <;> rfl
  simp only [partValue, hexadecimal_asciiLower, tail, List.length_map, head, int_asciiLower]

theorem partValue_of_inert {character : Char} (inert : Inert character) {part : List Char}
    (member : character ∈ part) : partValue library part = none := by
  unfold partValue
  split
  · rename_i marked
    obtain ⟨mark, rest, rfl, small⟩ := (hexadecimal_iff library part).mp marked
    have later : character ∈ rest := by
      rcases List.mem_cons.mp member with rfl | member
      · exact absurd inert (not_inert (by decide) (by decide) (by decide))
      · rcases List.mem_cons.mp member with rfl | later
        · rcases inert with foreign | rfl | rfl
          · exact absurd foreign.1 (Nat.not_le.mpr (ascii_of_x small))
          · exact absurd small (by decide)
          · exact absurd small (by decide)
        · exact later
    rw [List.drop_succ_cons, List.drop_succ_cons, List.drop_zero,
      if_neg (List.ne_nil_of_mem later)]
    exact int_of_inert inert (le_refl 16) later
  · split
    · exact int_of_inert inert (by decide) member
    · exact int_of_inert inert (by decide) member

theorem partValues_asciiLower (host : List Char) :
    partValues library (host.map asciiLower) = partValues library host := by
  simp only [partValues, splitOn_map dot_asciiLower, List.length_map,
    mapM_map (partValue_asciiLower library)]

theorem partValues_of_inert (host : List Char) {character : Char} (member : character ∈ host)
    (inert : Inert character) : partValues library host = none := by
  obtain ⟨part, belongs, inside⟩ :=
    @exists_part '.' _ _ member (inert.ne (by decide) (by decide) (by decide))
  simp only [partValues, mapM_none belongs (partValue_of_inert library inert inside), ite_self]

theorem steady_bracket : Steady isBracket where
  ascii character := by
    refine asciiLower_cases (motive := fun before after => isBracket after = isBracket before)
      ?_ ?_ character
    · intro letter upper
      fin_cases upper <;> rfl
    · exact fun _ _ => rfl
  inert first second earlier later := by
    have firstOpen : first ≠ '[' := earlier.ne (by decide) (by decide) (by decide)
    have firstClose : first ≠ ']' := earlier.ne (by decide) (by decide) (by decide)
    have secondOpen : second ≠ '[' := later.ne (by decide) (by decide) (by decide)
    have secondClose : second ≠ ']' := later.ne (by decide) (by decide) (by decide)
    simp [isBracket, firstOpen, firstClose, secondOpen, secondClose]

variable {text lowered : List Char}

theorem legacyIPv4_lowers (lowers : Lowers text lowered) :
    legacyIPv4 library lowered = legacyIPv4 library text := by
  have values : partValues library lowered = partValues library text :=
    lowers.read (partValues_asciiLower library)
      fun host _ member inert => partValues_of_inert library host member inert
  rw [legacyIPv4, values, legacyIPv4]

/-- A host and its lower-case form denote the same literal, scopes apart, or raise alike. -/
theorem literalAddress_lowers (lowers : Lowers text lowered) :
    (literalAddress library lowered).map (Option.map Address.unscoped) =
      (literalAddress library text).map (Option.map Address.unscoped) := by
  have read := ipAddress_lowers (steady_bracket.strip lowers)
  simp only [literalAddress]
  cases found : ipAddress (strip isBracket text) with
  | some address =>
      rw [found, Option.map_some] at read
      obtain ⟨other, same, equal⟩ := Option.map_eq_some_iff.mp read
      rw [same]
      simp [Except.map, equal]
  | none =>
      rw [found, Option.map_none, Option.map_eq_none_iff] at read
      rw [read]
      simp only [legacyIPv4_lowers library lowers]

theorem blockedAddress_unscoped (address : Address) :
    blockedAddress library address.unscoped = blockedAddress library address := by
  cases address <;> rfl

end Spelling

section Raising

variable (library : Library)

/-- A host with a sign in a part: no address in the usual spelling, but numeric parts in their
ranges, one of them negative. -/
def Negative (host : List Char) : Prop :=
  ipAddress (strip isBracket host) = none ∧
    ∃ values, partValues library host = some values ∧ inRange values = true ∧
      ∃ value ∈ values, value < 0

theorem length_partValues {host : List Char} {values : List Int}
    (read : partValues library host = some values) : values ≠ [] ∧ values.length ≤ 4 := by
  simp only [partValues, Option.ite_none_right_eq_some] at read
  obtain ⟨⟨some, few⟩, read⟩ := read
  have length := length_mapM read
  exact ⟨List.length_pos_iff.mp (by omega), by omega⟩

/-- `_legacy_ipv4` raises exactly when a part in range is negative. -/
theorem legacyIPv4_cases (host : List Char) :
    (legacyIPv4 library host = .error .addressValueError ∧
      ∃ values, partValues library host = some values ∧ inRange values = true ∧
        ∃ value ∈ values, value < 0) ∨
    ((∃ address, legacyIPv4 library host = .ok address) ∧
      ¬∃ values, partValues library host = some values ∧ inRange values = true ∧
        ∃ value ∈ values, value < 0) := by
  cases read : partValues library host with
  | none => exact .inr ⟨⟨none, by simp only [legacyIPv4, read]⟩, by simp⟩
  | some values =>
      obtain ⟨nonempty, few⟩ := length_partValues library read
      by_cases inside : inRange values = true
      · by_cases negative : ∃ value ∈ values, value < 0
        · left
          have below := (number_neg nonempty).mpr negative
          refine ⟨?_, values, rfl, inside, negative⟩
          simp only [legacyIPv4, read, if_pos inside, ipv4OfInt, if_pos below]
          rfl
        · right
          have positive : ∀ value ∈ values, 0 ≤ value := by
            intro value member
            by_contra sign
            exact negative ⟨value, member, not_le.mp sign⟩
          have natural : ¬number values < 0 := fun sign =>
            negative ((number_neg nonempty).mp sign)
          have bound := number_lt nonempty few inside positive
          have small : (number values).toNat < 2 ^ 32 := by omega
          refine ⟨⟨some ⟨(number values).toNat, small⟩, ?_⟩, ?_⟩
          · simp only [legacyIPv4, read, if_pos inside, ipv4OfInt, if_neg natural, ofNat?,
              dif_pos small]
            rfl
          · rintro ⟨others, same, -, sign⟩
            exact negative (Option.some.inj same ▸ sign)
      · right
        refine ⟨⟨none, by simp only [legacyIPv4, read, if_neg inside]⟩, ?_⟩
        rintro ⟨others, same, range, -⟩
        exact inside (Option.some.inj same ▸ range)

theorem literalAddress_cases (host : List Char) :
    (literalAddress library host = .error .addressValueError ∧ Negative library host) ∨
      ((∃ literal, literalAddress library host = .ok literal) ∧ ¬Negative library host) := by
  cases read : ipAddress (strip isBracket host) with
  | some address =>
      refine .inr ⟨⟨some address, by simp only [literalAddress, read]⟩, ?_⟩
      intro negative
      rw [negative.1] at read
      contradiction
  | none =>
      rcases legacyIPv4_cases library host with ⟨raised, values⟩ | ⟨⟨address, returned⟩, values⟩
      · exact .inl ⟨by simp only [literalAddress, read, raised]; rfl, read, values⟩
      · exact .inr ⟨⟨address.map .v4, by simp only [literalAddress, read, returned]; rfl⟩,
          fun negative => values negative.2⟩

theorem negative_lowers {text lowered : List Char} (lowers : Lowers text lowered) :
    Negative library lowered ↔ Negative library text := by
  have same := literalAddress_lowers library lowers
  rcases literalAddress_cases library lowered with ⟨raised, lowerNegative⟩ | ⟨⟨literal, returned⟩,
    lowerPositive⟩ <;>
  rcases literalAddress_cases library text with ⟨raised', negative⟩ | ⟨⟨literal', returned'⟩,
    positive⟩
  · exact iff_of_true lowerNegative negative
  · rw [raised, returned'] at same
    contradiction
  · rw [returned, raised'] at same
    contradiction
  · exact iff_of_false lowerPositive positive

/-- A result that a caller handles: a value, or a refusal. -/
def Handled {α : Type} (result : Except Raised α) : Prop :=
  (∃ value, result = .ok value) ∨ ∃ reason, result = .error (.unsafeUrl reason)

theorem handled_ok {α : Type} (value : α) : Handled (.ok value) := .inl ⟨value, rfl⟩

theorem handled_refused {α : Type} (reason : Reason) :
    Handled (.error (.unsafeUrl reason) : Except Raised α) := .inr ⟨reason, rfl⟩

theorem not_handled {α : Type} : ¬Handled (.error .addressValueError : Except Raised α) := by
  rintro (⟨value, same⟩ | ⟨reason, same⟩) <;> simp at same

theorem escaped_of_not_handled {α : Type} {result : Except Raised α}
    (escaped : ¬Handled result) : result = .error .addressValueError := by
  match result with
  | .ok value => exact absurd (handled_ok value) escaped
  | .error (.unsafeUrl reason) => exact absurd (handled_refused reason) escaped
  | .error .addressValueError => rfl

/-- What `check_host` does with a name that is not empty. -/
def judge (name : List Char) (literal : Option Address) : Except Raised Unit :=
  match literal with
  | some literal =>
      if blockedAddress library literal then .error (.unsafeUrl .blockedAddress) else .ok ()
  | none =>
      if name ∈ blockedNames ∨ blockedSuffixes.any (·.isSuffixOf name) ∨ '.' ∉ name then
        .error (.unsafeUrl .internalName)
      else .ok ()

theorem checkHost_empty {host : List Char} (empty : library.lower (rstrip isDot host) = []) :
    checkHost library host = .error (.unsafeUrl .invalidUrl) := by
  simp only [checkHost, empty]
  rfl

theorem checkHost_raised {host : List Char} {raised : Raised}
    (nonempty : library.lower (rstrip isDot host) ≠ [])
    (found : literalAddress library (library.lower (rstrip isDot host)) = .error raised) :
    checkHost library host = .error raised := by
  simp only [checkHost, if_neg nonempty, found]
  rfl

theorem checkHost_judged {host : List Char} {literal : Option Address}
    (nonempty : library.lower (rstrip isDot host) ≠ [])
    (found : literalAddress library (library.lower (rstrip isDot host)) = .ok literal) :
    checkHost library host = judge library (library.lower (rstrip isDot host)) literal := by
  simp only [checkHost, if_neg nonempty, found]
  cases literal with
  | none =>
      simp only [judge]
      split <;> rfl
  | some address =>
      simp only [judge]
      split <;> rfl

theorem judge_handled (name : List Char) (literal : Option Address) :
    Handled (judge library name literal) := by
  unfold judge
  split <;> split
  · exact handled_refused _
  · exact handled_ok _
  · exact handled_refused _
  · exact handled_ok _

theorem not_negative_nil : ¬Negative library [] := by
  rintro ⟨-, values, read, -⟩
  have refused : partValues library [] = none := by
    have decimal : ¬['0', 'x'].isPrefixOf (library.lower []) = true := by
      rw [hexadecimal_iff]
      rintro ⟨mark, rest, absurdity, -⟩
      contradiction
    have part : partValue library [] = none := by
      simp only [partValue, if_neg decimal]
      decide
    have parts : ([] : List Char).splitOn '.' = [[]] := rfl
    simp only [partValues, parts, List.mapM_cons, part]
    rfl
  rw [refused] at read
  contradiction

/-- `check_host` returns or refuses exactly when the host has no sign in a part. -/
theorem checkHost_handled_iff (host : List Char) :
    Handled (checkHost library host) ↔ ¬Negative library (rstrip isDot host) := by
  have lowers := library.lowers (rstrip isDot host)
  by_cases empty : library.lower (rstrip isDot host) = []
  · rw [checkHost_empty library empty, lowers.eq_nil_iff.mp empty]
    exact iff_of_true (handled_refused _) (not_negative_nil library)
  · rw [← negative_lowers library lowers]
    rcases literalAddress_cases library (library.lower (rstrip isDot host)) with
      ⟨raised, negative⟩ | ⟨⟨literal, returned⟩, positive⟩
    · rw [checkHost_raised library empty raised]
      exact iff_of_false not_handled fun positive => positive negative
    · rw [checkHost_judged library empty returned]
      exact iff_of_true (judge_handled library _ literal) positive

section Pinned

variable {host : List Char} {port : Nat} {resolve : Resolver}

theorem pinnedAddress_unchecked {raised : Raised} (refused : checkHost library host = .error raised) :
    pinnedAddress library host port resolve = .error raised := by
  simp only [pinnedAddress, refused]
  rfl

theorem pinnedAddress_literal {literal : Address} (checked : checkHost library host = .ok ())
    (found : literalAddress library (rstrip isDot host) = .ok (some literal)) :
    pinnedAddress library host port resolve = .ok literal.str := by
  simp only [pinnedAddress, checked, found]
  rfl

/-- Without a literal the host is dialled at the first of its answers, if none is blocked. -/
theorem pinnedAddress_resolved (checked : checkHost library host = .ok ())
    (found : literalAddress library (rstrip isDot host) = .ok none) :
    (∃ reason, pinnedAddress library host port resolve = .error (.unsafeUrl reason)) ∨
      ∃ answers first rest, resolve host port = some answers ∧
        answers.mapM answerAddress = some (first :: rest) ∧
        (first :: rest).any (blockedAddress library) = false ∧
        pinnedAddress library host port resolve = .ok first.str := by
  simp only [pinnedAddress, checked, found]
  cases answered : resolve host port with
  | none => exact .inl ⟨.unresolvable, rfl⟩
  | some answers =>
      cases read : answers.mapM answerAddress with
      | none => exact .inl ⟨.unresolvable, by simp only [read]; rfl⟩
      | some addresses =>
          cases addresses with
          | nil => exact .inl ⟨.unresolvable, by simp only [read]; rfl⟩
          | cons first rest =>
              by_cases blocked : (first :: rest).any (blockedAddress library) = true
              · exact .inl ⟨.blockedAddress, by simp only [read, if_pos blocked]; rfl⟩
              · right
                refine ⟨answers, first, rest, rfl, read, by simpa using blocked, ?_⟩
                simp only [read, if_neg blocked]
                rfl

/-- `pinned_address` returns or refuses exactly when the host has no sign in a part. -/
theorem pinnedAddress_handled_iff :
    Handled (pinnedAddress library host port resolve) ↔
      ¬Negative library (rstrip isDot host) := by
  have handled := checkHost_handled_iff library host
  cases checked : checkHost library host with
  | error raised =>
      rw [pinnedAddress_unchecked library checked, ← handled, checked]
      cases raised with
      | unsafeUrl reason => exact iff_of_true (handled_refused _) (handled_refused _)
      | addressValueError => exact iff_of_false not_handled not_handled
  | ok =>
      rw [checked] at handled
      have positive := handled.mp (handled_ok ())
      refine iff_of_true ?_ positive
      rcases literalAddress_cases library (rstrip isDot host) with
        ⟨-, negative⟩ | ⟨⟨literal, found⟩, -⟩
      · exact absurd negative positive
      · cases literal with
        | some literal =>
            rw [pinnedAddress_literal library checked found]
            exact handled_ok _
        | none =>
            rcases pinnedAddress_resolved library checked found with
              ⟨reason, refused⟩ | ⟨answers, first, rest, -, -, -, returned⟩
            · exact .inr ⟨reason, refused⟩
            · rw [returned]
              exact handled_ok _

end Pinned

/-- Exactly the hosts that write a negative part in the range of its place make the checks raise
anything but a refusal. -/
theorem host_checks_iff (host : List Char) (port : Nat) (resolve : Resolver) :
    ((∃ literal, literalAddress library host = .ok literal) ↔ ¬Negative library host) ∧
    (Handled (checkHost library host) ↔ ¬Negative library (rstrip isDot host)) ∧
    (Handled (pinnedAddress library host port resolve) ↔
      ¬Negative library (rstrip isDot host)) := by
  refine ⟨?_, checkHost_handled_iff library host, pinnedAddress_handled_iff library⟩
  rcases literalAddress_cases library host with ⟨raised, negative⟩ | ⟨returned, positive⟩
  · refine iff_of_false ?_ fun positive => positive negative
    rintro ⟨literal, returned⟩
    rw [raised] at returned
    contradiction
  · exact iff_of_true returned positive

end Raising

section Signs

def emptyClasses (bits : Nat) : Classes bits :=
  ⟨fun _ => true, fun _ => false, fun _ => false, fun _ => false, fun _ => false, fun _ => false,
    fun _ => false⟩

def openLibrary : Library where
  toLowercase := asciiLowercase
  ipv4 := emptyClasses 32
  ipv6 := emptyClasses 128
  isSiteLocal := fun _ => false

theorem negative_minus_one : Negative openLibrary ['-', '1'] :=
  ⟨by decide, [-1], by decide, by decide, -1, List.mem_singleton_self _, by decide⟩

/-- The host `-1` makes every check raise `AddressValueError`. -/
theorem minus_one_escapes :
    literalAddress openLibrary ['-', '1'] = .error .addressValueError ∧
      checkHost openLibrary ['-', '1'] = .error .addressValueError ∧
      pinnedAddress openLibrary ['-', '1'] 80 (fun _ _ => none) = .error .addressValueError := by
  have stripped : rstrip isDot ['-', '1'] = ['-', '1'] := rfl
  refine ⟨?_, ?_, ?_⟩
  · rcases literalAddress_cases openLibrary ['-', '1'] with ⟨raised, -⟩ | ⟨-, positive⟩
    · exact raised
    · exact absurd negative_minus_one positive
  · apply escaped_of_not_handled
    rw [checkHost_handled_iff, stripped]
    exact not_not_intro negative_minus_one
  · apply escaped_of_not_handled
    rw [pinnedAddress_handled_iff, stripped]
    exact not_not_intro negative_minus_one

end Signs

end Ovrly.Egress
