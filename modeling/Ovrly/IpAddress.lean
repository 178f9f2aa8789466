import Ovrly.OptionList
import Ovrly.PyInt

/-!
Python's `ipaddress`: the addresses that a text writes, the IPv4 addresses that an IPv6 address
embeds, and that the case of a text does not change its address.
-/

namespace IpAddress

open OptionList PyText

abbrev IPv4Address := Fin (2 ^ 32)

structure IPv6Address where
  ip : Fin (2 ^ 128)
  scopeId : Option (List Char) := none
  deriving DecidableEq, Repr

inductive Address
  | v4 (address : IPv4Address)
  | v6 (address : IPv6Address)
  deriving DecidableEq, Repr

def Address.unscoped : Address → Address
  | .v4 address => .v4 address
  | .v6 address => .v6 ⟨address.ip, none⟩

/-- An address of so many bits; `none` for an `AddressValueError`. -/
def ofNat? (bits number : Nat) : Option (Fin (2 ^ bits)) :=
  if bound : number < 2 ^ bits then some ⟨number, bound⟩ else none

section Parsing

def asciiDecimal (character : Char) : Bool := '0' ≤ character && character ≤ '9'

def parseOctet (octet : List Char) : Option Nat :=
  if octet.isEmpty then none
  else if !octet.all asciiDecimal then none
  else if 3 < octet.length then none
  else if octet ≠ ['0'] ∧ octet.head? = some '0' then none
  else if 255 < digitsValue octet then none
  else some (digitsValue octet)

def ipv4IntFromString (text : List Char) : Option Nat :=
  let octets := text.splitOn '.'
  if octets.length ≠ 4 then none
  else do
    let values ← octets.mapM parseOctet
    return values.foldl (fun number octet => 256 * number + octet) 0

def ipv4Address (text : List Char) : Option IPv4Address :=
  if '/' ∈ text then none else (ipv4IntFromString text).bind (ofNat? 32)

def hexDigit (character : Char) : Bool := (numeralValue character).any (· < 16)

def parseHextet (hextet : List Char) : Option Nat :=
  if !hextet.all hexDigit then none
  else if 4 < hextet.length then none
  else if hextet.isEmpty then none
  else readDigits 16 hextet

/-- `'%x' % number` -/
def hex (number : Nat) : List Char :=
  if number = 0 then ['0'] else ((Nat.digits 16 number).map Nat.digitChar).reverse

/-- The parts between colons, an IPv4 suffix among them in hexadecimal. -/
def ipv6Parts (text : List Char) : Option (List (List Char)) :=
  let parts := text.splitOn ':'
  if parts.length < 3 then none
  else if '.' ∈ parts.getLastD [] then do
    let ipv4 ← ipv4IntFromString (parts.getLastD [])
    return parts.dropLast ++ [hex (ipv4 / 65536), hex (ipv4 % 65536)]
  else some parts

/-- `parts_hi`, `parts_skipped` and `parts_lo` -/
structure Layout where
  high : Nat
  skipped : Nat
  low : Nat

def skips (parts : List (List Char)) : List Nat :=
  (List.range' 1 (parts.length - 2)).filter fun index => parts[index]? = some []

def layout (parts : List (List Char)) : Option Layout :=
  let leading := parts.head? = some []
  let trailing := parts.getLast? = some []
  match skips parts with
  | [] =>
      if parts.length ≠ 8 ∨ leading ∨ trailing then none
      else some ⟨parts.length, 0, 0⟩
  | [skip] =>
      let high := if leading then skip - 1 else skip
      let low := if trailing then parts.length - skip - 2 else parts.length - skip - 1
      if leading ∧ high ≠ 0 then none
      else if trailing ∧ low ≠ 0 then none
      else if 8 ≤ high + low then none
      else some ⟨high, 8 - (high + low), low⟩
  | _ => none

def ipv6IntFromString (text : List Char) : Option Nat := do
  let parts ← ipv6Parts text
  if 9 < parts.length then none
  let places ← layout parts
  let high ← (parts.take places.high).mapM parseHextet
  let low ← (parts.drop (parts.length - places.low)).mapM parseHextet
  return (high ++ List.replicate places.skipped 0 ++ low).foldl
    (fun number hextet => 65536 * number + hextet) 0

def splitScopeId (text : List Char) : Option (List Char × Option (List Char)) :=
  match text.dropWhile (· ≠ '%') with
  | [] => some (text.takeWhile (· ≠ '%'), none)
  | _ :: scope =>
      if scope = [] ∨ '%' ∈ scope then none
      else some (text.takeWhile (· ≠ '%'), some scope)

def ipv6Address (text : List Char) : Option IPv6Address :=
  if '/' ∈ text then none
  else do
    let (addr, scope) ← splitScopeId text
    let number ← ipv6IntFromString addr
    let ip ← ofNat? 128 number
    return ⟨ip, scope⟩

/-- `ip_address`; `none` for a `ValueError`. -/
def ipAddress (text : List Char) : Option Address :=
  ((ipv4Address text).map .v4).or ((ipv6Address text).map .v6)

end Parsing

section Writing

/-- `_compress_hextets`: the longest run of zeros found so far and the run at hand. -/
structure ZeroRun where
  bestStart : Nat := 0
  bestLength : Nat := 0
  start : Option Nat := none
  length : Nat := 0
  deriving DecidableEq, Repr

def ZeroRun.next (run : ZeroRun) (hextet : List Char) (index : Nat) : ZeroRun :=
  if hextet = ['0'] then
    let start := run.start.getD index
    let length := run.length + 1
    if run.bestLength < length then ⟨start, length, some start, length⟩
    else { run with start := some start, length := length }
  else { run with start := none, length := 0 }

def compressHextets (hextets : List (List Char)) : List (List Char) :=
  let run : ZeroRun := hextets.zipIdx.foldl (fun run entry => run.next entry.1 entry.2) {}
  if run.bestLength ≤ 1 then hextets
  else
    let last := run.bestStart + run.bestLength
    let after := hextets.drop last ++ if last = hextets.length then [[]] else []
    let whole := hextets.take run.bestStart ++ [[]] ++ after
    if run.bestStart = 0 then [] :: whole else whole

def places (base number : Nat) : Nat → List Nat
  | 0 => []
  | count + 1 => number / base ^ count % base :: places base number count

def Address.str : Address → List Char
  | .v4 address =>
      ['.'].intercalate ((places 256 address.val 4).map fun octet => Nat.toDigits 10 octet)
  | .v6 address =>
      let text := [':'].intercalate
        (compressHextets ((places 65536 address.ip.val 8).map hex))
      match address.scopeId with
      | none => text
      | some scope => text ++ '%' :: scope

end Writing

section Embedded

theorem mod_lt_ipv4 (number : Nat) : number % 2 ^ 32 < 2 ^ 32 :=
  Nat.mod_lt number (Nat.two_pow_pos 32)

def IPv6Address.bits (address : IPv6Address) (place : Nat) : IPv4Address :=
  ⟨address.ip.val / 2 ^ place % 2 ^ 32, mod_lt_ipv4 _⟩

def IPv6Address.ipv4Mapped (address : IPv6Address) : Option IPv4Address :=
  if address.ip.val / 2 ^ 32 = 0xFFFF then some (address.bits 0) else none

def IPv6Address.sixtofour (address : IPv6Address) : Option IPv4Address :=
  if address.ip.val / 2 ^ 112 = 0x2002 then some (address.bits 80) else none

def IPv6Address.teredo (address : IPv6Address) : Bool :=
  address.ip.val / 2 ^ 96 = 0x20010000

end Embedded

section Case

theorem asciiDecimal_asciiLower (character : Char) :
    asciiDecimal (asciiLower character) = asciiDecimal character := by
  refine asciiLower_cases
    (motive := fun before after => asciiDecimal after = asciiDecimal before) ?_ ?_ character
  · intro letter upper
    fin_cases upper <;> rfl
  · exact fun _ _ => rfl

theorem asciiLower_of_asciiDecimal {character : Char} (digit : asciiDecimal character = true) :
    asciiLower character = character := by
  rw [asciiLower, if_neg]
  intro upper
  fin_cases upper <;> exact Bool.noConfusion digit

theorem parseOctet_asciiLower (octet : List Char) :
    parseOctet (octet.map asciiLower) = parseOctet octet := by
  by_cases digits : octet.all asciiDecimal = true
  · have same : octet.map asciiLower = octet := by
      conv_rhs => rw [← List.map_id octet]
      apply List.map_congr_left
      intro character member
      exact asciiLower_of_asciiDecimal (List.all_eq_true.mp digits character member)
    rw [same]
  · have kept : (octet.map asciiLower).all asciiDecimal = octet.all asciiDecimal := by
      rw [List.all_map]
      congr 1
      funext character
      exact asciiDecimal_asciiLower character
    simp [parseOctet, kept, digits]

theorem asciiDecimal_of_inert {character : Char} (inert : Inert character) :
    asciiDecimal character = false := by
  rcases inert with foreign | rfl | rfl
  · have high : ¬character ≤ '9' := fun below =>
      absurd foreign.1 (Nat.not_le.mpr (Nat.lt_of_le_of_lt below (by decide)))
    simp [asciiDecimal, high]
  · rfl
  · rfl

theorem dot_asciiLower (character : Char) : asciiLower character = '.' ↔ character = '.' :=
  asciiLower_mark (by decide) (by intro letter upper; fin_cases upper <;> decide) character

theorem colon_asciiLower (character : Char) : asciiLower character = ':' ↔ character = ':' :=
  asciiLower_mark (by decide) (by intro letter upper; fin_cases upper <;> decide) character

theorem slash_asciiLower (character : Char) : asciiLower character = '/' ↔ character = '/' :=
  asciiLower_mark (by decide) (by intro letter upper; fin_cases upper <;> decide) character

theorem percent_asciiLower (character : Char) : asciiLower character = '%' ↔ character = '%' :=
  asciiLower_mark (by decide) (by intro letter upper; fin_cases upper <;> decide) character

theorem mem_map_asciiLower {mark : Char}
    (same : ∀ character, asciiLower character = mark ↔ character = mark) (text : List Char) :
    mark ∈ text.map asciiLower ↔ mark ∈ text := by
  rw [List.mem_map]
  constructor
  · rintro ⟨character, member, equal⟩
    exact (same character).mp equal ▸ member
  · exact fun member => ⟨mark, member, (same mark).mpr rfl⟩

theorem ipv4IntFromString_asciiLower (text : List Char) :
    ipv4IntFromString (text.map asciiLower) = ipv4IntFromString text := by
  simp only [ipv4IntFromString, splitOn_map dot_asciiLower, List.length_map,
    mapM_map parseOctet_asciiLower]

theorem exists_part {separator character : Char} {text : List Char} (member : character ∈ text)
    (other : character ≠ separator) : ∃ part ∈ text.splitOn separator, character ∈ part := by
  have kept : character ∈ (text.splitOn separator).flatten := by
    rw [flatten_splitOn, List.mem_filter]
    exact ⟨member, by simpa using other⟩
  exact List.mem_flatten.mp kept

theorem parseOctet_of_inert {character : Char} (inert : Inert character) {octet : List Char}
    (member : character ∈ octet) : parseOctet octet = none := by
  have refused : octet.all asciiDecimal = false := by
    rw [List.all_eq_false]
    exact ⟨character, member, by simp [asciiDecimal_of_inert inert]⟩
  simp [parseOctet, refused]

theorem ipv4IntFromString_of_inert {character : Char} (inert : Inert character)
    {text : List Char} (member : character ∈ text) : ipv4IntFromString text = none := by
  obtain ⟨part, belongs, inside⟩ :=
    @exists_part '.' _ _ member (inert.ne (by decide) (by decide) (by decide))
  simp only [ipv4IntFromString, mapM_none belongs (parseOctet_of_inert inert inside)]
  split <;> rfl

theorem hexDigit_asciiLower (character : Char) :
    hexDigit (asciiLower character) = hexDigit character := by
  rw [hexDigit, numeralValue_asciiLower, hexDigit]

theorem parseHextet_asciiLower (hextet : List Char) :
    parseHextet (hextet.map asciiLower) = parseHextet hextet := by
  have kept : (hextet.map asciiLower).all hexDigit = hextet.all hexDigit := by
    rw [List.all_map]
    congr 1
    funext character
    exact hexDigit_asciiLower character
  simp only [parseHextet, kept, List.length_map, readDigits_asciiLower, List.isEmpty_map]

theorem parseHextet_of_inert {character : Char} (inert : Inert character) {hextet : List Char}
    (member : character ∈ hextet) : parseHextet hextet = none := by
  simp only [parseHextet, readDigits_of_inert inert (le_refl 16) member, ite_self]

theorem hex_asciiLower (number : Nat) : (hex number).map asciiLower = hex number := by
  have small : ∀ digit < 16, asciiLower (Nat.digitChar digit) = Nat.digitChar digit := by decide
  unfold hex
  split
  · rfl
  · rw [List.map_reverse, List.map_map]
    congr 1
    apply List.map_congr_left
    intro digit member
    exact small digit (Nat.digits_lt_base (by decide) member)

theorem ipv6Parts_asciiLower (text : List Char) :
    ipv6Parts (text.map asciiLower) = (ipv6Parts text).map (List.map (List.map asciiLower)) := by
  have last : ((text.splitOn ':').map (List.map asciiLower)).getLastD [] =
      ((text.splitOn ':').getLastD []).map asciiLower := by
    rw [List.getLastD_eq_getLast?, List.getLastD_eq_getLast?, List.getLast?_map]
    cases (text.splitOn ':').getLast? <;> rfl
  simp only [ipv6Parts, splitOn_map colon_asciiLower, List.length_map, last,
    mem_map_asciiLower dot_asciiLower, ipv4IntFromString_asciiLower]
  split
  · rfl
  · split
    · cases ipv4IntFromString ((text.splitOn ':').getLastD []) with
      | none => rfl
      | some ipv4 => simp [hex_asciiLower]
    · rfl

theorem layout_asciiLower (parts : List (List Char)) :
    layout (parts.map (List.map asciiLower)) = layout parts := by
  simp [layout, skips, List.getLast?_map, List.head?_map]

theorem ipv6IntFromString_asciiLower (text : List Char) :
    ipv6IntFromString (text.map asciiLower) = ipv6IntFromString text := by
  rw [ipv6IntFromString, ipv6Parts_asciiLower, ipv6IntFromString]
  cases ipv6Parts text with
  | none => rfl
  | some parts =>
      simp only [Option.map_some, Option.bind_eq_bind, Option.bind_some, List.length_map,
        layout_asciiLower, ← List.map_take, ← List.map_drop, mapM_map parseHextet_asciiLower]

theorem part_read {parts : List (List Char)} {places : Layout}
    (laid : layout parts = some places) {part : List Char} (member : part ∈ parts)
    (nonempty : part ≠ []) :
    part ∈ parts.take places.high ∨ part ∈ parts.drop (parts.length - places.low) := by
  obtain ⟨index, bound, rfl⟩ := List.getElem_of_mem member
  cases found : skips parts with
  | nil =>
      simp only [layout, found, Option.ite_none_left_eq_some, Option.some.injEq] at laid
      obtain ⟨_, rfl⟩ := laid
      exact .inl (by rwa [List.take_length])
  | cons skip more =>
      cases more with
      | cons second rest => simp [layout, found] at laid
      | nil =>
          simp only [layout, found, Option.ite_none_left_eq_some, Option.some.injEq, not_and,
            not_not] at laid
          obtain ⟨front, back, _, rfl⟩ := laid
          have skipped : skip ∈ skips parts := by rw [found]; exact List.mem_singleton_self skip
          obtain ⟨inside, gap⟩ := List.mem_filter.mp skipped
          rw [List.mem_range'_1] at inside
          rw [decide_eq_true_eq, List.getElem?_eq_getElem (by omega)] at gap
          have elsewhere : index ≠ skip := by
            rintro rfl
            exact nonempty (Option.some.inj gap)
          by_cases before : index < skip
          · left
            rw [List.mem_take_iff_getElem]
            refine ⟨index, ?_, rfl⟩
            by_cases leading : parts.head? = some []
            · have only := front leading
              rw [if_pos leading] at only
              obtain rfl : index = 0 := by omega
              rw [List.head?_eq_getElem?, List.getElem?_eq_getElem bound] at leading
              exact absurd (Option.some.inj leading) nonempty
            · simp only [if_neg leading]
              omega
          · right
            rw [List.mem_drop_iff_getElem]
            by_cases trailing : parts.getLast? = some []
            · have only := back trailing
              rw [if_pos trailing] at only
              obtain rfl : index = parts.length - 1 := by omega
              rw [List.getLast?_eq_getElem?, List.getElem?_eq_getElem bound] at trailing
              exact absurd (Option.some.inj trailing) nonempty
            · simp only [if_neg trailing]
              refine ⟨index - skip - 1, by omega, ?_⟩
              congr 1
              omega

theorem ipv6Parts_of_inert {character : Char} (inert : Inert character) {text : List Char}
    (member : character ∈ text) {parts : List (List Char)} (split : ipv6Parts text = some parts) :
    ∃ part ∈ parts, character ∈ part := by
  obtain ⟨part, belongs, inside⟩ :=
    @exists_part ':' _ _ member (inert.ne (by decide) (by decide) (by decide))
  simp only [ipv6Parts, Option.ite_none_left_eq_some] at split
  obtain ⟨_, split⟩ := split
  by_cases suffixed : '.' ∈ (text.splitOn ':').getLastD []
  · rw [if_pos suffixed] at split
    cases read : ipv4IntFromString ((text.splitOn ':').getLastD []) with
    | none =>
        rw [read] at split
        contradiction
    | some ipv4 =>
        simp only [read, Option.bind_eq_bind, Option.bind_some, Option.pure_def,
          Option.some.injEq] at split
        subst split
        refine ⟨part, List.mem_append_left _ ?_, inside⟩
        have nonempty : text.splitOn ':' ≠ [] := List.ne_nil_of_mem belongs
        have whole := List.dropLast_append_getLast nonempty
        rw [← whole, List.mem_append, List.mem_singleton] at belongs
        rcases belongs with front | last
        · exact front
        · rw [List.getLastD_eq_getLast?, List.getLast?_eq_some_getLast nonempty,
            Option.getD_some, ← last] at read
          rw [ipv4IntFromString_of_inert inert inside] at read
          contradiction
  · rw [if_neg suffixed] at split
    exact ⟨part, Option.some.inj split ▸ belongs, inside⟩

theorem ipv6IntFromString_of_inert {character : Char} (inert : Inert character)
    {text : List Char} (member : character ∈ text) : ipv6IntFromString text = none := by
  cases split : ipv6Parts text with
  | none => simp [ipv6IntFromString, split]
  | some parts =>
      obtain ⟨part, belongs, inside⟩ := ipv6Parts_of_inert inert member split
      have refused := parseHextet_of_inert inert inside
      cases laid : layout parts with
      | none => simp [ipv6IntFromString, split, laid]
      | some places =>
          rcases part_read laid belongs (List.ne_nil_of_mem inside) with high | low
          · simp [ipv6IntFromString, split, laid, mapM_none high refused]
          · simp [ipv6IntFromString, split, laid, mapM_none low refused]

theorem steady_mark {mark : Char} (ascii : mark.toNat < 128) (i : mark ≠ 'i') (k : mark ≠ 'k')
    (same : ∀ character, asciiLower character = mark ↔ character = mark) :
    Steady (· = mark) where
  ascii character := by simp [same character]
  inert first second earlier later := by
    simp [earlier.ne ascii i k, later.ne ascii i k]

theorem steady_slash : Steady (· = '/') :=
  steady_mark (by decide) (by decide) (by decide) slash_asciiLower

theorem steady_percent : Steady (· = '%') :=
  steady_mark (by decide) (by decide) (by decide) percent_asciiLower

theorem Steady.other {test : Char → Bool} (steady : Steady test) : Steady (!test ·) where
  ascii character := by rw [steady.ascii]
  inert first second earlier later := by rw [steady.inert first second earlier later]

variable {text lowered : List Char}

theorem mem_lowers {mark : Char} (steady : Steady (· = mark)) (lowers : Lowers text lowered) :
    mark ∈ lowered ↔ mark ∈ text := by
  have same := steady.any lowers
  rw [Bool.eq_iff_iff, List.any_eq_true, List.any_eq_true] at same
  simpa using same

theorem ipv4Address_lowers (lowers : Lowers text lowered) :
    ipv4Address lowered = ipv4Address text := by
  have read : ipv4IntFromString lowered = ipv4IntFromString text :=
    lowers.read ipv4IntFromString_asciiLower
      fun _ _ member inert => ipv4IntFromString_of_inert inert member
  simp only [ipv4Address, mem_lowers steady_slash lowers, read]

/-- The address before a scope is lowered with the text, and there is a scope in both or in
neither. -/
theorem splitScopeId_lowers (lowers : Lowers text lowered) :
    splitScopeId text = none ∧ splitScopeId lowered = none ∨
      ∃ addr lower scope scope', splitScopeId text = some (addr, scope) ∧
        splitScopeId lowered = some (lower, scope') ∧ Lowers addr lower := by
  have steady : Steady (· ≠ '%') := by
    have other := Steady.other steady_percent
    simpa using other
  have addr := steady.takeWhile lowers
  have rest := steady.dropWhile lowers
  cases found : text.dropWhile (· ≠ '%') with
  | nil =>
      rw [found] at rest
      have none := rest.eq_nil_iff.mpr rfl
      exact .inr ⟨_, _, _, _, by rw [splitScopeId, found], by rw [splitScopeId, none], addr⟩
  | cons percent scope =>
      have mark : percent = '%' := by
        have stopped := List.head?_dropWhile_not (fun character => decide (character ≠ '%')) text
        rw [found] at stopped
        simpa using stopped
      rw [found, mark] at rest
      obtain ⟨scope', later, tail⟩ := rest.of_ascii (by decide)
      rw [(percent_asciiLower '%').mpr rfl] at later
      have same : scope' = [] ∨ '%' ∈ scope' ↔ scope = [] ∨ '%' ∈ scope := by
        rw [tail.eq_nil_iff, mem_lowers steady_percent tail]
      by_cases refused : scope = [] ∨ '%' ∈ scope
      · left
        simp only [splitScopeId, found, later, if_pos refused, if_pos (same.mpr refused), and_self]
      · right
        refine ⟨_, _, some scope, some scope', ?_, ?_, addr⟩
        · simp only [splitScopeId, found, if_neg refused]
        · simp only [splitScopeId, later, if_neg fun given => refused (same.mp given)]

theorem ipv6Address_lowers (lowers : Lowers text lowered) :
    (ipv6Address lowered).map IPv6Address.ip = (ipv6Address text).map IPv6Address.ip := by
  simp only [ipv6Address, mem_lowers steady_slash lowers]
  split
  · rfl
  · rcases splitScopeId_lowers lowers with ⟨none, none'⟩ | ⟨addr, lower, scope, scope', some,
      some', same⟩
    · rw [none, none']
    · have read : ipv6IntFromString lower = ipv6IntFromString addr :=
        same.read ipv6IntFromString_asciiLower
          fun _ _ member inert => ipv6IntFromString_of_inert inert member
      rw [some, some']
      simp only [Option.bind_eq_bind, Option.bind_some, read]
      cases ipv6IntFromString addr with
      | none => rfl
      | some number =>
          simp only [Option.bind_some]
          cases ofNat? 128 number <;> rfl

/-- A text and its lower-case form write the same address, scopes apart. -/
theorem ipAddress_lowers (lowers : Lowers text lowered) :
    (ipAddress lowered).map Address.unscoped = (ipAddress text).map Address.unscoped := by
  have six := ipv6Address_lowers lowers
  rw [ipAddress, ipv4Address_lowers lowers, ipAddress]
  cases ipv4Address text with
  | some address => rfl
  | none =>
      cases read : ipv6Address text with
      | none =>
          rw [read, Option.map_none, Option.map_eq_none_iff] at six
          rw [six]
      | some address =>
          rw [read, Option.map_some] at six
          obtain ⟨other, lowerRead, same⟩ := Option.map_eq_some_iff.mp six
          rw [lowerRead]
          simp [Address.unscoped, same]

end Case

end IpAddress
