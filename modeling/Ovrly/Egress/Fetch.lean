import Ovrly.Egress.Guard

/-!
The guard dials no internal address, and `fetch` follows redirects to checked URLs only
(`services/providers/egress.py`).
-/

namespace Ovrly.Egress

open OptionList PyText IpAddress

section Embedding

/-- The address is the mapped, NAT64 or 6to4 form of the IPv4 address. -/
def Embeds (ipv4 : IPv4Address) : Address → Prop
  | .v4 _ => False
  | .v6 address =>
      address.ip.val = 0xFFFF * 2 ^ 32 + ipv4.val ∨
        address.ip.val = 0x64FF9B * 2 ^ 96 + ipv4.val ∨
        ∃ rest < 2 ^ 80, address.ip.val = 0x2002 * 2 ^ 112 + ipv4.val * 2 ^ 80 + rest

theorem nat64_contains (ip : Fin (2 ^ 128)) :
    nat64.contains ip = decide (ip.val / 2 ^ 32 = 0x64FF9B0000000000000000) := rfl

theorem embedded_of_embeds {ipv4 : IPv4Address} {address : IPv6Address}
    (embeds : Embeds ipv4 (.v6 address)) : embedded address = some ipv4 := by
  have bound := ipv4.isLt
  rcases embeds with mapped | translated | ⟨rest, small, tunnelled⟩
  · have front : address.ip.val / 2 ^ 32 = 0xFFFF := by omega
    have low : address.bits 0 = ipv4 := by
      apply Fin.ext
      show address.ip.val / 2 ^ 0 % 2 ^ 32 = ipv4.val
      omega
    simp only [embedded, IPv6Address.ipv4Mapped, if_pos front, low]
  · have front : ¬address.ip.val / 2 ^ 32 = 0xFFFF := by omega
    have inside : nat64.contains address.ip = true := by
      rw [nat64_contains, decide_eq_true_eq]
      omega
    have low : address.bits 0 = ipv4 := by
      apply Fin.ext
      show address.ip.val / 2 ^ 0 % 2 ^ 32 = ipv4.val
      omega
    simp only [embedded, IPv6Address.ipv4Mapped, if_neg front, if_pos inside, low]
  · have front : ¬address.ip.val / 2 ^ 32 = 0xFFFF := by omega
    have outside : ¬nat64.contains address.ip = true := by
      rw [nat64_contains, decide_eq_true_eq]
      omega
    have marked : address.ip.val / 2 ^ 112 = 0x2002 := by omega
    have low : address.bits 80 = ipv4 := by
      apply Fin.ext
      show address.ip.val / 2 ^ 80 % 2 ^ 32 = ipv4.val
      omega
    simp only [embedded, IPv6Address.ipv4Mapped, if_neg front, if_neg outside,
      IPv6Address.sixtofour, if_pos marked, low]

/-- An address that embeds a blocked IPv4 address is blocked. -/
theorem blocked_of_embeds {library : Library} {ipv4 : IPv4Address} {address : Address}
    (embeds : Embeds ipv4 address) (blocked : blockedIPv4 library ipv4 = true) :
    blockedAddress library address = true := by
  cases address with
  | v4 address => exact absurd embeds id
  | v6 address =>
      simp only [blockedAddress, embedded_of_embeds embeds, blocked, ite_self]

end Embedding

section Pinning

variable {library : Library} {host : List Char}

theorem literal_not_blocked {literal : Address} (checked : checkHost library host = .ok ())
    (found : literalAddress library (rstrip isDot host) = .ok (some literal)) :
    blockedAddress library literal = false := by
  have same := literalAddress_lowers library (library.lowers (rstrip isDot host))
  rw [found] at same
  by_cases empty : library.lower (rstrip isDot host) = []
  · rw [checkHost_empty library empty] at checked
    contradiction
  · cases lowered : literalAddress library (library.lower (rstrip isDot host)) with
    | error raised =>
        rw [lowered] at same
        contradiction
    | ok answer =>
        cases answer with
        | none =>
            rw [lowered] at same
            simp [Except.map] at same
        | some other =>
            rw [lowered] at same
            simp only [Except.map, Option.map_some, Except.ok.injEq, Option.some.injEq] at same
            rw [checkHost_judged library empty lowered, judge] at checked
            rw [← blockedAddress_unscoped, ← same, blockedAddress_unscoped]
            by_contra blocked
            rw [if_pos (by simpa using blocked)] at checked
            contradiction

/-- The address that `pinned_address` returns is the literal of the host or one of the answers,
none of which is blocked; it is not blocked and embeds no blocked IPv4 address. -/
theorem pinned_not_blocked {port : Nat} {resolve : Resolver} {dialled : List Char}
    (pinned : pinnedAddress library host port resolve = .ok dialled) :
    checkHost library host = .ok () ∧
    ∃ address, dialled = address.str ∧ blockedAddress library address = false ∧
      (∀ ipv4, blockedIPv4 library ipv4 = true → ¬Embeds ipv4 address) ∧
      (literalAddress library (rstrip isDot host) = .ok (some address) ∨
        literalAddress library (rstrip isDot host) = .ok none ∧
        ∃ answers, resolve host port = some answers ∧
          (∃ answer ∈ answers, answerAddress answer = some address) ∧
          ∀ answer ∈ answers, ∃ other, answerAddress answer = some other ∧
            blockedAddress library other = false) := by
  have apart {address : Address} (open' : blockedAddress library address = false) :
      ∀ ipv4, blockedIPv4 library ipv4 = true → ¬Embeds ipv4 address := by
    intro ipv4 blocked embeds
    rw [blocked_of_embeds embeds blocked] at open'
    contradiction
  cases checked : checkHost library host with
  | error raised =>
      rw [pinnedAddress_unchecked library checked] at pinned
      contradiction
  | ok =>
      refine ⟨rfl, ?_⟩
      rcases literalAddress_cases library (rstrip isDot host) with
        ⟨-, negative⟩ | ⟨⟨literal, found⟩, -⟩
      · have handled := (checkHost_handled_iff library host).mp
          (by rw [checked]; exact handled_ok ())
        exact absurd negative handled
      · cases literal with
        | some literal =>
            rw [pinnedAddress_literal library checked found, Except.ok.injEq] at pinned
            have free := literal_not_blocked checked found
            exact ⟨literal, pinned.symm, free, apart free, .inl found⟩
        | none =>
            rcases pinnedAddress_resolved library checked found with
              ⟨reason, refused⟩ | ⟨answers, first, rest, answered, read, free, returned⟩
            · rw [refused] at pinned
              contradiction
            · rw [returned, Except.ok.injEq] at pinned
              rw [List.any_eq_false] at free
              obtain ⟨forth, back⟩ := mem_mapM read
              have openAll : ∀ address ∈ first :: rest,
                  blockedAddress library address = false := fun address member => by
                simpa using free address member
              have chosen := openAll first List.mem_cons_self
              refine ⟨first, pinned.symm, chosen, apart chosen, .inr ⟨found, answers, answered,
                back first List.mem_cons_self, ?_⟩⟩
              intro answer member
              obtain ⟨other, belongs, parsed⟩ := forth answer member
              exact ⟨other, parsed, openAll other belongs⟩

end Pinning

/-- `httpx.URL`: what the guard reads of a URL, and how one is made. Writing a URL and reading it
again, or merging parameters into it, changes none of the parts the guard looks at. -/
structure Urls (υ π : Type) where
  parse : List Char → Option υ
  str : υ → List Char
  scheme : υ → String
  userinfo : υ → List UInt8
  port : υ → Option Nat
  host : υ → List Char
  join : υ → List Char → Option υ
  copyMergeParams : υ → π → υ
  parse_str : ∀ url, ∃ read, parse (str url) = some read ∧ scheme read = scheme url ∧
    userinfo read = userinfo url ∧ port read = port url ∧ host read = host url
  merged : ∀ url params, scheme (copyMergeParams url params) = scheme url ∧
    userinfo (copyMergeParams url params) = userinfo url ∧
    port (copyMergeParams url params) = port url ∧ host (copyMergeParams url params) = host url

structure Response where
  statusCode : Nat
  /-- The `Location` header. -/
  location : Option (List Char)
  deriving DecidableEq, Repr

def redirectStatuses : List Nat := [301, 302, 303, 307, 308]

def allowedSchemes : List String := ["http", "https"]

def allowedPorts : List (Option Nat) := [none, some 80, some 443]

inductive FetchError
  | raised (raised : Raised)
  | providerError
  | assertionError
  deriving DecidableEq, Repr

/-- The requests that were sent, and what `fetch` returns or raises. -/
structure Fetched where
  requests : List (List Char)
  result : Except FetchError Response

section Fetch

variable {υ π : Type} (library : Library) (urls : Urls υ π)

/-- `check_url` of a parsed URL. -/
def checkUrl (url : υ) : Except Raised Unit :=
  if urls.scheme url ∉ allowedSchemes then .error (.unsafeUrl .schemeNotAllowed)
  else if urls.userinfo url ≠ [] then .error (.unsafeUrl .credentialsInUrl)
  else if urls.port url ∉ allowedPorts then .error (.unsafeUrl .portNotAllowed)
  else checkHost library (urls.host url)

/-- The `Location` to follow after a response. -/
def redirection (response : Response) : Option (List Char) :=
  if response.statusCode ∈ redirectStatuses then
    response.location.filter fun location => !location.isEmpty
  else none

def target (current : υ) (location : List Char) : Except Raised υ :=
  match urls.join current location with
  | none => .error (.unsafeUrl .invalidUrl)
  | some target =>
      match checkUrl library urls target with
      | .error raised => .error raised
      | .ok () =>
          if urls.scheme current = "https" ∧ urls.scheme target = "http" then
            .error (.unsafeUrl .schemeDowngrade)
          else .ok target

/-- The loop of `fetch`: `answers` is what `send` returns at each hop, `none` if it raises. -/
def follow (answers : Nat → Option Response) (maxRedirects : Int) :
    Nat → Nat → υ → Fetched
  | 0, _, _ => ⟨[], .error .assertionError⟩
  | remaining + 1, hop, current =>
      let request := urls.str current
      match answers hop with
      | none => ⟨[request], .error .providerError⟩
      | some response =>
          match redirection response with
          | none => ⟨[request], .ok response⟩
          | some location =>
              if (hop : Int) = maxRedirects then
                ⟨[request], .error (.raised (.unsafeUrl .tooManyRedirects))⟩
              else
                match target library urls current location with
                | .error raised => ⟨[request], .error (.raised raised)⟩
                | .ok next =>
                    let later := follow answers maxRedirects remaining (hop + 1) next
                    ⟨request :: later.requests, later.result⟩

def fetch (url : List Char) (params : Option π) (maxRedirects : Int)
    (answers : Nat → Option Response) : Fetched :=
  match urls.parse url with
  | none => ⟨[], .error (.raised (.unsafeUrl .invalidUrl))⟩
  | some parsed =>
      match checkUrl library urls parsed with
      | .error raised => ⟨[], .error (.raised raised)⟩
      | .ok () =>
          let current := match params with
            | none => parsed
            | some params => urls.copyMergeParams parsed params
          follow library urls answers maxRedirects (maxRedirects + 1).toNat 0 current

structure Allowed (url : υ) : Prop where
  scheme : urls.scheme url = "http" ∨ urls.scheme url = "https"
  userinfo : urls.userinfo url = []
  port : urls.port url = none ∨ urls.port url = some 80 ∨ urls.port url = some 443
  host : checkHost library (urls.host url) = .ok ()

variable {library urls}

theorem allowed_of_checkUrl {url : υ} (checked : checkUrl library urls url = .ok ()) :
    Allowed library urls url := by
  simp only [checkUrl] at checked
  split at checked
  · contradiction
  · rename_i scheme
    split at checked
    · contradiction
    · rename_i userinfo
      split at checked
      · contradiction
      · rename_i port
        exact ⟨by simpa [allowedSchemes] using not_not.mp scheme, not_not.mp userinfo,
          by simpa [allowedPorts] using not_not.mp port, checked⟩

theorem Allowed.of_same {first second : υ} (allowed : Allowed library urls first)
    (same : urls.scheme second = urls.scheme first ∧ urls.userinfo second = urls.userinfo first ∧
      urls.port second = urls.port first ∧ urls.host second = urls.host first) :
    Allowed library urls second := by
  obtain ⟨scheme, userinfo, port, host⟩ := same
  constructor
  · rw [scheme]
    exact allowed.scheme
  · rw [userinfo]
    exact allowed.userinfo
  · rw [port]
    exact allowed.port
  · rw [host]
    exact allowed.host

theorem target_ok {current next : υ} {location : List Char}
    (found : target library urls current location = .ok next) :
    Allowed library urls next ∧
      (urls.scheme current = "https" → urls.scheme next = "https") := by
  simp only [target] at found
  split at found
  · contradiction
  · split at found
    · contradiction
    · rename_i checked
      split at found
      · contradiction
      · rename_i upright
        obtain rfl := Except.ok.inj found
        have allowed := allowed_of_checkUrl checked
        refine ⟨allowed, fun secure => ?_⟩
        exact allowed.scheme.resolve_left fun insecure => upright ⟨secure, insecure⟩

/-- A request is the text of a URL that may be requested. -/
def Sends (library : Library) (urls : Urls υ π) (request : List Char) : Prop :=
  ∃ url, urls.parse request = some url ∧ Allowed library urls url

def HasScheme (urls : Urls υ π) (scheme : String) (request : List Char) : Prop :=
  ∃ url, urls.parse request = some url ∧ urls.scheme url = scheme

theorem sends_str {current : υ} (allowed : Allowed library urls current) :
    Sends library urls (urls.str current) := by
  obtain ⟨read, parsed, same⟩ := urls.parse_str current
  exact ⟨read, parsed, allowed.of_same same⟩

theorem hasScheme_str {current : υ} {scheme : String} :
    HasScheme urls scheme (urls.str current) ↔ urls.scheme current = scheme := by
  obtain ⟨read, parsed, same, -⟩ := urls.parse_str current
  constructor
  · rintro ⟨url, other, marked⟩
    rw [parsed, Option.some.injEq] at other
    rw [← same, other, marked]
  · intro marked
    exact ⟨read, parsed, same.trans marked⟩

/-- At most so many requests from a URL on: each is allowed, and none is plain after a secure
one. -/
structure Sound (library : Library) (urls : Urls υ π) (limit : Nat) (current : υ)
    (requests : List (List Char)) : Prop where
  few : requests.length ≤ limit
  allowed : ∀ request ∈ requests, Sends library urls request
  secure : urls.scheme current = "https" →
    ∀ request ∈ requests, HasScheme urls "https" request
  upright : requests.Pairwise fun earlier later =>
    HasScheme urls "https" earlier → HasScheme urls "https" later

theorem sound_last {limit : Nat} {current : υ} (allowed : Allowed library urls current) :
    Sound library urls (limit + 1) current [urls.str current] where
  few := Nat.succ_le_succ (Nat.zero_le limit)
  allowed := by
    intro request member
    rw [List.mem_singleton.mp member]
    exact sends_str allowed
  secure := by
    intro scheme request member
    rw [List.mem_singleton.mp member]
    exact hasScheme_str.mpr scheme
  upright := List.pairwise_singleton _ _

theorem Sound.next {limit : Nat} {current next : υ} {later : List (List Char)}
    (sound : Sound library urls limit next later) (allowed : Allowed library urls current)
    (kept : urls.scheme current = "https" → urls.scheme next = "https") :
    Sound library urls (limit + 1) current (urls.str current :: later) where
  few := Nat.succ_le_succ sound.few
  allowed := by
    intro request member
    rcases List.mem_cons.mp member with rfl | behind
    · exact sends_str allowed
    · exact sound.allowed request behind
  secure := by
    intro scheme request member
    rcases List.mem_cons.mp member with rfl | behind
    · exact hasScheme_str.mpr scheme
    · exact sound.secure (kept scheme) request behind
  upright := by
    refine List.pairwise_cons.mpr ⟨?_, sound.upright⟩
    intro request behind scheme
    exact sound.secure (kept (hasScheme_str.mp scheme)) request behind

theorem follow_sound {answers : Nat → Option Response} {maxRedirects : Int} {remaining hop : Nat}
    {current : υ} (allowed : Allowed library urls current) :
    Sound library urls remaining current
      (follow library urls answers maxRedirects remaining hop current).requests := by
  induction remaining generalizing hop current with
  | zero => exact ⟨le_refl 0, by simp [follow], by simp [follow], List.Pairwise.nil⟩
  | succ remaining ih =>
      simp only [follow]
      split
      · exact sound_last allowed
      · split
        · exact sound_last allowed
        · split
          · exact sound_last allowed
          · split
            · exact sound_last allowed
            · rename_i next found
              obtain ⟨checked, kept⟩ := target_ok found
              exact (ih checked).next allowed kept

theorem not_plain {request : List Char} (secure : HasScheme urls "https" request) :
    ¬HasScheme urls "http" request := by
  obtain ⟨url, parsed, scheme⟩ := secure
  rintro ⟨other, same, plain⟩
  obtain rfl : url = other := Option.some.inj (parsed.symm.trans same)
  rw [scheme] at plain
  exact absurd plain (by decide)

/-- The guard: `pinned_address` returns no blocked address, and `fetch` sends few requests, each to
an allowed URL, and none over plain HTTP after one over HTTPS. -/
theorem egress_safe (library : Library) (urls : Urls υ π) :
    (∀ host port resolve dialled, pinnedAddress library host port resolve = .ok dialled →
      checkHost library host = .ok () ∧
      ∃ address, dialled = address.str ∧ blockedAddress library address = false ∧
        (∀ ipv4, blockedIPv4 library ipv4 = true → ¬Embeds ipv4 address) ∧
        (literalAddress library (rstrip isDot host) = .ok (some address) ∨
          literalAddress library (rstrip isDot host) = .ok none ∧
          ∃ answers, resolve host port = some answers ∧
            (∃ answer ∈ answers, answerAddress answer = some address) ∧
            ∀ answer ∈ answers, ∃ other, answerAddress answer = some other ∧
              blockedAddress library other = false)) ∧
    ∀ url params (maxRedirects : Int) answers,
      let requests := (fetch library urls url params maxRedirects answers).requests
      (requests.length : Int) ≤ max 0 (maxRedirects + 1) ∧
      (∀ request ∈ requests, ∃ url, urls.parse request = some url ∧ Allowed library urls url) ∧
      requests.Pairwise fun earlier later =>
        HasScheme urls "https" earlier → ¬HasScheme urls "http" later := by
  refine ⟨fun _ _ _ _ pinned => pinned_not_blocked pinned, ?_⟩
  intro url params maxRedirects answers
  simp only [fetch]
  split
  · exact ⟨le_max_left _ _, by simp, List.Pairwise.nil⟩
  · rename_i parsed _
    split
    · exact ⟨le_max_left _ _, by simp, List.Pairwise.nil⟩
    · rename_i checked
      have allowed := allowed_of_checkUrl checked
      have start : Allowed library urls
          (match params with
            | none => parsed
            | some params => urls.copyMergeParams parsed params) := by
        cases params with
        | none => exact allowed
        | some params => exact allowed.of_same (urls.merged parsed params)
      have sound := @follow_sound _ _ library urls answers maxRedirects
        (maxRedirects + 1).toNat 0 _ start
      refine ⟨?_, sound.allowed, sound.upright.imp fun kept secure => not_plain (kept secure)⟩
      have few := sound.few
      omega

end Fetch

section Example

def plainParse (text : List Char) : Option (Bool × List Char) :=
  if text.take 8 = "https://".toList then some (true, text.drop 8)
  else if text.take 7 = "http://".toList then some (false, text.drop 7)
  else none

def plainUrls : Urls (Bool × List Char) Unit where
  parse := plainParse
  str url := (if url.1 then "https://".toList else "http://".toList) ++ url.2
  scheme url := if url.1 then "https" else "http"
  userinfo _ := []
  port _ := none
  host := Prod.snd
  join _ := plainParse
  copyMergeParams url _ := url
  parse_str := by
    rintro ⟨secure, host⟩
    refine ⟨(secure, host), ?_, rfl, rfl, rfl, rfl⟩
    cases secure <;> simp [plainParse]
  merged _ _ := ⟨rfl, rfl, rfl, rfl⟩

def exampleResolver : Resolver := fun _ _ =>
  some ["93.184.216.34".toList, "2606:2800::1".toList]

def exampleAnswers : Nat → Option Response
  | 0 => some ⟨301, some "https://news.example".toList⟩
  | _ => some ⟨302, some "http://news.example".toList⟩

theorem exampleAnswers_followed :
    (fetch openLibrary plainUrls "http://8.8.8.8".toList none 3 exampleAnswers).requests =
      ["http://8.8.8.8".toList, "https://news.example".toList] := by
  decide +kernel

theorem egress_safe_example :
    (∃ address, "93.184.216.34".toList = address.str ∧
      blockedAddress openLibrary address = false) ∧
    ["http://8.8.8.8".toList, "https://news.example".toList].Pairwise fun earlier later =>
      HasScheme plainUrls "https" earlier → ¬HasScheme plainUrls "http" later := by
  obtain ⟨pins, fetches⟩ := egress_safe openLibrary plainUrls
  obtain ⟨-, address, dialled, free, -⟩ :=
    pins "news.example".toList 443 exampleResolver "93.184.216.34".toList (by decide +kernel)
  obtain ⟨-, -, upright⟩ := fetches "http://8.8.8.8".toList none 3 exampleAnswers
  rw [exampleAnswers_followed] at upright
  exact ⟨⟨address, dialled, free⟩, upright⟩

end Example

end Ovrly.Egress
