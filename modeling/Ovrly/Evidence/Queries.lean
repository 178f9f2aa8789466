import Ovrly.Evidence.Retrieval

/-!
Planning of the search queries for one claim (`plan_queries` of `evidence/retrieval.py`).

The router's answer is an input: a plan that the check accepted, one of the failures that are
answered with the claim's own words, or an error that passes through to the job.
-/

namespace Ovrly.Evidence

open Ovrly.Extraction (isSpace)

def maxQueryWords : Nat := 16

structure QueryItem where
  kind : QueryKind
  text : String
  bounds : 3 ≤ text.length ∧ text.length ≤ 300

structure QueryPlan where
  queries : List QueryItem
  bounds : 1 ≤ queries.length ∧ queries.length ≤ 12

/-- `Budget`, of which planning reads the number of queries. -/
structure Budget where
  maxQueries : Nat
  positive : 1 ≤ maxQueries

inductive RouterFailure
  | providerError
  | invalidReply
  | budgetExhausted
  deriving DecidableEq, Repr

/-- What `plan_queries` can raise: the validation of an item, or an error of the router that it
does not catch. -/
inductive Raised
  | stringTooShort
  | stringTooLong
  | rateLimited
  | providerRejected
  deriving DecidableEq, Repr

inductive QuerySource
  | router
  | fallback
  deriving DecidableEq, Repr

/-- `check` of `plan_queries` -/
def QueryPlan.check (plan : QueryPlan) : Option String :=
  if plan.queries.any (·.kind = .neutral) then none
  else some "at least one neutral query is required"

/-- How `RouterClient.structured` ends: it returns only what the check accepts. -/
inductive RouterOutcome
  | plan (plan : QueryPlan) (accepted : plan.check = none)
  | failed (failure : RouterFailure)
  | passed (error : Raised)

def firstWords (text : String) : String :=
  String.ofList (PyText.join ((PyText.split isSpace text.toList).take maxQueryWords))

def fallbackQuery (proposition : String) : String := firstWords proposition

/-- The constructor of `QueryItem` with its validation. -/
def queryItem (kind : QueryKind) (text : String) : Except Raised QueryItem :=
  if short : text.length < 3 then .error .stringTooShort
  else if long : 300 < text.length then .error .stringTooLong
  else .ok ⟨kind, text, Nat.not_lt.mp short, Nat.not_lt.mp long⟩

variable (lower : String → String)

def collect (seen : List String) : List QueryItem → Except Raised (List QueryItem)
  | [] => .ok []
  | item :: rest =>
      let text := firstWords item.text
      if lower text ∈ seen then collect seen rest
      else do
        let query ← queryItem item.kind text
        let queries ← collect (lower text :: seen) rest
        return query :: queries

/-- The kinds in turn, so that the cut keeps one of each. -/
def interleave (queries : List QueryItem) : List QueryItem :=
  let neutral := queries.filter (·.kind = .neutral)
  let disconfirming := queries.filter (·.kind = .disconfirming)
  neutral.take 1 ++ disconfirming.take 1 ++ neutral.drop 1 ++ disconfirming.drop 1

def planQueries (outcome : RouterOutcome) (proposition : String) (budget : Budget) :
    Except Raised (List QueryItem × QuerySource) :=
  match outcome with
  | .plan plan _ => do
      let queries ← collect lower [] plan.queries
      return ((interleave queries).take budget.maxQueries, .router)
  | .failed _ => do
      let query ← queryItem .neutral (fallbackQuery proposition)
      return ([query], .fallback)
  | .passed error => .error error

section Items

theorem queryItem_ok {kind : QueryKind} {text : String} {item : QueryItem}
    (built : queryItem kind text = .ok item) : item.kind = kind ∧ item.text = text := by
  unfold queryItem at built
  split at built
  · cases built
  · split at built
    · cases built
    · cases built
      exact ⟨rfl, rfl⟩

theorem queryItem_iff (kind : QueryKind) (text : String) :
    (∃ item, queryItem kind text = .ok item) ↔ 3 ≤ text.length ∧ text.length ≤ 300 := by
  unfold queryItem
  constructor
  · rintro ⟨item, built⟩
    split at built
    · cases built
    · split at built
      · cases built
      · omega
  · rintro ⟨long, short⟩
    rw [dif_neg (by omega), dif_neg (by omega)]
    exact ⟨_, rfl⟩

theorem firstWords_length (text : String) : (firstWords text).length ≤ text.length := by
  have shorter := PyText.length_join_split isSpace text.toList maxQueryWords
  rw [firstWords, String.length_ofList, ← String.length_toList]
  exact shorter

end Items

section Collecting

def queryKey (item : QueryItem) : String := lower (firstWords item.text)

/-- No earlier item of the plan has this one's text. -/
def FirstOfText (items : List QueryItem) (item : QueryItem) : Prop :=
  ∃ before after, items = before ++ item :: after ∧
    ∀ earlier ∈ before, queryKey lower earlier ≠ queryKey lower item

structure Collected (seen : List String) (items queries : List QueryItem) : Prop where
  distinct : (queries.map (lower ·.text)).Nodup
  fresh : ∀ query ∈ queries, lower query.text ∉ seen
  first : ∀ query ∈ queries, ∃ item, FirstOfText lower items item ∧ query.kind = item.kind ∧
    query.text = firstWords item.text
  complete : ∀ item, FirstOfText lower items item → queryKey lower item ∉ seen →
    ∃ query ∈ queries, query.kind = item.kind ∧ query.text = firstWords item.text

variable {lower}

theorem firstOfText_cons {items : List QueryItem} {head item : QueryItem} :
    FirstOfText lower (head :: items) item ↔
      item = head ∨ (queryKey lower head ≠ queryKey lower item ∧ FirstOfText lower items item) := by
  constructor
  · rintro ⟨before, after, split, new⟩
    cases before with
    | nil => exact Or.inl (List.cons.inj split).1.symm
    | cons first before =>
        obtain ⟨rfl, rest⟩ := List.cons.inj split
        exact Or.inr ⟨new head (by simp), before, after, rest,
          fun earlier member => new earlier (by simp [member])⟩
  · rintro (rfl | ⟨other, before, after, rfl, new⟩)
    · exact ⟨[], items, rfl, by simp⟩
    · refine ⟨head :: before, after, rfl, ?_⟩
      intro earlier member
      rcases List.mem_cons.mp member with rfl | member
      · exact other
      · exact new earlier member

theorem collect_ok {seen : List String} {items queries : List QueryItem}
    (collected : collect lower seen items = .ok queries) : Collected lower seen items queries := by
  induction items generalizing seen queries with
  | nil =>
      cases collected
      refine ⟨List.nodup_nil, by simp, by simp, ?_⟩
      rintro item ⟨before, after, split, -⟩
      simp at split
  | cons item items ih =>
      unfold collect at collected
      by_cases known : lower (firstWords item.text) ∈ seen
      · rw [if_pos known] at collected
        have rest := ih collected
        refine ⟨rest.distinct, rest.fresh, ?_, ?_⟩
        · intro query member
          obtain ⟨other, first, kind, text⟩ := rest.first query member
          refine ⟨other, firstOfText_cons.mpr (Or.inr ⟨?_, first⟩), kind, text⟩
          intro same
          refine rest.fresh query member ?_
          rw [text, show lower (firstWords other.text) = queryKey lower item from same.symm]
          exact known
        · intro other first new
          rcases firstOfText_cons.mp first with rfl | ⟨-, first⟩
          · exact absurd known new
          · exact rest.complete other first new
      · rw [if_neg known] at collected
        cases built : queryItem item.kind (firstWords item.text) with
        | error raised => rw [built] at collected; cases collected
        | ok query =>
            rw [built] at collected
            cases following : collect lower (lower (firstWords item.text) :: seen) items with
            | error raised =>
                simp only [following] at collected
                cases collected
            | ok others =>
                simp only [following] at collected
                cases collected
                obtain ⟨kind, text⟩ := queryItem_ok built
                have rest := ih following
                refine ⟨?_, ?_, ?_, ?_⟩
                · refine List.nodup_cons.mpr ⟨?_, rest.distinct⟩
                  intro member
                  obtain ⟨other, listed, same⟩ := List.mem_map.mp member
                  refine rest.fresh other listed (List.mem_cons.mpr (Or.inl ?_))
                  exact same.trans (congrArg lower text)
                · intro other member
                  rcases List.mem_cons.mp member with rfl | member
                  · rw [text]
                    exact known
                  · exact fun old => rest.fresh other member (List.mem_cons_of_mem _ old)
                · intro other member
                  rcases List.mem_cons.mp member with rfl | member
                  · exact ⟨item, firstOfText_cons.mpr (Or.inl rfl), kind, text⟩
                  · obtain ⟨source, first, same, cut⟩ := rest.first other member
                    refine ⟨source, firstOfText_cons.mpr (Or.inr ⟨?_, first⟩), same, cut⟩
                    intro equal
                    refine rest.fresh other member (List.mem_cons.mpr (Or.inl ?_))
                    rw [cut]
                    exact equal.symm
                · intro other first new
                  rcases firstOfText_cons.mp first with rfl | ⟨differs, first⟩
                  · exact ⟨query, by simp, kind, text⟩
                  · obtain ⟨made, member, same⟩ := rest.complete other first (by
                      rw [List.mem_cons]
                      rintro (equal | old)
                      · exact differs equal.symm
                      · exact new old)
                    exact ⟨made, by simp [member], same⟩

/-- The loop ends without an error exactly when every text it has not seen is long enough. -/
theorem collect_iff (seen : List String) (items : List QueryItem) :
    (∃ queries, collect lower seen items = .ok queries) ↔
      ∀ item, FirstOfText lower items item → queryKey lower item ∉ seen →
        3 ≤ (firstWords item.text).length := by
  induction items generalizing seen with
  | nil =>
      constructor
      · rintro - item ⟨before, after, split, -⟩
        simp at split
      · exact fun _ => ⟨[], rfl⟩
  | cons item items ih =>
      unfold collect
      by_cases known : lower (firstWords item.text) ∈ seen
      · rw [if_pos known, ih]
        constructor
        · intro long other first new
          rcases firstOfText_cons.mp first with rfl | ⟨-, first⟩
          · exact absurd known new
          · exact long other first new
        · intro long other first new
          refine long other (firstOfText_cons.mpr (Or.inr ⟨?_, first⟩)) new
          intro same
          rw [← same] at new
          exact new known
      · rw [if_neg known]
        have short := (firstWords_length item.text).trans item.bounds.2
        have step := ih (lower (firstWords item.text) :: seen)
        constructor
        · rintro ⟨queries, collected⟩
          cases built : queryItem item.kind (firstWords item.text) with
          | error raised => rw [built] at collected; cases collected
          | ok query =>
              rw [built] at collected
              have here := (queryItem_iff _ _).mp ⟨query, built⟩
              cases following : collect lower (lower (firstWords item.text) :: seen) items with
              | error raised =>
                  simp only [following] at collected
                  cases collected
              | ok others =>
                  intro other first new
                  rcases firstOfText_cons.mp first with rfl | ⟨differs, first⟩
                  · exact here.1
                  · refine step.mp ⟨others, following⟩ other first ?_
                    rw [List.mem_cons]
                    rintro (equal | old)
                    · exact differs equal.symm
                    · exact new old
        · intro long
          obtain ⟨query, built⟩ := (queryItem_iff item.kind _).mpr
            ⟨long item (firstOfText_cons.mpr (Or.inl rfl)) known, short⟩
          obtain ⟨others, following⟩ := step.mpr (fun other first new => by
            simp only [List.mem_cons, not_or] at new
            exact long other (firstOfText_cons.mpr (Or.inr ⟨fun same => new.1 same.symm, first⟩))
              new.2)
          rw [built]
          exact ⟨query :: others, by simp [following, bind, Except.bind, pure, Except.pure]⟩

end Collecting

section Planning

variable (lower : String → String)

/-- The first of each kind leads, so a cut at two keeps both. -/
theorem interleave_perm (queries : List QueryItem) : (interleave queries).Perm queries := by
  have halves : ∀ (one two : List QueryItem),
      (one.take 1 ++ two.take 1 ++ one.drop 1 ++ two.drop 1).Perm (one ++ two) := by
    intro one two
    cases one with
    | nil => cases two <;> simp
    | cons first one =>
        cases two with
        | nil => simp
        | cons second two => simpa using List.perm_middle.symm
  have other : ∀ query : QueryItem,
      (decide (query.kind = .disconfirming)) = !decide (query.kind = .neutral) := by
    intro query
    cases query.kind <;> rfl
  refine (halves _ _).trans ?_
  simp only [other]
  exact List.filter_append_perm _ queries

theorem interleave_take {queries : List QueryItem} {count : Nat} (kind : QueryKind)
    (room : match kind with | .neutral => 1 ≤ count | .disconfirming => 2 ≤ count)
    (present : ∃ query ∈ queries, query.kind = kind) :
    ∃ query ∈ (interleave queries).take count, query.kind = kind := by
  have leads : ∀ kind, (∃ query ∈ queries, query.kind = kind) →
      ∃ first rest, queries.filter (·.kind = kind) = first :: rest ∧ first.kind = kind := by
    rintro kind ⟨query, member, same⟩
    have listed : query ∈ queries.filter (·.kind = kind) := by simp [member, same]
    cases found : queries.filter (·.kind = kind) with
    | nil => rw [found] at listed; cases listed
    | cons first rest =>
        have kept : first ∈ queries.filter (·.kind = kind) := by simp [found]
        exact ⟨first, rest, rfl, by simpa using (List.mem_filter.mp kept).2⟩
  obtain ⟨first, rest, found, same⟩ := leads kind present
  refine ⟨first, ?_, same⟩
  obtain ⟨more, rfl⟩ : ∃ more, count = more + 1 :=
    ⟨count - 1, by cases kind <;> simp at room <;> omega⟩
  cases kind with
  | neutral => simp [interleave, found]
  | disconfirming =>
      obtain ⟨again, rfl⟩ : ∃ again, more = again + 1 := ⟨more - 1, by simp at room; omega⟩
      cases other : queries.filter (·.kind = .neutral) with
      | nil => simp [interleave, found, other]
      | cons head tail => simp [interleave, found, other]

/-- The plan is usable: within the budget, without repetitions, with a neutral query, and with a
disconfirming one if the router wrote one whose text no neutral query has. The bounds of the texts
are part of `QueryItem`. -/
structure Usable (outcome : RouterOutcome) (budget : Budget) (queries : List QueryItem) : Prop where
  nonempty : 1 ≤ queries.length
  capped : queries.length ≤ budget.maxQueries
  distinct : (queries.map (lower ·.text)).Nodup
  neutral : ∃ query ∈ queries, query.kind = .neutral
  disconfirming : ∀ plan accepted, outcome = .plan plan accepted → 2 ≤ budget.maxQueries →
    (∃ item ∈ plan.queries, item.kind = .disconfirming ∧
      ∀ other ∈ plan.queries, other.kind = .neutral → queryKey lower other ≠ queryKey lower item) →
    ∃ query ∈ queries, query.kind = .disconfirming

/-- When planning succeeds: every text that is used for the first time keeps three characters
between its white space, and a neutral item is the first with its text. -/
def Plannable (proposition : String) : RouterOutcome → Prop
  | .plan plan _ =>
      (∀ item, FirstOfText lower plan.queries item → 3 ≤ (firstWords item.text).length) ∧
        ∃ item, FirstOfText lower plan.queries item ∧ item.kind = .neutral
  | .failed _ =>
      3 ≤ (fallbackQuery proposition).length ∧ (fallbackQuery proposition).length ≤ 300
  | .passed _ => False

variable {lower}

theorem FirstOfText.mem {items : List QueryItem} {item : QueryItem}
    (first : FirstOfText lower items item) : item ∈ items := by
  obtain ⟨before, after, rfl, -⟩ := first
  simp

theorem exists_firstOfText {items : List QueryItem} {item : QueryItem} (member : item ∈ items) :
    ∃ first, FirstOfText lower items first ∧ queryKey lower first = queryKey lower item := by
  induction items with
  | nil => cases member
  | cons head items ih =>
      by_cases same : queryKey lower head = queryKey lower item
      · exact ⟨head, firstOfText_cons.mpr (Or.inl rfl), same⟩
      · rcases List.mem_cons.mp member with rfl | member
        · exact absurd rfl same
        · obtain ⟨first, earliest, equal⟩ := ih member
          exact ⟨first, firstOfText_cons.mpr (Or.inr ⟨fun again => same (again.trans equal),
            earliest⟩), equal⟩

theorem planQueries_usable {plan : QueryPlan} {accepted : plan.check = none}
    {queries : List QueryItem} {budget : Budget} (collected : Collected lower [] plan.queries queries)
    (neutral : ∃ item, FirstOfText lower plan.queries item ∧ item.kind = .neutral) :
    Usable lower (.plan plan accepted) budget ((interleave queries).take budget.maxQueries) := by
  have positive := budget.positive
  have kept : ∃ query ∈ (interleave queries).take budget.maxQueries, query.kind = .neutral := by
    obtain ⟨item, first, kind⟩ := neutral
    obtain ⟨query, member, same, -⟩ := collected.complete item first (by simp)
    exact interleave_take .neutral positive ⟨query, member, same.trans kind⟩
  refine ⟨?_, ?_, ?_, kept, ?_⟩
  · obtain ⟨query, member, -⟩ := kept
    exact List.length_pos_of_mem member
  · exact List.length_take_le _ _
  · have whole := ((interleave_perm queries).map (lower ·.text)).nodup_iff.mpr collected.distinct
    exact whole.sublist ((List.take_sublist _ _).map _)
  · rintro plan' accepted' same room ⟨item, member, kind, alone⟩
    obtain rfl : plan = plan' := by
      injection same
    obtain ⟨first, earliest, equal⟩ := @exists_firstOfText lower _ _ member
    have disconfirming : first.kind = .disconfirming := by
      cases of : first.kind with
      | neutral => exact absurd equal (alone first earliest.mem of)
      | disconfirming => rfl
    obtain ⟨query, listed, kept, -⟩ := collected.complete first earliest (by simp)
    exact interleave_take .disconfirming room ⟨query, listed, kept.trans disconfirming⟩

theorem planQueries_iff (lower : String → String) (outcome : RouterOutcome) (proposition : String)
    (budget : Budget) :
    (∃ queries source, planQueries lower outcome proposition budget = .ok (queries, source) ∧
      Usable lower outcome budget queries) ↔ Plannable lower proposition outcome := by
  cases outcome with
  | passed error => simp [planQueries, Plannable]
  | failed failure =>
      have built := queryItem_iff .neutral (fallbackQuery proposition)
      simp only [planQueries, Plannable]
      rw [← built]
      constructor
      · rintro ⟨queries, source, planned, -⟩
        cases made : queryItem .neutral (fallbackQuery proposition) with
        | error raised => rw [made] at planned; cases planned
        | ok query => exact ⟨query, rfl⟩
      · rintro ⟨query, made⟩
        rw [made]
        refine ⟨[query], .fallback, rfl, ?_, ?_, ?_, ?_, ?_⟩
        · simp
        · simpa using budget.positive
        · simp
        · exact ⟨query, by simp, (queryItem_ok made).1⟩
        · intro plan accepted impossible
          cases impossible
  | plan plan accepted =>
      simp only [planQueries, Plannable]
      constructor
      · rintro ⟨queries, source, planned, usable⟩
        cases looped : collect lower [] plan.queries with
        | error raised => rw [looped] at planned; cases planned
        | ok collected =>
            rw [looped] at planned
            cases planned
            refine ⟨fun item first => (collect_iff [] plan.queries).mp ⟨collected, looped⟩ item first
              (by simp), ?_⟩
            obtain ⟨query, member, kind⟩ := usable.neutral
            have listed := (interleave_perm collected).subset (List.mem_of_mem_take member)
            obtain ⟨item, first, same, -⟩ := (collect_ok looped).first query listed
            exact ⟨item, first, same ▸ kind⟩
      · rintro ⟨long, neutral⟩
        obtain ⟨queries, looped⟩ := (collect_iff [] plan.queries).mpr fun item first _ =>
          long item first
        rw [looped]
        exact ⟨_, _, rfl, planQueries_usable (collect_ok looped) neutral⟩

def examplePlan : QueryPlan where
  queries := [⟨.disconfirming, "bees cannot fly", by decide +kernel⟩,
    ⟨.neutral, "Bees flight", by decide +kernel⟩, ⟨.neutral, "bees flight", by decide +kernel⟩]
  bounds := by decide

/-- A text that was seen is left out, and the cut keeps one query of each kind. -/
example : (planQueries (fun text => String.ofList (text.toList.map Char.toLower))
    (.plan examplePlan rfl) "Bees fly" ⟨2, Nat.le_add_left 1 1⟩).toOption.map
      (fun planned => (planned.1.map (·.text), planned.2)) =
    some (["Bees flight", "bees cannot fly"], .router) := by
  decide +kernel

/-- A claim of one short word, and a router that is not available. -/
theorem planQueries_short_claim : ¬ ∃ queries source,
    planQueries id (.failed .providerError) "Go" ⟨3, Nat.le_add_left 1 2⟩ = .ok (queries, source) ∧
      Usable id (.failed .providerError) ⟨3, Nat.le_add_left 1 2⟩ queries := by
  rintro ⟨queries, source, planned, -⟩
  have refused : queryItem .neutral (fallbackQuery "Go") = .error .stringTooShort :=
    dif_pos (by decide +kernel)
  simp only [planQueries, refused] at planned
  cases planned

end Planning

end Ovrly.Evidence
