import Ovrly.Completions.Appearances

/-!
Resolved quotes lie where they appear: the references of an extraction, in the order in which they
are resolved, and the span that each of them gets.
-/

namespace Ovrly.Completions

open JsonGrammar (Text Value codes)
open Ovrly.Extraction (ExtractionInvalid)

section Verdicts

variable {N κ : Type} [DecidableEq κ] (python : Python N κ) (texts : Text → Option Text)

def Quoted (ref : Value N) : Prop :=
  ∃ fields, ref = .object fields ∧ (JsonValue.lookup fields quoteName).isSome = true

def Refused (ref : Value N) : Prop :=
  ∃ fields, ref = .object fields ∧ (JsonValue.lookup fields quoteName).isSome = true ∧
    ∀ quote text, sourceQuote python texts fields = some (quote, text) →
      starts python text (unquote text quote) = []

/-- A quote found in a text whose observation is not named, or not by something hashable. -/
def Breaks (ref : Value N) : Prop :=
  ∃ fields quote text, ref = .object fields ∧
    sourceQuote python texts fields = some (quote, text) ∧
    starts python text (unquote text quote) ≠ [] ∧
    ∀ id, JsonValue.lookup fields observationIdName = some id → python.key id = none

/-- What becomes of one reference. -/
inductive Verdict (used : List (Span κ)) :
    Value N → Except Raised (List (Span κ) × Value N) → Prop
  | plain {ref : Value N} : ¬ Quoted ref → Verdict used ref (.ok (used, ref))
  | refused {ref : Value N} {why : ExtractionInvalid} : Refused python texts ref →
      Verdict used ref (.error (.invalid why))
  | broken {ref : Value N} {raised : Raised} : Breaks python texts ref →
      (∀ why, raised ≠ .invalid why) → Verdict used ref (.error raised)
  | cited {fields : Fields N} {quote text : Text} {id : Value N} {key : κ} {first : Span κ}
      {rest : List (Span κ)} : sourceQuote python texts fields = some (quote, text) →
      JsonValue.lookup fields observationIdName = some id → python.key id = some key →
      offers python text (unquote text quote) key = first :: rest →
      Verdict used (.object fields) (.ok (Allotment.pick used first rest :: used,
        .object (withSpan python fields (Allotment.pick used first rest).2.1
          (Allotment.pick used first rest).2.2)))

variable {python texts}

omit [DecidableEq κ] in
theorem sourceQuote_some {fields : Fields N} {quote text : Text}
    (found : sourceQuote python texts fields = some (quote, text)) :
    ∃ raw, JsonValue.lookup fields quoteName = some (.string raw) ∧ quote = strip raw ∧
      texts (python.str ((JsonValue.lookup fields observationIdName).getD .null)) = some text := by
  unfold sourceQuote at found
  split at found
  · next raw text' isQuote isText =>
      split at found
      · cases found
      · simp only [Option.some.injEq, Prod.mk.injEq] at found
        obtain ⟨rfl, rfl⟩ := found
        exact ⟨raw, isQuote, rfl, isText⟩
  · cases found

theorem resolveItem_verdict (python : Python N κ) (texts : Text → Option Text) (used : List (Span κ)) (ref : Value N) :
    Verdict python texts used ref (resolveItem python texts used ref) := by
  cases ref with
  | object fields =>
      unfold resolveItem resolveRef
      dsimp only
      by_cases absent : (JsonValue.lookup fields quoteName).isNone = true
      · rw [if_pos absent]
        refine .plain ?_
        rintro ⟨_, same, present⟩
        cases same
        simp_all
      · rw [if_neg absent]
        have present : (JsonValue.lookup fields quoteName).isSome = true := by
          rw [Option.isSome_iff_ne_none]
          exact fun missing => absent (by rw [missing]; rfl)
        cases source : sourceQuote python texts fields with
        | none =>
            refine .refused ⟨fields, rfl, present, ?_⟩
            intro quote text found
            rw [source] at found
            cases found
        | some found =>
            obtain ⟨quote, text⟩ := found
            dsimp only
            cases shape : findAll (searched python text (unquote text quote)).2
                (searched python text (unquote text quote)).1 with
            | nil =>
                refine .refused ⟨fields, rfl, present, ?_⟩
                intro other otherText found
                rw [source] at found
                cases found
                exact shape
            | cons start others =>
                have visible : starts python text (unquote text quote) ≠ [] := by
                  unfold starts
                  simp [shape]
                dsimp only
                cases named : JsonValue.lookup fields observationIdName with
                | none =>
                    refine .broken ⟨fields, quote, text, rfl, source, visible, ?_⟩ (by simp)
                    simp [named]
                | some id =>
                    dsimp only
                    cases hashed : python.key id with
                    | none =>
                        refine .broken ⟨fields, quote, text, rfl, source, visible, ?_⟩ (by simp)
                        intro other found
                        rw [named] at found
                        cases found
                        exact hashed
                    | some key =>
                        refine .cited source named hashed ?_
                        unfold offers starts
                        rw [shape, List.map_cons]
  | null => exact .plain (by rintro ⟨_, same, -⟩; cases same)
  | bool value => exact .plain (by rintro ⟨_, same, -⟩; cases same)
  | number value => exact .plain (by rintro ⟨_, same, -⟩; cases same)
  | string value => exact .plain (by rintro ⟨_, same, -⟩; cases same)
  | array items => exact .plain (by rintro ⟨_, same, -⟩; cases same)

omit [DecidableEq κ] in
theorem Breaks.quoted {ref : Value N} (breaks : Breaks python texts ref) : Quoted ref := by
  obtain ⟨fields, quote, text, rfl, source, -⟩ := breaks
  obtain ⟨raw, isQuote, -⟩ := sourceQuote_some source
  exact ⟨fields, rfl, by rw [isQuote]; rfl⟩

omit [DecidableEq κ] in
theorem Refused.quoted {ref : Value N} (refused : Refused python texts ref) : Quoted ref := by
  obtain ⟨fields, rfl, present, -⟩ := refused
  exact ⟨fields, rfl, present⟩

omit [DecidableEq κ] in
theorem Refused.not_breaks {ref : Value N} (refused : Refused python texts ref) :
    ¬ Breaks python texts ref := by
  rintro ⟨fields, quote, text, rfl, source, visible, -⟩
  obtain ⟨_, same, -, missing⟩ := refused
  cases same
  exact visible (missing quote text source)

omit [DecidableEq κ] in
theorem cited_clear {fields : Fields N} {quote text : Text} {id : Value N} {key : κ}
    {first : Span κ} {rest : List (Span κ)}
    (source : sourceQuote python texts fields = some (quote, text))
    (named : JsonValue.lookup fields observationIdName = some id) (hashed : python.key id = some key)
    (offered : offers python text (unquote text quote) key = first :: rest) :
    ¬ Refused python texts (.object fields) ∧ ¬ Breaks python texts (.object fields) := by
  constructor
  · rintro ⟨_, same, -, missing⟩
    cases same
    unfold offers at offered
    rw [missing quote text source] at offered
    cases offered
  · rintro ⟨_, _, _, same, -, -, unhashed⟩
    cases same
    rw [unhashed id named] at hashed
    cases hashed

end Verdicts

section Runs

variable {N κ : Type} [DecidableEq κ] {python : Python N κ} {texts : Text → Option Text}

/-- An item that is hit before any that blocks it. -/
def Earliest (hit blocked : Value N → Prop) (refs : List (Value N)) : Prop :=
  ∃ before ref after, refs = before ++ ref :: after ∧ hit ref ∧
    ∀ earlier ∈ before, ¬ blocked earlier

theorem earliest_nil (hit blocked : Value N → Prop) : ¬ Earliest hit blocked [] := by
  rintro ⟨before, ref, after, same, -⟩
  simp at same

theorem earliest_cons {hit blocked : Value N → Prop} {ref : Value N} {rest : List (Value N)} :
    Earliest hit blocked (ref :: rest) ↔ hit ref ∨ ¬ blocked ref ∧ Earliest hit blocked rest := by
  constructor
  · rintro ⟨before, found, after, same, isHit, clear⟩
    cases before with
    | nil =>
        obtain rfl := (List.cons.inj same).1
        exact Or.inl isHit
    | cons head before =>
        obtain ⟨rfl, rfl⟩ := List.cons.inj same
        exact Or.inr ⟨clear ref (by simp), before, found, after, rfl, isHit,
          fun earlier member => clear earlier (List.mem_cons_of_mem _ member)⟩
  · rintro (isHit | ⟨clear, before, found, after, rfl, isHit, others⟩)
    · exact ⟨[], ref, rest, rfl, isHit, by simp⟩
    · refine ⟨ref :: before, found, after, rfl, isHit, ?_⟩
      intro earlier member
      rcases List.mem_cons.mp member with rfl | later
      · exact clear
      · exact others earlier later

theorem rewriteAll_cons_ok {σ ω : Type} {step : σ → ω → Except Raised (σ × ω)} {state final : σ}
    {item : ω} {rest outs : List ω} :
    rewriteAll step state (item :: rest) = .ok (final, outs) ↔
      ∃ middle out others, step state item = .ok (middle, out) ∧
        rewriteAll step middle rest = .ok (final, others) ∧ outs = out :: others := by
  rw [rewriteAll]
  cases first : step state item with
  | error raised => simp [bind, Except.bind]
  | ok done =>
      cases later : rewriteAll step done.1 rest with
      | error raised =>
          simp only [bind, Except.bind, later, reduceCtorEq, false_iff]
          rintro ⟨middle, out, others, same, found, -⟩
          cases same
          rw [later] at found
          cases found
      | ok found =>
          simp only [bind, Except.bind, later, pure, Except.pure, Except.ok.injEq, Prod.mk.injEq]
          constructor
          · rintro ⟨rfl, rfl⟩
            exact ⟨done.1, done.2, found.2, rfl, later, rfl⟩
          · rintro ⟨middle, out, others, rfl, found', rfl⟩
            rw [later] at found'
            cases found'
            exact ⟨rfl, rfl⟩

theorem rewriteAll_cons_error {σ ω : Type} {step : σ → ω → Except Raised (σ × ω)} {state : σ}
    {item : ω} {rest : List ω} {raised : Raised} :
    rewriteAll step state (item :: rest) = .error raised ↔ step state item = .error raised ∨
      ∃ middle out, step state item = .ok (middle, out) ∧
        rewriteAll step middle rest = .error raised := by
  rw [rewriteAll]
  cases first : step state item with
  | error other => simp [bind, Except.bind]
  | ok done =>
      cases later : rewriteAll step done.1 rest with
      | error other =>
          simp only [bind, Except.bind, later, Except.error.injEq, reduceCtorEq, false_or]
          constructor
          · rintro rfl
            exact ⟨done.1, done.2, rfl, later⟩
          · rintro ⟨middle, out, same, found⟩
            cases same
            rw [later] at found
            cases found
            rfl
      | ok found =>
          simp only [bind, Except.bind, later, pure, Except.pure, reduceCtorEq, false_or, false_iff]
          rintro ⟨middle, out, same, failed⟩
          cases same
          rw [later] at failed
          cases failed

theorem run_breaks (python : Python N κ) (texts : Text → Option Text) (used : List (Span κ)) (refs : List (Value N)) :
    (∃ raised, rewriteAll (resolveItem python texts) used refs = .error raised ∧
        ∀ why, raised ≠ .invalid why) ↔
      Earliest (Breaks python texts) (Refused python texts) refs := by
  induction refs generalizing used with
  | nil => simp [rewriteAll, earliest_nil]
  | cons ref rest ih =>
      rw [earliest_cons]
      simp only [rewriteAll_cons_error]
      have verdict := resolveItem_verdict python texts used ref
      generalize resolveItem python texts used ref = result at verdict
      cases verdict with
      | plain unquoted =>
          have notRefused : ¬ Refused python texts ref := fun found => unquoted found.quoted
          have notBreaks : ¬ Breaks python texts ref := fun found => unquoted found.quoted
          simp [notRefused, notBreaks, ← ih used]
      | refused refused =>
          simp [refused, refused.not_breaks]
      | broken breaks other =>
          simp [breaks, other]
      | @cited fields quote text id key first others source named hashed offered =>
          have clear := cited_clear source named hashed offered
          simp [clear, ← ih (Allotment.pick used first others :: used)]

/-- It is refused when a reference is refused that no breaking one precedes. -/
theorem run_refused (python : Python N κ) (texts : Text → Option Text) (used : List (Span κ)) (refs : List (Value N)) :
    (∃ why, rewriteAll (resolveItem python texts) used refs = .error (.invalid why)) ↔
      Earliest (Refused python texts) (Breaks python texts) refs := by
  induction refs generalizing used with
  | nil => simp [rewriteAll, earliest_nil]
  | cons ref rest ih =>
      rw [earliest_cons]
      simp only [rewriteAll_cons_error]
      have verdict := resolveItem_verdict python texts used ref
      generalize resolveItem python texts used ref = result at verdict
      cases verdict with
      | plain unquoted =>
          have notRefused : ¬ Refused python texts ref := fun found => unquoted found.quoted
          have notBreaks : ¬ Breaks python texts ref := fun found => unquoted found.quoted
          simp [notRefused, notBreaks, ← ih used]
      | refused refused =>
          simp [refused]
      | broken breaks other =>
          have notRefused : ¬ Refused python texts ref := fun found => found.not_breaks breaks
          simp [breaks, other, notRefused]
      | @cited fields quote text id key first others source named hashed offered =>
          have clear := cited_clear source named hashed offered
          simp [clear, ← ih (Allotment.pick used first others :: used)]

end Runs

section Logs

variable {N κ : Type} [DecidableEq κ] (python : Python N κ) (texts : Text → Option Text)

structure Citation (κ : Type) where
  key : κ
  observation : Text
  quote : Text
  start : Nat
  stop : Nat

def Citation.span (citation : Citation κ) : Span κ :=
  (citation.key, citation.start, citation.stop)

def Citation.choices (citation : Citation κ) : List (Span κ) :=
  match texts citation.observation with
  | some text => offers python text (unquote text (strip citation.quote)) citation.key
  | none => []

structure Entry (N κ : Type) where
  before : Value N
  after : Value N
  citation : Option (Citation κ)

/-- A quote is replaced by a span of its observation's text where the quote, or the quote without
a pair of quotation marks, appears; nothing else changes. -/
inductive Located : Entry N κ → Prop
  | plain {ref : Value N} : ¬ Quoted ref → Located ⟨ref, ref, none⟩
  | cited {fields : Fields N} {quote text : Text} {id : Value N} {key : κ} {start stop : Nat} :
      JsonValue.lookup fields quoteName = some (.string quote) →
      JsonValue.lookup fields observationIdName = some id →
      texts (python.str id) = some text → python.key id = some key →
      (unquote text (strip quote) = strip quote ∨
        Enclosed (strip quote) (unquote text (strip quote))) →
      Appears python text (unquote text (strip quote)) start stop →
      Located ⟨.object fields, .object (withSpan python fields start stop),
        some ⟨key, python.str id, quote, start, stop⟩⟩

variable {python texts}

theorem run_log {used final : List (Span κ)} {refs outs : List (Value N)}
    (run : rewriteAll (resolveItem python texts) used refs = .ok (final, outs)) :
    ∃ log : List (Entry N κ), log.map (·.before) = refs ∧ log.map (·.after) = outs ∧
      (∀ entry ∈ log, Located python texts entry) ∧
      Allotment.Served (Citation.choices python texts) Citation.span used
        (log.filterMap (·.citation)) := by
  induction refs generalizing used outs with
  | nil =>
      simp only [rewriteAll, Except.ok.injEq, Prod.mk.injEq] at run
      exact ⟨[], rfl, run.2, by simp, trivial⟩
  | cons ref rest ih =>
      obtain ⟨middle, out, others, step, later, rfl⟩ := rewriteAll_cons_ok.mp run
      obtain ⟨log, isRest, isOthers, located, served⟩ := ih later
      have verdict := resolveItem_verdict python texts used ref
      rw [step] at verdict
      cases verdict with
      | plain unquoted =>
          refine ⟨⟨ref, ref, none⟩ :: log, by simp [isRest], by simp [isOthers], ?_, served⟩
          intro entry member
          rcases List.mem_cons.mp member with rfl | inRest
          · exact .plain unquoted
          · exact located entry inRest
      | @cited fields quote text id key first alternatives source named hashed offered =>
          obtain ⟨raw, isQuote, rfl, isText⟩ := sourceQuote_some source
          rw [named, Option.getD_some] at isText
          have chosen := Allotment.pick_mem used first alternatives
          generalize shape : Allotment.pick used first alternatives = picked at *
          obtain ⟨pickKey, start, stop⟩ := picked
          rw [← offered] at chosen
          obtain ⟨rfl, appears⟩ := appears_of_offered chosen
          refine ⟨⟨.object fields, .object (withSpan python fields start stop),
            some ⟨pickKey, python.str id, raw, start, stop⟩⟩ :: log, ?_, ?_, ?_, ?_⟩
          · rw [List.map_cons, isRest]
          · rw [List.map_cons, isOthers]
          · intro entry member
            rcases List.mem_cons.mp member with rfl | inRest
            · refine .cited isQuote named isText hashed ?_ appears
              exact (unquote_cases text (strip raw)).imp (fun same => same) fun enclosed => enclosed.2
            · exact located entry inRest
          · refine ⟨⟨first, alternatives, ?_, shape.symm⟩, served⟩
            simp only [Citation.choices, isText, offered]

omit [DecidableEq κ] in
theorem withSpan_inj {fields : Fields N} {start stop start' stop' : Nat}
    (same : withSpan python fields start stop = withSpan python fields start' stop') :
    start = start' ∧ stop = stop' := by
  have tails := List.append_cancel_left same
  simp only [List.cons.injEq, Prod.mk.injEq, JsonValue.number.injEq, true_and, and_true] at tails
  exact ⟨python.ofNat_injective _ _ tails.1, python.ofNat_injective _ _ tails.2⟩

omit [DecidableEq κ] in
theorem Located.unique {entry other : Entry N κ} (located : Located python texts entry)
    (located' : Located python texts other) (before : entry.before = other.before)
    (after : entry.after = other.after) : entry = other := by
  cases located with
  | plain unquoted =>
      cases located' with
      | plain _ =>
          cases before
          rfl
      | cited isQuote _ _ _ _ _ =>
          cases before
          exact absurd ⟨_, rfl, by rw [isQuote]; rfl⟩ unquoted
  | cited isQuote named _ hashed _ _ =>
      cases located' with
      | plain unquoted =>
          cases before
          exact absurd ⟨_, rfl, by rw [isQuote]; rfl⟩ unquoted
      | cited isQuote' named' _ hashed' _ _ =>
          cases before
          obtain ⟨rfl, rfl⟩ := withSpan_inj (JsonValue.object.inj after)
          cases isQuote.symm.trans isQuote'
          cases named.symm.trans named'
          cases hashed.symm.trans hashed'
          rfl

omit [DecidableEq κ] in
theorem log_unique {log log' : List (Entry N κ)}
    (located : ∀ entry ∈ log, Located python texts entry)
    (located' : ∀ entry ∈ log', Located python texts entry)
    (before : log.map (·.before) = log'.map (·.before))
    (after : log.map (·.after) = log'.map (·.after)) : log = log' := by
  induction log generalizing log' with
  | nil =>
      cases log' with
      | nil => rfl
      | cons other rest' => cases before
  | cons entry rest ih =>
      cases log' with
      | nil => cases before
      | cons other rest' =>
          obtain ⟨headBefore, before⟩ := List.cons.inj before
          obtain ⟨headAfter, after⟩ := List.cons.inj after
          rw [(located entry (by simp)).unique (located' other (by simp)) headBefore headAfter,
            ih (fun item member => located item (List.mem_cons_of_mem _ member))
              (fun item member => located' item (List.mem_cons_of_mem _ member)) before after]

end Logs

section Data

variable {N κ : Type} [DecidableEq κ] (python : Python N κ) (texts : Text → Option Text)

def fieldItems (fields : Fields N) (name : Text) : List (Value N) :=
  match JsonValue.lookup fields name with
  | some (.array items) => items
  | _ => []

def occurrenceRefs : Value N → List (Value N)
  | .object fields => fieldItems fields sourceRefsName ++ fieldItems fields contextRefsName
  | _ => []

def dataRefs : Value N → List (Value N)
  | .object fields => (fieldItems fields occurrencesName).flatMap occurrenceRefs
  | _ => []

theorem lookup_setField (fields : Fields N) (name other : Text) (value : Value N) :
    JsonValue.lookup (setField fields name value) other =
      if other = name then (JsonValue.lookup fields name).map fun _ => value
      else JsonValue.lookup fields other := by
  unfold JsonValue.lookup setField
  induction fields with
  | nil => simp
  | cons field fields ih =>
      rw [List.map_cons]
      by_cases isName : field.1 = name
      · rw [if_pos isName]
        by_cases same : other = name
        · simp [same, isName]
        · rw [if_neg same] at ih ⊢
          rw [List.find?_cons_of_neg (by simpa using fun found => same found.symm), ih,
            List.find?_cons_of_neg (by
              simp only [decide_eq_true_eq, isName]
              exact fun found => same found.symm)]
      · rw [if_neg isName]
        by_cases same : other = name
        · rw [if_pos same] at ih ⊢
          rw [List.find?_cons_of_neg (by simpa [same] using isName), ih,
            List.find?_cons_of_neg (by simpa using isName)]
        · rw [if_neg same] at ih ⊢
          by_cases here : field.1 = other
          · simp [here]
          · rw [List.find?_cons_of_neg (by simpa using here), ih,
              List.find?_cons_of_neg (by simpa using here)]

theorem rewriteAll_append {σ ω : Type} (step : σ → ω → Except Raised (σ × ω)) (state : σ)
    (first second : List ω) :
    rewriteAll step state (first ++ second) = (rewriteAll step state first).bind fun done =>
      (rewriteAll step done.1 second).map fun rest => (rest.1, done.2 ++ rest.2) := by
  induction first generalizing state with
  | nil =>
      simp only [List.nil_append, rewriteAll, Except.bind]
      cases rewriteAll step state second <;> rfl
  | cons item first ih =>
      rw [List.cons_append, rewriteAll, rewriteAll]
      cases here : step state item with
      | error raised => rfl
      | ok done =>
          simp only [bind, Except.bind, ih]
          cases rewriteAll step done.1 first with
          | error raised => rfl
          | ok found =>
              simp only [pure, Except.pure]
              cases rewriteAll step found.1 second <;> rfl

theorem rewriteField_items {σ : Type} (step : σ → Value N → Except Raised (σ × Value N))
    (name : Text) (state : σ) (fields : Fields N) :
    (rewriteField step name state fields).map (fun done => (done.1, fieldItems done.2 name)) =
        rewriteAll step state (fieldItems fields name) ∧
      ∀ done, rewriteField step name state fields = .ok done → ∀ other ≠ name,
        fieldItems done.2 other = fieldItems fields other := by
  by_cases listed : ∃ items, JsonValue.lookup fields name = some (.array items)
  · obtain ⟨items, found⟩ := listed
    have own : fieldItems fields name = items := by simp only [fieldItems, found]
    unfold rewriteField
    simp only [found, own]
    cases rewriteAll step state items with
    | error raised =>
        refine ⟨rfl, ?_⟩
        intro done same
        cases same
    | ok done =>
        constructor
        · simp [Except.map, fieldItems, lookup_setField, found]
        · rintro _ ⟨⟩ other different
          simp [fieldItems, lookup_setField, different]
  · have kept : rewriteField step name state fields = .ok (state, fields) := by
      unfold rewriteField
      split
      · next items found => exact absurd ⟨items, found⟩ listed
      · rfl
    have none' : fieldItems fields name = [] := by
      unfold fieldItems
      split
      · next items found => exact absurd ⟨items, found⟩ listed
      · rfl
    rw [kept, none']
    refine ⟨by simp [Except.map, rewriteAll, none'], ?_⟩
    rintro _ ⟨⟩ other -
    rfl

theorem rewriteAll_flat {σ ω ι : Type} {step : σ → ω → Except Raised (σ × ω)}
    {inner : σ → ι → Except Raised (σ × ι)} {flat : ω → List ι}
    (same : ∀ state item, (step state item).map (fun done => (done.1, flat done.2)) =
      rewriteAll inner state (flat item)) (state : σ) (items : List ω) :
    (rewriteAll step state items).map (fun done => (done.1, done.2.flatMap flat)) =
      rewriteAll inner state (items.flatMap flat) := by
  induction items generalizing state with
  | nil => rfl
  | cons item items ih =>
      rw [List.flatMap_cons, rewriteAll_append, ← same, rewriteAll]
      cases step state item with
      | error raised => rfl
      | ok done =>
          simp only [bind, Except.bind, Except.map, ← ih]
          cases rewriteAll step done.1 items with
          | error raised => rfl
          | ok found => rfl

theorem resolveOccurrence_refs (used : List (Span κ)) (occurrence : Value N) :
    (resolveOccurrence python texts used occurrence).map
        (fun done => (done.1, occurrenceRefs done.2)) =
      rewriteAll (resolveItem python texts) used (occurrenceRefs occurrence) := by
  cases occurrence with
  | object fields =>
      obtain ⟨sources, otherSources⟩ := rewriteField_items (resolveItem python texts)
        sourceRefsName used fields
      unfold resolveOccurrence occurrenceRefs
      dsimp only
      rw [rewriteAll_append, ← sources]
      cases first : rewriteField (resolveItem python texts) sourceRefsName used fields with
      | error raised => rfl
      | ok done =>
          obtain ⟨contexts, otherContexts⟩ := rewriteField_items (resolveItem python texts)
            contextRefsName done.1 done.2
          have kept := otherSources done first contextRefsName (by decide)
          simp only [Except.map, Except.bind, bind]
          rw [← kept, ← contexts]
          cases second : rewriteField (resolveItem python texts) contextRefsName done.1 done.2 with
          | error raised => rfl
          | ok found =>
              have unchanged := otherContexts found second sourceRefsName (by decide)
              simp only [Except.map, pure, Except.pure, unchanged]
  | null => rfl
  | bool value => rfl
  | number value => rfl
  | string value => rfl
  | array items => rfl

theorem resolveQuotes_refs (data : Value N) :
    (resolveQuotes python texts data).map dataRefs =
      (rewriteAll (resolveItem python texts) [] (dataRefs data)).map Prod.snd := by
  cases data with
  | object fields =>
      obtain ⟨items, -⟩ := rewriteField_items (resolveOccurrence python texts) occurrencesName
        ([] : List (Span κ)) fields
      have all := rewriteAll_flat (resolveOccurrence_refs python texts) ([] : List (Span κ))
        (fieldItems fields occurrencesName)
      unfold resolveQuotes dataRefs
      dsimp only
      rw [← all, ← items]
      cases rewriteField (resolveOccurrence python texts) occurrencesName [] fields <;> rfl
  | null => rfl
  | bool value => rfl
  | number value => rfl
  | string value => rfl
  | array items => rfl

end Data

section Sharing

variable {N κ : Type} [DecidableEq κ] (python : Python N κ) (texts : Text → Option Text)

/-- References that cite one quote of an observation get different spans, as long as there are
enough appearances that no other reference of the observation takes. -/
def Shared (citations : List (Citation κ)) : Prop :=
  ∀ observation quote text, texts observation = some text →
    ∀ free : List (Nat × Nat), free.Nodup →
      (∀ span ∈ free, Appears python text (unquote text (strip quote)) span.1 span.2) →
      (∀ other ∈ citations, other.observation = observation → other.quote ≠ quote →
        (other.start, other.stop) ∉ free) →
      let group := citations.filter fun citation =>
        citation.observation = observation ∧ citation.quote = quote
      group.length ≤ free.length →
        (group.map fun citation => (citation.start, citation.stop)).Nodup

def refName : Value N → Option Text
  | .object fields => (JsonValue.lookup fields observationIdName).map python.str
  | _ => none

/-- The key under which its spans are in use. -/
def refKey : Value N → Option κ
  | .object fields => (JsonValue.lookup fields observationIdName).bind python.key
  | _ => none

def refQuote : Value N → Option Text
  | .object fields =>
      match JsonValue.lookup fields quoteName with
      | some (.string quote) => some quote
      | _ => none
  | _ => none

def Cites (observation quote : Text) (ref : Value N) : Prop :=
  refName python ref = some observation ∧ refQuote ref = some quote

instance (observation quote : Text) (ref : Value N) : Decidable (Cites python observation quote ref) :=
  inferInstanceAs (Decidable (_ ∧ _))

def quoteSpans (observation quote : Text) : List (Nat × Nat) :=
  match texts observation with
  | some text => (starts python text (unquote text (strip quote))).map fun start =>
      (start, start + (searched python text (unquote text (strip quote))).1.length)
  | none => []

def refSpans (ref : Value N) : List (Nat × Nat) :=
  match refName python ref, refQuote ref with
  | some observation, some quote => quoteSpans python texts observation quote
  | _, _ => []

/-- A quote that is cited again, and appears often enough for that, is cited under one key, and no
reference to another observation has this key and may take a span of the quote. -/
def Unmixed (refs : List (Value N)) : Prop :=
  ∀ observation quote,
    let group := refs.filter fun ref => decide (Cites python observation quote ref)
    2 ≤ group.length → group.length ≤ (quoteSpans python texts observation quote).length →
      ∃ key, (∀ ref ∈ group, refKey python ref = some key) ∧
        ∀ other ∈ refs, refKey python other = some key → refName python other ≠ some observation →
          ∀ span ∈ refSpans python texts other, span ∉ quoteSpans python texts observation quote

/-- No two references of different quotes, or of one key and different observations, may take the
same span. -/
def Uncontended (refs : List (Value N)) : Prop :=
  ∀ ref ∈ refs, ∀ other ∈ refs,
    refName python ref ≠ refName python other ∨ refQuote ref ≠ refQuote other →
    refName python ref = refName python other ∨ refKey python ref = refKey python other →
      ∀ span ∈ refSpans python texts ref, span ∉ refSpans python texts other

variable {python texts}

omit [DecidableEq κ] in
theorem mem_quoteSpans {observation quote text : Text} {span : Nat × Nat} (key : κ)
    (isText : texts observation = some text) :
    span ∈ quoteSpans python texts observation quote ↔
      (key, span) ∈ offers python text (unquote text (strip quote)) key := by
  simp only [quoteSpans, isText, offers, List.mem_map, Prod.ext_iff]
  simp

omit [DecidableEq κ] in
theorem quoteSpans_nodup (observation quote : Text) :
    (quoteSpans python texts observation quote).Nodup := by
  unfold quoteSpans
  split
  · refine (findAll_nodup _ _).map fun first second same => ?_
    exact (Prod.mk.inj same).1
  · exact List.nodup_nil

omit [DecidableEq κ] in
theorem choices_eq (python : Python N κ) (texts : Text → Option Text) (citation : Citation κ) :
    Citation.choices python texts citation = (quoteSpans python texts citation.observation citation.quote).map (citation.key, ·) := by
  unfold Citation.choices quoteSpans offers
  cases texts citation.observation with
  | none => rfl
  | some text => simp only [List.map_map, Function.comp_def]

structure Citation.From (python : Python N κ) (citation : Citation κ) (ref : Value N) : Prop where
  name : refName python ref = some citation.observation
  key : refKey python ref = some citation.key
  quote : refQuote ref = some citation.quote

omit [DecidableEq κ] in
theorem Citation.From.cites {citation : Citation κ} {ref : Value N}
    (origin : citation.From python ref) {observation quote : Text} :
    Cites python observation quote ref ↔
      citation.observation = observation ∧ citation.quote = quote := by
  unfold Cites
  rw [origin.name, origin.quote, Option.some.injEq, Option.some.injEq]

omit [DecidableEq κ] in
theorem Citation.From.spans {citation : Citation κ} {ref : Value N}
    (origin : citation.From python ref) (texts : Text → Option Text) : refSpans python texts ref =
      quoteSpans python texts citation.observation citation.quote := by
  simp only [refSpans, origin.name, origin.quote]

omit [DecidableEq κ] in
theorem Located.origin {entry : Entry N κ} (located : Located python texts entry) :
    (∀ citation, entry.citation = some citation → citation.From python entry.before) ∧
      (entry.citation = none → refQuote entry.before = none) := by
  cases located with
  | @plain ref unquoted =>
      refine ⟨nofun, fun _ => ?_⟩
      cases ref with
      | object fields =>
          cases isQuote : JsonValue.lookup fields quoteName with
          | none => simp only [refQuote, isQuote]
          | some quote => exact absurd ⟨fields, rfl, by rw [isQuote]; rfl⟩ unquoted
      | null => rfl
      | bool value => rfl
      | number value => rfl
      | string value => rfl
      | array items => rfl
  | cited isQuote named isText hashed =>
      refine ⟨fun citation same => ?_, nofun⟩
      obtain rfl := Option.some.inj same
      exact ⟨by simp [refName, named], by simp [refKey, named, hashed], by simp [refQuote, isQuote]⟩

omit [DecidableEq κ] in
theorem citation_ref {log : List (Entry N κ)} (located : ∀ entry ∈ log, Located python texts entry)
    {citation : Citation κ} (member : citation ∈ log.filterMap (·.citation)) :
    ∃ ref ∈ log.map (·.before), citation.From python ref := by
  obtain ⟨entry, inLog, isCitation⟩ := List.mem_filterMap.mp member
  exact ⟨entry.before, List.mem_map_of_mem inLog, (located entry inLog).origin.1 _ isCitation⟩

omit [DecidableEq κ] in
theorem ref_citation {log : List (Entry N κ)} (located : ∀ entry ∈ log, Located python texts entry)
    {ref : Value N} (member : ref ∈ log.map (·.before)) {quote : Text}
    (isQuote : refQuote ref = some quote) :
    ∃ citation ∈ log.filterMap (·.citation), citation.From python ref := by
  obtain ⟨entry, inLog, rfl⟩ := List.mem_map.mp member
  have origin := (located entry inLog).origin
  cases cited : entry.citation with
  | none =>
      rw [origin.2 cited] at isQuote
      cases isQuote
  | some citation =>
      exact ⟨citation, List.mem_filterMap.mpr ⟨entry, inLog, cited⟩, origin.1 citation cited⟩

omit [DecidableEq κ] in
theorem group_length {log : List (Entry N κ)} (located : ∀ entry ∈ log, Located python texts entry)
    (observation quote : Text) :
    ((log.filterMap (·.citation)).filter fun citation =>
        decide (citation.observation = observation ∧ citation.quote = quote)).length =
      ((log.map (·.before)).filter fun ref => decide (Cites python observation quote ref)).length := by
  rw [← List.countP_eq_length_filter, ← List.countP_eq_length_filter, List.countP_filterMap,
    List.countP_map]
  refine List.countP_congr fun entry inLog => ?_
  have origin := (located entry inLog).origin
  cases cited : entry.citation with
  | none =>
      have unquoted := origin.2 cited
      simp [Cites, unquoted]
  | some citation => simp [(origin.1 citation cited).cites]

omit [DecidableEq κ] in
/-- Keys do not mix where all references cite one observation under one key. -/
theorem unmixed_of_single {refs : List (Value N)} {name : Text} {key : κ}
    (single : ∀ ref ∈ refs, refName python ref = some name ∧ refKey python ref = some key) :
    Unmixed python texts refs := by
  intro observation quote group several room
  obtain ⟨ref, inGroup⟩ := List.exists_mem_of_length_pos (show 0 < group.length by omega)
  obtain ⟨inRefs, cites⟩ := List.mem_filter.mp inGroup
  have same := (single ref inRefs).1.symm.trans (of_decide_eq_true cites).1
  refine ⟨key, fun ref member => (single ref (List.mem_filter.mp member).1).2, ?_⟩
  intro other member _ different
  exact absurd ((single other member).1.trans same) different

theorem shared_of_served {log : List (Entry N κ)}
    (unmixed : Unmixed python texts (log.map (·.before)))
    (located : ∀ entry ∈ log, Located python texts entry)
    (served : Allotment.Served (Citation.choices python texts) Citation.span []
      (log.filterMap (·.citation))) :
    Shared python texts (log.filterMap (·.citation)) := by
  intro observation quote text isText free nodup appear others group room
  have isMember {citation : Citation κ} : citation ∈ group ↔
      citation ∈ log.filterMap (·.citation) ∧
        citation.observation = observation ∧ citation.quote = quote := by
    simp only [group, List.mem_filter, decide_eq_true_eq]
  rcases Nat.lt_or_ge group.length 2 with single | several
  · refine List.nodup_iff_injective_get.mpr fun first second _ => Fin.ext ?_
    have isFirst : first.val < group.length := by simpa using first.isLt
    have isSecond : second.val < group.length := by simpa using second.isLt
    omega
  · obtain ⟨witness, inGroup⟩ := List.exists_mem_of_length_pos (show 0 < group.length by omega)
    obtain ⟨inLog, isObservation, isQuote⟩ := isMember.mp inGroup
    have found := served.mem witness inLog
    simp only [Citation.choices, isObservation, isText, isQuote] at found
    have listed {span : Nat × Nat} (isFree : span ∈ free) :
        span ∈ quoteSpans python texts observation quote :=
      (mem_quoteSpans witness.key isText).mpr ((appear span isFree).offered (List.ne_nil_of_mem found))
    have length := group_length located observation quote
    obtain ⟨key, keyed, apart⟩ := unmixed observation quote (length ▸ several)
      (length ▸ room.trans (nodup.subperm fun span isFree => listed isFree).length_le)
    have sameKey {citation : Citation κ} (member : citation ∈ group) : citation.key = key := by
      obtain ⟨there, cites⟩ := isMember.mp member
      obtain ⟨ref, inRefs, origin⟩ := citation_ref located there
      have isKey := keyed ref
        (List.mem_filter.mpr ⟨inRefs, decide_eq_true (origin.cites.mpr cites)⟩)
      exact Option.some.inj (origin.key.symm.trans isKey)
    -- Under one key, the spans of the text are the choices of the whole group.
    have distinct := (served.distinct
      (fun citation => decide (citation.observation = observation ∧ citation.quote = quote))
      (nodup.map (Prod.mk_right_injective key)) ?_ (by simp) ?_
      (by rw [List.length_map]; exact room)).1
    · have split : group.map Citation.span = (group.map fun citation =>
          (citation.start, citation.stop)).map (Prod.mk key) := by
        rw [List.map_map]
        refine List.map_congr_left fun citation member => ?_
        simp only [Citation.span, Function.comp_apply, sameKey member]
      exact List.Nodup.of_map _ (split ▸ distinct)
    · intro citation member mine choice inFree
      obtain ⟨span, isFree, rfl⟩ := List.mem_map.mp inFree
      obtain ⟨same, isQuote⟩ := of_decide_eq_true mine
      rw [choices_eq python texts, same, isQuote, sameKey (isMember.mpr ⟨member, same, isQuote⟩)]
      exact List.mem_map_of_mem (listed isFree)
    · intro citation member notMine inFree
      obtain ⟨span, isFree, same⟩ := List.mem_map.mp inFree
      simp only [Citation.span, Prod.mk.injEq] at same
      obtain ⟨isKey, rfl⟩ := same
      have different := of_decide_eq_false notMine
      by_cases there : citation.observation = observation
      · exact others citation member there (fun isQuote => different ⟨there, isQuote⟩) isFree
      · obtain ⟨ref, inRefs, origin⟩ := citation_ref located member
        have mine := served.mem citation member
        rw [choices_eq] at mine
        obtain ⟨span, isSpan, same⟩ := List.mem_map.mp mine
        obtain rfl : span = (citation.start, citation.stop) := (Prod.mk.inj same).2
        exact apart ref inRefs (origin.key.trans (congrArg some isKey.symm))
          (fun same => there (Option.some.inj (origin.name.symm.trans same)))
          _ (origin.spans texts ▸ isSpan) (listed isFree)

/-- Where nobody contends for it, the first citation of a quote under a key takes the first span. -/
theorem first_taken {log : List (Entry N κ)}
    (uncontended : Uncontended python texts (log.map (·.before)))
    (located : ∀ entry ∈ log, Located python texts entry)
    (served : Allotment.Served (Citation.choices python texts) Citation.span []
      (log.filterMap (·.citation)))
    {citation : Citation κ} (member : citation ∈ log.filterMap (·.citation))
    {span : Nat × Nat} {rest : List (Nat × Nat)}
    (spans : quoteSpans python texts citation.observation citation.quote = span :: rest) :
    ∃ early ∈ log.filterMap (·.citation), early.observation = citation.observation ∧
      early.quote = citation.quote ∧ early.span = (citation.key, span) := by
  have found : ((log.filterMap (·.citation)).find? fun other =>
      decide (other.observation = citation.observation ∧ other.quote = citation.quote ∧
        other.key = citation.key)).isSome = true :=
    List.find?_isSome.mpr ⟨citation, member, by simp⟩
  obtain ⟨early, isEarly⟩ := Option.isSome_iff_exists.mp found
  obtain ⟨isOwn, before, after, split, earlier⟩ := List.find?_eq_some_iff_append.mp isEarly
  obtain ⟨sameName, sameQuote, sameKey⟩ := of_decide_eq_true isOwn
  have inLog : early ∈ log.filterMap (·.citation) := by simp [split]
  refine ⟨early, inLog, sameName, sameQuote, ?_⟩
  have isChoices := choices_eq python texts early
  rw [sameName, sameQuote, sameKey, spans, List.map_cons] at isChoices
  refine served.first split isChoices (by simp) fun other isBefore taken => ?_
  have inLog' : other ∈ log.filterMap (·.citation) := by simp [split, isBefore]
  obtain ⟨ref, inRefs, origin⟩ := citation_ref located inLog
  obtain ⟨ref', inRefs', origin'⟩ := citation_ref located inLog'
  have mine := served.mem other inLog'
  rw [choices_eq, taken] at mine
  obtain ⟨again, isSpan, same⟩ := List.mem_map.mp mine
  obtain ⟨isKey, rfl⟩ := Prod.mk.inj same
  have notOwn := earlier other isBefore
  refine uncontended ref' inRefs' ref inRefs ?_ (Or.inr ?_) again ?_ ?_
  · rw [origin.name, origin'.name, origin.quote, origin'.quote, sameName, sameQuote, Ne, Ne,
      Option.some.injEq, Option.some.injEq, ← not_and_or]
    intro agree
    simp [agree, isKey] at notOwn
  · rw [origin.key, origin'.key, isKey, sameKey]
  · rw [origin'.spans texts]
    exact isSpan
  · rw [origin.spans texts, sameName, sameQuote, spans]
    exact List.mem_cons_self

theorem unmixed_of_shared {log : List (Entry N κ)}
    (uncontended : Uncontended python texts (log.map (·.before)))
    (located : ∀ entry ∈ log, Located python texts entry)
    (served : Allotment.Served (Citation.choices python texts) Citation.span []
      (log.filterMap (·.citation)))
    (shared : Shared python texts (log.filterMap (·.citation))) :
    Unmixed python texts (log.map (·.before)) := by
  intro observation quote group several room
  have isMember {ref : Value N} : ref ∈ group ↔
      ref ∈ log.map (·.before) ∧ Cites python observation quote ref := by
    simp only [group, List.mem_filter, decide_eq_true_eq]
  obtain ⟨ref, inGroup⟩ := List.exists_mem_of_length_pos (show 0 < group.length by omega)
  obtain ⟨inRefs, cites⟩ := isMember.mp inGroup
  obtain ⟨citation, inLog, origin⟩ := ref_citation located inRefs cites.2
  obtain ⟨span, rest, spans⟩ : ∃ span rest,
      quoteSpans python texts observation quote = span :: rest :=
    List.exists_cons_of_length_pos (by omega)
  obtain ⟨text, isText⟩ : ∃ text, texts observation = some text := by
    cases isText : texts observation with
    | none => simp [quoteSpans, isText] at spans
    | some text => exact ⟨text, rfl⟩
  have apart {other : Value N} (member : other ∈ log.map (·.before))
      (different : refName python other ≠ some observation ∨ refQuote other ≠ some quote)
      (meets : refName python other = some observation ∨ refKey python other = refKey python ref) :
      ∀ span ∈ refSpans python texts other, span ∉ quoteSpans python texts observation quote := by
    have spansOf := origin.spans texts
    obtain ⟨isName, isQuote⟩ := origin.cites.mp cites
    rw [isName, isQuote] at spansOf
    have clear := uncontended other member ref inRefs
    rw [cites.1, cites.2, spansOf] at clear
    exact clear different meets
  have distinct := shared observation quote text isText _ (quoteSpans_nodup observation quote)
    ?_ ?_ (by rw [group_length located]; exact room)
  · refine ⟨citation.key, fun other member => ?_, ?_⟩
    · obtain ⟨there, cites'⟩ := isMember.mp member
      obtain ⟨again, inLog', origin'⟩ := ref_citation located there cites'.2
      obtain ⟨rfl, rfl⟩ := origin.cites.mp cites
      obtain ⟨sameName, sameQuote⟩ := origin'.cites.mp cites'
      obtain ⟨first, isFirst, name, isQuote, taken⟩ :=
        first_taken uncontended located served inLog spans
      obtain ⟨second, isSecond, name', isQuote', taken'⟩ :=
        first_taken uncontended located served inLog' (by rw [sameName, sameQuote]; exact spans)
      have same := List.inj_on_of_nodup_map distinct
        (List.mem_filter.mpr ⟨isFirst, by simp [name, isQuote]⟩)
        (List.mem_filter.mpr ⟨isSecond, by simp [name', isQuote', sameName, sameQuote]⟩)
        ((Prod.mk.inj taken).2.trans (Prod.mk.inj taken').2.symm)
      rw [origin'.key, ← (Prod.mk.inj taken').1, ← (Prod.mk.inj taken).1, same]
    · intro other member isKey notName
      exact apart member (Or.inl notName) (Or.inr (isKey.trans origin.key.symm))
  · intro span member
    exact (appears_of_offered ((mem_quoteSpans citation.key isText).mp member)).2
  · intro other member isName notQuote listed
    obtain ⟨ref', inRefs', origin'⟩ := citation_ref located member
    have taken := served.mem other member
    rw [choices_eq] at taken
    obtain ⟨span, isSpan, same⟩ := List.mem_map.mp taken
    obtain rfl : span = (other.start, other.stop) := (Prod.mk.inj same).2
    refine apart inRefs' (Or.inr ?_) (Or.inl ?_) _ (origin'.spans texts ▸ isSpan) listed
    · rw [origin'.quote]
      exact fun same => notQuote (Option.some.inj same)
    · rw [origin'.name, isName]

end Sharing

section Resolves

variable {N κ : Type} [DecidableEq κ] (python : Python N κ) (texts : Text → Option Text)

/-- Quotes become spans where they appear, or the extraction is refused. -/
def Resolves (data : Value N) : Prop :=
  match resolveQuotes python texts data with
  | .ok out => ∃ log : List (Entry N κ), log.map (·.before) = dataRefs data ∧
      log.map (·.after) = dataRefs out ∧ (∀ entry ∈ log, Located python texts entry) ∧
      (∀ citation ∈ log.filterMap (·.citation), citation.start < citation.stop) ∧
      Shared python texts (log.filterMap (·.citation))
  | .error raised => ∃ why, raised = .invalid why

/-- A quote that has nothing between its quotation marks. -/
def Hollow (ref : Value N) : Prop :=
  ∃ fields quote text, ref = .object fields ∧
    JsonValue.lookup fields quoteName = some (.string quote) ∧
    texts (python.str ((JsonValue.lookup fields observationIdName).getD .null)) = some text ∧
    unquote text (strip quote) = []

def Whole (refs : List (Value N)) : Prop :=
  ∀ ref ∈ refs, ¬ Breaks python texts ref ∧ ¬ Hollow python texts ref

/-- Either a reference is refused before any breaks, or all are resolved, and the keys keep what
they share apart. -/
def Clean (refs : List (Value N)) : Prop :=
  Earliest (Refused python texts) (Breaks python texts) refs ∨
    Whole python texts refs ∧ Unmixed python texts refs

variable {python texts}

theorem resolveQuotes_cases (python : Python N κ) (texts : Text → Option Text) (data : Value N) :
    (∃ out final, resolveQuotes python texts data = .ok out ∧
      rewriteAll (resolveItem python texts) [] (dataRefs data) = .ok (final, dataRefs out)) ∨
    ∃ raised, resolveQuotes python texts data = .error raised ∧
      rewriteAll (resolveItem python texts) [] (dataRefs data) = .error raised := by
  have same := resolveQuotes_refs python texts data
  cases resolved : resolveQuotes python texts data with
  | error raised =>
      rw [resolved] at same
      cases run : rewriteAll (resolveItem python texts) [] (dataRefs data) with
      | error other =>
          rw [run] at same
          cases same
          exact Or.inr ⟨raised, rfl, rfl⟩
      | ok done =>
          rw [run] at same
          cases same
  | ok out =>
      rw [resolved] at same
      cases run : rewriteAll (resolveItem python texts) [] (dataRefs data) with
      | error other =>
          rw [run] at same
          cases same
      | ok done =>
          rw [run] at same
          have outs : dataRefs out = done.2 := Except.ok.inj same
          refine Or.inl ⟨out, done.1, rfl, ?_⟩
          rw [outs]

theorem resolves_of_clean {data : Value N} (clean : Clean python texts (dataRefs data)) :
    Resolves python texts data := by
  have refused := run_refused python texts [] (dataRefs data)
  have breaks := run_breaks python texts [] (dataRefs data)
  unfold Resolves
  rcases resolveQuotes_cases python texts data with
    ⟨out, final, resolved, run⟩ | ⟨raised, resolved, run⟩
  · rw [resolved]
    rcases clean with early | ⟨whole, unmixed⟩
    · obtain ⟨why, failed⟩ := refused.mpr early
      rw [run] at failed
      cases failed
    · obtain ⟨log, isRefs, isOuts, located, served⟩ := run_log run
      refine ⟨log, isRefs, isOuts, located, ?_,
        shared_of_served (isRefs ▸ unmixed) located served⟩
      intro citation member
      obtain ⟨entry, inLog, isCitation⟩ := List.mem_filterMap.mp member
      have place := located entry inLog
      have before : entry.before ∈ dataRefs data := by
        rw [← isRefs]
        exact List.mem_map_of_mem inLog
      cases place with
      | plain unquoted => cases isCitation
      | @cited fields quote text id key start stop isQuote named isText hashed wanted appears =>
          obtain rfl := Option.some.inj isCitation
          refine appears.lt fun empty => (whole _ before).2 ?_
          exact ⟨fields, quote, text, rfl, isQuote, by rwa [named], empty⟩
  · rw [resolved]
    rcases clean with early | ⟨whole, -⟩
    · obtain ⟨why, failed⟩ := refused.mpr early
      rw [run] at failed
      exact ⟨why, Except.error.inj failed⟩
    · by_contra other
      have early := breaks.mp ⟨raised, run, fun why same => other ⟨why, same⟩⟩
      obtain ⟨before, ref, after, split, isBreak, -⟩ := early
      exact (whole ref (by rw [split]; simp)).1 isBreak

omit [DecidableEq κ] in
theorem whole_of_located {log : List (Entry N κ)}
    (located : ∀ entry ∈ log, Located python texts entry)
    (ordered : ∀ citation ∈ log.filterMap (·.citation), citation.start < citation.stop) :
    Whole python texts (log.map (·.before)) := by
  intro ref member
  obtain ⟨entry, inLog, rfl⟩ := List.mem_map.mp member
  have place := located entry inLog
  cases place with
  | plain unquoted =>
      refine ⟨fun breaks => unquoted breaks.quoted, ?_⟩
      rintro ⟨fields, quote, text, rfl, isQuote, -⟩
      exact unquoted ⟨fields, rfl, by rw [isQuote]; rfl⟩
  | @cited fields quote text id key start stop isQuote named isText hashed wanted appears =>
      constructor
      · rintro ⟨_, _, _, same, -, -, unhashed⟩
        cases same
        rw [unhashed id named] at hashed
        cases hashed
      · rintro ⟨_, other, otherText, same, isOther, isOtherText, empty⟩
        cases same
        rw [isQuote] at isOther
        cases isOther
        rw [named, Option.getD_some, isText] at isOtherText
        cases isOtherText
        rw [empty] at appears
        exact appears.not_lt (ordered _ (List.mem_filterMap.mpr ⟨_, inLog, rfl⟩))

theorem whole_of_resolves {data : Value N} (resolves : Resolves python texts data) :
    Earliest (Refused python texts) (Breaks python texts) (dataRefs data) ∨
      Whole python texts (dataRefs data) := by
  have refused := run_refused python texts [] (dataRefs data)
  unfold Resolves at resolves
  rcases resolveQuotes_cases python texts data with
    ⟨out, final, resolved, run⟩ | ⟨raised, resolved, run⟩
  · rw [resolved] at resolves
    obtain ⟨log, isRefs, -, located, ordered, -⟩ := resolves
    exact Or.inr (isRefs ▸ whole_of_located located ordered)
  · rw [resolved] at resolves
    obtain ⟨why, rfl⟩ := resolves
    exact Or.inl (refused.mp ⟨why, run⟩)

theorem clean_of_resolves {data : Value N} (uncontended : Uncontended python texts (dataRefs data))
    (resolves : Resolves python texts data) : Clean python texts (dataRefs data) := by
  rcases whole_of_resolves resolves with early | whole
  · exact Or.inl early
  · unfold Resolves at resolves
    rcases resolveQuotes_cases python texts data with
      ⟨out, final, resolved, run⟩ | ⟨raised, resolved, run⟩
    · rw [resolved] at resolves
      obtain ⟨log, isRefs, isOuts, located, -, shared⟩ := resolves
      obtain ⟨taken, isRefs', isOuts', located', served⟩ := run_log run
      -- The spans of the promise are the ones that the run took.
      obtain rfl := log_unique located located' (isRefs.trans isRefs'.symm)
        (isOuts.trans isOuts'.symm)
      rw [← isRefs] at uncontended whole ⊢
      exact Or.inr ⟨whole, unmixed_of_shared uncontended located served shared⟩
    · rw [resolved] at resolves
      obtain ⟨why, rfl⟩ := resolves
      exact Or.inl ((run_refused python texts [] (dataRefs data)).mp ⟨why, run⟩)

variable (python texts)

/-- Quotes are resolved as promised when a reference is refused before any breaks, or all are of
something and keys do not mix; and only then, unless two quotes contend for a span. -/
theorem resolves_iff (data : Value N) :
    (Clean python texts (dataRefs data) → Resolves python texts data) ∧
      (Resolves python texts data →
        Earliest (Refused python texts) (Breaks python texts) (dataRefs data) ∨
          Whole python texts (dataRefs data)) ∧
      (Uncontended python texts (dataRefs data) →
        (Resolves python texts data ↔ Clean python texts (dataRefs data))) :=
  ⟨resolves_of_clean, whole_of_resolves, fun uncontended =>
    ⟨clean_of_resolves uncontended, resolves_of_clean⟩⟩

end Resolves

section Examples

/-- `str`, keys and folding of plain names. -/
def exampleStr : Value Nat → Text
  | .null => codes "None"
  | .bool value => if value then codes "True" else codes "False"
  | .number value => codes (toString value)
  | .string text => text
  | .array _ => codes "[]"
  | .object _ => codes "{}"

def exampleKey : Value Nat → Option (Option (Nat ⊕ Text))
  | .null => some none
  | .bool value => some (some (.inl value.toNat))
  | .number value => some (some (.inl value))
  | .string text => some (some (.inr text))
  | .array _ => none
  | .object _ => none

def exampleFold (code : Nat) : Text := if 65 ≤ code ∧ code ≤ 90 then [code + 32] else [code]

theorem exampleKey_none (value : Value Nat) : exampleKey value = none ↔
    (∃ items, value = .array items) ∨ ∃ fields, value = .object fields := by
  cases value <;> simp [exampleKey]

theorem exampleFold_nonempty (code : Nat) : exampleFold code ≠ [] := by
  unfold exampleFold
  split <;> simp

def examplePython : Python Nat (Option (Nat ⊕ Text)) where
  str := exampleStr
  key := exampleKey
  ofNat := id
  fold := exampleFold
  str_null := rfl
  str_string _ := rfl
  unhashable := exampleKey_none
  ofNat_injective _ _ same := same
  fold_nonempty := exampleFold_nonempty

def exampleTexts (name : Text) : Option Text :=
  if name = codes "a" then some (codes "Say hi")
  else if name = codes "b" then some (codes "Oh hi hi")
  else none

def exampleRef (name quote : Text) : Fields Nat :=
  [(observationIdName, .string name), (quoteName, .string quote)]

def exampleData (refs : List (Fields Nat)) : Value Nat :=
  .object [(occurrencesName,
    .array [.object [(sourceRefsName, .array (refs.map .object))]])]

theorem exampleData_refs (refs : List (Fields Nat)) :
    dataRefs (exampleData refs) = refs.map .object := by
  simp [dataRefs, exampleData, fieldItems, occurrenceRefs, JsonValue.lookup, sourceRefsName,
    contextRefsName, codes]

def exampleQuotes : Value Nat :=
  exampleData [exampleRef (codes "b") (codes " \"HI\" "), exampleRef (codes "b") (codes " \"HI\" ")]

theorem exampleQuotes_refs {ref : Value Nat} (member : ref ∈ dataRefs exampleQuotes) :
    ref = .object (exampleRef (codes "b") (codes " \"HI\" ")) := by
  rw [exampleQuotes, exampleData_refs] at member
  simpa using member

theorem resolves_iff_example : Resolves examplePython exampleTexts exampleQuotes := by
  refine (resolves_iff examplePython exampleTexts exampleQuotes).1 (Or.inr ⟨?_, ?_⟩)
  · intro ref member
    obtain rfl := exampleQuotes_refs member
    constructor
    · rintro ⟨_, _, _, same, -, -, unhashed⟩
      cases same
      exact absurd (unhashed (.string (codes "b")) rfl) (by decide)
    · rintro ⟨_, quote, text, same, isQuote, isText, empty⟩
      cases same
      cases isQuote
      cases isText
      exact absurd empty (by decide)
  · exact unmixed_of_single fun ref member => by
      obtain rfl := exampleQuotes_refs member
      exact ⟨rfl, rfl⟩

/-- A pair of quotation marks around white space becomes an empty span. -/
theorem resolves_hollow : ¬ Resolves examplePython exampleTexts
    (exampleData [exampleRef (codes "a") (codes "\"  \"")]) := by
  intro resolves
  have found := whole_of_resolves resolves
  rw [exampleData_refs] at found
  rcases found with early | whole
  · rcases earliest_cons.mp early with ⟨_, same, -, missing⟩ | ⟨-, later⟩
    · cases same
      exact absurd (missing (codes "\"  \"") (codes "Say hi") rfl) (by decide)
    · exact earliest_nil _ _ later
  · exact (whole _ (List.mem_singleton.mpr rfl)).2
      ⟨exampleRef (codes "a") (codes "\"  \""), codes "\"  \"", codes "Say hi", rfl, rfl, rfl,
        by decide⟩

end Examples

end Ovrly.Completions
