import Ovrly.Runs
import Ovrly.Window

/-!
Screen-text sampling (`capture/CaptureText.kt` of the Android app): which probed frames are
recognized, and that no minute holds more of them than the cap.
-/

namespace Ovrly.Captures

open Runs

namespace SamplingPolicy

def CHANGE_THRESHOLD : Int := 12
def PROBE_INTERVAL_MS : Int := 1000
def HEARTBEAT_MS : Int := 5000
def MAX_FRAMES_PER_MINUTE : Nat := 20
def WINDOW_MS : Int := 60000

end SamplingPolicy

open SamplingPolicy

inductive SamplingDecision
  | unchanged
  | changed
  | heartbeat
  | capped
  deriving DecidableEq, Repr

structure FrameSampler where
  lastProbeMs : Int := -PROBE_INTERVAL_MS
  lastKeptMs : Option Int := none
  lastKept : Option (List Int32) := none
  kept : List Int := []

namespace FrameSampler

/-- `none` where `require` throws. -/
def meanAbsoluteDifference (a b : List Int32) : Option Int :=
  if a.length = b.length ∧ a ≠ [] then
    some ((List.zipWith (fun x y : Int32 => (x - y).abs.toInt) a b).sum.tdiv a.length)
  else none

def classify (sampler : FrameSampler) (elapsedMs : Int) (thumbnail : List Int32) :
    Option SamplingDecision :=
  match sampler.lastKept with
  | none => some .changed
  | some previous => do
      let difference ← meanAbsoluteDifference previous thumbnail
      if CHANGE_THRESHOLD ≤ difference then return .changed
      if sampler.lastKeptMs.any fun last => HEARTBEAT_MS ≤ elapsedMs - last then
        return .heartbeat
      return .unchanged

def pruned (sampler : FrameSampler) (elapsedMs : Int) : List Int :=
  sampler.kept.dropWhile fun first => WINDOW_MS ≤ elapsedMs - first

/-- Classifies one probe; `none` when its thumbnail does not match the last one kept. -/
def decide (sampler : FrameSampler) (elapsedMs : Int) (thumbnail : List Int32) :
    Option SamplingDecision × FrameSampler :=
  let probed := { sampler with lastProbeMs := elapsedMs }
  match probed.classify elapsedMs thumbnail with
  | none => (none, probed)
  | some decision =>
      let kept := probed.pruned elapsedMs
      let wanted := decision ≠ .unchanged
      let capped := wanted ∧ MAX_FRAMES_PER_MINUTE ≤ kept.length
      if wanted ∧ ¬capped then
        (some decision,
          { probed with
            kept := kept ++ [elapsedMs]
            lastKept := some thumbnail
            lastKeptMs := some elapsedMs })
      else (some (if capped then .capped else decision), { probed with kept := kept })

/-- The three branches of `decide`, with what decides between them. -/
theorem decide_of_none {sampler : FrameSampler} {elapsedMs : Int} {thumbnail : List Int32}
    (failed : sampler.classify elapsedMs thumbnail = none) :
    sampler.decide elapsedMs thumbnail = (none, { sampler with lastProbeMs := elapsedMs }) := by
  have probed : classify { sampler with lastProbeMs := elapsedMs } elapsedMs thumbnail = none :=
    failed
  simp only [decide, probed]

theorem decide_of_kept {sampler : FrameSampler} {elapsedMs : Int} {thumbnail : List Int32}
    {decision : SamplingDecision}
    (decided : sampler.classify elapsedMs thumbnail = some decision)
    (wanted : decision ≠ .unchanged)
    (room : (sampler.pruned elapsedMs).length < MAX_FRAMES_PER_MINUTE) :
    sampler.decide elapsedMs thumbnail =
      (some decision,
        { lastProbeMs := elapsedMs
          lastKeptMs := some elapsedMs
          lastKept := some thumbnail
          kept := sampler.pruned elapsedMs ++ [elapsedMs] }) := by
  have probed : classify { sampler with lastProbeMs := elapsedMs } elapsedMs thumbnail =
      some decision := decided
  have room : (pruned { sampler with lastProbeMs := elapsedMs } elapsedMs).length <
      MAX_FRAMES_PER_MINUTE := room
  simp only [decide, probed]
  rw [if_pos ⟨wanted, fun capped => Nat.not_le.mpr room capped.2⟩]
  rfl

theorem decide_of_left {sampler : FrameSampler} {elapsedMs : Int} {thumbnail : List Int32}
    {decision : SamplingDecision}
    (decided : sampler.classify elapsedMs thumbnail = some decision)
    (unwanted : decision = .unchanged ∨
      MAX_FRAMES_PER_MINUTE ≤ (sampler.pruned elapsedMs).length) :
    sampler.decide elapsedMs thumbnail =
      (some (if decision = .unchanged then .unchanged else .capped),
        { sampler with
          lastProbeMs := elapsedMs
          kept := sampler.pruned elapsedMs }) := by
  have probed : classify { sampler with lastProbeMs := elapsedMs } elapsedMs thumbnail =
      some decision := decided
  have same : pruned { sampler with lastProbeMs := elapsedMs } elapsedMs =
      sampler.pruned elapsedMs := rfl
  simp only [decide, probed, same]
  rcases unwanted with rfl | full
  · simp
  · by_cases unchanged : decision = .unchanged
    · simp [unchanged]
    · simp [unchanged, full]

theorem classify_ne_capped {sampler : FrameSampler} {elapsedMs : Int} {thumbnail : List Int32} :
    sampler.classify elapsedMs thumbnail ≠ some .capped := by
  simp only [classify]
  split
  · simp
  · rename_i previous _
    cases meanAbsoluteDifference previous thumbnail with
    | none => simp
    | some difference =>
        simp only [Option.bind_eq_bind, Option.bind_some, Option.pure_def]
        split
        · simp
        · split <;> simp

end FrameSampler

structure Probe where
  elapsedMs : Int
  thumbnail : List Int32
  deriving DecidableEq, Repr

structure Sampling where
  sampler : FrameSampler := {}
  log : List Probe := []

namespace Sampling

variable {sampling : Sampling} {probe : Probe}

def answer (sampling : Sampling) (probe : Probe) : Option SamplingDecision :=
  (sampling.sampler.decide probe.elapsedMs probe.thumbnail).1

def step (sampling : Sampling) (probe : Probe) : Sampling where
  sampler := (sampling.sampler.decide probe.elapsedMs probe.thumbnail).2
  log := match sampling.answer probe with
    | some .changed | some .heartbeat => sampling.log ++ [probe]
    | _ => sampling.log

/-- The second frame differs enough from the first one or follows it by the heartbeat. -/
def Warranted (first second : Probe) : Prop :=
  (FrameSampler.meanAbsoluteDifference first.thumbnail second.thumbnail).any
      (CHANGE_THRESHOLD ≤ ·) = true ∨
    HEARTBEAT_MS ≤ second.elapsedMs - first.elapsedMs

/-- The sampler remembers the last frame of the log, and of the kept times all but a front that
has left the window of the last probe. -/
structure Remembers (sampling : Sampling) : Prop where
  lastKept : sampling.sampler.lastKept = sampling.log.getLast?.map Probe.thumbnail
  lastKeptMs : sampling.sampler.lastKeptMs = sampling.log.getLast?.map Probe.elapsedMs
  split : ∃ dropped, sampling.log.map Probe.elapsedMs = dropped ++ sampling.sampler.kept ∧
    ∀ time ∈ dropped, time ≤ sampling.sampler.lastProbeMs - WINDOW_MS
  ordered : (sampling.log.map Probe.elapsedMs).Pairwise (· ≤ ·)
  past : ∀ frame ∈ sampling.log, frame.elapsedMs ≤ sampling.sampler.lastProbeMs

def Later (sampling : Sampling) (probe : Probe) : Prop :=
  sampling.log ≠ [] → sampling.sampler.lastProbeMs ≤ probe.elapsedMs

def recentFrames (sampling : Sampling) (elapsedMs : Int) : List Probe :=
  sampling.log.filter (Window.recent Probe.elapsedMs WINDOW_MS elapsedMs)

theorem step_cases (sampling : Sampling) (probe : Probe) :
    (sampling.answer probe = none ∧
      sampling.step probe =
        ⟨{ sampling.sampler with lastProbeMs := probe.elapsedMs }, sampling.log⟩) ∨
    ((sampling.answer probe = some .unchanged ∨ sampling.answer probe = some .capped ∧
        MAX_FRAMES_PER_MINUTE ≤ (sampling.sampler.pruned probe.elapsedMs).length) ∧
      sampling.step probe =
        ⟨{ sampling.sampler with
            lastProbeMs := probe.elapsedMs
            kept := sampling.sampler.pruned probe.elapsedMs }, sampling.log⟩) ∨
    ((sampling.answer probe = some .changed ∨ sampling.answer probe = some .heartbeat) ∧
      sampling.sampler.classify probe.elapsedMs probe.thumbnail = sampling.answer probe ∧
      (sampling.sampler.pruned probe.elapsedMs).length < MAX_FRAMES_PER_MINUTE ∧
      sampling.step probe =
        ⟨{ lastProbeMs := probe.elapsedMs
           lastKeptMs := some probe.elapsedMs
           lastKept := some probe.thumbnail
           kept := sampling.sampler.pruned probe.elapsedMs ++ [probe.elapsedMs] },
          sampling.log ++ [probe]⟩) := by
  cases decided : sampling.sampler.classify probe.elapsedMs probe.thumbnail with
  | none =>
      left
      simp [answer, step, FrameSampler.decide_of_none decided]
  | some decision =>
      right
      by_cases unwanted : decision = .unchanged ∨
          MAX_FRAMES_PER_MINUTE ≤ (sampling.sampler.pruned probe.elapsedMs).length
      · left
        have result := FrameSampler.decide_of_left decided unwanted
        by_cases unchanged : decision = .unchanged
        · simp [answer, step, result, unchanged]
        · simpa [answer, step, result, unchanged] using unwanted
      · right
        obtain ⟨wanted, room⟩ := not_or.mp unwanted
        have result := FrameSampler.decide_of_kept decided wanted (Nat.not_le.mp room)
        cases decision with
        | unchanged => exact absurd rfl wanted
        | capped => exact absurd decided FrameSampler.classify_ne_capped
        | changed => simpa [answer, step, result] using room
        | heartbeat => simpa [answer, step, result] using room

theorem split_later (remembers : Remembers sampling) (later : Later sampling probe) :
    ∃ dropped, sampling.log.map Probe.elapsedMs = dropped ++ sampling.sampler.kept ∧
      ∀ time ∈ dropped, time ≤ probe.elapsedMs - WINDOW_MS := by
  obtain ⟨dropped, split, gone⟩ := remembers.split
  refine ⟨dropped, split, ?_⟩
  intro time member
  have present : sampling.log ≠ [] := by
    intro empty
    rw [empty] at split
    rw [(List.append_eq_nil_iff.mp split.symm).1] at member
    exact absurd member List.not_mem_nil
  have before := gone time member
  have order := later present
  omega

/-- The kept times that stay after pruning are the frames in the window that ends at the
probe. -/
theorem length_pruned (remembers : Remembers sampling) (later : Later sampling probe) :
    (sampling.sampler.pruned probe.elapsedMs).length =
      (sampling.recentFrames probe.elapsedMs).length := by
  obtain ⟨dropped, split, reached⟩ := split_later remembers later
  have sorted := remembers.ordered
  rw [split] at sorted
  have times : (sampling.recentFrames probe.elapsedMs).map Probe.elapsedMs =
      (dropped ++ sampling.sampler.kept).filter (probe.elapsedMs - WINDOW_MS < ·) := by
    rw [← split, List.filter_map]
    rfl
  have expired : (fun time => !Decidable.decide (WINDOW_MS ≤ probe.elapsedMs - time)) =
      fun time => Decidable.decide (probe.elapsedMs - WINDOW_MS < time) := by
    funext time
    rw [Bool.eq_iff_iff]
    simp only [Bool.not_eq_true', decide_eq_false_iff_not, decide_eq_true_eq]
    omega
  rw [← List.length_map (f := Probe.elapsedMs), times, List.filter_append,
    List.filter_eq_nil_iff.mpr, List.nil_append, FrameSampler.pruned, Window.dropWhile_expired,
    expired]
  · refine (List.pairwise_append.mp sorted).2.1.imp ?_
    intro first second order
    simp only [decide_eq_true_eq]
    omega
  · intro time member
    have before := reached time member
    simp only [decide_eq_true_eq]
    omega

theorem lastProbeMs_step (sampling : Sampling) (probe : Probe) :
    (sampling.step probe).sampler.lastProbeMs = probe.elapsedMs := by
  rcases sampling.step_cases probe with ⟨_, next⟩ | ⟨_, next⟩ | ⟨_, _, _, next⟩ <;> rw [next]

theorem split_pruned (remembers : Remembers sampling) (later : Later sampling probe) :
    ∃ dropped, sampling.log.map Probe.elapsedMs =
        dropped ++ sampling.sampler.pruned probe.elapsedMs ∧
      ∀ time ∈ dropped, time ≤ probe.elapsedMs - WINDOW_MS := by
  obtain ⟨dropped, split, gone⟩ := split_later remembers later
  refine ⟨dropped ++ sampling.sampler.kept.takeWhile
    fun first => WINDOW_MS ≤ probe.elapsedMs - first, ?_, ?_⟩
  · rw [split, List.append_assoc, FrameSampler.pruned, List.takeWhile_append_dropWhile]
  · intro time member
    rcases List.mem_append.mp member with old | front
    · exact gone time old
    · have expired := List.mem_takeWhile_imp front
      simp only [decide_eq_true_eq] at expired
      omega

theorem past_step (remembers : Remembers sampling) (later : Later sampling probe) :
    ∀ frame ∈ sampling.log, frame.elapsedMs ≤ probe.elapsedMs := by
  intro frame member
  exact le_trans (remembers.past frame member) (later (List.ne_nil_of_mem member))

theorem remembers_step (remembers : Remembers sampling) (later : Later sampling probe) :
    Remembers (sampling.step probe) := by
  have past := past_step remembers later
  have unpruned := split_later remembers later
  obtain ⟨dropped, split, gone⟩ := split_pruned remembers later
  rcases sampling.step_cases probe with ⟨_, next⟩ | ⟨_, next⟩ | ⟨_, _, _, next⟩
  · rw [next]
    exact ⟨remembers.lastKept, remembers.lastKeptMs, unpruned, remembers.ordered, past⟩
  · rw [next]
    exact ⟨remembers.lastKept, remembers.lastKeptMs, ⟨dropped, split, gone⟩, remembers.ordered,
      past⟩
  · rw [next]
    refine ⟨by simp, by simp, ⟨dropped, ?_, gone⟩, ?_, ?_⟩
    · simp [split]
    · rw [List.map_append, List.pairwise_append]
      refine ⟨remembers.ordered, List.pairwise_singleton _ _, ?_⟩
      intro first member second last
      obtain ⟨frame, belongs, rfl⟩ := List.mem_map.mp member
      rw [List.mem_singleton.mp last]
      exact past frame belongs
    · intro frame member
      rcases List.mem_append.mp member with old | new
      · exact past frame old
      · rw [List.mem_singleton.mp new]

theorem warranted_of_kept {last : Probe} (remembers : Remembers sampling)
    (present : sampling.log.getLast? = some last)
    (kept : sampling.answer probe = some .changed ∨ sampling.answer probe = some .heartbeat)
    (decided : sampling.sampler.classify probe.elapsedMs probe.thumbnail =
      sampling.answer probe) :
    Warranted last probe := by
  have thumbnail : sampling.sampler.lastKept = some last.thumbnail := by
    rw [remembers.lastKept, present, Option.map_some]
  have time : sampling.sampler.lastKeptMs = some last.elapsedMs := by
    rw [remembers.lastKeptMs, present, Option.map_some]
  rw [← decided] at kept
  simp only [FrameSampler.classify, thumbnail, time, Option.bind_eq_bind] at kept
  cases compared : FrameSampler.meanAbsoluteDifference last.thumbnail probe.thumbnail with
  | none => simp [compared] at kept
  | some difference =>
      simp only [Warranted, compared, Option.any_some, decide_eq_true_eq]
      by_contra neither
      obtain ⟨same, soon⟩ := not_or.mp neither
      simp [compared, same, soon] at kept

/-- No window holds more frames than the cap, and every frame but the first is warranted by the
one before it. -/
structure Lawful (sampling : Sampling) : Prop extends Remembers sampling where
  admitted : Window.Admitted Probe.elapsedMs (fun _ => 1) WINDOW_MS MAX_FRAMES_PER_MINUTE
    sampling.log
  warranted : sampling.log.IsChain Warranted

theorem usage_eq_length (inside : Probe → Bool) (log : List Probe) :
    Window.usage (fun _ => 1) inside log = (log.filter inside).length := by
  simp [Window.usage]

theorem lawful_step (lawful : Lawful sampling) (later : Later sampling probe) :
    Lawful (sampling.step probe) := by
  have remembers := remembers_step lawful.toRemembers later
  rcases sampling.step_cases probe with ⟨_, next⟩ | ⟨_, next⟩ | ⟨kept, decided, room, next⟩
  · rw [next] at remembers ⊢
    exact ⟨remembers, lawful.admitted, lawful.warranted⟩
  · rw [next] at remembers ⊢
    exact ⟨remembers, lawful.admitted, lawful.warranted⟩
  · rw [next] at remembers ⊢
    rw [length_pruned lawful.toRemembers later] at room
    refine ⟨remembers, .snoc lawful.admitted ?_, ?_⟩
    · rw [usage_eq_length]
      exact room
    · rw [List.isChain_append]
      refine ⟨lawful.warranted, List.isChain_singleton _, ?_⟩
      intro last present first only
      obtain rfl : probe = first := by simpa using only
      exact warranted_of_kept lawful.toRemembers present kept decided

theorem lawful_start : Lawful {} where
  lastKept := rfl
  lastKeptMs := rfl
  split := ⟨[], rfl, by simp⟩
  ordered := List.Pairwise.nil
  past := by simp
  admitted := .nil
  warranted := List.isChain_nil

theorem meets_later {probes : List Probe}
    (ordered : probes.Pairwise fun first second => first.elapsedMs ≤ second.elapsedMs)
    (begun : ∀ probe ∈ probes, Later sampling probe) : Meets step Later sampling probes := by
  induction probes generalizing sampling with
  | nil => trivial
  | cons probe rest ih =>
      obtain ⟨first, tail⟩ := List.pairwise_cons.mp ordered
      refine ⟨begun probe List.mem_cons_self, ih tail ?_⟩
      intro other member _
      rw [lastProbeMs_step]
      exact first other member

theorem lawful_run {probes : List Probe}
    (ordered : probes.Pairwise fun first second => first.elapsedMs ≤ second.elapsedMs) :
    Lawful (exec step {} probes) :=
  exec_invariant_of_meets Lawful (fun _ _ later lawful => lawful_step lawful later) lawful_start
    (meets_later ordered fun _ _ present => absurd rfl present)

/-- A capped probe has the cap's number of frames in the window that ends at it. -/
theorem recent_of_capped (lawful : Lawful sampling) (later : Later sampling probe)
    (capped : sampling.answer probe = some .capped) :
    MAX_FRAMES_PER_MINUTE ≤
      (sampling.log.filter (Window.within Probe.elapsedMs WINDOW_MS probe.elapsedMs)).length := by
  have past := past_step lawful.toRemembers later
  have same : sampling.log.filter (Window.within Probe.elapsedMs WINDOW_MS probe.elapsedMs) =
      sampling.recentFrames probe.elapsedMs := by
    apply List.filter_congr
    intro frame member
    simp [Window.within, Window.recent, past frame member]
  rw [same, ← length_pruned lawful.toRemembers later]
  rcases sampling.step_cases probe with ⟨failed, _⟩ | ⟨unwanted | full, _⟩ | ⟨kept, _⟩
  · simp [capped] at failed
  · simp [capped] at unwanted
  · exact full.2
  · simp [capped] at kept

theorem capped_run {probes before : List Probe} {probe : Probe}
    (ordered : probes.Pairwise fun first second => first.elapsedMs ≤ second.elapsedMs)
    (front : before ++ [probe] <+: probes)
    (capped : (exec step {} before).answer probe = some .capped) :
    MAX_FRAMES_PER_MINUTE ≤ ((exec step {} before).log.filter
      (Window.within Probe.elapsedMs WINDOW_MS probe.elapsedMs)).length := by
  have sorted := ordered.sublist front.sublist
  have lawful := lawful_run (List.pairwise_append.mp sorted).1
  have met : Meets step Later {} (before ++ [probe]) :=
    meets_later sorted fun _ _ present => absurd rfl present
  exact recent_of_capped lawful (meets_append.mp met).2.1 capped

/-- Over probes with nondecreasing times: no interval as long as the window holds more kept
frames than the cap, whichever of its ends is open; a probe is capped only when the window that
ends at it is full; and a frame is kept for its difference from the one kept before it or for
the heartbeat. -/
theorem sampling_bound (probes : List Probe)
    (ordered : probes.Pairwise fun first second => first.elapsedMs ≤ second.elapsedMs) :
    (∀ start, ((exec step {} probes).log.filter fun frame =>
        start ≤ frame.elapsedMs ∧ frame.elapsedMs < start + WINDOW_MS).length ≤
      MAX_FRAMES_PER_MINUTE) ∧
    (∀ start, ((exec step {} probes).log.filter fun frame =>
        start < frame.elapsedMs ∧ frame.elapsedMs ≤ start + WINDOW_MS).length ≤
      MAX_FRAMES_PER_MINUTE) ∧
    (∀ before probe, before ++ [probe] <+: probes →
      (exec step {} before).answer probe = some .capped →
      ((exec step {} before).log.filter fun frame =>
          probe.elapsedMs - WINDOW_MS < frame.elapsedMs ∧
            frame.elapsedMs ≤ probe.elapsedMs).length = MAX_FRAMES_PER_MINUTE) ∧
    (exec step {} probes).log.IsChain Warranted := by
  have lawful := lawful_run ordered
  have bounded (reading : Int) := lawful.admitted.bounded reading
  simp only [usage_eq_length] at bounded
  refine ⟨?_, ?_, ?_, lawful.warranted⟩
  · intro start
    refine le_trans (le_of_eq (congrArg List.length (List.filter_congr ?_)))
      (bounded (start + WINDOW_MS - 1))
    intro frame _
    simp only [Window.within, decide_eq_decide]
    omega
  · intro start
    refine le_trans (le_of_eq (congrArg List.length (List.filter_congr ?_)))
      (bounded (start + WINDOW_MS))
    intro frame _
    simp only [Window.within, decide_eq_decide]
    omega
  · intro before probe front capped
    have sorted := ordered.sublist ((List.prefix_append before [probe]).trans front).sublist
    have admitted := (lawful_run sorted).admitted.bounded probe.elapsedMs
    rw [usage_eq_length] at admitted
    exact le_antisymm admitted (capped_run ordered front capped)

def exampleProbes : List Probe :=
  (List.range 20).map fun second : Nat => ⟨1000 * second, [Int32.ofNat (40 * (second % 2))]⟩

/-- Every frame of twenty seconds is kept, and the next one is capped. -/
theorem sampling_bound_capped :
    (exec step {} exampleProbes).answer ⟨20000, [0]⟩ = some .capped ∧
      ((exec step {} exampleProbes).log.filter fun frame =>
        -40000 < frame.elapsedMs ∧ frame.elapsedMs ≤ 20000).length = 20 ∧
      (exec step {} (exampleProbes ++ [⟨20000, [0]⟩])).log.IsChain Warranted := by
  have capped : (exec step {} exampleProbes).answer ⟨20000, [0]⟩ = some .capped := by
    decide +kernel
  obtain ⟨-, -, full, warranted⟩ := sampling_bound (exampleProbes ++ [⟨20000, [0]⟩])
    (by decide +kernel)
  exact ⟨capped, full exampleProbes ⟨20000, [0]⟩ (List.prefix_refl _) capped, warranted⟩

end Sampling

end Ovrly.Captures
