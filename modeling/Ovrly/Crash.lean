import Mathlib.Init

/-!
Programs of a worker that keeps a durable record and may crash at any point.

A program saves its record, emits effects and asks its environment questions whose answers
it cannot know. A crash stops it between any two of these; whatever runs next starts from the
record saved last. The trace lists saves and effects, newest first. The rules below reduce a
property of every history of such runs to one walk through the program.
-/

namespace Crash

/-- What a program may save, do and ask. -/
structure Signature where
  Data : Type
  Event : Type
  Query : Type
  Answer : Query → Type

inductive Program (S : Signature) (α : Type)
  | done (result : α)
  | save (data : S.Data) (next : Program S α)
  | emit (event : S.Event) (next : Program S α)
  | ask (query : S.Query) (next : S.Answer query → Program S α)

inductive Entry (S : Signature)
  | saved (data : S.Data)
  | emitted (event : S.Event)

abbrev Trace (S : Signature) := List (Entry S)

variable {S : Signature} {α β : Type}

/-- The record a restart finds. -/
def durable (start : S.Data) : Trace S → S.Data
  | [] => start
  | .saved data :: _ => data
  | .emitted _ :: earlier => durable start earlier

@[simp] theorem durable_nil (start : S.Data) : durable start [] = start := rfl

@[simp] theorem durable_saved (start data : S.Data) (earlier : Trace S) :
    durable start (.saved data :: earlier) = data := rfl

@[simp] theorem durable_emitted (start : S.Data) (event : S.Event) (earlier : Trace S) :
    durable start (.emitted event :: earlier) = durable start earlier := rfl

/-- The traces a program can have left behind when it stops, for whatever reason. -/
inductive Reaches : Program S α → Trace S → Trace S → Prop
  | stopped {program trace} : Reaches program trace trace
  | save {data next trace later} :
      Reaches next (.saved data :: trace) later → Reaches (.save data next) trace later
  | emit {event next trace later} :
      Reaches next (.emitted event :: trace) later → Reaches (.emit event next) trace later
  | ask {query next trace later} (answer : S.Answer query) :
      Reaches (next answer) trace later → Reaches (.ask query next) trace later

/-- What any number of runs can leave behind, each started from the record of the one before
and each stopped anywhere. -/
inductive History (start : S.Data) (program : S.Data → Program S α) : Trace S → Prop
  | fresh : History start program []
  | run {trace later} : History start program trace →
      Reaches (program (durable start trace)) trace later → History start program later

namespace Program

def bind (program : Program S α) (next : α → Program S β) : Program S β :=
  match program with
  | .done result => next result
  | .save data rest => .save data (bind rest next)
  | .emit event rest => .emit event (bind rest next)
  | .ask query rest => .ask query fun answer => bind (rest answer) next

/-- From a trace on, the program keeps an invariant of the trace across every save and every
effect, and where it ends its result meets the postcondition. -/
def Safe (keeps : Trace S → Prop) (program : Program S α) (trace : Trace S)
    (post : α → Trace S → Prop) : Prop :=
  match program with
  | .done result => post result trace
  | .save data next => keeps (.saved data :: trace) ∧ Safe keeps next (.saved data :: trace) post
  | .emit event next =>
      keeps (.emitted event :: trace) ∧ Safe keeps next (.emitted event :: trace) post
  | .ask _ next => ∀ answer, Safe keeps (next answer) trace post

variable {keeps : Trace S → Prop}

theorem safe_bind {program : Program S α} {next : α → Program S β} {trace : Trace S}
    {post : β → Trace S → Prop} :
    Safe keeps (program.bind next) trace post ↔
      Safe keeps program trace fun result later => Safe keeps (next result) later post := by
  induction program generalizing trace with
  | done result => rfl
  | save data rest ih => simp only [bind, Safe, ih]
  | emit event rest ih => simp only [bind, Safe, ih]
  | ask query rest ih => simp only [bind, Safe, ih]

theorem Safe.mono {program : Program S α} {trace : Trace S} {post weaker : α → Trace S → Prop}
    (safe : Safe keeps program trace post)
    (implies : ∀ result later, post result later → weaker result later) :
    Safe keeps program trace weaker := by
  induction program generalizing trace with
  | done result => exact implies result trace safe
  | save data rest ih => exact ⟨safe.1, ih safe.2⟩
  | emit event rest ih => exact ⟨safe.1, ih safe.2⟩
  | ask query rest ih => exact fun answer => ih answer (safe answer)

/-- Wherever a safe program stops, the invariant holds. -/
theorem Safe.reaches {program : Program S α} {trace later : Trace S} {post : α → Trace S → Prop}
    (safe : Safe keeps program trace post) (initially : keeps trace)
    (reached : Reaches program trace later) : keeps later := by
  induction reached with
  | stopped => exact initially
  | save _ ih => exact ih safe.2 safe.1
  | emit _ ih => exact ih safe.2 safe.1
  | ask answer _ ih => exact ih (safe answer) initially

/-- The trace left by a program whose questions get the given answers, one after another, and
which stops at the first question without one. -/
def replay [DecidableEq S.Query] (program : Program S α)
    (answers : List (Σ query, S.Answer query)) (trace : Trace S) : Trace S :=
  match program with
  | .done _ => trace
  | .save data next => next.replay answers (.saved data :: trace)
  | .emit event next => next.replay answers (.emitted event :: trace)
  | .ask query next =>
      match answers with
      | [] => trace
      | ⟨asked, answer⟩ :: rest =>
          if same : asked = query then (next (same ▸ answer)).replay rest trace else trace

theorem reaches_replay [DecidableEq S.Query] (program : Program S α)
    (answers : List (Σ query, S.Answer query)) (trace : Trace S) :
    Reaches program trace (program.replay answers trace) := by
  induction program generalizing answers trace with
  | done result => exact .stopped
  | save data next ih => exact .save (ih answers _)
  | emit event next ih => exact .emit (ih answers _)
  | ask query next ih =>
      cases answers with
      | nil => exact .stopped
      | cons given rest =>
          obtain ⟨asked, answer⟩ := given
          simp only [replay]
          split
          · rename_i same
            subst same
            exact .ask answer (ih answer rest trace)
          · exact .stopped

end Program

/-- An invariant that the program keeps from every record it can start from holds of every
history. -/
theorem History.keeps {start : S.Data} {program : S.Data → Program S α} {trace : Trace S}
    {keeps : Trace S → Prop} {post : α → Trace S → Prop} (initially : keeps [])
    (safe : ∀ trace, keeps trace → (program (durable start trace)).Safe keeps trace post)
    (history : History start program trace) : keeps trace := by
  induction history with
  | fresh => exact initially
  | run _ reached ih => exact (safe _ ih).reaches ih reached

def Worker (S : Signature) (σ ε α : Type) := σ → Program S (Except ε α × σ)

namespace Worker

variable {σ ε : Type}

protected def pure (value : α) : Worker S σ ε α := fun memory => .done (.ok value, memory)

protected def bind (worker : Worker S σ ε α) (next : α → Worker S σ ε β) : Worker S σ ε β :=
  fun memory => (worker memory).bind fun outcome =>
    match outcome with
    | (.ok value, later) => next value later
    | (.error failure, later) => .done (.error failure, later)

instance : Monad (Worker S σ ε) where
  pure := Worker.pure
  bind := Worker.bind

def raise (failure : ε) : Worker S σ ε α := fun memory => .done (.error failure, memory)

/-- The outcome of a worker as a value: what a handler of its failures inspects. -/
def attempt (worker : Worker S σ ε α) : Worker S σ ε (Except ε α) :=
  fun memory => (worker memory).bind fun outcome => .done (.ok outcome.1, outcome.2)

def read : Worker S σ ε σ := fun memory => .done (.ok memory, memory)

def update (change : σ → σ) : Worker S σ ε Unit := fun memory => .done (.ok (), change memory)

def save (data : S.Data) : Worker S σ ε Unit :=
  fun memory => .save data (.done (.ok (), memory))

def emit (event : S.Event) : Worker S σ ε Unit :=
  fun memory => .emit event (.done (.ok (), memory))

def ask (query : S.Query) : Worker S σ ε (S.Answer query) :=
  fun memory => .ask query fun answer => .done (.ok answer, memory)

/-- The worker keeps the invariant from its memory and the trace on, and its outcome, its
memory and the trace at its end meet the postcondition. -/
def Meets (keeps : Trace S → Prop) (worker : Worker S σ ε α) (memory : σ) (trace : Trace S)
    (post : Except ε α → σ → Trace S → Prop) : Prop :=
  (worker memory).Safe keeps trace fun outcome later => post outcome.1 outcome.2 later

variable {keeps : Trace S → Prop} {memory : σ} {trace : Trace S}

theorem Meets.mono {worker : Worker S σ ε α} {post weaker : Except ε α → σ → Trace S → Prop}
    (meets : worker.Meets keeps memory trace post)
    (implies : ∀ outcome memory later, post outcome memory later → weaker outcome memory later) :
    worker.Meets keeps memory trace weaker :=
  Program.Safe.mono meets fun outcome later => implies outcome.1 outcome.2 later

section Rules

variable {post : Except ε α → σ → Trace S → Prop}

@[simp] theorem meets_pure {value : α} :
    (pure value : Worker S σ ε α).Meets keeps memory trace post ↔
      post (.ok value) memory trace := Iff.rfl

@[simp] theorem meets_raise {failure : ε} :
    (raise failure : Worker S σ ε α).Meets keeps memory trace post ↔
      post (.error failure) memory trace := Iff.rfl

/-- What follows a worker runs where it succeeds; a failure passes by. -/
theorem meets_bind {worker : Worker S σ ε β} {next : β → Worker S σ ε α} :
    (worker >>= next).Meets keeps memory trace post ↔
      worker.Meets keeps memory trace fun outcome memory later =>
        match outcome with
        | .ok value => (next value).Meets keeps memory later post
        | .error failure => post (.error failure) memory later := by
  simp only [Meets, Bind.bind, Worker.bind, Program.safe_bind]
  refine ⟨fun safe => safe.mono ?_, fun safe => safe.mono ?_⟩ <;>
    · rintro ⟨value | failure, later⟩ trace holds <;> exact holds

@[simp] theorem meets_attempt {worker : Worker S σ ε β}
    {post : Except ε (Except ε β) → σ → Trace S → Prop} :
    worker.attempt.Meets keeps memory trace post ↔
      worker.Meets keeps memory trace fun outcome => post (.ok outcome) := by
  simp only [Meets, attempt, Program.safe_bind, Program.Safe]

@[simp] theorem meets_read {post : Except ε σ → σ → Trace S → Prop} :
    (read : Worker S σ ε σ).Meets keeps memory trace post ↔ post (.ok memory) memory trace :=
  Iff.rfl

@[simp] theorem meets_ask {query : S.Query}
    {post : Except ε (S.Answer query) → σ → Trace S → Prop} :
    (ask query : Worker S σ ε (S.Answer query)).Meets keeps memory trace post ↔
      ∀ answer, post (.ok answer) memory trace := Iff.rfl

variable {post : Except ε Unit → σ → Trace S → Prop}

@[simp] theorem meets_update {change : σ → σ} :
    (update change : Worker S σ ε Unit).Meets keeps memory trace post ↔
      post (.ok ()) (change memory) trace := Iff.rfl

@[simp] theorem meets_save {data : S.Data} :
    (save data : Worker S σ ε Unit).Meets keeps memory trace post ↔
      keeps (.saved data :: trace) ∧ post (.ok ()) memory (.saved data :: trace) := Iff.rfl

@[simp] theorem meets_emit {event : S.Event} :
    (emit event : Worker S σ ε Unit).Meets keeps memory trace post ↔
      keeps (.emitted event :: trace) ∧ post (.ok ()) memory (.emitted event :: trace) := Iff.rfl

end Rules

end Worker

end Crash
