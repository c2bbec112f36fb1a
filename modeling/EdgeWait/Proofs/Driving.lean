/-
Drivers of a context on a simulator.

A driver learns nothing of a session but the calls that the scheduler has received.  From them it
decides what to do, round by round: in each round it records waits and makes other requests (`Ask`),
and at the end of it the waits on record may be flushed (`FlushPoint`).

* `Session.drive` plays rounds of a driver, and tells what its requests have been answered
  (`Course`);
* `Circumstances` are what no driver can choose: the orders in which flushes visit the signals, and
  the way in which the waits of a round have been interleaved;
* `Reordered`, `Rearranged` — in which other ways they can be: waits on one list stay in their order,
  and in the second case it also stays the same which of them a shutdown comes after;
* `Session.ask_upholds`, `Session.drive_upholds` — what every request keeps, rounds keep.

Design notes: keys are not shown to a driver, as they differ from pool to pool.  It names them by
the numbers of the requests that they have been issued for.  To record a wait has no answer: either
it succeeds, or it is a fault.  No request of a round calls the scheduler, so a driver knows at the
beginning of a round all that it knows at the end of it.
-/
import EdgeWait.Proofs.Reach
import EdgeWait.Proofs.Unbatched

namespace EdgeWait

/-- A request that leaves the waits on record where they are, or drops them. -/
inductive Prompt where
  | waitNow (signal : SignalId) (edge : Edge) (task : TaskId)
  | watch (signal : SignalId) (edge : Edge) (task : TaskId)
  /-- Cancels the key that has been issued for an earlier `waitNow` or `watch`, by the number of
  that request among all of these. -/
  | cancel (request : Nat)
  | schedule (time : SimTime) (signal : SignalId) (value : Logic)
  /-- Ends every registration, and drops the waits on record. -/
  | shutdown

/-- If the request schedules a change, it is one of the first `n` signals. -/
def Prompt.Names (n : Nat) : Prompt → Prop
  | schedule _ signal _ => signal.raw.toNat < n
  | _ => True

/-- What a driver asks for in a round. -/
inductive Ask where
  | addWait (w : Wait SignalId)
  | prompt (p : Prompt)

/-- What flushes the waits on record, before anything else that it does. -/
inductive FlushPoint where
  | flush
  | step
  | run
  | runUntil (limit : SimTime)

/-- One round of a driver. -/
structure Round where
  asks : List Ask
  flushPoint : Option FlushPoint

/-- A driver tells its rounds, by their numbers, from what the scheduler has been called for. -/
abbrev Driver := Nat → List SchedulerCall → Round

/-- What a request is answered.  A key is answered by nothing but its success. -/
inductive Reply where
  | done
  | failed (error : SimError)
  /-- A cancel, and whether there was a registration to end. -/
  | cancelled (found : Bool)
  /-- A shutdown, and the number of registrations that it has ended. -/
  | removed (count : Nat)
  | stepped (result : StepResult)
  /-- A run, and the time that it has reached. -/
  | reached (time : SimTime)
deriving DecidableEq

/-! ### Rounds in another order -/

def Ask.wait? : Ask → Option (Wait SignalId)
  | addWait w => some w
  | prompt _ => none

def Ask.prompt? : Ask → Option Prompt
  | addWait _ => none
  | prompt p => some p

/-- The requests of a round besides its waits, in their order. -/
def prompts (asks : List Ask) : List Prompt := asks.filterMap Ask.prompt?

/-- The waits that are recorded in a round, in their order. -/
def recorded (asks : List Ask) : List (Wait SignalId) := asks.filterMap Ask.wait?

/-- The request drops the waits that are on record. -/
def Prompt.drops : Prompt → Bool
  | shutdown => true
  | _ => false

/-- Waits that have been on record before the round are dropped in it. -/
def drops (asks : List Ask) : Bool := (prompts asks).any Prompt.drops

theorem drops_addWait (w : Wait SignalId) (rest : List Ask) :
    drops (.addWait w :: rest) = drops rest := rfl

theorem drops_prompt (p : Prompt) (rest : List Ask) :
    drops (.prompt p :: rest) = (p.drops || drops rest) := rfl

/-- The waits of a round that are on record at its end, which are those after its last shutdown. -/
def leftOver : List Ask → List (Wait SignalId)
  | [] => []
  | .addWait w :: rest => if drops rest then leftOver rest else w :: leftOver rest
  | .prompt _ :: rest => leftOver rest

/-- The tasks that wait for one edge of one signal. -/
def waitingIn (ws : List (Wait SignalId)) (signal : SignalId) (edge : Edge) : List TaskId :=
  (ws.filter fun w => w.signal = signal ∧ w.edge = edge).map (·.task)

theorem waitingIn_cons (w : Wait SignalId) (ws : List (Wait SignalId)) (signal : SignalId)
    (edge : Edge) : waitingIn (w :: ws) signal edge =
      (if (w.signal, w.edge) = (signal, edge) then [w.task] else []) ++
        waitingIn ws signal edge := by
  rw [waitingIn, List.filter_cons, waitingIn]
  by_cases hw : w.signal = signal ∧ w.edge = edge
  · simp [hw]
  · simp [hw, Prod.ext_iff]

theorem waitingIn_append (ws ws' : List (Wait SignalId)) (signal : SignalId) (edge : Edge) :
    waitingIn (ws ++ ws') signal edge = waitingIn ws signal edge ++ waitingIn ws' signal edge := by
  rw [waitingIn, List.filter_append, List.map_append, waitingIn, waitingIn]

/-- The waits of a round have been interleaved in another way: those for one edge of one signal stay
in their order, and so do all other requests. -/
structure Reordered (asks asks' : List Ask) : Prop where
  prompts : prompts asks = prompts asks'
  recorded : ∀ signal edge,
    waitingIn (recorded asks) signal edge = waitingIn (recorded asks') signal edge

/-- Moreover, no wait has been moved past the last shutdown of the round. -/
structure Rearranged (asks asks' : List Ask) : Prop extends Reordered asks asks' where
  leftOver : ∀ signal edge,
    waitingIn (leftOver asks) signal edge = waitingIn (leftOver asks') signal edge

/-- Without a shutdown nothing is dropped. -/
theorem leftOver_of_not_drops {asks : List Ask} (h : drops asks = false) :
    leftOver asks = recorded asks := by
  induction asks with
  | nil => rfl
  | cons a rest ih =>
    cases a with
    | addWait w =>
      rw [drops_addWait] at h
      rw [leftOver, if_neg (by simp [h]), ih h]
      rfl
    | prompt p =>
      rw [drops_prompt, Bool.or_eq_false_iff] at h
      exact ih h.2

/-- So in a round without a shutdown the waits can be interleaved in any way. -/
theorem Reordered.rearranged {asks asks' : List Ask} (h : Reordered asks asks')
    (hdrops : drops asks' = false) : Rearranged asks asks' := by
  have hsame : drops asks = false := by rw [drops, h.prompts, ← drops, hdrops]
  refine ⟨h, ?_⟩
  rw [leftOver_of_not_drops hsame, leftOver_of_not_drops hdrops]
  exact h.recorded

theorem Rearranged.refl (asks : List Ask) : Rearranged asks asks :=
  ⟨⟨rfl, fun _ _ => rfl⟩, fun _ _ => rfl⟩

/-- What no driver can choose.  Each flush of a round has an order of its own, and the waits of a
round are interleaved in one of the ways `R`. -/
structure Circumstances (R : List Ask → List Ask → Prop) where
  orders : Nat → Nat → VisitOrder SignalId
  arrange : Nat → List Ask → List Ask
  arranged : ∀ k asks, R (arrange k asks) asks

/-! ### Courses -/

/-- What has come of requests so far. -/
structure Course (T : Type) where
  replies : List Reply
  /-- Where the requests have led, up to one that has stopped on a fault. -/
  session : Session T
  fault : Option Fault

namespace Course

variable {T : Type} {F : Fault → Prop} {P : Session T → Prop} {course : Course T}
  {next : Session T → Course T}

/-- Goes on with the session, unless there has been a fault. -/
def onward (course : Course T) (next : Session T → Course T) : Course T :=
  match course.fault with
  | some _ => course
  | none =>
    let rest := next course.session
    ⟨course.replies ++ rest.replies, rest.session, rest.fault⟩

theorem onward_of_fault {f : Fault} (h : course.fault = some f) : course.onward next = course := by
  rw [onward, h]

theorem onward_of_no_fault (h : course.fault = none) : course.onward next =
    ⟨course.replies ++ (next course.session).replies, (next course.session).session,
      (next course.session).fault⟩ := by
  rw [onward, h]

/-- The requests have led to a session with `P`, or up to there, and to none but the faults `F`. -/
structure Upholds (F : Fault → Prop) (P : Session T → Prop) (course : Course T) : Prop where
  session : P course.session
  faults : ∀ f, course.fault = some f → F f

theorem Upholds.imp {F' : Fault → Prop} {P' : Session T → Prop} (h : course.Upholds F P)
    (hF : ∀ f, F f → F' f) (hP : ∀ s, P s → P' s) : course.Upholds F' P' :=
  ⟨hP _ h.session, fun f hf => hF f (h.faults f hf)⟩

/-- A course that has met with no fault has met with none at any time before. -/
theorem no_fault_of_onward (h : (course.onward next).fault = none) :
    course.fault = none ∧ (next course.session).fault = none := by
  cases hfault : course.fault with
  | some f =>
    rw [onward_of_fault hfault, hfault] at h
    cases h
  | none =>
    rw [onward_of_no_fault hfault] at h
    exact ⟨rfl, h⟩

theorem Upholds.onward (h : course.Upholds F P) (hnext : ∀ s, P s → (next s).Upholds F P) :
    (course.onward next).Upholds F P := by
  cases hfault : course.fault with
  | some f =>
    rw [onward_of_fault hfault]
    exact h
  | none =>
    rw [onward_of_no_fault hfault]
    exact ⟨(hnext _ h.session).session, (hnext _ h.session).faults⟩

end Course

/-- As far as the driver schedules changes, they are of the first `n` signals. -/
def Driver.Names (n : Nat) (driver : Driver) : Prop :=
  ∀ k calls, ∀ p ∈ prompts (driver k calls).asks, p.Names n

/-- What it is answered when a change is scheduled. -/
def Sim.scheduled (s : Sim) (time : SimTime) (signal : SignalId) (value : Logic) : Reply :=
  match s.schedule time signal value with
  | .ok _ => .done
  | .error e => .failed e

namespace Session

variable {T : Type}

/-- What the driver sees of an operation. -/
def settle {α : Type} (s : Session T) (reply : α → Reply) :
    Outcome SimError (SimBench (SchedulerRecord T)) α → Course T
  | .done a b => ⟨[reply a], ⟨b, s.answers⟩, none⟩
  | .failed e b => ⟨[.failed e], ⟨b, s.answers⟩, none⟩
  | .fault f => ⟨[], s, some f⟩

/-- What the driver sees of a request for a key, which goes on record. -/
def settleKey (s : Session T) :
    Outcome MuxError (SimBench (SchedulerRecord T)) RegistrationKey → Course T
  | .done key b => ⟨[.done], s.next b (some key), none⟩
  | .failed e b => ⟨[.failed (.mux e)], s.next b none, none⟩
  | .fault f => ⟨[], s, some f⟩

/-- Answers a request besides a wait.  A request that has been issued no key cannot be cancelled. -/
def prompt (s : Session T) : Prompt → Course T
  | .waitNow signal edge task => s.settleKey (s.bench.waitNow signal edge task)
  | .watch signal edge task => s.settleKey (s.bench.watch signal edge task)
  | .cancel request =>
    match s.answers[request]?.join with
    | none => ⟨[.cancelled false], s, none⟩
    | some key => s.settle .cancelled (.ofExcept (s.bench.cancel key))
  | .schedule time signal value =>
    ⟨[s.bench.native.scheduled time signal value],
      ⟨s.bench.onSim fun sim => (sim.schedule time signal value).toOption.getD sim, s.answers⟩,
      none⟩
  | .shutdown => s.settle .removed (.ofExcept s.bench.shutdown)

/-- Answers one request of a round. -/
def answer (s : Session T) : Ask → Course T
  | .addWait w =>
    match s.bench.addWait w.signal w.edge w.task with
    | .error f => ⟨[], s, some f⟩
    | .ok b => ⟨[], ⟨b, s.answers⟩, none⟩
  | .prompt p => s.prompt p

/-- Answers what is asked for in a round, in turn. -/
def ask : List Ask → Session T → Course T
  | [], s => ⟨[], s, none⟩
  | a :: rest, s => (s.answer a).onward (ask rest)

variable [Scheduler T]

/-- Flushes the waits on record at the end of a round, if the driver has it so. -/
def flushAt (orders : Nat → VisitOrder SignalId) (s : Session T) : Option FlushPoint → Course T
  | none => ⟨[], s, none⟩
  | some .flush => s.settle (fun _ => .done) ((s.bench.flush (orders 0)).mapError .mux)
  | some .step => s.settle .stepped (s.bench.step (orders 0))
  | some .run => s.settle .reached (s.bench.run orders)
  | some (.runUntil limit) => s.settle .reached (s.bench.runUntil orders limit)

/-- Plays `n` rounds of a driver, the first of which has the number `k`. -/
def drive {R : List Ask → List Ask → Prop} (driver : Driver) (κ : Circumstances R) :
    Nat → Nat → Session T → Course T
  | 0, _, s => ⟨[], s, none⟩
  | n + 1, k, s =>
    let round := driver k s.bench.scheduler.calls
    (ask (κ.arrange k round.asks) s).onward fun s =>
      (s.flushAt (κ.orders k) round.flushPoint).onward (drive driver κ n (k + 1))

/-! ### What requests keep -/

section Upholds

variable {F : Fault → Prop} {P : Session T → Prop} {q : Prompt → Prop} {s : Session T}

omit [Scheduler T] in
theorem settle_upholds {α : Type} {reply : α → Reply}
    {o : Outcome SimError (SimBench (SchedulerRecord T)) α} (hs : P s)
    (h : o.Upholds F fun b => P ⟨b, s.answers⟩) : (s.settle reply o).Upholds F P := by
  cases o with
  | done a b => exact ⟨h, by simp [settle]⟩
  | failed e b => exact ⟨h, by simp [settle]⟩
  | fault f => exact ⟨hs, fun _ hf => Option.some.inj hf ▸ h⟩

omit [Scheduler T] in
theorem settleKey_upholds {o : Outcome MuxError (SimBench (SchedulerRecord T)) RegistrationKey}
    (hs : P s) (h : o.Upholds F fun b => ∀ answer, P (s.next b answer)) :
    (s.settleKey o).Upholds F P := by
  cases o with
  | done key b => exact ⟨h _, by simp [settleKey]⟩
  | failed e b => exact ⟨h _, by simp [settleKey]⟩
  | fault f => exact ⟨hs, fun _ hf => Option.some.inj hf ▸ h⟩

omit [Scheduler T] in
/-- **What every request keeps** is kept by all requests of a round. -/
theorem ask_upholds (hadd : ∀ s w, P s → (s.answer (.addWait w)).Upholds F P)
    (hprompt : ∀ s p, P s → q p → (s.prompt p).Upholds F P) (asks : List Ask) :
    (∀ p ∈ prompts asks, q p) → ∀ s, P s → (ask asks s).Upholds F P := by
  induction asks with
  | nil => exact fun _ s h => ⟨h, by simp [ask]⟩
  | cons a rest ih =>
    intro hq s h
    rw [ask]
    cases a with
    | addWait w => exact (hadd s w h).onward (ih hq)
    | prompt p =>
      obtain ⟨hp, hrest⟩ := List.forall_mem_cons.mp hq
      exact (hprompt s p h hp).onward (ih hrest)

/-- **What every request keeps**, and every flush point, is kept by rounds. -/
theorem drive_upholds {R : List Ask → List Ask → Prop} {driver : Driver} {κ : Circumstances R}
    (hR : ∀ {asks asks'}, R asks asks' → prompts asks = prompts asks')
    (hadd : ∀ s w, P s → (s.answer (.addWait w)).Upholds F P)
    (hprompt : ∀ s p, P s → q p → (s.prompt p).Upholds F P)
    (hflush : ∀ s orders point, P s → (s.flushAt orders point).Upholds F P)
    (hq : ∀ k calls, ∀ p ∈ prompts (driver k calls).asks, q p) (n : Nat) :
    ∀ k s, P s → (drive driver κ n k s).Upholds F P := by
  induction n with
  | zero => exact fun k s h => ⟨h, by simp [drive]⟩
  | succ n ih =>
    intro k s h
    rw [drive]
    have hprompts : ∀ p ∈ prompts (κ.arrange k (driver k s.bench.scheduler.calls).asks), q p := by
      rw [hR (κ.arranged k _)]
      exact hq k _
    refine (ask_upholds hadd hprompt _ hprompts s h).onward fun s' h' => ?_
    exact (hflush s' (κ.orders k) _ h').onward (ih (k + 1))

end Upholds

end Session

end EdgeWait
