/-
Cancels interfere with nothing else.

A host gives commands to a context and its simulator.  It names keys by the requests that they have
been issued for.  Then the same commands are given to a new session, with one cancel among them.

* `obey_along` — a command leads on in both sessions, which stay alike but for what is cancelled;
* `obeyAll_along` — so do all commands;
* `cancel_spares` — of what is handed over to the scheduler after the cancel, it takes out what is
  for the cancelled key, and leaves everything else as it is.

Design notes: the cancel frees an id and a slot early, so later keys, ids and handles differ between
the two sessions, and a key of one can be a stale key of the other.  What a command means is known
from the number of the request, as long as no key has been issued twice; that this is so follows
from what the logs tell at the end.
-/
import EdgeWait.Proofs.Indifference
import EdgeWait.Proofs.Sparing

namespace EdgeWait

open Bench Sim

/-! ### Commands -/

/-- What a host asks of a context and its simulator. -/
inductive Command where
  | addWait (w : Wait SignalId)
  | prompt (p : Prompt)
  | flushAt (point : FlushPoint)
  /-- Reports a value to the key that has been issued for an earlier `waitNow` or `watch`, by the
  number of that request. -/
  | report (request : Nat) (value : Logic)
  | addSignal (name : String) (initial : Logic)
  | scheduleClock (signal : SignalId) (half : SimTime) (cycles : UInt32)

/-- What it is answered when a signal is added. -/
def Sim.added (s : Sim) (name : String) (initial : Logic) : Reply :=
  match s.addSignal name initial with
  | .ok _ => .done
  | .error e => .failed e

/-- What has come of commands so far. -/
structure Story (T : Type) extends Course T where
  /-- What has been handed over to the scheduler, but for a command that has stopped on a fault. -/
  given : List HandOver

/-- Goes on with the session, unless there has been a fault. -/
def Story.onward {T : Type} (story : Story T) (next : Session T → Story T) : Story T :=
  match story.fault with
  | some _ => story
  | none =>
    let rest := next story.session
    ⟨⟨story.replies ++ rest.replies, rest.session, rest.fault⟩, story.given ++ rest.given⟩

theorem Story.onward_onward {T : Type} (story : Story T) (next next' : Session T → Story T) :
    (story.onward next).onward next' = story.onward fun s => (next s).onward next' := by
  obtain ⟨⟨replies, s, fault⟩, given⟩ := story
  cases fault with
  | some f => rfl
  | none =>
    simp only [Story.onward]
    generalize next s = story
    obtain ⟨⟨more, t, fault⟩, later⟩ := story
    cases fault with
    | some f => rfl
    | none => simp only [List.append_assoc]

namespace Session

variable {T : Type} [Scheduler T]

/-- What comes of one command.  A report to a request that has been issued no key is none. -/
def obey (orders : Nat → VisitOrder SignalId) (s : Session T) : Command → Course T
  | .addWait w =>
    s.settle (fun _ => .done)
      (.ofExcept ((s.bench.addWait w.signal w.edge w.task).map fun b => ((), b)))
  | .prompt p => s.prompt p
  | .flushAt point => s.flushAt orders (some point)
  | .report request value =>
    match s.answers[request]?.join with
    | none => ⟨[.done], s, none⟩
    | some key => s.settle (fun _ => .done) ((s.bench.deliver key value).mapError .mux)
  | .addSignal name initial =>
    ⟨[s.bench.native.added name initial],
      ⟨s.bench.onSim fun sim => ((sim.addSignal name initial).toOption.map (·.2)).getD sim,
        s.answers⟩, none⟩
  | .scheduleClock signal half cycles =>
    s.settle (fun _ => .done)
      ((s.bench.native.scheduleClock signal half cycles).mapState fun sim =>
        s.bench.onSim fun _ => sim)

/-- What one command hands over to the scheduler. -/
def handOvers (orders : Nat → VisitOrder SignalId) (s : Session T) : Command → List HandOver
  | .flushAt .step => handOversIn (s.bench.stages (.step (orders 0)))
  | .flushAt .run => handOversIn (s.bench.stages (.run orders))
  | .flushAt (.runUntil limit) => handOversIn (s.bench.stages (.runUntil orders limit))
  | .report request value =>
    match s.answers[request]?.join with
    | none => []
    | some key => (s.bench.woken key value).toList.map fun r => ⟨key, r.tasks⟩
  | _ => []

/-- What comes of commands, in turn.  Each of them has orders of its own for its flushes. -/
def obeyAll (κ : Nat → Nat → VisitOrder SignalId) : List Command → Session T → Story T
  | [], s => ⟨⟨[], s, none⟩, []⟩
  | cmd :: rest, s =>
    let course := s.obey (κ 0) cmd
    match course.fault with
    | some _ => ⟨course, []⟩
    | none => Story.onward ⟨course, s.handOvers (κ 0) cmd⟩ (obeyAll (fun i => κ (i + 1)) rest)

/-- The keys that requests have been answered. -/
def answersTo (s : Session T) (requests : List Nat) : List RegistrationKey :=
  requests.filterMap fun request => s.answers[request]?.join

variable {cancelled : List Nat} {s s₁ s₂ t t₁ t₂ u₁ u₂ : Session T} {given given' : List HandOver}

/-- Commands that are followed by others. -/
theorem obeyAll_append (first rest : List Command) :
    ∀ (κ : Nat → Nat → VisitOrder SignalId) (s : Session T), obeyAll κ (first ++ rest) s =
      (obeyAll κ first s).onward (obeyAll (fun i => κ (i + first.length)) rest) := by
  induction first with
  | nil => exact fun κ s => rfl
  | cons cmd first ih =>
    intro κ s
    rw [List.cons_append, obeyAll, obeyAll]
    obtain ⟨replies, t, fault⟩ := s.obey (κ 0) cmd
    cases fault with
    | some f => rfl
    | none =>
      show Story.onward _ (obeyAll _ (first ++ rest)) = _
      rw [Story.onward_onward, funext (ih fun i => κ (i + 1))]
      rfl

/-! ### One session -/

omit [Scheduler T] in
theorem settle_of_final {α : Type} (reply : α → Reply) (s : Session T)
    {o : Outcome SimError (SimBench (SchedulerRecord T)) α} {b : SimBench (SchedulerRecord T)}
    (h : o.final = .ok b) : ∃ replies, s.settle reply o = ⟨replies, ⟨b, s.answers⟩, none⟩ := by
  cases o with
  | done a b' =>
    obtain rfl := Except.ok.inj h
    exact ⟨_, rfl⟩
  | failed e b' =>
    obtain rfl := Except.ok.inj h
    exact ⟨_, rfl⟩
  | fault f => cases h

omit [Scheduler T] in
/-- To schedule a clock is a change of the simulator, unless it is a fault. -/
theorem final_scheduleClock (b : SimBench (SchedulerRecord T)) (signal : SignalId)
    (half : SimTime) (cycles : UInt32) :
    ((b.native.scheduleClock signal half cycles).mapState fun sim => b.onSim fun _ => sim).final =
      (b.native.scheduleClock signal half cycles).final.map fun _ =>
        b.onSim fun sim => (sim.scheduleClock signal half cycles).final.toOption.getD sim := by
  cases hclock : b.native.scheduleClock signal half cycles with
  | done a sim =>
    simp only [onSim, hclock]
    rfl
  | failed e sim =>
    simp only [onSim, hclock]
    rfl
  | fault f => rfl

/-- **A command** leads to a session in order. -/
theorem obey_grown {issued : List RegistrationKey} (h : s.Grown issued)
    (orders : Nat → VisitOrder SignalId) (cmd : Command) :
    (s.obey orders cmd).session.Grown issued := by
  -- a change of the simulator alone issues no key
  have honSim : ∀ {f : Sim → Sim}, Plain f → Grown issued ⟨s.bench.onSim f, s.answers⟩ :=
    fun hf => ⟨sound_of_joint (h.sound.joint.onSim hf).joint, h.issued⟩
  cases cmd with
  | addWait w =>
    obtain ⟨-, heq⟩ | heq := s.bench.addWait_spec w.signal w.edge w.task
    · rw [obey, heq]
      exact h
    · obtain ⟨c, L, htracked⟩ := h.sound
      rw [obey, heq]
      exact ⟨⟨c, L, htracked.congr rfl rfl rfl⟩, h.issued⟩
  | prompt p => exact (prompt_grown h p).session
  | flushAt point => exact (flushAt_grown h orders (some point)).session
  | report request value =>
    rw [obey]
    cases s.answers[request]?.join with
    | none => exact h
    | some key =>
      refine (settle_upholds (F := Fault.Any) h (Outcome.Upholds.mapError
        (Outcome.upholds_of_final (fun b hb => ?_) fun _ _ => trivial) _)).session
      obtain ⟨c, L, htracked⟩ := h.sound
      rw [← final_andThen_done _ Answer.delivered] at hb
      obtain ⟨new, hperformed⟩ := perform_deliver_roster
        (tracking_since (tracking_hosts c) _ _) htracked.since hb
      exact ⟨⟨c, _, hperformed.tracked.of_since⟩, h.issued.trans hperformed.tracked.extra.2.1⟩
  | addSignal name initial => exact honSim (plain_addSignal name initial)
  | scheduleClock signal half cycles =>
    refine (settle_upholds (F := Fault.Any) h
      (Outcome.upholds_of_final (fun b hb => ?_) fun _ _ => trivial)).session
    rw [final_scheduleClock] at hb
    cases hfinal : (s.bench.native.scheduleClock signal half cycles).final with
    | error f =>
      rw [hfinal] at hb
      cases hb
    | ok sim =>
      rw [hfinal] at hb
      obtain rfl := Except.ok.inj hb
      exact honSim (plain_scheduleClock signal half cycles)

/-- **Commands** lead to a session in order. -/
theorem obeyAll_grown {issued : List RegistrationKey} (cmds : List Command) :
    ∀ (κ : Nat → Nat → VisitOrder SignalId) (s : Session T), s.Grown issued →
      (obeyAll κ cmds s).session.Grown issued := by
  induction cmds with
  | nil => exact fun κ s h => h
  | cons cmd rest ih =>
    intro κ s h
    have hfirst := obey_grown h (κ 0) cmd
    rw [obeyAll]
    generalize s.obey (κ 0) cmd = course at hfirst ⊢
    obtain ⟨replies, t, fault⟩ := course
    cases fault with
    | some f => exact hfirst
    | none => exact ih (fun i => κ (i + 1)) t hfirst

/-! ### Two sessions -/

/-- In the second session some requests have been cancelled that have not been in the first one. -/
structure Apart (cancelled : List Nat) (s₁ s₂ : Session T) : Prop where
  lacks : ∃ label₁ label₂ c L₁ L₂, Lacks cancelled c label₁ label₂ s₁.bench L₁ s₂.bench L₂ ∧
    Answered label₁ s₁ ∧ Answered label₂ s₂
  answers : s₁.answers.map (·.isSome) = s₂.answers.map (·.isSome)
  answered : ∀ request ∈ cancelled, request < s₁.answers.length

/-- From `s₁` and `s₂` two sessions have come to `t₁` and `t₂`.  The first one has made the
hand-overs `given`, and the second one those that are not for a cancelled key. -/
structure Advance (cancelled : List Nat) (s₁ s₂ : Session T) (given : List HandOver)
    (t₁ t₂ : Session T) : Prop where
  apart : Apart cancelled t₁ t₂
  issued : s₁.bench.log.issued <+: t₁.bench.log.issued
  answers : s₁.answers <+: t₁.answers
  first : t₁.bench.resumed = s₁.bench.resumed ++ given.map (·.tasks)
  second : t₁.bench.log.issued.Nodup → t₂.bench.resumed = s₂.bench.resumed ++
    (given.filter fun h => decide (h.key ∉ s₁.answersTo cancelled)).map (·.tasks)

/-- What comes of a command in two sessions: the pool of the first one is exhausted, or both stop on
a fault, or both go on. -/
inductive Along (cancelled : List Nat) (s₁ s₂ : Session T) (given : List HandOver) :
    Course T → Course T → Prop where
  | exhausted (replies : List Reply) (t : Session T) (o : Course T) (e : SimError)
      (mem : .failed e ∈ replies) (full : e.IsExhausted) :
      Along cancelled s₁ s₂ given ⟨replies, t, none⟩ o
  | stopped (f : Fault) : Along cancelled s₁ s₂ given ⟨[], s₁, some f⟩ ⟨[], s₂, some f⟩
  | advanced (replies₁ replies₂ : List Reply) (t₁ t₂ : Session T)
      (advance : Advance cancelled s₁ s₂ given t₁ t₂) :
      Along cancelled s₁ s₂ given ⟨replies₁, t₁, none⟩ ⟨replies₂, t₂, none⟩

theorem Apart.sound₁ (h : Apart cancelled s₁ s₂) : s₁.Sound := by
  obtain ⟨label₁, label₂, c, L₁, L₂, hlacks, -⟩ := h.lacks
  exact ⟨c, L₁, hlacks.left.tracked⟩

theorem Apart.sound₂ (h : Apart cancelled s₁ s₂) : s₂.Sound := by
  obtain ⟨label₁, label₂, c, L₁, L₂, hlacks, -⟩ := h.lacks
  exact ⟨c, L₂, hlacks.right.tracked⟩

omit [Scheduler T] in
/-- The answers to earlier requests stay. -/
theorem answersTo_of_prefix (h : s.answers <+: t.answers)
    (hanswered : ∀ request ∈ cancelled, request < s.answers.length) :
    t.answersTo cancelled = s.answersTo cancelled := by
  obtain ⟨later, hlater⟩ := h
  refine List.filterMap_congr fun request hrequest => ?_
  rw [← hlater, List.getElem?_append_left (hanswered request hrequest)]

theorem Advance.refl (h : Apart cancelled s₁ s₂) : Advance cancelled s₁ s₂ [] s₁ s₂ :=
  ⟨h, List.prefix_rfl, List.prefix_rfl, (List.append_nil _).symm, fun _ => (List.append_nil _).symm⟩

/-- Where nothing is cancelled, nothing is left out. -/
theorem Advance.second_of_nil (h : Advance [] s₁ s₂ given t₁ t₂)
    (hnodup : t₁.bench.log.issued.Nodup) :
    t₂.bench.resumed = s₂.bench.resumed ++ given.map (·.tasks) := by
  have hall : (given.filter fun h => decide (h.key ∉ s₁.answersTo [])) = given :=
    List.filter_eq_self.mpr fun h _ => decide_eq_true List.not_mem_nil
  rw [h.second hnodup, hall]

theorem Advance.trans (hanswered : ∀ request ∈ cancelled, request < s₁.answers.length)
    (h : Advance cancelled s₁ s₂ given t₁ t₂) (h' : Advance cancelled t₁ t₂ given' u₁ u₂) :
    Advance cancelled s₁ s₂ (given ++ given') u₁ u₂ := by
  refine ⟨h'.apart, h.issued.trans h'.issued, h.answers.trans h'.answers, ?_, fun hnodup => ?_⟩
  · rw [h'.first, h.first, List.append_assoc, List.map_append]
  · rw [h'.second hnodup, h.second (hnodup.sublist h'.issued.sublist),
      answersTo_of_prefix h.answers hanswered, List.append_assoc, List.filter_append,
      List.map_append]

omit [Scheduler T] in
/-- A registration is spared if its key is none of the cancelled ones. -/
theorem spares_eq {label : Nat → Option Nat} {F : List SimHolding} (hanswered : Answered label t)
    (hissued : ∀ e ∈ F, t.bench.log.issued[e.number]? = some e.key)
    (hnodup : t.bench.log.issued.Nodup) {e : SimHolding} (he : e ∈ F) :
    spares cancelled (label e.number) = decide (e.key ∉ t.answersTo cancelled) := by
  rw [Bool.eq_iff_iff, spares_iff, decide_eq_true_iff]
  constructor
  · intro hspared hmem
    obtain ⟨request, hrequest, hkey⟩ := List.mem_filterMap.mp hmem
    exact hspared request hrequest ((hanswered.label_eq_iff hissued hnodup hkey he).mpr rfl)
  · intro hkey request hrequest hlabel
    have hanswer := (hanswered request e.key).mpr ⟨e.number, hlabel, hissued e he⟩
    exact hkey (List.mem_filterMap.mpr ⟨request, hrequest, hanswer⟩)

/-- What two contexts do in parallel advances their sessions. -/
theorem Apart.advance (h : Apart cancelled s₁ s₂) {label₁ label₂ : Nat → Option Nat}
    (hparallel : Parallel cancelled label₁ label₂ s₁.bench s₂.bench given t₁.bench t₂.bench)
    (hanswered₁ : Answered label₁ t₁) (hanswered₂ : Answered label₂ t₂)
    (hsome : t₁.answers.map (·.isSome) = t₂.answers.map (·.isSome))
    (hlonger : s₁.answers <+: t₁.answers) : Advance cancelled s₁ s₂ given t₁ t₂ := by
  obtain ⟨c, L₁, L₂, hlacks⟩ := hparallel.lacks
  obtain ⟨F, rfl, hissued, hfirst, hsecond⟩ := hparallel.calls
  refine ⟨⟨⟨label₁, label₂, c, L₁, L₂, hlacks, hanswered₁, hanswered₂⟩, hsome,
    fun request hrequest => ?_⟩, hparallel.issued₁, hlonger, ?_, fun hnodup => ?_⟩
  · exact Nat.lt_of_lt_of_le (h.answered request hrequest) hlonger.length_le
  · rw [hfirst, List.map_map]
    rfl
  · rw [hsecond, List.filter_map, List.map_map, spared,
      List.filter_congr fun e he => spares_eq hanswered₁ hissued hnodup he,
      answersTo_of_prefix hlonger h.answered]
    rfl

/-- The requests have been answered alike, and what has been answered stays. -/
theorem Apart.stay (h : Apart cancelled s₁ s₂) {label₁ label₂ : Nat → Option Nat} {c : Sim}
    {L₁ L₂ : List SimHolding} (hlacks : Lacks cancelled c label₁ label₂ s₁.bench L₁ s₂.bench L₂)
    (hanswered₁ : Answered label₁ s₁) (hanswered₂ : Answered label₂ s₂)
    {b₁ b₂ : SimBench (SchedulerRecord T)}
    (hparallel : Parallel cancelled label₁ label₂ s₁.bench s₂.bench given b₁ b₂) :
    Advance cancelled s₁ s₂ given ⟨b₁, s₁.answers⟩ ⟨b₂, s₂.answers⟩ :=
  h.advance hparallel (hanswered₁.of_prefix hlacks.left.unlabelled hparallel.issued₁)
    (hanswered₂.of_prefix hlacks.right.unlabelled hparallel.issued₂) h.answers List.prefix_rfl

/-- Operations that go along are seen to. -/
theorem Apart.settle (h : Apart cancelled s₁ s₂) {label₁ label₂ : Nat → Option Nat} {c : Sim}
    {L₁ L₂ : List SimHolding} (hlacks : Lacks cancelled c label₁ label₂ s₁.bench L₁ s₂.bench L₂)
    (hanswered₁ : Answered label₁ s₁) (hanswered₂ : Answered label₂ s₂) {α : Type}
    {R : α → α → Prop} {o₁ o₂ : Outcome SimError (SimBench (SchedulerRecord T)) α}
    (hgo : GoAlong SimError.IsExhausted R
      (Parallel cancelled label₁ label₂ s₁.bench s₂.bench given) o₁ o₂) (reply : α → Reply) :
    Along cancelled s₁ s₂ given (s₁.settle reply o₁) (s₂.settle reply o₂) := by
  obtain ⟨f, rfl, rfl⟩ | ⟨e, b, rfl, hfull⟩ | ⟨a₁, a₂, b₁, b₂, rfl, rfl, -, hparallel⟩ := hgo
  · exact .stopped f
  · exact .exhausted _ _ _ e (List.mem_singleton.mpr rfl) hfull
  · exact .advanced _ _ _ _ (h.stay hlacks hanswered₁ hanswered₂ hparallel)

/-- Requests for a key go along. -/
theorem settleKey_along (h : Apart cancelled s₁ s₂) (signal : SignalId) (edge : Edge)
    (task : TaskId) (mode : Mode) :
    Along cancelled s₁ s₂ [] (s₁.settleKey (s₁.bench.registerSingle signal edge task mode))
      (s₂.settleKey (s₂.bench.registerSingle signal edge task mode)) := by
  obtain ⟨label₁, label₂, c, L₁, L₂, hlacks, hanswered₁, hanswered₂⟩ := h.lacks
  have hnew : s₁.answers.length ∉ cancelled := fun hmem =>
    absurd (h.answered _ hmem) (Nat.lt_irrefl _)
  have hlength : s₁.answers.length = s₂.answers.length := by
    simpa using congrArg List.length h.answers
  have hresult := registerSingle_along hlacks signal edge task mode hnew
  generalize s₁.bench.registerSingle signal edge task mode = o₁ at hresult ⊢
  generalize s₂.bench.registerSingle signal edge task mode = o₂ at hresult ⊢
  cases hresult with
  | exhausted e b₁ _ hfull =>
    exact .exhausted _ _ _ (.mux e) (List.mem_singleton.mpr rfl) hfull
  | done e₁ e₂ b₁ b₂ hlater₁ hissued₁ hlater₂ hissued₂ hparallel =>
    -- the label of both registrations is the number of the request, which is the same
    refine .advanced _ _ (s₁.next b₁ (some e₁.key)) (s₂.next b₂ (some e₂.key))
      (h.advance hparallel ?_ ?_ ?_ (List.prefix_append _ _))
    · exact answered_next_some hlacks.left.unlabelled hparallel.issued₁ hanswered₁ hlater₁ hissued₁
    · rw [hlength]
      exact answered_next_some hlacks.right.unlabelled hparallel.issued₂ hanswered₂ hlater₂ hissued₂
    · rw [next, next, List.map_append, List.map_append, h.answers]
      rfl

/-- **A wait** is recorded in both sessions, or it is recorded already in both. -/
theorem addWait_along (h : Apart cancelled s₁ s₂) (orders₁ orders₂ : Nat → VisitOrder SignalId)
    (w : Wait SignalId) :
    Along cancelled s₁ s₂ [] (s₁.obey orders₁ (.addWait w)) (s₂.obey orders₂ (.addWait w)) := by
  obtain ⟨label₁, label₂, c, L₁, L₂, hlacks, hanswered₁, hanswered₂⟩ := h.lacks
  have hwaiting := hlacks.waiting w.signal w.edge
  by_cases htwice : w.task ∈ s₂.bench.mux.pending.waiting w.signal w.edge
  · simp only [obey, Bench.addWait, Mux.addWait, PendingWaits.add, hwaiting, if_pos htwice]
    exact .stopped _
  · simp only [obey, Bench.addWait, Mux.addWait, PendingWaits.add, hwaiting, if_neg htwice]
    refine .advanced _ _ ⟨s₁.bench.afterWait w, _⟩ ⟨s₂.bench.afterWait w, _⟩
      (h.stay hlacks hanswered₁ hanswered₂ ?_)
    refine (hlacks.congr (sameCore_afterWait _ w) (sameCore_afterWait _ w) ?_).parallel
      List.prefix_rfl List.prefix_rfl rfl rfl
    intro signal edge
    show (PendingWaits.push _ _ _ _).waiting signal edge =
      (PendingWaits.push _ _ _ _).waiting signal edge
    rw [PendingWaits.waiting_push, PendingWaits.waiting_push, hlacks.waiting]

/-- A request has been issued a key in both sessions or in neither.  If no key has been issued
twice, the keys are those of the registrations labelled with the request. -/
theorem Apart.key_cases (h : Apart cancelled s₁ s₂) (hnodup₁ : s₁.bench.log.issued.Nodup)
    (hnodup₂ : s₂.bench.log.issued.Nodup) (request : Nat) :
    (s₁.answers[request]?.join = none ∧ s₂.answers[request]?.join = none) ∨
      ∃ key₁ key₂ label₁ label₂ c L₁ L₂, s₁.answers[request]?.join = some key₁ ∧
        s₂.answers[request]?.join = some key₂ ∧
        Lacks cancelled c label₁ label₂ s₁.bench L₁ s₂.bench L₂ ∧
        Answered label₁ s₁ ∧ Answered label₂ s₂ ∧
        (∀ e ∈ L₁, label₁ e.number = some request ↔ e.key = key₁) ∧
        ∀ e ∈ L₂, label₂ e.number = some request ↔ e.key = key₂ := by
  have hsome := isSome_join_eq h.answers request
  cases hkey₁ : s₁.answers[request]?.join with
  | none =>
    rw [hkey₁, Option.isSome_none, eq_comm, Option.isSome_eq_false_iff,
      Option.isNone_iff_eq_none] at hsome
    exact .inl ⟨rfl, hsome⟩
  | some key₁ =>
    rw [hkey₁, Option.isSome_some, eq_comm, Option.isSome_iff_exists] at hsome
    obtain ⟨key₂, hkey₂⟩ := hsome
    obtain ⟨label₁, label₂, c, L₁, L₂, hlacks, hanswered₁, hanswered₂⟩ := h.lacks
    have hissued₁ := hlacks.left.tracked.extra.1.numbered.issued_at
    have hissued₂ := hlacks.right.tracked.extra.1.numbered.issued_at
    exact .inr ⟨key₁, key₂, label₁, label₂, c, L₁, L₂, rfl, hkey₂, hlacks, hanswered₁, hanswered₂,
      fun e he => hanswered₁.label_eq_iff hissued₁ hnodup₁ hkey₁ he,
      fun e he => hanswered₂.label_eq_iff hissued₂ hnodup₂ hkey₂ he⟩

/-- **A request** goes along. -/
theorem prompt_along (h : Apart cancelled s₁ s₂) (hnodup₁ : s₁.bench.log.issued.Nodup)
    (hnodup₂ : s₂.bench.log.issued.Nodup) (p : Prompt) :
    Along cancelled s₁ s₂ [] (s₁.prompt p) (s₂.prompt p) := by
  cases p with
  | waitNow signal edge task => exact settleKey_along h signal edge task .oneShot
  | watch signal edge task => exact settleKey_along h signal edge task .persistent
  | cancel request =>
    rw [prompt, prompt]
    obtain ⟨hkey₁, hkey₂⟩ | ⟨key₁, key₂, label₁, label₂, c, L₁, L₂, hkey₁, hkey₂, hlacks,
      hanswered₁, hanswered₂, hlabel₁, hlabel₂⟩ := h.key_cases hnodup₁ hnodup₂ request
    · rw [hkey₁, hkey₂]
      exact .advanced _ _ s₁ s₂ (.refl h)
    · obtain ⟨found₁, found₂, b₁, b₂, heq₁, heq₂, hparallel⟩ := cancel_along hlacks hlabel₁ hlabel₂
      simp only [hkey₁, hkey₂, heq₁, heq₂]
      exact .advanced _ _ _ _ (h.stay hlacks hanswered₁ hanswered₂ hparallel)
  | schedule time signal value =>
    obtain ⟨label₁, label₂, c, L₁, L₂, hlacks, hanswered₁, hanswered₂⟩ := h.lacks
    exact .advanced _ _ _ _ (h.stay hlacks hanswered₁ hanswered₂
      (hlacks.parallel_onSim (plain_schedule time signal value)))
  | shutdown =>
    obtain ⟨label₁, label₂, c, L₁, L₂, hlacks, hanswered₁, hanswered₂⟩ := h.lacks
    obtain ⟨count₁, count₂, b₁, b₂, heq₁, heq₂, hparallel⟩ := shutdown_along hlacks
    rw [prompt, prompt, heq₁, heq₂]
    exact .advanced _ _ _ _ (h.stay hlacks hanswered₁ hanswered₂ hparallel)

/-- What flushes the waits goes along. -/
theorem flushAt_along (h : Apart cancelled s₁ s₂) (orders₁ orders₂ : Nat → VisitOrder SignalId)
    (point : FlushPoint) :
    Along cancelled s₁ s₂ (s₁.handOvers orders₁ (.flushAt point))
      (s₁.flushAt orders₁ (some point)) (s₂.flushAt orders₂ (some point)) := by
  obtain ⟨label₁, label₂, c, L₁, L₂, hlacks, hanswered₁, hanswered₂⟩ := h.lacks
  cases point with
  | flush =>
    exact h.settle hlacks hanswered₁ hanswered₂
      (flush_along hlacks (orders₁ 0) (orders₂ 0)).mapError _
  | step =>
    exact h.settle hlacks hanswered₁ hanswered₂ (step_along hlacks (orders₁ 0) (orders₂ 0)) _
  | run => exact h.settle hlacks hanswered₁ hanswered₂ (run_along hlacks orders₁ orders₂) _
  | runUntil limit =>
    exact h.settle hlacks hanswered₁ hanswered₂ (runUntil_along hlacks orders₁ orders₂ limit) _

/-- **A report** to the key of a request goes along, even if this is a stale key in one session. -/
theorem report_along (h : Apart cancelled s₁ s₂) (hnodup₁ : s₁.bench.log.issued.Nodup)
    (hnodup₂ : s₂.bench.log.issued.Nodup) (orders₁ orders₂ : Nat → VisitOrder SignalId)
    (request : Nat) (value : Logic) :
    Along cancelled s₁ s₂ (s₁.handOvers orders₁ (.report request value))
      (s₁.obey orders₁ (.report request value)) (s₂.obey orders₂ (.report request value)) := by
  rw [handOvers, obey, obey]
  obtain ⟨hkey₁, hkey₂⟩ | ⟨key₁, key₂, label₁, label₂, c, L₁, L₂, hkey₁, hkey₂, hlacks,
    hanswered₁, hanswered₂, hlabel₁, hlabel₂⟩ := h.key_cases hnodup₁ hnodup₂ request
  · rw [hkey₁, hkey₂]
    exact .advanced _ _ s₁ s₂ (.refl h)
  · obtain ⟨d₁, d₂, b₁, b₂, heq₁, heq₂, hparallel⟩ :=
      deliver_along hlacks hlabel₁ hlabel₂ value
    simp only [hkey₁, hkey₂, heq₁, heq₂]
    exact .advanced _ _ _ _ (h.stay hlacks hanswered₁ hanswered₂ hparallel)

/-- The edges of a clock are scheduled in both sessions, unless the time of one of them does not fit
its word. -/
theorem scheduleClock_along (h : Apart cancelled s₁ s₂)
    (orders₁ orders₂ : Nat → VisitOrder SignalId) (signal : SignalId) (half : SimTime)
    (cycles : UInt32) :
    Along cancelled s₁ s₂ [] (s₁.obey orders₁ (.scheduleClock signal half cycles))
      (s₂.obey orders₂ (.scheduleClock signal half cycles)) := by
  obtain ⟨label₁, label₂, c, L₁, L₂, hlacks, hanswered₁, hanswered₂⟩ := h.lacks
  obtain ⟨hworld, hsteps⟩ := hlacks.sameWorld
  obtain ⟨f, hfault₂, hfault₁⟩ | ⟨c₂, c₁, hfinal₂, hfinal₁, -⟩ := scheduleEdges_agrees signal half
    (2 * cycles.toNat) 1 s₂.bench.native s₁.bench.native hworld hsteps
  · rw [obey, obey, scheduleClock, scheduleClock, hfault₁, hfault₂]
    exact .stopped f
  · have hdone : ∀ (s : Session T) (c : Sim),
        (s.bench.native.scheduleClock signal half cycles).final = .ok c →
        ∃ replies, ∀ orders, s.obey orders (.scheduleClock signal half cycles) = ⟨replies,
          ⟨s.bench.onSim fun sim => (sim.scheduleClock signal half cycles).final.toOption.getD sim,
            s.answers⟩, none⟩ := by
      intro s c hfinal
      have hbench := final_scheduleClock s.bench signal half cycles
      rw [hfinal] at hbench
      obtain ⟨replies, heq⟩ := settle_of_final (fun _ => Reply.done) s hbench
      exact ⟨replies, fun _ => heq⟩
    obtain ⟨replies₁, heq₁⟩ := hdone s₁ c₁ hfinal₁
    obtain ⟨replies₂, heq₂⟩ := hdone s₂ c₂ hfinal₂
    rw [heq₁, heq₂]
    exact .advanced _ _ _ _ (h.stay hlacks hanswered₁ hanswered₂
      (hlacks.parallel_onSim (plain_scheduleClock signal half cycles)))

/-- **A command** leads on in both sessions, unless the pool of the first one is exhausted. -/
theorem obey_along (h : Apart cancelled s₁ s₂) (hnodup₁ : s₁.bench.log.issued.Nodup)
    (hnodup₂ : s₂.bench.log.issued.Nodup) (orders₁ orders₂ : Nat → VisitOrder SignalId)
    (cmd : Command) :
    Along cancelled s₁ s₂ (s₁.handOvers orders₁ cmd) (s₁.obey orders₁ cmd)
      (s₂.obey orders₂ cmd) := by
  cases cmd with
  | addWait w => exact addWait_along h orders₁ orders₂ w
  | prompt p => exact prompt_along h hnodup₁ hnodup₂ p
  | flushAt point => exact flushAt_along h orders₁ orders₂ point
  | report request value =>
    exact report_along h hnodup₁ hnodup₂ orders₁ orders₂ request value
  | addSignal name initial =>
    obtain ⟨label₁, label₂, c, L₁, L₂, hlacks, hanswered₁, hanswered₂⟩ := h.lacks
    exact .advanced _ _ _ _ (h.stay hlacks hanswered₁ hanswered₂
      (hlacks.parallel_onSim (plain_addSignal name initial)))
  | scheduleClock signal half cycles =>
    exact scheduleClock_along h orders₁ orders₂ signal half cycles

/-- **Commands** lead on in both sessions, up to the same fault if there is one, as long as the pool
of the first one is not exhausted. -/
theorem obeyAll_along (cmds : List Command) :
    ∀ (κ₁ κ₂ : Nat → Nat → VisitOrder SignalId) (s₁ s₂ : Session T), Apart cancelled s₁ s₂ →
      (∀ e, .failed e ∈ (obeyAll κ₁ cmds s₁).replies → ¬ e.IsExhausted) →
      (obeyAll κ₁ cmds s₁).session.bench.log.issued.Nodup →
      (obeyAll κ₂ cmds s₂).session.bench.log.issued.Nodup →
      (obeyAll κ₂ cmds s₂).fault = (obeyAll κ₁ cmds s₁).fault ∧
        Advance cancelled s₁ s₂ (obeyAll κ₁ cmds s₁).given (obeyAll κ₁ cmds s₁).session
          (obeyAll κ₂ cmds s₂).session := by
  induction cmds with
  | nil => exact fun κ₁ κ₂ s₁ s₂ h _ _ _ => ⟨rfl, .refl h⟩
  | cons cmd rest ih =>
    intro κ₁ κ₂ s₁ s₂ h hroom hnodup₁ hnodup₂
    -- what comes later only adds to the keys, so these are still distinct here
    have hlater₁ := (obeyAll_grown (cmd :: rest) κ₁ s₁ h.sound₁.grown).issued
    have hlater₂ := (obeyAll_grown (cmd :: rest) κ₂ s₂ h.sound₂.grown).issued
    have hfirst := obey_along h (hnodup₁.sublist hlater₁.sublist)
      (hnodup₂.sublist hlater₂.sublist) (κ₁ 0) (κ₂ 0) cmd
    simp only [obeyAll] at hroom hnodup₁ hnodup₂ ⊢
    generalize s₁.obey (κ₁ 0) cmd = o₁ at hfirst hroom hnodup₁ ⊢
    generalize s₂.obey (κ₂ 0) cmd = o₂ at hfirst hnodup₂ ⊢
    cases hfirst with
    | exhausted replies t _ e hmem hfull =>
      exact absurd hfull (hroom e (List.mem_append_left _ hmem))
    | stopped f => exact ⟨rfl, .refl h⟩
    | advanced replies₁ replies₂ t₁ t₂ hadvance =>
      obtain ⟨hfault, hmore⟩ := ih (fun i => κ₁ (i + 1)) (fun i => κ₂ (i + 1)) t₁ t₂
        hadvance.apart (fun e he => hroom e (List.mem_append_right _ he)) hnodup₁ hnodup₂
      exact ⟨hfault, .trans h.answered hadvance hmore⟩

/-! ### One cancel more -/

/-- A cancel in the second session only. -/
theorem prompt_cancel_second (h : Apart cancelled s₁ s₂) (hnodup₁ : s₁.bench.log.issued.Nodup)
    (hnodup₂ : s₂.bench.log.issued.Nodup) {request : Nat} {key : RegistrationKey}
    (hkey : s₁.answers[request]? = some (some key)) :
    ∃ found t₂, s₂.prompt (.cancel request) = ⟨[.cancelled found], t₂, none⟩ ∧
      Apart (request :: cancelled) s₁ t₂ ∧ t₂.bench.resumed = s₂.bench.resumed := by
  obtain ⟨hnone, -⟩ | ⟨-, key₂, label₁, label₂, c, L₁, L₂, -, hkey₂, hlacks, hanswered₁, hanswered₂,
    -, hlabel₂⟩ := h.key_cases hnodup₁ hnodup₂ request
  · rw [hkey] at hnone
    cases hnone
  · obtain ⟨found, b₂, heq, hparallel⟩ := cancel_second hlacks hlabel₂
    obtain ⟨c', M₁, M₂, hlacks'⟩ := hparallel.lacks
    obtain ⟨F, hF, -, -, hresumed⟩ := hparallel.calls
    obtain rfl : F = [] := List.map_eq_nil_iff.mp hF.symm
    refine ⟨found, ⟨b₂, s₂.answers⟩, by simp only [prompt, hkey₂, heq]; rfl,
      ⟨⟨label₁, label₂, c', M₁, M₂, hlacks', hanswered₁, ?_⟩, h.answers, ?_⟩, ?_⟩
    · exact hanswered₂.of_prefix hlacks.right.unlabelled hparallel.issued₂
    · intro r hr
      rcases List.mem_cons.mp hr with rfl | hr
      · exact (List.getElem?_eq_some_iff.mp hkey).choose
      · exact h.answered r hr
    · exact hresumed.trans (List.append_nil _)

/-- **Commands after one cancel more**: the calls for the cancelled key are left out. -/
theorem obeyAll_cancel_along (h : Apart [] s₁ s₂) {request : Nat} {key : RegistrationKey}
    (hkey : s₁.answers[request]? = some (some key)) (rest : List Command)
    (κ₁ κ₂ : Nat → Nat → VisitOrder SignalId)
    (hroom : ∀ e, .failed e ∈ (obeyAll κ₁ rest s₁).replies → ¬ e.IsExhausted)
    (hnodup₁ : (obeyAll κ₁ rest s₁).session.bench.log.issued.Nodup)
    (hnodup₂ :
      (obeyAll κ₂ (.prompt (.cancel request) :: rest) s₂).session.bench.log.issued.Nodup) :
    (obeyAll κ₂ (.prompt (.cancel request) :: rest) s₂).fault = (obeyAll κ₁ rest s₁).fault ∧
      (obeyAll κ₁ rest s₁).session.bench.resumed =
        s₁.bench.resumed ++ (obeyAll κ₁ rest s₁).given.map (·.tasks) ∧
      (obeyAll κ₂ (.prompt (.cancel request) :: rest) s₂).session.bench.resumed =
        s₂.bench.resumed ++
          ((obeyAll κ₁ rest s₁).given.filter (·.key ≠ key)).map (·.tasks) := by
  obtain ⟨found, t₂, hcancel, hapart, hsame⟩ := prompt_cancel_second h
    (hnodup₁.sublist (obeyAll_grown rest κ₁ s₁ h.sound₁.grown).issued.sublist)
    (hnodup₂.sublist (obeyAll_grown _ κ₂ s₂ h.sound₂.grown).issued.sublist) hkey
  have hrest₂ : obeyAll κ₂ (.prompt (.cancel request) :: rest) s₂ =
      Story.onward ⟨⟨[.cancelled found], t₂, none⟩, []⟩ (obeyAll (fun i => κ₂ (i + 1)) rest) := by
    rw [obeyAll, obey, hcancel]
    rfl
  rw [hrest₂] at hnodup₂ ⊢
  obtain ⟨hfault, hrest⟩ :=
    obeyAll_along rest κ₁ (fun i => κ₂ (i + 1)) s₁ t₂ hapart hroom hnodup₁ hnodup₂
  have hgone : s₁.answersTo [request] = [key] := by
    rw [answersTo, List.filterMap_cons, hkey]
    rfl
  have hlast₂ := hrest.second hnodup₁
  rw [hsame, hgone] at hlast₂
  simp only [List.mem_singleton] at hlast₂
  exact ⟨hfault, hrest.first, hlast₂⟩

/-- A new session of a scheduler that never fails, which is played twice. -/
theorem apart_start {config : Config} {picks : List Nat} {mux : Mux SignalId CallbackHandle}
    {sim : Sim} (hmux : Mux.ofConfig config picks = .ok mux) (hsim : sim.Unsubscribed)
    {scheduler : T} (hscheduler : NeverFails scheduler) :
    Apart [] (start mux sim scheduler) (start mux sim scheduler) := by
  have hside := side_start hmux hsim scheduler
  have hwilling : Willing (start mux sim scheduler).bench := by
    refine ⟨?_, hscheduler.recorded []⟩
    obtain ⟨policy, -, rfl⟩ := Mux.ofConfig_eq hmux
    rfl
  have hanswered := answered_start mux sim scheduler
  exact ⟨⟨fun _ => none, fun _ => none, sim, [], [],
    ⟨hside, hside, ⟨rfl, rfl, fun _ => rfl⟩, rfl, fun _ _ => rfl, hwilling, hwilling⟩,
    hanswered, hanswered⟩, rfl, by simp⟩

theorem issued_prefix_onward {story : Story T} (h : story.session.Sound)
    (κ : Nat → Nat → VisitOrder SignalId) (cmds : List Command) :
    story.session.bench.log.issued <+:
      (story.onward (obeyAll κ cmds)).session.bench.log.issued := by
  obtain ⟨⟨replies, s, fault⟩, given⟩ := story
  cases fault with
  | some f => exact List.prefix_rfl
  | none => exact (obeyAll_grown cmds κ s h.grown).issued

omit [Scheduler T] in
theorem replies_prefix_onward (story : Story T) (next : Session T → Story T) :
    story.replies <+: (story.onward next).replies := by
  obtain ⟨⟨replies, s, fault⟩, given⟩ := story
  cases fault with
  | some f => exact List.prefix_rfl
  | none => exact List.prefix_append _ _

/-- **Cancels interfere with nothing else.**  Commands are given to a new session of a scheduler
that never fails, and they do not exhaust its pool.  Then they are given to such a session once
more, but at some place among them a request is cancelled, which has been issued the key `key` in
the first session.  If no slot is used too often, both stop on the same fault or on none, and the
scheduler is called for the same lists in the same order, except that after this place the calls
for `key` are left out. -/
theorem cancel_spares {config : Config} {picks : List Nat} {mux : Mux SignalId CallbackHandle}
    {sim : Sim} (hmux : Mux.ofConfig config picks = .ok mux) (hsim : sim.Unsubscribed)
    {scheduler : T} (hscheduler : NeverFails scheduler) (κ₁ κ₂ : Nat → Nat → VisitOrder SignalId)
    (first rest : List Command) (request : Nat) {opening story₁ story₂ : Story T}
    (hopening : obeyAll κ₁ first (start mux sim scheduler) = opening)
    (hstory₁ : obeyAll κ₁ (first ++ rest) (start mux sim scheduler) = story₁)
    (hstory₂ : obeyAll κ₂ (first ++ .prompt (.cancel request) :: rest) (start mux sim scheduler) =
      story₂) {key : RegistrationKey}
    (hkey : opening.session.answers[request]? = some (some key))
    (hroom : ∀ e, .failed e ∈ story₁.replies → ¬ e.IsExhausted)
    (hunwrapped₁ : story₁.session.Unwrapped) (hunwrapped₂ : story₂.session.Unwrapped) :
    story₂.fault = story₁.fault ∧ ∃ given, story₁.given = opening.given ++ given ∧
      story₁.session.bench.resumed = story₁.given.map (·.tasks) ∧
      story₂.session.bench.resumed =
        (opening.given ++ given.filter (·.key ≠ key)).map (·.tasks) := by
  have hstart := apart_start hmux hsim hscheduler
  have hnodup₁ : story₁.session.bench.log.issued.Nodup :=
    (hstory₁ ▸ obeyAll_grown (first ++ rest) κ₁ _ hstart.sound₁.grown).sound.nodup hunwrapped₁
  have hnodup₂ : story₂.session.bench.log.issued.Nodup :=
    (hstory₂ ▸ obeyAll_grown _ κ₂ _ hstart.sound₂.grown).sound.nodup hunwrapped₂
  rw [obeyAll_append, hopening] at hstory₁
  rw [obeyAll_append] at hstory₂
  subst hstory₁ hstory₂
  -- up to the cancel nothing is different
  have hsound₁ := (hopening ▸ obeyAll_grown first κ₁ _ hstart.sound₁.grown).sound
  have hsound₂ := (obeyAll_grown first κ₂ _ hstart.sound₂.grown).sound
  have hfirst := obeyAll_along first κ₁ κ₂ _ _ hstart
  rw [hopening] at hfirst
  generalize obeyAll κ₂ first (start mux sim scheduler) = opening₂ at hfirst hsound₂ hnodup₂ ⊢
  have hopen₁ := hnodup₁.sublist (issued_prefix_onward hsound₁ _ _).sublist
  have hopen₂ := hnodup₂.sublist (issued_prefix_onward hsound₂ _ _).sublist
  obtain ⟨hfault, hadvance⟩ := hfirst
    (fun e he => hroom e ((replies_prefix_onward _ _).subset he)) hopen₁ hopen₂
  have hresumed₁ : opening.session.bench.resumed = opening.given.map (·.tasks) := hadvance.first
  have hresumed₂ : opening₂.session.bench.resumed = opening.given.map (·.tasks) :=
    hadvance.second_of_nil hopen₁
  obtain ⟨⟨replies₁, s₁, fault₁⟩, given₁⟩ := opening
  obtain ⟨⟨replies₂, s₂, fault₂⟩, given₂⟩ := opening₂
  obtain rfl : fault₂ = fault₁ := hfault
  cases fault₂ with
  | some f =>
    refine ⟨rfl, [], (List.append_nil _).symm, hresumed₁, ?_⟩
    rw [List.filter_nil, List.append_nil]
    exact hresumed₂
  | none =>
    obtain ⟨hfault', hrest₁, hrest₂⟩ := obeyAll_cancel_along hadvance.apart hkey rest
      (fun i => κ₁ (i + first.length)) (fun i => κ₂ (i + first.length))
      (fun e he => hroom e (List.mem_append_right _ he)) hnodup₁ hnodup₂
    refine ⟨hfault', _, rfl, hrest₁.trans ?_, hrest₂.trans ?_⟩
    · rw [hresumed₁]
      exact List.map_append.symm
    · rw [hresumed₂]
      exact List.map_append.symm

/-- A task watches a signal, and is reported a value. -/
def watched : List Command := [.prompt (.watch ⟨0⟩ .rising ⟨1⟩), .report 0 .one]

/-- More tasks wait, there is one more report to the first one, and then both signals rise. -/
def othersWait : List Command :=
  [.prompt (.waitNow ⟨0⟩ .either ⟨2⟩), .report 0 .one, .addWait ⟨⟨1⟩, .rising, ⟨3⟩⟩,
    .prompt (.schedule ⟨5⟩ ⟨0⟩ .one), .prompt (.schedule ⟨5⟩ ⟨1⟩ .one), .flushAt .run]

/-- When the watch is cancelled, the second task gets its slot, and still the report to the stale
key does not reach it. -/
theorem cancel_spares_watched :
    ∃ (mux : Mux SignalId CallbackHandle) (story₁ story₂ : Story ScriptedScheduler),
      obeyAll asIs.orders (watched ++ othersWait)
        (start mux twoSignals (.failingAt [] ⟨"", ""⟩)) = story₁ ∧
      story₁.given = [⟨⟨0, 0⟩, [⟨1⟩]⟩, ⟨⟨0, 0⟩, [⟨1⟩]⟩, ⟨⟨0, 0⟩, [⟨1⟩]⟩, ⟨⟨1, 0⟩, [⟨2⟩]⟩,
        ⟨⟨2, 0⟩, [⟨3⟩]⟩] ∧
      obeyAll elsewise.orders (watched ++ .prompt (.cancel 0) :: othersWait)
        (start mux twoSignals (.failingAt [] ⟨"", ""⟩)) = story₂ ∧
      story₂.session.answers = [some ⟨0, 0⟩, some ⟨0, 1⟩] ∧
      story₂.session.bench.resumed = [[⟨1⟩], [⟨2⟩], [⟨3⟩]] := by
  obtain ⟨mux, opening, story₁, story₂, hmux, hopening, hstory₁, hstory₂, hkey, hbegun, hgiven,
      hreplies, hissued₁, hissued₂, hanswers⟩ :
      ∃ (mux : Mux SignalId CallbackHandle) (opening story₁ story₂ : Story ScriptedScheduler),
        Mux.ofConfig { pool := { capacity := 3 } } [] = .ok mux ∧
        obeyAll asIs.orders watched (start mux twoSignals (.failingAt [] ⟨"", ""⟩)) = opening ∧
        obeyAll asIs.orders (watched ++ othersWait)
          (start mux twoSignals (.failingAt [] ⟨"", ""⟩)) = story₁ ∧
        obeyAll elsewise.orders (watched ++ .prompt (.cancel 0) :: othersWait)
          (start mux twoSignals (.failingAt [] ⟨"", ""⟩)) = story₂ ∧
        opening.session.answers[0]? = some (some ⟨0, 0⟩) ∧
        opening.given = [⟨⟨0, 0⟩, [⟨1⟩]⟩] ∧
        story₁.given = [⟨⟨0, 0⟩, [⟨1⟩]⟩, ⟨⟨0, 0⟩, [⟨1⟩]⟩, ⟨⟨0, 0⟩, [⟨1⟩]⟩, ⟨⟨1, 0⟩, [⟨2⟩]⟩,
          ⟨⟨2, 0⟩, [⟨3⟩]⟩] ∧
        story₁.replies = [.done, .done, .done, .done, .done, .done, .done, .reached ⟨5⟩] ∧
        story₁.session.bench.log.issued.length = 3 ∧
        story₂.session.bench.log.issued.length = 3 ∧
        story₂.session.answers = [some ⟨0, 0⟩, some ⟨0, 1⟩] :=
    ⟨_, _, _, _, rfl, rfl, rfl, rfl, rfl, rfl, rfl, rfl, rfl, rfl, rfl⟩
  have hsim : twoSignals.Unsubscribed := ⟨rfl, rfl⟩
  have hscheduler : NeverFails (.failingAt [] ⟨"", ""⟩ : ScriptedScheduler) :=
    neverFails_of_answer fun _ => rfl
  have hroom : ∀ e, .failed e ∈ story₁.replies → ¬ e.IsExhausted := by
    intro e he
    simp [hreplies] at he
  obtain ⟨-, given, hsplit, -, hresumed⟩ := cancel_spares hmux hsim hscheduler asIs.orders
    elsewise.orders watched othersWait 0 hopening hstory₁ hstory₂ hkey hroom
    (unwrapped_of_length_le (by omega)) (unwrapped_of_length_le (by omega))
  refine ⟨mux, story₁, story₂, hstory₁, hgiven, hstory₂, hanswers, ?_⟩
  rw [hgiven, hbegun] at hsplit
  obtain rfl := (List.cons.inj hsplit).2
  rw [hresumed, hbegun]
  rfl

end Session

end EdgeWait
