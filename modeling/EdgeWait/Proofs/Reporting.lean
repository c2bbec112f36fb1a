/-
One change of value, reported by the simulator to its context.

* `deliver_reported` — a report to one holding: it hands its tasks over if the value is accepted,
  and then leaves the roster if it is one-shot;
* `reportTo_reported` — so do reports to several holdings, in turn;
* `applyChange_reported` — a change is reported to every holding on the signal, in the order of the
  roster.

Nothing goes wrong in any of them unless the scheduler fails (`Outcome.Ends`).

Design notes: a report can end holdings, but it cannot make any, so the list of callbacks that a
change starts from stays good until each of them has been called.
-/
import EdgeWait.Proofs.Operations
import EdgeWait.Proofs.Stages
import EdgeWait.Proofs.Subscribers

namespace EdgeWait

/-! ### Operations that go well -/

/-- The errors of a context that are due to others: the pool has been made too small, or the
scheduler has failed. -/
def MuxError.Interrupts : MuxError → Prop
  | dispatchFailed _ => True
  | poisoned => False
  | poolExhausted _ => True

/-- The same errors, when they come up in a step of the simulator. -/
def SimError.Interrupts : SimError → Prop
  | mux error => error.Interrupts
  | _ => False

/-- A wait has been recorded twice. -/
def Fault.IsDuplicate : Fault → Prop
  | duplicateWait _ _ _ => True
  | _ => False

/-- An event has come up whose signal does not exist. -/
def Fault.MissesSignal : Fault → Prop
  | indexOutOfBounds _ _ => True
  | _ => False

/-- The host has slipped: it has recorded a wait twice, or scheduled a change of no signal. -/
def Fault.IsSlip (f : Fault) : Prop := f.IsDuplicate ∨ f.MissesSignal

/-- No fault may come up. -/
def Fault.Never (_ : Fault) : Prop := False

namespace Outcome

variable {ε S α β : Type} {F : Fault → Prop} {E : ε → Prop}

/-- The outcome is an answer with a state that satisfy `Q`, or one of the errors `E`, or one of the
faults `F`. -/
def Ends (F : Fault → Prop) (E : ε → Prop) (Q : α → S → Prop) : Outcome ε S α → Prop
  | done a s => Q a s
  | failed e _ => E e
  | fault f => F f

theorem Ends.imp {Q Q' : α → S → Prop} {o : Outcome ε S α} (h : o.Ends F E Q)
    (himp : ∀ a s, Q a s → Q' a s) : o.Ends F E Q' := by
  cases o with
  | done a s => exact himp a s h
  | failed e s => exact h
  | fault f => exact h

theorem Ends.faults {F' : Fault → Prop} {Q : α → S → Prop} {o : Outcome ε S α} (h : o.Ends F E Q)
    (hF : ∀ f, o = .fault f → F f → F' f) : o.Ends F' E Q := by
  cases o with
  | done a s => exact h
  | failed e s => exact h
  | fault f => exact hF f rfl h

theorem Ends.andThen {Q : α → S → Prop} {Q' : β → S → Prop} {o : Outcome ε S α}
    {next : α → S → Outcome ε S β} (h : o.Ends F E Q)
    (hnext : ∀ a s, Q a s → (next a s).Ends F E Q') : (o.andThen next).Ends F E Q' := by
  cases o with
  | done a s => exact hnext a s h
  | failed e s => exact h
  | fault f => exact h

theorem Ends.mapError {Q : α → S → Prop} {o : Outcome MuxError S α}
    (h : o.Ends F MuxError.Interrupts Q) :
    (o.mapError SimError.mux).Ends F SimError.Interrupts Q := by
  cases o with
  | done a s => exact h
  | failed e s => exact h
  | fault f => exact h

theorem Ends.ofNever {Q : α → S → Prop} {o : Outcome ε S α} (h : o.Ends Fault.Never E Q) :
    o.Ends F E Q := by
  cases o with
  | done a s => exact h
  | failed e s => exact h
  | fault f => exact absurd h id

/-- Where there can be no fault, there is an error or an answer. -/
theorem Ends.failed_or_done {Q : α → S → Prop} {o : Outcome ε S α} (h : o.Ends Fault.Never E Q) :
    (∃ e s, o = .failed e s ∧ E e) ∨ ∃ a s, o = .done a s ∧ Q a s := by
  cases o with
  | done a s => exact .inr ⟨a, s, rfl, h⟩
  | failed e s => exact .inl ⟨e, s, rfl, h⟩
  | fault f => exact absurd h id

end Outcome

/-! ### A simulator that serves a context -/

namespace Sim

/-- Two simulators agree in their time, their events and their signals. -/
structure SameWorld (c s : Sim) : Prop where
  now : s.now = c.now
  queue : s.queue = c.queue
  nextSeq : s.nextSeq = c.nextSeq
  signals : s.signals = c.signals

/-- A simulator serves the roster of a context, and agrees with another simulator otherwise. -/
structure Carries (c : Sim) (L : List SimHolding) (arena : Arena SignalId) (s : Sim)
    (issued : List RegistrationKey) : Prop where
  serves : Serves L arena s issued
  numbered : Numbered L arena s issued
  counted : Counted L arena s issued
  world : SameWorld c s

theorem tracking_carries (c : Sim) : Tracking (Carries c) where
  opened := by
    intro L arena s issued key handle s' arena' r h harena hroom hfresh hinsert hsubscribe
    refine ⟨tracking_serves.opened h.serves harena hroom hfresh hinsert hsubscribe,
      tracking_numbered.opened h.numbered harena hroom hfresh hinsert hsubscribe,
      tracking_counted.opened h.counted harena hroom hfresh hinsert hsubscribe, ?_⟩
    obtain ⟨-, rfl⟩ := Prod.mk.inj hsubscribe
    exact ⟨h.world.now, h.world.queue, h.world.nextSeq, h.world.signals⟩
  closed := by
    intro L arena s issued s' e h hkeys he hget hunsubscribe
    refine ⟨tracking_serves.closed h.serves hkeys he hget hunsubscribe,
      tracking_numbered.closed h.numbered hkeys he hget hunsubscribe,
      tracking_counted.closed h.counted hkeys he hget hunsubscribe, ?_⟩
    obtain rfl := Except.ok.inj ((h.serves.unsubscribe_eq he).symm.trans hunsubscribe)
    exact ⟨h.world.now, h.world.queue, h.world.nextSeq, h.world.signals⟩

theorem carries_start {s : Sim} (h : s.Unsubscribed) : Carries s [] .empty s [] :=
  ⟨serves_start h, ⟨List.Pairwise.nil, by simp⟩, counted_start s, ⟨rfl, rfl, rfl, rfl⟩⟩

theorem not_refuses_of_carries {c : Sim} {base : List RegistrationKey} {L₀ : List SimHolding}
    {capacity : Nat} {f : Fault} :
    ¬ Bench.Refuses (Since base L₀ (Carries c)) capacity f := by
  rintro ⟨L, arena, s, issued, e, he, ⟨h, hsize⟩, hrefuses⟩
  exact not_refuses_of_serves ⟨L, arena, s, issued, e, he, ⟨h.1.serves, hsize⟩, hrefuses⟩

end Sim

open Sim

/-! ### Reports -/

namespace Bench

variable {T : Type}

/-- Changes of the simulator that leave the callbacks alone do not matter to the roster. -/
theorem Tracked.onSim {c c' : Sim} {b : SimBench T} {L : List SimHolding}
    (h : b.Tracked (Carries c) L) {f : Sim → Sim}
    (hcallbacks : (f b.native).callbacks = b.native.callbacks)
    (hnext : (f b.native).nextOrder = b.native.nextOrder) (hworld : SameWorld c' (f b.native)) :
    (b.onSim f).Tracked (Carries c') L := by
  have hnumbered := h.extra.numbered
  exact ⟨h.roster, h.extra.serves.congr hcallbacks hnext, ⟨hnumbered.sorted, hnumbered.issued_at⟩,
    h.extra.counted, hworld⟩

/-- A change to `v` ends the holding. -/
def isSpent (v : Logic) (e : SimHolding) : Bool :=
  e.registration.accepts v && decide (e.registration.mode = .oneShot)

/-- A report takes its own holding out of the roster, if that is spent. -/
theorem filter_isSpent {L : List SimHolding} {s : Subscriptions SignalId CallbackHandle}
    (h : s.Roster L) {e : SimHolding} (he : e ∈ L) (v : Logic) :
    (L.filter fun f => !(decide (f.key = e.key) && isSpent v f)) =
      if isSpent v e then L.filter (·.key ≠ e.key) else L := by
  cases hspent : isSpent v e with
  | true =>
    rw [if_pos rfl]
    refine List.filter_congr fun f hf => ?_
    by_cases hkey : f.key = e.key
    · obtain rfl := h.eq_of_key hf he hkey
      simp [hspent]
    · simp [hkey]
  | false =>
    rw [if_neg Bool.false_ne_true]
    refine List.filter_eq_self.mpr fun f hf => ?_
    by_cases hkey : f.key = e.key
    · obtain rfl := h.eq_of_key hf he hkey
      simp [hspent]
    · simp [hkey]

/-- Reports have led from `b` to `b'`, where the roster is `L'`, and have handed over the lists
`calls`. -/
structure Reported (c : Sim) (b : SimBench (SchedulerRecord T)) (calls : List (List TaskId))
    (L' : List SimHolding) (b' : SimBench (SchedulerRecord T)) : Prop where
  tracked : b'.Tracked (Carries c) L'
  live : b'.mux.isPoisoned = false
  unknownAsZero : b'.mux.unknownAsZero = b.mux.unknownAsZero
  pending : b'.mux.pending = b.mux.pending
  resumed : b'.resumed = b.resumed ++ calls
  issued : b.log.issued <+: b'.log.issued

theorem Reported.trans {c : Sim} {b b' b'' : SimBench (SchedulerRecord T)}
    {calls calls' : List (List TaskId)} {L' L'' : List SimHolding} (h : Reported c b calls L' b')
    (h' : Reported c b' calls' L'' b'') : Reported c b (calls ++ calls') L'' b'' := by
  refine ⟨h'.tracked, h'.live, h'.unknownAsZero.trans h.unknownAsZero,
    h'.pending.trans h.pending, ?_, h.issued.trans h'.issued⟩
  rw [h'.resumed, h.resumed, List.append_assoc]

/-- The callback of a holding has not been removed. -/
theorem isLive_of_mem {c : Sim} {b : SimBench T} {L : List SimHolding}
    (h : b.Tracked (Carries c) L) {e : SimHolding} (he : e ∈ L) :
    b.native.isLive e.handle = true := by
  rw [Sim.isLive, SlotMap.contains, h.extra.serves.get?_of_mem e he]
  rfl

/-- A report to one holding leaves the others that are to come. -/
theorem sublist_filter_isSpent {S L : List SimHolding} {e : SimHolding} (v : Logic)
    (hsub : (e :: S).Sublist L) (hkeys : ((e :: S).map (·.key)).Nodup) :
    S.Sublist (L.filter fun f => !(decide (f.key = e.key) && isSpent v f)) := by
  rw [List.map_cons, List.nodup_cons] at hkeys
  have hself : S.filter (fun f => !(decide (f.key = e.key) && isSpent v f)) = S := by
    refine List.filter_eq_self.mpr fun f hf => ?_
    have hne : f.key ≠ e.key := fun heq => hkeys.1 (heq ▸ List.mem_map_of_mem hf)
    simp [hne]
  rw [← hself]
  exact ((List.sublist_cons_self e S).trans hsub).filter _

/-- Reports to one holding and then to others leave what reports to all of them leave. -/
theorem filter_filter_isSpent (L S : List SimHolding) (e : SimHolding) (v : Logic) :
    (L.filter fun f => !(decide (f.key = e.key) && isSpent v f)).filter
        (fun f => !(decide (f.key ∈ S.map (·.key)) && isSpent v f)) =
      L.filter fun f => !(decide (f.key ∈ (e :: S).map (·.key)) && isSpent v f) := by
  rw [List.filter_filter]
  congr 1
  funext f
  by_cases hkey : f.key = e.key
  · cases isSpent v f <;> simp [hkey]
  · simp [hkey]

/-- A holding is on a signal when its key is one of those on the signal. -/
theorem filter_isSpent_on {L : List SimHolding} {s : Subscriptions SignalId CallbackHandle}
    (h : s.Roster L) (signal : SignalId) (v : Logic) :
    (L.filter fun f =>
        !(decide (f.key ∈ (L.filter (·.registration.signal = signal)).map (·.key)) &&
          isSpent v f)) =
      L.filter fun f => !(decide (f.registration.signal = signal) && isSpent v f) := by
  refine List.filter_congr fun f hf => ?_
  congr 2
  rw [decide_eq_decide]
  constructor
  · intro hmem
    obtain ⟨g, hg, hkey⟩ := List.mem_map.mp hmem
    obtain ⟨hg, hsignal⟩ := List.mem_filter.mp hg
    obtain rfl := h.eq_of_key hg hf hkey
    exact of_decide_eq_true hsignal
  · intro hsignal
    exact List.mem_map_of_mem (List.mem_filter.mpr ⟨hf, decide_eq_true hsignal⟩)

variable [Scheduler T]

/-- **A report to one holding** hands its tasks over if the value is accepted. -/
theorem deliver_reported {c : Sim} {b : SimBench (SchedulerRecord T)} {L : List SimHolding}
    (h : b.Tracked (Carries c) L) (hlive : b.mux.isPoisoned = false) {e : SimHolding} (he : e ∈ L)
    (value : Logic) :
    (b.deliver e.key value).Ends Fault.Never MuxError.Interrupts fun _ b' => Reported c b
      (if e.registration.accepts (b.mux.observe value) then [e.registration.tasks] else [])
      (L.filter fun f => !(decide (f.key = e.key) && isSpent (b.mux.observe value) f)) b' := by
  have hresult := deliver_spec (tracking_since (tracking_carries c) _ _) h.since hlive e.key value
  generalize b.deliver e.key value = o at hresult ⊢
  cases hresult with
  | stale habsent => exact absurd rfl (habsent e he)
  | ignored f hf hkey hdiffers =>
    obtain rfl := h.roster.eq_of_key hf he hkey
    have hsame := filter_isSpent h.roster hf (b.mux.observe value)
    rw [isSpent, hdiffers, Bool.false_and, if_neg Bool.false_ne_true] at hsame
    simp only [Outcome.Ends, hdiffers, hsame]
    exact ⟨h.congr rfl rfl rfl, hlive, rfl, rfl, (List.append_nil _).symm, List.prefix_rfl⟩
  | refused f hrefuses => exact absurd hrefuses not_refuses_of_carries
  | fired f hf hkey haccepts b₁ hready o' hhand =>
    obtain rfl := h.roster.eq_of_key hf he hkey
    cases hhand with
    -- a hand-over that fails interrupts the report, of which nothing is said here
    | failed => trivial
    | done b₂ hsame hcall hbridge =>
      have hstay : (L.filter fun g =>
          !(decide (g.key = f.key) && isSpent (b.mux.observe value) g)) =
          if f.registration.mode = .oneShot then L.filter (·.key ≠ f.key) else L := by
        rw [filter_isSpent h.roster hf, isSpent, haccepts, Bool.true_and]
        simp only [decide_eq_true_eq]
      have hready' := hready.tracked
      rw [← hstay] at hready'
      have hresumed := (DispatchResult.done b₂ hsame hcall hbridge).resumed rfl
      have hup : b₁.mux.isPoisoned = false := by
        rw [isPoisoned_of_frame hready.frame hready.failed, hlive]
      show Reported c b (if f.registration.accepts (b.mux.observe value) then _ else _) _ b₂
      rw [if_pos haccepts]
      refine ⟨(hready'.congr hsame.subscriptions hsame.native hsame.issued).of_since, ?_, ?_, ?_,
        ?_, ?_⟩
      · rw [isPoisoned_eq_false_iff] at hup ⊢
        rw [hsame.failed, hbridge]
        exact hup
      · exact hsame.unknownAsZero.trans hready.frame.unknownAsZero
      · exact hsame.pending.trans hready.pending
      · rw [hresumed, resumed_of_scheduler hready.frame.scheduler]
      · rw [hsame.issued]
        exact hready'.extra.2.1

/-- **Reports to several holdings**, in turn, hand over the tasks of those that accept the value. -/
theorem reportTo_reported {c : Sim} {value v : Logic} (S : List SimHolding) :
    ∀ (b : SimBench (SchedulerRecord T)) (L : List SimHolding), b.Tracked (Carries c) L →
      b.mux.isPoisoned = false → b.mux.observe value = v → S.Sublist L →
      (reportTo value (S.map fun e => (e.handle, callbackOf e)) b).Ends Fault.Never
        MuxError.Interrupts fun _ b' => Reported c b
          ((S.filter (·.registration.accepts v)).map (·.registration.tasks))
          (L.filter fun f => !(decide (f.key ∈ S.map (·.key)) && isSpent v f)) b' := by
  induction S with
  | nil =>
    intro b L h hlive _ _
    refine ⟨?_, hlive, rfl, rfl, (List.append_nil _).symm, List.prefix_rfl⟩
    simpa using h
  | cons e S ih =>
    intro b L h hlive hobserve hsub
    have he : e ∈ L := hsub.subset List.mem_cons_self
    have hkeys : ((e :: S).map (·.key)).Nodup := h.roster.keys_nodup.sublist (hsub.map _)
    have hisLive := isLive_of_mem h he
    rw [List.map_cons, List.map_cons]
    simp only [reportTo, if_pos hisLive]
    set b₁ := b.onSim fun s => { s with delivered := s.delivered + 1 } with hb₁
    have hworld := h.extra.world
    have h₁ : b₁.Tracked (Carries c) L :=
      h.onSim rfl rfl ⟨hworld.now, hworld.queue, hworld.nextSeq, hworld.signals⟩
    have hstart : Reported c b [] L b₁ :=
      ⟨h₁, hlive, rfl, rfl, (List.append_nil _).symm, List.prefix_rfl⟩
    obtain ⟨error, b₂, heq, herror⟩ | ⟨d, b₂, heq, hone⟩ :=
      (deliver_reported h₁ hlive he value).failed_or_done
    · have heq' : b₁.deliver (callbackOf e).key value = .failed error b₂ := heq
      simp only [heq']
      exact herror
    · have heq' : b₁.deliver (callbackOf e).key value = .done d b₂ := heq
      simp only [heq']
      rw [show b₁.mux.observe value = v from hobserve] at hone
      -- values are read as before, so the rest of the report has the same effect
      have hobserve₂ : b₂.mux.observe value = v := by
        rw [Mux.observe, hone.unknownAsZero]
        exact hobserve
      refine (ih b₂ _ hone.tracked hone.live hobserve₂
        (sublist_filter_isSpent v hsub hkeys)).imp fun _ b' hmore => ?_
      have hall := (hstart.trans hone).trans hmore
      rw [filter_filter_isSpent, List.map_cons] at hall
      convert hall using 1
      rw [List.filter_cons]
      split <;> rfl

end Bench

theorem Sim.SameWorld.withValue {c s : Sim} (h : SameWorld c s) (signal : SignalId)
    (value : Logic) : SameWorld (c.withValue signal value) (s.withValue signal value) :=
  ⟨h.now, h.queue, h.nextSeq, by rw [Sim.withValue, Sim.withValue, h.signals]⟩

namespace Bench

variable {T : Type} [Scheduler T]

/-- **A change** is reported to the holdings on the signal, in the order of the roster. -/
theorem applyChange_reported {c : Sim} {b : SimBench (SchedulerRecord T)} {L : List SimHolding}
    (h : b.Tracked (Carries c) L) (hlive : b.mux.isPoisoned = false) {signal : SignalId}
    {value : Logic} {before : Signal} (hbefore : b.native.signal? signal = some before)
    (hchange : before.value ≠ value) :
    (b.applyChange signal value).Ends Fault.Never MuxError.Interrupts fun _ b' =>
      Reported (c.withValue signal value) b
        (((L.filter (·.registration.signal = signal)).filter
          (·.registration.accepts (b.mux.observe value))).map (·.registration.tasks))
        (L.filter fun f => !(decide (f.registration.signal = signal) &&
          isSpent (b.mux.observe value) f)) b' := by
  rw [applyChange_eq, hbefore]
  simp only [if_neg hchange]
  set b₁ := (b.note (.changed b.native.now before.name before.value value)).onSim fun s =>
    s.withValue signal value with hb₁
  have h₁ : b₁.Tracked (Carries (c.withValue signal value)) L := by
    have hnoted : (b.note (.changed b.native.now before.name before.value value)).Tracked
        (Carries c) L := h.congr rfl rfl (Log.issued_push (by simp))
    exact hnoted.onSim rfl rfl (h.extra.world.withValue signal value)
  -- the subscribers stand in the order of the roster
  rw [h₁.extra.serves.subscribers_eq h₁.extra.numbered signal]
  refine (reportTo_reported _ b₁ L h₁ hlive rfl List.filter_sublist).imp fun _ b' hreports => ?_
  have hissued : b₁.log.issued = b.log.issued := Log.issued_push (by simp)
  have hstart : Reported (c.withValue signal value) b [] L b₁ :=
    ⟨h₁, hlive, rfl, rfl, (List.append_nil _).symm, by simp only [hissued, List.prefix_rfl]⟩
  have hall := hstart.trans hreports
  rw [List.nil_append] at hall
  rw [filter_isSpent_on h.roster] at hall
  exact hall

end Bench

end EdgeWait
