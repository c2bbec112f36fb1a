/-
Operations that end registrations, seen through the roster.

* `tearDown_spec` — the holding of the key leaves the roster;
* `cancel_spec`, `shutdown_spec` — so it is for one registration, and for all of them;
* `deliver_spec` — what the report of a value leads to: nothing, or the hand-over of the tasks of
  one registration, which has left the roster by then unless it is persistent.

Design notes: the only fault that can come up is one of the native layer, when it refuses to end a
subscription (`Refuses`).
-/
import EdgeWait.Proofs.Registering

namespace EdgeWait

namespace Bench

variable {N T σ η : Type} {I : List (Holding σ η) → Arena σ → N → List RegistrationKey → Prop}

section Ending

variable [NativeLayer N σ η]

/-- The native layer ends in a fault instead of ending the subscription of a holding, in a context
that has as many ids as `capacity` says. -/
def Refuses (I : List (Holding σ η) → Arena σ → N → List RegistrationKey → Prop) (capacity : Nat)
    (f : Fault) : Prop :=
  ∃ L arena native issued, ∃ e ∈ L, (I L arena native issued ∧ arena.slots.size ≤ capacity) ∧
    NativeLayer.unsubscribe native e.handle = .error f

/-- From `b` with the roster `L` the registration of one holding has been ended. -/
structure Ended (I : List (Holding σ η) → Arena σ → N → List RegistrationKey → Prop)
    (b : Bench N T σ η) (L : List (Holding σ η)) (e : Holding σ η) (b' : Bench N T σ η) : Prop where
  tracked : b'.Tracked I (L.filter (·.key ≠ e.key))
  native : NativeLayer.unsubscribe b.native e.handle = .ok b'.native
  same : b' = b.withSubscriptions b'.mux.subscriptions b'.native
  capacity : b'.mux.subscriptions.pool.capacity = b.mux.subscriptions.pool.capacity

omit [NativeLayer N σ η] in
theorem Frame.of_same {b b' : Bench N T σ η}
    (same : b' = b.withSubscriptions b'.mux.subscriptions b'.native)
    (capacity : b'.mux.subscriptions.pool.capacity = b.mux.subscriptions.pool.capacity) :
    Frame b b' := by
  rw [same]
  exact ⟨rfl, rfl, rfl, rfl, by rw [← same]; exact capacity⟩

section Ended

variable {b b' : Bench N T σ η} {L : List (Holding σ η)} {e : Holding σ η}

theorem Ended.frame (h : Ended I b L e b') : Frame b b' := .of_same h.same h.capacity

theorem Ended.pending (h : Ended I b L e b') : b'.mux.pending = b.mux.pending := by
  rw [h.same]
  rfl

theorem Ended.failed (h : Ended I b L e b') : b'.mux.failed = b.mux.failed := by
  rw [h.same]
  rfl

end Ended

theorem tearDown_of_not_mem {b : Bench N T σ η} {L : List (Holding σ η)} (h : b.Tracked I L)
    {key : RegistrationKey} (hkey : ∀ e ∈ L, e.key ≠ key) : b.tearDown key = .ok (none, b) := by
  rw [tearDown, Subscriptions.unsubscribe_of_get?_eq_none _ (h.roster.get?_eq_none_iff.mpr hkey)]

/-- **To tear a registration down** takes its holding out of the roster. -/
theorem tearDown_spec (hI : Tracking I) {b : Bench N T σ η} {L : List (Holding σ η)}
    (h : b.Tracked I L) {e : Holding σ η} (he : e ∈ L) :
    (∃ f, Refuses I b.mux.subscriptions.pool.capacity f ∧ b.tearDown e.key = .error f) ∨
      ∃ b', b.tearDown e.key = .ok (some e.registration.retire, b') ∧ Ended I b L e b' := by
  obtain ⟨s', heq, hroster, harena, hcap⟩ := Subscriptions.unsubscribe_spec h.roster b.native he
  cases hnative : NativeLayer.unsubscribe b.native e.handle with
  | error f =>
    refine .inl ⟨f, ⟨L, _, _, _, e, he, ⟨h.extra, h.roster.slots_le⟩, hnative⟩, ?_⟩
    rw [tearDown, heq, hnative]
    rfl
  | ok n =>
    refine .inr ⟨b.withSubscriptions s' n, ?_, ⟨⟨hroster, ?_⟩, hnative, rfl, hcap⟩⟩
    · rw [tearDown, heq, hnative]
      rfl
    · have hextra :=
        hI.closed h.extra h.roster.keys_nodup he (h.roster.get?_of_mem he) hnative
      rw [← harena] at hextra
      exact hextra

/-- What it leads to when a registration is cancelled. -/
inductive CancelResult (I : List (Holding σ η) → Arena σ → N → List RegistrationKey → Prop)
    (b : Bench N T σ η) (L : List (Holding σ η)) (key : RegistrationKey) :
    Except Fault (Bool × Bench N T σ η) → Prop where
  /-- The key is not live. -/
  | gone (absent : ∀ e ∈ L, e.key ≠ key) : CancelResult I b L key (.ok (false, b))
  | refused (f : Fault) (refuses : Refuses I b.mux.subscriptions.pool.capacity f) :
      CancelResult I b L key (.error f)
  /-- Its registration has been ended. -/
  | ended (e : Holding σ η) (mem : e ∈ L) (hkey : e.key = key) (b₁ b' : Bench N T σ η)
      (ended : Ended I b L e b₁)
      (counted : b' = (b₁.count fun c => { c with cancelled := c.cancelled + 1 }).note
        (.cancelled key)) :
      CancelResult I b L key (.ok (true, b'))

theorem cancel_spec (hI : Tracking I) {b : Bench N T σ η} {L : List (Holding σ η)}
    (h : b.Tracked I L) (key : RegistrationKey) : CancelResult I b L key (b.cancel key) := by
  by_cases hkey : ∃ e ∈ L, e.key = key
  · obtain ⟨e, he, rfl⟩ := hkey
    obtain ⟨f, hf, heq⟩ | ⟨b₁, heq, hended⟩ := tearDown_spec hI h he
    · rw [cancel, heq]
      exact .refused f hf
    · rw [cancel, heq]
      exact .ended e he rfl b₁ _ hended rfl
  · have habsent : ∀ e ∈ L, e.key ≠ key := fun e he hc => hkey ⟨e, he, hc⟩
    rw [cancel, tearDown_of_not_mem h habsent]
    exact .gone habsent

theorem filter_of_absent {L : List (Holding σ η)} {key : RegistrationKey}
    (h : ∀ e ∈ L, e.key ≠ key) : L.filter (·.key ≠ key) = L :=
  List.filter_eq_self.mpr fun e he => by simpa using h e he

/-- Ends native subscriptions, in turn. -/
def unsubscribeAll : List η → N → Except Fault N
  | [], n => .ok n
  | handle :: rest, n =>
    match NativeLayer.unsubscribe n handle with
    | .error f => .error f
    | .ok n => unsubscribeAll rest n

theorem unsubscribeAll_append (handles handles' : List η) :
    ∀ n : N, unsubscribeAll (handles ++ handles') n =
      (unsubscribeAll handles n).bind (unsubscribeAll handles') := by
  induction handles with
  | nil => exact fun n => rfl
  | cons handle rest ih =>
    intro n
    rw [List.cons_append, unsubscribeAll, unsubscribeAll]
    cases NativeLayer.unsubscribe n handle with
    | error f => rfl
    | ok n => exact ih n

/-- The registrations under a list of keys leave the roster, in turn. -/
theorem tearDownAll_spec (hI : Tracking I) :
    ∀ (keys : List RegistrationKey) (b : Bench N T σ η) (L : List (Holding σ η)), b.Tracked I L →
      (∃ f, Refuses I b.mux.subscriptions.pool.capacity f ∧ tearDownAll keys b = .error f) ∨
      ∃ b', tearDownAll keys b = .ok b' ∧ b'.Tracked I (L.filter (·.key ∉ keys)) ∧
        b' = b.withSubscriptions b'.mux.subscriptions b'.native ∧
        b'.mux.subscriptions.pool.capacity = b.mux.subscriptions.pool.capacity ∧
        ∃ handles, unsubscribeAll handles b.native = .ok b'.native := by
  intro keys
  induction keys with
  | nil =>
    intro b L h
    refine .inr ⟨b, rfl, ?_, rfl, rfl, [], rfl⟩
    simpa using h
  | cons key rest ih =>
    intro b L h
    have hstep : (∃ f, Refuses I b.mux.subscriptions.pool.capacity f ∧
          b.tearDown key = .error f) ∨
        ∃ answer b₁, b.tearDown key = .ok (answer, b₁) ∧
          b₁.Tracked I (L.filter (·.key ≠ key)) ∧
          b₁ = b.withSubscriptions b₁.mux.subscriptions b₁.native ∧
          b₁.mux.subscriptions.pool.capacity = b.mux.subscriptions.pool.capacity ∧
          ∃ handles, unsubscribeAll handles b.native = .ok b₁.native := by
      -- a key that is not live is passed over
      by_cases hkey : ∃ e ∈ L, e.key = key
      · obtain ⟨e, he, rfl⟩ := hkey
        obtain hrefused | ⟨b₁, heq, hended⟩ := tearDown_spec hI h he
        · exact .inl hrefused
        · refine .inr ⟨_, b₁, heq, hended.tracked, hended.same, hended.capacity, [e.handle], ?_⟩
          rw [unsubscribeAll, hended.native]
          rfl
      · have habsent : ∀ e ∈ L, e.key ≠ key := fun e he hc => hkey ⟨e, he, hc⟩
        refine .inr ⟨none, b, tearDown_of_not_mem h habsent, ?_, rfl, rfl, [], rfl⟩
        rwa [filter_of_absent habsent]
    rcases hstep with ⟨f, hf, heq⟩ | ⟨answer, b₁, heq, htracked, hsame, hcap, handles, hhandles⟩
    · exact .inl ⟨f, hf, by rw [tearDownAll, heq]⟩
    · rcases ih b₁ _ htracked with
        ⟨f, hf, hrest⟩ | ⟨b', hrest, htracked', hsame', hcap', handles', hhandles'⟩
      · exact .inl ⟨f, hcap ▸ hf, by rw [tearDownAll, heq]; exact hrest⟩
      · refine .inr ⟨b', by rw [tearDownAll, heq]; exact hrest, ?_, ?_, hcap'.trans hcap,
          handles ++ handles', by rw [unsubscribeAll_append, hhandles]; exact hhandles'⟩
        · rw [List.filter_filter] at htracked'
          have hfilter : (L.filter fun e => decide (e.key ∉ rest) && decide (e.key ≠ key)) =
              L.filter fun e => decide (e.key ∉ key :: rest) := by
            congr 1
            funext e
            by_cases hek : e.key = key <;> simp [hek]
          rwa [hfilter] at htracked'
        · rw [hsame', hsame]
          rfl

/-- **A shutdown** empties the roster and forgets the pending waits. -/
theorem shutdown_spec (hI : Tracking I) {b : Bench N T σ η} {L : List (Holding σ η)}
    (h : b.Tracked I L) :
    (∃ f, Refuses I b.mux.subscriptions.pool.capacity f ∧ b.shutdown = .error f) ∨
      ∃ b', b.shutdown = .ok (L.length, b') ∧ b'.Tracked I [] ∧ Frame b b' ∧
        b'.mux.pending = b.mux.pending.clear ∧ b'.mux.failed = b.mux.failed ∧
        b'.mux.counters =
          { b.mux.counters with cancelled := b.mux.counters.cancelled + L.length } ∧
        ∃ handles, unsubscribeAll handles b.native = .ok b'.native := by
  have hclear : Tracked I { b with mux := { b.mux with pending := b.mux.pending.clear } } L :=
    h.congr rfl rfl rfl
  rcases tearDownAll_spec hI b.mux.subscriptions.arena.keys _ L hclear with
    ⟨f, hf, heq⟩ | ⟨b₁, heq, htracked, hsame, hcap, hhandles⟩
  · refine .inl ⟨f, hf, ?_⟩
    rw [shutdown, heq]
  · right
    -- the keys of the arena are those of the roster, so no holding is left
    have hempty : L.filter (fun e => decide (e.key ∉ b.mux.subscriptions.arena.keys)) = [] := by
      refine List.filter_eq_nil_iff.mpr fun e he => ?_
      simpa using h.roster.mem_keys_iff.mpr ⟨e, he, rfl⟩
    rw [hempty] at htracked
    have hframe : Frame b b₁ := by
      have hsame₁ := Frame.of_same hsame hcap
      exact ⟨hsame₁.policy, hsame₁.unknownAsZero, hsame₁.bridge, hsame₁.scheduler, hcap⟩
    have hpending : b₁.mux.pending = b.mux.pending.clear := by rw [hsame]; rfl
    have hfailed : b₁.mux.failed = b.mux.failed := by rw [hsame]; rfl
    have hcounters : b₁.mux.counters = b.mux.counters := by rw [hsame]; rfl
    rw [shutdown, heq, h.roster.length_keys, ← hcounters]
    exact ⟨_, rfl, htracked.congr rfl rfl (Log.issued_push (by simp)),
      hframe.trans ⟨rfl, rfl, rfl, rfl, rfl⟩, hpending, hfailed, rfl, hhandles⟩

end Ending

/-! ### Reports -/

/-- A context that keeps its mark and its bridge stays unpoisoned. -/
theorem isPoisoned_of_frame {b b' : Bench N T σ η} (hframe : Frame b b')
    (hfailed : b'.mux.failed = b.mux.failed) : b'.mux.isPoisoned = b.mux.isPoisoned := by
  rw [Mux.isPoisoned, hfailed, hframe.bridge, Mux.isPoisoned]

theorem isPoisoned_of_failed {b : Bench N T σ η} (h : b.mux.failed = true) :
    b.mux.isPoisoned = true := by
  rw [Mux.isPoisoned, h, Bool.true_or]

section Delivering

variable [Scheduler T]

/-- The parts of a bench that a hand-over leaves alone. -/
structure HandedOver (b b' : Bench N T σ η) : Prop where
  policy : b'.mux.policy = b.mux.policy
  unknownAsZero : b'.mux.unknownAsZero = b.mux.unknownAsZero
  pending : b'.mux.pending = b.mux.pending
  subscriptions : b'.mux.subscriptions = b.mux.subscriptions
  counters : b'.mux.counters = b.mux.counters
  failed : b'.mux.failed = b.mux.failed
  native : b'.native = b.native
  issued : b'.log.issued = b.log.issued

/-- What the one call of the scheduler leads to. -/
inductive DispatchResult (b : Bench N T σ η) (tasks : List TaskId) :
    Outcome MuxError (Bench N T σ η) Unit → Prop where
  | done (b' : Bench N T σ η) (same : HandedOver b b')
      (call : Scheduler.scheduleMany b.scheduler tasks = (.ok (), b'.scheduler))
      (bridge : b'.mux.bridge = { b.mux.bridge with
        dispatchCalls := b.mux.bridge.dispatchCalls + 1
        dispatchedTasks := b.mux.bridge.dispatchedTasks + tasks.length }) :
      DispatchResult b tasks (.done () b')
  | failed (b' : Bench N T σ η) (cause : ScriptError) (t : T) (same : HandedOver b b')
      (call : Scheduler.scheduleMany b.scheduler tasks = (.error cause, t))
      (scheduler : b'.scheduler = Scheduler.finalize t)
      (bridge : b'.mux.bridge = { b.mux.bridge with
        dispatchCalls := b.mux.bridge.dispatchCalls + 1, tornDown := true }) :
      DispatchResult b tasks (.failed (.dispatchFailed cause) b')

/-- **A hand-over** is one call of the scheduler, and a call that fails is its last. -/
theorem dispatch_spec {b : Bench N T σ η} (hup : b.mux.bridge.tornDown = false)
    (tasks : List TaskId) : DispatchResult b tasks (b.dispatch tasks) := by
  rw [dispatch, Bridge.dispatch, if_neg (by simp [hup])]
  rcases hcall : Scheduler.scheduleMany b.scheduler tasks with ⟨⟨cause⟩ | ⟨⟨⟩⟩, t⟩
  · refine .failed _ cause t ⟨rfl, rfl, rfl, rfl, rfl, rfl, rfl, ?_⟩ hcall rfl rfl
    exact Log.issued_push (by simp)
  · exact .done _ ⟨rfl, rfl, rfl, rfl, rfl, rfl, rfl, rfl⟩ hcall rfl

variable [NativeLayer N σ η]

/-- The bench on which the tasks of a matching registration are handed over: they have been counted,
and a one-shot registration has been ended. -/
structure ReadyToFire (I : List (Holding σ η) → Arena σ → N → List RegistrationKey → Prop)
    (b : Bench N T σ η) (L : List (Holding σ η)) (e : Holding σ η) (b' : Bench N T σ η) : Prop where
  oneShot : e.registration.mode = .oneShot →
    b'.Tracked I (L.filter (·.key ≠ e.key)) ∧
      NativeLayer.unsubscribe b.native e.handle = .ok b'.native
  persistent : e.registration.mode = .persistent →
    b'.Tracked I L ∧ b'.native = b.native ∧ b'.mux.subscriptions = b.mux.subscriptions
  frame : Frame b b'
  pending : b'.mux.pending = b.mux.pending
  failed : b'.mux.failed = b.mux.failed
  counters : b'.mux.counters = { b.mux.counters with
    notifications := b.mux.counters.notifications + 1
    fired := b.mux.counters.fired + 1 }

omit [Scheduler T] in
theorem ReadyToFire.tracked {b b' : Bench N T σ η} {L : List (Holding σ η)} {e : Holding σ η}
    (h : ReadyToFire I b L e b') :
    b'.Tracked I (if e.registration.mode = .oneShot then L.filter (·.key ≠ e.key) else L) := by
  cases hmode : e.registration.mode with
  | oneShot => exact (h.oneShot hmode).1
  | persistent => exact (h.persistent hmode).1

/-- A stale report is counted, and noted. -/
def afterStale (b : Bench N T σ η) (key : RegistrationKey) : Bench N T σ η :=
  (b.count fun c => { c with notifications := c.notifications + 1, stale := c.stale + 1 }).note
    (.stale key)

/-- A report of another value is counted. -/
def afterIgnored (b : Bench N T σ η) : Bench N T σ η :=
  b.count fun c => { c with notifications := c.notifications + 1, ignored := c.ignored + 1 }

/-- What a report to an unpoisoned context leads to. -/
inductive DeliverResult (I : List (Holding σ η) → Arena σ → N → List RegistrationKey → Prop)
    (b : Bench N T σ η) (L : List (Holding σ η)) (key : RegistrationKey) (value : Logic) :
    Outcome MuxError (Bench N T σ η) Delivery → Prop where
  | stale (absent : ∀ e ∈ L, e.key ≠ key) :
      DeliverResult I b L key value (.done .stale (b.afterStale key))
  | ignored (e : Holding σ η) (mem : e ∈ L) (hkey : e.key = key)
      (differs : e.registration.accepts (b.mux.observe value) = false) :
      DeliverResult I b L key value (.done .ignored b.afterIgnored)
  | refused (f : Fault) (refuses : Refuses I b.mux.subscriptions.pool.capacity f) :
      DeliverResult I b L key value (.fault f)
  | fired (e : Holding σ η) (mem : e ∈ L) (hkey : e.key = key)
      (accepts : e.registration.accepts (b.mux.observe value) = true) (b₁ : Bench N T σ η)
      (ready : ReadyToFire I b L e b₁) (o : Outcome MuxError (Bench N T σ η) Unit)
      (handOver : DispatchResult b₁ e.registration.tasks o) :
      DeliverResult I b L key value
        (o.andThen fun _ b => .done (.fired e.registration.tasks.length) b)

/-- The firing of a registration is counted, and noted. -/
def afterMatch (b : Bench N T σ η) (key : RegistrationKey) (observed : Logic) (tasks : Nat) :
    Bench N T σ η :=
  (b.count fun c => { c with fired := c.fired + 1 }).note (.fired key observed tasks)

omit [Scheduler T] [NativeLayer N σ η] in
theorem Tracked.afterMatch {b : Bench N T σ η} {L : List (Holding σ η)} (h : b.Tracked I L)
    (key : RegistrationKey) (observed : Logic) (tasks : Nat) :
    (b.afterMatch key observed tasks).Tracked I L :=
  h.congr rfl rfl (Log.issued_push (by simp))

theorem isPoisoned_eq_false_iff (m : Mux σ η) :
    m.isPoisoned = false ↔ m.failed = false ∧ m.bridge.tornDown = false := by
  simp [Mux.isPoisoned]

omit [Scheduler T] [NativeLayer N σ η] in
@[simp]
theorem registration?_count (b : Bench N T σ η) (f : Counters → Counters) (key : RegistrationKey) :
    (b.count f).mux.registration? key = b.mux.registration? key :=
  rfl

omit [Scheduler T] [NativeLayer N σ η] in
@[simp]
theorem observe_count (b : Bench N T σ η) (f : Counters → Counters) (value : Logic) :
    (b.count f).mux.observe value = b.mux.observe value :=
  rfl

theorem deliver_of_gone {b : Bench N T σ η} (hlive : b.mux.isPoisoned = false)
    {key : RegistrationKey} (hget : b.mux.registration? key = none) (value : Logic) :
    b.deliver key value = .done .stale (b.afterStale key) := by
  rw [deliver, if_neg (by simp [hlive])]
  simp only [registration?_count, hget]
  rfl

theorem deliver_of_differs {b : Bench N T σ η} (hlive : b.mux.isPoisoned = false)
    {key : RegistrationKey} {r : Registration σ} (hget : b.mux.registration? key = some r)
    {value : Logic} (hdiffers : r.accepts (b.mux.observe value) = false) :
    b.deliver key value = .done .ignored b.afterIgnored := by
  rw [deliver, if_neg (by simp [hlive])]
  simp only [registration?_count, observe_count, hget, hdiffers, Bool.false_eq_true, if_false]
  rfl

theorem deliver_of_accepts {b : Bench N T σ η} (hlive : b.mux.isPoisoned = false)
    {key : RegistrationKey} {r : Registration σ} (hget : b.mux.registration? key = some r)
    {value : Logic} (hacc : r.accepts (b.mux.observe value) = true) :
    b.deliver key value =
      match if r.mode = .oneShot then
          ((b.count fun c => { c with
            notifications := c.notifications + 1 }).tearDown key).map (·.2)
        else .ok (b.count fun c => { c with notifications := c.notifications + 1 }) with
      | .error f => .fault f
      | .ok b₁ =>
        ((b₁.afterMatch key (b.mux.observe value) r.tasks.length).dispatch r.tasks).andThen
          fun _ b => .done (.fired r.tasks.length) b := by
  rw [deliver, if_neg (by simp [hlive])]
  simp only [registration?_count, observe_count, hget, hacc, if_true]
  rfl

/-- **A report** is stale, or ignored, or it hands over the tasks of the registration under its
key. -/
theorem deliver_spec (hI : Tracking I) {b : Bench N T σ η} {L : List (Holding σ η)}
    (h : b.Tracked I L) (hlive : b.mux.isPoisoned = false) (key : RegistrationKey)
    (value : Logic) : DeliverResult I b L key value (b.deliver key value) := by
  have hup := ((isPoisoned_eq_false_iff b.mux).mp hlive).2
  by_cases hkey : ∃ e ∈ L, e.key = key
  · obtain ⟨e, he, rfl⟩ := hkey
    have hget : b.mux.registration? e.key = some e.registration := h.roster.get?_of_mem he
    cases hacc : e.registration.accepts (b.mux.observe value) with
    | false =>
      rw [deliver_of_differs hlive hget hacc]
      exact .ignored e he rfl hacc
    | true =>
      rw [deliver_of_accepts hlive hget hacc]
      have hheard : Tracked I
          (b.count fun c => { c with notifications := c.notifications + 1 }) L :=
        h.congr rfl rfl rfl
      by_cases hmode : e.registration.mode = .oneShot
      · rw [if_pos hmode]
        obtain ⟨f, hf, heq⟩ | ⟨b₁, heq, hended⟩ := tearDown_spec hI hheard he
        · rw [heq]
          exact .refused f hf
        · rw [heq]
          have hframe := hended.frame
          -- the counters are those of the report so far, and not those of `b`
          have hmux : b₁.mux = { b.mux with
              counters :=
                { b.mux.counters with notifications := b.mux.counters.notifications + 1 }
              subscriptions := b₁.mux.subscriptions } := by
            rw [hended.same]
            rfl
          refine .fired e he rfl hacc
            (b₁.afterMatch e.key (b.mux.observe value) e.registration.tasks.length)
            ⟨?_, ?_, ?_, ?_, ?_, ?_⟩ _ (dispatch_spec ?_ _)
          · exact fun _ => ⟨hended.tracked.afterMatch _ _ _, hended.native⟩
          · intro hc
            rw [hmode] at hc
            cases hc
          · exact ⟨hframe.policy, hframe.unknownAsZero, hframe.bridge, hframe.scheduler,
              hframe.capacity⟩
          · show b₁.mux.pending = b.mux.pending
            rw [hmux]
          · show b₁.mux.failed = b.mux.failed
            rw [hmux]
          · show ({ b₁.mux.counters with fired := b₁.mux.counters.fired + 1 } : Counters) = _
            rw [hmux]
          · exact (congrArg Bridge.tornDown hframe.bridge).trans hup
      · rw [if_neg hmode]
        refine .fired e he rfl hacc
          ((b.count fun c => { c with notifications := c.notifications + 1 }).afterMatch e.key
            (b.mux.observe value) e.registration.tasks.length)
          ⟨?_, ?_, ?_, rfl, rfl, rfl⟩ _ (dispatch_spec ?_ _)
        · exact fun hc => absurd hc hmode
        · exact fun _ => ⟨hheard.afterMatch _ _ _, rfl, rfl⟩
        · exact ⟨rfl, rfl, rfl, rfl, rfl⟩
        · exact hup
  · have habsent : ∀ e ∈ L, e.key ≠ key := fun e he hc => hkey ⟨e, he, hc⟩
    rw [deliver_of_gone hlive (h.roster.get?_eq_none_iff.mpr habsent)]
    exact .stale habsent

end Delivering

end Bench

end EdgeWait
