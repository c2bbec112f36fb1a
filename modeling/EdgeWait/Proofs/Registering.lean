/-
Operations that make registrations, seen through the roster.

* `register_spec` — one registration is added at the end of the roster, or the pool is empty;
* `registerSingle_spec` — so it is for a task that is subscribed at once;
* `drainLists_spec` — so it is for one list after another, until the pool is empty
  (`PendingWaits.StopsAt`);
* `flush_spec` — a flush makes the registrations that the pending waits ask for
  (`PendingWaits.demands`), in their order, all of them or, with the pool empty, the first few.

Design notes: what a proof wants to know of the native layer, of the arena and of the keys issued
beside the roster is a parameter of these statements.  It is any relation that is kept whenever one
holding is added or taken out (`Tracking`), so the loops are gone through here and nowhere else.
-/
import EdgeWait.Bench
import EdgeWait.Proofs.Drain
import EdgeWait.Proofs.Roster

namespace EdgeWait

/-- The keys that have been issued for registrations, the oldest in front, as a log tells. -/
def Log.issued (log : Log) : List RegistrationKey :=
  log.toList.filterMap fun
    | .registered key .. => some key
    | _ => none

@[simp] theorem Log.issued_push_registered (log : Log) (key : SlotKey) (id : CallbackId)
    (signal : String) (edge : Edge) (tasks : Nat) :
    Log.issued (log.push (.registered key id signal edge tasks)) = Log.issued log ++ [key] := by
  simp [Log.issued, List.filterMap_append]

/-- An entry of another kind issues no key. -/
theorem Log.issued_push {log : Log} {entry : LogEntry}
    (h : ∀ key id signal edge tasks, entry ≠ .registered key id signal edge tasks) :
    Log.issued (log.push entry) = Log.issued log := by
  cases entry with
  | registered key id signal edge tasks => exact absurd rfl (h key id signal edge tasks)
  | _ => simp [Log.issued, List.filterMap_append]

/-! ### What is tracked beside the roster -/

section Tracking

variable {N T σ η : Type}

/-- A relation of the roster to the arena, the native layer and the keys issued so far, that each
registration and each removal keeps. -/
structure Tracking [NativeLayer N σ η]
    (I : List (Holding σ η) → Arena σ → N → List RegistrationKey → Prop) : Prop where
  opened : ∀ {L arena native issued key handle native' arena'} {r : Registration σ},
    I L arena native issued → arena.Valid → (arena.free = [] → arena.slots.size < 2 ^ 32) →
    (∀ e ∈ L, e.key ≠ key) → (key, arena') = arena.insert r →
    NativeLayer.subscribe native r.signal r.condition key = (handle, native') →
    I (L ++ [⟨key, handle, r, issued.length⟩]) arena' native' (issued ++ [key])
  closed : ∀ {L arena native issued native'} {e : Holding σ η},
    I L arena native issued → (L.map (·.key)).Nodup → e ∈ L →
    arena.get? e.key = some e.registration →
    NativeLayer.unsubscribe native e.handle = .ok native' →
    I (L.filter (·.key ≠ e.key)) (arena.erase e.key) native' issued

/-- Nothing is tracked but the roster itself. -/
def Untracked (_ : List (Holding σ η)) (_ : Arena σ) (_ : N) (_ : List RegistrationKey) : Prop :=
  True

theorem tracking_untracked [NativeLayer N σ η] : Tracking (Untracked (N := N) (σ := σ) (η := η)) :=
  ⟨fun _ _ _ _ _ _ => trivial, fun _ _ _ _ _ => trivial⟩

end Tracking

namespace Bench

variable {N T σ η : Type} {I : List (Holding σ η) → Arena σ → N → List RegistrationKey → Prop}

/-- The roster of a context at work, and what is tracked beside it. -/
structure Tracked (I : List (Holding σ η) → Arena σ → N → List RegistrationKey → Prop)
    (b : Bench N T σ η) (L : List (Holding σ η)) : Prop where
  roster : b.mux.subscriptions.Roster L
  extra : I L b.mux.subscriptions.arena b.native b.log.issued

/-- Changes of other parts of a bench do not matter to the roster. -/
theorem Tracked.congr {b b' : Bench N T σ η} {L : List (Holding σ η)} (h : b.Tracked I L)
    (hsubs : b'.mux.subscriptions = b.mux.subscriptions) (hnative : b'.native = b.native)
    (hlog : b'.log.issued = b.log.issued) : b'.Tracked I L := by
  refine ⟨hsubs ▸ h.roster, ?_⟩
  rw [hsubs, hnative, hlog]
  exact h.extra

theorem Tracked.registration?_eq_some_iff {b : Bench N T σ η} {L : List (Holding σ η)}
    (h : b.Tracked I L) (k : RegistrationKey) (r : Registration σ) :
    b.mux.registration? k = some r ↔ ∃ e ∈ L, e.key = k ∧ e.registration = r :=
  h.roster.resolves k r

/-- The parts of a bench that making and ending registrations leaves alone. -/
structure Frame (b b' : Bench N T σ η) : Prop where
  policy : b'.mux.policy = b.mux.policy
  unknownAsZero : b'.mux.unknownAsZero = b.mux.unknownAsZero
  bridge : b'.mux.bridge = b.mux.bridge
  scheduler : b'.scheduler = b.scheduler
  capacity : b'.mux.subscriptions.pool.capacity = b.mux.subscriptions.pool.capacity

theorem Frame.refl (b : Bench N T σ η) : Frame b b := ⟨rfl, rfl, rfl, rfl, rfl⟩

theorem Frame.trans {b b' b'' : Bench N T σ η} (h : Frame b b') (h' : Frame b' b'') :
    Frame b b'' where
  policy := h'.policy.trans h.policy
  unknownAsZero := h'.unknownAsZero.trans h.unknownAsZero
  bridge := h'.bridge.trans h.bridge
  scheduler := h'.scheduler.trans h.scheduler
  capacity := h'.capacity.trans h.capacity

/-! ### One registration -/

end Bench

/-- From the counters `c` to `c'` so many waits have been asked for, and so many registrations have
been made, some of them for several tasks. -/
structure Counters.Registers (c : Counters) (asked made several : Nat) (c' : Counters) : Prop where
  waitsAdded : c'.waitsAdded = c.waitsAdded + asked
  registrations : c'.registrations = c.registrations + made
  batchedRegistrations : c'.batchedRegistrations = c.batchedRegistrations + several
  notifications : c'.notifications = c.notifications
  fired : c'.fired = c.fired
  ignored : c'.ignored = c.ignored
  stale : c'.stale = c.stale
  cancelled : c'.cancelled = c.cancelled

theorem Counters.Registers.refl (c : Counters) : c.Registers 0 0 0 c :=
  ⟨rfl, rfl, rfl, rfl, rfl, rfl, rfl, rfl⟩

theorem Counters.Registers.trans {c c' c'' : Counters} {a a' m m' s s' : Nat}
    (h : c.Registers a m s c') (h' : c'.Registers a' m' s' c'') :
    c.Registers (a + a') (m + m') (s + s') c'' where
  waitsAdded := by rw [h'.waitsAdded, h.waitsAdded, Nat.add_assoc]
  registrations := by rw [h'.registrations, h.registrations, Nat.add_assoc]
  batchedRegistrations := by
    rw [h'.batchedRegistrations, h.batchedRegistrations, Nat.add_assoc]
  notifications := h'.notifications.trans h.notifications
  fired := h'.fired.trans h.fired
  ignored := h'.ignored.trans h.ignored
  stale := h'.stale.trans h.stale
  cancelled := h'.cancelled.trans h.cancelled

/-- The number of holdings with several tasks. -/
def Subscriptions.several {σ η : Type} (L : List (Holding σ η)) : Nat :=
  L.countP fun e => 1 < e.registration.tasks.length

namespace Bench

open Subscriptions

variable {N T σ η : Type} {I : List (Holding σ η) → Arena σ → N → List RegistrationKey → Prop}

/-- From `b` with the roster `L` so many waits have been asked for, and the registrations `new` have
been made, which led to `b'`. -/
structure Made (I : List (Holding σ η) → Arena σ → N → List RegistrationKey → Prop)
    (b : Bench N T σ η) (L : List (Holding σ η)) (asked : Nat) (new : List (Holding σ η))
    (b' : Bench N T σ η) : Prop where
  tracked : b'.Tracked I (L ++ new)
  frame : Frame b b'
  pending : b'.mux.pending = b.mux.pending
  failed : b'.mux.failed = b.mux.failed
  issued : b'.log.issued = b.log.issued ++ new.map (·.key)
  counters : b.mux.counters.Registers asked new.length (several new) b'.mux.counters

theorem Made.nil {b : Bench N T σ η} {L : List (Holding σ η)} (h : b.Tracked I L) :
    Made I b L 0 [] b := by
  refine ⟨?_, Frame.refl b, rfl, rfl, (List.append_nil _).symm, .refl _⟩
  rwa [List.append_nil]

theorem Made.trans {b b' b'' : Bench N T σ η} {L new new' : List (Holding σ η)}
    {asked asked' : Nat} (h : Made I b L asked new b')
    (h' : Made I b' (L ++ new) asked' new' b'') :
    Made I b L (asked + asked') (new ++ new') b'' where
  tracked := by
    rw [← List.append_assoc]
    exact h'.tracked
  frame := h.frame.trans h'.frame
  pending := h'.pending.trans h.pending
  failed := h'.failed.trans h.failed
  issued := by rw [h'.issued, h.issued, List.append_assoc, List.map_append]
  counters := by
    rw [List.length_append, several, List.countP_append]
    exact h.counters.trans h'.counters

/-- The state after a failed registration: the context will not be used any more. -/
theorem Made.poison {b b' : Bench N T σ η} {L new : List (Holding σ η)} {asked : Nat}
    (h : Made I b L asked new b') (e : MuxError) : (b'.poison e).Tracked I (L ++ new) ∧
      Frame b (b'.poison e) ∧ (b'.poison e).mux.failed = true ∧
      (b'.poison e).log.issued = b.log.issued ++ new.map (·.key) := by
  have hissued : (b'.poison e).log.issued = b'.log.issued := Log.issued_push (by simp)
  exact ⟨h.tracked.congr rfl rfl hissued, h.frame.trans ⟨rfl, rfl, rfl, rfl, rfl⟩, rfl,
    hissued.trans h.issued⟩

/-- The native layer has subscribed the given holdings, one after another. -/
def Opens [NativeLayer N σ η] : List (Holding σ η) → N → N → Prop
  | [], n, n' => n' = n
  | e :: rest, n, n' => ∃ n₁, NativeLayer.subscribe n e.registration.signal
      e.registration.condition e.key = (e.handle, n₁) ∧ Opens rest n₁ n'

theorem Opens.append [NativeLayer N σ η] {new new' : List (Holding σ η)} :
    ∀ {n n' n'' : N}, Opens new n n' → Opens new' n' n'' → Opens (new ++ new') n n'' := by
  induction new with
  | nil =>
    rintro n n' n'' rfl h'
    exact h'
  | cons e rest ih =>
    rintro n n' n'' ⟨n₁, hone, hrest⟩ h'
    exact ⟨n₁, hone, ih hrest h'⟩

/-- Registrations have been made, and nothing else has been done: the native layer has subscribed
just these, and no flush has been counted. -/
structure MadeInTurn [NativeLayer N σ η]
    (I : List (Holding σ η) → Arena σ → N → List RegistrationKey → Prop) (b : Bench N T σ η)
    (L : List (Holding σ η)) (new : List (Holding σ η)) (b' : Bench N T σ η) : Prop extends
    Made I b L 0 new b' where
  opens : Opens new b.native b'.native
  flushes : b'.mux.counters.flushes = b.mux.counters.flushes

theorem MadeInTurn.nil [NativeLayer N σ η] {b : Bench N T σ η} {L : List (Holding σ η)}
    (h : b.Tracked I L) : MadeInTurn I b L [] b :=
  ⟨Made.nil h, rfl, rfl⟩

theorem MadeInTurn.trans [NativeLayer N σ η] {b b' b'' : Bench N T σ η}
    {L new new' : List (Holding σ η)} (h : MadeInTurn I b L new b')
    (h' : MadeInTurn I b' (L ++ new) new' b'') : MadeInTurn I b L (new ++ new') b'' :=
  ⟨h.toMade.trans h'.toMade, h.opens.append h'.opens, h'.flushes.trans h.flushes⟩

/-- The bench with one registration more. -/
def withOpened [LogText σ] (b : Bench N T σ η) (o : Subscriptions.Opened N σ η) (signal : σ)
    (edge : Edge) (tasks : List TaskId) : Bench N T σ η :=
  ((b.withSubscriptions o.subscriptions o.native).count fun c =>
    { c with
      registrations := c.registrations + 1
      batchedRegistrations := c.batchedRegistrations + if 1 < tasks.length then 1 else 0 }).note
    (.registered o.key o.id (logText signal) edge tasks.length)

section Registering

variable [NativeLayer N σ η] [LogText σ] [LogText η]

/-- **One registration** goes to the end of the roster, unless the pool is empty. -/
theorem register_spec (hI : Tracking I) {b : Bench N T σ η} {L : List (Holding σ η)}
    (h : b.Tracked I L) (signal : σ) (edge : Edge) {tasks : List TaskId} (mode : Mode)
    (hsize : 1 ≤ tasks.length ∧ tasks.length ≤ batchCapacity) :
    (b.mux.subscriptions.pool.free = [] ∧
      b.register signal edge tasks mode =
        .failed (.poolExhausted b.mux.subscriptions.pool.capacity) b) ∨
    ∃ e b', b.register signal edge tasks mode = .done e.key b' ∧ MadeInTurn I b L [e] b' ∧
      e.registration.demand = ⟨signal, edge, tasks, mode⟩ := by
  obtain ⟨hfree, hnone⟩ | ⟨o, r, handle, hsome, hr, hinsert, hnative, hcap, -, hroster⟩ :=
    Subscriptions.subscribe_spec h.roster b.native signal edge mode hsize
  · left
    refine ⟨hfree, ?_⟩
    rw [register, hnone]
  · right
    -- the new roster has no key twice
    have hfresh : ∀ e ∈ L, e.key ≠ o.key := by
      have hdisjoint := (hroster 0).keys_nodup
      rw [List.map_append, List.nodup_append'] at hdisjoint
      intro e he hkey
      exact hdisjoint.2.2 (List.mem_map_of_mem he) (by simp [hkey])
    have hsubscribe : NativeLayer.subscribe b.native r.signal r.condition o.key =
        (handle, o.native) := by
      rw [hr]
      exact hnative
    have hextra := hI.opened h.extra h.roster.arena_valid h.roster.size_lt hfresh hinsert
      hsubscribe
    have heq : b.register signal edge tasks mode =
        .done o.key (b.withOpened o signal edge tasks) := by
      rw [register, hsome]
      rfl
    refine ⟨⟨o.key, handle, r, b.log.issued.length⟩, b.withOpened o signal edge tasks, heq,
      ⟨⟨⟨hroster _, ?_⟩, ?_, rfl, rfl, ?_, ⟨rfl, rfl, ?_, rfl, rfl, rfl, rfl, rfl⟩⟩,
        ⟨o.native, hsubscribe, rfl⟩, rfl⟩, ?_⟩
    · rw [withOpened, note, Log.issued_push_registered]
      exact hextra
    · exact ⟨rfl, rfl, rfl, rfl, hcap⟩
    · rw [withOpened, note, Log.issued_push_registered]
      rfl
    · rw [several, List.countP_singleton, hr]
      simp only [decide_eq_true_eq]
      rfl
    · rw [hr]
      rfl

/-- To subscribe for one task at once makes one registration, or finds the pool empty. -/
theorem registerSingle_spec (hI : Tracking I) {b : Bench N T σ η} {L : List (Holding σ η)}
    (h : b.Tracked I L) (hlive : b.mux.isPoisoned = false) (signal : σ) (edge : Edge)
    (task : TaskId) (mode : Mode) :
    (∃ b', b.registerSingle signal edge task mode =
        .failed (.poolExhausted b.mux.subscriptions.pool.capacity) b' ∧
      b'.Tracked I L ∧ Frame b b' ∧ b'.mux.failed = true ∧ b'.mux.pending = b.mux.pending ∧
      b'.log.issued = b.log.issued ∧ b.mux.counters.Registers 1 0 0 b'.mux.counters ∧
      b.mux.subscriptions.pool.free = []) ∨
    ∃ e b', b.registerSingle signal edge task mode = .done e.key b' ∧ Made I b L 1 [e] b' ∧
      e.registration.demand = ⟨signal, edge, [task], mode⟩ := by
  set counted := b.count fun c => { c with waitsAdded := c.waitsAdded + 1 } with hcounted
  have hstart : Made I b L 1 [] counted := by
    refine ⟨?_, ⟨rfl, rfl, rfl, rfl, rfl⟩, rfl, rfl, (List.append_nil _).symm,
      ⟨rfl, rfl, rfl, rfl, rfl, rfl, rfl, rfl⟩⟩
    rw [List.append_nil]
    exact h.congr rfl rfl rfl
  have hsize : 1 ≤ [task].length ∧ [task].length ≤ batchCapacity := by simp [batchCapacity]
  obtain ⟨hfree, hfail⟩ | ⟨e, b', hdone, hmade, hdemand⟩ :=
    register_spec hI hstart.tracked signal edge mode hsize
  · left
    obtain ⟨htracked, hframe, hfailed, hissued⟩ :=
      hstart.poison (.poolExhausted counted.mux.subscriptions.pool.capacity)
    rw [List.append_nil] at htracked
    rw [List.map_nil, List.append_nil] at hissued
    refine ⟨counted.poison (.poolExhausted counted.mux.subscriptions.pool.capacity), ?_, htracked,
      hframe, hfailed, rfl, hissued, hstart.counters, hfree⟩
    rw [registerSingle, if_neg (by simp [hlive])]
    simp only [← hcounted, hfail]
    rfl
  · right
    refine ⟨e, b', ?_, hstart.trans hmade.toMade, hdemand⟩
    rw [registerSingle, if_neg (by simp [hlive])]
    simp only [← hcounted, hdone]

end Registering

end Bench

/-! ### A flush -/

/-- The summary after registrations for so many waits more have been made. -/
def FlushSummary.counting {σ : Type} (summary : FlushSummary) (waits : Nat)
    (made : List (Demand σ)) : FlushSummary where
  waits := summary.waits + waits
  registrations := summary.registrations + made.length
  singleTask := summary.singleTask + made.countP (·.tasks.length = 1)

theorem FlushSummary.counting_append {σ : Type} (summary : FlushSummary) (waits waits' : Nat)
    (made made' : List (Demand σ)) :
    (summary.counting waits made).counting waits' made' =
      summary.counting (waits + waits') (made ++ made') := by
  simp only [counting, List.length_append, List.countP_append, Nat.add_assoc]

/-- A drain of `lists` has stopped at one that was not registered as a whole.  What has been
registered for are the lists in front of it, which are not pending any more, and the first few
batches of that one, which is. -/
structure PendingWaits.StopsAt {σ : Type} [DecidableEq σ] (policy : BatchPolicy)
    (p : PendingWaits σ) (lists accepted : List (σ × Edge)) (refused : σ × Edge)
    (made : List (Demand σ)) (p' : PendingWaits σ) : Prop where
  lists : ∃ unvisited, lists = accepted ++ refused :: unvisited
  made : ∃ front, front <+: p.listDemands policy refused ∧
    front.length < (p.listDemands policy refused).length ∧
    made = accepted.flatMap (p.listDemands policy) ++ front
  pending : p' = accepted.foldl (fun p v => p.emptyList v.1 v.2) p

/-- What has been registered for is a part, and not the whole, of what the lists ask for. -/
theorem PendingWaits.StopsAt.made_prefix {σ : Type} [DecidableEq σ] {policy : BatchPolicy}
    {p p' : PendingWaits σ} {lists accepted : List (σ × Edge)} {refused : σ × Edge}
    {made : List (Demand σ)} (h : p.StopsAt policy lists accepted refused made p') :
    made <+: lists.flatMap (p.listDemands policy) ∧
      made.length < (lists.flatMap (p.listDemands policy)).length := by
  obtain ⟨⟨unvisited, rfl⟩, ⟨front, hfront, hfewer, rfl⟩, -⟩ := h
  rw [List.flatMap_append, List.flatMap_cons, List.length_append, List.length_append,
    List.length_append]
  refine ⟨(List.prefix_append_right_inj _).mpr (hfront.trans (List.prefix_append _ _)), ?_⟩
  omega

namespace Bench

open Subscriptions

variable {N T σ η : Type} {I : List (Holding σ η) → Arena σ → N → List RegistrationKey → Prop}
  [NativeLayer N σ η] [LogText σ] [LogText η]

/-- **The batches of one list** are registered in their order, until the pool is empty. -/
theorem registerBatches_spec (hI : Tracking I) (signal : σ) (edge : Edge) :
    ∀ (batches : List (List TaskId)) (b : Bench N T σ η) (L : List (Holding σ η))
      (summary : FlushSummary), b.Tracked I L →
      (∀ batch ∈ batches, 1 ≤ batch.length ∧ batch.length ≤ batchCapacity) →
      ∃ new b' summary', MadeInTurn I b L new b' ∧
        ((registerBatches signal edge batches (b, summary) = .done () (b', summary') ∧
            new.map (·.registration.demand) = batches.map (⟨signal, edge, ·, .oneShot⟩) ∧
            summary' = summary.counting 0 (new.map (·.registration.demand))) ∨
          (registerBatches signal edge batches (b, summary) =
              .failed (.poolExhausted b.mux.subscriptions.pool.capacity) (b', summary') ∧
            b'.mux.subscriptions.pool.free = [] ∧ new.length < batches.length ∧
            new.map (·.registration.demand) <+: batches.map (⟨signal, edge, ·, .oneShot⟩))) := by
  -- the batches registered so far are part of the roster that the rest starts from
  intro batches
  induction batches with
  | nil =>
    intro b L summary h _
    exact ⟨[], b, summary, .nil h, .inl ⟨rfl, rfl, rfl⟩⟩
  | cons batch rest ih =>
    intro b L summary h hsize
    obtain ⟨hfree, hfail⟩ | ⟨e, b₁, hdone, hmade, hdemand⟩ :=
      register_spec hI h signal edge .oneShot (hsize batch (by simp))
    · refine ⟨[], b, summary, .nil h, .inr ⟨?_, hfree, by simp, List.nil_prefix⟩⟩
      rw [registerBatches, hfail]
    · obtain ⟨new, b', summary', hrest, hcases⟩ := ih b₁ (L ++ [e])
        { summary with
          registrations := summary.registrations + 1
          singleTask := summary.singleTask + if batch.length = 1 then 1 else 0 }
        hmade.tracked (fun batch hb => hsize batch (by simp [hb]))
      refine ⟨e :: new, b', summary', hmade.trans hrest, ?_⟩
      rw [registerBatches, hdone, ← hmade.frame.capacity]
      rcases hcases with ⟨heq, hnew, hsummary⟩ | ⟨heq, hfree, hlen, hnew⟩
      · refine .inl ⟨heq, by rw [List.map_cons, List.map_cons, hnew, hdemand], ?_⟩
        have hone : summary.counting 0 [e.registration.demand] = { summary with
            registrations := summary.registrations + 1
            singleTask := summary.singleTask + if batch.length = 1 then 1 else 0 } := by
          rw [hdemand]
          simp [FlushSummary.counting, List.countP_singleton]
        rw [hsummary, ← hone, FlushSummary.counting_append]
        rfl
      · refine .inr ⟨heq, hfree, by simpa using hlen, ?_⟩
        rw [List.map_cons, List.map_cons, hdemand]
        exact List.prefix_cons_inj _ |>.mpr hnew

variable [DecidableEq σ]

/-- **One list** is registered as a whole, or the pool is empty before its end. -/
theorem registerList_spec (hI : Tracking I) {b : Bench N T σ η} {L : List (Holding σ η)}
    (h : b.Tracked I L) (p : PendingWaits σ) (v : σ × Edge) (summary : FlushSummary) :
    ∃ new b' summary', MadeInTurn I b L new b' ∧
      ((registerList v.1 v.2 (p.waiting v.1 v.2) (b, summary) = .done () (b', summary') ∧
          new.map (·.registration.demand) = p.listDemands b.mux.policy v ∧
          summary' = summary.counting (p.waiting v.1 v.2).length
            (new.map (·.registration.demand))) ∨
        (registerList v.1 v.2 (p.waiting v.1 v.2) (b, summary) =
            .failed (.poolExhausted b.mux.subscriptions.pool.capacity) (b', summary') ∧
          b'.mux.subscriptions.pool.free = [] ∧
          new.length < (p.listDemands b.mux.policy v).length ∧
          new.map (·.registration.demand) <+: p.listDemands b.mux.policy v)) := by
  have hsize : ∀ batch ∈ b.mux.policy.split (p.waiting v.1 v.2),
      1 ≤ batch.length ∧ batch.length ≤ batchCapacity := by
    intro batch hb
    obtain ⟨hpos, hmost⟩ := b.mux.policy.length_of_mem_split hb
    exact ⟨hpos, Nat.le_trans hmost b.mux.policy.most_le_capacity⟩
  obtain ⟨new, b', summary', hmade, hcases⟩ :=
    registerBatches_spec hI v.1 v.2 _ b L summary h hsize
  rcases hcases with ⟨heq, hnew, rfl⟩ | ⟨heq, hfree, hlen, hnew⟩
  · refine ⟨new, b', _, hmade, .inl ⟨?_, hnew, rfl⟩⟩
    rw [registerList, heq]
    rfl
  · refine ⟨new, b', summary', hmade, .inr ⟨?_, hfree, ?_, hnew⟩⟩
    · rw [registerList, heq]
      rfl
    · simpa [PendingWaits.listDemands] using hlen

/-- **A drain** registers list after list, until the pool is empty. -/
theorem drainLists_spec (hI : Tracking I) :
    ∀ (lists : List (σ × Edge)) (p : PendingWaits σ) (b : Bench N T σ η)
      (L : List (Holding σ η)) (summary : FlushSummary), lists.Nodup → b.Tracked I L →
      ∃ new b' p' summary', MadeInTurn I b L new b' ∧
        ((PendingWaits.drainLists registerList lists p (b, summary) =
              .done () (p', (b', summary')) ∧
            p' = lists.foldl (fun p v => p.emptyList v.1 v.2) p ∧
            new.map (·.registration.demand) = lists.flatMap (p.listDemands b.mux.policy) ∧
            summary' = summary.counting ((lists.map fun v => (p.waiting v.1 v.2).length).sum)
              (new.map (·.registration.demand))) ∨
          (PendingWaits.drainLists registerList lists p (b, summary) =
              .failed (.poolExhausted b.mux.subscriptions.pool.capacity) (p', (b', summary')) ∧
            b'.mux.subscriptions.pool.free = [] ∧
            ∃ accepted refused, p.StopsAt b.mux.policy lists accepted refused
              (new.map (·.registration.demand)) p')) := by
  intro lists
  induction lists with
  | nil =>
    intro p b L summary _ h
    exact ⟨[], b, p, summary, .nil h, .inl ⟨rfl, rfl, rfl, rfl⟩⟩
  | cons v rest ih =>
    intro p b L summary hnodup h
    obtain ⟨hv, hrest⟩ := List.nodup_cons.mp hnodup
    by_cases hempty : p.waiting v.1 v.2 = []
    · -- a list that is empty is passed over, and asks for nothing
      have hsame := PendingWaits.emptyList_of_waiting_eq_nil hempty
      have hnone : p.listDemands b.mux.policy v = [] :=
        PendingWaits.listDemands_of_waiting_eq_nil hempty
      obtain ⟨new, b', p', summary', hmade, hcases⟩ := ih p b L summary hrest h
      refine ⟨new, b', p', summary', hmade, ?_⟩
      rw [PendingWaits.drainLists, if_pos hempty, List.foldl_cons, hsame, List.flatMap_cons, hnone,
        List.map_cons, hempty, List.sum_cons]
      rcases hcases with ⟨heq, hp, hnew, hsummary⟩ | ⟨heq, hfree, accepted, refused, hstops⟩
      · exact .inl ⟨heq, hp, hnew, by rw [hsummary, List.length_nil, Nat.zero_add]⟩
      · refine .inr ⟨heq, hfree, v :: accepted, refused, ?_⟩
        obtain ⟨⟨unvisited, hlists⟩, ⟨front, hfront, hfewer, hmet⟩, hp⟩ := hstops
        refine ⟨⟨unvisited, by rw [hlists]; rfl⟩, ⟨front, hfront, hfewer, ?_⟩, ?_⟩
        · rw [hmet, List.flatMap_cons, hnone, List.nil_append]
        · rw [hp, List.foldl_cons, hsame]
    obtain ⟨new, b₁, summary₁, hmade, ⟨heq, hnew, hsummary⟩ | ⟨heq, hfree, hlen, hnew⟩⟩ :=
      registerList_spec hI h p v summary
    · -- the lists to come are not touched by taking this one out
      have hother : ∀ w ∈ rest, (p.emptyList v.1 v.2).waiting w.1 w.2 = p.waiting w.1 w.2 := by
        intro w hw
        exact PendingWaits.waiting_emptyList_ne fun hc => hv (hc ▸ hw)
      have hdemands : ∀ w ∈ rest, (p.emptyList v.1 v.2).listDemands b₁.mux.policy w =
          p.listDemands b.mux.policy w := by
        intro w hw
        rw [hmade.frame.policy]
        exact PendingWaits.listDemands_emptyList fun hc => hv (hc ▸ hw)
      obtain ⟨new', b', p', summary', hmade', hcases⟩ :=
        ih (p.emptyList v.1 v.2) b₁ (L ++ new) summary₁ hrest hmade.tracked
      refine ⟨new ++ new', b', p', summary', hmade.trans hmade', ?_⟩
      rw [PendingWaits.drainLists, if_neg hempty, heq, ← hmade.frame.capacity]
      rcases hcases with ⟨heq', hp, hnew', hsummary'⟩ | ⟨heq', hfree, accepted, refused, hstops⟩
      · refine .inl ⟨heq', hp, ?_, ?_⟩
        · rw [List.map_append, hnew, hnew', List.flatMap_cons, List.flatMap_congr hdemands]
        · have hwaits : (rest.map fun w => ((p.emptyList v.1 v.2).waiting w.1 w.2).length) =
              rest.map fun w => (p.waiting w.1 w.2).length :=
            List.map_congr_left fun w hw => congrArg _ (hother w hw)
          rw [hsummary', hsummary, FlushSummary.counting_append, hwaits, List.map_append,
            List.map_cons, List.sum_cons]
      · refine .inr ⟨heq', hfree, v :: accepted, refused, ?_⟩
        obtain ⟨⟨unvisited, hlists⟩, ⟨front, hfront, hfewer, hmet⟩, hp⟩ := hstops
        have hinside : ∀ w ∈ accepted ++ refused :: unvisited,
            (p.emptyList v.1 v.2).listDemands b₁.mux.policy w = p.listDemands b.mux.policy w :=
          hlists ▸ hdemands
        rw [hinside refused (by simp)] at hfront hfewer
        refine ⟨⟨unvisited, by rw [hlists]; rfl⟩, ⟨front, hfront, hfewer, ?_⟩, hp⟩
        rw [List.map_append, hnew, hmet, List.flatMap_cons, List.append_assoc,
          List.flatMap_congr fun w hw => hinside w (List.mem_append_left _ hw)]
    · refine ⟨new, b₁, p, summary₁, hmade, .inr ⟨?_, hfree, [], v, ⟨rest, rfl⟩, ?_, rfl⟩⟩
      · rw [PendingWaits.drainLists, if_neg hempty, heq]
      · exact ⟨_, hnew, by rwa [List.length_map], rfl⟩

/-- The bench with one wait more on record. -/
def afterWait (b : Bench N T σ η) (w : Wait σ) : Bench N T σ η :=
  { b with
    mux := { b.mux with
      pending := b.mux.pending.push w.signal w.edge w.task
      counters := { b.mux.counters with waitsAdded := b.mux.counters.waitsAdded + 1 } } }

omit [NativeLayer N σ η] [LogText η] in
/-- A wait goes to the end of its list, unless it is on it already. -/
theorem addWait_spec (b : Bench N T σ η) (signal : σ) (edge : Edge) (task : TaskId) :
    (task ∈ b.mux.pending.waiting signal edge ∧
      b.addWait signal edge task = .error (.duplicateWait task edge (logText signal))) ∨
    b.addWait signal edge task = .ok (b.afterWait ⟨signal, edge, task⟩) := by
  by_cases htwice : task ∈ b.mux.pending.waiting signal edge
  · left
    rw [addWait, Mux.addWait, PendingWaits.add, if_pos htwice]
    exact ⟨htwice, rfl⟩
  · right
    rw [addWait, Mux.addWait, PendingWaits.add, if_neg htwice]
    rfl

/-- What a flush of an unpoisoned context leads to. -/
inductive FlushResult (I : List (Holding σ η) → Arena σ → N → List RegistrationKey → Prop)
    (b : Bench N T σ η) (L : List (Holding σ η)) (order : VisitOrder σ) :
    Outcome MuxError (Bench N T σ η) FlushSummary → Prop where
  /-- Every registration that was asked for has been made. -/
  | done (new : List (Holding σ η)) (b' : Bench N T σ η) (summary : FlushSummary)
      (tracked : b'.Tracked I (L ++ new)) (frame : Frame b b')
      (pending : b'.mux.pending = b.mux.pending.clear)
      (failed : b'.mux.failed = b.mux.failed)
      (demands : new.map (·.registration.demand) = b.mux.pending.demands b.mux.policy order)
      (issued : b'.log.issued = b.log.issued ++ new.map (·.key))
      (counters : b.mux.counters.Registers 0 new.length (several new) b'.mux.counters) :
      FlushResult I b L order (.done summary b')
  /-- The first few have been made, and the pool is empty. -/
  | failed (new : List (Holding σ η)) (b' : Bench N T σ η) (tracked : b'.Tracked I (L ++ new))
      (frame : Frame b b') (failed : b'.mux.failed = true)
      (free : b'.mux.subscriptions.pool.free = [])
      (fewer : new.length < (b.mux.pending.demands b.mux.policy order).length)
      (demands : new.map (·.registration.demand) <+: b.mux.pending.demands b.mux.policy order)
      (issued : b'.log.issued = b.log.issued ++ new.map (·.key))
      (counters : b.mux.counters.Registers 0 new.length (several new) b'.mux.counters) :
      FlushResult I b L order (.failed (.poolExhausted b.mux.subscriptions.pool.capacity) b')

/-- **A flush** makes the registrations that the pending waits ask for. -/
theorem flush_spec (hI : Tracking I) {b : Bench N T σ η} {L : List (Holding σ η)}
    (h : b.Tracked I L) (hlive : b.mux.isPoisoned = false) (order : VisitOrder σ) :
    FlushResult I b L order (b.flush order) := by
  by_cases hempty : b.mux.pending.isEmpty = true
  · have heq : b.flush order = .done {} b := by simp [flush, hlive, hempty]
    rw [heq]
    refine .done [] b {} ?_ (Frame.refl b) (PendingWaits.clear_of_isEmpty hempty).symm rfl ?_
      (List.append_nil _).symm (.refl _)
    · rwa [List.append_nil]
    · exact (PendingWaits.demands_of_isEmpty hempty).symm
  · obtain ⟨new, b', p', summary', hmade,
        ⟨heq, hp, hnew, -⟩ | ⟨heq, hfree, accepted, refused, hstops⟩⟩ :=
      drainLists_spec hI (b.mux.pending.visits order) b.mux.pending b L {}
        (PendingWaits.nodup_visits _ _) h
    -- every list has been visited, so nothing is pending any more
    · rw [PendingWaits.foldl_emptyList_visits] at hp
      rw [flush, if_neg (by simp [hlive]), if_neg hempty, PendingWaits.drainWith, heq]
      have hflushed : b'.mux.counters.Registers 0 0 0
          { b'.mux.counters with flushes := b'.mux.counters.flushes + 1 } :=
        ⟨rfl, rfl, rfl, rfl, rfl, rfl, rfl, rfl⟩
      refine .done new _ _ (hmade.tracked.congr rfl rfl (Log.issued_push (by simp)))
        (hmade.frame.trans ⟨rfl, rfl, rfl, rfl, rfl⟩) hp hmade.failed hnew
        ((Log.issued_push (by simp)).trans hmade.issued) ?_
      exact hmade.counters.trans hflushed
    · obtain ⟨hnew, hlen⟩ := hstops.made_prefix
      rw [List.length_map] at hlen
      rw [flush, if_neg (by simp [hlive]), if_neg hempty, PendingWaits.drainWith, heq]
      exact .failed new _ (hmade.tracked.congr rfl rfl (Log.issued_push (by simp)))
        (hmade.frame.trans ⟨rfl, rfl, rfl, rfl, rfl⟩) rfl hfree hlen hnew
        ((Log.issued_push (by simp)).trans hmade.issued) hmade.counters

end Bench

end EdgeWait
