/-
To subscribe at once, and to record a wait and flush.

Both ways lead to one registration for one task. They get there on different roads: one makes it
directly, the other through the pending waits, the drain and the split into batches, and it leaves
an empty list behind.

* `flush_one` — a flush with one wait pending makes one registration and sums it up;
* `perform_ahead` — an operation does not see how many flushes have been counted, nor which empty
  lists there are, nor the log;
* `echoes_of_ahead` — nor does a run, which gives the same answers and leads to the same state;
* `exists_alongside` — every run of the one context can be taken on the other as well;
* `waitNow_like_flush` — both ways make the same registration under the same id and key, and the
  contexts they lead to are alike but for one flush more. Without an id left they fail alike, and
  the wait stays pending where it was recorded.

Design notes: that the two contexts answer all further operations alike is a simulation. What it
carries is `Ahead`: the same context but for the counter of flushes and for lists that are empty, on
the same native layer and the same scheduler, with any log. Operations write the counter and the log
and read neither. The lists they do read: a drain looks into every list there is, and passes over
the empty ones. So a drain of one store has no counterpart in the other that visits the same lists;
what `SameAsked` asks for is that both visit the lists that are *not* empty in the same order, and
`SameLists.exists_order` finds one to every order of the other.
-/
import EdgeWait.Proofs.Flushing
import EdgeWait.Proofs.Splitting

namespace EdgeWait

/-! ### Outcomes of the same kind -/

/-- Two outcomes are the same answer, the same error or the same fault, in states related by `D`. -/
inductive Outcome.Same {ε S S' α : Type} (D : S → S' → Prop) :
    Outcome ε S α → Outcome ε S' α → Prop
  | done (a : α) {s : S} {s' : S'} : D s s' → Same D (.done a s) (.done a s')
  | failed (e : ε) {s : S} {s' : S'} : D s s' → Same D (.failed e s) (.failed e s')
  | fault (f : Fault) : Same D (.fault f) (.fault f)

namespace Outcome.Same

variable {ε S S' α β : Type} {D : S → S' → Prop} {o : Outcome ε S α} {o' : Outcome ε S' α}

theorem andThen (h : Same D o o') {next : α → S → Outcome ε S β} {next' : α → S' → Outcome ε S' β}
    (hnext : ∀ a s s', D s s' → Same D (next a s) (next' a s')) :
    Same D (o.andThen next) (o'.andThen next') := by
  cases h with
  | done a hD => exact hnext a _ _ hD
  | failed e hD => exact .failed e hD
  | fault f => exact .fault f

/-- But for their states they are the same. -/
theorem mapState_eq (h : Same D o o') :
    o'.mapState (fun _ => ()) = o.mapState (fun _ => ()) := by
  cases h <;> rfl

/-- There is a state after an answer and after an error, and none after a fault. -/
theorem final (h : Same D o o') : (∃ f, o.final = .error f ∧ o'.final = .error f) ∨
    ∃ s s', o.final = .ok s ∧ o'.final = .ok s' ∧ D s s' := by
  cases h with
  | done a hD => exact .inr ⟨_, _, rfl, rfl, hD⟩
  | failed e hD => exact .inr ⟨_, _, rfl, rfl, hD⟩
  | fault f => exact .inl ⟨f, rfl, rfl⟩

end Outcome.Same

/-! ### Lists that are not empty -/

namespace PendingWaits

variable {σ : Type} [DecidableEq σ]

/-- The same tasks are on every list of two stores, in the same order.  A list that is empty in one
of them may be missing in the other. -/
structure SameLists (p p' : PendingWaits σ) : Prop where
  waiting : ∀ signal edge, p'.waiting signal edge = p.waiting signal edge
  size : p'.size = p.size

theorem sameLists_of_waiting {p p' : PendingWaits σ}
    (h : ∀ signal edge, p'.waiting signal edge = p.waiting signal edge) : SameLists p p' :=
  ⟨h, size_eq_of_waiting h⟩

theorem SameLists.push {p p' : PendingWaits σ} (h : SameLists p p') (w : Wait σ) :
    SameLists (p.push w.signal w.edge w.task) (p'.push w.signal w.edge w.task) :=
  sameLists_of_waiting fun s e => by rw [waiting_push, waiting_push, h.waiting]

theorem SameLists.emptyList {p p' : PendingWaits σ} (h : SameLists p p') (v : σ × Edge) :
    SameLists (p.emptyList v.1 v.2) (p'.emptyList v.1 v.2) :=
  sameLists_of_waiting fun s e => by rw [waiting_emptyList, waiting_emptyList, h.waiting]

theorem SameLists.clear (p p' : PendingWaits σ) : SameLists p.clear p'.clear :=
  sameLists_of_waiting fun s e => by rw [waiting_clear, waiting_clear]

theorem SameLists.isEmpty_eq {p p' : PendingWaits σ} (h : SameLists p p') :
    p'.isEmpty = p.isEmpty := by
  rw [isEmpty, isEmpty, h.size]

/-- Edge by edge, the lists that a drain finds something in. -/
theorem filled_visits (p : PendingWaits σ) (order : VisitOrder σ) :
    p.filled (p.visits order) = Edge.all.flatMap fun edge =>
      ((order.arrange edge (p.signals edge)).filter fun s => p.waiting s edge ≠ []).map
        fun s => (s, edge) := by
  rw [filled, visits, List.filter_flatMap]
  refine List.flatMap_congr fun edge _ => ?_
  rw [List.filter_map]
  rfl

/-- In one store the lists that are not empty can be visited as they are in the other. -/
theorem SameLists.exists_order {p p' : PendingWaits σ} (h : SameLists p p')
    (order : VisitOrder σ) :
    ∃ order', p'.filled (p'.visits order') = p.filled (p.visits order) := by
  -- they come first, in the order of the other store, and then the empty ones
  let first := fun edge => (order.arrange edge (p.signals edge)).filter fun s =>
    p.waiting s edge ≠ []
  let rest := fun edge => (p'.signals edge).filter fun s => !decide (p.waiting s edge ≠ [])
  have hperm : ∀ edge, (first edge ++ rest edge).Perm (p'.signals edge) := by
    intro edge
    have hfirst : (first edge).Perm ((p'.signals edge).filter fun s => p.waiting s edge ≠ []) := by
      have harranged := order.arrange_perm edge (p.signals edge)
      refine (List.perm_ext_iff_of_nodup
        ((harranged.nodup_iff.mpr (p.nodup_signals edge)).filter _)
        ((p'.nodup_signals edge).filter _)).mpr fun s => ?_
      rw [List.mem_filter, List.mem_filter, harranged.mem_iff]
      refine and_congr_left fun hs => ?_
      have hwaiting : p.waiting s edge ≠ [] := of_decide_eq_true hs
      constructor
      · exact fun _ => Decidable.not_not.mp fun hc =>
          hwaiting ((h.waiting s edge).symm.trans (waiting_eq_nil hc))
      · exact fun _ => Decidable.not_not.mp fun hc => hwaiting (waiting_eq_nil hc)
    exact (hfirst.append_right _).trans (List.filter_append_perm _ _)
  refine ⟨⟨fun edge signals =>
    if signals = p'.signals edge then first edge ++ rest edge else signals,
    fun edge signals => ?_⟩, ?_⟩
  · split
    case isTrue heq => exact heq ▸ hperm edge
    case isFalse => exact .refl _
  · rw [filled_visits, filled_visits]
    refine List.flatMap_congr fun edge _ => ?_
    have hrest : (rest edge).filter (fun s => decide (p.waiting s edge ≠ [])) = [] := by
      rw [List.filter_filter, List.filter_eq_nil_iff]
      simp
    simp only [if_pos, h.waiting]
    rw [List.filter_append, hrest, List.append_nil, List.filter_filter]
    simp only [Bool.and_self]

/-- One wait makes one list that is not empty, in whatever order signals are visited. -/
theorem filled_visits_push {p : PendingWaits σ} (hp : p.isEmpty = true) (w : Wait σ)
    (order : VisitOrder σ) : (p.push w.signal w.edge w.task).filled
      ((p.push w.signal w.edge w.task).visits order) = [(w.signal, w.edge)] := by
  have hnodup := ((p.push w.signal w.edge w.task).nodup_visits order).filter
    fun v => decide ((p.push w.signal w.edge w.task).waiting v.1 v.2 ≠ [])
  refine List.perm_singleton.mp ((List.perm_ext_iff_of_nodup hnodup
    (List.nodup_singleton _)).mpr fun v => ?_)
  rw [List.mem_filter, List.mem_singleton, decide_eq_true_iff, waiting_push,
    isEmpty_iff.mp hp v.1 v.2]
  constructor
  · rintro ⟨-, hne⟩
    by_contra hv
    exact hne (if_neg fun hc => hv hc.symm)
  · rintro rfl
    have hne : (p.push w.signal w.edge w.task).waiting w.signal w.edge ≠ [] := by
      rw [waiting_push, if_pos rfl]
      simp
    exact ⟨visited_of_waiting_ne_nil hne, by rw [if_pos rfl]; simp⟩

/-- So one wait asks for one registration. -/
theorem demands_push {policy : BatchPolicy} {p : PendingWaits σ} (hp : p.isEmpty = true)
    (w : Wait σ) (order : VisitOrder σ) : (p.push w.signal w.edge w.task).demands policy order =
      [⟨w.signal, w.edge, [w.task], .oneShot⟩] := by
  rw [demands_eq_flatMap_filled, filled_visits_push hp, List.flatMap_singleton, listDemands,
    waiting_push, if_pos rfl, isEmpty_iff.mp hp, List.nil_append, BatchPolicy.split_singleton]
  rfl

end PendingWaits

/-! ### The state but for the counter of flushes -/

namespace Bench

section Ahead

variable {N T σ η : Type} [DecidableEq σ] {k : Nat} {b b' : Bench N T σ η}

/-- The second bench is the first one with `k` flushes more counted, and with a log of its own.  It
may have kept other lists that are empty. -/
structure Ahead (k : Nat) (b b' : Bench N T σ η) : Prop where
  policy : b'.mux.policy = b.mux.policy
  unknownAsZero : b'.mux.unknownAsZero = b.mux.unknownAsZero
  pending : b.mux.pending.SameLists b'.mux.pending
  subscriptions : b'.mux.subscriptions = b.mux.subscriptions
  bridge : b'.mux.bridge = b.mux.bridge
  counters : b'.mux.counters = { b.mux.counters with flushes := b.mux.counters.flushes + k }
  failed : b'.mux.failed = b.mux.failed
  native : b'.native = b.native
  scheduler : b'.scheduler = b.scheduler

theorem Ahead.note (h : Ahead k b b') (entry entry' : LogEntry) :
    Ahead k (b.note entry) (b'.note entry') := { h with }

/-- A change of the counters that does not depend on the number of flushes. -/
theorem Ahead.count (h : Ahead k b b') {f : Counters → Counters}
    (hf : ∀ c : Counters, f { c with flushes := c.flushes + k } =
      { f c with flushes := (f c).flushes + k }) : Ahead k (b.count f) (b'.count f) :=
  { h with counters := (congrArg f h.counters).trans (hf _) }

theorem Ahead.withSubscriptions (h : Ahead k b b') (s : Subscriptions σ η) (native : N) :
    Ahead k (b.withSubscriptions s native) (b'.withSubscriptions s native) :=
  { h with subscriptions := rfl, native := rfl }

omit [DecidableEq σ] in
/-- The bench with other waits pending. -/
def withPending (b : Bench N T σ η) (pending : PendingWaits σ) : Bench N T σ η :=
  { b with mux := { b.mux with pending } }

theorem Ahead.withPending (h : Ahead k b b') {p p' : PendingWaits σ} (hp : p.SameLists p') :
    Ahead k (b.withPending p) (b'.withPending p') :=
  { h with pending := hp }

theorem Ahead.poison (h : Ahead k b b') (e : MuxError) : Ahead k (b.poison e) (b'.poison e) :=
  { h with failed := rfl }

theorem Ahead.isPoisoned (h : Ahead k b b') : b'.mux.isPoisoned = b.mux.isPoisoned := by
  rw [Mux.isPoisoned, h.failed, h.bridge, Mux.isPoisoned]

theorem Ahead.observe (h : Ahead k b b') (value : Logic) :
    b'.mux.observe value = b.mux.observe value := by
  rw [Mux.observe, h.unknownAsZero, Mux.observe]

theorem Ahead.registration? (h : Ahead k b b') (key : RegistrationKey) :
    b'.mux.registration? key = b.mux.registration? key := by
  rw [Mux.registration?, h.subscriptions, Mux.registration?]

theorem Ahead.afterWait (h : Ahead k b b') (w : Wait σ) :
    Ahead k (b.afterWait w) (b'.afterWait w) :=
  { h.count (f := fun c => { c with waitsAdded := c.waitsAdded + 1 }) fun _ => rfl with
    pending := h.pending.push w }

end Ahead

/-! ### Operations on the two benches -/

section Registering

variable {N T σ η : Type} [NativeLayer N σ η] [LogText σ] [LogText η] [DecidableEq σ] {k : Nat}
  {b b' : Bench N T σ η}

theorem register_ahead (h : Ahead k b b') (signal : σ) (edge : Edge) (tasks : List TaskId)
    (mode : Mode) : (b.register signal edge tasks mode).Same (Ahead k)
      (b'.register signal edge tasks mode) := by
  rw [register, register, h.subscriptions, h.native]
  cases b.mux.subscriptions.subscribe b.native signal edge tasks mode with
  | error f => exact .fault f
  | ok answer =>
    cases answer with
    | none => exact .failed _ h
    | some o => exact .done _ (((h.withSubscriptions _ _).count fun _ => rfl).note _ _)

theorem registerBatches_ahead (signal : σ) (edge : Edge) (batches : List (List TaskId)) :
    ∀ {b b' : Bench N T σ η} (summary : FlushSummary), Ahead k b b' →
      (registerBatches signal edge batches (b, summary)).Same
        (fun s s' => Ahead k s.1 s'.1 ∧ s'.2 = s.2)
        (registerBatches signal edge batches (b', summary)) := by
  induction batches with
  | nil => exact fun summary h => .done () ⟨h, rfl⟩
  | cons batch rest ih =>
    intro b b' summary h
    have hone := register_ahead h signal edge batch .oneShot
    rw [registerBatches, registerBatches]
    generalize b.register signal edge batch .oneShot = o at hone
    generalize b'.register signal edge batch .oneShot = o' at hone
    cases hone with
    | done key h' => exact ih _ h'
    | failed e h' => exact .failed e ⟨h', rfl⟩
    | fault f => exact .fault f

theorem registerList_ahead (signal : σ) (edge : Edge) (tasks : List TaskId)
    (summary : FlushSummary) (h : Ahead k b b') :
    (registerList signal edge tasks (b, summary)).Same
      (fun s s' => Ahead k s.1 s'.1 ∧ s'.2 = s.2)
      (registerList signal edge tasks (b', summary)) := by
  rw [registerList, registerList, h.policy]
  refine (registerBatches_ahead signal edge _ summary h).andThen ?_
  rintro _ ⟨b, summary⟩ ⟨b', summary'⟩ ⟨h', rfl⟩
  exact .done () ⟨h', rfl⟩

theorem drainLists_ahead (lists : List (σ × Edge)) :
    ∀ {b b' : Bench N T σ η} {p p' : PendingWaits σ} (summary : FlushSummary), Ahead k b b' →
      p.SameLists p' →
      (PendingWaits.drainLists registerList lists p (b, summary)).Same
        (fun s s' => s.1.SameLists s'.1 ∧ Ahead k s.2.1 s'.2.1 ∧ s'.2.2 = s.2.2)
        (PendingWaits.drainLists registerList lists p' (b', summary)) := by
  induction lists with
  | nil => exact fun summary h hp => .done () ⟨hp, h, rfl⟩
  | cons list rest ih =>
    intro b b' p p' summary h hp
    rw [PendingWaits.drainLists, PendingWaits.drainLists, hp.waiting]
    by_cases hempty : p.waiting list.1 list.2 = []
    · rw [if_pos hempty, if_pos hempty]
      exact ih summary h hp
    · rw [if_neg hempty, if_neg hempty]
      have hone := registerList_ahead list.1 list.2 (p.waiting list.1 list.2) summary h
      generalize registerList list.1 list.2 (p.waiting list.1 list.2) (b, summary) = o at hone
      generalize registerList list.1 list.2 (p.waiting list.1 list.2) (b', summary) = o' at hone
      cases hone with
      | @done _ s s' hs =>
        obtain ⟨b, summary⟩ := s
        obtain ⟨b', summary'⟩ := s'
        obtain ⟨h', rfl⟩ := hs
        exact ih summary' h' (hp.emptyList list)
      | failed e hs => exact .failed e ⟨hp, hs⟩
      | fault f => exact .fault f

/-- **A flush** goes the same way, if the lists that are not empty are visited in the same order. -/
theorem flush_ahead (h : Ahead k b b') {order order' : VisitOrder σ}
    (hvisits : b'.mux.pending.filled (b'.mux.pending.visits order') =
      b.mux.pending.filled (b.mux.pending.visits order)) :
    (b.flush order).Same (Ahead k) (b'.flush order') := by
  rw [flush, flush, h.isPoisoned, h.pending.isEmpty_eq]
  split
  · exact .failed _ h
  · split
    · exact .done _ h
    · have hdrain := drainLists_ahead (b.mux.pending.filled (b.mux.pending.visits order)) {} h
        h.pending
      rw [PendingWaits.drainWith, PendingWaits.drainWith,
        PendingWaits.drainLists_filled _ (b.mux.pending.nodup_visits order),
        PendingWaits.drainLists_filled _ (b'.mux.pending.nodup_visits order'), hvisits]
      generalize PendingWaits.drainLists registerList _ b.mux.pending (b, {}) = o at hdrain
      generalize PendingWaits.drainLists registerList _ b'.mux.pending (b', {}) = o' at hdrain
      cases hdrain with
      | @done _ s s' hs =>
        obtain ⟨p, b, summary⟩ := s
        obtain ⟨p', b', summary'⟩ := s'
        obtain ⟨hp, h', rfl⟩ := hs
        refine .done _ (((h'.withPending hp).count fun c => ?_).note _ _)
        rw [Nat.add_right_comm]
      | @failed e s s' hs =>
        obtain ⟨p, b, summary⟩ := s
        obtain ⟨p', b', summary'⟩ := s'
        obtain ⟨hp, h', rfl⟩ := hs
        exact .failed e ((h'.withPending hp).poison e)
      | fault f => exact .fault f

theorem registerSingle_ahead (h : Ahead k b b') (signal : σ) (edge : Edge) (task : TaskId)
    (mode : Mode) : (b.registerSingle signal edge task mode).Same (Ahead k)
      (b'.registerSingle signal edge task mode) := by
  rw [registerSingle, registerSingle, h.isPoisoned]
  split
  · exact .failed _ h
  · have hone := register_ahead (h.count (f := fun c => { c with waitsAdded := c.waitsAdded + 1 })
      fun _ => rfl) signal edge [task] mode
    dsimp only
    generalize (b.count _).register signal edge [task] mode = o at hone
    generalize (b'.count _).register signal edge [task] mode = o' at hone
    cases hone with
    | done key h' => exact .done key h'
    | failed e h' => exact .failed e (h'.poison e)
    | fault f => exact .fault f

omit [NativeLayer N σ η] [LogText η] in
/-- A wait is put on record unless it is there already. -/
theorem addWait_eq (b : Bench N T σ η) (signal : σ) (edge : Edge)
    (task : TaskId) : b.addWait signal edge task =
      if task ∈ b.mux.pending.waiting signal edge then
        .error (.duplicateWait task edge (logText signal))
      else .ok (b.afterWait ⟨signal, edge, task⟩) := by
  rw [addWait, Mux.addWait, PendingWaits.add]
  split <;> rfl

end Registering

section Removing

variable {N T σ η : Type} [NativeLayer N σ η] [DecidableEq σ] {k : Nat} {b b' : Bench N T σ η}

theorem tearDown_ahead {ε : Type} (h : Ahead k b b') (key : RegistrationKey) :
    (Outcome.ofExcept (ε := ε) (b.tearDown key)).Same (Ahead k)
      (Outcome.ofExcept (b'.tearDown key)) := by
  rw [tearDown, tearDown, h.subscriptions, h.native]
  cases b.mux.subscriptions.unsubscribe b.native key with
  | error f => exact .fault f
  | ok answer =>
    cases answer with
    | none => exact .done _ h
    | some closed => exact .done _ (h.withSubscriptions _ _)

theorem cancel_ahead {ε : Type} (h : Ahead k b b') (key : RegistrationKey) :
    (Outcome.ofExcept (ε := ε) (b.cancel key)).Same (Ahead k)
      (Outcome.ofExcept (b'.cancel key)) := by
  have hended := tearDown_ahead (ε := ε) h key
  rw [cancel, cancel]
  generalize b.tearDown key = o at hended
  generalize b'.tearDown key = o' at hended
  rcases o with f | ⟨_ | r, c⟩ <;> rcases o' with f' | ⟨_ | r', c'⟩ <;> cases hended
  · exact .fault _
  · exact .done _ ‹_›
  · exact .done _ ((Ahead.count ‹_› fun _ => rfl).note _ _)

theorem tearDownAll_ahead {ε : Type} (keys : List RegistrationKey) :
    ∀ {b b' : Bench N T σ η}, Ahead k b b' →
      (Outcome.ofExcept (ε := ε) ((tearDownAll keys b).map fun c => ((), c))).Same (Ahead k)
        (Outcome.ofExcept ((tearDownAll keys b').map fun c => ((), c))) := by
  induction keys with
  | nil => exact fun h => .done () h
  | cons key rest ih =>
    intro b b' h
    have hone := tearDown_ahead (ε := ε) h key
    rw [tearDownAll, tearDownAll]
    generalize b.tearDown key = o at hone
    generalize b'.tearDown key = o' at hone
    rcases o with f | ⟨r, c⟩ <;> rcases o' with f' | ⟨r', c'⟩ <;> cases hone
    · exact .fault _
    · exact ih ‹_›

theorem shutdown_ahead {ε : Type} (h : Ahead k b b') :
    (Outcome.ofExcept (ε := ε) b.shutdown).Same (Ahead k) (Outcome.ofExcept b'.shutdown) := by
  have hall := tearDownAll_ahead (ε := ε) b.mux.subscriptions.arena.keys
    (h.withPending (.clear b.mux.pending b'.mux.pending))
  have hcleared : ∀ c : Bench N T σ η,
      { c with mux := { c.mux with pending := c.mux.pending.clear } } =
        c.withPending c.mux.pending.clear :=
    fun _ => rfl
  rw [shutdown, shutdown]
  dsimp only
  rw [hcleared, hcleared, h.subscriptions]
  generalize tearDownAll b.mux.subscriptions.arena.keys (b.withPending _) = o at hall
  generalize tearDownAll b.mux.subscriptions.arena.keys (b'.withPending _) = o' at hall
  cases o <;> cases o' <;> cases hall
  · exact .fault _
  · exact .done _ ((Ahead.count ‹_› fun _ => rfl).note _ _)

end Removing

section Delivering

variable {N T σ η : Type} [NativeLayer N σ η] [Scheduler T] [DecidableEq σ] {k : Nat}
  {b b' : Bench N T σ η}

omit [NativeLayer N σ η] in
theorem dispatch_ahead (h : Ahead k b b') (tasks : List TaskId) :
    (b.dispatch tasks).Same (Ahead k) (b'.dispatch tasks) := by
  rw [dispatch, dispatch, Bridge.dispatch, Bridge.dispatch, h.bridge, h.scheduler]
  split
  · exact .failed _ { h with bridge := rfl, scheduler := rfl }
  · dsimp only
    rcases Scheduler.scheduleMany b.scheduler tasks with ⟨cause | -, scheduler⟩
    · exact .failed _ { h with bridge := rfl, scheduler := rfl }
    · exact .done _ { h with bridge := rfl, scheduler := rfl }

theorem deliver_ahead (h : Ahead k b b') (key : RegistrationKey) (value : Logic) :
    (b.deliver key value).Same (Ahead k) (b'.deliver key value) := by
  have hnotified : Ahead k (b.count fun c => { c with notifications := c.notifications + 1 })
      (b'.count fun c => { c with notifications := c.notifications + 1 }) := h.count fun _ => rfl
  rw [deliver, deliver, h.isPoisoned]
  split
  · exact .failed _ h
  · dsimp only
    rw [hnotified.observe, hnotified.registration?]
    generalize (b.count fun c => { c with notifications := c.notifications + 1 }) = c at hnotified
    generalize (b'.count fun c => { c with notifications := c.notifications + 1 }) = c'
      at hnotified
    cases c.mux.registration? key with
    | none => exact .done _ ((hnotified.count fun _ => rfl).note _ _)
    | some r =>
      dsimp only
      split
      · -- a one-shot registration is ended first, and then its tasks are handed over
        have hfire : ∀ {d d' : Bench N T σ η}, Ahead k d d' → Outcome.Same (Ahead k)
            ((((d.count fun c => { c with fired := c.fired + 1 }).note
                (.fired key (c.mux.observe value) r.tasks.length)).dispatch r.tasks).andThen
              fun _ d => .done (.fired r.tasks.length) d)
            ((((d'.count fun c => { c with fired := c.fired + 1 }).note
                (.fired key (c.mux.observe value) r.tasks.length)).dispatch r.tasks).andThen
              fun _ d => .done (Delivery.fired r.tasks.length) d) := by
          intro d d' hd
          exact (dispatch_ahead ((hd.count fun _ => rfl).note _ _) r.tasks).andThen
            fun _ _ _ hd => .done _ hd
        by_cases hmode : r.mode = .oneShot
        · rw [if_pos hmode, if_pos hmode]
          have hended := tearDown_ahead (ε := MuxError) hnotified key
          generalize c.tearDown key = o at hended
          generalize c'.tearDown key = o' at hended
          rcases o with f | ⟨_, d⟩ <;> rcases o' with f' | ⟨_, d'⟩ <;> cases hended
          · exact .fault _
          · exact hfire ‹_›
        · rw [if_neg hmode, if_neg hmode]
          exact hfire hnotified
      · exact .done _ (hnotified.count fun _ => rfl)

end Delivering

/-! ### Runs from the two benches -/

section Operations

variable {N T σ η : Type} [NativeLayer N σ η] [Scheduler T] [DecidableEq σ] [LogText σ] [LogText η]
  {k : Nat}

/-- The same is asked of two contexts.  If it is a flush, both visit the lists that are not empty in
the same order. -/
inductive SameAsked (p p' : PendingWaits σ) : Op σ → Op σ → Prop where
  | flush (order order' : VisitOrder σ)
      (visits : p'.filled (p'.visits order') = p.filled (p.visits order)) :
      SameAsked p p' (.flush order) (.flush order')
  | other (o : Op σ) (no_flush : ∀ order, o ≠ .flush order) : SameAsked p p' o o

/-- **No operation sees the counter of flushes, nor empty lists**: on the two benches it gives the
same answer, the same error or the same fault. -/
theorem perform_ahead {b b' : Bench N T σ η} (h : Ahead k b b') {op op' : Op σ}
    (hasked : SameAsked b.mux.pending b'.mux.pending op op') :
    (b.perform op).Same (Ahead k) (b'.perform op') := by
  cases hasked with
  | flush order order' hvisits => exact (flush_ahead h hvisits).andThen fun _ _ _ h => .done _ h
  | other _ hother =>
    cases op with
    | addWait signal edge task =>
      rw [perform, perform, addWait_eq, addWait_eq, h.pending.waiting]
      by_cases htwice : task ∈ b.mux.pending.waiting signal edge
      · rw [if_pos htwice, if_pos htwice]
        exact .fault _
      · rw [if_neg htwice, if_neg htwice]
        exact .done _ (h.afterWait _)
    | flush order => exact absurd rfl (hother order)
    | waitNow signal edge task =>
      exact (registerSingle_ahead h signal edge task .oneShot).andThen fun _ _ _ h => .done _ h
    | watch signal edge task =>
      exact (registerSingle_ahead h signal edge task .persistent).andThen fun _ _ _ h => .done _ h
    | deliver key value => exact (deliver_ahead h key value).andThen fun _ _ _ h => .done _ h
    | cancel key =>
      have hsame := cancel_ahead (ε := MuxError) h key
      rw [perform, perform]
      generalize b.cancel key = o at hsame
      generalize b'.cancel key = o' at hsame
      rcases o with f | ⟨found, c⟩ <;> rcases o' with f' | ⟨found', c'⟩ <;> cases hsame
      · exact .fault _
      · exact .done _ ‹_›
    | shutdown =>
      have hsame := shutdown_ahead (ε := MuxError) h
      rw [perform, perform]
      generalize b.shutdown = o at hsame
      generalize b'.shutdown = o' at hsame
      rcases o with f | ⟨count, c⟩ <;> rcases o' with f' | ⟨count', c'⟩ <;> cases hsame
      · exact .fault _
      · exact .done _ ‹_›

omit [NativeLayer N σ η] [Scheduler T] [LogText σ] [LogText η] in
theorem Ahead.exists_asked {b b' : Bench N T σ η} (h : Ahead k b b') (op : Op σ) :
    ∃ op', SameAsked b.mux.pending b'.mux.pending op op' := by
  cases op with
  | flush order =>
    obtain ⟨order', hvisits⟩ := h.pending.exists_order order
    exact ⟨_, .flush order order' hvisits⟩
  | _ => exact ⟨_, .other _ nofun⟩

/-- In two runs the same turns are taken, and each flush visits the lists that are not empty in the
same order in both. -/
inductive Alongside : List (Turn N T σ) → List (Turn N T σ) → RecordedBench N T σ η →
    RecordedBench N T σ η → Prop where
  | nil (b b' : RecordedBench N T σ η) : Alongside [] [] b b'
  | others {turns turns' : List (Turn N T σ)} {b b' : RecordedBench N T σ η} (native : N → N)
      (scheduler : T → T)
      (rest : Alongside turns turns' (b.beside native scheduler) (b'.beside native scheduler)) :
      Alongside (.others native scheduler :: turns) (.others native scheduler :: turns') b b'
  | op {turns turns' : List (Turn N T σ)} {b b' : RecordedBench N T σ η} {o o' : Op σ}
      (first : SameAsked b.mux.pending b'.mux.pending o o')
      (rest : ∀ c c', (b.perform o).final = .ok c → (b'.perform o').final = .ok c' →
        Alongside turns turns' c c') :
      Alongside (.op o :: turns) (.op o' :: turns') b b'

/-- What the operations of a run answer, in turn; an outcome stands here without its state. A fault
is the last of them. -/
def replies : List (Turn N T σ) → RecordedBench N T σ η → List (Outcome MuxError Unit Answer)
  | [], _ => []
  | .others native scheduler :: rest, b => replies rest (b.beside native scheduler)
  | .op o :: rest, b =>
    (b.perform o).mapState (fun _ => ()) ::
      match (b.perform o).final with
      | .error _ => []
      | .ok b => replies rest b

/-- A run from the second bench answers as one from the first does, and ends in the same fault or in
a state that is the same but for the flushes counted. -/
structure Echoes (k : Nat) (turns turns' : List (Turn N T σ)) (b b' : RecordedBench N T σ η) :
    Prop where
  replies : replies turns' b' = replies turns b
  ends : (∃ f, after turns b = .error f ∧ after turns' b' = .error f) ∨
    ∃ c c', after turns b = .ok c ∧ after turns' b' = .ok c' ∧ Ahead k c c'

omit [NativeLayer N σ η] [Scheduler T] [LogText σ] [LogText η] in
theorem Ahead.beside {b b' : RecordedBench N T σ η} (h : Ahead k b b') (native : N → N)
    (scheduler : T → T) : Ahead k (b.beside native scheduler) (b'.beside native scheduler) :=
  { h with
    native := by rw [Bench.beside, h.native, Bench.beside]
    scheduler := by rw [Bench.beside, h.scheduler, Bench.beside] }

/-- **Runs from the two benches** answer alike, turn by turn. -/
theorem echoes_of_ahead {turns turns' : List (Turn N T σ)} {b b' : RecordedBench N T σ η}
    (hturns : Alongside turns turns' b b') : Ahead k b b' → Echoes k turns turns' b b' := by
  induction hturns with
  | nil b b' => exact fun h => ⟨rfl, .inr ⟨b, b', rfl, rfl, h⟩⟩
  | others native scheduler _ ih =>
    intro h
    exact ⟨(ih (h.beside native scheduler)).replies, (ih (h.beside native scheduler)).ends⟩
  | @op turns turns' b b' o o' hfirst _ ih =>
    intro h
    have hstep := perform_ahead h hfirst
    -- a run goes on after an error, from the state that the error has left
    obtain ⟨f, hf, hf'⟩ | ⟨c, c', hc, hc', h'⟩ := hstep.final
    · refine ⟨?_, .inl ⟨f, ?_, ?_⟩⟩
      · rw [Bench.replies, Bench.replies, hstep.mapState_eq, hf, hf']
      · rw [after, turn, hf]
      · rw [after, turn, hf']
    · have hrest := ih c c' hc hc' h'
      refine ⟨?_, ?_⟩
      · rw [Bench.replies, Bench.replies, hstep.mapState_eq, hc, hc']
        exact congrArg (_ :: ·) hrest.replies
      · rw [after, after, turn, turn, hc, hc']
        exact hrest.ends

/-- Every run from the first bench can be taken from the second one as well. -/
theorem exists_alongside (turns : List (Turn N T σ)) :
    ∀ {b b' : RecordedBench N T σ η}, Ahead k b b' → ∃ turns', Alongside turns turns' b b' := by
  induction turns with
  | nil => exact fun {b b'} _ => ⟨[], .nil b b'⟩
  | cons t rest ih =>
    intro b b' h
    cases t with
    | others native scheduler =>
      obtain ⟨rest', hrest⟩ := ih (h.beside native scheduler)
      exact ⟨_, .others native scheduler hrest⟩
    | op o =>
      obtain ⟨o', hasked⟩ := h.exists_asked o
      obtain ⟨f, hf, -⟩ | ⟨c, c', hc, hc', h'⟩ := (perform_ahead h hasked).final
      · -- after a fault there is nothing to take
        refine ⟨.op o' :: rest, .op hasked fun d _ hd _ => ?_⟩
        cases hf.symm.trans hd
      · obtain ⟨rest', hrest⟩ := ih h'
        refine ⟨.op o' :: rest', .op hasked fun d d' hd hd' => ?_⟩
        obtain rfl := Except.ok.inj (hc.symm.trans hd)
        obtain rfl := Except.ok.inj (hc'.symm.trans hd')
        exact hrest

end Operations

/-! ### One wait, at once or with the next flush -/

section OneWait

variable {N T σ η : Type} [NativeLayer N σ η] [LogText σ] [LogText η] [DecidableEq σ]

omit [DecidableEq σ] in
/-- A registration does not look at the pending waits. -/
theorem register_withPending (b : Bench N T σ η) (p : PendingWaits σ) (signal : σ) (edge : Edge)
    (tasks : List TaskId) (mode : Mode) : (b.withPending p).register signal edge tasks mode =
      (b.register signal edge tasks mode).mapState (·.withPending p) := by
  have hsubscriptions : (b.withPending p).mux.subscriptions = b.mux.subscriptions := rfl
  have hnative : (b.withPending p).native = b.native := rfl
  rw [register, register, hsubscriptions, hnative]
  cases b.mux.subscriptions.subscribe b.native signal edge tasks mode with
  | error f => rfl
  | ok answer => cases answer <;> rfl

/-- **A flush with one wait pending** makes one registration for its task, and sums it up. -/
theorem flush_one {b : Bench N T σ η} (hlive : b.mux.isPoisoned = false)
    {p : PendingWaits σ} (hp : p.isEmpty = true) (w : Wait σ) (order : VisitOrder σ) :
    (b.withPending (p.push w.signal w.edge w.task)).flush order =
      match b.register w.signal w.edge [w.task] .oneShot with
      | .fault f => .fault f
      | .failed e b => .failed e ((b.withPending (p.push w.signal w.edge w.task)).poison e)
      | .done _ b => .done ⟨1, 1, 1⟩
        (((b.withPending (p.push w.signal w.edge w.task).clear).count fun c =>
          { c with flushes := c.flushes + 1 }).note (.flushed ⟨1, 1, 1⟩)) := by
  set pushed := p.push w.signal w.edge w.task with hpushed
  have hlive' : ¬ (b.withPending pushed).mux.isPoisoned = true := by
    rw [show (b.withPending pushed).mux.isPoisoned = b.mux.isPoisoned from rfl, hlive]
    exact Bool.false_ne_true
  have hfilled : pushed.filled (pushed.visits order) = [(w.signal, w.edge)] :=
    PendingWaits.filled_visits_push hp w order
  have hwaiting : pushed.waiting w.signal w.edge = [w.task] := by
    rw [hpushed, PendingWaits.waiting_push, if_pos rfl, PendingWaits.isEmpty_iff.mp hp,
      List.nil_append]
  -- what is emptied then is all that there is
  have hdropped : pushed.emptyList w.signal w.edge = pushed.clear := by
    change [(w.signal, w.edge)].foldl (fun p v => p.emptyList v.1 v.2) pushed = pushed.clear
    refine PendingWaits.foldl_emptyList_eq_clear fun s e hs => ?_
    rw [← hfilled]
    exact List.mem_filter.mpr ⟨PendingWaits.visited_of_waiting_ne_nil (v := (s, e)) hs,
      decide_eq_true hs⟩
  have hfull : ¬ (b.withPending pushed).mux.pending.isEmpty = true := by
    intro hc
    have hnil := PendingWaits.isEmpty_iff.mp hc w.signal w.edge
    rw [show (b.withPending pushed).mux.pending = pushed from rfl, hwaiting] at hnil
    cases hnil
  have hpending : (b.withPending pushed).mux.pending = pushed := rfl
  rw [flush, if_neg hlive', if_neg hfull, hpending, PendingWaits.drainWith,
    PendingWaits.drainLists_filled _ (pushed.nodup_visits order), hfilled, PendingWaits.drainLists,
    hwaiting, if_neg (List.cons_ne_nil _ _), registerList, BatchPolicy.split_singleton,
    registerBatches, register_withPending]
  cases b.register w.signal w.edge [w.task] .oneShot with
  | fault f => rfl
  | failed e b => rfl
  | done key b =>
    simp only [Outcome.mapState, registerBatches, Outcome.andThen, PendingWaits.drainLists,
      hdropped]
    rfl

/-- What comes of a wait on a context without pending waits: of a subscription at once, and of a
record of it with the flush after. -/
inductive EitherWay [Scheduler T] (b : RecordedBench N T σ η) (w : Wait σ) :
    Outcome MuxError (RecordedBench N T σ η) RegistrationKey →
      Outcome MuxError (RecordedBench N T σ η) FlushSummary → Prop where
  /-- Both have made the registration `r`, with one call to the native layer, and what comes of the
  two contexts is the same but for one flush. -/
  | subscribed (key : RegistrationKey) (handle : η) (r : Registration σ)
      (b₁ b₂ : RecordedBench N T σ η)
      (free : 0 < b.mux.subscriptions.pool.available)
      (fresh : b.mux.registration? key = none)
      (registered : b₁.mux.registration? key = some r)
      (demand : r.demand = ⟨w.signal, w.edge, [w.task], .oneShot⟩)
      (calls : b₁.native.calls =
        b.native.calls ++ [.subscribed w.signal w.edge.condition key handle])
      (live : b₁.mux.isPoisoned = false)
      (ahead : Ahead 1 b₁ b₂)
      (echoes : ∀ turns turns' : List (Turn N T σ), Alongside turns turns' b₁ b₂ →
        Echoes 1 turns turns' b₁ b₂)
      (every : ∀ turns : List (Turn N T σ), ∃ turns', Alongside turns turns' b₁ b₂) :
      EitherWay b w (.done key b₁) (.done ⟨1, 1, 1⟩ b₂)
  /-- There has been no id. Both contexts are poisoned, and the wait stays pending in the second. -/
  | exhausted (b₁ : RecordedBench N T σ η) (recorded : PendingWaits σ)
      (none_free : b.mux.subscriptions.pool.available = 0)
      (native : b₁.native = b.native)
      (scheduler : b₁.scheduler = b.scheduler)
      (subscriptions : b₁.mux.subscriptions = b.mux.subscriptions)
      (pending : b₁.mux.pending = b.mux.pending)
      (waits : recorded.waits = [w])
      (poisoned : b₁.mux.isPoisoned = true) :
      EitherWay b w (.failed (.poolExhausted b.mux.subscriptions.pool.capacity) b₁)
        (.failed (.poolExhausted b.mux.subscriptions.pool.capacity) (b₁.withPending recorded))

/-- **To subscribe at once is to record the wait and flush**, in every state without pending waits
that a new context can come to. Both make the same registration by the same call to the native
layer, and all that comes after is the same but for one flush more on the counter of the second
way, as long as flushes visit the lists that are not empty in the same order; the empty list that is
left over from the flush is of no account. Without a free id both fail, and the one difference is
that the recorded wait is pending. -/
theorem waitNow_like_flush [Scheduler T] {b₀ b : RecordedBench N T σ η} (hfresh : Fresh b₀)
    {turns : List (Turn N T σ)} (hrun : after turns b₀ = .ok b)
    (hlive : b.mux.isPoisoned = false) (hpending : b.mux.pending.isEmpty = true) (signal : σ)
    (edge : Edge) (task : TaskId) (order : VisitOrder σ) :
    ∃ recorded, b.addWait signal edge task = .ok recorded ∧
      EitherWay b ⟨signal, edge, task⟩ (b.waitNow signal edge task) (recorded.flush order) := by
  set counted := b.count fun c => { c with waitsAdded := c.waitsAdded + 1 } with hcounted
  set pushed := b.mux.pending.push signal edge task with hpushed
  have hnone := PendingWaits.isEmpty_iff.mp hpending
  have hrecorded : b.addWait signal edge task = .ok (counted.withPending pushed) := by
    rw [addWait_eq, hnone, if_neg List.not_mem_nil]
    rfl
  refine ⟨_, hrecorded, ?_⟩
  obtain ⟨L, h⟩ := after_tracked tracking_untracked (fun _ _ _ _ _ h => h)
    (hfresh.tracked fun _ => trivial) hrun
  have htracked : counted.Tracked Untracked L := h.congr rfl rfl rfl
  have hlive' : counted.mux.isPoisoned = false := hlive
  have hsize : 1 ≤ [task].length ∧ [task].length ≤ batchCapacity := by simp [batchCapacity]
  rw [flush_one hlive' hpending ⟨signal, edge, task⟩, waitNow, registerSingle,
    if_neg (by rw [hlive]; exact Bool.false_ne_true)]
  dsimp only
  rw [← hcounted]
  obtain ⟨hfree, hfail⟩ | ⟨e, b₁, hdone, hmade, hdemand⟩ :=
    register_spec tracking_untracked htracked signal edge .oneShot hsize
  · have hwaits : pushed.waits = [⟨signal, edge, task⟩] := by
      have hperm := b.mux.pending.waits_push_perm ⟨signal, edge, task⟩
      rw [show b.mux.pending.waits = [] from
        List.length_eq_zero_iff.mp (b.mux.pending.length_waits.trans
          (of_decide_eq_true hpending))] at hperm
      exact List.perm_singleton.mp hperm
    rw [hfail]
    refine .exhausted _ pushed ?_ rfl rfl rfl rfl hwaits (isPoisoned_of_failed rfl)
    rw [IdPool.available, show b.mux.subscriptions.pool.free = [] from hfree, List.length_nil]
  · have henlists := hmade.enlists htracked
    have hemptied : b₁.mux.pending.SameLists pushed.clear := by
      refine PendingWaits.sameLists_of_waiting fun s e => ?_
      rw [PendingWaits.waiting_clear, hmade.pending]
      exact (hnone s e).symm
    have hahead : Ahead 1 b₁ (((b₁.withPending pushed.clear).count fun c =>
        { c with flushes := c.flushes + 1 }).note (.flushed ⟨1, 1, 1⟩)) :=
      ⟨rfl, rfl, hemptied, rfl, rfl, rfl, rfl, rfl, rfl⟩
    rw [hdone]
    refine .subscribed e.key e.handle e.registration b₁ _ ?_ ?_ ?_ hdemand ?_ ?_ hahead
      (fun _ _ hturns => echoes_of_ahead hturns hahead) fun turns => exists_alongside turns hahead
    · have := henlists.available
      rw [List.length_singleton] at this
      show 0 < counted.mux.subscriptions.pool.available
      omega
    · exact henlists.fresh e (List.mem_singleton_self e)
    · exact (henlists.live e.key e.registration).mpr
        (.inr ⟨e, List.mem_singleton_self e, rfl, rfl⟩)
    · rw [henlists.calls, List.map_singleton]
      obtain ⟨hsignal, hedge, -, -⟩ := Demand.mk.inj hdemand
      rw [← hsignal, ← hedge]
      rfl
    · exact (isPoisoned_of_frame hmade.frame hmade.failed).trans hlive'

/-- A context with one id, which has been taken and is free again. -/
def oneIdReleased : List (Turn Switchboard ScriptedScheduler Pin) :=
  [.op (.waitNow ⟨0⟩ .rising ⟨1⟩), .op (.deliver ⟨0, 0⟩ .one)]

/-- The slot of the registration that has fired is used again, under a new key.  The flush leaves an
empty list behind. -/
theorem waitNow_like_flush_oneIdReleased :
    ∃ b₀ b recorded b₁ b₂ : RecordedBench Switchboard ScriptedScheduler Pin Nat, Fresh b₀ ∧
      after oneIdReleased b₀ = .ok b ∧ b.mux.isPoisoned = false ∧ b.mux.pending.isEmpty = true ∧
      b.addWait ⟨1⟩ .either ⟨2⟩ = .ok recorded ∧
      b.waitNow ⟨1⟩ .either ⟨2⟩ = .done ⟨0, 1⟩ b₁ ∧ b₁.mux.pending.signals .either = [] ∧
      recorded.flush (.recorded Pin) = .done ⟨1, 1, 1⟩ b₂ ∧
      b₂.mux.pending.signals .either = [⟨1⟩] ∧
      EitherWay b ⟨⟨1⟩, .either, ⟨2⟩⟩ (b.waitNow ⟨1⟩ .either ⟨2⟩)
        (recorded.flush (.recorded Pin)) := by
  obtain ⟨b₀, b, recorded, b₁, b₂, hfresh, hrun, hlive, hpending, hrecorded, hdone, hnone, hflush,
      hkept⟩ :
      ∃ b₀ b recorded b₁ b₂ : RecordedBench Switchboard ScriptedScheduler Pin Nat, Fresh b₀ ∧
        after oneIdReleased b₀ = .ok b ∧ b.mux.isPoisoned = false ∧
        b.mux.pending.isEmpty = true ∧ b.addWait ⟨1⟩ .either ⟨2⟩ = .ok recorded ∧
        b.waitNow ⟨1⟩ .either ⟨2⟩ = .done ⟨0, 1⟩ b₁ ∧ b₁.mux.pending.signals .either = [] ∧
        recorded.flush (.recorded Pin) = .done ⟨1, 1, 1⟩ b₂ ∧
        b₂.mux.pending.signals .either = [⟨1⟩] :=
    ⟨_, _, _, _, _, ⟨{ pool := { capacity := 1 } }, [], _, {}, .failingAt [] ⟨"", ""⟩, rfl, rfl⟩,
      rfl, rfl, rfl, rfl, rfl, rfl, rfl, rfl⟩
  obtain ⟨recorded', hrecorded', hway⟩ :=
    waitNow_like_flush hfresh hrun hlive hpending ⟨1⟩ .either ⟨2⟩ (.recorded Pin)
  obtain rfl := Except.ok.inj (hrecorded.symm.trans hrecorded')
  exact ⟨b₀, b, recorded, b₁, b₂, hfresh, hrun, hlive, hpending, hrecorded, hdone, hnone, hflush,
    hkept, hway⟩

end OneWait

end Bench

end EdgeWait
