/-
A flush is decided by counts, and exact.

* `length_demands` — how many registrations a flush asks for does not depend on the order of its
  visits (`PendingWaits.batches`);
* `Opens.calls` — what a record of the native layer shows of registrations that have been made;
* `flush_exact` — a flush of an unpoisoned context succeeds if and only if there are ids for all of
  them.  Then it has made just these, in their order, and else as many as there were ids for.

Design notes: a flush that fails has accepted some lists, in the order of its visits, and has made
some of the registrations of the list after them.  That list stays pending as a whole, and so do
those that have not been visited (`PendingWaits.StopsAt`).
-/
import EdgeWait.Proofs.Conservation

namespace EdgeWait

/-! ### Counts -/

namespace PendingWaits

variable {σ : Type} [DecidableEq σ]

/-- The number of batches that the lists of waiting tasks are split into. -/
def batches (policy : BatchPolicy) (p : PendingWaits σ) : Nat :=
  (Edge.all.map fun edge =>
    ((p.signals edge).map fun s => (policy.split (p.waiting s edge)).length).sum).sum

/-- **A flush asks for one registration for each batch**, in whatever order it visits the lists. -/
theorem length_demands (policy : BatchPolicy) (order : VisitOrder σ) (p : PendingWaits σ) :
    (p.demands policy order).length = p.batches policy := by
  have hedge : ∀ edge, ((order.arrange edge (p.signals edge)).map fun s =>
      (policy.split (p.waiting s edge)).length).sum =
        ((p.signals edge).map fun s => (policy.split (p.waiting s edge)).length).sum := by
    intro edge
    exact ((order.arrange_perm edge _).map _).sum_nat
  rw [demands, visits, List.flatMap_assoc, List.length_flatMap, batches]
  congr 1
  refine List.map_congr_left fun edge _ => ?_
  rw [← hedge edge, List.flatMap_map, List.length_flatMap]
  congr 1
  refine List.map_congr_left fun s _ => ?_
  rw [listDemands, List.length_map]

end PendingWaits

/-! ### What has been made -/

/-- The counters of a context that has made registrations and flushed. -/
theorem Counters.Registers.eq {c c' : Counters} {made several : Nat}
    (h : c.Registers 0 made several c') : c' = { c with
      flushes := c'.flushes
      registrations := c.registrations + made
      batchedRegistrations := c.batchedRegistrations + several } := by
  obtain ⟨h1, h2, h3, h4, h5, h6, h7, h8⟩ := h
  cases c'
  simp_all

namespace Bench

open Subscriptions

variable {N T σ η : Type} [NativeLayer N σ η]

/-- A record of the native layer has one entry for each holding. -/
theorem Opens.calls {new : List (Holding σ η)} :
    ∀ {n n' : NativeRecord N σ η}, Opens new n n' → n'.calls = n.calls ++ new.map fun e =>
      .subscribed e.registration.signal e.registration.condition e.key e.handle := by
  induction new with
  | nil =>
    rintro n n' rfl
    exact (List.append_nil _).symm
  | cons e rest ih =>
    rintro n n' ⟨n₁, hone, hrest⟩
    obtain ⟨hhandle, rfl⟩ := Prod.mk.inj hone
    rw [ih hrest, List.map_cons, ← hhandle, List.append_assoc]
    rfl

/-- Registrations have been made for a context, and nothing else has been done. -/
structure Enlists (b : RecordedBench N T σ η) (made : List (Holding σ η))
    (b' : RecordedBench N T σ η) : Prop where
  /-- What is live was live before, or has just been made. -/
  live : ∀ key r, b'.mux.registration? key = some r ↔
    b.mux.registration? key = some r ∨ ∃ e ∈ made, e.key = key ∧ e.registration = r
  fresh : ∀ e ∈ made, b.mux.registration? e.key = none
  keys : (made.map (·.key)).Nodup
  calls : b'.native.calls = b.native.calls ++ made.map fun e =>
    .subscribed e.registration.signal e.registration.condition e.key e.handle
  resumed : b'.scheduler = b.scheduler
  available : b'.mux.subscriptions.pool.available + made.length =
    b.mux.subscriptions.pool.available
  capacity : b'.mux.subscriptions.pool.capacity = b.mux.subscriptions.pool.capacity

theorem MadeInTurn.enlists {I : List (Holding σ η) → Arena σ → NativeRecord N σ η →
      List RegistrationKey → Prop} {b b' : RecordedBench N T σ η} {L new : List (Holding σ η)}
    (h : b.Tracked I L) (hmade : MadeInTurn I b L new b') : Enlists b new b' := by
  have hroster := hmade.tracked.roster
  have hkeys := hroster.keys_nodup
  rw [List.map_append, List.nodup_append'] at hkeys
  refine ⟨?_, ?_, hkeys.2.1, hmade.opens.calls, hmade.frame.scheduler, ?_, hmade.frame.capacity⟩
  · intro key r
    rw [hmade.tracked.registration?_eq_some_iff, h.registration?_eq_some_iff]
    constructor
    · rintro ⟨e, he, heq⟩
      rcases List.mem_append.mp he with hold | hnew
      · exact .inl ⟨e, hold, heq⟩
      · exact .inr ⟨e, hnew, heq⟩
    · rintro (⟨e, he, heq⟩ | ⟨e, he, heq⟩)
      · exact ⟨e, List.mem_append_left _ he, heq⟩
      · exact ⟨e, List.mem_append_right _ he, heq⟩
  · intro e he
    refine h.roster.get?_eq_none_iff.mpr fun f hf hkey => ?_
    exact hkeys.2.2 (List.mem_map_of_mem hf) (hkey ▸ List.mem_map_of_mem he)
  · have hbefore := h.roster.available_add_length
    have hafter := hroster.available_add_length
    rw [hmade.frame.capacity, List.length_append] at hafter
    omega

/-- A registration is for one task, or for several. -/
theorem several_add_single {s : Subscriptions σ η} {L new : List (Holding σ η)}
    (h : s.Roster (L ++ new)) :
    several new + (new.map (·.registration.demand)).countP (·.tasks.length = 1) = new.length := by
  have hsized : ∀ e ∈ new, 1 ≤ e.registration.tasks.length := by
    intro e he
    exact (h.sized e (List.mem_append_right L he)).1
  rw [List.length_eq_countP_add_countP fun e : Holding σ η => 1 < e.registration.tasks.length,
    several, List.countP_map]
  congr 1
  refine List.countP_congr fun e he => ?_
  have hone := hsized e he
  show decide (e.registration.tasks.length = 1) = true ↔ _
  rw [decide_eq_true_eq, decide_eq_true_eq, decide_eq_true_eq]
  omega

/-! ### The flush -/

variable [LogText σ] [LogText η] [DecidableEq σ]

/-- What a flush of an unpoisoned context with pending waits does. -/
inductive FlushedExactly (b : RecordedBench N T σ η) (order : VisitOrder σ) :
    Outcome MuxError (RecordedBench N T σ η) FlushSummary → Prop where
  /-- Every list has been registered for, batch by batch. -/
  | done (made : List (Holding σ η)) (b' : RecordedBench N T σ η) (single : Nat)
      (enough : b.mux.pending.batches b.mux.policy ≤ b.mux.subscriptions.pool.available)
      (enlists : Enlists b made b')
      (demands : made.map (·.registration.demand) = b.mux.pending.demands b.mux.policy order)
      (single_eq : single = made.countP (·.registration.tasks.length = 1))
      (pending : b'.mux.pending = b.mux.pending.clear)
      (live : b'.mux.isPoisoned = false)
      (counters : b'.mux.counters = { b.mux.counters with
        flushes := b.mux.counters.flushes + 1
        registrations := b.mux.counters.registrations + b.mux.pending.batches b.mux.policy
        batchedRegistrations := b.mux.counters.batchedRegistrations +
          (b.mux.pending.batches b.mux.policy - single) }) :
      FlushedExactly b order
        (.done ⟨b.mux.pending.size, b.mux.pending.batches b.mux.policy, single⟩ b')
  /-- The ids have run out in the list `refused`, which stays pending as it was. -/
  | failed (made : List (Holding σ η)) (b' : RecordedBench N T σ η) (accepted : List (σ × Edge))
      (refused : σ × Edge)
      (short : b.mux.subscriptions.pool.available < b.mux.pending.batches b.mux.policy)
      (enlists : Enlists b made b')
      (length : made.length = b.mux.subscriptions.pool.available)
      (free : b'.mux.subscriptions.pool.free = [])
      (stops : b.mux.pending.StopsAt b.mux.policy (b.mux.pending.visits order) accepted refused
        (made.map (·.registration.demand)) b'.mux.pending)
      (left : ∀ signal edge, b'.mux.pending.waiting signal edge =
        if (signal, edge) ∈ accepted then [] else b.mux.pending.waiting signal edge)
      (whole : refused ∉ accepted)
      (poisoned : b'.mux.isPoisoned = true)
      (counters : b'.mux.counters = { b.mux.counters with
        registrations := b.mux.counters.registrations + made.length
        batchedRegistrations := b.mux.counters.batchedRegistrations + several made }) :
      FlushedExactly b order (.failed (.poolExhausted b.mux.subscriptions.pool.capacity) b')

/-- A flush does what the counts say, wherever there is a roster. -/
theorem flush_exact_of_tracked
    {I : List (Holding σ η) → Arena σ → NativeRecord N σ η → List RegistrationKey → Prop}
    (hI : Tracking I) {b : RecordedBench N T σ η} {L : List (Holding σ η)} (h : b.Tracked I L)
    (hlive : b.mux.isPoisoned = false) (hpending : b.mux.pending.isEmpty = false)
    (order : VisitOrder σ) :
    FlushedExactly b order (b.flush order) := by
  have hnonempty : ¬ b.mux.pending.isEmpty = true := by simp [hpending]
  have hasked := b.mux.pending.length_demands b.mux.policy order
  rw [flush, if_neg (by simp [hlive]), if_neg hnonempty, PendingWaits.drainWith]
  obtain ⟨new, b', p', summary', hmade,
      ⟨heq, hp, hnew, hsummary⟩ | ⟨heq, hfree, accepted, refused, hstops⟩⟩ :=
    drainLists_spec hI (b.mux.pending.visits order) b.mux.pending b L {}
      (PendingWaits.nodup_visits _ _) h
  · have henlists := hmade.enlists h
    have hcounters := hmade.counters.eq
    have hsingle := several_add_single hmade.tracked.roster
    have hlength : new.length = b.mux.pending.batches b.mux.policy := by
      rw [← hasked, PendingWaits.demands, ← hnew, List.length_map]
    have havailable := henlists.available
    have hseveral : several new = b.mux.pending.batches b.mux.policy -
        (new.map (·.registration.demand)).countP (·.tasks.length = 1) := by
      omega
    have hsummary_eq : summary' = ⟨b.mux.pending.size, b.mux.pending.batches b.mux.policy,
        (new.map (·.registration.demand)).countP (·.tasks.length = 1)⟩ := by
      rw [hsummary, FlushSummary.counting,
        PendingWaits.sum_length_waiting (PendingWaits.nodup_visits _ _)
          fun _ hw => PendingWaits.mem_visits hw,
        List.length_map, hlength]
      simp
    have henough : b.mux.pending.batches b.mux.policy ≤ b.mux.subscriptions.pool.available := by
      omega
    rw [PendingWaits.foldl_emptyList_visits] at hp
    rw [heq, hsummary_eq]
    refine .done new _ _ henough ?_ hnew List.countP_map hp ?_ ?_
    · exact ⟨henlists.live, henlists.fresh, henlists.keys, henlists.calls, henlists.resumed,
        havailable, henlists.capacity⟩
    · exact (isPoisoned_of_frame hmade.frame hmade.failed).trans hlive
    · show { b'.mux.counters with flushes := b'.mux.counters.flushes + 1 } = _
      rw [hcounters, hmade.flushes, hlength, hseveral]
  · have henlists := hmade.enlists h
    have havailable := henlists.available
    have hshort := hstops.made_prefix.2
    rw [List.length_map, ← PendingWaits.demands, hasked] at hshort
    have hnone : b'.mux.subscriptions.pool.available = 0 := by
      rw [IdPool.available, hfree, List.length_nil]
    have hall : new.length = b.mux.subscriptions.pool.available := by omega
    have hwhole : refused ∉ accepted := by
      obtain ⟨unvisited, hlists⟩ := hstops.lists
      have hnodup := b.mux.pending.nodup_visits order
      rw [hlists] at hnodup
      exact fun hmem => (List.nodup_append'.mp hnodup).2.2 hmem List.mem_cons_self
    rw [heq]
    refine .failed new _ accepted refused (hall ▸ hshort) ?_ hall hfree hstops ?_ hwhole
      (isPoisoned_of_failed rfl) ?_
    · exact ⟨henlists.live, henlists.fresh, henlists.keys, henlists.calls, henlists.resumed,
        havailable, henlists.capacity⟩
    · intro signal edge
      show p'.waiting signal edge = _
      rw [hstops.pending, PendingWaits.waiting_foldl_emptyList]
    · show b'.mux.counters = _
      rw [hmade.counters.eq, hmade.flushes]

variable [Scheduler T]

/-- **A flush is decided by counts**, and does what they say, in every state that a new context can
come to. -/
theorem flush_exact {b₀ b : RecordedBench N T σ η} (hfresh : Fresh b₀) {turns : List (Turn N T σ)}
    (hrun : after turns b₀ = .ok b) (hlive : b.mux.isPoisoned = false)
    (hpending : b.mux.pending.isEmpty = false) (order : VisitOrder σ) :
    ((∃ summary b', b.flush order = .done summary b') ↔
        b.mux.pending.batches b.mux.policy ≤ b.mux.subscriptions.pool.available) ∧
      FlushedExactly b order (b.flush order) := by
  obtain ⟨L, h⟩ := after_tracked tracking_untracked (fun _ _ _ _ _ h => h)
    (hfresh.tracked fun _ => trivial) hrun
  have hexact := flush_exact_of_tracked tracking_untracked h hlive hpending order
  refine ⟨?_, hexact⟩
  generalize b.flush order = o at hexact
  cases hexact with
  | done made b' single henough => simp [henough]
  | failed made b' accepted refused hshort => simp [Nat.not_le.mpr hshort]

/-- One wait on a pin and four on another, for batches of up to three. -/
def oneAndFourWaits : List (Turn Switchboard ScriptedScheduler Pin) :=
  [.op (.addWait ⟨0⟩ .rising ⟨1⟩), .op (.addWait ⟨1⟩ .rising ⟨2⟩), .op (.addWait ⟨1⟩ .rising ⟨3⟩),
    .op (.addWait ⟨1⟩ .rising ⟨4⟩), .op (.addWait ⟨1⟩ .rising ⟨5⟩)]

/-- There are ids for the first list and for the first batch of the second one. -/
theorem flush_exact_oneAndFourWaits :
    ∃ b₀ b : RecordedBench Switchboard ScriptedScheduler Pin Nat, Fresh b₀ ∧
      after oneAndFourWaits b₀ = .ok b ∧ b.mux.isPoisoned = false ∧
      b.mux.pending.isEmpty = false ∧ b.mux.pending.batches b.mux.policy = 3 ∧
      b.mux.subscriptions.pool.available = 2 ∧
      FlushedExactly b (.recorded Pin) (b.flush (.recorded Pin)) := by
  obtain ⟨b₀, b, hfresh, hrun, hlive, hpending, hbatches, havailable⟩ :
      ∃ b₀ b : RecordedBench Switchboard ScriptedScheduler Pin Nat, Fresh b₀ ∧
        after oneAndFourWaits b₀ = .ok b ∧ b.mux.isPoisoned = false ∧
        b.mux.pending.isEmpty = false ∧ b.mux.pending.batches b.mux.policy = 3 ∧
        b.mux.subscriptions.pool.available = 2 :=
    ⟨_, _, ⟨{ batching := { maxArity := 3 }, pool := { capacity := 2 } }, [], _, {},
      .failingAt [] ⟨"", ""⟩, rfl, rfl⟩, rfl, rfl, rfl, rfl, rfl⟩
  exact ⟨b₀, b, hfresh, hrun, hlive, hpending, hbatches, havailable,
    (flush_exact hfresh hrun hlive hpending (.recorded Pin)).2⟩

end Bench

end EdgeWait
