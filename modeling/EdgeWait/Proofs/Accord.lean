/-
Operations of two contexts that are alike.

* `flush_agree` — flushes of both succeed, or the pool is exhausted in both;
* `registerSingle_agree`, `cancel_agree`, `shutdown_agree` — so it is with what a host does to both;
* `deliver_agree` — reports to like holdings of both come to the same call of the scheduler.

Each of them is a statement about one context (`flush_side`, …), used on both sides.

Design notes: whether a flush exhausts the pool can be told from numbers alone, namely that of the
registrations it asks for and that of the ids that are left.
-/
import EdgeWait.Proofs.Likeness

namespace EdgeWait

open Sim

namespace Bench

variable {T : Type} {c : Sim} {label label₁ label₂ label₁' label₂' : Nat → Option Nat}
  {b b₁ b₂ b₁' b₂' : SimBench (SchedulerRecord T)} {L new L₁ L₂ new₁ new₂ : List SimHolding}

/-! ### Registrations -/

/-- Registrations have been made beside the holdings of both. -/
theorem Twins.extend (h : Twins c label₁ label₂ b₁ L₁ b₂ L₂) (hsame₁ : SameSettings b₁ b₁')
    (hsame₂ : SameSettings b₂ b₂') (hside₁ : Side c label₁' b₁' (L₁ ++ new₁))
    (hside₂ : Side c label₂' b₂' (L₂ ++ new₂)) (hscheduler : b₁'.scheduler = b₂'.scheduler)
    (hold₁ : ∀ e ∈ L₁, label₁' e.number = label₁ e.number)
    (hold₂ : ∀ e ∈ L₂, label₂' e.number = label₂ e.number)
    (hnew : (new₁.map fun e => label₁' e.number).Perm (new₂.map fun e => label₂' e.number)) :
    Twins c label₁' label₂' b₁' (L₁ ++ new₁) b₂' (L₂ ++ new₂) := by
  refine h.keep hsame₁ hsame₂ hside₁ hside₂ hscheduler ?_
  rw [List.map_append, List.map_append, List.map_congr_left hold₁, List.map_congr_left hold₂]
  exact h.labels.append hnew

/-- They are the same on every signal. -/
theorem Matched.extend (h : Matched label₁ label₂ b₁ L₁ b₂ L₂) (hsame₁ : SameSettings b₁ b₁')
    (hsame₂ : SameSettings b₂ b₂')
    (hold₁ : ∀ e ∈ L₁, label₁' e.number = label₁ e.number)
    (hold₂ : ∀ e ∈ L₂, label₂' e.number = label₂ e.number)
    (hnew : ∀ signal, (new₁.filter (·.registration.signal = signal)).map (view label₁') =
      (new₂.filter (·.registration.signal = signal)).map (view label₂')) :
    Matched label₁' label₂' b₁' (L₁ ++ new₁) b₂' (L₂ ++ new₂) := by
  refine h.keep hsame₁ hsame₂ fun signal => ?_
  have hview : ∀ (L : List SimHolding) (label label' : Nat → Option Nat),
      (∀ e ∈ L, label' e.number = label e.number) →
      (L.filter (·.registration.signal = signal)).map (view label') =
        (L.filter (·.registration.signal = signal)).map (view label) := by
    intro L label label' hold
    refine List.map_congr_left fun e he => ?_
    rw [view, view, hold e (List.mem_of_mem_filter he)]
  rw [List.filter_append, List.filter_append, List.map_append, List.map_append, hnew signal,
    hview L₁ _ _ hold₁, hview L₂ _ _ hold₂, h.holdings signal]

/-- Two holdings that look the same are on the same signal. -/
theorem map_view_singleton {e₁ e₂ : SimHolding} (hview : view label₁ e₁ = view label₂ e₂)
    (signal : SignalId) :
    ([e₁].filter (·.registration.signal = signal)).map (view label₁) =
      ([e₂].filter (·.registration.signal = signal)).map (view label₂) := by
  have hsignal : e₁.registration.signal = e₂.registration.signal :=
    congrArg (fun w => w.1.signal) hview
  rw [List.filter_singleton, List.filter_singleton, hsignal]
  cases decide (e₂.registration.signal = signal) with
  | true => exact congrArg (fun v => [v]) hview
  | false => rfl

/-- Holdings that look the same have been taken out of both. -/
theorem Matched.filter (h : Matched label₁ label₂ b₁ L₁ b₂ L₂) (hsame₁ : SameSettings b₁ b₁')
    (hsame₂ : SameSettings b₂ b₂') {q₁ q₂ : SimHolding → Bool}
    (q : Demand SignalId × Option Nat → Bool) (hq₁ : ∀ e ∈ L₁, q (view label₁ e) = q₁ e)
    (hq₂ : ∀ e ∈ L₂, q (view label₂ e) = q₂ e) :
    Matched label₁ label₂ b₁' (L₁.filter q₁) b₂' (L₂.filter q₂) := by
  refine h.keep hsame₁ hsame₂ fun signal => ?_
  have hchosen : ∀ {label : Nat → Option Nat} {L : List SimHolding} {p : SimHolding → Bool},
      (∀ e ∈ L, q (view label e) = p e) →
      ((L.filter p).filter (·.registration.signal = signal)).map (view label) =
        ((L.filter (·.registration.signal = signal)).map (view label)).filter q := by
    intro label L p hp
    rw [List.filter_map, List.filter_comm]
    congr 1
    exact List.filter_congr fun e he => (hp e (List.mem_of_mem_filter he)).symm
  rw [hchosen hq₁, hchosen hq₂, h.holdings signal]

/-- What a flush of an unpoisoned context leads to.  The number of registrations that it asks for
tells whether the pool is exhausted. -/
inductive FlushedSide (c : Sim) (label : Nat → Option Nat) (b : SimBench (SchedulerRecord T))
    (L : List SimHolding) (order : VisitOrder SignalId) (new : List SimHolding)
    (b' : SimBench (SchedulerRecord T)) :
    Outcome MuxError (SimBench (SchedulerRecord T)) FlushSummary → Prop where
  | done (summary : FlushSummary)
      (room : L.length + (b.mux.pending.demands b.mux.policy order).length ≤
        b.mux.subscriptions.pool.capacity)
      (live : b'.mux.isPoisoned = false) (pending : b'.mux.pending = b.mux.pending.clear)
      (demands : new.map (·.registration.demand) = b.mux.pending.demands b.mux.policy order) :
      FlushedSide c label b L order new b' (.done summary b')
  | exhausted
      (noRoom : b.mux.subscriptions.pool.capacity <
        L.length + (b.mux.pending.demands b.mux.policy order).length)
      (poisoned : b'.mux.isPoisoned = true)
      (full : L.length + new.length = b.mux.subscriptions.pool.capacity) :
      FlushedSide c label b L order new b'
        (.failed (.poolExhausted b.mux.subscriptions.pool.capacity) b')

/-- **A flush** of one context.  Its registrations have no label. -/
theorem flush_side (h : Side c label b L) (hlive : b.mux.isPoisoned = false)
    (order : VisitOrder SignalId) :
    ∃ new b', Side c label b' (L ++ new) ∧ (∀ e ∈ new, label e.number = none) ∧ Frame b b' ∧
      b.log.issued <+: b'.log.issued ∧ FlushedSide c label b L order new b' (b.flush order) := by
  have hside : ∀ {new b'}, b'.Tracked (Since b.log.issued L (Hosts c)) (L ++ new) →
      Side c label b' (L ++ new) ∧ ∀ e ∈ new, label e.number = none := fun htracked =>
    ⟨⟨htracked.of_since, h.unlabelled_of_prefix htracked.extra.2.1⟩,
      fun e he => h.unlabelled _ (htracked.le_number_of_new e he)⟩
  have hresult := flush_spec (tracking_since (tracking_hosts c) _ _) h.tracked.since hlive order
  generalize b.flush order = o at hresult ⊢
  cases hresult with
  | done new b' summary htracked hframe hpending hfailed hdemands =>
    obtain ⟨hside', hnone⟩ := hside htracked
    refine ⟨new, b', hside', hnone, hframe, htracked.extra.2.1,
      .done summary ?_ ((isPoisoned_of_frame hframe hfailed).trans hlive) hpending hdemands⟩
    have hroom := htracked.roster.available_add_length
    rw [hframe.capacity, List.length_append] at hroom
    rw [← hdemands, List.length_map]
    omega
  | failed new b' htracked hframe hfailed hfree hfewer =>
    obtain ⟨hside', hnone⟩ := hside htracked
    -- every id is in use, and still there are registrations to make
    have hroom := htracked.roster.available_add_length
    rw [IdPool.available, hfree, hframe.capacity, List.length_append, List.length_nil,
      Nat.zero_add] at hroom
    exact ⟨new, b', hside', hnone, hframe, htracked.extra.2.1,
      .exhausted (by omega) (isPoisoned_of_failed hfailed) hroom⟩

/-- What unlabelled holdings look like is told by what they have been made for. -/
theorem map_view_of_unlabelled (hnone : ∀ e ∈ new, label e.number = none) (signal : SignalId) :
    (new.filter (·.registration.signal = signal)).map (view label) =
      ((new.map (·.registration.demand)).filter (·.signal = signal)).map (·, none) := by
  rw [List.filter_map, List.map_map]
  refine List.map_congr_left fun e he => ?_
  rw [view, hnone e (List.mem_of_mem_filter he)]
  rfl

/-- As many unlabelled holdings have as many empty labels. -/
theorem map_label_of_unlabelled (hnone : ∀ e ∈ new, label e.number = none) :
    (new.map fun e => label e.number) = List.replicate new.length none :=
  List.eq_replicate_iff.mpr ⟨List.length_map _, by simpa using hnone⟩

/-- From `b₁` and `b₂` two contexts have come to `b₁'` and `b₂'`, and they are not poisoned. -/
structure Going (label₁ label₂ : Nat → Option Nat) (b₁ b₂ b₁' b₂' : SimBench (SchedulerRecord T)) :
    Prop extends Moved label₁ label₂ b₁ b₂ b₁' b₂' where
  live : b₁'.mux.isPoisoned = false

/-- **Flushes of two contexts that are alike** both make every registration, or both find the pool
empty. -/
theorem flush_agree (h : Joint label₁ label₂ b₁ b₂) (order₁ order₂ : VisitOrder SignalId) :
    Agree Fault.Never (fun _ _ => True) (Going label₁ label₂ b₁ b₂) (Moved label₁ label₂ b₁ b₂)
      (b₁.flush order₁) (b₂.flush order₂) := by
  obtain ⟨⟨c, L₁, L₂, halike⟩, hwaiting⟩ := h
  cases hlive : b₁.mux.isPoisoned with
  | true =>
    rw [flush_of_poisoned hlive, flush_of_poisoned (halike.poisoned ▸ hlive)]
    exact ⟨rfl, .refl ⟨⟨c, L₁, L₂, halike⟩, hwaiting⟩⟩
  | false =>
    have hmatched := halike.matched hlive
    have hlive₂ : b₂.mux.isPoisoned = false := halike.poisoned ▸ hlive
    -- both ask for the same registrations, though not in the same order
    have hcount : (b₁.mux.pending.demands b₁.mux.policy order₁).length =
        (b₂.mux.pending.demands b₂.mux.policy order₂).length := by
      rw [hmatched.policy]
      exact (PendingWaits.demands_perm (hwaiting hlive)).length_eq
    have hlengths := halike.length_eq
    have hcapacity := halike.capacity
    obtain ⟨new₁, b₁', hside₁, hnone₁, hframe₁, hissued₁, hflush₁⟩ :=
      flush_side halike.left hlive order₁
    obtain ⟨new₂, b₂', hside₂, hnone₂, hframe₂, hissued₂, hflush₂⟩ :=
      flush_side halike.right hlive₂ order₂
    have htwins : new₁.length = new₂.length →
        Twins c label₁ label₂ b₁' (L₁ ++ new₁) b₂' (L₂ ++ new₂) := by
      intro hlength
      refine halike.toTwins.extend hframe₁.sameSettings hframe₂.sameSettings hside₁ hside₂ ?_
        (fun _ _ => rfl) (fun _ _ => rfl) ?_
      · rw [hframe₁.scheduler, hframe₂.scheduler, halike.scheduler]
      · rw [map_label_of_unlabelled hnone₁, map_label_of_unlabelled hnone₂, hlength]
    -- the numbers that decide whether a pool is exhausted are the same in both
    generalize b₁.flush order₁ = o₁ at hflush₁ ⊢
    generalize b₂.flush order₂ = o₂ at hflush₂ ⊢
    cases hflush₁ with
    | done summary₁ hroom₁ hup₁ hpending₁ hnew₁ =>
      cases hflush₂ with
      | exhausted hnoRoom₂ => omega
      | done summary₂ hroom₂ hup₂ hpending₂ hnew₂ =>
        have hlength : new₁.length = new₂.length := by
          rw [← List.length_map (f := fun e : SimHolding => e.registration.demand), hnew₁, hcount,
            ← hnew₂, List.length_map]
        have hmatched' : Matched label₁ label₂ b₁' (L₁ ++ new₁) b₂' (L₂ ++ new₂) := by
          refine hmatched.extend hframe₁.sameSettings hframe₂.sameSettings (fun _ _ => rfl)
            (fun _ _ => rfl) fun signal => ?_
          rw [map_view_of_unlabelled hnone₁, map_view_of_unlabelled hnone₂, hnew₁, hnew₂,
            hmatched.policy, PendingWaits.filter_demands_congr (hwaiting hlive)]
        refine ⟨trivial, ⟨⟨⟨c, _, _, htwins hlength, hup₁.trans hup₂.symm, fun _ => hmatched'⟩, ?_⟩,
          hissued₁, hissued₂⟩, hup₁⟩
        intro _ signal edge
        rw [hpending₁, hpending₂, PendingWaits.waiting_clear, PendingWaits.waiting_clear]
    | exhausted hnoRoom₁ hdown₁ hfull₁ =>
      cases hflush₂ with
      | done summary₂ hroom₂ => omega
      | exhausted hnoRoom₂ hdown₂ hfull₂ =>
        have hlength : new₁.length = new₂.length := by omega
        exact ⟨by rw [hcapacity], (htwins hlength).joint_of_poisoned hdown₁ hdown₂, hissued₁,
          hissued₂⟩

/-- What it leads to when a task is subscribed at once in an unpoisoned context, by the request of
the given number. -/
inductive SubscribedSide (c : Sim) (label : Nat → Option Nat) (b : SimBench (SchedulerRecord T))
    (L : List SimHolding) (d : Demand SignalId) (request : Nat)
    (b' : SimBench (SchedulerRecord T)) :
    Outcome MuxError (SimBench (SchedulerRecord T)) RegistrationKey → Prop where
  | done (e : SimHolding) (room : L.length < b.mux.subscriptions.pool.capacity)
      (side : Side c (Function.update label e.number (some request)) b' (L ++ [e]))
      (later : b.log.issued.length ≤ e.number) (issued : b'.log.issued[e.number]? = some e.key)
      (demand : e.registration.demand = d) (live : b'.mux.isPoisoned = false) :
      SubscribedSide c label b L d request b' (.done e.key b')
  | exhausted (full : L.length = b.mux.subscriptions.pool.capacity) (side : Side c label b' L)
      (poisoned : b'.mux.isPoisoned = true) :
      SubscribedSide c label b L d request b'
        (.failed (.poolExhausted b.mux.subscriptions.pool.capacity) b')

theorem registerSingle_side (h : Side c label b L) (hlive : b.mux.isPoisoned = false)
    (signal : SignalId) (edge : Edge) (task : TaskId) (mode : Mode) (request : Nat) :
    ∃ b', Keeps b b' ∧ b'.scheduler = b.scheduler ∧
      SubscribedSide c label b L ⟨signal, edge, [task], mode⟩ request b'
        (b.registerSingle signal edge task mode) := by
  obtain ⟨b', heq, htracked, hframe, hfailed, hpending, hissued, -, hfree⟩ |
      ⟨e, b', heq, hmade, hdemand⟩ := registerSingle_spec
    (tracking_since (tracking_hosts c) _ _) h.tracked.since hlive signal edge task mode
  · have hprefix : b.log.issued <+: b'.log.issued := htracked.extra.2.1
    -- without a free id, the roster is as long as the pool
    have hroom := h.tracked.roster.available_add_length
    rw [IdPool.available, hfree, List.length_nil, Nat.zero_add] at hroom
    rw [heq]
    exact ⟨b', .of_frame hframe hlive hpending hprefix, hframe.scheduler,
      .exhausted hroom ⟨htracked.of_since, h.unlabelled_of_prefix hprefix⟩
        (isPoisoned_of_failed hfailed)⟩
  · have htracked := hmade.tracked
    have hprefix : b.log.issued <+: b'.log.issued := htracked.extra.2.1
    have hnumbered := htracked.extra.1.1.numbered
    have he : e ∈ L ++ [e] := List.mem_append_right L (List.mem_singleton.mpr rfl)
    have hroom := htracked.roster.available_add_length
    rw [hmade.frame.capacity, List.length_append, List.length_singleton] at hroom
    rw [heq]
    refine ⟨b', .of_frame hmade.frame hlive hmade.pending hprefix, hmade.frame.scheduler,
      .done e (by omega) ⟨htracked.of_since, fun m hm => ?_⟩
        (htracked.le_number_of_new e (List.mem_singleton.mpr rfl)) (hnumbered.issued_at e he)
        hdemand ?_⟩
    · have hlt := hnumbered.number_lt he
      rw [Function.update_of_ne (by omega)]
      exact h.unlabelled_of_prefix hprefix m hm
    · rw [isPoisoned_of_frame hmade.frame hmade.failed, hlive]

/-- The label of a new registration is not that of an older one. -/
theorem Side.update_of_mem (h : Side c label b L) {m : Nat} (hm : b.log.issued.length ≤ m)
    (request : Option Nat) :
    ∀ e ∈ L, Function.update label m request e.number = label e.number := by
  intro e he
  have hlt := h.tracked.extra.1.numbered.number_lt he
  exact Function.update_of_ne (by omega) _ _

/-- What it leads to when a task is subscribed at once in both contexts, by the request of the given
number: both fail, or both issue a key for the request. -/
inductive SubscribedBoth (c : Sim) (label₁ label₂ : Nat → Option Nat) (request : Nat)
    (b₁ : SimBench (SchedulerRecord T)) (L₁ : List SimHolding)
    (b₂ : SimBench (SchedulerRecord T)) (L₂ : List SimHolding) :
    Outcome MuxError (SimBench (SchedulerRecord T)) RegistrationKey →
    Outcome MuxError (SimBench (SchedulerRecord T)) RegistrationKey → Prop where
  | failed (e : MuxError) (b₁' b₂' : SimBench (SchedulerRecord T)) (keeps₁ : Keeps b₁ b₁')
      (keeps₂ : Keeps b₂ b₂') (alike : Alike c label₁ label₂ b₁' L₁ b₂' L₂) :
      SubscribedBoth c label₁ label₂ request b₁ L₁ b₂ L₂ (.failed e b₁') (.failed e b₂')
  | done (e₁ e₂ : SimHolding) (b₁' b₂' : SimBench (SchedulerRecord T)) (keeps₁ : Keeps b₁ b₁')
      (keeps₂ : Keeps b₂ b₂') (later₁ : b₁.log.issued.length ≤ e₁.number)
      (issued₁ : b₁'.log.issued[e₁.number]? = some e₁.key)
      (later₂ : b₂.log.issued.length ≤ e₂.number)
      (issued₂ : b₂'.log.issued[e₂.number]? = some e₂.key)
      (alike : Alike c (Function.update label₁ e₁.number (some request))
        (Function.update label₂ e₂.number (some request)) b₁' (L₁ ++ [e₁]) b₂' (L₂ ++ [e₂])) :
      SubscribedBoth c label₁ label₂ request b₁ L₁ b₂ L₂ (.done e₁.key b₁') (.done e₂.key b₂')

/-- **A task that is subscribed at once** is subscribed in both contexts or in neither. -/
theorem registerSingle_agree (h : Alike c label₁ label₂ b₁ L₁ b₂ L₂) (signal : SignalId)
    (edge : Edge) (task : TaskId) (mode : Mode) (request : Nat) :
    SubscribedBoth c label₁ label₂ request b₁ L₁ b₂ L₂ (b₁.registerSingle signal edge task mode)
      (b₂.registerSingle signal edge task mode) := by
  cases hlive : b₁.mux.isPoisoned with
  | true =>
    rw [registerSingle_of_poisoned hlive, registerSingle_of_poisoned (h.poisoned ▸ hlive)]
    exact .failed _ b₁ b₂ (.refl b₁) (.refl b₂) h
  | false =>
    have hmatched := h.matched hlive
    have hlengths := h.length_eq
    have hcapacity := h.capacity
    have hlive₂ : b₂.mux.isPoisoned = false := h.poisoned ▸ hlive
    obtain ⟨b₁', hkeeps₁, hscheduler₁, hresult₁⟩ :=
      registerSingle_side h.left hlive signal edge task mode request
    obtain ⟨b₂', hkeeps₂, hscheduler₂, hresult₂⟩ :=
      registerSingle_side h.right hlive₂ signal edge task mode request
    have hscheduler : b₁'.scheduler = b₂'.scheduler := by
      rw [hscheduler₁, hscheduler₂, h.scheduler]
    generalize b₁.registerSingle signal edge task mode = o₁ at hresult₁ ⊢
    generalize b₂.registerSingle signal edge task mode = o₂ at hresult₂ ⊢
    -- as many ids are free in one pool as in the other, so both find one or neither does
    cases hresult₁ with
    | done e₁ hroom₁ hside₁ hlater₁ hissued₁ hdemand₁ hup₁ =>
      cases hresult₂ with
      | exhausted hfull₂ => omega
      | done e₂ hroom₂ hside₂ hlater₂ hissued₂ hdemand₂ hup₂ =>
        have hold₁ := h.left.update_of_mem hlater₁ (some request)
        have hold₂ := h.right.update_of_mem hlater₂ (some request)
        have hview : view (Function.update label₁ e₁.number (some request)) e₁ =
            view (Function.update label₂ e₂.number (some request)) e₂ := by
          rw [view, view, hdemand₁, hdemand₂, Function.update_self, Function.update_self]
        have htwins := h.toTwins.extend hkeeps₁.toSameSettings hkeeps₂.toSameSettings hside₁ hside₂
          hscheduler hold₁ hold₂ (by simp)
        have hmatched' := hmatched.extend hkeeps₁.toSameSettings hkeeps₂.toSameSettings hold₁ hold₂
          (map_view_singleton hview)
        exact .done e₁ e₂ b₁' b₂' hkeeps₁ hkeeps₂ hlater₁ hissued₁ hlater₂ hissued₂
          ⟨htwins, hup₁.trans hup₂.symm, fun _ => hmatched'⟩
    | exhausted hfull₁ hside₁ hdown₁ =>
      cases hresult₂ with
      | done e₂ hroom₂ => omega
      | exhausted hfull₂ hside₂ hdown₂ =>
        have htwins := h.toTwins.keep hkeeps₁.toSameSettings hkeeps₂.toSameSettings hside₁ hside₂
          hscheduler h.labels
        rw [hcapacity]
        exact .failed _ b₁' b₂' hkeeps₁ hkeeps₂ (htwins.alike_of_poisoned hdown₁ hdown₂)

/-! ### Cancels and shutdowns -/

/-- A cancel in one context. -/
theorem cancel_side (h : Side c label b L) (key : RegistrationKey) :
    ∃ b', b.cancel key = .ok (L.any (·.key = key), b') ∧ Side c label b' (L.filter (·.key ≠ key)) ∧
      Keeps b b' ∧ b'.scheduler = b.scheduler ∧ b'.mux.isPoisoned = b.mux.isPoisoned := by
  have hresult := cancel_spec (tracking_since (tracking_hosts c) b.log.issued L) h.tracked.since key
  generalize b.cancel key = o at hresult ⊢
  cases hresult with
  | gone habsent =>
    have hnone : L.any (·.key = key) = false :=
      List.any_eq_false.mpr fun e he => by simpa using habsent e he
    refine ⟨b, by rw [hnone], ?_, .refl b, rfl, rfl⟩
    rwa [filter_of_absent habsent]
  | refused f hrefuses => exact absurd hrefuses not_refuses_of_hosts
  | ended e he hkey b₁ b₂ hended hcounted =>
    subst hkey
    have hsome : L.any (·.key = e.key) = true := List.any_eq_true.mpr ⟨e, he, by simp⟩
    -- the cancel is counted and noted after the registration has been ended
    have hcore : SameCore b₁ b₂ := by
      rw [hcounted]
      exact ⟨rfl, rfl, rfl, rfl, rfl, rfl, Log.issued_push (by simp)⟩
    have hpending : b₂.mux.pending = b.mux.pending := by
      rw [hcounted]
      exact hended.pending
    have hprefix : b.log.issued <+: b₁.log.issued := hended.tracked.extra.2.1
    have hside : Side c label b₁ (L.filter (·.key ≠ e.key)) :=
      ⟨hended.tracked.of_since, h.unlabelled_of_prefix hprefix⟩
    have hpoisoned : b₂.mux.isPoisoned = b.mux.isPoisoned :=
      hcore.poisoned.trans (isPoisoned_of_frame hended.frame hended.failed)
    refine ⟨b₂, by rw [hsome], hside.congr hcore, ⟨?_, hpending, hpoisoned.trans, ?_⟩, ?_,
      hpoisoned⟩
    · exact hended.frame.sameSettings.trans hcore.sameSettings
    · rwa [hcore.issued]
    · exact hcore.scheduler.trans hended.frame.scheduler

/-- **A cancel** of the keys that have been issued for the same request comes to the same. -/
theorem cancel_agree (h : Alike c label₁ label₂ b₁ L₁ b₂ L₂) {key₁ key₂ : RegistrationKey}
    {request : Nat} (hkey₁ : ∀ e ∈ L₁, label₁ e.number = some request ↔ e.key = key₁)
    (hkey₂ : ∀ e ∈ L₂, label₂ e.number = some request ↔ e.key = key₂) :
    ∃ found b₁' b₂', b₁.cancel key₁ = .ok (found, b₁') ∧ b₂.cancel key₂ = .ok (found, b₂') ∧
      Keeps b₁ b₁' ∧ Keeps b₂ b₂' ∧ ∃ L₁' L₂', Alike c label₁ label₂ b₁' L₁' b₂' L₂' := by
  obtain ⟨b₁', heq₁, hside₁, hkeeps₁, hscheduler₁, hpoisoned₁⟩ := cancel_side h.left key₁
  obtain ⟨b₂', heq₂, hside₂, hkeeps₂, hscheduler₂, hpoisoned₂⟩ := cancel_side h.right key₂
  -- in both contexts the label tells which registration is meant
  have hany : ∀ {label : Nat → Option Nat} {L : List SimHolding} {key : RegistrationKey},
      (∀ e ∈ L, label e.number = some request ↔ e.key = key) →
      L.any (·.key = key) = (L.map fun e => label e.number).any (· = some request) := by
    intro label L key hkey
    rw [List.any_map, Bool.eq_iff_iff, List.any_eq_true, List.any_eq_true]
    refine exists_congr fun e => and_congr_right fun he => ?_
    rw [Function.comp_apply, decide_eq_true_iff, decide_eq_true_iff, hkey e he]
  have hfilter : ∀ {label : Nat → Option Nat} {L : List SimHolding} {key : RegistrationKey},
      (∀ e ∈ L, label e.number = some request ↔ e.key = key) →
      L.filter (·.key ≠ key) = L.filter (label ·.number ≠ some request) := by
    intro label L key hkey
    refine List.filter_congr fun e he => ?_
    rw [decide_eq_decide, ne_eq, ne_eq, hkey e he]
  have hfound : L₁.any (·.key = key₁) = L₂.any (·.key = key₂) := by
    rw [hany hkey₁, hany hkey₂]
    exact h.labels.any_eq
  rw [hfilter hkey₁] at hside₁
  rw [hfilter hkey₂] at hside₂
  have hsame₁ := hkeeps₁.toSameSettings
  have hsame₂ := hkeeps₂.toSameSettings
  refine ⟨_, b₁', b₂', heq₁, by rw [heq₂, hfound], hkeeps₁, hkeeps₂, _, _,
    h.toTwins.keep hsame₁ hsame₂ hside₁ hside₂ ?_ ?_, ?_, fun hlive => ?_⟩
  · rw [hscheduler₁, hscheduler₂, h.scheduler]
  · have hlabels := h.labels.filter fun label => decide (label ≠ some request)
    rwa [List.filter_map, List.filter_map] at hlabels
  · rw [hpoisoned₁, hpoisoned₂, h.poisoned]
  · exact (h.matched (hpoisoned₁ ▸ hlive)).filter hsame₁ hsame₂
      (fun v => decide (v.2 ≠ some request)) (fun _ _ => rfl) fun _ _ => rfl

/-- From `b` to `b'` there has been a shutdown. -/
structure Emptied (b b' : SimBench (SchedulerRecord T)) : Prop extends SameSettings b b' where
  pending : b'.mux.pending = b.mux.pending.clear
  poisoned : b'.mux.isPoisoned = b.mux.isPoisoned
  scheduler : b'.scheduler = b.scheduler
  issued : b.log.issued <+: b'.log.issued

theorem Emptied.waiting (h : Emptied b b') (signal : SignalId) (edge : Edge) :
    b'.mux.pending.waiting signal edge = [] := by
  rw [h.pending, PendingWaits.waiting_clear]

/-- A shutdown of one context. -/
theorem shutdown_side (h : Side c label b L) :
    ∃ b', b.shutdown = .ok (L.length, b') ∧ Side c label b' [] ∧ Emptied b b' := by
  rcases shutdown_spec (tracking_since (tracking_hosts c) b.log.issued L) h.tracked.since with
    ⟨f, hrefuses, -⟩ | ⟨b', heq, htracked, hframe, hpending, hfailed, -⟩
  · exact absurd hrefuses not_refuses_of_hosts
  · have hprefix : b.log.issued <+: b'.log.issued := htracked.extra.2.1
    exact ⟨b', heq, ⟨htracked.of_since, h.unlabelled_of_prefix hprefix⟩, hframe.sameSettings,
      hpending, isPoisoned_of_frame hframe hfailed, hframe.scheduler, hprefix⟩

/-- **A shutdown** of both ends as many registrations. -/
theorem shutdown_agree (h : Alike c label₁ label₂ b₁ L₁ b₂ L₂) :
    ∃ count b₁' b₂', b₁.shutdown = .ok (count, b₁') ∧ b₂.shutdown = .ok (count, b₂') ∧
      Emptied b₁ b₁' ∧ Emptied b₂ b₂' ∧ Alike c label₁ label₂ b₁' [] b₂' [] := by
  obtain ⟨b₁', heq₁, hside₁, hemptied₁⟩ := shutdown_side h.left
  obtain ⟨b₂', heq₂, hside₂, hemptied₂⟩ := shutdown_side h.right
  have hsame₁ := hemptied₁.toSameSettings
  have hsame₂ := hemptied₂.toSameSettings
  refine ⟨L₁.length, b₁', b₂', heq₁, by rw [heq₂, h.length_eq], hemptied₁, hemptied₂,
    h.toTwins.keep hsame₁ hsame₂ hside₁ hside₂ ?_ (.refl _), ?_, fun hlive => ?_⟩
  · rw [hemptied₁.scheduler, hemptied₂.scheduler, h.scheduler]
  · rw [hemptied₁.poisoned, hemptied₂.poisoned, h.poisoned]
  · exact (h.matched (hemptied₁.poisoned ▸ hlive)).keep hsame₁ hsame₂ fun _ => rfl

/-! ### Reports -/

/-- A holding that leaves both rosters bears the same label in both. -/
theorem perm_labels_filter {s₁ s₂ : Subscriptions SignalId CallbackHandle} (hroster₁ : s₁.Roster L₁)
    (hroster₂ : s₂.Roster L₂)
    (hlabels : (L₁.map fun e => label₁ e.number).Perm (L₂.map fun e => label₂ e.number))
    {e₁ e₂ : SimHolding} (he₁ : e₁ ∈ L₁) (he₂ : e₂ ∈ L₂)
    (hlabel : label₁ e₁.number = label₂ e₂.number) :
    ((L₁.filter (·.key ≠ e₁.key)).map fun e => label₁ e.number).Perm
      ((L₂.filter (·.key ≠ e₂.key)).map fun e => label₂ e.number) := by
  have hperm₁ := (Subscriptions.perm_filter_key hroster₁.keys_nodup he₁).map
    fun e => label₁ e.number
  have hperm₂ := (Subscriptions.perm_filter_key hroster₂.keys_nodup he₂).map
    fun e => label₂ e.number
  rw [List.map_cons] at hperm₁ hperm₂
  rw [← hlabel] at hperm₂
  exact ((hperm₁.symm.trans hlabels).trans hperm₂).cons_inv

variable [Scheduler T]

/-- What becomes of a scheduler when an observed value is reported to a registration for `d`, and
the error if it fails. -/
def handOver (t : SchedulerRecord T) (d : Demand SignalId) (observed : Logic) :
    Option MuxError × SchedulerRecord T :=
  if d.edge.condition.accepts observed then
    match Scheduler.scheduleMany t d.tasks with
    | (.ok (), t) => (none, t)
    | (.error cause, t) => (some (.dispatchFailed cause), Scheduler.finalize t)
  else (none, t)

/-- What comes of a report. -/
inductive ReportedSide (b' : SimBench (SchedulerRecord T)) :
    Option MuxError × SchedulerRecord T →
    Outcome MuxError (SimBench (SchedulerRecord T)) Delivery → Prop where
  | done (d : Delivery) (live : b'.mux.isPoisoned = false) :
      ReportedSide b' (none, b'.scheduler) (.done d b')
  | failed (e : MuxError) (poisoned : b'.mux.isPoisoned = true) :
      ReportedSide b' (some e, b'.scheduler) (.failed e b')

/-- **A report** to a holding of one context: the scheduler is told what the registration has been
made for, and the holding leaves the roster if it is spent. -/
theorem deliver_side (h : Side c label b L) (hlive : b.mux.isPoisoned = false) {e : SimHolding}
    (he : e ∈ L) {value v : Logic} (hobserve : b.mux.observe value = v) :
    ∃ b', Side c label b' (L.filter fun f => !(decide (f.key = e.key) && isSpent v f)) ∧
      Keeps b b' ∧ ReportedSide b' (handOver b.scheduler e.registration.demand v)
        (b.deliver e.key value) := by
  subst hobserve
  have hresult := deliver_spec (tracking_since (tracking_hosts c) _ _) h.tracked.since hlive e.key
    value
  have hroster := h.tracked.roster
  rw [filter_isSpent hroster he]
  generalize b.deliver e.key value = o at hresult ⊢
  cases hresult with
  | stale habsent => exact absurd rfl (habsent e he)
  | refused f hrefuses => exact absurd hrefuses not_refuses_of_hosts
  | ignored f hf hkey hdiffers =>
    obtain rfl := hroster.eq_of_key hf he hkey
    have hhandOver : handOver b.scheduler f.registration.demand (b.mux.observe value) =
        (none, b.scheduler) := if_neg (Bool.eq_false_iff.mp hdiffers)
    rw [isSpent, hdiffers, Bool.false_and, if_neg Bool.false_ne_true, hhandOver]
    exact ⟨b.afterIgnored, h.congr ⟨rfl, rfl, rfl, rfl, rfl, rfl, rfl⟩,
      ⟨⟨rfl, rfl, rfl⟩, rfl, id, List.prefix_rfl⟩, .done _ hlive⟩
  | fired f hf hkey haccepts b₁ hready o' hhand =>
    obtain rfl := hroster.eq_of_key hf he hkey
    have htracked := hready.tracked
    have hup : b₁.mux.isPoisoned = false := by
      rw [isPoisoned_of_frame hready.frame hready.failed, hlive]
    -- whatever the scheduler answers, the roster is what it was before it was called
    have hafter : ∀ {b₂ : SimBench (SchedulerRecord T)}, HandedOver b₁ b₂ →
        Side c label b₂ (if isSpent (b.mux.observe value) f then L.filter (·.key ≠ f.key) else L) ∧
          Keeps b b₂ := by
      intro b₂ hsame
      have hprefix : b.log.issued <+: b₂.log.issued := by
        rw [hsame.issued]
        exact htracked.extra.2.1
      refine ⟨⟨?_, h.unlabelled_of_prefix hprefix⟩, ⟨⟨?_, ?_, ?_⟩, ?_, ?_, hprefix⟩⟩
      · rw [isSpent, haccepts, Bool.true_and]
        simp only [decide_eq_true_eq]
        exact (htracked.congr hsame.subscriptions hsame.native hsame.issued).of_since
      · exact hsame.policy.trans hready.frame.policy
      · exact hsame.unknownAsZero.trans hready.frame.unknownAsZero
      · rw [hsame.subscriptions, hready.frame.capacity]
      · exact hsame.pending.trans hready.pending
      · rw [hlive]
        exact fun hpoisoned => absurd hpoisoned Bool.false_ne_true
    have hhandOver : handOver b.scheduler f.registration.demand (b.mux.observe value) =
        match Scheduler.scheduleMany b₁.scheduler f.registration.tasks with
        | (.ok (), t) => (none, t)
        | (.error cause, t) => (some (.dispatchFailed cause), Scheduler.finalize t) := by
      rw [hready.frame.scheduler]
      exact if_pos haccepts
    rw [hhandOver]
    cases hhand with
    | done b₂ hsame hcall hbridge =>
      obtain ⟨hside, hkeeps⟩ := hafter hsame
      rw [hcall]
      refine ⟨b₂, hside, hkeeps, .done _ ?_⟩
      rw [isPoisoned_eq_false_iff] at hup ⊢
      rw [hsame.failed, hbridge]
      exact hup
    | failed b₂ cause t hsame hcall hscheduler hbridge =>
      obtain ⟨hside, hkeeps⟩ := hafter hsame
      rw [hcall]
      simp only [← hscheduler]
      refine ⟨b₂, hside, hkeeps, .failed _ ?_⟩
      rw [Mux.isPoisoned, hbridge]
      exact Bool.or_true _

/-- Reports have led from `b₁` and `b₂` to `b₁'` and `b₂'`, and no context is poisoned. -/
structure Passed (label₁ label₂ : Nat → Option Nat) (b₁ b₂ : SimBench (SchedulerRecord T))
    (L₁' L₂' : List SimHolding) (b₁' b₂' : SimBench (SchedulerRecord T)) : Prop where
  twins : ∃ c, Twins c label₁ label₂ b₁' L₁' b₂' L₂'
  keeps₁ : Keeps b₁ b₁'
  keeps₂ : Keeps b₂ b₂'
  live₁ : b₁'.mux.isPoisoned = false
  live₂ : b₂'.mux.isPoisoned = false

/-- **Reports to like holdings** of two contexts make the same call of the scheduler, if any. -/
theorem deliver_agree (h : Twins c label₁ label₂ b₁ L₁ b₂ L₂) (hlive₁ : b₁.mux.isPoisoned = false)
    (hlive₂ : b₂.mux.isPoisoned = false) {value v : Logic} (hobserve₁ : b₁.mux.observe value = v)
    (hobserve₂ : b₂.mux.observe value = v) {e₁ e₂ : SimHolding} (he₁ : e₁ ∈ L₁) (he₂ : e₂ ∈ L₂)
    (hview : view label₁ e₁ = view label₂ e₂) :
    Agree Fault.Never (fun _ _ => True)
      (Passed label₁ label₂ b₁ b₂
        (L₁.filter fun f => !(decide (f.key = e₁.key) && isSpent v f))
        (L₂.filter fun f => !(decide (f.key = e₂.key) && isSpent v f)))
      (Moved label₁ label₂ b₁ b₂) (b₁.deliver e₁.key value) (b₂.deliver e₂.key value) := by
  obtain ⟨hdemand, hlabel⟩ := Prod.mk.inj hview
  obtain ⟨b₁', hside₁, hkeeps₁, hreport₁⟩ := deliver_side h.left hlive₁ he₁ hobserve₁
  obtain ⟨b₂', hside₂, hkeeps₂, hreport₂⟩ := deliver_side h.right hlive₂ he₂ hobserve₂
  have hspent : isSpent v e₁ = isSpent v e₂ := by
    show (e₁.registration.demand.edge.condition.accepts v &&
      decide (e₁.registration.demand.mode = .oneShot)) = _
    rw [hdemand]
    rfl
  -- both holdings leave, or both stay
  have hlabels : ((L₁.filter fun f => !(decide (f.key = e₁.key) && isSpent v f)).map
      fun e => label₁ e.number).Perm
        ((L₂.filter fun f => !(decide (f.key = e₂.key) && isSpent v f)).map
          fun e => label₂ e.number) := by
    rw [filter_isSpent h.left.tracked.roster he₁, filter_isSpent h.right.tracked.roster he₂,
      hspent]
    split
    · exact perm_labels_filter h.left.tracked.roster h.right.tracked.roster h.labels he₁ he₂ hlabel
    · exact h.labels
  have htwins : b₁'.scheduler = b₂'.scheduler → Twins c label₁ label₂ b₁' _ b₂' _ := fun hcalls =>
    h.keep hkeeps₁.toSameSettings hkeeps₂.toSameSettings hside₁ hside₂ hcalls hlabels
  -- the same demand is handed over to the same scheduler
  rw [h.scheduler, hdemand] at hreport₁
  generalize handOver b₂.scheduler e₂.registration.demand v = answer at hreport₁ hreport₂
  generalize b₁.deliver e₁.key value = o₁ at hreport₁ ⊢
  generalize b₂.deliver e₂.key value = o₂ at hreport₂ ⊢
  obtain ⟨error, t⟩ := answer
  cases hreport₁ with
  | done d₁ hup₁ =>
    generalize hcalls : b₁'.scheduler = t at hreport₂
    cases hreport₂ with
    | done d₂ hup₂ => exact ⟨trivial, ⟨c, htwins hcalls⟩, hkeeps₁, hkeeps₂, hup₁, hup₂⟩
  | failed e hdown₁ =>
    generalize hcalls : b₁'.scheduler = t at hreport₂
    cases hreport₂ with
    | failed _ hdown₂ =>
      exact ⟨rfl, (htwins hcalls).joint_of_poisoned hdown₁ hdown₂, hkeeps₁.issued, hkeeps₂.issued⟩

end Bench

end EdgeWait
