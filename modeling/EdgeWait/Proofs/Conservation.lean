/-
The conservation of waits.

A wait that a context has accepted is pending, or in a live registration, or it has been resumed, or
it has been given up by a cancellation or a shutdown; and it is so once.

* `waits_demands_perm` — a flush asks for the pending waits and for nothing else;
* `balanced_turn` — one turn moves waits from one account to another;
* `conservation` — so the accounts balance after every run without an exhausting flush.

Design notes: the accounts are multisets, for a task may wait for the same edge of a signal again
once its wait has been flushed.  A flush that finds the pool empty is left out, because it leaves a
list pending of which some batches may have been registered.
-/
import EdgeWait.Proofs.Lifecycle
import Mathlib.Algebra.Order.Group.Multiset
import Mathlib.Tactic.Abel

namespace EdgeWait

/-! ### Waits in lists and batches -/

/-- The waits that a registration is made for. -/
def Demand.waits {σ : Type} (d : Demand σ) : List (Wait σ) := d.tasks.map (⟨d.signal, d.edge, ·⟩)

/-- The waits behind a registration. -/
def Registration.waits {σ : Type} (r : Registration σ) : List (Wait σ) := r.demand.waits

namespace PendingWaits

variable {σ : Type} [DecidableEq σ]

/-- The batches of one list are made of the waits in it, in their order. -/
theorem waits_listDemands (policy : BatchPolicy) (p : PendingWaits σ) (v : σ × Edge) :
    (p.listDemands policy v).flatMap Demand.waits =
      p.waits.filter fun w => (w.signal, w.edge) = v := by
  have hbatches : (p.listDemands policy v).flatMap Demand.waits =
      (p.waiting v.1 v.2).map (⟨v.1, v.2, ·⟩) := by
    rw [listDemands, List.flatMap_map]
    show ((policy.split (p.waiting v.1 v.2)).map (List.map (Wait.mk v.1 v.2))).flatten = _
    rw [← List.map_flatten, policy.flatten_split]
  rw [hbatches, p.map_waiting]

/-- **A flush asks for the pending waits**, each of them once, and for no others. -/
theorem waits_demands_perm (policy : BatchPolicy) (order : VisitOrder σ) (p : PendingWaits σ) :
    ((p.demands policy order).flatMap Demand.waits).Perm p.waits := by
  have hlists : (p.demands policy order).flatMap Demand.waits =
      (p.visits order).flatMap fun v => p.waits.filter fun w => (w.signal, w.edge) = v := by
    rw [demands, List.flatMap_assoc]
    exact List.flatMap_congr fun v _ => p.waits_listDemands policy v
  rw [hlists]
  exact flatMap_lists_perm (p.nodup_visits order) fun _ hw => mem_visits hw

end PendingWaits

/-! ### The waits of a roster -/

namespace Subscriptions

variable {σ η : Type}

/-- The waits behind the holdings of a roster. -/
def rosterWaits (L : List (Holding σ η)) : Multiset (Wait σ) :=
  L.flatMap (·.registration.waits)

@[simp] theorem rosterWaits_nil : rosterWaits ([] : List (Holding σ η)) = 0 := rfl

theorem rosterWaits_append (L L' : List (Holding σ η)) :
    rosterWaits (L ++ L') = rosterWaits L + rosterWaits L' := by
  rw [rosterWaits, List.flatMap_append, ← Multiset.coe_add]
  rfl

theorem rosterWaits_eq_demands (L : List (Holding σ η)) :
    rosterWaits L = ((L.map (·.registration.demand)).flatMap Demand.waits : List (Wait σ)) := by
  rw [List.flatMap_map]
  rfl

/-- To take out a holding takes out its waits. -/
theorem rosterWaits_filter_key {L : List (Holding σ η)} (hkeys : (L.map (·.key)).Nodup)
    {e : Holding σ η} (he : e ∈ L) :
    rosterWaits L = rosterWaits (L.filter (·.key ≠ e.key)) + ↑e.registration.waits := by
  have hperm := (perm_filter_key hkeys he).flatMap_right (·.registration.waits)
  rw [rosterWaits, Multiset.coe_eq_coe.mpr hperm, List.flatMap_cons, ← Multiset.coe_add, add_comm]
  rfl

end Subscriptions

namespace Mux

variable {σ η : Type}

/-- The waits behind the live registrations. -/
def liveWaits (m : Mux σ η) : Multiset (Wait σ) :=
  m.subscriptions.arena.toList.flatMap (·.2.waits)

end Mux

namespace Bench

open Subscriptions

variable {N T σ η : Type}

theorem Tracked.liveWaits_eq
    {I : List (Holding σ η) → Arena σ → N → List RegistrationKey → Prop} {b : Bench N T σ η}
    {L : List (Holding σ η)} (h : b.Tracked I L) : b.mux.liveWaits = rosterWaits L := by
  have hperm := h.roster.toList_perm.flatMap_right (·.2.waits)
  rw [Mux.liveWaits, Multiset.coe_eq_coe.mpr hperm, List.flatMap_map]
  rfl

/-! ### The accounts of a run -/

variable [NativeLayer N σ η] [Scheduler T] [DecidableEq σ] [LogText σ] [LogText η]

/-- The waits that a turn brings in: one that is recorded, or one that is subscribed at once with
success. -/
def accepted (b : RecordedBench N T σ η) : Turn N T σ → Multiset (Wait σ)
  | .op (.addWait signal edge task) => {⟨signal, edge, task⟩}
  | .op (.waitNow signal edge task) =>
    match b.waitNow signal edge task with
    | .done _ _ => {⟨signal, edge, task⟩}
    | _ => 0
  | .op (.watch signal edge task) =>
    match b.watch signal edge task with
    | .done _ _ => {⟨signal, edge, task⟩}
    | _ => 0
  | _ => 0

/-- The waits behind the registrations that a turn cancels or shuts down. -/
def removed (b : RecordedBench N T σ η) : Turn N T σ → Multiset (Wait σ)
  | .op (.cancel key) => ((b.mux.registration? key).toList.flatMap (·.waits) : List (Wait σ))
  | .op .shutdown => b.mux.liveWaits
  | _ => 0

/-- The pending waits that a turn drops. -/
def dropped (b : RecordedBench N T σ η) : Turn N T σ → Multiset (Wait σ)
  | .op .shutdown => b.mux.pending.waits
  | _ => 0

/-- What the turns of a run add up to. -/
def total (f : RecordedBench N T σ η → Turn N T σ → Multiset (Wait σ)) :
    List (Turn N T σ) → RecordedBench N T σ η → Multiset (Wait σ)
  | [], _ => 0
  | t :: rest, b =>
    f b t +
      match b.turn t with
      | .error _ => 0
      | .ok b => total f rest b

/-- The waits behind the one-shot registrations among some that have fired. -/
def firedWaits (matched : List (Registration σ)) : Multiset (Wait σ) :=
  ((matched.filter (·.mode = .oneShot)).flatMap (·.waits) : List (Wait σ))

/-- A turn is a flush that finds the pool empty. -/
def exhausts (b : RecordedBench N T σ η) : Turn N T σ → Bool
  | .op (.flush order) =>
    match b.flush order with
    | .failed (.poolExhausted _) _ => true
    | _ => false
  | _ => false

/-- No flush of a run finds the pool empty. -/
def NeverExhausts (turns : List (Turn N T σ)) (b : RecordedBench N T σ η) : Prop :=
  ∀ pre t post b', turns = pre ++ t :: post → after pre b = .ok b' → b'.exhausts t = false

/-- Where the waits are that have been accepted in a run from `b` to `c`. -/
structure Conserved (b : RecordedBench N T σ η) (turns : List (Turn N T σ))
    (c : RecordedBench N T σ η) : Prop where
  waits : total accepted turns b = ↑c.mux.pending.waits + c.mux.liveWaits +
    firedWaits (allMatched turns b) + total removed turns b + total dropped turns b
  /-- Registrations that match are handed over in one call each. -/
  resumed : c.resumed = (allMatched turns b).map (·.tasks)

/-! ### One turn -/

/-- A turn from `b` with the roster `L` to `b'` with the roster `L'` moves waits from one account to
another. -/
def Balanced (b : RecordedBench N T σ η) (L : List (Holding σ η)) (t : Turn N T σ)
    (b' : RecordedBench N T σ η) (L' : List (Holding σ η)) : Prop :=
  ↑b.mux.pending.waits + rosterWaits L + b.accepted t =
    ↑b'.mux.pending.waits + rosterWaits L' + firedWaits (b.matched t).toList + b.removed t +
      b.dropped t

omit [Scheduler T] in
theorem balanced_flush {b b' : RecordedBench N T σ η} {L : List (Holding σ η)}
    (h : b.Tracked Filed L) {order : VisitOrder σ}
    (hroom : b.exhausts (.op (.flush order)) = false) (hb : (b.flush order).final = .ok b') :
    ∃ L', b'.Tracked Filed L' ∧
      (b.mux.pending.waits : Multiset (Wait σ)) + rosterWaits L =
        b'.mux.pending.waits + rosterWaits L' := by
  cases hlive : b.mux.isPoisoned with
  | true =>
    rw [flush_of_poisoned hlive] at hb
    obtain rfl := Except.ok.inj hb
    exact ⟨L, h, rfl⟩
  | false =>
    have hresult := flush_spec tracking_filed h hlive order
    rw [exhausts] at hroom
    generalize b.flush order = o at hb hresult hroom
    cases hresult with
    | failed new b₁ => cases hroom
    | done new b₁ summary htracked _ hpending _ hdemands =>
      obtain rfl := Except.ok.inj hb
      refine ⟨L ++ new, htracked, ?_⟩
      -- what has been pending is behind the new holdings now
      have hwaits := Multiset.coe_eq_coe.mpr
        (b.mux.pending.waits_demands_perm b.mux.policy order)
      rw [rosterWaits_append, rosterWaits_eq_demands new, hdemands, hwaits, hpending,
        PendingWaits.waits_clear, Multiset.coe_nil, zero_add, add_comm]

omit [Scheduler T] [DecidableEq σ] in
theorem balanced_registerSingle {b b' : RecordedBench N T σ η} {L : List (Holding σ η)}
    (h : b.Tracked Filed L) (signal : σ) (edge : Edge) (task : TaskId) (mode : Mode)
    (hb : (b.registerSingle signal edge task mode).final = .ok b') :
    ∃ L', b'.Tracked Filed L' ∧
      (b.mux.pending.waits : Multiset (Wait σ)) + rosterWaits L +
          (match b.registerSingle signal edge task mode with
            | .done _ _ => {⟨signal, edge, task⟩}
            | _ => 0) =
        b'.mux.pending.waits + rosterWaits L' := by
  cases hlive : b.mux.isPoisoned with
  | true =>
    rw [registerSingle_of_poisoned hlive] at hb ⊢
    obtain rfl := Except.ok.inj hb
    exact ⟨L, h, add_zero _⟩
  | false =>
    obtain ⟨b₁, heq, htracked, -, -, hpending, -⟩ | ⟨e, b₁, heq, hmade, hdemand⟩ :=
      registerSingle_spec tracking_filed h hlive signal edge task mode
    · rw [heq] at hb ⊢
      obtain rfl := Except.ok.inj hb
      exact ⟨L, htracked, by rw [hpending]; exact add_zero _⟩
    · rw [heq] at hb ⊢
      obtain rfl := Except.ok.inj hb
      refine ⟨L ++ [e], hmade.tracked, ?_⟩
      rw [hmade.pending, rosterWaits_append, rosterWaits_eq_demands [e], List.map_singleton,
        hdemand, add_assoc]
      rfl

omit [DecidableEq σ] [LogText σ] [LogText η] in
/-- **A report** keeps a wait where it is, or fires the registration that it is behind. -/
theorem balanced_deliver {b b' : RecordedBench N T σ η} {L : List (Holding σ η)}
    (h : b.Tracked Filed L) (key : RegistrationKey) (value : Logic)
    (hb : (b.deliver key value).final = .ok b') :
    ∃ L', b'.Tracked Filed L' ∧ b'.mux.pending = b.mux.pending ∧
      rosterWaits L = rosterWaits L' +
        firedWaits (b.matched (.op (.deliver key value))).toList := by
  cases hlive : b.mux.isPoisoned with
  | true =>
    rw [deliver_of_poisoned hlive] at hb
    obtain rfl := Except.ok.inj hb
    refine ⟨L, h, rfl, ?_⟩
    simp [matched, hlive, firedWaits]
  | false =>
    have hresult := deliver_spec tracking_filed h hlive key value
    generalize b.deliver key value = o at hb hresult
    cases hresult with
    | stale habsent =>
      obtain rfl := Except.ok.inj hb
      have hgone : b.mux.registration? key = none := h.roster.get?_eq_none_iff.mpr habsent
      refine ⟨L, h.congr rfl rfl (Log.issued_push (by simp)), rfl, ?_⟩
      simp [matched, hlive, hgone, firedWaits]
    | ignored e he hkey hdiffers =>
      obtain rfl := Except.ok.inj hb
      have hpresent : b.mux.registration? key = some e.registration :=
        hkey ▸ h.roster.get?_of_mem he
      refine ⟨L, h.congr rfl rfl rfl, rfl, ?_⟩
      simp [matched, hlive, hpresent, hdiffers, firedWaits]
    | refused f => cases hb
    | fired e he hkey haccepts b₁ hready o' hhand =>
      have hpresent : b.mux.registration? key = some e.registration :=
        hkey ▸ h.roster.get?_of_mem he
      have hmatched : b.matched (.op (.deliver key value)) = some e.registration := by
        simp [matched, hlive, hpresent, Option.filter, haccepts]
      rw [final_andThen_done (g := fun _ => _)] at hb
      -- the registration has fired even if the scheduler does not take its tasks
      have hsame := hhand.handedOver hb
      refine ⟨_, hready.tracked.congr hsame.subscriptions hsame.native hsame.issued,
        hsame.pending.trans hready.pending, ?_⟩
      rw [hmatched]
      cases hmode : e.registration.mode with
      | persistent => simp [firedWaits, hmode]
      | oneShot =>
        rw [if_pos rfl, rosterWaits_filter_key h.roster.keys_nodup he]
        simp [firedWaits, hmode]

/-- A turn that records a wait has it pending. -/
theorem balanced_addWait {b b' : RecordedBench N T σ η} {L : List (Holding σ η)}
    (h : b.Tracked Filed L) {signal : σ} {edge : Edge} {task : TaskId}
    (hturn : b.turn (.op (.addWait signal edge task)) = .ok b') :
    b'.Tracked Filed L ∧ Balanced b L (.op (.addWait signal edge task)) b' L := by
  rw [turn, perform] at hturn
  rcases b.addWait_spec signal edge task with ⟨-, heq⟩ | heq
  · rw [heq] at hturn
    cases hturn
  · rw [heq] at hturn
    obtain rfl := Except.ok.inj hturn
    refine ⟨h.congr rfl rfl rfl, ?_⟩
    have hpushed := Multiset.coe_eq_coe.mpr (b.mux.pending.waits_push_perm ⟨signal, edge, task⟩)
    rw [← Multiset.coe_add, Multiset.coe_singleton] at hpushed
    simp only [Balanced, accepted, matched, removed, dropped, firedWaits, afterWait, hpushed,
      Option.toList_none, List.filter_nil, List.flatMap_nil, Multiset.coe_nil]
    abel

/-- A turn that cancels a registration removes the waits behind it. -/
theorem balanced_cancel {b b' : RecordedBench N T σ η} {L : List (Holding σ η)}
    (h : b.Tracked Filed L) {key : RegistrationKey}
    (hturn : b.turn (.op (.cancel key)) = .ok b') :
    ∃ L', b'.Tracked Filed L' ∧ Balanced b L (.op (.cancel key)) b' L' := by
  have hresult := cancel_spec tracking_filed h key
  rw [turn, perform] at hturn
  generalize b.cancel key = o at hturn hresult
  cases hresult with
  | gone habsent =>
    obtain rfl := Except.ok.inj hturn
    have hgone : b.mux.registration? key = none := h.roster.get?_eq_none_iff.mpr habsent
    refine ⟨L, h, ?_⟩
    simp [Balanced, accepted, matched, removed, dropped, firedWaits, hgone]
  | refused f => cases hturn
  | ended e he hkey b₁ b₂ hended hcounted =>
    obtain rfl := Except.ok.inj hturn
    subst hkey hcounted
    have hpresent : b.mux.registration? e.key = some e.registration := h.roster.get?_of_mem he
    refine ⟨_, hended.tracked.congr rfl rfl (Log.issued_push (by simp)), ?_⟩
    rw [Balanced, rosterWaits_filter_key h.roster.keys_nodup he]
    show _ = (b₁.mux.pending.waits : Multiset (Wait σ)) + _ + _ + _ + _
    rw [hended.pending]
    simp [accepted, matched, removed, dropped, firedWaits, hpresent, add_assoc]

/-- A turn that shuts the context down removes or drops all waits. -/
theorem balanced_shutdown {b b' : RecordedBench N T σ η} {L : List (Holding σ η)}
    (h : b.Tracked Filed L) (hturn : b.turn (.op .shutdown) = .ok b') :
    b'.Tracked Filed [] ∧ Balanced b L (.op .shutdown) b' [] := by
  rw [turn, perform] at hturn
  rcases shutdown_spec tracking_filed h with ⟨f, -, heq⟩ | ⟨b₁, heq, htracked, -, hpending, -⟩
  · rw [heq] at hturn
    cases hturn
  · rw [heq] at hturn
    obtain rfl := Except.ok.inj hturn
    refine ⟨htracked, ?_⟩
    rw [Balanced, hpending, PendingWaits.waits_clear, removed, h.liveWaits_eq]
    simp only [accepted, matched, dropped, firedWaits, rosterWaits_nil, Option.toList_none,
      List.filter_nil, List.flatMap_nil, Multiset.coe_nil]
    abel

/-- **One turn** moves waits from one account to another. -/
theorem balanced_turn {b b' : RecordedBench N T σ η} {L : List (Holding σ η)}
    (h : b.Tracked Filed L) {t : Turn N T σ} (hturn : b.turn t = .ok b')
    (hroom : b.exhausts t = false) :
    ∃ L', b'.Tracked Filed L' ∧ Balanced b L t b' L' := by
  cases t with
  | others native scheduler =>
    obtain rfl := Except.ok.inj hturn
    refine ⟨L, h.beside steady_filed native scheduler, ?_⟩
    simp [Balanced, accepted, matched, removed, dropped, firedWaits, beside]
  | op o =>
    -- each operation touches few of the accounts; the others are empty and drop out
    cases o with
    | addWait signal edge task => exact ⟨L, balanced_addWait h hturn⟩
    | flush order =>
      rw [turn, perform, final_andThen_done] at hturn
      obtain ⟨L', h', hbalance⟩ := balanced_flush h hroom hturn
      refine ⟨L', h', ?_⟩
      simp [Balanced, accepted, matched, removed, dropped, firedWaits, hbalance]
    | waitNow signal edge task =>
      rw [turn, perform, final_andThen_done] at hturn
      obtain ⟨L', h', hbalance⟩ := balanced_registerSingle h signal edge task .oneShot hturn
      refine ⟨L', h', ?_⟩
      rw [Balanced, accepted, waitNow, hbalance]
      simp [matched, removed, dropped, firedWaits]
    | watch signal edge task =>
      rw [turn, perform, final_andThen_done] at hturn
      obtain ⟨L', h', hbalance⟩ := balanced_registerSingle h signal edge task .persistent hturn
      refine ⟨L', h', ?_⟩
      rw [Balanced, accepted, watch, hbalance]
      simp [matched, removed, dropped, firedWaits]
    | deliver key value =>
      rw [turn, perform, final_andThen_done] at hturn
      obtain ⟨L', h', hpending, hbalance⟩ := balanced_deliver h key value hturn
      refine ⟨L', h', ?_⟩
      rw [Balanced, hpending, hbalance]
      simp only [accepted, removed, dropped]
      abel
    | cancel key => exact balanced_cancel h hturn
    | shutdown => exact ⟨[], balanced_shutdown h hturn⟩

/-! ### Runs -/

theorem neverExhausts_nil (b : RecordedBench N T σ η) : NeverExhausts [] b := by
  intro pre t post b' heq
  simp at heq

theorem neverExhausts_cons {t : Turn N T σ} {rest : List (Turn N T σ)}
    {b b' : RecordedBench N T σ η} (hturn : b.turn t = .ok b') :
    NeverExhausts (t :: rest) b ↔ b.exhausts t = false ∧ NeverExhausts rest b' := by
  constructor
  · intro h
    refine ⟨h [] t rest b rfl rfl, ?_⟩
    rintro pre u post b₁ rfl hpre
    exact h (t :: pre) u post b₁ rfl (after_cons.mpr ⟨b', hturn, hpre⟩)
  · rintro ⟨hfirst, hlater⟩ pre u post b₁ heq hpre
    cases pre with
    | nil =>
      obtain ⟨rfl, rfl⟩ := List.cons.inj heq
      obtain rfl := Except.ok.inj hpre
      exact hfirst
    | cons v pre =>
      obtain ⟨rfl, hrest⟩ := List.cons.inj heq
      obtain ⟨b₂, hturn', hpre'⟩ := after_cons.mp hpre
      obtain rfl := Except.ok.inj (hturn.symm.trans hturn')
      exact hlater pre u post b₁ hrest hpre'

omit [DecidableEq σ] [LogText σ] in
theorem firedWaits_append (matched matched' : List (Registration σ)) :
    firedWaits (matched ++ matched') = firedWaits matched + firedWaits matched' := by
  rw [firedWaits, List.filter_append, List.flatMap_append, ← Multiset.coe_add]
  rfl

/-- The accounts balance over any run, from what has been in them before. -/
theorem conserved_after (turns : List (Turn N T σ)) :
    ∀ (b c : RecordedBench N T σ η) (L : List (Holding σ η)), b.Tracked Filed L →
      NeverExhausts turns b → after turns b = .ok c →
      ↑b.mux.pending.waits + rosterWaits L + total accepted turns b =
        ↑c.mux.pending.waits + c.mux.liveWaits + firedWaits (allMatched turns b) +
          total removed turns b + total dropped turns b := by
  induction turns with
  | nil =>
    rintro b c L h - ⟨⟩
    simp [total, allMatched, firedWaits, h.liveWaits_eq]
  | cons t rest ih =>
    intro b c L h hroom hrun
    obtain ⟨b', hturn, hrest⟩ := after_cons.mp hrun
    obtain ⟨hfirst, hlater⟩ := (neverExhausts_cons hturn).mp hroom
    obtain ⟨L', h', hbalanced⟩ := balanced_turn h hturn hfirst
    have htotal := ih b' c L' h' hlater hrest
    -- the rest of the run starts from what the turn has left pending and live
    simp only [total, allMatched, hturn, firedWaits_append]
    calc ↑b.mux.pending.waits + rosterWaits L + (b.accepted t + total accepted rest b')
        = (↑b.mux.pending.waits + rosterWaits L + b.accepted t) + total accepted rest b' := by
          abel
      _ = (↑b'.mux.pending.waits + rosterWaits L' + firedWaits (b.matched t).toList +
            b.removed t + b.dropped t) + total accepted rest b' := by
          rw [hbalanced]
      _ = (↑b'.mux.pending.waits + rosterWaits L' + total accepted rest b') +
            (firedWaits (b.matched t).toList + b.removed t + b.dropped t) := by
          abel
      _ = ↑c.mux.pending.waits + c.mux.liveWaits +
            (firedWaits (b.matched t).toList + firedWaits (allMatched rest b')) +
            (b.removed t + total removed rest b') + (b.dropped t + total dropped rest b') := by
          rw [htotal]
          abel

/-- **No wait is lost, and none is counted twice**: in every run of a new context in which no flush
finds the pool empty, what has been accepted is pending, or live, or it has fired, or it has been
removed or dropped. -/
theorem conservation {b c : RecordedBench N T σ η} (hfresh : Fresh b) {turns : List (Turn N T σ)}
    (hroom : NeverExhausts turns b) (hrun : after turns b = .ok c) : Conserved b turns c := by
  have h : b.Tracked Filed [] := hfresh.tracked fun _ _ he => absurd he (by simp)
  have hwaits := conserved_after turns b c [] h hroom hrun
  have hresumed := resumed_after turns b c [] h hrun
  obtain ⟨config, picks, mux, native, scheduler, hmux, rfl⟩ := hfresh
  obtain ⟨policy, -, rfl⟩ := Mux.ofConfig_eq hmux
  refine ⟨?_, hresumed⟩
  simpa using hwaits

/-- Two waits that fire together, one that is cancelled, one that finds the pool empty, and one that
is dropped. -/
def fiveWaits : List (Turn Switchboard ScriptedScheduler Pin) :=
  [.op (.addWait ⟨0⟩ .rising ⟨1⟩), .op (.addWait ⟨0⟩ .rising ⟨2⟩),
    .op (.flush (.recorded Pin)), .op (.deliver ⟨0, 0⟩ .one), .op (.watch ⟨1⟩ .either ⟨3⟩),
    .op (.waitNow ⟨1⟩ .either ⟨4⟩), .op (.cancel ⟨0, 1⟩), .op (.addWait ⟨2⟩ .falling ⟨5⟩),
    .op .shutdown]

theorem conservation_fiveWaits :
    ∃ b c : RecordedBench Switchboard ScriptedScheduler Pin Nat, Fresh b ∧
      after fiveWaits b = .ok c ∧ NeverExhausts fiveWaits b ∧ c.mux.isPoisoned = true ∧
      c.resumed = [[⟨1⟩, ⟨2⟩]] ∧ Conserved b fiveWaits c := by
  obtain ⟨b, c, hfresh, hroom, hrun, hpoisoned, hresumed⟩ :
      ∃ b c : RecordedBench Switchboard ScriptedScheduler Pin Nat, Fresh b ∧
        NeverExhausts fiveWaits b ∧ after fiveWaits b = .ok c ∧ c.mux.isPoisoned = true ∧
        c.resumed = [[⟨1⟩, ⟨2⟩]] := by
    refine ⟨_, _, ⟨{ pool := { capacity := 1 } }, [], _, {}, .failingAt [] ⟨"", ""⟩, rfl, rfl⟩, ?_,
      rfl, rfl, rfl⟩
    iterate 9 refine (neverExhausts_cons rfl).mpr ⟨rfl, ?_⟩
    exact neverExhausts_nil _
  exact ⟨b, c, hfresh, hrun, hroom, hpoisoned, hresumed, conservation hfresh hroom hrun⟩

end Bench

end EdgeWait
