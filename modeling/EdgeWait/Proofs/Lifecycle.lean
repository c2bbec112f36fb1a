/-
The life of a registration.

A registration is live from the turn that makes it to the first turn that ends it: a matching report
if it is one-shot, a cancellation of its key, or a shutdown.  While it is live, each matching report
hands its tasks over, in one call of the scheduler.

* `registration?_after` — what is live after a run, from what was live before it;
* `deliver_notified` — what a report leads to, by what is live under its key;
* `resumed_after` — the calls of the scheduler in a run are those of the matching reports;
* `lifecycle` — all of this for a run of a new context.

Design notes: a key does not tell two registrations apart that have been made under it one after the
other.  What does is the turn that has made each of them, so a registration is spoken of together
with the run since its making (`Makes`, `EndedIn`).
-/
import EdgeWait.Proofs.Ownership
import EdgeWait.Proofs.Reach

namespace EdgeWait

namespace Bench

variable {N T σ η : Type} [NativeLayer N σ η] [Scheduler T] [DecidableEq σ] [LogText σ] [LogText η]
  {I : List (Holding σ η) → Arena σ → NativeRecord N σ η → List RegistrationKey → Prop}

/-- A turn makes the registration `r` under `key`. -/
structure Makes (b : RecordedBench N T σ η) (t : Turn N T σ) (key : RegistrationKey)
    (r : Registration σ) (b' : RecordedBench N T σ η) : Prop where
  turn_eq : b.turn t = .ok b'
  absent : b.mux.registration? key = none
  present : b'.mux.registration? key = some r

/-- Some operation of a run ends the registration `r` under `key`. -/
def EndedIn (key : RegistrationKey) (r : Registration σ) (turns : List (Turn N T σ))
    (b : RecordedBench N T σ η) : Prop :=
  ∃ pre op post b', turns = pre ++ .op op :: post ∧ after pre b = .ok b' ∧ b'.ends key r op = true

/-- Some turn of a run makes `r` under `key`, and the rest of the run does not end it. -/
def Standing (key : RegistrationKey) (r : Registration σ) (turns : List (Turn N T σ))
    (b : RecordedBench N T σ η) : Prop :=
  ∃ pre t post b₁ b₂, turns = pre ++ t :: post ∧ after pre b = .ok b₁ ∧ Makes b₁ t key r b₂ ∧
    ¬ EndedIn key r post b₂

/-! ### One turn -/

/-- What is live after a turn was live before and has not been ended, or has just been made. -/
theorem registration?_turn (hI : Tracking I) {b b' : RecordedBench N T σ η}
    {L : List (Holding σ η)} (h : b.Tracked I L) {t : Turn N T σ} (hturn : b.turn t = .ok b')
    (key : RegistrationKey) (r : Registration σ) :
    b'.mux.registration? key = some r ↔
      (b.mux.registration? key = some r ∧ ∀ op, t = .op op → b.ends key r op = false) ∨
        Makes b t key r b' := by
  cases t with
  | others native scheduler =>
    obtain rfl := Except.ok.inj hturn
    constructor
    · exact fun hr => .inl ⟨hr, by simp⟩
    · rintro (⟨hr, -⟩ | ⟨-, -, hr⟩)
      · exact hr
      · exact hr
  | op o =>
    obtain ⟨new, htracked, hfresh, -⟩ := perform_roster hI h hturn
    rw [htracked.registration?_eq_some_iff]
    constructor
    -- the roster holds what has stayed, and what is new
    · rintro ⟨e, he, rfl, rfl⟩
      rcases List.mem_append.mp he with hold | hnew
      · obtain ⟨hin, hstays⟩ := List.mem_filter.mp hold
        refine .inl ⟨h.roster.get?_of_mem hin, ?_⟩
        rintro op ⟨⟩
        simpa using hstays
      · refine .inr ⟨hturn, ?_, htracked.roster.get?_of_mem he⟩
        exact h.roster.get?_eq_none_iff.mpr fun f hf => hfresh e hnew f hf
    · rintro (⟨hr, hstays⟩ | ⟨-, -, hr⟩)
      · obtain ⟨e, he, rfl, rfl⟩ := (h.registration?_eq_some_iff key r).mp hr
        refine ⟨e, List.mem_append_left _ (List.mem_filter.mpr ⟨he, ?_⟩), rfl, rfl⟩
        simpa using hstays o rfl
      · exact (htracked.registration?_eq_some_iff key r).mp hr

/-- Only an operation makes registrations, and only those that it asks for. -/
theorem Makes.asked (hI : Tracking I) {b b' : RecordedBench N T σ η} {L : List (Holding σ η)}
    (h : b.Tracked I L) {t : Turn N T σ} {key : RegistrationKey} {r : Registration σ}
    (hmakes : Makes b t key r b') : ∃ op, t = .op op ∧ r.demand ∈ b.asks op := by
  obtain ⟨hturn, habsent, hpresent⟩ := hmakes
  cases t with
  | others native scheduler =>
    obtain rfl := Except.ok.inj hturn
    exact absurd (habsent.symm.trans hpresent) (by simp)
  | op o =>
    obtain ⟨new, htracked, -, hasked, -⟩ := perform_roster hI h hturn
    obtain ⟨e, he, rfl, rfl⟩ := (htracked.registration?_eq_some_iff key r).mp hpresent
    refine ⟨o, rfl, hasked.subset (List.mem_map.mpr ⟨e, ?_, rfl⟩)⟩
    rcases List.mem_append.mp he with hold | hnew
    · have hget := h.roster.get?_of_mem (List.mem_of_mem_filter hold)
      exact absurd (habsent.symm.trans hget) (by simp)
    · exact hnew

/-! ### Runs -/

/-- The places in a run are its first turn and the places in the rest of it. -/
theorem exists_split_cons {α : Type} {t : α} {rest : List α} {P : List α → α → List α → Prop} :
    (∃ pre u post, t :: rest = pre ++ u :: post ∧ P pre u post) ↔
      P [] t rest ∨ ∃ pre u post, rest = pre ++ u :: post ∧ P (t :: pre) u post := by
  constructor
  · rintro ⟨_ | ⟨v, pre⟩, u, post, heq, hp⟩
    · obtain ⟨rfl, rfl⟩ := List.cons.inj heq
      exact .inl hp
    · obtain ⟨rfl, hrest⟩ := List.cons.inj heq
      exact .inr ⟨pre, u, post, hrest, hp⟩
  · rintro (hp | ⟨pre, u, post, rfl, hp⟩)
    · exact ⟨[], t, rest, rfl, hp⟩
    · exact ⟨t :: pre, u, post, rfl, hp⟩

theorem after_cons {t : Turn N T σ} {rest : List (Turn N T σ)} {b c : RecordedBench N T σ η} :
    after (t :: rest) b = .ok c ↔ ∃ b', b.turn t = .ok b' ∧ after rest b' = .ok c := by
  rw [after]
  cases b.turn t with
  | error f => simp
  | ok b' => simp

theorem endedIn_nil {key : RegistrationKey} {r : Registration σ} {b : RecordedBench N T σ η} :
    ¬ EndedIn key r [] b := by
  rintro ⟨pre, op, post, b', heq, -⟩
  simp at heq

theorem standing_nil {key : RegistrationKey} {r : Registration σ} {b : RecordedBench N T σ η} :
    ¬ Standing key r [] b := by
  rintro ⟨pre, t, post, b₁, b₂, heq, -⟩
  simp at heq

theorem endedIn_cons {key : RegistrationKey} {r : Registration σ} {t : Turn N T σ}
    {rest : List (Turn N T σ)} {b b' : RecordedBench N T σ η} (hturn : b.turn t = .ok b') :
    EndedIn key r (t :: rest) b ↔ (∃ op, t = .op op ∧ b.ends key r op = true) ∨
      EndedIn key r rest b' := by
  have hsplit := @exists_split_cons _ t rest fun pre u _ =>
    ∃ op b', u = .op op ∧ after pre b = .ok b' ∧ b'.ends key r op = true
  constructor
  · rintro ⟨pre, op, post, b₁, heq, hrun, hends⟩
    rcases hsplit.mp ⟨pre, _, post, heq, op, b₁, rfl, hrun, hends⟩ with
      ⟨op, b₁, hop, hrun, hends⟩ | ⟨pre, _, post, heq, op, b₁, rfl, hrun, hends⟩
    · obtain rfl := Except.ok.inj hrun
      exact .inl ⟨op, hop, hends⟩
    · obtain ⟨b₂, hturn', hrest⟩ := after_cons.mp hrun
      obtain rfl := Except.ok.inj (hturn.symm.trans hturn')
      exact .inr ⟨pre, op, post, b₁, heq, hrest, hends⟩
  · rintro (⟨op, rfl, hends⟩ | ⟨pre, op, post, b₁, rfl, hrun, hends⟩)
    · exact ⟨[], op, rest, b, rfl, rfl, hends⟩
    · exact ⟨t :: pre, op, post, b₁, rfl, after_cons.mpr ⟨b', hturn, hrun⟩, hends⟩

theorem standing_cons {key : RegistrationKey} {r : Registration σ} {t : Turn N T σ}
    {rest : List (Turn N T σ)} {b b' : RecordedBench N T σ η} (hturn : b.turn t = .ok b') :
    Standing key r (t :: rest) b ↔ (Makes b t key r b' ∧ ¬ EndedIn key r rest b') ∨
      Standing key r rest b' := by
  have hsplit := @exists_split_cons _ t rest fun pre u post =>
    ∃ b₁ b₂, after pre b = .ok b₁ ∧ Makes b₁ u key r b₂ ∧ ¬ EndedIn key r post b₂
  constructor
  · rintro ⟨pre, u, post, b₁, b₂, heq, hstands⟩
    rcases hsplit.mp ⟨pre, u, post, heq, b₁, b₂, hstands⟩ with
      ⟨b₁, b₂, hrun, hmakes, hstays⟩ | ⟨pre, u, post, heq, b₁, b₂, hrun, hmakes, hstays⟩
    · obtain rfl := Except.ok.inj hrun
      obtain rfl := Except.ok.inj (hturn.symm.trans hmakes.turn_eq)
      exact .inl ⟨hmakes, hstays⟩
    · obtain ⟨b₃, hturn', hrest⟩ := after_cons.mp hrun
      obtain rfl := Except.ok.inj (hturn.symm.trans hturn')
      exact .inr ⟨pre, u, post, b₁, b₂, heq, hrest, hmakes, hstays⟩
  · rintro (⟨hmakes, hstays⟩ | ⟨pre, u, post, b₁, b₂, rfl, hrun, hmakes, hstays⟩)
    · exact ⟨[], t, rest, b, b', rfl, rfl, hmakes, hstays⟩
    · exact ⟨t :: pre, u, post, b₁, b₂, rfl, after_cons.mpr ⟨b', hturn, hrun⟩, hmakes, hstays⟩

/-- **What is live after a run** was live before it and has not been ended, or has been made in it
and not been ended since. -/
theorem registration?_after (hI : Tracking I) (hsteady : Steady I) (key : RegistrationKey)
    (r : Registration σ) (turns : List (Turn N T σ)) :
    ∀ (b c : RecordedBench N T σ η) (L : List (Holding σ η)), b.Tracked I L →
      after turns b = .ok c → (c.mux.registration? key = some r ↔
        (b.mux.registration? key = some r ∧ ¬ EndedIn key r turns b) ∨ Standing key r turns b) := by
  induction turns with
  | nil =>
    rintro b c L - ⟨⟩
    simp [endedIn_nil, standing_nil]
  | cons t rest ih =>
    intro b c L h hrun
    obtain ⟨b', hturn, hrest⟩ := after_cons.mp hrun
    obtain ⟨L', h'⟩ := turn_tracked hI hsteady h hturn
    have hstep := registration?_turn hI h hturn key r
    have hkept : (∀ op, t = .op op → b.ends key r op = false) ↔
        ¬ ∃ op, t = .op op ∧ b.ends key r op = true := by
      simp
    rw [ih b' c L' h' hrest, hstep, endedIn_cons hturn, standing_cons hturn, hkept, not_or,
      or_and_right, or_assoc, and_assoc]

/-! ### Reports -/

/-- Everything that a matching report to `r` does before it hands the tasks over has been done. -/
structure Ready (b : RecordedBench N T σ η) (key : RegistrationKey) (r : Registration σ)
    (b' : RecordedBench N T σ η) : Prop where
  scheduler : b'.scheduler = b.scheduler
  /-- A one-shot registration is gone, its id is free, and its native subscription has ended. -/
  oneShot : r.mode = .oneShot → b'.mux.registration? key = none ∧
    b'.mux.subscriptions.pool.isInUse r.id = false ∧
    ∃ handle, lastSubscription b.native.calls key = some (r.signal, r.condition, handle) ∧
      b'.native.calls = b.native.calls ++ [.unsubscribed handle]
  /-- Every other registration is as it was, and so is one that is persistent. -/
  others : ∀ k, k ≠ key → b'.mux.registration? k = b.mux.registration? k
  persistent : r.mode = .persistent →
    b'.mux.subscriptions = b.mux.subscriptions ∧ b'.native = b.native

/-- What a report leads to, by what is live under its key. -/
inductive Notified (b : RecordedBench N T σ η) (key : RegistrationKey) (value : Logic) :
    Outcome MuxError (RecordedBench N T σ η) Delivery → Prop where
  | poisoned (h : b.mux.isPoisoned = true) : Notified b key value (.failed .poisoned b)
  | stale (live : b.mux.isPoisoned = false) (gone : b.mux.registration? key = none) :
      Notified b key value (.done .stale (b.afterStale key))
  | ignored (live : b.mux.isPoisoned = false) (r : Registration σ)
      (present : b.mux.registration? key = some r)
      (differs : r.accepts (b.mux.observe value) = false) :
      Notified b key value (.done .ignored b.afterIgnored)
  | fired (live : b.mux.isPoisoned = false) (r : Registration σ)
      (present : b.mux.registration? key = some r)
      (matching : r.accepts (b.mux.observe value) = true) (b' : RecordedBench N T σ η)
      (ready : Ready b key r b') (o : Outcome MuxError (RecordedBench N T σ η) Unit)
      (handOver : DispatchResult b' r.tasks o) :
      Notified b key value (o.andThen fun _ b => .done (.fired r.tasks.length) b)
  /-- The native layer stops instead of ending a subscription. -/
  | stopped (f : Fault) (n : N) (handle : η) (stops : NativeLayer.unsubscribe n handle = .error f) :
      Notified b key value (.fault f)

omit [Scheduler T] [DecidableEq σ] [LogText σ] [LogText η] in
/-- What has been done when the tasks of a holding are handed over. -/
theorem ReadyToFire.ready {b b' : RecordedBench N T σ η} {L : List (Holding σ η)}
    {e : Holding σ η} (h : b.Tracked Filed L) (he : e ∈ L) (hready : ReadyToFire Filed b L e b') :
    Ready b e.key e.registration b' := by
  refine ⟨hready.frame.scheduler, ?_, ?_, fun hmode => ?_⟩
  · intro hmode
    obtain ⟨htracked, hunsubscribe⟩ := hready.oneShot hmode
    have hgone : ∀ f ∈ L.filter (·.key ≠ e.key), f.key ≠ e.key := fun f hf => by
      simpa using (List.mem_filter.mp hf).2
    obtain ⟨layer, -, hnative⟩ := unsubscribe_eq_ok.mp hunsubscribe
    refine ⟨htracked.roster.get?_eq_none_iff.mpr hgone, ?_, e.handle, h.extra e he, ?_⟩
    · rw [Bool.eq_false_iff, ne_eq, htracked.roster.inUse_iff]
      rintro ⟨f, hf, hid⟩
      exact hgone f hf (congrArg _ (h.roster.eq_of_id (List.mem_of_mem_filter hf) he hid))
    · rw [hnative]
  · intro k hk
    -- whichever mode it is, only the holding of the key can be gone
    cases hmode : e.registration.mode with
    | oneShot =>
      refine Option.ext fun r => ?_
      rw [(hready.oneShot hmode).1.registration?_eq_some_iff, h.registration?_eq_some_iff]
      constructor
      · rintro ⟨f, hf, heq⟩
        exact ⟨f, List.mem_of_mem_filter hf, heq⟩
      · rintro ⟨f, hf, rfl, hr⟩
        exact ⟨f, List.mem_filter.mpr ⟨hf, decide_eq_true hk⟩, rfl, hr⟩
    | persistent =>
      rw [Mux.registration?, (hready.persistent hmode).2.2]
      rfl
  · exact ⟨(hready.persistent hmode).2.2, (hready.persistent hmode).2.1⟩

omit [DecidableEq σ] [LogText σ] [LogText η] in
/-- **A report** hands tasks over just when it matches what is live under its key. -/
theorem deliver_notified {b : RecordedBench N T σ η} {L : List (Holding σ η)}
    (h : b.Tracked Filed L) (key : RegistrationKey) (value : Logic) :
    Notified b key value (b.deliver key value) := by
  cases hlive : b.mux.isPoisoned with
  | true =>
    rw [deliver_of_poisoned hlive]
    exact .poisoned hlive
  | false =>
    have hresult := deliver_spec tracking_filed h hlive key value
    generalize b.deliver key value = o at hresult
    cases hresult with
    | stale habsent => exact .stale hlive (h.roster.get?_eq_none_iff.mpr habsent)
    | ignored e he hkey hdiffers =>
      subst hkey
      exact .ignored hlive e.registration (h.roster.get?_of_mem he) hdiffers
    | refused f hrefuses =>
      obtain ⟨_, _, n, _, e, _, _, hunsubscribe⟩ := hrefuses
      exact .stopped f n.layer e.handle (unsubscribe_eq_error.mp hunsubscribe)
    | fired e he hkey haccepts b₁ hready o' hhand =>
      subst hkey
      exact .fired hlive e.registration (h.roster.get?_of_mem he) haccepts b₁ (hready.ready h he) o'
        hhand

/-! ### Calls of the scheduler -/

/-- The registration that a turn reports a match to. -/
def matched (b : RecordedBench N T σ η) : Turn N T σ → Option (Registration σ)
  | .op (.deliver key value) =>
    if b.mux.isPoisoned then none
    else (b.mux.registration? key).filter (·.accepts (b.mux.observe value))
  | _ => none

/-- The registrations that a run reports matches to, in turn. -/
def allMatched : List (Turn N T σ) → RecordedBench N T σ η → List (Registration σ)
  | [], _ => []
  | t :: rest, b =>
    (b.matched t).toList ++
      match b.turn t with
      | .error _ => []
      | .ok b => allMatched rest b

/-- A turn hands over the tasks of the registration that it reports a match to. -/
theorem resumed_turn {b b' : RecordedBench N T σ η} {L : List (Holding σ η)}
    (h : b.Tracked Filed L) {t : Turn N T σ} (hturn : b.turn t = .ok b') :
    b'.resumed = b.resumed ++ (b.matched t).toList.map (·.tasks) := by
  cases t with
  | others native scheduler =>
    obtain rfl := Except.ok.inj hturn
    exact (List.append_nil _).symm
  | op o =>
    cases o with
    | deliver key value =>
      rw [turn, perform, final_andThen_done] at hturn
      exact (deliver_resumed b key value).final hturn
    | _ =>
      obtain ⟨new, -, -, -, hscheduler⟩ := perform_roster tracking_filed h hturn
      rw [resumed_of_scheduler (hscheduler (by simp))]
      exact (List.append_nil _).symm

/-- **The calls of the scheduler** in a run are those of the matching reports. -/
theorem resumed_after (turns : List (Turn N T σ)) :
    ∀ (b c : RecordedBench N T σ η) (L : List (Holding σ η)), b.Tracked Filed L →
      after turns b = .ok c → c.resumed = b.resumed ++ (allMatched turns b).map (·.tasks) := by
  induction turns with
  | nil =>
    rintro b c L - ⟨⟩
    exact (List.append_nil _).symm
  | cons t rest ih =>
    intro b c L h hrun
    obtain ⟨b', hturn, hrest⟩ := after_cons.mp hrun
    obtain ⟨L', h'⟩ := turn_tracked tracking_filed steady_filed h hturn
    rw [ih b' c L' h' hrest, resumed_turn h hturn, allMatched, hturn, List.map_append,
      List.append_assoc]

/-! ### The life of a registration -/

/-- What holds of the registrations in a run from `b` to `c`. -/
structure Lifecycle (b : RecordedBench N T σ η) (turns : List (Turn N T σ))
    (c : RecordedBench N T σ η) : Prop where
  /-- What is live has been made by the run and not been ended since. -/
  live_iff : ∀ key r, c.mux.registration? key = some r ↔ Standing key r turns b
  /-- What has been made has been asked for.  It is live until it is ended, and what is live under
  its key after that has been made later. -/
  made : ∀ {pre t post b₁ key r b₂}, turns = pre ++ t :: post → after pre b = .ok b₁ →
    Makes b₁ t key r b₂ → (∃ op, t = .op op ∧ r.demand ∈ b₁.asks op) ∧
      (¬ EndedIn key r post b₂ → c.mux.registration? key = some r) ∧
      (EndedIn key r post b₂ → ∀ r', c.mux.registration? key = some r' → Standing key r' post b₂)
  /-- The calls of the scheduler are those of the matching reports, one for each. -/
  resumed_eq : c.resumed = (allMatched turns b).map (·.tasks)
  notified : ∀ key value, Notified c key value (c.deliver key value)
  /-- An operation other than a report does not reach the scheduler. -/
  others : ∀ op c', (∀ key value, op ≠ .deliver key value) → (c.perform op).final = .ok c' →
    c'.scheduler = c.scheduler

/-- **The life of a registration**, in every run of a new context. -/
theorem lifecycle {b c : RecordedBench N T σ η} (hfresh : Fresh b) {turns : List (Turn N T σ)}
    (hrun : after turns b = .ok c) : Lifecycle b turns c := by
  have h : b.Tracked Filed [] := hfresh.tracked fun _ _ he => absurd he (by simp)
  have hnone : ∀ key, b.mux.registration? key = none := fun key =>
    h.roster.get?_eq_none_iff.mpr (by simp)
  have hresumed : b.resumed = [] := by
    obtain ⟨config, picks, mux, native, scheduler, -, rfl⟩ := hfresh
    rfl
  obtain ⟨L, hc⟩ := after_tracked tracking_filed steady_filed h hrun
  refine ⟨fun key r => ?_, ?_, ?_, deliver_notified hc, ?_⟩
  · rw [registration?_after tracking_filed steady_filed key r turns b c [] h hrun, hnone key]
    simp
  · intro pre t post b₁ key r b₂ heq hpre hmakes
    obtain ⟨L₁, h₁⟩ := after_tracked tracking_filed steady_filed h hpre
    obtain ⟨L₂, h₂⟩ := turn_tracked tracking_filed steady_filed h₁ hmakes.turn_eq
    -- the run goes on from the turn that has made the registration
    have hpost : after post b₂ = .ok c := by
      rw [heq, after_append_eq_ok] at hrun
      obtain ⟨b₁', hpre', hrest⟩ := hrun
      obtain rfl := Except.ok.inj (hpre.symm.trans hpre')
      obtain ⟨b₂', hturn, hpost⟩ := after_cons.mp hrest
      obtain rfl := Except.ok.inj (hmakes.turn_eq.symm.trans hturn)
      exact hpost
    have hlive := fun r' => registration?_after tracking_filed steady_filed key r' post b₂ c L₂ h₂
      hpost
    refine ⟨hmakes.asked tracking_filed h₁, fun hstays => ?_, fun hended r' hr' => ?_⟩
    · exact (hlive r).mpr (.inl ⟨hmakes.present, hstays⟩)
    · rcases (hlive r').mp hr' with ⟨hpresent, hstays⟩ | hlater
      · obtain rfl := Option.some.inj (hmakes.present.symm.trans hpresent)
        exact absurd hended hstays
      · exact hlater
  · rw [resumed_after turns b c [] h hrun, hresumed, List.nil_append]
  · intro op c' hop hfinal
    obtain ⟨new, -, -, -, hscheduler⟩ := perform_roster tracking_filed hc hfinal
    exact hscheduler hop

/-- A registration that fires, and one that is watched and fires twice. -/
def threeMatches : List (Turn Switchboard ScriptedScheduler Pin) :=
  [.op (.waitNow ⟨0⟩ .rising ⟨1⟩), .op (.watch ⟨1⟩ .either ⟨2⟩), .op (.deliver ⟨0, 0⟩ .zero),
    .op (.deliver ⟨0, 0⟩ .one), .op (.deliver ⟨1, 0⟩ .x), .op (.deliver ⟨0, 0⟩ .one),
    .op (.deliver ⟨1, 0⟩ .zero)]

theorem lifecycle_threeMatches :
    ∃ b c : RecordedBench Switchboard ScriptedScheduler Pin Nat, Fresh b ∧
      after threeMatches b = .ok c ∧ c.resumed = [[⟨1⟩], [⟨2⟩], [⟨2⟩]] ∧
      Lifecycle b threeMatches c := by
  obtain ⟨b, c, hfresh, hrun, hresumed⟩ :
      ∃ b c : RecordedBench Switchboard ScriptedScheduler Pin Nat, Fresh b ∧
        after threeMatches b = .ok c ∧ c.resumed = [[⟨1⟩], [⟨2⟩], [⟨2⟩]] :=
    ⟨_, _, ⟨{ pool := { capacity := 2 } }, [], _, {}, .failingAt [] ⟨"", ""⟩, rfl, rfl⟩, rfl, rfl⟩
  exact ⟨b, c, hfresh, hrun, hresumed, lifecycle hfresh hrun⟩

end Bench

end EdgeWait
