/-
The first error of a context is its last piece of work.

* `perform_of_live` — what an operation of an unpoisoned context leads to: the context stays
  unpoisoned, or it reports an error and is poisoned by it;
* `perform_of_poisoned` — a poisoned context refuses to work, and its other operations call nobody
  but to end native subscriptions;
* `fail_fast` — so a run either reports no error at all, or it has a first one, after which nothing
  is subscribed and nothing resumed; the script environment is finalized just when that error was a
  failed hand-over.
-/
import EdgeWait.Proofs.Operations
import EdgeWait.Switchboard

namespace EdgeWait

/-- An operation that a poisoned context refuses. -/
def Op.isRefusable {σ : Type} : Op σ → Bool
  | .flush _ | .waitNow .. | .watch .. | .deliver .. => true
  | .addWait .. | .cancel _ | .shutdown => false

/-- The call that closes the script environment. -/
def SchedulerCall.isFinal : SchedulerCall → Bool
  | .finalized => true
  | .resumed .. => false

/-- How often the script environment is finalized because of an error. -/
def MuxError.finalizations : MuxError → Nat
  | .dispatchFailed _ => 1
  | .poolExhausted _ | .poisoned => 0

namespace Bench

variable {N T σ η : Type}

/-- How often a context has had the script environment finalized. -/
def finalizations (b : RecordedBench N T σ η) : Nat := b.scheduler.calls.countP (·.isFinal)

/-! ### An unpoisoned context -/

/-- An operation has led from `b` to `b'` with an error. -/
inductive Broken (b b' : RecordedBench N T σ η) : MuxError → Prop where
  /-- The scheduler has failed, with this cause, and has been finalized right after. -/
  | handOver (tasks : List TaskId) (cause : ScriptError)
      (calls : b'.scheduler.calls =
        b.scheduler.calls ++ [.resumed tasks (.error cause), .finalized]) :
      Broken b b' (.dispatchFailed cause)
  /-- There was no id left for a registration. -/
  | exhausted (calls : b'.scheduler.calls = b.scheduler.calls) :
      Broken b b' (.poolExhausted b.mux.subscriptions.pool.capacity)

/-- What an operation of an unpoisoned context leads to. -/
inductive LiveResult (b : RecordedBench N T σ η) :
    Outcome MuxError (RecordedBench N T σ η) Answer → Prop where
  | done (a : Answer) (b' : RecordedBench N T σ η) (live : b'.mux.isPoisoned = false)
      (finalizations : b'.finalizations = b.finalizations) : LiveResult b (.done a b')
  | failed (e : MuxError) (b' : RecordedBench N T σ η) (poisoned : b'.mux.isPoisoned = true)
      (broken : Broken b b' e) : LiveResult b (.failed e b')
  | fault (f : Fault) : LiveResult b (.fault f)

theorem finalizations_of_scheduler {b b' : RecordedBench N T σ η}
    (h : b'.scheduler = b.scheduler) : b'.finalizations = b.finalizations := by
  rw [finalizations, h, finalizations]

variable [NativeLayer N σ η] [Scheduler T] [DecidableEq σ] [LogText σ] [LogText η]
  {I : List (Holding σ η) → Arena σ → NativeRecord N σ η → List RegistrationKey → Prop}

omit [Scheduler T] [DecidableEq σ] in
theorem live_registerSingle (hI : Tracking I) {b : RecordedBench N T σ η} {L : List (Holding σ η)}
    (h : b.Tracked I L) (hlive : b.mux.isPoisoned = false) (signal : σ) (edge : Edge)
    (task : TaskId) (mode : Mode) :
    LiveResult b ((b.registerSingle signal edge task mode).andThen fun key b =>
      .done (.issued key) b) := by
  obtain ⟨b', heq, -, hframe, hfailed, -⟩ | ⟨e, b', heq, hmade, -⟩ :=
    registerSingle_spec hI h hlive signal edge task mode
  · rw [heq]
    refine .failed _ b' (isPoisoned_of_failed hfailed) (.exhausted ?_)
    rw [hframe.scheduler]
  · rw [heq]
    refine .done _ b' ?_ (finalizations_of_scheduler hmade.frame.scheduler)
    rw [isPoisoned_of_frame hmade.frame hmade.failed, hlive]

omit [DecidableEq σ] [LogText σ] [LogText η] in
theorem live_deliver (hI : Tracking I) {b : RecordedBench N T σ η} {L : List (Holding σ η)}
    (h : b.Tracked I L) (hlive : b.mux.isPoisoned = false) (key : RegistrationKey)
    (value : Logic) :
    LiveResult b ((b.deliver key value).andThen fun delivery b =>
      .done (.delivered delivery) b) := by
  have hresult := deliver_spec hI h hlive key value
  generalize b.deliver key value = o at hresult
  cases hresult with
  | stale => exact .done _ _ hlive rfl
  | ignored => exact .done _ _ hlive rfl
  | refused f => exact .fault f
  | fired e he hkey haccepts b₁ hready o' hhand =>
    cases hhand with
    | done b₂ hsame hcall hbridge =>
      refine .done _ b₂ ?_ ?_
      · have hup := (isPoisoned_of_frame hready.frame hready.failed).trans hlive
        rw [isPoisoned_eq_false_iff] at hup ⊢
        rw [hsame.failed, hbridge]
        exact hup
      -- the scheduler is finalized right after the call that has failed
      · have hcalls := scheduleMany_calls hcall
        rw [finalizations, hcalls, hready.frame.scheduler, List.countP_append, finalizations]
        rfl
    | failed b₂ cause t hsame hcall hscheduler hbridge =>
      refine .failed _ b₂ ?_ (.handOver e.registration.tasks cause ?_)
      · rw [Mux.isPoisoned, hbridge, Bool.or_true]
      · have hcalls := scheduleMany_calls hcall
        rw [hready.frame.scheduler] at hcalls
        rw [hscheduler]
        show t.calls ++ [.finalized] = _
        rw [hcalls, List.append_assoc]
        rfl

/-- **An operation of an unpoisoned context** leaves it unpoisoned, or poisons it with an error. -/
theorem perform_of_live (hI : Tracking I) {b : RecordedBench N T σ η} {L : List (Holding σ η)}
    (h : b.Tracked I L) (hlive : b.mux.isPoisoned = false) (op : Op σ) :
    LiveResult b (b.perform op) := by
  cases op with
  | addWait signal edge task =>
    rw [perform]
    rcases b.addWait_spec signal edge task with ⟨-, heq⟩ | heq
    · rw [heq]
      exact .fault _
    · rw [heq]
      exact .done _ _ hlive rfl
  | flush order =>
    rw [perform]
    have hresult := flush_spec hI h hlive order
    generalize b.flush order = o at hresult
    cases hresult with
    | done new b' summary _ hframe _ hfailed =>
      refine .done _ b' ?_ (finalizations_of_scheduler hframe.scheduler)
      rw [isPoisoned_of_frame hframe hfailed, hlive]
    | failed new b' _ hframe hfailed =>
      refine .failed _ b' (isPoisoned_of_failed hfailed) (.exhausted ?_)
      rw [hframe.scheduler]
  | waitNow signal edge task => exact live_registerSingle hI h hlive signal edge task .oneShot
  | watch signal edge task => exact live_registerSingle hI h hlive signal edge task .persistent
  | deliver key value => exact live_deliver hI h hlive key value
  | cancel key =>
    rw [perform]
    have hresult := cancel_spec hI h key
    generalize b.cancel key = o at hresult
    cases hresult with
    | gone => exact .done _ b hlive rfl
    | refused f => exact .fault f
    | ended e he hkey b₁ b₂ hended hcounted =>
      subst hcounted
      refine .done _ _ ?_ ?_
      · rw [hended.same]
        exact hlive
      · rw [hended.same]
        rfl
  | shutdown =>
    rw [perform]
    rcases shutdown_spec hI h with ⟨f, -, heq⟩ | ⟨b', heq, -, hframe, -, hfailed, -⟩
    · rw [heq]
      exact .fault f
    · rw [heq]
      refine .done _ b' ?_ (finalizations_of_scheduler hframe.scheduler)
      rw [isPoisoned_of_frame hframe hfailed, hlive]

/-! ### A poisoned context -/

/-- A poisoned context has gone on from `b` to `b'`: it has not come back, and all that it has done
beyond itself is to end native subscriptions. -/
structure Lingers (b b' : RecordedBench N T σ η) : Prop where
  poisoned : b'.mux.isPoisoned = true
  scheduler : b'.scheduler.calls = b.scheduler.calls
  native : ∃ handles : List η, b'.native.calls = b.native.calls ++ handles.map .unsubscribed

omit [NativeLayer N σ η] [Scheduler T] [DecidableEq σ] [LogText σ] [LogText η] in
theorem Lingers.refl {b : RecordedBench N T σ η} (h : b.mux.isPoisoned = true) : Lingers b b :=
  ⟨h, rfl, [], (List.append_nil _).symm⟩

omit [NativeLayer N σ η] [Scheduler T] [DecidableEq σ] [LogText σ] [LogText η] in
theorem Lingers.trans {b b' b'' : RecordedBench N T σ η} (h : Lingers b b') (h' : Lingers b' b'') :
    Lingers b b'' := by
  obtain ⟨handles, hnative⟩ := h.native
  obtain ⟨handles', hnative'⟩ := h'.native
  refine ⟨h'.poisoned, h'.scheduler.trans h.scheduler, handles ++ handles', ?_⟩
  rw [hnative', hnative, List.map_append, List.append_assoc]

omit [Scheduler T] [DecidableEq σ] [LogText σ] [LogText η] in
theorem unsubscribeAll_calls (handles : List η) :
    ∀ n n' : NativeRecord N σ η, unsubscribeAll handles n = .ok n' →
      n'.calls = n.calls ++ handles.map .unsubscribed := by
  induction handles with
  | nil =>
    rintro n n' ⟨⟩
    exact (List.append_nil _).symm
  | cons handle rest ih =>
    intro n n' hall
    rw [unsubscribeAll] at hall
    cases hone : NativeLayer.unsubscribe n handle with
    | error f =>
      rw [hone] at hall
      cases hall
    | ok n₁ =>
      rw [hone] at hall
      obtain ⟨layer, -, rfl⟩ := unsubscribe_eq_ok.mp hone
      rw [ih _ _ hall, List.map_cons, List.append_assoc]
      rfl

/-- **A poisoned context** refuses to work, and nothing about it has changed after that. -/
theorem perform_of_poisoned {b : Bench N T σ η} (h : b.mux.isPoisoned = true) {op : Op σ}
    (hop : op.isRefusable = true) : b.perform op = .failed .poisoned b := by
  cases op with
  | flush order =>
    rw [perform, flush_of_poisoned h]
    rfl
  | waitNow signal edge task =>
    rw [perform, waitNow, registerSingle_of_poisoned h]
    rfl
  | watch signal edge task =>
    rw [perform, watch, registerSingle_of_poisoned h]
    rfl
  | deliver key value =>
    rw [perform, deliver_of_poisoned h]
    rfl
  | addWait | cancel | shutdown => cases hop

omit [Scheduler T] in
/-- The other operations report no errors, poisoned or not. -/
theorem perform_ne_failed [Scheduler T] (b : RecordedBench N T σ η) {op : Op σ}
    (hop : op.isRefusable = false) (e : MuxError) (b' : RecordedBench N T σ η) :
    b.perform op ≠ .failed e b' := by
  intro hfails
  cases op with
  | addWait signal edge task =>
    rw [perform] at hfails
    split at hfails <;> cases hfails
  | cancel key =>
    rw [perform] at hfails
    split at hfails <;> cases hfails
  | shutdown =>
    rw [perform] at hfails
    split at hfails <;> cases hfails
  | flush | waitNow | watch | deliver => cases hop

theorem turn_of_poisoned (hI : Tracking I) {b b' : RecordedBench N T σ η} {L : List (Holding σ η)}
    (h : b.Tracked I L) (hpoisoned : b.mux.isPoisoned = true) {t : Turn N T σ}
    (hturn : b.turn t = .ok b') : Lingers b b' := by
  cases t with
  | others native scheduler =>
    obtain rfl := Except.ok.inj hturn
    exact ⟨hpoisoned, rfl, [], (List.append_nil _).symm⟩
  | op o =>
    rw [turn] at hturn
    cases hop : o.isRefusable with
    | true =>
      rw [perform_of_poisoned hpoisoned hop] at hturn
      obtain rfl := Except.ok.inj hturn
      exact .refl hpoisoned
    | false =>
      -- what is not refused records a wait or gives handles back, and calls no task
      cases o with
      | addWait signal edge task =>
        rw [perform] at hturn
        rcases b.addWait_spec signal edge task with ⟨-, heq⟩ | heq
        · rw [heq] at hturn
          cases hturn
        · rw [heq] at hturn
          obtain rfl := Except.ok.inj hturn
          exact ⟨hpoisoned, rfl, [], (List.append_nil _).symm⟩
      | cancel key =>
        rw [perform] at hturn
        have hresult := cancel_spec hI h key
        generalize b.cancel key = o at hturn hresult
        cases hresult with
        | gone =>
          obtain rfl := Except.ok.inj hturn
          exact .refl hpoisoned
        | refused f => cases hturn
        | ended e he hkey b₁ b₂ hended hcounted =>
          obtain rfl := Except.ok.inj hturn
          obtain ⟨layer, -, hnative⟩ := unsubscribe_eq_ok.mp hended.native
          subst hcounted
          refine ⟨?_, ?_, [e.handle], ?_⟩
          · rw [hended.same]
            exact hpoisoned
          · rw [hended.same]
            rfl
          · exact congrArg NativeRecord.calls hnative
      | shutdown =>
        rw [perform] at hturn
        rcases shutdown_spec hI h with
          ⟨f, -, heq⟩ | ⟨b₁, heq, -, hframe, -, hfailed, -, handles, hall⟩
        · rw [heq] at hturn
          cases hturn
        · rw [heq] at hturn
          obtain rfl := Except.ok.inj hturn
          refine ⟨?_, by rw [hframe.scheduler], handles, unsubscribeAll_calls handles _ _ hall⟩
          rw [isPoisoned_of_frame hframe hfailed, hpoisoned]
      | flush | waitNow | watch | deliver => cases hop

theorem after_of_poisoned (hI : Tracking I) (hsteady : Steady I) {turns : List (Turn N T σ)}
    {b c : RecordedBench N T σ η} {L : List (Holding σ η)} (h : b.Tracked I L)
    (hpoisoned : b.mux.isPoisoned = true) (hrun : after turns b = .ok c) : Lingers b c := by
  have hinv := after_induction (P := fun c => Lingers b c ∧ ∃ L, c.Tracked I L) turns ?_ b c
    ⟨.refl hpoisoned, L, h⟩ hrun
  · exact hinv.1
  · rintro d t - d' ⟨hlingers, L', h'⟩ hturn
    exact ⟨hlingers.trans (turn_of_poisoned hI h' hlingers.poisoned hturn),
      turn_tracked hI hsteady h' hturn⟩

/-! ### Runs -/

/-- The errors that the operations of a run report, in turn. -/
def errors : List (Turn N T σ) → RecordedBench N T σ η → List MuxError
  | [], _ => []
  | .others native scheduler :: rest, b => errors rest (b.beside native scheduler)
  | .op o :: rest, b =>
    match b.perform o with
    | .done _ b => errors rest b
    | .failed e b => e :: errors rest b
    | .fault _ => []

/-- What holds of a run from `b` to `c` as to its errors. -/
inductive FailFast (b : RecordedBench N T σ η) (turns : List (Turn N T σ))
    (c : RecordedBench N T σ η) : Prop where
  /-- No operation has reported an error. -/
  | sound (errors : errors turns b = []) (live : c.mux.isPoisoned = false)
      (finalizations : c.finalizations = 0)
  /-- The operation `op` has been the first to report an error. -/
  | failed (pre : List (Turn N T σ)) (op : Op σ) (post : List (Turn N T σ))
      (turns_eq : turns = pre ++ .op op :: post) (b₁ : RecordedBench N T σ η)
      (before : after pre b = .ok b₁) (errors : errors pre b = []) (e : MuxError)
      (b₂ : RecordedBench N T σ η) (fails : b₁.perform op = .failed e b₂)
      (poisoned : b₂.mux.isPoisoned = true) (broken : Broken b₁ b₂ e)
      (since : after post b₂ = .ok c) (lingers : Lingers b₂ c)
      (refuses : ∀ op : Op σ, op.isRefusable = true → c.perform op = .failed .poisoned c)
      (finalizations : c.finalizations = e.finalizations)

omit [NativeLayer N σ η] [Scheduler T] [DecidableEq σ] [LogText σ] [LogText η] in
/-- The finalizations of a run are those of its first error. -/
theorem Broken.finalizations {b b' : RecordedBench N T σ η} {e : MuxError} (h : Broken b b' e) :
    b'.finalizations = b.finalizations + e.finalizations := by
  cases h with
  | handOver tasks cause calls =>
    rw [Bench.finalizations, calls, List.countP_append]
    rfl
  | exhausted calls =>
    rw [Bench.finalizations, calls]
    rfl

theorem fail_fast_of_live (hI : Tracking I) (hsteady : Steady I) (turns : List (Turn N T σ)) :
    ∀ (b c : RecordedBench N T σ η) (L : List (Holding σ η)), b.Tracked I L →
      b.mux.isPoisoned = false → b.finalizations = 0 → after turns b = .ok c →
      FailFast b turns c := by
  -- as long as there is no error the context stays unpoisoned, so the first one met is the first
  induction turns with
  | nil =>
    rintro b c L h hlive hnone ⟨⟩
    exact .sound rfl hlive hnone
  | cons t rest ih =>
    intro b c L h hlive hnone hrun
    cases t with
    | others native scheduler =>
      cases ih _ c L (h.beside hsteady native scheduler) hlive hnone hrun with
      | sound herrors hlive' hnone' => exact .sound herrors hlive' hnone'
      | failed pre op post heq b₁ hbefore herrors e b₂ hfails hpoisoned hbroken hsince hlingers
          hrefuses hfinal =>
        exact .failed (.others native scheduler :: pre) op post (by rw [heq]; rfl) b₁ hbefore
          herrors e b₂ hfails hpoisoned hbroken hsince hlingers hrefuses hfinal
    | op o =>
      have hresult := perform_of_live hI h hlive o
      rw [after, turn] at hrun
      generalize ho : b.perform o = result at hresult hrun
      cases hresult with
      | fault f => cases hrun
      | done a b' hlive' hkept =>
        obtain ⟨L', h'⟩ := turn_tracked hI hsteady h
          (show b.turn (.op o) = .ok b' by rw [turn, ho]; rfl)
        cases ih b' c L' h' hlive' (hkept.trans hnone) hrun with
        | sound herrors hlive'' hnone' =>
          refine .sound ?_ hlive'' hnone'
          rw [errors, ho]
          exact herrors
        | failed pre op post heq b₁ hbefore herrors e b₂ hfails hpoisoned hbroken hsince hlingers
            hrefuses hfinal =>
          refine .failed (.op o :: pre) op post (by rw [heq]; rfl) b₁ ?_ ?_ e b₂ hfails hpoisoned
            hbroken hsince hlingers hrefuses hfinal
          · rw [after, turn, ho]
            exact hbefore
          · rw [errors, ho]
            exact herrors
      | failed e b' hpoisoned hbroken =>
        obtain ⟨L', h'⟩ := turn_tracked hI hsteady h
          (show b.turn (.op o) = .ok b' by rw [turn, ho]; rfl)
        -- from here on no scheduler call is made, so this is the last chance of a finalization
        have hlingers := after_of_poisoned hI hsteady h' hpoisoned hrun
        refine .failed [] o rest rfl b rfl rfl e b' ho hpoisoned hbroken hrun hlingers
          (fun op hop => perform_of_poisoned hlingers.poisoned hop) ?_
        rw [finalizations, hlingers.scheduler, ← finalizations, hbroken.finalizations, hnone,
          Nat.zero_add]

/-- **Fail fast**: a run of a new context has no error, or the first one is the end of its work.
Whatever operation reports an error leaves the context poisoned. -/
theorem fail_fast {b c : RecordedBench N T σ η} (hfresh : Fresh b) {turns : List (Turn N T σ)}
    (hrun : after turns b = .ok c) :
    FailFast b turns c ∧ ∀ op e c', c.perform op = .failed e c' → c'.mux.isPoisoned = true := by
  have hsteady : Steady (Untracked (N := NativeRecord N σ η) (σ := σ) (η := η)) :=
    fun _ _ _ _ _ _ => trivial
  have h : b.Tracked Untracked [] := hfresh.tracked fun _ => trivial
  have hlive : b.mux.isPoisoned = false := by
    obtain ⟨config, picks, mux, native, scheduler, hmux, rfl⟩ := hfresh
    obtain ⟨policy, -, rfl⟩ := Mux.ofConfig_eq hmux
    rfl
  have hnone : b.finalizations = 0 := by
    obtain ⟨config, picks, mux, native, scheduler, -, rfl⟩ := hfresh
    rfl
  refine ⟨fail_fast_of_live tracking_untracked hsteady turns b c [] h hlive hnone hrun, ?_⟩
  intro op e c' hfails
  obtain ⟨L, h'⟩ := after_tracked tracking_untracked hsteady h hrun
  cases hpoisoned : c.mux.isPoisoned with
  | false =>
    have hresult := perform_of_live tracking_untracked h' hpoisoned op
    rw [hfails] at hresult
    cases hresult with
    | failed _ _ hpoisoned' => exact hpoisoned'
  | true =>
    cases hop : op.isRefusable with
    | false => exact absurd hfails (perform_ne_failed c hop e c')
    | true =>
      rw [perform_of_poisoned hpoisoned hop] at hfails
      obtain ⟨-, rfl⟩ := Outcome.failed.inj hfails
      exact hpoisoned

/-- Two waits on one id: the second one is an error, and what the first one waits for is not
reported any more. -/
def oneId : List (Turn Switchboard ScriptedScheduler Pin) :=
  [.op (.waitNow ⟨0⟩ .rising ⟨1⟩), .op (.watch ⟨1⟩ .either ⟨2⟩), .op (.deliver ⟨0, 0⟩ .one),
    .op .shutdown]

theorem fail_fast_oneId :
    ∃ b c : RecordedBench Switchboard ScriptedScheduler Pin Nat, Fresh b ∧
      after oneId b = .ok c ∧ errors oneId b = [.poolExhausted 1, .poisoned] ∧
      FailFast b oneId c := by
  obtain ⟨b, c, hfresh, hrun, herrors⟩ :
      ∃ b c : RecordedBench Switchboard ScriptedScheduler Pin Nat, Fresh b ∧
        after oneId b = .ok c ∧ errors oneId b = [.poolExhausted 1, .poisoned] :=
    ⟨_, _, ⟨{ pool := { capacity := 1 } }, [], _, {}, .failingAt [] ⟨"", ""⟩, rfl, rfl⟩, rfl, rfl⟩
  exact ⟨b, c, hfresh, hrun, herrors, (fail_fast hfresh hrun).1⟩

end Bench

end EdgeWait
