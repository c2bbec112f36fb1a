/-
What an operation of a context can do to the native layer.

A context reaches its native layer by subscribing and by ending subscriptions, and in no other way.
So a relation of native states that both of them respect (`Respected`) holds between the states
before and after every operation, whatever the context has been through before.  The scheduler is
only called when a report has come (`Quiet`).

* `flush_respected`, `registerSingle_respected` — operations that make registrations;
* `tearDown_respected`, `tearDownAll_respected`, `deliver_respected` — operations that end them;
* `perform_startsOrEnds`, `perform_respected` — every operation;
* `deliver_resumed` — what a report hands over to the scheduler.

Design notes: no roster is asked for here.  The context may be in any state, even one in which its
tables do not agree.
-/
import EdgeWait.Proofs.Operations

namespace EdgeWait

/-! ### What holds after an outcome -/

namespace Outcome

variable {ε ε' S S' α β : Type} {F : Fault → Prop} {P : S → Prop}

/-- The outcome leaves a state with `P`, or it is one of the faults `F`. -/
def Upholds (F : Fault → Prop) (P : S → Prop) : Outcome ε S α → Prop
  | done _ s => P s
  | failed _ s => P s
  | fault f => F f

theorem Upholds.imp {P' : S → Prop} {o : Outcome ε S α} (h : o.Upholds F P)
    (himp : ∀ s, P s → P' s) : o.Upholds F P' := by
  cases o with
  | done a s => exact himp s h
  | failed e s => exact himp s h
  | fault f => exact h

theorem Upholds.andThen {o : Outcome ε S α} {next : α → S → Outcome ε S β} (h : o.Upholds F P)
    (hnext : ∀ a s, P s → (next a s).Upholds F P) : (o.andThen next).Upholds F P := by
  cases o with
  | done a s => exact hnext a s h
  | failed e s => exact h
  | fault f => exact h

theorem Upholds.mapError {o : Outcome ε S α} (h : o.Upholds F P) (g : ε → ε') :
    (o.mapError g).Upholds F P := by
  cases o with
  | done a s => exact h
  | failed e s => exact h
  | fault f => exact h

theorem Upholds.final {o : Outcome ε S α} (h : o.Upholds F P) {s : S} (hs : o.final = .ok s) :
    P s := by
  cases o with
  | done a s' =>
    obtain rfl := Except.ok.inj hs
    exact h
  | failed e s' =>
    obtain rfl := Except.ok.inj hs
    exact h
  | fault f => cases hs

theorem fault_of_final {o : Outcome ε S α} {f : Fault} (h : o.final = .error f) :
    o = .fault f := by
  cases o with
  | done a s => cases h
  | failed e s => cases h
  | fault f' =>
    obtain rfl := Except.error.inj h
    rfl

theorem upholds_of_final {o : Outcome ε S α} (hstate : ∀ s, o.final = .ok s → P s)
    (hfault : ∀ f, o = .fault f → F f) : o.Upholds F P := by
  cases o with
  | done a s => exact hstate s rfl
  | failed e s => exact hstate s rfl
  | fault f => exact hfault f rfl

/-- The outcome is an answer and leaves a state with `Q`, an error and leaves one with `P`, or one
of the faults `F`. -/
def Settles (F : Fault → Prop) (P Q : S → Prop) : Outcome ε S α → Prop
  | done _ s => Q s
  | failed _ s => P s
  | fault f => F f

theorem Upholds.settles {o : Outcome ε S α} (h : o.Upholds F P) : o.Settles F P P := by
  cases o with
  | done a s => exact h
  | failed e s => exact h
  | fault f => exact h

theorem Settles.imp {P' Q Q' : S → Prop} {o : Outcome ε S α} (h : o.Settles F P Q)
    (hfailed : ∀ s, P s → P' s) (hdone : ∀ s, Q s → Q' s) : o.Settles F P' Q' := by
  cases o with
  | done a s => exact hdone s h
  | failed e s => exact hfailed s h
  | fault f => exact h

theorem Settles.upholds {Q : S → Prop} {o : Outcome ε S α} (h : o.Settles F P Q)
    (hdone : ∀ s, Q s → P s) : o.Upholds F P := by
  cases o with
  | done a s => exact hdone s h
  | failed e s => exact h
  | fault f => exact h

end Outcome

/-- A fault that does not matter. -/
def Fault.Any (_ : Fault) : Prop := True

/-! ### Relations of native states -/

/-- A relation of native states that the end of a subscription respects. -/
structure RespectedByEnds {N σ η : Type} [NativeLayer N σ η] (R : N → N → Prop) : Prop where
  refl : ∀ n, R n n
  trans : ∀ {n n' n''}, R n n' → R n' n'' → R n n''
  unsubscribe : ∀ {n n' handle}, NativeLayer.unsubscribe n handle = .ok n' → R n n'

/-- A relation of native states that a subscription respects. -/
structure RespectedByStarts {N σ η : Type} [NativeLayer N σ η] (R : N → N → Prop) : Prop where
  refl : ∀ n, R n n
  trans : ∀ {n n' n''}, R n n' → R n' n'' → R n n''
  subscribe : ∀ n signal condition key, R n (NativeLayer.subscribe n signal condition key).2

/-- A relation of native states that a subscription and the end of one respect. -/
structure Respected {N σ η : Type} [NativeLayer N σ η] (R : N → N → Prop) : Prop extends
    RespectedByEnds R, RespectedByStarts R

variable {N T σ η : Type} [NativeLayer N σ η]

namespace Subscriptions

/-- To subscribe is one subscription of the native layer. -/
theorem native_of_subscribe [LogText η] {s : Subscriptions σ η} {native : N} {signal : σ}
    {edge : Edge} {tasks : List TaskId} {mode : Mode} {o : Opened N σ η}
    (h : s.subscribe native signal edge tasks mode = .ok (some o)) :
    ∃ key, o.native = (NativeLayer.subscribe native signal edge.condition key).2 := by
  cases halloc : s.pool.alloc with
  | error f => simp [subscribe, halloc, bind, Except.bind] at h
  | ok answer =>
    rcases answer with _ | ⟨id, pool⟩
    · simp [subscribe, halloc, bind, Except.bind, pure, Except.pure] at h
    · cases hmake : Registration.make id signal edge tasks mode with
      | error f => simp [subscribe, halloc, hmake, bind, Except.bind] at h
      | ok r =>
        cases hblocked : s.arena.blockedSlot? with
        | some index =>
          simp [subscribe, halloc, hmake, hblocked, bind, Except.bind, throw, throwThe,
            MonadExceptOf.throw] at h
        | none =>
          cases hfiled : s.handle? id with
          | some handle =>
            simp [subscribe, halloc, hmake, hblocked, hfiled, bind, Except.bind, throw, throwThe,
              MonadExceptOf.throw] at h
          | none =>
            simp only [subscribe, halloc, hmake, hblocked, hfiled, bind, Except.bind, pure,
              Except.pure, Except.ok.injEq, Option.some.injEq] at h
            exact ⟨_, by rw [← h]⟩

/-- To unsubscribe is to end one subscription of the native layer. -/
theorem native_of_unsubscribe {s : Subscriptions σ η} {native : N} {key : RegistrationKey}
    {c : Closed N σ η} (h : s.unsubscribe native key = .ok (some c)) :
    ∃ handle, NativeLayer.unsubscribe native handle = .ok c.native := by
  cases herase : s.arena.erase? key with
  | none => simp [unsubscribe, herase, pure, Except.pure] at h
  | some removed =>
    obtain ⟨r, arena⟩ := removed
    cases hhandle : s.handle? r.id with
    | none =>
      simp [unsubscribe, herase, hhandle, throw, throwThe, MonadExceptOf.throw] at h
    | some handle =>
      cases hnative : NativeLayer.unsubscribe native handle with
      | error f => simp [unsubscribe, herase, hhandle, hnative, bind, Except.bind] at h
      | ok n =>
        refine ⟨handle, ?_⟩
        cases hrelease : s.pool.release r.id with
        | error f => simp [unsubscribe, herase, hhandle, hnative, hrelease, bind, Except.bind] at h
        | ok pool =>
          by_cases hactive : r.isActive = true
          · simp only [unsubscribe, herase, hhandle, hnative, hrelease, hactive, bind, Except.bind,
              pure, Except.pure, if_true, Except.ok.injEq, Option.some.injEq] at h
            rw [hnative, ← h]
          · simp [unsubscribe, herase, hhandle, hnative, hrelease, hactive, bind, Except.bind,
              throw, throwThe, MonadExceptOf.throw] at h

end Subscriptions

namespace Bench

variable {R : N → N → Prop}

/-- From `b` to `b'` the native layer has gone on as `R` says, and the scheduler has not been
called. -/
structure Quiet (R : N → N → Prop) (b b' : Bench N T σ η) : Prop where
  native : R b.native b'.native
  scheduler : b'.scheduler = b.scheduler

omit [NativeLayer N σ η] in
theorem Quiet.refl (hrefl : ∀ n, R n n) (b : Bench N T σ η) : Quiet R b b :=
  ⟨hrefl _, rfl⟩

omit [NativeLayer N σ η] in
theorem Quiet.trans {b b' b'' : Bench N T σ η} (h : Quiet R b b')
    (htrans : ∀ {n n' n''}, R n n' → R n' n'' → R n n'') (h' : Quiet R b' b'') : Quiet R b b'' :=
  ⟨htrans h.native h'.native, h'.scheduler.trans h.scheduler⟩

section Registering

variable [LogText σ] [LogText η]

theorem register_respected (hR : RespectedByStarts R) (b : Bench N T σ η) (signal : σ) (edge : Edge)
    (tasks : List TaskId) (mode : Mode) :
    (b.register signal edge tasks mode).Upholds Fault.Any (Quiet R b) := by
  rw [register]
  cases hsubscribe : b.mux.subscriptions.subscribe b.native signal edge tasks mode with
  | error f => trivial
  | ok answer =>
    cases answer with
    | none => exact .refl hR.refl b
    | some o =>
      obtain ⟨key, hnative⟩ := Subscriptions.native_of_subscribe hsubscribe
      refine ⟨?_, rfl⟩
      show R b.native o.native
      rw [hnative]
      exact hR.subscribe _ _ _ _

theorem registerSingle_respected (hR : RespectedByStarts R) (b : Bench N T σ η) (signal : σ)
    (edge : Edge) (task : TaskId) (mode : Mode) :
    (b.registerSingle signal edge task mode).Upholds Fault.Any (Quiet R b) := by
  rw [registerSingle]
  split
  · exact .refl hR.refl b
  · have hregister := register_respected hR
      (b.count fun c => { c with waitsAdded := c.waitsAdded + 1 }) signal edge [task] mode
    dsimp only
    generalize (b.count fun c => { c with waitsAdded := c.waitsAdded + 1 }).register signal edge
      [task] mode = o at hregister
    cases o with
    | fault f => exact hregister
    | failed e b₁ => exact ⟨hregister.native, hregister.scheduler⟩
    | done key b₁ => exact ⟨hregister.native, hregister.scheduler⟩

/-- A relation of states of a context that holds over every registration. -/
structure HoldsOverRegister (K : Bench N T σ η → Bench N T σ η → Prop) : Prop where
  refl : ∀ b, K b b
  trans : ∀ {b b' b''}, K b b' → K b' b'' → K b b''
  register : ∀ (b : Bench N T σ η) (signal : σ) (edge : Edge) (tasks : List TaskId) (mode : Mode),
    (b.register signal edge tasks mode).Upholds Fault.Any (K b)

theorem quiet_holdsOverRegister (hR : RespectedByStarts R) :
    HoldsOverRegister (Quiet (T := T) (σ := σ) (η := η) R) :=
  ⟨.refl hR.refl, fun h h' => h.trans hR.trans h',
    register_respected hR⟩

/-- The batches of a list are registered in turn. -/
theorem HoldsOverRegister.registerBatches {K : Bench N T σ η → Bench N T σ η → Prop}
    (hK : HoldsOverRegister K) (signal : σ) (edge : Edge) (batches : List (List TaskId)) :
    ∀ s : Bench N T σ η × FlushSummary,
      (Bench.registerBatches signal edge batches s).Upholds Fault.Any fun s' => K s.1 s'.1 := by
  induction batches with
  | nil => exact fun s => hK.refl s.1
  | cons batch rest ih =>
    rintro ⟨b, summary⟩
    have hregister := hK.register b signal edge batch .oneShot
    rw [Bench.registerBatches]
    generalize b.register signal edge batch .oneShot = o at hregister
    cases o with
    | fault f => exact hregister
    | failed e b₁ => exact hregister
    | done key b₁ => exact (ih (b₁, _)).imp fun s' hrest => hK.trans hregister hrest

/-- And so are list after list. -/
theorem HoldsOverRegister.drainLists [DecidableEq σ] {K : Bench N T σ η → Bench N T σ η → Prop}
    (hK : HoldsOverRegister K) (lists : List (σ × Edge)) :
    ∀ (p : PendingWaits σ) (s : Bench N T σ η × FlushSummary),
      (PendingWaits.drainLists registerList lists p s).Upholds Fault.Any fun s' =>
        K s.1 s'.2.1 := by
  induction lists with
  | nil => exact fun p s => hK.refl s.1
  | cons v rest ih =>
    intro p s
    have hlist : (registerList v.1 v.2 (p.waiting v.1 v.2) s).Upholds Fault.Any fun s' =>
        K s.1 s'.1 := by
      rw [registerList]
      exact (hK.registerBatches v.1 v.2 _ s).andThen fun _ _ hbatches => hbatches
    rw [PendingWaits.drainLists]
    split
    · exact ih p s
    · generalize registerList v.1 v.2 (p.waiting v.1 v.2) s = o at hlist
      cases o with
      | fault f => exact hlist
      | failed e s₁ => exact hlist
      | done _ s₁ => exact (ih _ s₁).imp fun s' hrest => hK.trans hlist hrest

/-- **A flush** subscribes, and does nothing else to the native layer. -/
theorem flush_respected [DecidableEq σ] (hR : RespectedByStarts R) (b : Bench N T σ η)
    (order : VisitOrder σ) : (b.flush order).Upholds Fault.Any (Quiet R b) := by
  rw [flush]
  split
  · exact .refl hR.refl b
  · split
    · exact .refl hR.refl b
    · have hdrain := (quiet_holdsOverRegister hR).drainLists (b.mux.pending.visits order)
        b.mux.pending (b, {})
      rw [PendingWaits.drainWith]
      generalize PendingWaits.drainLists registerList (b.mux.pending.visits order) b.mux.pending
        (b, {}) = o at hdrain
      cases o with
      | fault f => exact hdrain
      | failed e s => exact ⟨hdrain.native, hdrain.scheduler⟩
      | done _ s => exact ⟨hdrain.native, hdrain.scheduler⟩

end Registering

/-! ### Operations that end registrations -/

/-- To tear a registration down does nothing, or it is to unsubscribe. -/
theorem tearDown_eq_ok {b b' : Bench N T σ η} {key : RegistrationKey}
    {r : Option (Registration σ)} (h : b.tearDown key = .ok (r, b')) :
    b' = b ∨ ∃ c, b.mux.subscriptions.unsubscribe b.native key = .ok (some c) ∧
      b' = b.withSubscriptions c.subscriptions c.native := by
  rw [tearDown] at h
  cases hunsubscribe : b.mux.subscriptions.unsubscribe b.native key with
  | error f =>
    rw [hunsubscribe] at h
    cases h
  | ok answer =>
    rw [hunsubscribe] at h
    cases answer with
    | none =>
      obtain ⟨-, rfl⟩ := Prod.mk.inj (Except.ok.inj h)
      exact .inl rfl
    | some c =>
      obtain ⟨-, rfl⟩ := Prod.mk.inj (Except.ok.inj h)
      exact .inr ⟨c, rfl, rfl⟩

/-- It changes the tables of the context and the native layer, and nothing else. -/
theorem tearDown_same {b b' : Bench N T σ η} {key : RegistrationKey}
    {r : Option (Registration σ)} (h : b.tearDown key = .ok (r, b')) :
    b' = b.withSubscriptions b'.mux.subscriptions b'.native := by
  rcases tearDown_eq_ok h with rfl | ⟨c, -, rfl⟩
  · rfl
  · rfl

theorem tearDown_respected (hR : RespectedByEnds R) {b b' : Bench N T σ η}
    {key : RegistrationKey} {r : Option (Registration σ)} (h : b.tearDown key = .ok (r, b')) :
    Quiet R b b' := by
  rcases tearDown_eq_ok h with rfl | ⟨c, hunsubscribe, rfl⟩
  · exact .refl hR.refl b'
  · obtain ⟨handle, hnative⟩ := Subscriptions.native_of_unsubscribe hunsubscribe
    exact ⟨hR.unsubscribe hnative, rfl⟩

theorem tearDownAll_respected (hR : RespectedByEnds R) (keys : List RegistrationKey) :
    ∀ b b' : Bench N T σ η, tearDownAll keys b = .ok b' → Quiet R b b' := by
  induction keys with
  | nil =>
    rintro b b' ⟨⟩
    exact .refl hR.refl b
  | cons key rest ih =>
    intro b b' h
    rw [tearDownAll] at h
    cases hfirst : b.tearDown key with
    | error f =>
      rw [hfirst] at h
      cases h
    | ok answer =>
      rw [hfirst] at h
      exact (tearDown_respected hR hfirst).trans hR.trans (ih answer.2 b' h)

/-- **A report** ends at most one subscription. -/
theorem deliver_respected [Scheduler T] (hR : RespectedByEnds R) (b : Bench N T σ η)
    (key : RegistrationKey) (value : Logic) :
    (b.deliver key value).Upholds Fault.Any fun b' => R b.native b'.native := by
  cases hlive : b.mux.isPoisoned with
  | true =>
    rw [deliver_of_poisoned hlive]
    exact hR.refl _
  | false =>
    cases hget : b.mux.registration? key with
    | none =>
      rw [deliver_of_gone hlive hget]
      exact hR.refl _
    | some r =>
      cases hacc : r.accepts (b.mux.observe value) with
      | false =>
        rw [deliver_of_differs hlive hget hacc]
        exact hR.refl _
      | true =>
        rw [deliver_of_accepts hlive hget hacc]
        -- the scheduler does not get at the native layer
        have hdispatch : ∀ b₁ : Bench N T σ η, R b.native b₁.native →
            ((b₁.dispatch r.tasks).andThen fun _ b =>
              Outcome.done (Delivery.fired r.tasks.length) b).Upholds Fault.Any
                fun b' => R b.native b'.native := by
          intro b₁ hb₁
          rw [dispatch]
          cases b₁.mux.bridge.dispatch b₁.scheduler b₁.log r.tasks with
          | fault f => trivial
          | failed e s => exact hb₁
          | done _ s => exact hb₁
        by_cases hmode : r.mode = .oneShot
        · rw [if_pos hmode]
          cases hdown : (b.count fun c => { c with
              notifications := c.notifications + 1 }).tearDown key with
          | error f => trivial
          | ok answer =>
            exact hdispatch _ (tearDown_respected hR hdown).native
        · rw [if_neg hmode]
          exact hdispatch _ (hR.refl _)

/-- **Every operation** only subscribes, or only ends subscriptions. -/
theorem perform_startsOrEnds [Scheduler T] [DecidableEq σ] [LogText σ] [LogText η]
    {R' : N → N → Prop} (hR : RespectedByStarts R) (hR' : RespectedByEnds R') (b : Bench N T σ η)
    (op : Op σ) : (b.perform op).Upholds Fault.Any fun b' =>
      R b.native b'.native ∨ R' b.native b'.native := by
  cases op with
  | addWait signal edge task =>
    rw [perform]
    rcases b.addWait_spec signal edge task with ⟨-, heq⟩ | heq
    · rw [heq]
      trivial
    · rw [heq]
      exact .inl (hR.refl _)
  | flush order =>
    exact ((flush_respected hR b order).imp fun _ h => .inl h.native).andThen fun _ _ h => h
  | waitNow signal edge task =>
    have hsingle := registerSingle_respected hR b signal edge task .oneShot
    exact (hsingle.imp fun _ h => .inl h.native).andThen fun _ _ h => h
  | watch signal edge task =>
    have hsingle := registerSingle_respected hR b signal edge task .persistent
    exact (hsingle.imp fun _ h => .inl h.native).andThen fun _ _ h => h
  -- what follows only ends subscriptions, if it does anything to them
  | deliver key value =>
    exact ((deliver_respected hR' b key value).imp fun _ h => .inr h).andThen fun _ _ h => h
  | cancel key =>
    rw [perform, cancel]
    cases hdown : b.tearDown key with
    | error f => trivial
    | ok answer =>
      have hnative := (tearDown_respected hR' hdown).native
      obtain ⟨_ | r, b₁⟩ := answer
      · exact .inr hnative
      · exact .inr hnative
  | shutdown =>
    rw [perform, shutdown]
    cases hall : tearDownAll b.mux.subscriptions.arena.keys
      { b with mux := { b.mux with pending := b.mux.pending.clear } } with
    | error f => trivial
    | ok b₁ =>
      have hnative := (tearDownAll_respected hR' _ _ _ hall).native
      exact .inr hnative

/-- **Every operation** reaches the native layer by subscribing and ending subscriptions only. -/
theorem perform_respected [Scheduler T] [DecidableEq σ] [LogText σ] [LogText η] (hR : Respected R)
    (b : Bench N T σ η) (op : Op σ) :
    (b.perform op).Upholds Fault.Any fun b' => R b.native b'.native :=
  (perform_startsOrEnds hR.toRespectedByStarts hR.toRespectedByEnds b op).imp
    fun _ h => h.elim id id

/-! ### What a report hands over -/

/-- The registration that a report matches. -/
def woken (b : Bench N T σ η) (key : RegistrationKey) (value : Logic) :
    Option (Registration σ) :=
  if b.mux.isPoisoned then none
  else (b.mux.registration? key).filter (·.accepts (b.mux.observe value))

/-- **A report** hands over the tasks of the registration that it matches, and no others. -/
theorem deliver_resumed [Scheduler T] (b : Bench N (SchedulerRecord T) σ η) (key : RegistrationKey)
    (value : Logic) : (b.deliver key value).Upholds Fault.Any fun b' =>
      b'.resumed = b.resumed ++ (b.woken key value).toList.map (·.tasks) := by
  rw [woken]
  cases hlive : b.mux.isPoisoned with
  | true =>
    rw [deliver_of_poisoned hlive]
    exact (List.append_nil _).symm
  | false =>
    rw [if_neg Bool.false_ne_true]
    cases hget : b.mux.registration? key with
    | none =>
      rw [deliver_of_gone hlive hget]
      exact (List.append_nil _).symm
    | some r =>
      cases hacc : r.accepts (b.mux.observe value) with
      | false =>
        rw [deliver_of_differs hlive hget hacc, Option.filter_some, if_neg (by simp [hacc])]
        exact (List.append_nil _).symm
      | true =>
        rw [deliver_of_accepts hlive hget hacc, Option.filter_some, if_pos hacc]
        have hup := ((isPoisoned_eq_false_iff b.mux).mp hlive).2
        -- what has been done before the hand-over is nothing to the scheduler
        have hdispatch : ∀ b₁ : Bench N (SchedulerRecord T) σ η,
            b₁.mux.bridge = b.mux.bridge → b₁.scheduler = b.scheduler →
            ((b₁.afterMatch key (b.mux.observe value) r.tasks.length).dispatch r.tasks |>.andThen
              fun _ b => Outcome.done (Delivery.fired r.tasks.length) b).Upholds Fault.Any
                fun b' => b'.resumed = b.resumed ++ [r.tasks] := by
          intro b₁ hbridge hscheduler
          have hresult := dispatch_spec
            (b := b₁.afterMatch key (b.mux.observe value) r.tasks.length)
            ((congrArg Bridge.tornDown hbridge).trans hup) r.tasks
          refine Outcome.upholds_of_final (fun b' hb => ?_) fun _ _ => trivial
          rw [final_andThen_done (g := fun _ => _)] at hb
          rw [hresult.resumed hb, ← resumed_of_scheduler hscheduler]
          rfl
        by_cases hmode : r.mode = .oneShot
        · rw [if_pos hmode]
          cases hdown : (b.count fun c => { c with
              notifications := c.notifications + 1 }).tearDown key with
          | error f => trivial
          | ok answer =>
            have hsame := tearDown_same hdown
            exact hdispatch answer.2 (by rw [hsame]; rfl) (by rw [hsame]; rfl)
        · rw [if_neg hmode]
          exact hdispatch _ rfl rfl

end Bench

end EdgeWait
