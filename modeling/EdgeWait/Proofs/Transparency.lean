/-
Batching is transparent.

A session of a context on a simulator is compared to a machine that keeps every wait as an entry of
its own (`Unbatched`).

* `respond_follows` — the answer to a request keeps the two machines in step;
* `play_follows` — so do the answers to a list of requests;
* `play_footed` — no event lacks its signal if none is scheduled on a signal that does not exist;
* `play_transparent` — every change of value wakes the tasks that it wakes without batches, in the
  same order, whatever the arity bounds, the pool and the scheduler are.

Design notes: a cancel names its key by the number of a request, which both machines understand.
That the key still stands for the registration of that request is known only if no key has been
issued twice; that this is so at a cancel follows from what the log tells at the end of the session.
-/
import EdgeWait.Proofs.Grounding
import EdgeWait.Proofs.Mirroring

namespace EdgeWait

open Bench Sim

namespace Session

variable {T : Type}

/-! ### Answers -/

/-- The answers of a session are the keys that have been issued for the labelled registrations. -/
def Answered (label : Nat → Option Nat) (s : Session T) : Prop :=
  ∀ request key, s.answers[request]?.join = some key ↔
    ∃ m, label m = some request ∧ s.bench.log.issued[m]? = some key

variable {label : Nat → Option Nat} {s : Session T} {L : List SimHolding} {u : Unbatched}
  {b' : SimBench (SchedulerRecord T)}

theorem number_lt_of_label (h : ∀ m, s.bench.log.issued.length ≤ m → label m = none)
    {m request : Nat} (hm : label m = some request) : m < s.bench.log.issued.length := by
  by_contra hge
  rw [h m (Nat.le_of_not_lt hge)] at hm
  cases hm

/-- The key of a labelled registration stays the one that has been issued for it. -/
theorem issued_of_label (h : ∀ m, s.bench.log.issued.length ≤ m → label m = none)
    (hissued : s.bench.log.issued <+: b'.log.issued) {m request : Nat}
    (hm : label m = some request) : b'.log.issued[m]? = s.bench.log.issued[m]? := by
  obtain ⟨later, hlater⟩ := hissued
  rw [← hlater, List.getElem?_append_left (number_lt_of_label h hm)]

/-- The answers stay those of the labelled registrations while others are made. -/
theorem Answered.of_prefix (h : ∀ m, s.bench.log.issued.length ≤ m → label m = none)
    (hissued : s.bench.log.issued <+: b'.log.issued) (hanswered : Answered label s) :
    Answered label ⟨b', s.answers⟩ := by
  intro request key
  rw [hanswered]
  constructor
  · rintro ⟨m, hm, hkey⟩
    exact ⟨m, hm, by rw [issued_of_label h hissued hm, hkey]⟩
  · rintro ⟨m, hm, hkey⟩
    exact ⟨m, hm, by rw [← issued_of_label h hissued hm]; exact hkey⟩

theorem answered_next_none (h : ∀ m, s.bench.log.issued.length ≤ m → label m = none)
    (hissued : s.bench.log.issued <+: b'.log.issued) (hanswered : Answered label s) :
    Answered label (s.next b' none) := by
  intro request key
  have hsame : (s.answers ++ [none])[request]?.join = s.answers[request]?.join := by
    rw [List.getElem?_append]
    split
    · rfl
    · have hnone : s.answers[request]? = none := List.getElem?_eq_none (by omega)
      rw [hnone, List.getElem?_singleton]
      split <;> rfl
  show (s.answers ++ [none])[request]?.join = some key ↔ _
  rw [hsame]
  exact hanswered.of_prefix h hissued request key

theorem answered_next_some (h : ∀ m, s.bench.log.issued.length ≤ m → label m = none)
    (hissued : s.bench.log.issued <+: b'.log.issued) (hanswered : Answered label s) {m : Nat}
    {key : RegistrationKey} (hm : s.bench.log.issued.length ≤ m)
    (hkey : b'.log.issued[m]? = some key) :
    Answered (Function.update label m (some s.answers.length)) (s.next b' (some key)) := by
  intro request k
  show (s.answers ++ [some key])[request]?.join = some k ↔
    ∃ m', Function.update label m (some s.answers.length) m' = some request ∧
      b'.log.issued[m']? = some k
  -- an older registration is labelled with an older request
  have hold : ∀ m', label m' = some request → m' ≠ m ∧ request < s.answers.length := by
    intro m' hm'
    have hlt := number_lt_of_label h hm'
    have hanswer := (hanswered request s.bench.log.issued[m']).mpr
      ⟨m', hm', List.getElem?_eq_getElem hlt⟩
    refine ⟨by omega, ?_⟩
    by_contra hge
    rw [List.getElem?_eq_none (Nat.le_of_not_lt hge)] at hanswer
    cases hanswer
  by_cases hrequest : request < s.answers.length
  · rw [List.getElem?_append_left hrequest, hanswered]
    constructor
    · rintro ⟨m', hm', hk⟩
      refine ⟨m', ?_, by rw [issued_of_label h hissued hm', hk]⟩
      rw [Function.update_of_ne (hold m' hm').1, hm']
    · rintro ⟨m', hm', hk⟩
      by_cases hnew : m' = m
      · rw [hnew, Function.update_self] at hm'
        have heq := Option.some.inj hm'
        omega
      · rw [Function.update_of_ne hnew] at hm'
        exact ⟨m', hm', by rw [← issued_of_label h hissued hm', hk]⟩
  · rw [List.getElem?_append_right (Nat.le_of_not_lt hrequest)]
    constructor
    · intro hk
      have heq : request = s.answers.length := by
        by_contra hne
        rw [List.getElem?_eq_none (by simp; omega)] at hk
        cases hk
      rw [heq, Nat.sub_self] at hk
      obtain rfl : key = k := Option.some.inj hk
      exact ⟨m, by rw [Function.update_self, heq], hkey⟩
    · rintro ⟨m', hm', hk⟩
      by_cases hnew : m' = m
      · rw [hnew, Function.update_self] at hm'
        obtain rfl := Option.some.inj hm'
        rw [hnew, hkey] at hk
        rw [Nat.sub_self]
        exact hk
      · rw [Function.update_of_ne hnew] at hm'
        exact absurd (hold m' hm').2 hrequest

/-! ### Cancels -/

/-- To cancel by a request deletes the entries of the holdings labelled with it. -/
theorem cancel_entriesOn (h : Mirrors label s.bench L u) {request : Nat} {q : SimHolding → Bool}
    (hq : ∀ e ∈ L, decide (label e.number ≠ some request) = q e) :
    u.cancel request = { u with entries := entriesOn label (L.filter q) } := by
  have hentries : u.entries.filter (fun a => decide (a.request ≠ some request)) =
      entriesOn label (L.filter q) := by
    rw [h.entries]
    refine filter_entriesOn fun e he a ha => ?_
    rw [← hq e he]
    obtain ⟨task, -, rfl⟩ := List.mem_map.mp ha
    rfl
  rw [Unbatched.cancel, hentries]

/-- The registration of a request is the one under its key, as long as no key has come again. -/
theorem Answered.label_eq_iff (hanswered : Answered label s)
    (hnumbered : ∀ e ∈ L, s.bench.log.issued[e.number]? = some e.key)
    (hnodup : s.bench.log.issued.Nodup) {request : Nat} {key : RegistrationKey}
    (hkey : s.answers[request]?.join = some key) {e : SimHolding} (he : e ∈ L) :
    label e.number = some request ↔ e.key = key := by
  have hissued := hnumbered e he
  constructor
  · intro hlabel
    have hanswer := (hanswered request e.key).mpr ⟨e.number, hlabel, hissued⟩
    rw [hkey] at hanswer
    exact (Option.some.inj hanswer).symm
  · rintro rfl
    obtain ⟨m, hm, hat⟩ := (hanswered request e.key).mp hkey
    have hlt := (List.getElem?_eq_some_iff.mp hissued).choose
    obtain rfl := (List.getElem?_inj hlt hnodup).mp (hissued.trans hat.symm)
    exact hm

/-- To cancel by a request deletes the entries of its registration. -/
theorem cancel_of_answer (h : Mirrors label s.bench L u) (hanswered : Answered label s)
    (hnodup : s.bench.log.issued.Nodup) {request : Nat} {key : RegistrationKey}
    (hkey : s.answers[request]?.join = some key) :
    u.cancel request = { u with entries := entriesOn label (L.filter (·.key ≠ key)) } := by
  refine cancel_entriesOn h fun e he => ?_
  have hiff := hanswered.label_eq_iff h.tracked.extra.numbered.issued_at hnodup hkey he
  congr 1
  rw [ne_eq, ne_eq, hiff]

/-- A request without a key has no entry. -/
theorem cancel_of_no_answer (h : Mirrors label s.bench L u) (hanswered : Answered label s)
    {request : Nat} (hkey : s.answers[request]?.join = none) : u.cancel request = u := by
  have hall : ∀ e ∈ L, decide (label e.number ≠ some request) = true := by
    intro e he
    refine decide_eq_true fun hlabel => ?_
    have hanswer := (hanswered request e.key).mpr
      ⟨e.number, hlabel, h.tracked.extra.numbered.issued_at e he⟩
    rw [hkey] at hanswer
    cases hanswer
  rw [cancel_entriesOn h hall, List.filter_true, ← h.entries]

/-! ### Requests -/

/-- The answer to a request leads to `s'`.  The context is mirrored by a machine there, and this is
what the other machine comes to as long as no key has been issued twice. -/
def Responded (label : Nat → Option Nat) (s : Session T) (u : Unbatched) (r : Request)
    (wakings : List Waking) (s' : Session T) : Prop :=
  s'.answers.length = s.answers.length + 1 ∧
    ∃ label' u', Follows label' s.bench wakings s'.bench u' ∧
      (Answered label s → s.bench.log.issued.Nodup →
        Answered label' s' ∧ u.respond s.answers.length r = some (wakings, u'))

/-- A request with no key for an answer does not change the labels. -/
theorem Responded.plain (h : Mirrors label s.bench L u) {wakings : List Waking} {r : Request}
    {u' : Unbatched} (hfollows : Follows label s.bench wakings b' u')
    (hrespond : Answered label s → s.bench.log.issued.Nodup →
      u.respond s.answers.length r = some (wakings, u')) :
    Responded label s u r wakings (s.next b' none) := by
  refine ⟨List.length_append, label, u', hfollows, fun hanswered hnodup => ?_⟩
  exact ⟨answered_next_none h.unlabelled hfollows.issued hanswered, hrespond hanswered hnodup⟩

theorem ends_conclude {F : Fault → Prop} {α : Type} {wakings : List Waking}
    {answer : α → Option RegistrationKey} {o : Outcome SimError (SimBench (SchedulerRecord T)) α}
    {Q : List Waking → Session T → Prop}
    (h : o.Ends F SimError.Interrupts fun a b => Q wakings (s.next b (answer a))) :
    (s.conclude wakings answer o).Ends F SimError.Interrupts Q := by
  cases o with
  | done a b => exact h
  | failed e b => exact h
  | fault f => exact h

theorem endsSlip_of_misses {ε S α : Type} {E : ε → Prop} {Q : α → S → Prop} {o : Outcome ε S α}
    (h : o.Ends Fault.MissesSignal E Q) : o.Ends Fault.IsSlip E Q :=
  h.faults fun _ _ => .inr

theorem single_responded (h : Mirrors label s.bench L u) {r : Request} (signal : SignalId)
    (edge : Edge) (task : TaskId) (mode : Mode)
    (hrespond : u.respond s.answers.length r =
      some ([], u.subscribe s.answers.length signal edge task mode)) :
    (s.conclude [] some ((s.bench.registerSingle signal edge task mode).mapError .mux)).Ends
      Fault.IsSlip SimError.Interrupts (Responded label s u r) := by
  refine ends_conclude ((registerSingle_follows h signal edge task mode
    s.answers.length).mapError.ofNever.imp fun key b' hmade => ?_)
  obtain ⟨m, hm, hkey, hfollows⟩ := hmade
  refine ⟨List.length_append, _, _, hfollows, fun hanswered _ => ⟨?_, hrespond⟩⟩
  exact answered_next_some h.unlabelled hfollows.issued hanswered hm hkey

variable [Scheduler T]

/-- **The answer to a request** keeps the two machines in step. -/
theorem respond_follows (h : Mirrors label s.bench L u) (r : Request) :
    (s.respond r).Ends Fault.IsSlip SimError.Interrupts (Responded label s u r) := by
  cases r with
  | addWait signal edge task =>
    refine ends_conclude (((addWait_follows h signal edge task).faults fun _ _ => .inl).imp
      fun _ b' hadd => ?_)
    obtain ⟨pending, hpending, hfollows⟩ := hadd
    refine .plain h hfollows fun _ _ => ?_
    rw [Unbatched.respond, hpending]
    rfl
  | flush order =>
    refine ends_conclude ((flush_follows h order).mapError.ofNever.imp fun _ b' hfollows => ?_)
    exact .plain h hfollows fun _ _ => rfl
  | waitNow signal edge task => exact single_responded h signal edge task .oneShot rfl
  | watch signal edge task => exact single_responded h signal edge task .persistent rfl
  | cancel request =>
    cases hkey : s.answers[request]?.join with
    | none =>
      -- a request without an answer has no key, and there is nothing to cancel
      simp only [respond, hkey]
      refine Responded.plain h h.follows fun hanswered _ => ?_
      rw [Unbatched.respond, cancel_of_no_answer h hanswered hkey]
    | some key =>
      simp only [respond, hkey]
      refine ends_conclude ((cancel_follows h key).ofNever.imp fun _ b' hfollows => ?_)
      refine .plain h hfollows fun hanswered hnodup => ?_
      rw [Unbatched.respond, cancel_of_answer h hanswered hnodup hkey]
  | shutdown =>
    refine ends_conclude ((shutdown_follows h).ofNever.imp fun _ b' hfollows => ?_)
    exact .plain h hfollows fun _ _ => rfl
  | schedule time signal value =>
    exact Responded.plain h (schedule_follows h time signal value) fun _ _ => rfl
  | step order =>
    refine ends_conclude ((endsSlip_of_misses (step_follows h order)).imp fun _ b' hstep => ?_)
    obtain ⟨u', heq, hfollows⟩ := hstep
    refine .plain h hfollows fun _ _ => ?_
    rw [Unbatched.respond, heq]
    rfl
  | run orders =>
    refine ends_conclude ((endsSlip_of_misses (run_follows h orders)).imp fun _ b' hrun => ?_)
    obtain ⟨u', heq, hfollows⟩ := hrun
    refine .plain h hfollows fun _ _ => ?_
    rw [Unbatched.respond, heq]
  | runUntil orders limit =>
    refine ends_conclude ((endsSlip_of_misses (runUntil_follows h orders limit)).imp
      fun _ b' hrun => ?_)
    obtain ⟨u', heq, hfollows⟩ := hrun
    refine .plain h hfollows fun _ _ => ?_
    rw [Unbatched.respond, heq]

/-! ### Events without a signal -/

omit [Scheduler T] in
theorem upholds_conclude {F : Fault → Prop} {P : SimBench (SchedulerRecord T) → Prop} {α : Type}
    {o : Outcome SimError (SimBench (SchedulerRecord T)) α} (h : o.Upholds F P)
    (wakings : List Waking) (answer : α → Option RegistrationKey) :
    (s.conclude wakings answer o).Upholds F fun s' => P s'.bench := by
  cases o with
  | done a b => exact h
  | failed e b => exact h
  | fault f => exact h

/-- **A request** that names only signals that exist lets no event come up without its signal. -/
theorem respond_footed {n : Nat} (h : Footed n s.bench) {r : Request} (hr : r.Names n) :
    (s.respond r).Upholds Fault.IsDuplicate fun s' => Footed n s'.bench := by
  cases r with
  | addWait signal edge task => exact upholds_conclude (h.addWait signal edge task) _ _
  | flush order => exact upholds_conclude ((h.flush order).mapError _) _ _
  | waitNow signal edge task => exact upholds_conclude ((h.waitNow signal edge task).mapError _) _ _
  | watch signal edge task => exact upholds_conclude ((h.watch signal edge task).mapError _) _ _
  | cancel request =>
    rw [respond]
    cases s.answers[request]?.join with
    | none => exact h
    | some key => exact upholds_conclude (h.cancel key) _ _
  | shutdown => exact upholds_conclude h.shutdown _ _
  | schedule time signal value => exact h.schedule hr time value
  | step order => exact upholds_conclude (h.step order) _ _
  | run orders => exact upholds_conclude (h.run orders) _ _
  | runUntil orders limit => exact upholds_conclude (h.runUntil orders limit) _ _

theorem play_footed {n : Nat} (requests : List Request) (hnames : ∀ r ∈ requests, r.Names n) :
    ∀ s : Session T, Footed n s.bench →
      (play requests s).Upholds Fault.IsDuplicate fun s' => Footed n s'.bench := by
  induction requests with
  | nil => exact fun s h => h
  | cons r rest ih =>
    intro s h
    obtain ⟨hr, hrest⟩ := List.forall_mem_cons.mp hnames
    refine (respond_footed h hr).andThen fun wakings s₁ h₁ => ?_
    exact (ih hrest s₁ h₁).andThen fun _ _ h' => h'

/-! ### Sessions -/

omit [Scheduler T] in
theorem answered_start (mux : Mux SignalId CallbackHandle) (sim : Sim) (scheduler : T) :
    Answered (fun _ => none) (start mux sim scheduler) := by
  intro request key
  constructor
  · intro hkey
    cases hkey
  · rintro ⟨m, hm, -⟩
    cases hm

omit [Scheduler T] in
/-- No key has been issued twice up to a state, if no slot has been used too often up to a later
one. -/
theorem issued_nodup (h : Mirrors label s.bench L u) {s' : Session T}
    (hissued : s.bench.log.issued <+: s'.bench.log.issued) (hunwrapped : s'.Unwrapped) :
    s.bench.log.issued.Nodup := by
  refine h.tracked.extra.counted.nodup fun i => ?_
  calc (keysOf i s.bench.log.issued).length
      ≤ (keysOf i s'.bench.log.issued).length := (hissued.sublist.filter _).length_le
    _ ≤ 2 ^ 32 := hunwrapped i

/-- **The answers to requests** keep the two machines in step. -/
theorem play_follows (requests : List Request) :
    ∀ (label : Nat → Option Nat) (s : Session T) (L : List SimHolding) (u : Unbatched),
      Mirrors label s.bench L u →
      (play requests s).Ends Fault.IsSlip SimError.Interrupts fun wakings s' =>
        ∃ label' u', Follows label' s.bench wakings s'.bench u' ∧ (Answered label s → s'.Unwrapped →
          Unbatched.play s.answers.length requests u = some (wakings, u')) := by
  induction requests with
  | nil => exact fun label s L u h => ⟨label, u, h.follows, fun _ _ => rfl⟩
  | cons r rest ih =>
    intro label s L u h
    refine (respond_follows h r).andThen fun wakings s₁ hfirst => ?_
    obtain ⟨hlength, label₁, u₁, hfollows₁, hcond₁⟩ := hfirst
    obtain ⟨L₁, h₁⟩ := hfollows₁.mirrors
    refine (ih label₁ s₁ L₁ u₁ h₁).andThen fun more s' hrest => ?_
    obtain ⟨label', u', hfollows, hcond⟩ := hrest
    refine ⟨label', u', hfollows₁.trans hfollows, fun hanswered hunwrapped => ?_⟩
    -- the keys issued by now are among those of the end, which tell how often slots were used
    have hnodup := issued_nodup h (hfollows₁.issued.trans hfollows.issued) hunwrapped
    obtain ⟨hanswered₁, hrespond⟩ := hcond₁ hanswered hnodup
    have hplay := hcond hanswered₁ hunwrapped
    rw [hlength] at hplay
    rw [Unbatched.play, hrespond]
    show (Unbatched.play _ rest u₁).bind _ = _
    rw [hplay]
    rfl

omit [Scheduler T] in
/-- A new session is mirrored by the machine without any entries. -/
theorem mirrors_start {config : Config} {picks : List Nat} {mux : Mux SignalId CallbackHandle}
    {sim : Sim} (hmux : Mux.ofConfig config picks = .ok mux) (hsim : sim.Unsubscribed)
    (scheduler : T) : Mirrors (fun _ => none) (start mux sim scheduler).bench []
      { unknownAsZero := config.values.unknownAsZero, sim } := by
  obtain ⟨policy, -, rfl⟩ := Mux.ofConfig_eq hmux
  obtain ⟨hvalid, -, hfree⟩ := IdPool.pool_valid config.pool picks
  exact ⟨⟨Subscriptions.roster_ofPool hvalid hfree, carries_start hsim⟩, rfl, rfl, rfl, rfl,
    fun _ _ => rfl⟩

omit [Scheduler T] in
theorem footed_start {config : Config} {picks : List Nat} {mux : Mux SignalId CallbackHandle}
    {sim : Sim} (hmux : Mux.ofConfig config picks = .ok mux) (hsim : sim.Unsubscribed)
    (hgrounded : sim.Grounded) (scheduler : T) :
    Footed sim.signals.size (start mux sim scheduler).bench := by
  have htracked := (mirrors_start hmux hsim scheduler).tracked
  exact ⟨⟨_, guest_alone htracked htracked.extra.serves⟩, hgrounded, Nat.le_refl _⟩

/-- **Batching is transparent.**  Unless the pool is exhausted, the scheduler fails, a wait is
recorded twice, or a change comes up of a signal that does not exist, a session that uses no slot
too often wakes, at each change of value, the tasks that the machine without batches wakes, in the
same order.  So arity bounds, pools and schedulers make no difference to what is woken. -/
theorem play_transparent {config : Config} {picks : List Nat} {mux : Mux SignalId CallbackHandle}
    {sim : Sim} (hmux : Mux.ofConfig config picks = .ok mux) (hsim : sim.Unsubscribed)
    (scheduler : T) (requests : List Request) :
    (play requests (start mux sim scheduler)).Ends
      (fun f => f.IsDuplicate ∨ f.MissesSignal ∧
        ¬ (sim.Grounded ∧ ∀ r ∈ requests, r.Names sim.signals.size))
      SimError.Interrupts fun wakings s => s.Unwrapped →
        (∃ u, Unbatched.play 0 requests { unknownAsZero := config.values.unknownAsZero, sim } =
          some (wakings, u)) ∧
        s.bench.resumed.flatten = wakings.flatMap (·.tasks) ∧
        ∀ (T' : Type) [Scheduler T'] (config' : Config) (picks' : List Nat)
          (mux' : Mux SignalId CallbackHandle) (scheduler' : T') (wakings' : List Waking)
          (s' : Session T'), config'.values = config.values →
          Mux.ofConfig config' picks' = .ok mux' →
          play requests (start mux' sim scheduler') = .done wakings' s' → s'.Unwrapped →
          wakings' = wakings := by
  have hplay := play_follows requests _ _ _ _ (mirrors_start hmux hsim scheduler)
  refine Outcome.Ends.imp (hplay.faults fun f hf hslip => ?_) fun wakings s hs hunwrapped => ?_
  · by_cases hgrounds : sim.Grounded ∧ ∀ r ∈ requests, r.Names sim.signals.size
    · have hfooted := play_footed requests hgrounds.2 _
        (footed_start hmux hsim hgrounds.1 scheduler)
      rw [hf] at hfooted
      exact .inl hfooted
    · exact hslip.imp_right fun hmisses => ⟨hmisses, hgrounds⟩
  obtain ⟨label, u, hfollows, hcond⟩ := hs
  have hunbatched := hcond (answered_start mux sim scheduler) hunwrapped
  refine ⟨⟨u, hunbatched⟩, hfollows.resumed, ?_⟩
  intro T' _ config' picks' mux' scheduler' wakings' s' hvalues hmux' hplay' hunwrapped'
  -- the machine without batches knows nothing of arity bounds, pools and schedulers
  have hother := play_follows requests _ _ _ _ (mirrors_start hmux' hsim scheduler')
  rw [hplay'] at hother
  obtain ⟨label', u', -, hcond'⟩ := hother
  have hunbatched' := hcond' (answered_start mux' sim scheduler') hunwrapped'
  rw [hvalues] at hunbatched'
  exact congrArg Prod.fst (Option.some.inj (hunbatched'.symm.trans hunbatched))

/-- Four tasks wait for a signal to change, and the wait of one of them is cancelled. -/
def fourWaits : List Request :=
  [.waitNow ⟨0⟩ .rising ⟨1⟩, .addWait ⟨0⟩ .rising ⟨2⟩, .addWait ⟨0⟩ .rising ⟨3⟩,
    .waitNow ⟨0⟩ .either ⟨4⟩, .cancel 3, .schedule ⟨5⟩ ⟨0⟩ .one, .run fun _ => .recorded SignalId]

/-- In a batch or one by one, the same tasks are woken. -/
theorem play_transparent_fourWaits :
    ∃ (mux mux' : Mux SignalId CallbackHandle) (wakings : List Waking)
      (s s' : Session ScriptedScheduler),
      play fourWaits (start mux { signals := #[⟨"ready", .zero⟩] } (.failingAt [] ⟨"", ""⟩)) =
        .done wakings s ∧ s.bench.resumed = [[⟨1⟩], [⟨2⟩, ⟨3⟩]] ∧
      play fourWaits (start mux' { signals := #[⟨"ready", .zero⟩] } (.failingAt [] ⟨"", ""⟩)) =
        .done wakings s' ∧ s'.bench.resumed = [[⟨1⟩], [⟨2⟩], [⟨3⟩]] ∧
      ∃ u, Unbatched.play 0 fourWaits
        { unknownAsZero := false, sim := { signals := #[⟨"ready", .zero⟩] } } =
          some (wakings, u) := by
  obtain ⟨mux, wakings, s, hmux, hplay, hissued, hresumed⟩ :
      ∃ (mux : Mux SignalId CallbackHandle) (wakings : List Waking)
        (s : Session ScriptedScheduler), Mux.ofConfig { pool := { capacity := 4 } } [] = .ok mux ∧
        play fourWaits (start mux { signals := #[⟨"ready", .zero⟩] } (.failingAt [] ⟨"", ""⟩)) =
          .done wakings s ∧
        s.bench.log.issued.length = 3 ∧ s.bench.resumed = [[⟨1⟩], [⟨2⟩, ⟨3⟩]] :=
    ⟨_, _, _, rfl, rfl, rfl, rfl⟩
  obtain ⟨mux', wakings', s', hmux', hplay', hissued', hresumed'⟩ :
      ∃ (mux : Mux SignalId CallbackHandle) (wakings : List Waking)
        (s : Session ScriptedScheduler),
        Mux.ofConfig { batching := { minArity := 3 }, pool := { capacity := 5 } } [] = .ok mux ∧
        play fourWaits (start mux { signals := #[⟨"ready", .zero⟩] } (.failingAt [] ⟨"", ""⟩)) =
          .done wakings s ∧
        s.bench.log.issued.length = 4 ∧ s.bench.resumed = [[⟨1⟩], [⟨2⟩], [⟨3⟩]] :=
    ⟨_, _, _, rfl, rfl, rfl, rfl⟩
  have hsim : Unsubscribed { signals := #[⟨"ready", .zero⟩] } := ⟨rfl, rfl⟩
  have htransparent :=
    play_transparent hmux hsim (.failingAt [] ⟨"", ""⟩ : ScriptedScheduler) fourWaits
  rw [hplay] at htransparent
  obtain ⟨hunbatched, -, hother⟩ := htransparent (unwrapped_of_length_le (by omega))
  obtain rfl := hother _ { batching := { minArity := 3 }, pool := { capacity := 5 } } [] mux' _
    wakings' s' rfl hmux' hplay' (unwrapped_of_length_le (by omega))
  exact ⟨mux, mux', wakings', s, s', hplay, hresumed, hplay', hresumed', hunbatched⟩

end Session

end EdgeWait
