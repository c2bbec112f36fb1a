/-
Configurations that are accepted can be run.

* `Config.load_ok_iff`, `Config.load_outOfRange` — a configuration is accepted when its arity bounds
  make a policy and its pool has an id, and refused with the range that it violates otherwise;
* `length_of_mem_asks` — a context asks for no batch without tasks, and for none beyond the upper
  arity bound;
* `underway_after` — a context is not poisoned before its first registration;
* `accepted_runs` — so an accepted configuration makes a context that can subscribe at once, and
  that never stops on a batch.

Design notes: how a text is read is left open here.  The ranges are checked on what has been read,
whatever the reader is.
-/
import EdgeWait.Config.Load
import EdgeWait.Proofs.FailFast
import EdgeWait.Proofs.Issuing
import EdgeWait.Proofs.Lifecycle

namespace EdgeWait

/-! ### Ranges -/

theorem BatchingConfig.policy_eq_ok_iff {c : BatchingConfig} {p : BatchPolicy} :
    c.policy = .ok p ↔ p.least = c.minArity ∧ p.most = c.maxArity := by
  rw [policy, BatchPolicy.make]
  constructor
  · intro h
    split at h
    · obtain rfl := Except.ok.inj h
      exact ⟨rfl, rfl⟩
    · cases h
  · obtain ⟨least, most, htwo, hle, hcapacity⟩ := p
    rintro ⟨rfl, rfl⟩
    rw [dif_pos ⟨htwo, hle, hcapacity⟩]

theorem BatchingConfig.exists_policy_iff (c : BatchingConfig) :
    (∃ p, c.policy = .ok p) ↔
      2 ≤ c.minArity ∧ c.minArity ≤ c.maxArity ∧ c.maxArity ≤ batchCapacity := by
  constructor
  · rintro ⟨⟨least, most, htwo, hle, hcapacity⟩, hp⟩
    obtain ⟨rfl, rfl⟩ := policy_eq_ok_iff.mp hp
    exact ⟨htwo, hle, hcapacity⟩
  · rintro ⟨htwo, hle, hcapacity⟩
    exact ⟨⟨_, _, htwo, hle, hcapacity⟩, policy_eq_ok_iff.mpr ⟨rfl, rfl⟩⟩

/-- The error tells of a setting of this configuration, and it is outside its range. -/
def RangeError.Concerns (c : Config) : RangeError → Prop
  | minArityTooSmall minArity => minArity = c.batching.minArity ∧ minArity < 2
  | maxArityTooLarge maxArity => maxArity = c.batching.maxArity ∧ batchCapacity < maxArity
  | aritiesCrossed minArity maxArity =>
    minArity = c.batching.minArity ∧ maxArity = c.batching.maxArity ∧ maxArity < minArity
  | noCapacity => c.pool.capacity = 0

namespace Config

/-- A context can be made of the configuration, and its pool has an id. -/
def Usable (c : Config) : Prop := (∃ p, c.batching.policy = .ok p) ∧ 0 < c.pool.capacity

/-- **The check** finds a setting outside its range, unless the configuration is usable. -/
theorem check_spec (c : Config) :
    c.check = .ok () ∧ c.Usable ∨
      ∃ cause, c.check = .error cause ∧ cause.Concerns c ∧ ¬ c.Usable := by
  simp only [Usable, c.batching.exists_policy_iff, check]
  split
  case isTrue hmin =>
    exact .inr ⟨_, rfl, ⟨rfl, hmin⟩, by omega⟩
  case isFalse hmin =>
    split
    case isTrue hmax =>
      exact .inr ⟨_, rfl, ⟨rfl, hmax⟩, by omega⟩
    case isFalse hmax =>
      split
      case isTrue hcrossed =>
        exact .inr ⟨_, rfl, ⟨rfl, rfl, hcrossed⟩, by omega⟩
      case isFalse hcrossed =>
        split
        case isTrue hpool =>
          exact .inr ⟨_, rfl, hpool, fun h => by simp [hpool] at h⟩
        case isFalse hpool =>
          refine .inl ⟨rfl, ⟨by omega, by omega, by omega⟩, ?_⟩
          exact UInt32.pos_iff_ne_zero.mpr hpool

variable {read : String → Except ConfigError Config} {text : String} {c : Config}

/-- **What is accepted** is usable. -/
theorem load_ok_iff (hread : read text = .ok c) : load read text = .ok c ↔ c.Usable := by
  rcases c.check_spec with ⟨hcheck, husable⟩ | ⟨cause, hcheck, -, hunusable⟩
  · simp [load, hread, hcheck, husable, bind, Except.bind, pure, Except.pure]
  · simp [load, hread, hcheck, hunusable, bind, Except.bind, throw, throwThe, MonadExceptOf.throw]

/-- **What is not usable** is refused with the range that it violates. -/
theorem load_outOfRange (hread : read text = .ok c) (h : ¬ c.Usable) :
    ∃ cause, load read text = .error (.outOfRange cause) ∧ cause.Concerns c := by
  rcases c.check_spec with ⟨-, husable⟩ | ⟨cause, hcheck, hconcerns, -⟩
  · exact absurd husable h
  · refine ⟨cause, ?_, hconcerns⟩
    simp [load, hread, hcheck, bind, Except.bind, throw, throwThe, MonadExceptOf.throw]

end Config

namespace Bench

open Subscriptions

variable {N T σ η : Type}

/-! ### Batches -/

/-- **Every batch that is asked for** has a task, and no more than the policy allows. -/
theorem length_of_mem_asks [DecidableEq σ] (b : Bench N T σ η) {op : Op σ} {d : Demand σ}
    (h : d ∈ b.asks op) : 1 ≤ d.tasks.length ∧ d.tasks.length ≤ b.mux.policy.most := by
  have htwo := b.mux.policy.two_le_least
  have hle := b.mux.policy.least_le_most
  cases op with
  | flush order =>
    obtain ⟨v, -, hd⟩ := List.mem_flatMap.mp h
    obtain ⟨batch, hbatch, rfl⟩ := List.mem_map.mp hd
    exact b.mux.policy.length_of_mem_split hbatch
  | waitNow signal edge task =>
    obtain rfl := List.mem_singleton.mp h
    exact ⟨Nat.le_refl 1, by show 1 ≤ _; omega⟩
  | watch signal edge task =>
    obtain rfl := List.mem_singleton.mp h
    exact ⟨Nat.le_refl 1, by show 1 ≤ _; omega⟩
  | addWait | deliver | cancel | shutdown => cases h

/-! ### Before the first registration -/

variable [NativeLayer N σ η] [Scheduler T] [DecidableEq σ] [LogText σ] [LogText η]
  {I : List (Holding σ η) → Arena σ → NativeRecord N σ η → List RegistrationKey → Prop}

omit [NativeLayer N σ η] [Scheduler T] [DecidableEq σ] [LogText σ] [LogText η] in
/-- While nothing is registered, the pool is as full as it can be. -/
theorem free_ne_nil_of_roster_nil {s : Subscriptions σ η} (h : s.Roster [])
    (hcapacity : 0 < s.pool.capacity) : s.pool.free ≠ [] := by
  intro hfree
  have hcount := h.available_add_length
  rw [IdPool.available, hfree, List.length_nil, List.length_nil] at hcount
  omega

omit [Scheduler T] [DecidableEq σ] in
/-- **With nothing registered** a task can be subscribed at once. -/
theorem registerSingle_of_roster_nil (hI : Tracking I) {b : RecordedBench N T σ η}
    (h : b.Tracked I []) (hlive : b.mux.isPoisoned = false)
    (hcapacity : 0 < b.mux.subscriptions.pool.capacity) (signal : σ) (edge : Edge) (task : TaskId)
    (mode : Mode) : ∃ key b', b.registerSingle signal edge task mode = .done key b' := by
  obtain ⟨b', -, -, -, -, -, -, -, hfree⟩ | ⟨e, b', hdone, -⟩ :=
    registerSingle_spec hI h hlive signal edge task mode
  · exact absurd hfree (free_ne_nil_of_roster_nil h.roster hcapacity)
  · exact ⟨e.key, b', hdone⟩

/-- An operation that fails has found something registered, or has registered something itself. -/
theorem issued_ne_nil_of_failed (hI : Tracking I) {b b' : RecordedBench N T σ η}
    (h : b.Tracked I []) (hlive : b.mux.isPoisoned = false)
    (hcapacity : 0 < b.mux.subscriptions.pool.capacity) {op : Op σ} {e : MuxError}
    (hfailed : b.perform op = .failed e b') : b'.log.issued ≠ [] := by
  -- to subscribe one task would have worked
  have hsingle : ∀ signal edge task mode,
      (b.registerSingle signal edge task mode).andThen (fun key b => .done (.issued key) b) ≠
        (.failed e b' : Outcome MuxError (RecordedBench N T σ η) Answer) := by
    intro signal edge task mode hfailed
    obtain ⟨key, b₁, hdone⟩ :=
      registerSingle_of_roster_nil hI h hlive hcapacity signal edge task mode
    rw [hdone] at hfailed
    cases hfailed
  cases op with
  | flush order =>
    rw [perform] at hfailed
    have hresult := flush_spec hI h hlive order
    generalize b.flush order = o at hfailed hresult
    cases hresult with
    | done => cases hfailed
    | failed new b₁ htracked hframe _ hfree _ _ hissued =>
      obtain ⟨-, rfl⟩ := Outcome.failed.inj hfailed
      intro hnone
      rw [hissued, List.append_eq_nil_iff] at hnone
      obtain rfl := List.map_eq_nil_iff.mp hnone.2
      rw [← hframe.capacity] at hcapacity
      exact free_ne_nil_of_roster_nil htracked.roster hcapacity hfree
  | waitNow signal edge task => exact absurd hfailed (hsingle signal edge task .oneShot)
  | watch signal edge task => exact absurd hfailed (hsingle signal edge task .persistent)
  | deliver key value =>
    rw [perform] at hfailed
    have hresult := deliver_spec hI h hlive key value
    generalize b.deliver key value = o at hfailed hresult
    cases hresult with
    | stale => cases hfailed
    | ignored | refused => cases hfailed
    | fired e he => exact absurd he List.not_mem_nil
  | addWait => exact absurd hfailed (perform_ne_failed b rfl e b')
  | cancel => exact absurd hfailed (perform_ne_failed b rfl e b')
  | shutdown => exact absurd hfailed (perform_ne_failed b rfl e b')

/-- A new context has come to `b`: it has its settings still, and it is not poisoned unless it has
registered something. -/
structure Underway (b₀ b : RecordedBench N T σ η) : Prop where
  tracked : ∃ L, b.Tracked Numbered L
  policy : b.mux.policy = b₀.mux.policy
  capacity : b.mux.subscriptions.pool.capacity = b₀.mux.subscriptions.pool.capacity
  live : b.log.issued = [] → b.mux.isPoisoned = false

omit [NativeLayer N σ η] [Scheduler T] [DecidableEq σ] [LogText σ] [LogText η] in
/-- Nothing is live before the first registration. -/
theorem Underway.roster_nil {b₀ b : RecordedBench N T σ η} (h : Underway b₀ b)
    (hissued : b.log.issued = []) : b.Tracked Numbered [] := by
  obtain ⟨L, htracked⟩ := h.tracked
  cases L with
  | nil => exact htracked
  | cons e rest =>
    have hlt := htracked.extra.number_lt List.mem_cons_self
    rw [hissued] at hlt
    cases hlt

theorem Underway.turn {b₀ b b' : RecordedBench N T σ η}
    (hcapacity : 0 < b₀.mux.subscriptions.pool.capacity) (h : Underway b₀ b) {t : Turn N T σ}
    (hturn : b.turn t = .ok b') : Underway b₀ b' := by
  obtain ⟨L, htracked⟩ := h.tracked
  cases t with
  | others native scheduler =>
    obtain rfl := Except.ok.inj hturn
    have hextra := htracked.extra
    exact ⟨⟨L, htracked.roster, hextra.sorted, hextra.issued_at⟩, h.policy, h.capacity, h.live⟩
  | op o =>
    obtain ⟨new, hperformed⟩ :=
      perform_roster (tracking_since tracking_numbered _ _) htracked.since hturn
    refine ⟨⟨_, hperformed.tracked.of_since⟩, hperformed.policy.trans h.policy,
      hperformed.capacity.trans h.capacity, fun hissued' => ?_⟩
    -- keys are not taken back, so none had been issued before the operation
    have hprefix : b.log.issued <+: b'.log.issued := hperformed.tracked.extra.2.1
    have hissued : b.log.issued = [] := List.prefix_nil.mp (hissued' ▸ hprefix)
    have hnone := h.roster_nil hissued
    have hresult := perform_of_live tracking_numbered hnone (h.live hissued) o
    rw [Bench.turn] at hturn
    cases hperform : b.perform o with
    | done a b₁ =>
      rw [hperform] at hturn hresult
      obtain rfl := Except.ok.inj hturn
      cases hresult with
      | done _ _ hlive => exact hlive
    | failed e b₁ =>
      rw [hperform] at hturn
      obtain rfl := Except.ok.inj hturn
      rw [← h.capacity] at hcapacity
      -- the pool has ids, so an operation only fails when some have been given away
      exact absurd hissued' (issued_ne_nil_of_failed tracking_numbered hnone (h.live hissued)
        hcapacity hperform)
    | fault f =>
      rw [hperform] at hturn
      cases hturn

/-- **Every run** of a new context keeps its settings, and poisons it only after a registration. -/
theorem underway_after {b₀ b : RecordedBench N T σ η} (hfresh : Fresh b₀)
    (hcapacity : 0 < b₀.mux.subscriptions.pool.capacity) {turns : List (Turn N T σ)}
    (hrun : after turns b₀ = .ok b) : Underway b₀ b := by
  refine after_induction turns (fun _ _ _ _ h hturn => Underway.turn hcapacity h hturn) b₀ b ?_ hrun
  refine ⟨⟨[], hfresh.tracked fun _ => ⟨List.Pairwise.nil, by simp⟩⟩, rfl, rfl, fun _ => ?_⟩
  obtain ⟨config, picks, mux, native, scheduler, hmux, rfl⟩ := hfresh
  obtain ⟨policy, -, rfl⟩ := Mux.ofConfig_eq hmux
  rfl

/-! ### Accepted configurations -/

/-- Wherever a run of a context has come to, its batches are within the bounds of `c`, and as long
as nothing has been registered a task can be subscribed at once. -/
structure RunsWithin (c : Config) (b : RecordedBench N T σ η) : Prop where
  /-- However many tasks are waiting, the batches that they are cut into fit. -/
  split : ∀ tasks : List TaskId, ∀ batch ∈ b.mux.policy.split tasks,
    1 ≤ batch.length ∧ batch.length ≤ c.batching.maxArity
  asked : ∀ op, ∀ d ∈ b.asks op,
    1 ≤ d.tasks.length ∧ d.tasks.length ≤ c.batching.maxArity
  accepted : ∀ op, ∀ d ∈ b.asks op, ∀ id,
    ∃ r, Registration.make id d.signal d.edge d.tasks d.mode = .ok r
  /-- What is not asked for is not registered. -/
  makes : ∀ t key r b', Makes b t key r b' → ∃ op, t = .op op ∧ r.demand ∈ b.asks op
  /-- To register does not stop, on the size of a batch or on anything else. -/
  never_stops : ∀ op, b.asks op ≠ [] → ∀ f, b.perform op ≠ .fault f
  first : b.log.issued = [] → ∀ signal edge task,
    (∃ key b', b.waitNow signal edge task = .done key b') ∧
      ∃ key b', b.watch signal edge task = .done key b'

theorem Underway.runsWithin {b₀ b : RecordedBench N T σ η} (h : Underway b₀ b)
    (hcapacity : 0 < b₀.mux.subscriptions.pool.capacity) {c : Config}
    (hmost : b₀.mux.policy.most = c.batching.maxArity) : RunsWithin c b := by
  obtain ⟨L, htracked⟩ := h.tracked
  have hmost' : b.mux.policy.most = c.batching.maxArity := by rw [h.policy, hmost]
  rw [← h.capacity] at hcapacity
  refine ⟨?_, ?_, ?_, ?_, ?_, ?_⟩
  · intro tasks batch hbatch
    rw [← hmost']
    exact b.mux.policy.length_of_mem_split hbatch
  · intro op d hd
    rw [← hmost']
    exact b.length_of_mem_asks hd
  · intro op d hd id
    obtain ⟨hpos, hle⟩ := b.length_of_mem_asks hd
    exact ⟨_, make_of_sized id d.signal d.edge d.mode
      ⟨hpos, Nat.le_trans hle b.mux.policy.most_le_capacity⟩⟩
  · exact fun t key r b' hmakes => hmakes.asked tracking_numbered htracked
  · intro op hasks f hfault
    cases op with
    | flush order =>
      rw [perform, andThen_done_eq_fault] at hfault
      exact flush_ne_fault tracking_numbered htracked order f hfault
    | waitNow signal edge task =>
      rw [perform, andThen_done_eq_fault] at hfault
      exact registerSingle_ne_fault tracking_numbered htracked signal edge task .oneShot f hfault
    | watch signal edge task =>
      rw [perform, andThen_done_eq_fault] at hfault
      exact registerSingle_ne_fault tracking_numbered htracked signal edge task .persistent f hfault
    | addWait | deliver | cancel | shutdown => exact hasks rfl
  · intro hissued signal edge task
    have hnone := h.roster_nil hissued
    exact ⟨registerSingle_of_roster_nil tracking_numbered hnone (h.live hissued) hcapacity signal
        edge task .oneShot,
      registerSingle_of_roster_nil tracking_numbered hnone (h.live hissued) hcapacity signal edge
        task .persistent⟩

variable (N T σ η) in
/-- A text has been read as the configuration `c`: whether this is accepted, and what comes of
it. -/
structure Vetted (read : String → Except ConfigError Config) (text : String) (c : Config) :
    Prop where
  accepted_iff : Config.load read text = .ok c ↔
    (∃ p, c.batching.policy = .ok p) ∧ 0 < c.pool.capacity
  refused : ¬ ((∃ p, c.batching.policy = .ok p) ∧ 0 < c.pool.capacity) →
    ∃ cause, Config.load read text = .error (.outOfRange cause) ∧ cause.Concerns c
  bounded : Config.load read text = .ok c → c.batching.maxArity ≤ batchCapacity
  runs : Config.load read text = .ok c → ∀ picks, ∃ mux : Mux σ η, Mux.ofConfig c picks = .ok mux ∧
    ∀ (native : N) (scheduler : T) (turns : List (Turn N T σ)) (b : RecordedBench N T σ η),
      after turns ⟨mux, ⟨native, []⟩, ⟨scheduler, []⟩, #[]⟩ = .ok b → RunsWithin c b

/-- **Accepted configurations can be run**, whatever reads them. -/
theorem accepted_runs {read : String → Except ConfigError Config} {text : String} {c : Config}
    (hread : read text = .ok c) : Vetted N T σ η read text c := by
  have haccepted := Config.load_ok_iff hread
  refine ⟨haccepted, fun h => Config.load_outOfRange hread h, fun hload => ?_,
    fun hload picks => ?_⟩
  · exact (c.batching.exists_policy_iff.mp (haccepted.mp hload).1).2.2
  · obtain ⟨⟨p, hpolicy⟩, hpool⟩ := haccepted.mp hload
    obtain ⟨mux, hmux⟩ : ∃ mux : Mux σ η, Mux.ofConfig c picks = .ok mux :=
      ⟨_, by rw [Mux.ofConfig, hpolicy]; rfl⟩
    refine ⟨mux, hmux, fun native scheduler turns b hrun => ?_⟩
    obtain ⟨p', hpolicy', rfl⟩ := Mux.ofConfig_eq hmux
    have hcapacity : 0 < (c.pool.pool picks).capacity := by
      rw [(IdPool.pool_valid c.pool picks).2.1]
      exact UInt32.lt_iff_toNat_lt.mp hpool
    refine (underway_after ⟨c, picks, _, native, scheduler, hmux, rfl⟩ hcapacity hrun).runsWithin
      hcapacity ?_
    exact (BatchingConfig.policy_eq_ok_iff.mp hpolicy').2

/-- Six tasks that wait for one edge, to be registered with two ids. -/
def sixWaits : List (Turn Switchboard ScriptedScheduler Pin) :=
  [1, 2, 3, 4, 5, 6].map (fun n => .op (.addWait ⟨0⟩ .rising ⟨n⟩)) ++
    [.op (.flush (.recorded Pin))]

def twoIds : String := "[batching]\nmin_arity = 3\nmax_arity = 4\n[pool]\ncapacity = 2\n"

/-- Of these six tasks four make a batch and the other two go by themselves, so an id is missing. -/
theorem accepted_runs_sixWaits :
    ∃ (c : Config) (mux : Mux Pin Nat) (b : RecordedBench Switchboard ScriptedScheduler Pin Nat),
      Config.parse twoIds = .ok c ∧
      Vetted Switchboard ScriptedScheduler Pin Nat Config.parse twoIds c ∧
      Config.ofText twoIds = .ok c ∧ Mux.ofConfig c [] = .ok mux ∧
      after sixWaits ⟨mux, ⟨{}, []⟩, ⟨.failingAt [] ⟨"", ""⟩, []⟩, #[]⟩ = .ok b ∧
      b.mux.isPoisoned = true ∧
      b.mux.subscriptions.arena.toList.map (·.2.tasks.length) = [4, 1] ∧ RunsWithin c b := by
  have hread : Config.parse twoIds =
      .ok { batching := { minArity := 3, maxArity := 4 }, pool := { capacity := 2 } } := by
    decide +kernel
  have hvetted : Vetted Switchboard ScriptedScheduler Pin Nat _ _ _ := accepted_runs hread
  have hload := hvetted.accepted_iff.mpr ⟨⟨_, rfl⟩, by decide⟩
  obtain ⟨mux, b, hmux, hrun, hpoisoned, hlengths⟩ :
      ∃ (mux : Mux Pin Nat) (b : RecordedBench Switchboard ScriptedScheduler Pin Nat),
        Mux.ofConfig { batching := { minArity := 3, maxArity := 4 }, pool := { capacity := 2 } }
          [] = .ok mux ∧
        after sixWaits ⟨mux, ⟨{}, []⟩, ⟨.failingAt [] ⟨"", ""⟩, []⟩, #[]⟩ = .ok b ∧
        b.mux.isPoisoned = true ∧
        b.mux.subscriptions.arena.toList.map (·.2.tasks.length) = [4, 1] :=
    ⟨_, _, rfl, rfl, rfl, rfl⟩
  obtain ⟨mux', hmux', hruns⟩ := hvetted.runs hload []
  obtain rfl := Except.ok.inj (hmux'.symm.trans hmux)
  exact ⟨_, mux', b, hread, hvetted, hload, hmux, hrun, hpoisoned, hlengths,
    hruns _ _ _ _ hrun⟩

end Bench

end EdgeWait
