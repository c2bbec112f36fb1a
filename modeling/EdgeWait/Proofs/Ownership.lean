/-
Ownership of ids and native handles.

A live registration owns its id and the native handle that is filed under it, and nothing else owns
an id or a handle.

* `owned_after` — so it is after every run, whatever errors have come up in it, and no operation
  can stop for a reason of its own, except that a wait is recorded twice.

Design notes: which subscription a filed handle stands for is read off the record of the native
calls (`lastSubscription`).  No property of the native layer or of the scheduler is used.
-/
import EdgeWait.Proofs.Operations
import EdgeWait.Switchboard

namespace EdgeWait

variable {N T σ η : Type}

/-- The latest subscription made with a key: its signal, its condition and its handle. -/
def lastSubscription (calls : List (NativeCall σ η)) (key : RegistrationKey) :
    Option (σ × Condition × η) :=
  calls.reverse.findSome? fun
    | .subscribed signal condition k handle =>
      if k = key then some (signal, condition, handle) else none
    | .unsubscribed _ => none

theorem lastSubscription_subscribed (calls : List (NativeCall σ η)) (signal : σ)
    (condition : Condition) (key : RegistrationKey) (handle : η) (k : RegistrationKey) :
    lastSubscription (calls ++ [.subscribed signal condition key handle]) k =
      if key = k then some (signal, condition, handle) else lastSubscription calls k := by
  rw [lastSubscription, List.reverse_append, List.reverse_singleton, List.singleton_append,
    List.findSome?_cons]
  by_cases hkey : key = k
  · simp [hkey]
  · simp [hkey, lastSubscription]

theorem lastSubscription_unsubscribed (calls : List (NativeCall σ η)) (handle : η)
    (k : RegistrationKey) :
    lastSubscription (calls ++ [.unsubscribed handle]) k = lastSubscription calls k := by
  simp [lastSubscription]

/-- Each handle of the roster is the answer to the latest subscription with its key, which was made
for the registration's signal and condition. -/
def Filed (L : List (Holding σ η)) (_ : Arena σ) (native : NativeRecord N σ η)
    (_ : List RegistrationKey) : Prop :=
  ∀ e ∈ L, lastSubscription native.calls e.key =
    some (e.registration.signal, e.registration.condition, e.handle)

theorem tracking_filed [NativeLayer N σ η] : Tracking (Filed (N := N) (σ := σ) (η := η)) where
  opened := by
    intro L arena native issued key handle native' arena' r h _ _ hfresh _ hsubscribe e he
    obtain ⟨hhandle, rfl⟩ := Prod.mk.inj hsubscribe
    rw [lastSubscription_subscribed]
    rcases List.mem_append.mp he with he | he
    · rw [if_neg (Ne.symm (hfresh e he))]
      exact h e he
    · obtain rfl := List.mem_singleton.mp he
      rw [if_pos rfl, hhandle]
  closed := by
    intro L arena native issued native' e h _ _ _ hunsubscribe f hf
    obtain ⟨layer, -, rfl⟩ := unsubscribe_eq_ok.mp hunsubscribe
    rw [lastSubscription_unsubscribed]
    exact h f (List.mem_of_mem_filter hf)

theorem steady_filed : Bench.Steady (Filed (N := N) (σ := σ) (η := η)) :=
  fun _ _ _ _ _ h => h

/-- **Ownership**: ids in use, filed handles and live registrations belong together one to one. -/
structure Owned (m : Mux σ η) (calls : List (NativeCall σ η)) : Prop where
  /-- No two live registrations share an id. -/
  key_eq : ∀ {k k' r r'}, m.registration? k = some r → m.registration? k' = some r' →
    r.id = r'.id → k = k'
  inUse_iff : ∀ id, m.subscriptions.pool.isInUse id = true ↔
    ∃! k, ∃ r, m.registration? k = some r ∧ r.id = id
  handle_iff : ∀ id, (m.subscriptions.handle? id).isSome = true ↔
    m.subscriptions.pool.isInUse id = true
  /-- The table of handles has one row for each id. -/
  rows : m.subscriptions.handles.size = m.subscriptions.pool.capacity
  active : ∀ {k r}, m.registration? k = some r → r.phase = .active
  sized : ∀ {k r}, m.registration? k = some r →
    1 ≤ r.tasks.length ∧ r.tasks.length ≤ batchCapacity
  filed : ∀ {k r}, m.registration? k = some r → ∃ handle,
    m.subscriptions.handle? r.id = some handle ∧
      lastSubscription calls k = some (r.signal, r.condition, handle)
  keys_nodup : m.subscriptions.arena.keys.Nodup
  mem_keys_iff : ∀ k, k ∈ m.subscriptions.arena.keys ↔ (m.registration? k).isSome = true
  length_keys : m.subscriptions.arena.keys.length = m.activeRegistrations
  count : m.activeRegistrations = m.subscriptions.pool.inUseCount

namespace Bench

theorem Tracked.owned {b : RecordedBench N T σ η} {L : List (Holding σ η)}
    (h : b.Tracked Filed L) : Owned b.mux b.native.calls := by
  have hresolves := h.registration?_eq_some_iff
  refine ⟨?_, ?_, ?_, h.roster.rows, ?_, ?_, ?_, ?_, ?_, ?_, h.roster.inUseCount.symm⟩
  -- each clause is one of the roster, with a holding in place of its key
  · intro k k' r r' hk hk' hid
    obtain ⟨e, he, rfl, rfl⟩ := (hresolves k r).mp hk
    obtain ⟨f, hf, rfl, rfl⟩ := (hresolves k' r').mp hk'
    exact congrArg Holding.key (h.roster.eq_of_id he hf hid)
  · intro id
    rw [h.roster.inUse_iff]
    constructor
    · rintro ⟨e, he, rfl⟩
      refine ⟨e.key, ⟨e.registration, h.roster.get?_of_mem he, rfl⟩, ?_⟩
      rintro k ⟨r, hk, hid⟩
      obtain ⟨f, hf, rfl, rfl⟩ := (hresolves k r).mp hk
      exact congrArg Holding.key (h.roster.eq_of_id hf he hid)
    · rintro ⟨k, ⟨r, hk, hid⟩, -⟩
      obtain ⟨e, he, -, rfl⟩ := (hresolves k r).mp hk
      exact ⟨e, he, hid⟩
  · intro id
    rw [Option.isSome_iff_exists, h.roster.inUse_iff]
    constructor
    · rintro ⟨handle, hhandle⟩
      obtain ⟨e, he, hid, -⟩ := (h.roster.handle_iff id handle).mp hhandle
      exact ⟨e, he, hid⟩
    · rintro ⟨e, he, hid⟩
      exact ⟨e.handle, (h.roster.handle_iff id e.handle).mpr ⟨e, he, hid, rfl⟩⟩
  · intro k r hk
    obtain ⟨e, he, -, rfl⟩ := (hresolves k r).mp hk
    exact h.roster.active e he
  · intro k r hk
    obtain ⟨e, he, -, rfl⟩ := (hresolves k r).mp hk
    exact h.roster.sized e he
  · intro k r hk
    obtain ⟨e, he, rfl, rfl⟩ := (hresolves k r).mp hk
    exact ⟨e.handle, (h.roster.handle_iff _ _).mpr ⟨e, he, rfl, rfl⟩, h.extra e he⟩
  · exact SlotMap.nodup_keys h.roster.arena_valid
  · intro k
    rw [SlotMap.mem_keys_iff h.roster.arena_valid, Option.isSome_iff_exists]
    rfl
  · exact h.roster.length_keys.trans h.roster.live_eq.symm

variable [NativeLayer N σ η] [Scheduler T] [DecidableEq σ] [LogText σ] [LogText η]

/-- **After every run** ids and handles are owned by live registrations, and an operation can only
stop because a wait is recorded twice, or because the native layer stops it. -/
theorem owned_after {b₀ b : RecordedBench N T σ η} (hfresh : Fresh b₀)
    {turns : List (Turn N T σ)} (hrun : after turns b₀ = .ok b) :
    Owned b.mux b.native.calls ∧ ∀ op f, b.perform op = .fault f →
      (∃ signal edge task, op = .addWait signal edge task ∧
        task ∈ b.mux.pending.waiting signal edge ∧
        f = .duplicateWait task edge (logText signal)) ∨
      ∃ (n : N) (handle : η), NativeLayer.unsubscribe n handle = .error f := by
  have hnew : b₀.Tracked Filed [] := hfresh.tracked fun _ _ he => absurd he (by simp)
  obtain ⟨L, h⟩ := after_tracked tracking_filed steady_filed hnew hrun
  refine ⟨h.owned, fun op f hfault => ?_⟩
  rcases perform_fault tracking_filed h hfault with hduplicate | hrefuses
  · exact .inl hduplicate
  · obtain ⟨_, _, n, _, e, _, _, hunsubscribe⟩ := hrefuses
    exact .inr ⟨n.layer, e.handle, unsubscribe_eq_error.mp hunsubscribe⟩

/-- Two waits, of which the first fires although the scheduler fails. -/
def twoWaits : List (Turn Switchboard ScriptedScheduler Pin) :=
  [.op (.waitNow ⟨0⟩ .rising ⟨1⟩), .op (.addWait ⟨1⟩ .either ⟨2⟩), .op (.flush (.recorded Pin)),
    .op (.deliver ⟨0, 0⟩ .one), .op (.cancel ⟨7, 3⟩)]

theorem owned_after_twoWaits :
    ∃ b₀ b : RecordedBench Switchboard ScriptedScheduler Pin Nat, Fresh b₀ ∧
      after twoWaits b₀ = .ok b ∧ b.mux.isPoisoned = true ∧ b.mux.activeRegistrations = 1 ∧
      Owned b.mux b.native.calls := by
  obtain ⟨b₀, b, hfresh, hrun, hpoisoned, hactive⟩ :
      ∃ b₀ b : RecordedBench Switchboard ScriptedScheduler Pin Nat, Fresh b₀ ∧
        after twoWaits b₀ = .ok b ∧ b.mux.isPoisoned = true ∧ b.mux.activeRegistrations = 1 :=
    ⟨_, _, ⟨{ pool := { capacity := 2 } }, [], _, {}, .failingAt [1] ⟨"no such task", ""⟩, rfl,
      rfl⟩, rfl, rfl, rfl⟩
  exact ⟨b₀, b, hfresh, hrun, hpoisoned, hactive, (owned_after hfresh hrun).1⟩

end Bench

end EdgeWait
