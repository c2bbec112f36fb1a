/-
The custody of native handles.

A context gives back every handle that it has obtained from the native layer, once, and nothing
that it has not obtained.

* `tracking_accounted` — the handles that are out are those of the live registrations;
* `shutdown_settled` — a shutdown ends every registration, and no handle is out after it;
* `custody_after` — all this after every run on a faithful native layer, where an operation can only
  stop because a wait is recorded twice;
* `Sim.faithful_lists` — the simulator is faithful.

Design notes: a native layer may hand out a handle again that has been given back, so what is
counted is how often a handle has been obtained and how often it has been returned.  A layer need
only be faithful as long as fewer than 2^32 handles are live; a context does not ask for more.
-/
import EdgeWait.Proofs.Ownership
import EdgeWait.Sim.Basic

namespace EdgeWait

variable {N T σ η : Type}

/-! ### Handles on record -/

section Counting

variable [DecidableEq η]

/-- A native layer has handed out the handle. -/
def NativeCall.obtains (h : η) : NativeCall σ η → Bool
  | .subscribed _ _ _ handle => decide (handle = h)
  | .unsubscribed _ => false

/-- A native layer has taken back the handle. -/
def NativeCall.returns (h : η) : NativeCall σ η → Bool
  | .subscribed .. => false
  | .unsubscribed handle => decide (handle = h)

/-- How often a handle has been obtained. -/
def obtained (h : η) (calls : List (NativeCall σ η)) : Nat := calls.countP (·.obtains h)

/-- How often a handle has been given back. -/
def returned (h : η) (calls : List (NativeCall σ η)) : Nat := calls.countP (·.returns h)

/-- Each handle is given back at most once after it has been obtained, and not before; nor is it
obtained again before it has been given back. -/
def Paired (calls : List (NativeCall σ η)) : Prop :=
  ∀ pre, pre <+: calls → ∀ h, returned h pre ≤ obtained h pre ∧
    obtained h pre ≤ returned h pre + 1

theorem obtained_subscribed (h : η) (calls : List (NativeCall σ η)) (signal : σ)
    (condition : Condition) (key : RegistrationKey) (handle : η) :
    obtained h (calls ++ [.subscribed signal condition key handle]) =
      obtained h calls + if handle = h then 1 else 0 := by
  simp [obtained, NativeCall.obtains, List.countP_append, List.countP_singleton]

theorem obtained_unsubscribed (h : η) (calls : List (NativeCall σ η)) (handle : η) :
    obtained h (calls ++ [.unsubscribed handle]) = obtained h calls := by
  simp [obtained, NativeCall.obtains, List.countP_append]

theorem returned_subscribed (h : η) (calls : List (NativeCall σ η)) (signal : σ)
    (condition : Condition) (key : RegistrationKey) (handle : η) :
    returned h (calls ++ [.subscribed signal condition key handle]) = returned h calls := by
  simp [returned, NativeCall.returns, List.countP_append]

theorem returned_unsubscribed (h : η) (calls : List (NativeCall σ η)) (handle : η) :
    returned h (calls ++ [.unsubscribed handle]) =
      returned h calls + if handle = h then 1 else 0 := by
  simp [returned, NativeCall.returns, List.countP_append, List.countP_singleton]

theorem paired_nil : Paired ([] : List (NativeCall σ η)) := by
  intro pre hpre h
  obtain rfl := List.prefix_nil.mp hpre
  exact ⟨Nat.le_refl _, Nat.le_succ _⟩

/-- Only the record as a whole has to be looked at when a call has been added. -/
theorem Paired.concat {calls : List (NativeCall σ η)} (hpaired : Paired calls)
    {call : NativeCall σ η}
    (hall : ∀ h, returned h (calls ++ [call]) ≤ obtained h (calls ++ [call]) ∧
      obtained h (calls ++ [call]) ≤ returned h (calls ++ [call]) + 1) :
    Paired (calls ++ [call]) := by
  intro pre hpre
  rcases List.prefix_concat_iff.mp hpre with rfl | hpre
  · exact hall
  · exact hpaired pre hpre

/-- A record stays paired when the handles that are out after a call are out once. -/
theorem Paired.concat_of_out {calls : List (NativeCall σ η)} (hpaired : Paired calls)
    {call : NativeCall σ η} {handles : List η} (hnodup : handles.Nodup)
    (hout : ∀ h, obtained h (calls ++ [call]) = returned h (calls ++ [call]) + handles.count h) :
    Paired (calls ++ [call]) := by
  refine hpaired.concat fun h => ?_
  have hone := List.nodup_iff_count_le_one.mp hnodup h
  have hcount := hout h
  omega

end Counting

/-! ### Faithful native layers -/

/-- A native layer keeps to its interface, where `Live n handles` says that `n` is in good order and
has the live handles `handles`: it hands out no handle that is live, and takes back every one that
is. -/
structure Faithful [NativeLayer N σ η] [DecidableEq η] (Live : N → List η → Prop) : Prop where
  subscribe : ∀ {n handles signal condition key handle n'}, Live n handles →
    handles.length < 2 ^ 32 →
    NativeLayer.subscribe n signal condition key = (handle, n') →
    handle ∉ handles ∧ Live n' (handles ++ [handle])
  unsubscribe : ∀ {n handles handle}, Live n handles → handle ∈ handles →
    ∃ n', NativeLayer.unsubscribe n handle = .ok n' ∧ Live n' (handles.filter (· ≠ handle))

/-- What the native layer does by itself leaves the handles of the context alone. -/
def Turn.Spares (Live : N → List η → Prop) : Turn N T σ → Prop
  | .op _ => True
  | .others native _ => ∀ n handles, Live n handles → Live (native n) handles

/-- The handles of the roster are the live ones, and they are the ones that are out. -/
structure Accounted [DecidableEq η] (Live : N → List η → Prop) (L : List (Holding σ η))
    (arena : Arena σ) (native : NativeRecord N σ η) (_ : List RegistrationKey) : Prop where
  live : Live native.layer (L.map (·.handle))
  handles_nodup : (L.map (·.handle)).Nodup
  arena_live : arena.live = L.length
  paired : Paired native.calls
  out : ∀ h, obtained h native.calls = returned h native.calls + (L.map (·.handle)).count h

section Accounted

variable [DecidableEq η] {Live : N → List η → Prop}

theorem accounted_start {layer : N} (h : Live layer []) :
    Accounted (σ := σ) Live [] .empty ⟨layer, []⟩ [] :=
  ⟨h, List.nodup_nil, rfl, paired_nil, fun _ => rfl⟩

/-- To take out the holding of a key is to take out its handle. -/
theorem map_handle_filter {L : List (Holding σ η)} (hkeys : (L.map (·.key)).Nodup)
    (hhandles : (L.map (·.handle)).Nodup) {e : Holding σ η} (he : e ∈ L) :
    (L.filter (·.key ≠ e.key)).map (·.handle) = (L.map (·.handle)).filter (· ≠ e.handle) := by
  rw [List.filter_map]
  congr 1
  refine List.filter_congr fun f hf => ?_
  rw [Function.comp_apply, decide_eq_decide]
  refine not_congr ⟨fun hkey => ?_, fun hhandle => ?_⟩
  · rw [List.inj_on_of_nodup_map hkeys hf he hkey]
  · rw [List.inj_on_of_nodup_map hhandles hf he hhandle]

variable [NativeLayer N σ η] {L : List (Holding σ η)} {arena : Arena σ}
  {native native' : NativeRecord N σ η} {issued : List RegistrationKey}

/-- The handle of a new registration is a new one, and it is out. -/
theorem Accounted.opened (h : Accounted Live L arena native issued) (hlayer : Faithful Live)
    (harena : arena.Valid) (hroom : arena.free = [] → arena.slots.size < 2 ^ 32)
    {r : Registration σ} {key : RegistrationKey} {handle : η}
    (hsubscribe : NativeLayer.subscribe native r.signal r.condition key = (handle, native')) :
    Accounted Live (L ++ [⟨key, handle, r, issued.length⟩]) (arena.insert r).2 native'
      (issued ++ [key]) := by
  obtain ⟨hhandle, rfl⟩ := Prod.mk.inj hsubscribe
  -- the arena has had room for the registration, so there are not too many handles
  have hlt : (L.map (·.handle)).length < 2 ^ 32 := by
    rw [List.length_map, ← h.arena_live]
    exact SlotMap.live_lt harena hroom
  have hanswer : NativeLayer.subscribe native.layer r.signal r.condition key =
      (handle, (NativeLayer.subscribe native.layer r.signal r.condition key).2) :=
    Prod.ext hhandle rfl
  obtain ⟨hnew, hlive⟩ := hlayer.subscribe h.live hlt hanswer
  set e : Holding σ η := ⟨key, handle, r, issued.length⟩
  have hmap : (L ++ [e]).map (·.handle) = L.map (·.handle) ++ [handle] := List.map_append
  have hnodup : ((L ++ [e]).map (·.handle)).Nodup := by
    rw [hmap, List.nodup_append', List.disjoint_singleton]
    exact ⟨h.handles_nodup, List.nodup_singleton _, hnew⟩
  have hout : ∀ h', obtained h' (native.calls ++
      [.subscribed r.signal r.condition key handle]) = returned h' (native.calls ++
        [.subscribed r.signal r.condition key handle]) +
      ((L ++ [e]).map (·.handle)).count h' := by
    intro h'
    rw [obtained_subscribed, returned_subscribed, h.out h', hmap, List.count_append,
      List.count_singleton, Nat.add_assoc]
    simp
  refine ⟨?_, hnodup, ?_, ?_, ?_⟩
  · rw [hmap]
    exact hlive
  · rw [List.length_append, ← h.arena_live]
    exact SlotMap.live_insert _ r
  · rw [hhandle]
    exact h.paired.concat_of_out hnodup hout
  · rw [hhandle]
    exact hout

/-- The handle of a registration that ends is not out any more. -/
theorem Accounted.closed (h : Accounted Live L arena native issued) (hlayer : Faithful Live)
    (hkeys : (L.map (·.key)).Nodup) {e : Holding σ η} (he : e ∈ L)
    (hunsubscribe : NativeLayer.unsubscribe (σ := σ) native e.handle = .ok native') :
    Accounted Live (L.filter (·.key ≠ e.key)) (arena.erase e.key) native' issued := by
  obtain ⟨layer, hlayer', rfl⟩ := unsubscribe_eq_ok.mp hunsubscribe
  have hmem : e.handle ∈ L.map (·.handle) := List.mem_map_of_mem he
  obtain ⟨n', hok, hlive⟩ := hlayer.unsubscribe h.live hmem
  obtain rfl := Except.ok.inj (hlayer'.symm.trans hok)
  have hmap := map_handle_filter hkeys h.handles_nodup he
  have hnodup : ((L.filter (·.key ≠ e.key)).map (·.handle)).Nodup := by
    rw [hmap]
    exact h.handles_nodup.filter _
  have hout : ∀ h', obtained h' (native.calls ++ [.unsubscribed e.handle]) =
      returned h' (native.calls ++ [.unsubscribed e.handle]) +
        ((L.filter (·.key ≠ e.key)).map (·.handle)).count h' := by
    intro h'
    rw [obtained_unsubscribed, returned_unsubscribed, h.out h', hmap]
    by_cases hh : e.handle = h'
    · -- the handle was out, and now it is not
      subst hh
      rw [List.count_eq_one_of_mem h.handles_nodup hmem, if_pos rfl,
        List.count_eq_zero_of_not_mem (by simp)]
    · rw [if_neg hh, List.count_filter (by simpa using Ne.symm hh), Nat.add_zero]
  refine ⟨?_, hnodup, ?_, h.paired.concat_of_out hnodup hout, hout⟩
  · rw [hmap]
    exact hlive
  · have hlength := Subscriptions.length_filter_key hkeys he
    rw [SlotMap.live_erase, h.arena_live]
    omega

theorem tracking_accounted (hlayer : Faithful Live) : Tracking (Accounted (σ := σ) Live) where
  opened := by
    intro L arena native issued key handle native' arena' r h harena hroom _ hinsert hsubscribe
    obtain rfl : arena' = (arena.insert r).2 := congrArg Prod.snd hinsert
    exact h.opened hlayer harena hroom hsubscribe
  closed := by
    intro L arena native issued native' e h hkeys he _ hunsubscribe
    exact h.closed hlayer hkeys he hunsubscribe

/-- A faithful layer does not refuse to take a handle back. -/
theorem not_refuses_of_faithful (hlayer : Faithful Live) {capacity : Nat} {f : Fault} :
    ¬ Bench.Refuses (Accounted (σ := σ) Live) capacity f := by
  rintro ⟨L, arena, native, issued, e, he, ⟨h, -⟩, hrefuses⟩
  obtain ⟨n', hok, -⟩ := hlayer.unsubscribe h.live (List.mem_map_of_mem he)
  rw [unsubscribe_eq_error, hok] at hrefuses
  cases hrefuses

end Accounted

namespace Bench

/-! ### Shutdown -/

/-- Nothing is left, and every handle that has been obtained has been given back. -/
structure Settled [DecidableEq η] (b : RecordedBench N T σ η) : Prop where
  gone : ∀ key, b.mux.registration? key = none
  active : b.mux.activeRegistrations = 0
  unused : b.mux.subscriptions.pool.inUseCount = 0 ∧
    ∀ id, b.mux.subscriptions.pool.isInUse id = false
  pending : b.mux.pending.waits = []
  paired : Paired b.native.calls
  returned : ∀ h, returned h b.native.calls = obtained h b.native.calls

section Settled

variable [DecidableEq η] {Live : N → List η → Prop}

theorem Tracked.settled {b : RecordedBench N T σ η} (h : b.Tracked (Accounted Live) [])
    (hpending : b.mux.pending.waits = []) : Settled b := by
  have hunused : ∀ id, b.mux.subscriptions.pool.isInUse id = false := by
    intro id
    rw [Bool.eq_false_iff, ne_eq, h.roster.inUse_iff]
    simp
  have hactive : b.mux.activeRegistrations = 0 := h.roster.live_eq
  refine ⟨fun key => h.roster.get?_eq_none_iff.mpr (by simp), hactive, ⟨?_, hunused⟩, hpending,
    h.extra.paired, fun h' => ?_⟩
  · exact h.roster.inUseCount.trans hactive
  · rw [h.extra.out h']
    rfl

variable [NativeLayer N σ η]

/-- **A shutdown** settles everything. -/
theorem shutdown_settled (hlayer : Faithful Live) {b : RecordedBench N T σ η}
    {L : List (Holding σ η)} (h : b.Tracked (Accounted Live) L) :
    ∃ b', b.shutdown = .ok (b.mux.activeRegistrations, b') ∧ Settled b' ∧
      b'.Tracked (Accounted Live) [] := by
  rcases shutdown_spec (tracking_accounted hlayer) h with
    ⟨f, hrefuses, -⟩ | ⟨b', heq, htracked, -, hpending, -⟩
  · exact absurd hrefuses (not_refuses_of_faithful hlayer)
  · rw [← h.roster.live_eq] at heq
    exact ⟨b', heq, htracked.settled (hpending ▸ PendingWaits.waits_clear _), htracked⟩

end Settled

/-! ### Runs -/

variable [DecidableEq η] [NativeLayer N σ η] [Scheduler T] [DecidableEq σ] [LogText σ] [LogText η]
  {Live : N → List η → Prop}

theorem after_accounted (hlayer : Faithful Live) {b c : RecordedBench N T σ η}
    {L : List (Holding σ η)} (h : b.Tracked (Accounted Live) L) {turns : List (Turn N T σ)}
    (hspares : ∀ t ∈ turns, t.Spares Live) (hrun : after turns b = .ok c) :
    ∃ L', c.Tracked (Accounted Live) L' := by
  refine after_induction (P := fun b => ∃ L, b.Tracked (Accounted Live) L) turns ?_ b c ⟨L, h⟩ hrun
  rintro b t ht b' ⟨L, h⟩ hturn
  cases t with
  | op o =>
    obtain ⟨new, hperformed⟩ := perform_roster (tracking_accounted hlayer) h hturn
    exact ⟨_, hperformed.tracked⟩
  | others native scheduler =>
    -- no handle changes hands when the layer and the scheduler go on by themselves
    have hlive := hspares _ ht _ _ h.extra.live
    obtain rfl := Except.ok.inj hturn
    exact ⟨L, h.roster, hlive, h.extra.handles_nodup, h.extra.arena_live, h.extra.paired,
      h.extra.out⟩

/-- What holds of a context as to the handles that it has obtained. -/
structure Custody (b : RecordedBench N T σ η) : Prop where
  live : ∃ keys : List RegistrationKey, keys.Nodup ∧
    (∀ key, key ∈ keys ↔ (b.mux.registration? key).isSome = true) ∧
    b.mux.activeRegistrations = keys.length
  /-- An operation only stops because a wait is recorded twice. -/
  fault : ∀ op f, b.perform op = .fault f → ∃ signal edge task, op = .addWait signal edge task ∧
    task ∈ b.mux.pending.waiting signal edge ∧ f = .duplicateWait task edge (logText signal)
  /-- A report where no error can be answered stops because of the error, and for nothing else. -/
  stop : ∀ key value f, b.deliverOrStop key value = .fault f →
    ∃ e b', b.deliver key value = .failed e b' ∧ f = .fatal e
  paired : Paired b.native.calls
  /-- A shutdown settles everything, and leaves nothing to do for another one. -/
  shutdown : ∃ b', b.shutdown = .ok (b.mux.activeRegistrations, b') ∧ Settled b' ∧
    ∃ b'', b'.shutdown = .ok (0, b'') ∧ Settled b''

theorem Tracked.custody (hlayer : Faithful Live) {b : RecordedBench N T σ η}
    {L : List (Holding σ η)} (h : b.Tracked (Accounted Live) L) : Custody b := by
  have hfault : ∀ op f, b.perform op = .fault f → ∃ signal edge task,
      op = .addWait signal edge task ∧ task ∈ b.mux.pending.waiting signal edge ∧
        f = .duplicateWait task edge (logText signal) := by
    intro op f hf
    rcases perform_fault (tracking_accounted hlayer) h hf with hduplicate | hrefuses
    · exact hduplicate
    · exact absurd hrefuses (not_refuses_of_faithful hlayer)
  refine ⟨⟨L.map (·.key), h.roster.keys_nodup, fun key => ?_, ?_⟩, hfault, ?_, h.extra.paired, ?_⟩
  · simp only [Option.isSome_iff_exists, h.registration?_eq_some_iff, List.mem_map]
    exact ⟨fun ⟨e, he, hkey⟩ => ⟨e.registration, e, he, hkey, rfl⟩,
      fun ⟨_, e, he, hkey, _⟩ => ⟨e, he, hkey⟩⟩
  · rw [List.length_map]
    exact h.roster.live_eq
  · intro key value f hstop
    cases hdeliver : b.deliver key value with
    | done d b' =>
      simp only [deliverOrStop, hdeliver] at hstop
      cases hstop
    | failed e b' =>
      simp only [deliverOrStop, hdeliver] at hstop
      exact ⟨e, b', rfl, (Outcome.fault.inj hstop).symm⟩
    | fault f' =>
      -- a report is no request to record a wait
      obtain ⟨_, _, _, hop, -⟩ := hfault (.deliver key value) f' (by rw [perform, hdeliver]; rfl)
      cases hop
  · obtain ⟨b', heq, hsettled, htracked⟩ := shutdown_settled hlayer h
    obtain ⟨b'', heq', hsettled', -⟩ := shutdown_settled hlayer htracked
    rw [hsettled.active] at heq'
    exact ⟨b', heq, hsettled, b'', heq', hsettled'⟩

/-- **No handle is given back twice, and none is kept**, in every run of a new context that has a
faithful native layer to itself. -/
theorem custody_after (hlayer : Faithful Live) {b₀ b : RecordedBench N T σ η} (hfresh : Fresh b₀)
    (hunused : Live b₀.native.layer []) {turns : List (Turn N T σ)}
    (hspares : ∀ t ∈ turns, t.Spares Live) (hrun : after turns b₀ = .ok b) : Custody b := by
  have hnew : b₀.Tracked (Accounted Live) [] := by
    obtain ⟨config, picks, mux, native, scheduler, hmux, rfl⟩ := hfresh
    obtain ⟨policy, -, rfl⟩ := Mux.ofConfig_eq hmux
    obtain ⟨hvalid, -, hfree⟩ := IdPool.pool_valid config.pool picks
    exact ⟨Subscriptions.roster_ofPool hvalid hfree, accounted_start hunused⟩
  obtain ⟨L, h⟩ := after_accounted hlayer hnew hspares hrun
  exact h.custody hlayer

end Bench

/-! ### The simulator -/

namespace Sim

/-- The handles of the callbacks of a simulator. -/
structure Lists (s : Sim) (handles : List CallbackHandle) : Prop where
  valid : s.callbacks.Valid
  nodup : handles.Nodup
  live_eq : s.callbacks.live = handles.length
  isLive_iff : ∀ h, s.isLive h = true ↔ h ∈ handles

theorem lists_of_empty {s : Sim} (h : s.callbacks = {}) : s.Lists [] := by
  have hempty : s.callbacks = .empty := h
  refine ⟨?_, List.nodup_nil, ?_, fun handle => ?_⟩
  · rw [hempty]
    exact SlotMap.valid_empty
  · rw [hempty]
    rfl
  · simp [isLive, SlotMap.contains, hempty]

/-- Only what touches the callbacks matters. -/
theorem Lists.congr {s s' : Sim} {handles : List CallbackHandle} (h : s.Lists handles)
    (hcallbacks : s'.callbacks = s.callbacks) : s'.Lists handles := by
  refine ⟨hcallbacks ▸ h.valid, h.nodup, hcallbacks ▸ h.live_eq, fun handle => ?_⟩
  rw [isLive, hcallbacks]
  exact h.isLive_iff handle

/-- **The simulator is faithful**, whatever slots it uses again. -/
theorem faithful_lists : Faithful Lists where
  subscribe := by
    intro s handles signal condition key handle s' h hlt hsubscribe
    obtain ⟨rfl, rfl⟩ := Prod.mk.inj hsubscribe
    set c : Callback := ⟨signal, condition, key, s.nextOrder⟩ with hc
    have hroom : s.callbacks.free = [] → s.callbacks.slots.size < 2 ^ 32 := by
      intro hfree
      -- without a free slot, as many handles are live as there are slots
      have hsize := h.valid.size_eq
      have hlive := h.live_eq
      rw [hfree, List.length_nil] at hsize
      omega
    have hnew : (s.callbacks.insert c).1 ∉ handles := by
      rw [← h.isLive_iff, isLive, SlotMap.contains,
        SlotMap.get?_insert_key h.valid hroom c]
      simp
    refine ⟨hnew, SlotMap.insert_valid h.valid hroom c, ?_, ?_, fun h' => ?_⟩
    · rw [List.nodup_append']
      refine ⟨h.nodup, List.nodup_singleton _, ?_⟩
      rw [List.disjoint_singleton]
      exact hnew
    · rw [List.length_append, ← h.live_eq]
      exact SlotMap.live_insert _ c
    · have hget := SlotMap.get?_insert h.valid hroom c h'
      show ((s.callbacks.insert c).2.get? h').isSome = true ↔
        h' ∈ handles ++ [(s.callbacks.insert c).1]
      rw [hget, List.mem_append, List.mem_singleton, ← h.isLive_iff, isLive, SlotMap.contains]
      by_cases hh : h' = (s.callbacks.insert c).1
      · rw [if_pos hh]
        exact ⟨fun _ => .inr hh, fun _ => rfl⟩
      · rw [if_neg hh, or_iff_left hh]
  unsubscribe := by
    intro s handles handle h hmem
    obtain ⟨c, hc⟩ := Option.isSome_iff_exists.mp ((h.isLive_iff handle).mpr hmem)
    have hget := SlotMap.get?_erase hc
    refine ⟨{ s with callbacks := s.callbacks.erase handle, removed := s.removed + 1 }, ?_,
      SlotMap.erase_valid h.valid hc, h.nodup.filter _, ?_, fun h' => ?_⟩
    · show s.unsubscribe handle = _
      rw [unsubscribe, SlotMap.erase?_eq, hc]
      rfl
    · have hcount : (handles.filter (· ≠ handle)).length = handles.length - 1 := by
        rw [← List.length_erase_of_mem hmem, h.nodup.erase_eq_filter]
        exact congrArg List.length (List.filter_congr fun h' _ => by simp [bne, beq_eq_decide])
      rw [hcount, ← h.live_eq]
      exact SlotMap.live_erase _ _
    · show ((s.callbacks.erase handle).get? h').isSome = true ↔ _
      rw [hget, List.mem_filter, ← h.isLive_iff, isLive, SlotMap.contains]
      by_cases hh : h' = handle
      · simp [hh]
      · simp [hh]

end Sim

namespace Bench

/-- A wait that fires although the scheduler fails, a key that was never issued, and a
registration that is left over. -/
def leftOver : List (Turn Sim ScriptedScheduler SignalId) :=
  [.op (.waitNow ⟨0⟩ .rising ⟨1⟩), .op (.addWait ⟨0⟩ .either ⟨2⟩),
    .op (.flush (.recorded SignalId)), .others (fun s => { s with now := ⟨10⟩ }) id,
    .op (.deliver ⟨0, 0⟩ .one), .op (.cancel ⟨7, 3⟩)]

theorem custody_after_leftOver :
    ∃ b₀ b : RecordedBench Sim ScriptedScheduler SignalId CallbackHandle, Fresh b₀ ∧
      after leftOver b₀ = .ok b ∧ b.mux.isPoisoned = true ∧ b.mux.activeRegistrations = 1 ∧
      Custody b := by
  obtain ⟨b₀, b, hfresh, hcallbacks, hrun, hpoisoned, hactive⟩ :
      ∃ b₀ b : RecordedBench Sim ScriptedScheduler SignalId CallbackHandle, Fresh b₀ ∧
        b₀.native.layer.callbacks = {} ∧ after leftOver b₀ = .ok b ∧ b.mux.isPoisoned = true ∧
        b.mux.activeRegistrations = 1 :=
    ⟨_, _, ⟨{ pool := { capacity := 2 } }, [], _, { signals := #[⟨"clk", .zero⟩] },
      .failingAt [1] ⟨"no such task", ""⟩, rfl, rfl⟩, rfl, rfl, rfl, rfl⟩
  have hspares : ∀ t ∈ leftOver, t.Spares Sim.Lists := by
    intro t ht
    simp only [leftOver, List.mem_cons, List.not_mem_nil, or_false] at ht
    rcases ht with rfl | rfl | rfl | rfl | rfl | rfl
    case inr.inr.inr.inl => exact fun s handles hlists => hlists.congr rfl
    all_goals exact trivial
  exact ⟨b₀, b, hfresh, hrun, hpoisoned, hactive,
    custody_after Sim.faithful_lists hfresh (Sim.lists_of_empty hcallbacks) hspares hrun⟩

end Bench

end EdgeWait
