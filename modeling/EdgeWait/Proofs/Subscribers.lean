/-
The callbacks of a simulator that serves one context.

Every holding of the roster has one callback, and no callback is without a holding.  The roster is
in the order in which its members have been subscribed, so it is also the order in which the
simulator calls them.

* `Covers.opened`, `Covers.closed` — a subscription and the end of one, for any list of holdings;
* `Covers.subscribers_sorted` — the callbacks of a signal are called in the order of subscription;
* `tracking_serves` — registrations and removals keep it so (`Serves`);
* `Serves.subscribers_eq` — the callbacks of a signal are those of the holdings on it, in the order
  of the roster;
* `not_refuses_of_serves` — the simulator never refuses to end a subscription of the context.

Design notes: the slots of the simulator are used again, so the handles are in no particular order.
What orders the callbacks is the number of subscriptions made before each of them, which is the
number of registrations made before that of the holding.
-/
import EdgeWait.Sim.Basic
import EdgeWait.Proofs.Ending
import EdgeWait.Proofs.Issuing

namespace EdgeWait

/-- A live registration that is served by the simulator. -/
abbrev SimHolding := Holding SignalId CallbackHandle

namespace Sim

/-- The callback of a holding. -/
def callbackOf (e : SimHolding) : Callback :=
  ⟨e.registration.signal, e.registration.condition, e.key, e.number⟩

/-- The callbacks of the simulator are those of the given holdings. -/
structure Covers (H : List SimHolding) (s : Sim) : Prop where
  valid : s.callbacks.Valid
  live_eq : s.callbacks.live = H.length
  handles_nodup : (H.map (·.handle)).Nodup
  get?_of_mem : ∀ e ∈ H, s.callbacks.get? e.handle = some (callbackOf e)
  mem_of_get? : ∀ h c, s.callbacks.get? h = some c → ∃ e ∈ H, e.handle = h
  numbers_nodup : (H.map (·.number)).Nodup
  number_lt : ∀ e ∈ H, e.number < s.nextOrder

/-- The callbacks of the simulator are those of the roster of a context. -/
structure Serves (L : List SimHolding) (arena : Arena SignalId) (s : Sim)
    (issued : List RegistrationKey) : Prop extends Covers L s where
  arena_live : arena.live = L.length
  nextOrder : s.nextOrder = issued.length

/-- Nobody has subscribed to the simulator yet. -/
structure Unsubscribed (s : Sim) : Prop where
  callbacks : s.callbacks = {}
  nextOrder : s.nextOrder = 0

theorem covers_start {s : Sim} (h : s.Unsubscribed) : Covers [] s := by
  have hcallbacks : s.callbacks = .empty := h.callbacks
  refine ⟨?_, ?_, List.nodup_nil, ?_, ?_, List.nodup_nil, ?_⟩
  · rw [hcallbacks]
    exact SlotMap.valid_empty
  · rw [hcallbacks]
    rfl
  · intro e he
    cases he
  · intro handle c hc
    rw [hcallbacks] at hc
    simp at hc
  · intro e he
    cases he

theorem serves_start {s : Sim} (h : s.Unsubscribed) : Serves [] .empty s [] :=
  ⟨covers_start h, rfl, h.nextOrder⟩

section Covers

variable {H H' : List SimHolding} {s s' : Sim}

/-- Only the callbacks and the number of subscriptions matter. -/
theorem Covers.congr (h : Covers H s) (hcallbacks : s'.callbacks = s.callbacks)
    (hnext : s'.nextOrder = s.nextOrder) : Covers H s' := by
  refine ⟨?_, ?_, h.handles_nodup, ?_, ?_, h.numbers_nodup, ?_⟩
  · rw [hcallbacks]
    exact h.valid
  · rw [hcallbacks]
    exact h.live_eq
  · rw [hcallbacks]
    exact h.get?_of_mem
  · rw [hcallbacks]
    exact h.mem_of_get?
  · rw [hnext]
    exact h.number_lt

/-- The order of the holdings does not matter. -/
theorem Covers.perm (h : Covers H s) (hperm : H.Perm H') : Covers H' s where
  valid := h.valid
  live_eq := h.live_eq.trans hperm.length_eq
  handles_nodup := (hperm.map _).nodup_iff.mp h.handles_nodup
  get?_of_mem := fun e he => h.get?_of_mem e (hperm.mem_iff.mpr he)
  mem_of_get? := by
    intro handle c hc
    obtain ⟨e, he, heq⟩ := h.mem_of_get? handle c hc
    exact ⟨e, hperm.mem_iff.mp he, heq⟩
  numbers_nodup := (hperm.map _).nodup_iff.mp h.numbers_nodup
  number_lt := fun e he => h.number_lt e (hperm.mem_iff.mpr he)

/-- A holding is known by its handle. -/
theorem Covers.eq_of_handle (h : Covers H s) {e f : SimHolding} (he : e ∈ H) (hf : f ∈ H)
    (hhandle : e.handle = f.handle) : e = f :=
  List.inj_on_of_nodup_map h.handles_nodup he hf hhandle

/-! ### Registrations and removals -/

/-- **A new subscription** is that of one holding more, if there is room for its callback. -/
theorem Covers.opened (h : Covers H s)
    (hroom : s.callbacks.free = [] → s.callbacks.slots.size < 2 ^ 32) {key : RegistrationKey}
    {r : Registration SignalId} {number : Nat} (hnumber : s.nextOrder = number) :
    Covers (H ++ [⟨key, (s.subscribe r.signal r.condition key).1, r, number⟩])
      (s.subscribe r.signal r.condition key).2 := by
  set e : SimHolding := ⟨key, (s.subscribe r.signal r.condition key).1, r, number⟩ with he
  have hcallback : (⟨r.signal, r.condition, key, s.nextOrder⟩ : Callback) = callbackOf e := by
    rw [hnumber]
    rfl
  have hhandle : e.handle = (s.callbacks.insert (callbackOf e)).1 := by
    rw [← hcallback]
    rfl
  have hcallbacks : (s.subscribe r.signal r.condition key).2.callbacks =
      (s.callbacks.insert (callbackOf e)).2 := by
    rw [← hcallback]
    rfl
  have hget := SlotMap.get?_insert h.valid hroom (callbackOf e)
  rw [← hhandle, ← hcallbacks] at hget
  -- the new callback is not in the place of an old one
  have hfresh : ∀ f ∈ H, f.handle ≠ e.handle := by
    intro f hf heq
    have hnew := SlotMap.get?_insert_key h.valid hroom (callbackOf e)
    rw [← hhandle, ← heq, h.get?_of_mem f hf] at hnew
    cases hnew
  refine ⟨?_, ?_, ?_, ?_, ?_, ?_, ?_⟩
  · rw [hcallbacks]
    exact SlotMap.insert_valid h.valid hroom _
  · rw [hcallbacks, List.length_append, ← h.live_eq]
    exact SlotMap.live_insert _ _
  · rw [List.map_append, List.nodup_append']
    refine ⟨h.handles_nodup, by simp, fun handle hold hnew => ?_⟩
    obtain ⟨f, hf, rfl⟩ := List.mem_map.mp hold
    exact hfresh f hf (by simpa using hnew)
  · intro f hf
    rw [hget]
    rcases List.mem_append.mp hf with hf | hf
    · rw [if_neg (hfresh f hf)]
      exact h.get?_of_mem f hf
    · rw [List.mem_singleton.mp hf, if_pos rfl]
  · intro handle c hc
    rw [hget] at hc
    by_cases hnew : handle = e.handle
    · exact ⟨e, List.mem_append_right _ (List.mem_singleton.mpr rfl), hnew.symm⟩
    · rw [if_neg hnew] at hc
      obtain ⟨f, hf, heq⟩ := h.mem_of_get? handle c hc
      exact ⟨f, List.mem_append_left _ hf, heq⟩
  · rw [List.map_append, List.nodup_append']
    refine ⟨h.numbers_nodup, by simp, fun n hold hnew => ?_⟩
    obtain ⟨f, hf, rfl⟩ := List.mem_map.mp hold
    have hlt := h.number_lt f hf
    rw [hnumber] at hlt
    exact Nat.ne_of_lt hlt (by simpa using hnew)
  · intro f hf
    rcases List.mem_append.mp hf with hf | hf
    · exact Nat.lt_succ_of_lt (h.number_lt f hf)
    · rw [List.mem_singleton.mp hf]
      exact Nat.lt_succ_of_le (Nat.le_of_eq hnumber.symm)

/-- A subscription that can be ended is that of a live callback. -/
theorem get?_of_unsubscribe {handle : CallbackHandle} (h : s.unsubscribe handle = .ok s') :
    ∃ c, s.callbacks.get? handle = some c ∧ s' = { s with
      callbacks := s.callbacks.erase handle, removed := s.removed + 1 } := by
  rw [unsubscribe, SlotMap.erase?_eq] at h
  cases hget : s.callbacks.get? handle with
  | none =>
    rw [hget] at h
    cases h
  | some c =>
    rw [hget] at h
    exact ⟨c, rfl, (Except.ok.inj h).symm⟩

/-- To end the subscription of a holding succeeds. -/
theorem Covers.unsubscribe_eq (h : Covers H s) {e : SimHolding} (he : e ∈ H) :
    s.unsubscribe e.handle = .ok { s with
      callbacks := s.callbacks.erase e.handle, removed := s.removed + 1 } := by
  rw [unsubscribe, SlotMap.erase?_eq, h.get?_of_mem e he]
  rfl

/-- **The end of a subscription** leaves those of the other holdings. -/
theorem Covers.closed (h : Covers H s) {e : SimHolding} (he : e ∈ H) :
    Covers (H.filter (·.handle ≠ e.handle))
      { s with callbacks := s.callbacks.erase e.handle, removed := s.removed + 1 } := by
  have hgete := h.get?_of_mem e he
  have hget := SlotMap.get?_erase hgete
  -- the holding is the only one with its handle
  have hperm : H.Perm (e :: H.filter (·.handle ≠ e.handle)) := by
    have hnodup := List.Nodup.of_map _ h.handles_nodup
    have hcons : (e :: H.filter (·.handle ≠ e.handle)).Nodup :=
      List.nodup_cons.mpr ⟨by simp, hnodup.filter _⟩
    refine (List.perm_ext_iff_of_nodup hnodup hcons).mpr fun f => ?_
    rw [List.mem_cons, List.mem_filter, decide_eq_true_iff]
    constructor
    · intro hf
      by_cases hhandle : f.handle = e.handle
      · exact .inl (h.eq_of_handle hf he hhandle)
      · exact .inr ⟨hf, hhandle⟩
    · rintro (rfl | ⟨hf, -⟩)
      · exact he
      · exact hf
  refine ⟨SlotMap.erase_valid h.valid hgete, ?_, h.handles_nodup.sublist (List.filter_sublist.map _),
    ?_, ?_, h.numbers_nodup.sublist (List.filter_sublist.map _),
    fun f hf => h.number_lt f (List.mem_of_mem_filter hf)⟩
  · have hlength := hperm.length_eq
    have hlive := h.live_eq
    rw [List.length_cons] at hlength
    show s.callbacks.live - 1 = _
    omega
  · intro f hf
    obtain ⟨hf, hne⟩ := List.mem_filter.mp hf
    rw [hget, if_neg (of_decide_eq_true hne)]
    exact h.get?_of_mem f hf
  · intro handle c hc
    rw [hget] at hc
    by_cases hgone : handle = e.handle
    · rw [if_pos hgone] at hc
      cases hc
    · rw [if_neg hgone] at hc
      obtain ⟨f, hf, rfl⟩ := h.mem_of_get? handle c hc
      exact ⟨f, List.mem_filter.mpr ⟨hf, decide_eq_true hgone⟩, rfl⟩

end Covers

/-- Only the callbacks and the number of subscriptions matter. -/
theorem Serves.congr {L : List SimHolding} {arena : Arena SignalId} {s s' : Sim}
    {issued : List RegistrationKey} (h : Serves L arena s issued)
    (hcallbacks : s'.callbacks = s.callbacks) (hnext : s'.nextOrder = s.nextOrder) :
    Serves L arena s' issued :=
  ⟨h.toCovers.congr hcallbacks hnext, h.arena_live, hnext.trans h.nextOrder⟩

/-- There is room for the callback of one more registration. -/
theorem Serves.room {L : List SimHolding} {arena : Arena SignalId} {s : Sim}
    {issued : List RegistrationKey} (h : Serves L arena s issued) (harena : arena.Valid)
    (hroom : arena.free = [] → arena.slots.size < 2 ^ 32) (hfree : s.callbacks.free = []) :
    s.callbacks.slots.size < 2 ^ 32 := by
  -- there are as many callbacks as live registrations
  have hlt := SlotMap.live_lt harena hroom
  have hsize := h.valid.size_eq
  have hlive := h.live_eq
  have hlive' := h.arena_live
  rw [hfree, List.length_nil] at hsize
  omega

theorem Serves.opened {L : List SimHolding} {arena arena' : Arena SignalId} {s : Sim}
    {issued : List RegistrationKey} {key : RegistrationKey} {r : Registration SignalId}
    (h : Serves L arena s issued) (harena : arena.Valid)
    (hroom : arena.free = [] → arena.slots.size < 2 ^ 32)
    (hinsert : (key, arena') = arena.insert r) :
    Serves (L ++ [⟨key, (s.subscribe r.signal r.condition key).1, r, issued.length⟩]) arena'
      (s.subscribe r.signal r.condition key).2 (issued ++ [key]) := by
  obtain rfl : arena' = (arena.insert r).2 := congrArg Prod.snd hinsert
  refine ⟨h.toCovers.opened (h.room harena hroom) h.nextOrder, ?_, ?_⟩
  · rw [List.length_append, ← h.arena_live]
    exact SlotMap.live_insert _ r
  · rw [List.length_append, ← h.nextOrder]
    rfl

/-- Of the holdings of one roster, those of another key are those of another handle. -/
theorem filter_key_eq_filter_handle {L : List SimHolding} (hkeys : (L.map (·.key)).Nodup)
    (hhandles : (L.map (·.handle)).Nodup) {e : SimHolding} (he : e ∈ L) :
    L.filter (·.key ≠ e.key) = L.filter (·.handle ≠ e.handle) := by
  refine List.filter_congr fun f hf => decide_eq_decide.mpr (not_congr ⟨fun hkey => ?_, fun hh => ?_⟩)
  · rw [List.inj_on_of_nodup_map hkeys hf he hkey]
  · rw [List.inj_on_of_nodup_map hhandles hf he hh]

theorem Serves.closed {L : List SimHolding} {arena : Arena SignalId} {s : Sim}
    {issued : List RegistrationKey} (h : Serves L arena s issued) (hkeys : (L.map (·.key)).Nodup)
    {e : SimHolding} (he : e ∈ L) :
    Serves (L.filter (·.key ≠ e.key)) (arena.erase e.key)
      { s with callbacks := s.callbacks.erase e.handle, removed := s.removed + 1 } issued := by
  have hcovers := h.toCovers.closed he
  rw [← filter_key_eq_filter_handle hkeys h.handles_nodup he] at hcovers
  refine ⟨hcovers, ?_, h.nextOrder⟩
  calc (arena.erase e.key).live = L.length - 1 := congrArg (· - 1) h.arena_live
    _ = (L.filter (·.key ≠ e.key)).length :=
      Nat.sub_eq_of_eq_add (Subscriptions.length_filter_key hkeys he)

theorem tracking_serves : Tracking Serves where
  opened := by
    intro L arena s issued key handle s' arena' r h harena hroom _ hinsert hsubscribe
    obtain ⟨rfl, rfl⟩ := Prod.mk.inj hsubscribe
    exact h.opened harena hroom hinsert
  closed := by
    intro L arena s issued s' e h hkeys he _ hunsubscribe
    obtain rfl := Except.ok.inj ((h.unsubscribe_eq he).symm.trans hunsubscribe)
    exact h.closed hkeys he

/-- The simulator does not refuse to end a subscription. -/
theorem not_refuses_of_serves {capacity : Nat} {f : Fault} :
    ¬ Bench.Refuses Serves capacity f := by
  rintro ⟨L, arena, s, issued, e, he, ⟨h, -⟩, hrefuses⟩
  cases (h.unsubscribe_eq he).symm.trans hrefuses

/-! ### The order of calls -/

theorem insertByOrder_perm (c : CallbackHandle × Callback)
    (l : List (CallbackHandle × Callback)) : (insertByOrder c l).Perm (c :: l) := by
  induction l with
  | nil => exact List.Perm.refl _
  | cons a rest ih =>
    rw [insertByOrder]
    split
    · exact (ih.cons a).trans (List.Perm.swap c a rest)
    · exact List.Perm.refl _

theorem insertByOrder_sorted {c : CallbackHandle × Callback}
    {l : List (CallbackHandle × Callback)}
    (h : l.Pairwise fun a b => a.2.order ≤ b.2.order) :
    (insertByOrder c l).Pairwise fun a b => a.2.order ≤ b.2.order := by
  induction l with
  | nil => exact List.pairwise_singleton _ _
  | cons a rest ih =>
    obtain ⟨ha, hrest⟩ := List.pairwise_cons.mp h
    rw [insertByOrder]
    split
    case isTrue hac =>
      refine List.pairwise_cons.mpr ⟨fun b hb => ?_, ih hrest⟩
      rcases List.mem_cons.mp ((insertByOrder_perm c rest).mem_iff.mp hb) with rfl | hb
      · exact hac
      · exact ha b hb
    case isFalse hac =>
      refine List.pairwise_cons.mpr ⟨fun b hb => ?_, h⟩
      rcases List.mem_cons.mp hb with rfl | hb
      · omega
      · have hab := ha b hb
        omega

theorem foldr_insertByOrder (l : List (CallbackHandle × Callback)) :
    (l.foldr insertByOrder []).Perm l ∧
      (l.foldr insertByOrder []).Pairwise fun a b => a.2.order ≤ b.2.order := by
  induction l with
  | nil => exact ⟨List.Perm.refl _, List.Pairwise.nil⟩
  | cons c rest ih =>
    obtain ⟨hperm, hsorted⟩ := ih
    rw [List.foldr_cons]
    exact ⟨(insertByOrder_perm c _).trans (hperm.cons c), insertByOrder_sorted hsorted⟩

/-- The callbacks of a simulator are found under their handles. -/
theorem Covers.mem_subscribers_iff {H : List SimHolding} {s : Sim} (h : Covers H s)
    {signal : SignalId} {p : CallbackHandle × Callback} :
    p ∈ s.subscribers signal ↔ s.callbacks.get? p.1 = some p.2 ∧ p.2.signal = signal := by
  rw [subscribers, (foldr_insertByOrder _).1.mem_iff, List.mem_filter,
    SlotMap.mem_toList_iff h.valid, decide_eq_true_iff]

/-- No two callbacks of a simulator have been subscribed at once. -/
theorem Covers.subscribers_sorted {H : List SimHolding} {s : Sim} (h : Covers H s)
    (signal : SignalId) :
    (s.subscribers signal).Pairwise fun a b => a.2.order < b.2.order := by
  obtain ⟨hperm, hsorted⟩ :=
    foldr_insertByOrder (s.callbacks.toList.filter (·.2.signal = signal))
  have hnodup : (s.subscribers signal).Nodup :=
    hperm.nodup_iff.mpr (((SlotMap.nodup_keys h.valid).of_map _).filter _)
  have horders : ((s.subscribers signal).map (·.2.order)).Nodup := by
    refine List.Nodup.map_on ?_ hnodup
    rintro ⟨handle, c⟩ hc ⟨handle', c'⟩ hc' horder
    have hget := (h.mem_subscribers_iff.mp hc).1
    have hget' := (h.mem_subscribers_iff.mp hc').1
    obtain ⟨e, he, rfl⟩ := h.mem_of_get? handle c hget
    obtain ⟨e', he', rfl⟩ := h.mem_of_get? handle' c' hget'
    obtain rfl := Option.some.inj (hget.symm.trans (h.get?_of_mem e he))
    obtain rfl := Option.some.inj (hget'.symm.trans (h.get?_of_mem e' he'))
    rw [List.inj_on_of_nodup_map h.numbers_nodup he he' horder]
  exact (List.Pairwise.and hsorted (List.pairwise_map.mp horders)).imp fun hab =>
    Nat.lt_of_le_of_ne hab.1 hab.2

/-- Two lists of callbacks in the order of their subscription are equal when they have the same
members. -/
theorem eq_of_subscribed {l l' : List (CallbackHandle × Callback)}
    (h : l.Pairwise fun a b => a.2.order < b.2.order)
    (h' : l'.Pairwise fun a b => a.2.order < b.2.order) (hmem : ∀ p, p ∈ l ↔ p ∈ l') : l = l' := by
  have hnodup : ∀ {k : List (CallbackHandle × Callback)},
      (k.Pairwise fun a b => a.2.order < b.2.order) → k.Nodup :=
    fun hk => hk.imp fun hlt hc => absurd hlt (by simp [hc])
  refine List.Perm.eq_of_pairwise (fun a b _ _ hab hba => ?_) h h'
    ((List.perm_ext_iff_of_nodup (hnodup h) (hnodup h')).mpr hmem)
  omega

/-- **The callbacks of a signal** are those of the holdings on it, in the order of the roster. -/
theorem Serves.subscribers_eq {L : List SimHolding} {arena : Arena SignalId} {s : Sim}
    {issued : List RegistrationKey} (h : Serves L arena s issued)
    (hnumbered : Numbered L arena s issued) (signal : SignalId) :
    s.subscribers signal = (L.filter (·.registration.signal = signal)).map fun e =>
      (e.handle, callbackOf e) := by
  refine eq_of_subscribed (h.subscribers_sorted signal)
    (List.pairwise_map.mpr (hnumbered.sorted.filter _)) ?_
  rintro ⟨handle, c⟩
  rw [h.mem_subscribers_iff, List.mem_map]
  constructor
  · rintro ⟨hget, hsignal⟩
    obtain ⟨e, he, rfl⟩ := h.mem_of_get? handle c hget
    obtain rfl := Option.some.inj (hget.symm.trans (h.get?_of_mem e he))
    exact ⟨e, List.mem_filter.mpr ⟨he, decide_eq_true hsignal⟩, rfl⟩
  · rintro ⟨e, he, heq⟩
    obtain ⟨he, hsignal⟩ := List.mem_filter.mp he
    obtain ⟨rfl, rfl⟩ := Prod.mk.inj heq
    exact ⟨h.get?_of_mem e he, of_decide_eq_true hsignal⟩

end Sim

end EdgeWait
