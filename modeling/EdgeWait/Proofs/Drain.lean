/-
The lists of a drain, and the registrations that they ask for.

* `waiting_push`, `waiting_emptyList`, `waiting_clear` — what each operation does to every list;
* `waits`, `map_waiting` — all waits that are recorded, of which each list is a part;
* `demands` — what a flush registers, list by list and batch by batch;
* `nodup_visits`, `mem_visits` — a drain visits each list once, and every wait is in one of them;
* `waiting_foldl_emptyList`, `foldl_emptyList_eq_clear` — to empty some lists leaves the others as
  they are, and to empty all of them clears the store;
* `drainLists_filled` — a drain passes over the lists that are empty;
* `filter_demands`, `demands_perm` — what is asked for on one signal does not depend on the order of
  the visits, nor on the order in which lists have been begun, nor on lists that are empty.
-/
import EdgeWait.PendingWaits
import EdgeWait.Registration
import EdgeWait.Proofs.Batches
import Mathlib.Algebra.GroupWithZero.Nat
import Mathlib.Data.List.Nodup
import Mathlib.Data.List.Flatten

namespace EdgeWait

/-! ### Tables of lists -/

namespace TaskLists

variable {σ : Type} [DecidableEq σ]

theorem list_push (l : TaskLists σ) (signal s : σ) (task : TaskId) :
    (l.push signal task).list s = if signal = s then l.list s ++ [task] else l.list s := by
  rw [list, list, push]
  dsimp only
  induction l.entries with
  | nil =>
    rw [pushIn, listIn, listIn]
    rfl
  | cons e rest ih =>
    rw [pushIn]
    by_cases he : e.1 = signal
    · rw [if_pos he, listIn, listIn]
      subst he
      by_cases hs : e.1 = s
      · rw [if_pos hs, if_pos hs, if_pos hs]
      · rw [if_neg hs, if_neg hs, if_neg hs]
    · rw [if_neg he, listIn, listIn, ih]
      by_cases hs : e.1 = s
      · rw [if_pos hs, if_pos hs, if_neg fun hc => he (hs.trans hc.symm)]
      · rw [if_neg hs, if_neg hs]

theorem list_emptied (l : TaskLists σ) (signal s : σ) :
    (l.emptied signal).list s = if signal = s then [] else l.list s := by
  rw [list, list, emptied]
  dsimp only
  induction l.entries with
  | nil => exact (ite_self _).symm
  | cons e rest ih =>
    rw [emptyIn]
    by_cases he : e.1 = signal
    · rw [if_pos he, listIn, listIn]
      subst he
      by_cases hs : e.1 = s
      · rw [if_pos hs, if_pos hs]
      · rw [if_neg hs, if_neg hs, if_neg hs]
    · rw [if_neg he, listIn, listIn, ih]
      by_cases hs : e.1 = s
      · rw [if_pos hs, if_pos hs, if_neg fun hc => he (hs.trans hc.symm)]
      · rw [if_neg hs, if_neg hs]

theorem list_clear (l : TaskLists σ) (s : σ) : l.clear.list s = [] := by
  rw [list, clear]
  dsimp only
  induction l.entries with
  | nil => rfl
  | cons e rest ih =>
    rw [List.map_cons, listIn]
    split
    · rfl
    · exact ih

/-- A list that has been emptied stays where it is. -/
theorem signals_emptied (l : TaskLists σ) (signal : σ) :
    (l.emptied signal).signals = l.signals := map_emptyIn signal l.entries

omit [DecidableEq σ] in
theorem signals_clear (l : TaskLists σ) : l.clear.signals = l.signals := List.map_map ..

/-- A signal without a list has none that is not empty. -/
theorem list_eq_nil {l : TaskLists σ} {s : σ} (h : s ∉ l.signals) : l.list s = [] := by
  obtain ⟨entries, hnodup⟩ := l
  dsimp only [signals, list] at h ⊢
  clear hnodup
  induction entries with
  | nil => rfl
  | cons e rest ih =>
    rw [List.map_cons, List.mem_cons, not_or] at h
    rw [listIn, if_neg (Ne.symm h.1)]
    exact ih h.2

/-- Every list of a table is the one that its signal has. -/
theorem list_of_mem {l : TaskLists σ} {s : σ} {tasks : List TaskId} (h : (s, tasks) ∈ l.entries) :
    l.list s = tasks := by
  obtain ⟨entries, hnodup⟩ := l
  rw [list]
  dsimp only at h ⊢
  induction entries with
  | nil => cases h
  | cons e rest ih =>
    rw [List.map_cons, List.nodup_cons] at hnodup
    rw [listIn]
    rcases List.mem_cons.mp h with rfl | h
    · rw [if_pos rfl]
    · have hother : e.1 ≠ s := fun hc => hnodup.1 (List.mem_map.mpr ⟨_, h, hc.symm⟩)
      rw [if_neg hother]
      exact ih hnodup.2 h

end TaskLists

/-- One recorded wait. -/
structure Wait (σ : Type) where
  signal : σ
  edge : Edge
  task : TaskId
deriving DecidableEq

/-! ### The waits of a table -/

namespace TaskLists

variable {σ : Type}

/-- The waits on all lists of a table, list by list. -/
def waits (edge : Edge) (l : TaskLists σ) : List (Wait σ) :=
  l.entries.flatMap fun e => e.2.map (⟨e.1, edge, ·⟩)

theorem length_waits (edge : Edge) (l : TaskLists σ) : (l.waits edge).length = l.total := by
  rw [waits, total]
  induction l.entries with
  | nil => rfl
  | cons e rest ih => rw [List.flatMap_cons, List.length_append, List.length_map, ih, totalIn]

theorem edge_of_mem_waits {edge : Edge} {l : TaskLists σ} {w : Wait σ} (hw : w ∈ l.waits edge) :
    w.edge = edge := by
  obtain ⟨e, -, hw⟩ := List.mem_flatMap.mp hw
  obtain ⟨task, -, rfl⟩ := List.mem_map.mp hw
  rfl

variable [DecidableEq σ]

/-- The waits on the list of a signal are those that name the signal. -/
theorem map_list (edge : Edge) (l : TaskLists σ) (s : σ) :
    (l.list s).map (⟨s, edge, ·⟩) = (l.waits edge).filter (·.signal = s) := by
  obtain ⟨entries, hnodup⟩ := l
  rw [list, waits]
  dsimp only
  induction entries with
  | nil => rfl
  | cons e rest ih =>
    rw [List.map_cons, List.nodup_cons] at hnodup
    rw [listIn, List.flatMap_cons, List.filter_append, ← ih hnodup.2]
    by_cases he : e.1 = s
    · -- the signal has one list, so it has none in the rest
      have hnone : listIn s rest = [] := list_eq_nil (l := ⟨rest, hnodup.2⟩) (he ▸ hnodup.1)
      rw [if_pos he, hnone, List.map_nil, List.append_nil, List.filter_eq_self.mpr, he]
      intro w hw
      obtain ⟨task, -, rfl⟩ := List.mem_map.mp hw
      exact decide_eq_true he
    · rw [if_neg he, List.filter_eq_nil_iff.mpr, List.nil_append]
      intro w hw
      obtain ⟨task, -, rfl⟩ := List.mem_map.mp hw
      exact fun hc => he (of_decide_eq_true hc)

/-- To empty a list takes its waits out. -/
theorem waits_emptied (edge : Edge) (l : TaskLists σ) (s : σ) :
    (l.emptied s).waits edge = (l.waits edge).filter (·.signal ≠ s) := by
  obtain ⟨entries, hnodup⟩ := l
  rw [waits, waits, emptied]
  dsimp only
  induction entries with
  | nil => rfl
  | cons e rest ih =>
    rw [List.map_cons, List.nodup_cons] at hnodup
    rw [emptyIn, List.flatMap_cons, List.filter_append]
    by_cases he : e.1 = s
    · have hrest : ∀ w ∈ rest.flatMap fun e => e.2.map (Wait.mk e.1 edge), w.signal ≠ s := by
        intro w hw
        obtain ⟨f, hf, hw⟩ := List.mem_flatMap.mp hw
        obtain ⟨task, -, rfl⟩ := List.mem_map.mp hw
        exact fun hc => hnodup.1 (List.mem_map.mpr ⟨f, hf, hc.trans he.symm⟩)
      rw [if_pos he, List.filter_eq_nil_iff.mpr, List.filter_eq_self.mpr]
      · rfl
      · exact fun w hw => decide_eq_true (hrest w hw)
      · intro w hw
        obtain ⟨task, -, rfl⟩ := List.mem_map.mp hw
        simpa using he
    · rw [if_neg he, List.flatMap_cons, ih hnodup.2]
      congr 1
      refine (List.filter_eq_self.mpr fun w hw => ?_).symm
      obtain ⟨task, -, rfl⟩ := List.mem_map.mp hw
      exact decide_eq_true he

/-- A table is told by its signals and their lists. -/
theorem eq_of_lists {l l' : TaskLists σ} (hsignals : l.signals = l'.signals)
    (hlists : ∀ s, l.list s = l'.list s) : l = l' := by
  obtain ⟨entries, hnodup⟩ := l
  obtain ⟨entries', hnodup'⟩ := l'
  have hentries : entries = entries' := by
    rw [List.ext_getElem?_iff]
    intro i
    have hi : (entries.map (·.1))[i]? = (entries'.map (·.1))[i]? := congrArg (·[i]?) hsignals
    rw [List.getElem?_map, List.getElem?_map] at hi
    cases he : entries[i]? with
    | none =>
      rw [he] at hi
      exact (Option.map_eq_none_iff.mp hi.symm).symm
    | some e =>
      rw [he] at hi
      obtain ⟨e', he', hsame⟩ := Option.map_eq_some_iff.mp hi.symm
      have hone := list_of_mem (l := ⟨entries, hnodup⟩) (List.mem_of_getElem? he)
      have hother := list_of_mem (l := ⟨entries', hnodup'⟩) (List.mem_of_getElem? he')
      have hsignal : e'.1 = e.1 := hsame
      rw [hsignal] at hother
      rw [he', Prod.ext hsignal (hother.symm.trans ((hlists e.1).symm.trans hone))]
  subst hentries
  rfl

end TaskLists

/-- What a registration is made for. -/
structure Demand (σ : Type) where
  signal : σ
  edge : Edge
  tasks : List TaskId
  mode : Mode
deriving DecidableEq

/-- The part of a registration that its maker has chosen. -/
def Registration.demand {σ : Type} (r : Registration σ) : Demand σ :=
  ⟨r.signal, r.edge, r.tasks, r.mode⟩

namespace PendingWaits

variable {σ : Type}

/-! ### What operations do to the lists -/

theorem lists_withLists {p : PendingWaits σ} {edge : Edge} {l : TaskLists σ} {size : Nat}
    (h : size + (p.lists edge).total = p.size + l.total) (e : Edge) :
    (p.withLists edge l size h).lists e = if edge = e then l else p.lists e := by
  cases edge <;> cases e <;> rfl

theorem size_withLists {p : PendingWaits σ} {edge : Edge} {l : TaskLists σ} {size : Nat}
    (h : size + (p.lists edge).total = p.size + l.total) :
    (p.withLists edge l size h).size = size := by
  cases edge <;> rfl

@[simp] theorem size_clear (p : PendingWaits σ) : p.clear.size = 0 := rfl

@[simp] theorem size_empty : (empty : PendingWaits σ).size = 0 := rfl

theorem signals_clear (p : PendingWaits σ) (e : Edge) : p.clear.signals e = p.signals e := by
  cases e <;> exact TaskLists.signals_clear _

/-- All waits on record, list by list. -/
def waits (p : PendingWaits σ) : List (Wait σ) :=
  Edge.all.flatMap fun edge => (p.lists edge).waits edge

theorem length_waits (p : PendingWaits σ) : p.waits.length = p.size := by
  rw [p.size_eq, waits, List.length_flatMap]
  simp only [TaskLists.length_waits, Edge.all, List.map_cons, List.map_nil, List.sum_cons,
    List.sum_nil, lists]
  omega

variable [DecidableEq σ]

theorem waiting_push (p : PendingWaits σ) (signal s : σ) (edge e : Edge) (task : TaskId) :
    (p.push signal edge task).waiting s e =
      if (signal, edge) = (s, e) then p.waiting s e ++ [task] else p.waiting s e := by
  rw [waiting, push, lists_withLists, waiting]
  by_cases he : edge = e
  · subst he
    rw [if_pos rfl, TaskLists.list_push]
    simp
  · rw [if_neg he, if_neg (by simp [he])]

@[simp] theorem size_push (p : PendingWaits σ) (signal : σ) (edge : Edge) (task : TaskId) :
    (p.push signal edge task).size = p.size + 1 := size_withLists _

theorem waiting_emptyList (p : PendingWaits σ) (signal s : σ) (edge e : Edge) :
    (p.emptyList signal edge).waiting s e =
      if (signal, edge) = (s, e) then [] else p.waiting s e := by
  rw [waiting, emptyList, lists_withLists, waiting]
  by_cases he : edge = e
  · subst he
    rw [if_pos rfl, TaskLists.list_emptied]
    simp
  · rw [if_neg he, if_neg (by simp [he])]

theorem waiting_clear (p : PendingWaits σ) (s : σ) (e : Edge) : p.clear.waiting s e = [] := by
  cases e <;> exact TaskLists.list_clear _ s

theorem waiting_empty (s : σ) (e : Edge) : (empty : PendingWaits σ).waiting s e = [] := by
  cases e <;> rfl

/-- To empty one list leaves the others as they are. -/
theorem waiting_emptyList_ne {p : PendingWaits σ} {v w : σ × Edge} (h : w ≠ v) :
    (p.emptyList v.1 v.2).waiting w.1 w.2 = p.waiting w.1 w.2 := by
  rw [waiting_emptyList, if_neg fun hc => h hc.symm]

theorem signals_emptyList (p : PendingWaits σ) (signal : σ) (edge e : Edge) :
    (p.emptyList signal edge).signals e = p.signals e := by
  rw [signals, emptyList, lists_withLists, signals]
  by_cases he : edge = e
  · subst he
    rw [if_pos rfl, TaskLists.signals_emptied]
  · rw [if_neg he]

/-- A signal that has no list has none that is not empty. -/
theorem waiting_eq_nil {p : PendingWaits σ} {s : σ} {edge : Edge} (h : s ∉ p.signals edge) :
    p.waiting s edge = [] := TaskLists.list_eq_nil h

/-- A store is told by its signals and their lists. -/
theorem eq_of_waiting {p p' : PendingWaits σ} (hsignals : ∀ e, p.signals e = p'.signals e)
    (hlists : ∀ s e, p.waiting s e = p'.waiting s e) : p = p' := by
  have htables : ∀ e, p.lists e = p'.lists e := fun e =>
    TaskLists.eq_of_lists (hsignals e) fun s => hlists s e
  obtain ⟨rising, falling, either, size, hsize⟩ := p
  obtain ⟨rising', falling', either', size', hsize'⟩ := p'
  obtain rfl : rising = rising' := htables .rising
  obtain rfl : falling = falling' := htables .falling
  obtain rfl : either = either' := htables .either
  obtain rfl : size = size' := hsize.trans hsize'.symm
  rfl

/-- The waits of a list, from its tasks. -/
theorem map_waiting (p : PendingWaits σ) (v : σ × Edge) :
    (p.waiting v.1 v.2).map (⟨v.1, v.2, ·⟩) =
      p.waits.filter fun w => (w.signal, w.edge) = v := by
  have hedge : ∀ e, ((p.lists e).waits e).filter (fun w => decide ((w.signal, w.edge) = v)) =
      if e = v.2 then ((p.lists e).waits e).filter (·.signal = v.1) else [] := by
    intro e
    by_cases he : e = v.2
    · rw [if_pos he]
      refine List.filter_congr fun w hw => decide_eq_decide.mpr ?_
      simp [Prod.ext_iff, TaskLists.edge_of_mem_waits hw, he]
    · rw [if_neg he, List.filter_eq_nil_iff]
      intro w hw hc
      have hplace : (w.signal, w.edge) = v := of_decide_eq_true hc
      exact he ((TaskLists.edge_of_mem_waits hw).symm.trans (congrArg Prod.snd hplace))
  rw [waiting, TaskLists.map_list, waits, List.filter_flatMap]
  simp only [hedge, Edge.all, List.flatMap_cons, List.flatMap_nil]
  cases v.2 <;> simp

/-- A wait is on record when its task is on its list. -/
theorem mem_waits {p : PendingWaits σ} {w : Wait σ} :
    w ∈ p.waits ↔ w.task ∈ p.waiting w.signal w.edge := by
  have hmem : w ∈ p.waits ↔ w ∈ p.waits.filter fun v => (v.signal, v.edge) = (w.signal, w.edge) := by
    simp
  rw [hmem, ← p.map_waiting (w.signal, w.edge), List.mem_map]
  constructor
  · rintro ⟨task, htask, heq⟩
    rwa [← heq]
  · exact fun htask => ⟨w.task, htask, rfl⟩

omit [DecidableEq σ] in
@[simp] theorem waits_clear (p : PendingWaits σ) : p.clear.waits = [] :=
  List.length_eq_zero_iff.mp p.clear.length_waits

omit [DecidableEq σ] in
@[simp] theorem waits_empty : (empty : PendingWaits σ).waits = [] := rfl

omit [DecidableEq σ] in
@[simp] theorem isEmpty_clear (p : PendingWaits σ) : p.clear.isEmpty = true := rfl

theorem isEmpty_iff {p : PendingWaits σ} :
    p.isEmpty = true ↔ ∀ s e, p.waiting s e = [] := by
  rw [isEmpty, decide_eq_true_eq, ← length_waits, List.length_eq_zero_iff]
  constructor
  · intro hnil s e
    refine List.eq_nil_iff_forall_not_mem.mpr fun task htask => ?_
    have hmem : (⟨s, e, task⟩ : Wait σ) ∈ p.waits := mem_waits.mpr htask
    rw [hnil] at hmem
    cases hmem
  · intro hall
    refine List.eq_nil_iff_forall_not_mem.mpr fun w hw => ?_
    have htask := mem_waits.mp hw
    rw [hall] at htask
    cases htask

/-- The waits that are left when a list has been emptied. -/
theorem waits_emptyList (p : PendingWaits σ) (v : σ × Edge) :
    (p.emptyList v.1 v.2).waits = p.waits.filter fun w => (w.signal, w.edge) ≠ v := by
  rw [waits, waits, List.filter_flatMap]
  refine List.flatMap_congr fun e _ => ?_
  rw [emptyList, lists_withLists]
  by_cases he : v.2 = e
  · subst he
    rw [if_pos rfl, TaskLists.waits_emptied]
    refine List.filter_congr fun w hw => decide_eq_decide.mpr ?_
    simp [Prod.ext_iff, TaskLists.edge_of_mem_waits hw]
  · rw [if_neg he, List.filter_eq_self.mpr]
    intro w hw
    have hedge := TaskLists.edge_of_mem_waits hw
    exact decide_eq_true fun hc => he ((congrArg Prod.snd hc).symm.trans hedge)

/-- The waits on record when one more is put on a list. -/
theorem waits_push_perm (p : PendingWaits σ) (w : Wait σ) :
    (p.push w.signal w.edge w.task).waits.Perm (p.waits ++ [w]) := by
  refine List.perm_iff_count.mpr fun v => ?_
  -- a wait occurs as often as it does among those of its own list
  have hcount : ∀ q : PendingWaits σ, q.waits.count v =
      ((q.waiting v.signal v.edge).map (⟨v.signal, v.edge, ·⟩)).count v := by
    intro q
    rw [q.map_waiting (v.signal, v.edge), List.count_filter]
    exact decide_eq_true rfl
  rw [hcount, waiting_push, List.count_append, hcount p]
  by_cases hlist : (w.signal, w.edge) = (v.signal, v.edge)
  · obtain ⟨hsignal, hedge⟩ := Prod.mk.inj hlist
    rw [if_pos hlist, List.map_append, List.count_append, List.map_singleton, ← hsignal, ← hedge]
  · have hne : w ≠ v := fun hc => hlist (by rw [hc])
    rw [if_neg hlist, List.count_singleton, beq_eq_false_iff_ne.mpr hne]
    rfl

/-! ### Demands -/

/-- The registrations that one list asks for. -/
def listDemands (policy : BatchPolicy) (p : PendingWaits σ) (v : σ × Edge) : List (Demand σ) :=
  (policy.split (p.waiting v.1 v.2)).map (⟨v.1, v.2, ·, .oneShot⟩)

/-- The registrations that a flush makes, list by list. -/
def demands (policy : BatchPolicy) (order : VisitOrder σ) (p : PendingWaits σ) :
    List (Demand σ) :=
  (p.visits order).flatMap (p.listDemands policy)

theorem listDemands_emptyList {policy : BatchPolicy} {p : PendingWaits σ} {v w : σ × Edge}
    (h : w ≠ v) : (p.emptyList v.1 v.2).listDemands policy w = p.listDemands policy w := by
  rw [listDemands, waiting_emptyList_ne h, listDemands]

omit [DecidableEq σ] in
theorem nodup_signals (p : PendingWaits σ) (edge : Edge) : (p.signals edge).Nodup :=
  (p.lists edge).nodup

omit [DecidableEq σ] in
/-- No list is visited twice. -/
theorem nodup_visits (p : PendingWaits σ) (order : VisitOrder σ) : (p.visits order).Nodup := by
  have hone : ∀ edge, ((order.arrange edge (p.signals edge)).map fun s => (s, edge)).Nodup := by
    intro edge
    refine List.Nodup.map (fun _ _ h => congrArg Prod.fst h) ?_
    exact (order.arrange_perm edge _).nodup_iff.mpr (p.nodup_signals edge)
  rw [visits, List.nodup_flatMap]
  refine ⟨fun edge _ => hone edge, ?_⟩
  -- the lists of two edges have no list in common
  have hedges : Edge.all.Pairwise (· ≠ ·) := by decide
  refine hedges.imp ?_
  intro edge edge' hne v hv hv'
  obtain ⟨s, -, rfl⟩ := List.mem_map.mp hv
  obtain ⟨s', -, heq⟩ := List.mem_map.mp hv'
  exact hne (congrArg Prod.snd heq).symm

/-- Every list that is not empty is visited. -/
theorem visited_of_waiting_ne_nil {p : PendingWaits σ} {order : VisitOrder σ} {v : σ × Edge}
    (h : p.waiting v.1 v.2 ≠ []) : v ∈ p.visits order := by
  have hedge : v.2 ∈ Edge.all := by cases v.2 <;> decide
  refine List.mem_flatMap.mpr ⟨v.2, hedge, List.mem_map.mpr ⟨v.1, ?_, rfl⟩⟩
  rw [(order.arrange_perm _ _).mem_iff]
  exact Decidable.not_not.mp fun hc => h (waiting_eq_nil hc)

/-- Every wait is in a list that is visited. -/
theorem mem_visits {p : PendingWaits σ} {order : VisitOrder σ} {w : Wait σ} (hw : w ∈ p.waits) :
    (w.signal, w.edge) ∈ p.visits order :=
  visited_of_waiting_ne_nil (List.ne_nil_of_mem (mem_waits.mp hw))

/-- What is left of the waits when some lists have been emptied. -/
theorem waits_foldl_emptyList (lists : List (σ × Edge)) :
    ∀ p : PendingWaits σ, (lists.foldl (fun p v => p.emptyList v.1 v.2) p).waits =
      p.waits.filter fun w => (w.signal, w.edge) ∉ lists := by
  induction lists with
  | nil => simp
  | cons v rest ih =>
    intro p
    rw [List.foldl_cons, ih, waits_emptyList, List.filter_filter]
    congr 1
    funext w
    by_cases hw : (w.signal, w.edge) = v
    · simp [hw]
    · simp [hw]

/-- What is left of a list when some lists have been emptied. -/
theorem waiting_foldl_emptyList (accepted : List (σ × Edge)) (signal : σ) (edge : Edge) :
    ∀ p : PendingWaits σ,
      (accepted.foldl (fun p v => p.emptyList v.1 v.2) p).waiting signal edge =
        if (signal, edge) ∈ accepted then [] else p.waiting signal edge := by
  induction accepted with
  | nil => exact fun p => (if_neg List.not_mem_nil).symm
  | cons v rest ih =>
    intro p
    rw [List.foldl_cons, ih, waiting_emptyList]
    by_cases hmem : (signal, edge) ∈ rest
    · rw [if_pos hmem, if_pos (List.mem_cons_of_mem _ hmem)]
    · by_cases hv : v = (signal, edge)
      · rw [if_neg hmem, if_pos hv, if_pos (List.mem_cons.mpr (.inl hv.symm))]
      · rw [if_neg hmem, if_neg hv, if_neg]
        exact fun hc => (List.mem_cons.mp hc).elim (fun he => hv he.symm) hmem

theorem signals_foldl_emptyList (accepted : List (σ × Edge)) (e : Edge) :
    ∀ p : PendingWaits σ,
      (accepted.foldl (fun p v => p.emptyList v.1 v.2) p).signals e = p.signals e := by
  induction accepted with
  | nil => exact fun _ => rfl
  | cons v rest ih =>
    intro p
    rw [List.foldl_cons, ih, signals_emptyList]

/-- To empty a list that is empty changes nothing. -/
theorem emptyList_of_waiting_eq_nil {p : PendingWaits σ} {v : σ × Edge}
    (h : p.waiting v.1 v.2 = []) : p.emptyList v.1 v.2 = p := by
  refine eq_of_waiting (fun e => signals_emptyList p v.1 v.2 e) fun s e => ?_
  rw [waiting_emptyList]
  split
  case isTrue hv =>
    obtain ⟨rfl, rfl⟩ := Prod.mk.inj hv
    exact h.symm
  case isFalse => rfl

/-- When every list that is not empty has been emptied, the store has been cleared. -/
theorem foldl_emptyList_eq_clear {p : PendingWaits σ} {lists : List (σ × Edge)}
    (h : ∀ s e, p.waiting s e ≠ [] → (s, e) ∈ lists) :
    lists.foldl (fun p v => p.emptyList v.1 v.2) p = p.clear := by
  refine eq_of_waiting (fun e => ?_) fun s e => ?_
  · rw [signals_foldl_emptyList, signals_clear]
  · rw [waiting_foldl_emptyList, waiting_clear]
    split
    case isTrue => rfl
    case isFalse hnot => exact Decidable.not_not.mp fun hc => hnot (h s e hc)

/-- A drain that comes to its end clears the store. -/
theorem foldl_emptyList_visits (p : PendingWaits σ) (order : VisitOrder σ) :
    (p.visits order).foldl (fun p v => p.emptyList v.1 v.2) p = p.clear :=
  foldl_emptyList_eq_clear fun s e hne => visited_of_waiting_ne_nil (v := (s, e)) hne

theorem clear_of_isEmpty {p : PendingWaits σ} (h : p.isEmpty = true) : p.clear = p := by
  have hnone : ∀ s e, p.waiting s e ≠ [] → (s, e) ∈ ([] : List (σ × Edge)) :=
    fun s e hne => absurd (isEmpty_iff.mp h s e) hne
  exact (foldl_emptyList_eq_clear hnone).symm

/-! ### Lists that are not empty -/

/-- Those of some lists that are not empty. -/
def filled (p : PendingWaits σ) (lists : List (σ × Edge)) : List (σ × Edge) :=
  lists.filter fun v => p.waiting v.1 v.2 ≠ []

theorem filled_cons (p : PendingWaits σ) (v : σ × Edge) (lists : List (σ × Edge)) :
    p.filled (v :: lists) =
      if p.waiting v.1 v.2 = [] then p.filled lists else v :: p.filled lists := by
  rw [filled, List.filter_cons, filled]
  by_cases hempty : p.waiting v.1 v.2 = []
  · simp [hempty]
  · simp [hempty]

/-- To empty a list makes no difference to the others. -/
theorem filled_emptyList {p : PendingWaits σ} {v : σ × Edge} {lists : List (σ × Edge)}
    (h : v ∉ lists) : (p.emptyList v.1 v.2).filled lists = p.filled lists := by
  refine List.filter_congr fun w hw => ?_
  have hne : w ≠ v := fun hc => h (hc ▸ hw)
  rw [waiting_emptyList_ne hne]

/-- A drain passes over empty lists. -/
theorem drainLists_filled {ε S : Type} (accept : σ → Edge → List TaskId → S → Outcome ε S Unit)
    {lists : List (σ × Edge)} (hnodup : lists.Nodup) : ∀ (p : PendingWaits σ) (s : S),
      drainLists accept lists p s = drainLists accept (p.filled lists) p s := by
  induction lists with
  | nil => exact fun _ _ => rfl
  | cons v rest ih =>
    intro p s
    obtain ⟨hv, hrest⟩ := List.nodup_cons.mp hnodup
    rw [drainLists, filled_cons]
    by_cases hempty : p.waiting v.1 v.2 = []
    · rw [if_pos hempty, if_pos hempty]
      exact ih hrest p s
    · rw [if_neg hempty, if_neg hempty, drainLists, if_neg hempty]
      cases accept v.1 v.2 (p.waiting v.1 v.2) s with
      | fault f => rfl
      | failed e s₁ => rfl
      | done _ s₁ =>
        dsimp only
        rw [ih hrest, filled_emptyList hv]

/-! ### The waits in the lists -/

omit [DecidableEq σ] in
/-- To go through a list by the values of a function changes nothing but the order. -/
theorem flatMap_filter_perm {α β : Type} [DecidableEq β] (f : α → β) (l : List α) (vs : List β)
    (hnodup : vs.Nodup) :
    (vs.flatMap fun v => l.filter (f · = v)).Perm (l.filter (f · ∈ vs)) := by
  induction vs with
  | nil => simp
  | cons v rest ih =>
    obtain ⟨hv, hrest⟩ := List.nodup_cons.mp hnodup
    -- what has the first value, and what has one of the others
    have hsplit := List.filter_append_perm (f · = v) (l.filter (f · ∈ v :: rest))
    rw [List.filter_filter, List.filter_filter] at hsplit
    have hhere : (l.filter fun a => decide (f a = v) && decide (f a ∈ v :: rest)) =
        l.filter (f · = v) :=
      List.filter_congr fun a _ => by by_cases ha : f a = v <;> simp [ha]
    have hthere : (l.filter fun a => !decide (f a = v) && decide (f a ∈ v :: rest)) =
        l.filter (f · ∈ rest) :=
      List.filter_congr fun a _ => by by_cases ha : f a = v <;> simp [ha, hv]
    rw [hhere, hthere] at hsplit
    rw [List.flatMap_cons]
    exact ((ih hrest).append_left _).trans hsplit

/-- Lists without repetition in which every wait is to be found hold all waits, each once. -/
theorem flatMap_lists_perm {p : PendingWaits σ} {lists : List (σ × Edge)} (hnodup : lists.Nodup)
    (hall : ∀ w ∈ p.waits, (w.signal, w.edge) ∈ lists) :
    (lists.flatMap fun v => p.waits.filter fun w => (w.signal, w.edge) = v).Perm p.waits := by
  refine (flatMap_filter_perm _ p.waits _ hnodup).trans (List.Perm.of_eq ?_)
  exact List.filter_eq_self.mpr fun w hw => by simpa using hall w hw

/-- So their lengths add up to the number of waits. -/
theorem sum_length_waiting {p : PendingWaits σ} {lists : List (σ × Edge)} (hnodup : lists.Nodup)
    (hall : ∀ w ∈ p.waits, (w.signal, w.edge) ∈ lists) :
    (lists.map fun v => (p.waiting v.1 v.2).length).sum = p.size := by
  rw [← length_waits, ← (flatMap_lists_perm hnodup hall).length_eq, List.length_flatMap]
  congr 1
  refine List.map_congr_left fun v _ => ?_
  rw [← p.map_waiting, List.length_map]

/-! ### What does not depend on orders -/

omit [DecidableEq σ] in
theorem flatMap_ite_eq {α β : Type} [DecidableEq α] {l : List α} (hl : l.Nodup) (a : α)
    (x : List β) : (l.flatMap fun c => if c = a then x else []) = if a ∈ l then x else [] := by
  induction l with
  | nil => simp
  | cons c rest ih =>
    obtain ⟨hc, hrest⟩ := List.nodup_cons.mp hl
    rw [List.flatMap_cons, ih hrest]
    by_cases hca : c = a
    · subst hca
      simp [hc]
    · simp [hca, Ne.symm hca]

theorem listDemands_of_waiting_eq_nil {policy : BatchPolicy} {p : PendingWaits σ} {v : σ × Edge}
    (h : p.waiting v.1 v.2 = []) : p.listDemands policy v = [] := by
  rw [listDemands, h]
  rfl

/-- Lists that are empty ask for nothing. -/
theorem demands_eq_flatMap_filled (policy : BatchPolicy) (order : VisitOrder σ)
    (p : PendingWaits σ) :
    p.demands policy order = (p.filled (p.visits order)).flatMap (p.listDemands policy) := by
  rw [demands, filled]
  generalize p.visits order = lists
  induction lists with
  | nil => rfl
  | cons v rest ih =>
    rw [List.flatMap_cons, List.filter_cons, ih]
    by_cases hempty : p.waiting v.1 v.2 = []
    · rw [listDemands_of_waiting_eq_nil hempty, if_neg (by simp [hempty]), List.nil_append]
    · rw [if_pos (by simp [hempty]), List.flatMap_cons]

theorem demands_of_isEmpty {policy : BatchPolicy} {order : VisitOrder σ} {p : PendingWaits σ}
    (h : p.isEmpty = true) : p.demands policy order = [] :=
  List.flatMap_eq_nil_iff.mpr fun v _ =>
    listDemands_of_waiting_eq_nil (isEmpty_iff.mp h v.1 v.2)

/-- **What is asked for on one signal** is told by the lists of the signal. -/
theorem filter_demands (policy : BatchPolicy) (order : VisitOrder σ) (p : PendingWaits σ) (s : σ) :
    (p.demands policy order).filter (·.signal = s) =
      Edge.all.flatMap fun edge => p.listDemands policy (s, edge) := by
  -- every registration of a list is on the signal of the list
  have hlist : ∀ (t : σ) (edge : Edge), (p.listDemands policy (t, edge)).filter (·.signal = s) =
      if t = s then p.listDemands policy (s, edge) else [] := by
    intro t edge
    by_cases hts : t = s
    · rw [if_pos hts, hts]
      refine List.filter_eq_self.mpr fun d hd => ?_
      obtain ⟨batch, -, rfl⟩ := List.mem_map.mp hd
      exact decide_eq_true rfl
    · rw [if_neg hts]
      refine List.filter_eq_nil_iff.mpr fun d hd => ?_
      obtain ⟨batch, -, rfl⟩ := List.mem_map.mp hd
      simpa using hts
  rw [demands, visits, List.flatMap_assoc, List.filter_flatMap]
  refine List.flatMap_congr fun edge _ => ?_
  rw [List.flatMap_map, List.filter_flatMap]
  simp only [hlist]
  have hperm := order.arrange_perm edge (p.signals edge)
  rw [flatMap_ite_eq (hperm.nodup_iff.mpr (p.nodup_signals edge))]
  by_cases hs : s ∈ order.arrange edge (p.signals edge)
  · rw [if_pos hs]
  · have hnone : s ∉ p.signals edge := fun hc => hs (hperm.mem_iff.mpr hc)
    rw [if_neg hs, listDemands_of_waiting_eq_nil (waiting_eq_nil hnone)]

theorem filter_demands_congr {policy : BatchPolicy} {order order' : VisitOrder σ}
    {p p' : PendingWaits σ} (h : ∀ s edge, p.waiting s edge = p'.waiting s edge) (s : σ) :
    (p.demands policy order).filter (·.signal = s) =
      (p'.demands policy order').filter (·.signal = s) := by
  rw [filter_demands, filter_demands]
  simp only [listDemands, h]

/-- The lists are all that matters. -/
theorem demands_perm {policy : BatchPolicy} {order order' : VisitOrder σ} {p p' : PendingWaits σ}
    (h : ∀ s edge, p.waiting s edge = p'.waiting s edge) :
    (p.demands policy order).Perm (p'.demands policy order') := by
  refine List.perm_iff_count.mpr fun d => ?_
  -- a demand occurs as often as it does among those on its own signal
  have hsignal : decide (d.signal = d.signal) = true := decide_eq_true rfl
  have hone := List.count_filter (p := (·.signal = d.signal)) (l := p.demands policy order) hsignal
  have hother :=
    List.count_filter (p := (·.signal = d.signal)) (l := p'.demands policy order') hsignal
  rw [← hone, ← hother, filter_demands_congr h]

/-- When the same tasks are on every list, as many are. -/
theorem size_eq_of_waiting {p p' : PendingWaits σ}
    (h : ∀ s edge, p.waiting s edge = p'.waiting s edge) : p.size = p'.size := by
  rw [← length_waits, ← length_waits]
  refine (List.perm_iff_count.mpr fun w => ?_).length_eq
  -- a wait occurs as often as it does among those of its own list
  have hplace : decide ((w.signal, w.edge) = (w.signal, w.edge)) = true := decide_eq_true rfl
  have hone := List.count_filter (p := fun u : Wait σ => (u.signal, u.edge) = (w.signal, w.edge))
    (l := p.waits) hplace
  have hother := List.count_filter
    (p := fun u : Wait σ => (u.signal, u.edge) = (w.signal, w.edge)) (l := p'.waits) hplace
  rw [← hone, ← hother, ← p.map_waiting (w.signal, w.edge), ← p'.map_waiting (w.signal, w.edge), h]

end PendingWaits

end EdgeWait
