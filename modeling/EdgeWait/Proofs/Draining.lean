/-
A drain hands its lists over whole, and takes out those that were accepted.

* `drainLists_noted` — where a drain of some lists stops, which calls it has made by then, and what
  is left;
* `drainWith_noted` — the same of a whole drain, list by list and wait by wait (`DrainEnd`);
* `waiting_of_obey`, `suffix_of_obeyAll` — one request extends a list or empties it or leaves it, so
  a list holds the latest of the tasks that were added to it, in their order;
* `draining_after` — all of this for a store after any requests, in any order of the visits.

Design notes: the caller of a drain may decide by all that it has seen, so it has a state of its own
of any type.  Its calls are put on record by a caller around it (`noting`), which changes nothing of
the drain (`drainWith_noting`).
-/
import EdgeWait.Sim.Queue
import EdgeWait.Proofs.Drain

namespace EdgeWait

/-- A list of waiting tasks, as a drain hands it over. -/
structure HandedList (σ : Type) where
  signal : σ
  edge : Edge
  tasks : List TaskId
deriving DecidableEq

namespace HandedList

variable {σ : Type}

/-- The list that was handed over, by its signal and its edge. -/
def place (c : HandedList σ) : σ × Edge := (c.signal, c.edge)

/-- The waits in the list. -/
def waits (c : HandedList σ) : List (Wait σ) := c.tasks.map (⟨c.signal, c.edge, ·⟩)

end HandedList

namespace PendingWaits

/-- What is asked of a store of waits. -/
inductive Request (σ : Type) where
  | add (signal : σ) (edge : Edge) (task : TaskId)
  | drain {ε S : Type} (order : VisitOrder σ)
    (accept : σ → Edge → List TaskId → S → Outcome ε S Unit) (start : S)
  | clear

/-- The tasks that a request adds to a list. -/
def Request.added {σ : Type} [DecidableEq σ] (place : σ × Edge) : Request σ → List TaskId
  | .add signal edge task => if (signal, edge) = place then [task] else []
  | .drain _ _ _ => []
  | .clear => []

variable {σ ε S : Type} [DecidableEq σ]

/-- Does what is asked. A drain may be refused a list; what is left then is the store. -/
def obey [LogText σ] (p : PendingWaits σ) : Request σ → Except Fault (PendingWaits σ)
  | .add signal edge task => p.add signal edge task
  | .drain order accept start =>
    match p.drainWith order accept start with
    | .done _ (p', _) => .ok p'
    | .failed _ (p', _) => .ok p'
    | .fault f => .error f
  | .clear => .ok p.clear

/-- Does all that is asked, in turn. -/
def obeyAll [LogText σ] : List (Request σ) → PendingWaits σ → Except Fault (PendingWaits σ)
  | [], p => .ok p
  | request :: rest, p =>
    match p.obey request with
    | .error f => .error f
    | .ok p' => obeyAll rest p'

/-! ### The calls of a drain -/

/-- The same caller, with its calls on record. -/
def noting (accept : σ → Edge → List TaskId → S → Outcome ε S Unit) (signal : σ) (edge : Edge)
    (tasks : List TaskId) (s : S × List (HandedList σ)) :
    Outcome ε (S × List (HandedList σ)) Unit :=
  (accept signal edge tasks s.1).mapState fun s' => (s', s.2 ++ [⟨signal, edge, tasks⟩])

/-- Hands over some lists in turn, as long as they are accepted. -/
def handOver (accept : σ → Edge → List TaskId → S → Outcome ε S Unit) :
    List (HandedList σ) → S → Outcome ε S Unit
  | [], s => .done () s
  | c :: rest, s => (accept c.signal c.edge c.tasks s).andThen fun _ s' => handOver accept rest s'

/-- The list of a signal and an edge, to be handed over. -/
def handed (p : PendingWaits σ) (v : σ × Edge) : HandedList σ := ⟨v.1, v.2, p.waiting v.1 v.2⟩

/-- What is left when some lists have been taken out. -/
def without (p : PendingWaits σ) (lists : List (σ × Edge)) : PendingWaits σ :=
  lists.foldl (fun p v => p.emptyList v.1 v.2) p

theorem drainLists_noting (accept : σ → Edge → List TaskId → S → Outcome ε S Unit)
    (lists : List (σ × Edge)) : ∀ (p : PendingWaits σ) (s : S) (calls : List (HandedList σ)),
      drainLists accept lists p s =
        (drainLists (noting accept) lists p (s, calls)).mapState fun x => (x.1, x.2.1) := by
  induction lists with
  | nil => exact fun _ _ _ => rfl
  | cons v rest ih =>
    intro p s calls
    rw [drainLists, drainLists]
    by_cases hempty : p.waiting v.1 v.2 = []
    · rw [if_pos hempty, if_pos hempty]
      exact ih p s calls
    · rw [if_neg hempty, if_neg hempty, noting]
      cases accept v.1 v.2 (p.waiting v.1 v.2) s with
      | fault f => rfl
      | failed e s₁ => rfl
      | done _ s₁ => exact ih _ s₁ _

/-- **To keep a record** of the calls does not change the drain. -/
theorem drainWith_noting (accept : σ → Edge → List TaskId → S → Outcome ε S Unit)
    (order : VisitOrder σ) (p : PendingWaits σ) (s : S) :
    p.drainWith order accept s =
      (p.drainWith order (noting accept) (s, [])).mapState fun x => (x.1, x.2.1) :=
  drainLists_noting accept (p.visits order) p s []

theorem handed_emptyList {p : PendingWaits σ} {v w : σ × Edge} (h : w ≠ v) :
    (p.emptyList v.1 v.2).handed w = p.handed w := by
  rw [handed, handed, waiting_emptyList_ne h]

theorem map_handed_emptyList {p : PendingWaits σ} {v : σ × Edge} {lists : List (σ × Edge)}
    (h : v ∉ lists) : lists.map (p.emptyList v.1 v.2).handed = lists.map p.handed :=
  List.map_congr_left fun _ hw => handed_emptyList fun hc => h (hc ▸ hw)

/-- How a drain of some lists ends, with its calls on record behind earlier ones. -/
inductive Stops (accept : σ → Edge → List TaskId → S → Outcome ε S Unit) (p : PendingWaits σ)
    (s : S) (calls : List (HandedList σ)) (lists : List (σ × Edge)) :
    Outcome ε (PendingWaits σ × S × List (HandedList σ)) Unit → Prop where
  | done {s' : S} : handOver accept (lists.map p.handed) s = .done () s' →
    Stops accept p s calls lists (.done () (p.without lists, s', calls ++ lists.map p.handed))
  | refused {accepted : List (σ × Edge)} {v : σ × Edge} {rest : List (σ × Edge)} {s₁ s' : S}
    {e : ε} : lists = accepted ++ v :: rest →
    handOver accept (accepted.map p.handed) s = .done () s₁ →
    accept v.1 v.2 (p.waiting v.1 v.2) s₁ = .failed e s' →
    Stops accept p s calls lists
      (.failed e (p.without accepted, s', calls ++ (accepted.map p.handed ++ [p.handed v])))
  | broken {accepted : List (σ × Edge)} {v : σ × Edge} {rest : List (σ × Edge)} {s₁ : S}
    {f : Fault} : lists = accepted ++ v :: rest →
    handOver accept (accepted.map p.handed) s = .done () s₁ →
    accept v.1 v.2 (p.waiting v.1 v.2) s₁ = .fault f →
    Stops accept p s calls lists (.fault f)

/-- A list that is accepted first is one more list that was accepted. -/
theorem Stops.cons {accept : σ → Edge → List TaskId → S → Outcome ε S Unit} {p : PendingWaits σ}
    {s s₁ : S} {calls : List (HandedList σ)} {v : σ × Edge} {lists : List (σ × Edge)}
    {o : Outcome ε (PendingWaits σ × S × List (HandedList σ)) Unit} (hv : v ∉ lists)
    (hone : accept v.1 v.2 (p.waiting v.1 v.2) s = .done () s₁)
    (h : Stops accept (p.emptyList v.1 v.2) s₁ (calls ++ [p.handed v]) lists o) :
    Stops accept p s calls (v :: lists) o := by
  have hstep : ∀ cs : List (HandedList σ), handOver accept (p.handed v :: cs) s =
      handOver accept cs s₁ := by
    intro cs
    rw [handOver, handed, hone, Outcome.andThen]
  -- the list `v` is visited once, so to drop it leaves the lists after it as they were
  cases h with
  | done hall =>
    rw [map_handed_emptyList hv] at hall ⊢
    rw [List.append_assoc]
    exact .done ((hstep _).trans hall)
  | @refused accepted w rest s₂ s' e hsplit hall hlast =>
    subst hsplit
    obtain ⟨haccepted, hw⟩ : v ∉ accepted ∧ w ≠ v := by
      refine ⟨fun hc => hv (by simp [hc]), fun hc => hv (by simp [hc])⟩
    rw [map_handed_emptyList haccepted] at hall ⊢
    rw [waiting_emptyList_ne hw] at hlast
    rw [List.append_assoc, handed_emptyList hw]
    exact .refused (List.cons_append).symm ((hstep _).trans hall) hlast
  | @broken accepted w rest s₂ f hsplit hall hlast =>
    subst hsplit
    obtain ⟨haccepted, hw⟩ : v ∉ accepted ∧ w ≠ v := by
      refine ⟨fun hc => hv (by simp [hc]), fun hc => hv (by simp [hc])⟩
    rw [map_handed_emptyList haccepted] at hall
    rw [waiting_emptyList_ne hw] at hlast
    exact .broken (List.cons_append).symm ((hstep _).trans hall) hlast

/-- **Where a drain of some lists stops**, and which calls it has made by then.  Empty lists do not
matter. -/
theorem drainLists_noted (accept : σ → Edge → List TaskId → S → Outcome ε S Unit)
    (lists : List (σ × Edge)) (hnodup : lists.Nodup) :
    ∀ (p : PendingWaits σ) (s : S) (calls : List (HandedList σ)),
      Stops accept p s calls (p.filled lists) (drainLists (noting accept) lists p (s, calls)) := by
  induction lists with
  | nil =>
    intro p s calls
    have hend : Stops accept p s calls [] _ := .done rfl
    rwa [List.map_nil, List.append_nil] at hend
  | cons v rest ih =>
    intro p s calls
    obtain ⟨hv, hrest⟩ := List.nodup_cons.mp hnodup
    rw [drainLists, filled_cons]
    by_cases hempty : p.waiting v.1 v.2 = []
    · rw [if_pos hempty, if_pos hempty]
      exact ih hrest p s calls
    · rw [if_neg hempty, if_neg hempty, noting]
      have hfirst : v :: p.filled rest = [] ++ v :: p.filled rest := rfl
      cases hone : accept v.1 v.2 (p.waiting v.1 v.2) s with
      | fault f => exact .broken hfirst rfl hone
      | failed e s₁ => exact .refused hfirst rfl hone
      | done _ s₁ =>
        have hlater := ih hrest (p.emptyList v.1 v.2) s₁ (calls ++ [p.handed v])
        rw [filled_emptyList hv] at hlater
        exact .cons (fun hc => hv (List.mem_of_mem_filter hc)) hone hlater

/-! ### What is handed over, and what is left -/

omit [DecidableEq σ] in
/-- The lists of one edge are visited together, in the order of the edges. -/
theorem pairwise_visits (p : PendingWaits σ) (order : VisitOrder σ) :
    (p.visits order).Pairwise fun v w => v.2.index ≤ w.2.index := by
  rw [visits, List.pairwise_flatMap]
  constructor
  · intro edge _
    exact List.pairwise_map.mpr (List.pairwise_of_forall fun _ _ => Nat.le_refl _)
  · have hedges : Edge.all.Pairwise fun e e' => e.index ≤ e'.index := by decide
    refine hedges.imp ?_
    intro edge edge' hle v hv w hw
    obtain ⟨_, -, rfl⟩ := List.mem_map.mp hv
    obtain ⟨_, -, rfl⟩ := List.mem_map.mp hw
    exact hle

/-- What a drain of a store hands over. -/
structure HandedOver (p : PendingWaits σ) (calls : List (HandedList σ)) : Prop where
  /-- No list is handed over twice. -/
  once : (calls.map HandedList.place).Nodup
  /-- A list is handed over as a whole, and only if there is something in it. -/
  whole : ∀ c ∈ calls, c.tasks = p.waiting c.signal c.edge ∧ c.tasks ≠ []
  /-- Lists of rising edges come before those of falling edges, and these before the others. -/
  edges : calls.Pairwise fun c d => c.edge.index ≤ d.edge.index

/-- What is left of a store when some of its lists have been taken out. -/
structure TakenOut (p : PendingWaits σ) (accepted : List (HandedList σ)) (p' : PendingWaits σ) :
    Prop where
  /-- A list that was accepted is empty, and every other list is as it was. -/
  lists : ∀ signal edge, p'.waiting signal edge =
    if (signal, edge) ∈ accepted.map HandedList.place then [] else p.waiting signal edge
  /-- Every list has stayed in its table, even if it is empty. -/
  tables : ∀ edge, p'.signals edge = p.signals edge
  /-- The waits that were accepted and those that are left are the waits that there were. -/
  waits : (accepted.flatMap HandedList.waits ++ p'.waits).Perm p.waits

theorem map_place_handed (p : PendingWaits σ) (lists : List (σ × Edge)) :
    (lists.map p.handed).map HandedList.place = lists := by
  rw [List.map_map]
  exact List.map_id _

theorem handedOver_of_isPrefixOf {p : PendingWaits σ} {order : VisitOrder σ} {lists : List (σ × Edge)}
    (h : lists <+: p.filled (p.visits order)) : HandedOver p (lists.map p.handed) where
  once := by
    rw [map_place_handed]
    exact (p.nodup_visits order).sublist (h.sublist.trans List.filter_sublist)
  whole := by
    intro c hc
    obtain ⟨v, hv, rfl⟩ := List.mem_map.mp hc
    exact ⟨rfl, of_decide_eq_true (List.mem_filter.mp (h.subset hv)).2⟩
  edges := List.pairwise_map.mpr
    ((p.pairwise_visits order).sublist (h.sublist.trans List.filter_sublist))

theorem takenOut_without (p : PendingWaits σ) {lists : List (σ × Edge)} (hnodup : lists.Nodup) :
    TakenOut p (lists.map p.handed) (p.without lists) where
  lists := by
    intro signal edge
    rw [map_place_handed, without, waiting_foldl_emptyList]
  tables := fun edge => signals_foldl_emptyList lists edge p
  waits := by
    have hwaits : (lists.map p.handed).flatMap HandedList.waits =
        lists.flatMap fun v => p.waits.filter fun w => (w.signal, w.edge) = v := by
      rw [List.flatMap_map]
      exact List.flatMap_congr fun v _ => p.map_waiting v
    have hperm : ((lists.map p.handed).flatMap HandedList.waits).Perm
        (p.waits.filter fun w => (w.signal, w.edge) ∈ lists) := by
      rw [hwaits]
      refine (flatMap_filter_perm _ p.waits lists hnodup).trans (List.Perm.of_eq ?_)
      exact List.filter_congr fun w _ => decide_eq_decide.mpr Iff.rfl
    rw [without, waits_foldl_emptyList]
    refine (hperm.append_right _).trans ?_
    simpa using List.filter_append_perm (fun w : Wait σ => (w.signal, w.edge) ∈ lists) p.waits

/-- How a drain ends, told with its calls. -/
inductive DrainEnd (accept : σ → Edge → List TaskId → S → Outcome ε S Unit) (p : PendingWaits σ)
    (s : S) : Outcome ε (PendingWaits σ × S × List (HandedList σ)) Unit → Prop where
  /-- Every list that is not empty was handed over and accepted, and nothing is left. -/
  | done {calls : List (HandedList σ)} {s' : S} {p' : PendingWaits σ} : HandedOver p calls →
    (∀ signal edge, p.waiting signal edge ≠ [] →
      (signal, edge) ∈ calls.map HandedList.place) →
    handOver accept calls s = .done () s' → TakenOut p calls p' → p' = p.clear →
    DrainEnd accept p s (.done () (p', s', calls))
  /-- The list that was handed over last was refused, and only those before it are gone. -/
  | refused {accepted : List (HandedList σ)} {c : HandedList σ} {s₁ s' : S} {e : ε}
    {p' : PendingWaits σ} : HandedOver p (accepted ++ [c]) →
    handOver accept accepted s = .done () s₁ →
    accept c.signal c.edge c.tasks s₁ = .failed e s' → TakenOut p accepted p' →
    DrainEnd accept p s (.failed e (p', s', accepted ++ [c]))
  /-- There is no state left, because the caller has none. -/
  | broken {accepted : List (HandedList σ)} {c : HandedList σ} {s₁ : S} {f : Fault} :
    HandedOver p (accepted ++ [c]) → handOver accept accepted s = .done () s₁ →
    accept c.signal c.edge c.tasks s₁ = .fault f → DrainEnd accept p s (.fault f)

/-- **A drain is atomic list by list**, wherever it stops. -/
theorem drainWith_noted (accept : σ → Edge → List TaskId → S → Outcome ε S Unit)
    (order : VisitOrder σ) (p : PendingWaits σ) (s : S) :
    DrainEnd accept p s (p.drainWith order (noting accept) (s, [])) := by
  have hnodup : (p.filled (p.visits order)).Nodup := (p.nodup_visits order).filter _
  have hstops := drainLists_noted accept (p.visits order) (p.nodup_visits order) p s []
  have hall : ∀ signal edge, p.waiting signal edge ≠ [] →
      (signal, edge) ∈ p.filled (p.visits order) := fun signal edge hwaiting =>
    List.mem_filter.mpr ⟨visited_of_waiting_ne_nil (v := (signal, edge)) hwaiting,
      decide_eq_true hwaiting⟩
  rw [drainWith]
  generalize drainLists (noting accept) (p.visits order) p (s, []) = o at hstops
  cases hstops with
  | done haccepted =>
    rw [List.nil_append]
    refine .done (handedOver_of_isPrefixOf List.prefix_rfl) ?_ haccepted (p.takenOut_without hnodup)
      (foldl_emptyList_eq_clear hall)
    intro signal edge hwaiting
    rw [map_place_handed]
    exact hall signal edge hwaiting
  | @refused accepted v rest s₁ s' e hsplit haccepted hlast =>
    have hprefix : accepted ++ [v] <+: p.filled (p.visits order) := ⟨rest, by simp [hsplit]⟩
    have hover := handedOver_of_isPrefixOf hprefix
    rw [List.map_append] at hover
    have honce : accepted.Nodup :=
      hnodup.sublist ((List.sublist_append_left accepted [v]).trans hprefix.sublist)
    exact .refused hover haccepted hlast (p.takenOut_without honce)
  | @broken accepted v rest s₁ f hsplit haccepted hlast =>
    have hprefix : accepted ++ [v] <+: p.filled (p.visits order) := ⟨rest, by simp [hsplit]⟩
    have hover := handedOver_of_isPrefixOf hprefix
    rw [List.map_append] at hover
    exact .broken hover haccepted hlast

/-! ### Requests in a row -/

/-- A list that a drain has been offered is empty or as it was. -/
theorem waiting_of_drain {p p' : PendingWaits σ} {order : VisitOrder σ}
    {accept : σ → Edge → List TaskId → S → Outcome ε S Unit} {s s' : S}
    (h : (∃ e, p.drainWith order accept s = .failed e (p', s')) ∨
      p.drainWith order accept s = .done () (p', s')) (signal : σ) (edge : Edge) :
    p'.waiting signal edge = [] ∨ p'.waiting signal edge = p.waiting signal edge := by
  have hlists : ∃ accepted, TakenOut p accepted p' := by
    have hend := drainWith_noted accept order p s
    rw [drainWith_noting] at h
    generalize p.drainWith order (noting accept) (s, []) = o at h hend
    cases hend with
    | done _ _ _ htaken _ =>
      obtain ⟨e, h⟩ | h := h
      · cases h
      · cases h
        exact ⟨_, htaken⟩
    | refused _ _ _ htaken =>
      obtain ⟨e, h⟩ | h := h
      · cases h
        exact ⟨_, htaken⟩
      · cases h
    | broken _ _ _ =>
      obtain ⟨e, h⟩ | h := h <;> cases h
  obtain ⟨accepted, htaken⟩ := hlists
  rw [htaken.lists]
  split
  · exact .inl rfl
  · exact .inr rfl

/-- A wait that is recorded comes behind those on its own list, and no other list is longer. -/
theorem waiting_recorded (p : PendingWaits σ) (signal s : σ) (edge e : Edge) (task : TaskId) :
    (p.push signal edge task).waiting s e =
      p.waiting s e ++ Request.added (s, e) (.add signal edge task) := by
  rw [waiting_push, Request.added]
  split
  · rfl
  · exact (List.append_nil _).symm

variable [LogText σ]

theorem add_of_mem {p : PendingWaits σ} {signal : σ} {edge : Edge} {task : TaskId}
    (h : task ∈ p.waiting signal edge) :
    p.add signal edge task = .error (.duplicateWait task edge (logText signal)) := by
  rw [add, if_pos h]

theorem add_of_not_mem {p : PendingWaits σ} {signal : σ} {edge : Edge} {task : TaskId}
    (h : task ∉ p.waiting signal edge) :
    p.add signal edge task = .ok (p.push signal edge task) := by
  rw [add, if_neg h]

/-- **What one request does to a list**: it extends it by a task that was not in it, empties it, or
leaves it as it was. -/
theorem waiting_of_obey {p p' : PendingWaits σ} {request : Request σ}
    (h : p.obey request = .ok p') (s : σ) (e : Edge) :
    p'.waiting s e = [] ∧ request.added (s, e) = [] ∨
      p'.waiting s e = p.waiting s e ++ request.added (s, e) ∧
        (request.added (s, e)).Nodup ∧ ∀ task ∈ request.added (s, e), task ∉ p.waiting s e := by
  cases request with
  | add signal edge task =>
    rw [obey] at h
    by_cases hmem : task ∈ p.waiting signal edge
    · rw [add_of_mem hmem] at h
      cases h
    · rw [add_of_not_mem hmem] at h
      obtain rfl := Except.ok.inj h
      refine .inr ⟨p.waiting_recorded signal s edge e task, ?_⟩
      rw [Request.added]
      split
      · rename_i hlist
        obtain ⟨rfl, rfl⟩ := Prod.mk.inj hlist
        simpa using hmem
      · simp
  | drain order accept start =>
    -- it makes no difference here whether the drain has come to its end
    have hkept : p'.waiting s e = [] ∨ p'.waiting s e = p.waiting s e := by
      rw [obey] at h
      cases hdrain : p.drainWith order accept start with
      | fault f =>
        rw [hdrain] at h
        cases h
      | failed err state =>
        rw [hdrain] at h
        obtain rfl := Except.ok.inj h
        exact waiting_of_drain (.inl ⟨err, hdrain⟩) s e
      | done _ state =>
        rw [hdrain] at h
        obtain rfl := Except.ok.inj h
        exact waiting_of_drain (.inr hdrain) s e
    obtain hnil | hsame := hkept
    · exact .inl ⟨hnil, rfl⟩
    · exact .inr ⟨by simpa [Request.added] using hsame, List.nodup_nil, by simp [Request.added]⟩
  | clear =>
    obtain rfl := Except.ok.inj h
    exact .inl ⟨p.waiting_clear s e, rfl⟩

theorem nodup_of_obeyAll (requests : List (Request σ)) : ∀ {p p' : PendingWaits σ},
    (∀ s e, (p.waiting s e).Nodup) → obeyAll requests p = .ok p' →
      ∀ s e, (p'.waiting s e).Nodup := by
  induction requests with
  | nil =>
    intro p p' hp h
    obtain rfl := Except.ok.inj h
    exact hp
  | cons request rest ih =>
    intro p p' hp h
    rw [obeyAll] at h
    cases hone : p.obey request with
    | error f =>
      rw [hone] at h
      cases h
    | ok q =>
      rw [hone] at h
      refine ih (fun s e => ?_) h
      obtain ⟨hnil, -⟩ | ⟨hadded, hnew, hfresh⟩ := waiting_of_obey hone s e
      · rw [hnil]
        exact List.nodup_nil
      · rw [hadded, List.nodup_append']
        exact ⟨hp s e, hnew, fun task hold hnew => hfresh task hnew hold⟩

/-- **A list holds the latest of the tasks** that were added to it, in their order. -/
theorem suffix_of_obeyAll (requests : List (Request σ)) : ∀ {p p' : PendingWaits σ},
    obeyAll requests p = .ok p' → ∀ s e,
      p'.waiting s e <:+ p.waiting s e ++ requests.flatMap (·.added (s, e)) := by
  induction requests with
  | nil =>
    intro p p' h s e
    obtain rfl := Except.ok.inj h
    simp
  | cons request rest ih =>
    intro p p' h s e
    rw [obeyAll] at h
    cases hone : p.obey request with
    | error f =>
      rw [hone] at h
      cases h
    | ok q =>
      rw [hone] at h
      have hrest := ih h s e
      rw [List.flatMap_cons]
      obtain ⟨hnil, hnone⟩ | ⟨hadded, -, -⟩ := waiting_of_obey hone s e
      · rw [hnil, List.nil_append] at hrest
        rw [hnone, List.nil_append]
        exact hrest.trans (List.suffix_append _ _)
      · rwa [hadded, List.append_assoc] at hrest

theorem obeyAll_append_eq_ok {pre post : List (Request σ)} : ∀ {p p' : PendingWaits σ},
    obeyAll (pre ++ post) p = .ok p' ↔ ∃ q, obeyAll pre p = .ok q ∧ obeyAll post q = .ok p' := by
  induction pre with
  | nil => exact fun {p p'} => ⟨fun h => ⟨p, rfl, h⟩, fun ⟨q, hq, h⟩ => Except.ok.inj hq ▸ h⟩
  | cons request rest ih =>
    intro p p'
    rw [List.cons_append, obeyAll, obeyAll]
    cases p.obey request with
    | error f => simp
    | ok q => exact ih

/-! ### The account -/

/-- What there is to say of a store of waits, after some requests to an empty one. -/
structure Orderly (requests : List (Request σ)) (p : PendingWaits σ) : Prop where
  /-- The number of waits is the sum of the lengths of all lists. -/
  size_eq : ∀ lists : List (σ × Edge), lists.Nodup →
    (∀ s e, p.waiting s e ≠ [] → (s, e) ∈ lists) →
    p.size = (lists.map fun v => (p.waiting v.1 v.2).length).sum
  /-- No task is on a list twice. -/
  nodup : ∀ s e, (p.waiting s e).Nodup
  /-- A task that is on a list is not added to it. -/
  add_repeated : ∀ signal edge task, task ∈ p.waiting signal edge →
    p.add signal edge task = .error (.duplicateWait task edge (logText signal))
  /-- Any other task is, at the end, and no other list changes. -/
  add_fresh : ∀ signal edge task, task ∉ p.waiting signal edge →
    ∃ p', p.add signal edge task = .ok p' ∧ ∀ s e, p'.waiting s e =
      if (signal, edge) = (s, e) then p.waiting s e ++ [task] else p.waiting s e
  /-- Clearing empties every list, and then nothing is counted. -/
  cleared : p.clear.size = 0 ∧ ∀ s e, p.clear.waiting s e = []
  /-- Whatever the caller of a drain does, and in whatever order the lists are visited. -/
  drain : ∀ {ε S : Type} (order : VisitOrder σ)
    (accept : σ → Edge → List TaskId → S → Outcome ε S Unit) (s : S),
    DrainEnd accept p s (p.drainWith order (noting accept) (s, [])) ∧
      p.drainWith order accept s =
        (p.drainWith order (noting accept) (s, [])).mapState fun x => (x.1, x.2.1)
  /-- What was on a list when it was empty does not come back: it holds the latest of the tasks that
  have been added to it since, in their order. -/
  emptied : ∀ pre post q, requests = pre ++ post → obeyAll pre .empty = .ok q →
    ∀ s e, q.waiting s e = [] → p.waiting s e <:+ post.flatMap (·.added (s, e))

/-- **The store of waits is drained list by list**, whatever has been asked of it before: by any mix
of waits that are added, drains with any caller, and clearing. -/
theorem draining_after {requests : List (Request σ)} {p : PendingWaits σ}
    (h : obeyAll requests .empty = .ok p) : Orderly requests p where
  size_eq := by
    intro lists hnodup hall
    exact (sum_length_waiting hnodup fun w hw =>
      hall w.signal w.edge (List.ne_nil_of_mem (mem_waits.mp hw))).symm
  nodup := nodup_of_obeyAll requests (p := .empty)
    (fun s e => (waiting_empty s e).symm ▸ List.nodup_nil) h
  add_repeated := fun _ _ _ hmem => add_of_mem hmem
  add_fresh := by
    intro signal edge task hmem
    refine ⟨_, add_of_not_mem hmem, fun s e => ?_⟩
    rw [waiting_recorded, Request.added]
    split
    · rfl
    · exact List.append_nil _
  cleared := ⟨p.size_clear, p.waiting_clear⟩
  drain := fun order accept s =>
    ⟨drainWith_noted accept order p s, drainWith_noting accept order p s⟩
  emptied := by
    intro pre post q hsplit hpre s e hempty
    rw [hsplit] at h
    obtain ⟨q', hq', hpost⟩ := obeyAll_append_eq_ok.mp h
    obtain rfl := Except.ok.inj (hpre.symm.trans hq')
    have hsuffix := suffix_of_obeyAll post hpost s e
    rwa [hempty, List.nil_append] at hsuffix

/-- A drain of three lists whose caller refuses the second one. A task that was on the first list is
added to it once more afterwards. -/
def secondRefused : List (Request SignalId) :=
  [.add ⟨1⟩ .rising ⟨1⟩, .add ⟨2⟩ .rising ⟨2⟩, .add ⟨1⟩ .rising ⟨3⟩, .add ⟨3⟩ .falling ⟨4⟩,
    .drain (.recorded SignalId)
      (fun _ _ _ n => if n = 0 then .done () (n + 1) else .failed "full" n) 0,
    .add ⟨1⟩ .rising ⟨1⟩]

/-- The list that was emptied is still the first one in its table. -/
theorem draining_after_secondRefused :
    ∃ p, obeyAll secondRefused .empty = .ok p ∧
      p.rising.entries = [(⟨1⟩, [⟨1⟩]), (⟨2⟩, [⟨2⟩])] ∧ p.falling.entries = [(⟨3⟩, [⟨4⟩])] ∧
      p.size = 3 ∧ Orderly secondRefused p := by
  obtain ⟨p, hp, hrising, hfalling, hsize⟩ : ∃ p, obeyAll secondRefused .empty = .ok p ∧
      p.rising.entries = [(⟨1⟩, [⟨1⟩]), (⟨2⟩, [⟨2⟩])] ∧ p.falling.entries = [(⟨3⟩, [⟨4⟩])] ∧
      p.size = 3 := ⟨_, rfl, rfl, rfl, rfl⟩
  exact ⟨p, hp, hrising, hfalling, hsize, draining_after hp⟩

end PendingWaits

end EdgeWait
