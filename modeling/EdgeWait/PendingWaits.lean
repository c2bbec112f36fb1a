/-
Waits that have been recorded and not yet flushed.

For each edge there is a table of lists, which says for a signal which tasks wait for the edge on it
(`TaskLists`). A wait goes to the end of its list (`PendingWaits.add`). A drain
(`PendingWaits.drainWith`) hands each list that is not empty to its caller: the lists of rising
edges first, then those of falling edges, then those for either edge. It stops at the first list
that is refused, and empties exactly the lists that were accepted.

Design notes:
* A list that is emptied stays in its table, so a drain comes to it again and passes it over.
* `size` is counted along rather than computed, so that asking for it is cheap. That it is the sum of
  the lengths of all lists is part of the type, and so is that no signal is twice in a table.
* Inside one edge the order in which signals are visited is left open. It is a `VisitOrder`, which
  rearranges the signals and can neither drop nor repeat one; what holds for every `VisitOrder`
  holds however the tables are stored.
-/
import EdgeWait.Fault

namespace EdgeWait

/-! ## Tables of lists -/

/-- The list that entries have under a signal. -/
def listIn {σ : Type} [DecidableEq σ] (signal : σ) : List (σ × List TaskId) → List TaskId
  | [] => []
  | (s, tasks) :: rest => if s = signal then tasks else listIn signal rest

/-- Puts a task at the end of the list of a signal. A signal without a list is given one. -/
def pushIn {σ : Type} [DecidableEq σ] (signal : σ) (task : TaskId) :
    List (σ × List TaskId) → List (σ × List TaskId)
  | [] => [(signal, [task])]
  | (s, tasks) :: rest =>
    if s = signal then (s, tasks ++ [task]) :: rest else (s, tasks) :: pushIn signal task rest

/-- Empties the list of a signal where it stands. -/
def emptyIn {σ : Type} [DecidableEq σ] (signal : σ) :
    List (σ × List TaskId) → List (σ × List TaskId)
  | [] => []
  | (s, tasks) :: rest =>
    if s = signal then (s, []) :: rest else (s, tasks) :: emptyIn signal rest

/-- The number of tasks on all lists together. -/
def totalIn {σ : Type} : List (σ × List TaskId) → Nat
  | [] => 0
  | (_, tasks) :: rest => tasks.length + totalIn rest

section Entries

variable {σ : Type} [DecidableEq σ]

theorem mem_map_pushIn (signal s : σ) (task : TaskId) (entries : List (σ × List TaskId)) :
    s ∈ (pushIn signal task entries).map (·.1) ↔ s = signal ∨ s ∈ entries.map (·.1) := by
  induction entries with
  | nil => simp [pushIn]
  | cons e rest ih =>
    rw [pushIn]
    split
    case isTrue heq => simp [← heq]
    case isFalse =>
      rw [List.map_cons, List.mem_cons, ih, List.map_cons, List.mem_cons]
      exact or_left_comm

theorem nodup_pushIn (signal : σ) (task : TaskId) (entries : List (σ × List TaskId))
    (h : (entries.map (·.1)).Nodup) : ((pushIn signal task entries).map (·.1)).Nodup := by
  induction entries with
  | nil => simp [pushIn]
  | cons e rest ih =>
    obtain ⟨he, hrest⟩ := List.nodup_cons.mp h
    rw [pushIn]
    split
    case isTrue => exact h
    case isFalse hne =>
      refine List.nodup_cons.mpr ⟨?_, ih hrest⟩
      rw [mem_map_pushIn]
      exact not_or.mpr ⟨hne, he⟩

theorem map_emptyIn (signal : σ) (entries : List (σ × List TaskId)) :
    (emptyIn signal entries).map (·.1) = entries.map (·.1) := by
  induction entries with
  | nil => rfl
  | cons e rest ih =>
    rw [emptyIn]
    split
    · rfl
    · rw [List.map_cons, ih, List.map_cons]

theorem totalIn_pushIn (signal : σ) (task : TaskId) (entries : List (σ × List TaskId)) :
    totalIn (pushIn signal task entries) = totalIn entries + 1 := by
  induction entries with
  | nil => rfl
  | cons e rest ih =>
    rw [pushIn, totalIn]
    split
    · rw [totalIn, List.length_append, List.length_singleton]
      omega
    · rw [totalIn, ih]
      omega

theorem totalIn_emptyIn (signal : σ) (entries : List (σ × List TaskId)) :
    totalIn (emptyIn signal entries) + (listIn signal entries).length = totalIn entries := by
  induction entries with
  | nil => rfl
  | cons e rest ih =>
    rw [emptyIn, listIn, totalIn]
    split
    · rw [totalIn, List.length_nil]
      omega
    · rw [totalIn]
      omega

end Entries

/-- Lists of waiting tasks, each under its signal, those that were begun first in front. -/
structure TaskLists (σ : Type) where
  entries : List (σ × List TaskId) := []
  nodup : (entries.map (·.1)).Nodup := by exact List.nodup_nil

namespace TaskLists

variable {σ : Type}

/-- The signals that have a list, which may be empty. -/
def signals (l : TaskLists σ) : List σ := l.entries.map (·.1)

/-- The number of tasks on all lists together. -/
def total (l : TaskLists σ) : Nat := totalIn l.entries

/-- Empties every list where it stands. -/
def clear (l : TaskLists σ) : TaskLists σ where
  entries := l.entries.map fun (s, _) => (s, [])
  nodup := by
    rw [List.map_map]
    exact l.nodup

theorem total_clear (l : TaskLists σ) : l.clear.total = 0 := by
  show totalIn (l.entries.map fun (s, _) => (s, [])) = 0
  induction l.entries with
  | nil => rfl
  | cons e rest ih =>
    rw [List.map_cons, totalIn, ih]
    rfl

variable [DecidableEq σ]

/-- The tasks on the list of a signal, in the order in which they were put there. -/
def list (l : TaskLists σ) (signal : σ) : List TaskId := listIn signal l.entries

/-- Puts a task at the end of the list of a signal. -/
def push (l : TaskLists σ) (signal : σ) (task : TaskId) : TaskLists σ where
  entries := pushIn signal task l.entries
  nodup := nodup_pushIn signal task l.entries l.nodup

theorem total_push (l : TaskLists σ) (signal : σ) (task : TaskId) :
    (l.push signal task).total = l.total + 1 :=
  totalIn_pushIn signal task l.entries

/-- Empties the list of a signal where it stands. -/
def emptied (l : TaskLists σ) (signal : σ) : TaskLists σ where
  entries := emptyIn signal l.entries
  nodup := by
    rw [map_emptyIn]
    exact l.nodup

theorem total_emptied (l : TaskLists σ) (signal : σ) :
    (l.emptied signal).total + (l.list signal).length = l.total :=
  totalIn_emptyIn signal l.entries

end TaskLists

/-! ## The waits of all edges -/

/-- An order in which a drain visits the signals of one edge. -/
structure VisitOrder (σ : Type) where
  arrange : Edge → List σ → List σ
  arrange_perm : ∀ edge signals, (arrange edge signals).Perm signals

/-- Visits the signals in the order in which their lists were begun. -/
def VisitOrder.recorded (σ : Type) : VisitOrder σ where
  arrange := fun _ signals => signals
  arrange_perm := fun _ signals => List.Perm.refl signals

/-- Recorded waits, and their number. -/
structure PendingWaits (σ : Type) where
  rising : TaskLists σ := {}
  falling : TaskLists σ := {}
  either : TaskLists σ := {}
  size : Nat := 0
  size_eq : size = rising.total + falling.total + either.total := by rfl

namespace PendingWaits

variable {σ : Type}

/-- Nothing has been recorded yet. -/
def empty : PendingWaits σ := {}

/-- The lists of an edge. -/
def lists (p : PendingWaits σ) : Edge → TaskLists σ
  | .rising => p.rising
  | .falling => p.falling
  | .either => p.either

/-- Says whether there is nothing to drain. -/
def isEmpty (p : PendingWaits σ) : Bool := p.size = 0

/-- Empties every list. -/
def clear (p : PendingWaits σ) : PendingWaits σ where
  rising := p.rising.clear
  falling := p.falling.clear
  either := p.either.clear
  size := 0
  size_eq := by rw [TaskLists.total_clear, TaskLists.total_clear, TaskLists.total_clear]

/-- Puts other lists in place for an edge, with the number of waits that there are then. -/
def withLists (p : PendingWaits σ) (edge : Edge) (l : TaskLists σ) (size : Nat)
    (h : size + (p.lists edge).total = p.size + l.total) : PendingWaits σ :=
  have hsize := p.size_eq
  match edge, h with
  | .rising, h => { p with rising := l, size, size_eq := by dsimp only [lists] at h; omega }
  | .falling, h => { p with falling := l, size, size_eq := by dsimp only [lists] at h; omega }
  | .either, h => { p with either := l, size, size_eq := by dsimp only [lists] at h; omega }

theorem lists_total_le (p : PendingWaits σ) (edge : Edge) : (p.lists edge).total ≤ p.size := by
  have hsize := p.size_eq
  cases edge <;> dsimp only [lists] <;> omega

/-- The signals that have a list for an edge, which may be empty. -/
def signals (p : PendingWaits σ) (edge : Edge) : List σ := (p.lists edge).signals

/-- The lists of a drain in the order in which it visits them. -/
def visits (p : PendingWaits σ) (order : VisitOrder σ) : List (σ × Edge) :=
  Edge.all.flatMap fun edge => (order.arrange edge (p.signals edge)).map fun s => (s, edge)

variable [DecidableEq σ]

/-- The tasks that wait for an edge of a signal, in the order of recording. -/
def waiting (p : PendingWaits σ) (signal : σ) (edge : Edge) : List TaskId :=
  (p.lists edge).list signal

/-- Puts a task at the end of the list of a signal and an edge. -/
def push (p : PendingWaits σ) (signal : σ) (edge : Edge) (task : TaskId) : PendingWaits σ :=
  p.withLists edge ((p.lists edge).push signal task) (p.size + 1) (by
    rw [TaskLists.total_push]
    omega)

/-- Records a wait. A task may wait for the same edge of a signal only once between two drains. -/
def add [LogText σ] (p : PendingWaits σ) (signal : σ) (edge : Edge) (task : TaskId) :
    Except Fault (PendingWaits σ) :=
  if task ∈ p.waiting signal edge then
    .error (.duplicateWait task edge (logText signal))
  else
    .ok (p.push signal edge task)

/-- Empties the list of a signal and an edge. -/
def emptyList (p : PendingWaits σ) (signal : σ) (edge : Edge) : PendingWaits σ :=
  p.withLists edge ((p.lists edge).emptied signal) (p.size - (p.waiting signal edge).length) (by
    have htotal := (p.lists edge).total_emptied signal
    have hle := p.lists_total_le edge
    rw [waiting]
    omega)

/-- Hands over the lists named, in turn, until one is refused, and passes over those that are empty.
`accept` works on a state of its own, which is returned beside the waits that are left. -/
def drainLists {ε S : Type} (accept : σ → Edge → List TaskId → S → Outcome ε S Unit) :
    List (σ × Edge) → PendingWaits σ → S → Outcome ε (PendingWaits σ × S) Unit
  | [], p, s => .done () (p, s)
  | (signal, edge) :: rest, p, s =>
    if p.waiting signal edge = [] then drainLists accept rest p s
    else
      match accept signal edge (p.waiting signal edge) s with
      | .done () s => drainLists accept rest (p.emptyList signal edge) s
      | .failed e s => .failed e (p, s)
      | .fault f => .fault f

/-- Hands over every list until one is refused. -/
def drainWith {ε S : Type} (order : VisitOrder σ)
    (accept : σ → Edge → List TaskId → S → Outcome ε S Unit) (p : PendingWaits σ) (s : S) :
    Outcome ε (PendingWaits σ × S) Unit :=
  drainLists accept (p.visits order) p s

end PendingWaits

end EdgeWait
