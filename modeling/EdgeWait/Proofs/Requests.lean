/-
Requests of two sessions that are alike.

* `ask_recorded` — what the requests of a round leave on record in one session;
* `prompt_akin` — a request besides a wait comes to the same in both sessions;
* `ask_akin` — so do the requests of a round, however its waits have been interleaved.

Design notes: within a round the two sessions do not have the same waits on record.  But none of the
other requests looks at them, so it is enough that the same are on record at the end of it.  A
shutdown drops those that it finds, whatever they are, and what is on record at the end are the
waits after the last shutdown, and those from before the round if there has been none.
-/
import EdgeWait.Proofs.Driving
import EdgeWait.Proofs.Lockstep

namespace EdgeWait

open Bench Sim

namespace Session

variable {T : Type} {s s₁ s₂ t t₁ t₂ : Session T}

/-! ### One session -/

/-- The context of a session is in order. -/
def Sound (s : Session T) : Prop := ∃ c L, s.bench.Tracked (Hosts c) L

/-- The context of a session is in order, and the first keys that it has issued are `issued`. -/
structure Grown (issued : List RegistrationKey) (s : Session T) : Prop where
  sound : s.Sound
  issued : issued <+: s.bench.log.issued

theorem Sound.grown (h : s.Sound) : s.Grown s.bench.log.issued := ⟨h, List.prefix_rfl⟩

/-- A context in order is alike to itself. -/
theorem Sound.joint (h : s.Sound) : Joint (fun _ => none) (fun _ => none) s.bench s.bench := by
  obtain ⟨c, L, htracked⟩ := h
  have hside : Side c (fun _ => none) s.bench L := ⟨htracked, fun _ _ => rfl⟩
  exact ⟨⟨c, L, L, ⟨hside, hside, rfl, rfl, .refl _⟩, rfl, fun _ => ⟨rfl, rfl, fun _ => rfl⟩⟩,
    fun _ _ _ => rfl⟩

theorem sound_of_joint {label₁ label₂ : Nat → Option Nat} {b : SimBench (SchedulerRecord T)}
    (h : Joint label₁ label₂ s.bench b) : s.Sound := by
  obtain ⟨⟨c, L, _, halike⟩, -⟩ := h
  exact ⟨c, L, halike.left.tracked⟩

/-- Operations that agree with others lead to sessions in order. -/
theorem Grown.settle {F : Fault → Prop} {issued : List RegistrationKey} (h : s.Grown issued)
    {α : Type} {R : α → α → Prop} {label₁ label₂ : Nat → Option Nat}
    {b : SimBench (SchedulerRecord T)}
    {o o' : Outcome SimError (SimBench (SchedulerRecord T)) α}
    (hagree : Agree F R (Going label₁ label₂ s.bench b) (Moved label₁ label₂ s.bench b) o o')
    (reply : α → Reply) : (s.settle reply o).Upholds F (Grown issued) := by
  obtain ⟨f, rfl, -, hF⟩ | ⟨error, b₁, b₂, rfl, -, hmoved⟩ |
    ⟨a, _, b₁, b₂, rfl, -, -, hgoing⟩ := hagree.cases
  · exact settle_upholds h hF
  · exact settle_upholds h ⟨sound_of_joint hmoved.joint, h.issued.trans hmoved.issued₁⟩
  · exact settle_upholds h ⟨sound_of_joint hgoing.joint, h.issued.trans hgoing.issued₁⟩

/-- What a request besides a wait comes to in one session. -/
structure Prompted (p : Prompt) (s : Session T) (o : Course T) : Prop where
  fault : o.fault = none
  sound : o.session.Sound
  issued : s.bench.log.issued <+: o.session.bench.log.issued
  poisoned : s.bench.mux.isPoisoned = true → o.session.bench.mux.isPoisoned = true
  waiting : ∀ signal edge, o.session.bench.mux.pending.waiting signal edge =
    if p.drops then [] else s.bench.mux.pending.waiting signal edge

/-- Nearly all requests leave the waits as they are. -/
theorem prompted_of_keeps {p : Prompt} (hp : p.drops = false) (hsound : t.Sound)
    (hkeeps : Keeps s.bench t.bench) (replies : List Reply) : Prompted p s ⟨replies, t, none⟩ := by
  refine ⟨rfl, hsound, hkeeps.issued, hkeeps.poisoned, fun signal edge => ?_⟩
  rw [hp, if_neg Bool.false_ne_true, hkeeps.pending]

/-- A task that is subscribed in two contexts leaves the session of the first in order. -/
theorem settleKey_prompted {c : Sim} {label₁ label₂ : Nat → Option Nat} {request : Nat}
    {L₁ L₂ : List SimHolding} {b₂ : SimBench (SchedulerRecord T)} {p : Prompt}
    (hp : p.drops = false) {o₁ o₂ : Outcome MuxError (SimBench (SchedulerRecord T)) RegistrationKey}
    (h : SubscribedBoth c label₁ label₂ request s.bench L₁ b₂ L₂ o₁ o₂) :
    Prompted p s (s.settleKey o₁) := by
  cases h with
  | failed e b₁' b₂' hkeeps _ halike =>
    exact prompted_of_keeps hp ⟨c, L₁, halike.left.tracked⟩ hkeeps _
  | done e₁ e₂ b₁' b₂' hkeeps _ _ _ _ _ halike =>
    exact prompted_of_keeps hp ⟨c, L₁ ++ [e₁], halike.left.tracked⟩ hkeeps _

theorem registerSingle_prompted (h : s.Sound) {p : Prompt} (hp : p.drops = false)
    (signal : SignalId) (edge : Edge) (task : TaskId) (mode : Mode) :
    Prompted p s (s.settleKey (s.bench.registerSingle signal edge task mode)) := by
  obtain ⟨⟨c, L, _, halike⟩, -⟩ := h.joint
  exact settleKey_prompted hp (registerSingle_agree halike signal edge task mode 0)

/-- **A request besides a wait** never stops on a fault. -/
theorem prompt_prompted (h : s.Sound) (p : Prompt) : Prompted p s (s.prompt p) := by
  cases p with
  | waitNow signal edge task => exact registerSingle_prompted h rfl signal edge task .oneShot
  | watch signal edge task => exact registerSingle_prompted h rfl signal edge task .persistent
  | cancel request =>
    rw [prompt]
    split
    · exact prompted_of_keeps rfl h (.refl _) _
    · obtain ⟨c, L, htracked⟩ := h
      have hside : Side c (fun _ => none) s.bench L := ⟨htracked, fun _ _ => rfl⟩
      obtain ⟨b', heq, hside', hkeeps, -⟩ := cancel_side hside _
      rw [heq]
      exact prompted_of_keeps rfl ⟨c, _, hside'.tracked⟩ hkeeps _
  | schedule time signal value =>
    have hmoved := h.joint.onSim (plain_schedule time signal value)
    exact prompted_of_keeps rfl (sound_of_joint hmoved.joint) (.onSim _ _) _
  | shutdown =>
    obtain ⟨c, L, htracked⟩ := h
    have hside : Side c (fun _ => none) s.bench L := ⟨htracked, fun _ _ => rfl⟩
    obtain ⟨b', heq, hside', hemptied⟩ := shutdown_side hside
    rw [prompt, heq]
    exact ⟨rfl, ⟨c, [], hside'.tracked⟩, hemptied.issued, hemptied.poisoned.trans,
      hemptied.waiting⟩

theorem prompt_grown {issued : List RegistrationKey} (h : s.Grown issued) (p : Prompt) :
    (s.prompt p).Upholds Fault.IsDuplicate (Grown issued) := by
  have hprompted := prompt_prompted h.sound p
  refine ⟨⟨hprompted.sound, h.issued.trans hprompted.issued⟩, fun f hf => ?_⟩
  rw [hprompted.fault] at hf
  cases hf

/-- To record a wait leads to a session in order, unless it is recorded already. -/
theorem addWait_grown {issued : List RegistrationKey} (h : s.Grown issued) (w : Wait SignalId) :
    (s.answer (.addWait w)).Upholds Fault.IsDuplicate (Grown issued) := by
  rw [answer]
  obtain ⟨-, heq⟩ | heq := s.bench.addWait_spec w.signal w.edge w.task
  · rw [heq]
    exact ⟨h, fun f hf => Option.some.inj hf ▸ trivial⟩
  · obtain ⟨c, L, htracked⟩ := h.sound
    rw [heq]
    refine ⟨⟨⟨c, L, htracked.congr rfl rfl rfl⟩, h.issued⟩, fun f hf => ?_⟩
    cases hf

/-- To record a wait goes well unless it is recorded already. -/
theorem ask_addWait {w : Wait SignalId} {rest : List Ask}
    (h : (ask (.addWait w :: rest) s).fault = none) :
    ask (.addWait w :: rest) s = ask rest ⟨s.bench.afterWait w, s.answers⟩ := by
  rw [ask, answer] at h ⊢
  obtain ⟨-, heq⟩ | heq := s.bench.addWait_spec w.signal w.edge w.task
  · rw [heq] at h
    cases h
  · rw [heq]
    rfl

/-- The requests of a round lead to a session in order, unless a wait is recorded twice. -/
theorem ask_grown {issued : List RegistrationKey} (asks : List Ask) (s : Session T)
    (h : s.Grown issued) : (ask asks s).Upholds Fault.IsDuplicate (Grown issued) :=
  ask_upholds (q := fun _ => True) (fun _ w hs => addWait_grown hs w)
    (fun _ p hs _ => prompt_grown hs p) asks (fun _ _ => trivial) s h

/-- What has become of the waits in a round: a poisoned context has stayed poisoned, and each list
holds the waits left over from the round, behind those that it has held unless they are dropped. -/
structure Recorded (asks : List Ask) (s t : Session T) : Prop where
  poisoned : s.bench.mux.isPoisoned = true → t.bench.mux.isPoisoned = true
  waiting : ∀ signal edge, t.bench.mux.pending.waiting signal edge =
    (if drops asks then [] else s.bench.mux.pending.waiting signal edge) ++
      waitingIn (leftOver asks) signal edge

/-- **The requests of a round** leave on record what has been asked for after the last shutdown. -/
theorem ask_recorded (asks : List Ask) :
    ∀ s : Session T, s.Sound → (ask asks s).fault = none → Recorded asks s (ask asks s).session := by
  induction asks with
  | nil => exact fun s _ _ => ⟨id, fun _ _ => (List.append_nil _).symm⟩
  | cons a rest ih =>
    intro s h hfault
    cases a with
    | addWait w =>
      have heq := ask_addWait hfault
      rw [heq] at hfault ⊢
      obtain ⟨c, L, htracked⟩ := h
      obtain ⟨hpoisoned, hwaiting⟩ := ih ⟨s.bench.afterWait w, s.answers⟩
        ⟨c, L, htracked.congr rfl rfl rfl⟩ hfault
      refine ⟨hpoisoned, fun signal edge => ?_⟩
      rw [hwaiting, drops_addWait, leftOver]
      cases drops rest with
      | true => rfl
      | false =>
        rw [if_neg Bool.false_ne_true, if_neg Bool.false_ne_true, if_neg Bool.false_ne_true,
          waitingIn_cons, ← List.append_assoc]
        congr 1
        refine (PendingWaits.waiting_push _ w.signal signal w.edge edge w.task).trans ?_
        split
        · rfl
        · exact (List.append_nil _).symm
    | prompt p =>
      have hprompted := prompt_prompted h p
      rw [ask, answer] at hfault ⊢
      obtain ⟨-, hrest⟩ := Course.no_fault_of_onward hfault
      rw [Course.onward_of_no_fault hprompted.fault]
      obtain ⟨hpoisoned, hwaiting⟩ := ih _ hprompted.sound hrest
      refine ⟨hpoisoned ∘ hprompted.poisoned, fun signal edge => ?_⟩
      rw [hwaiting, hprompted.waiting, drops_prompt, leftOver]
      cases p.drops <;> cases drops rest <;> rfl

/-! ### Two sessions -/

/-- Two sessions are alike, but for the waits on record: their contexts are, and the same requests
have been issued keys. -/
structure Akin (s₁ s₂ : Session T) : Prop where
  alike : ∃ label₁ label₂ c L₁ L₂, Alike c label₁ label₂ s₁.bench L₁ s₂.bench L₂ ∧
    Answered label₁ s₁ ∧ Answered label₂ s₂
  answers : s₁.answers.map (·.isSome) = s₂.answers.map (·.isSome)

theorem Akin.sound₁ (h : Akin s₁ s₂) : s₁.Sound := by
  obtain ⟨label₁, label₂, c, L₁, L₂, halike, -⟩ := h.alike
  exact ⟨c, L₁, halike.left.tracked⟩

theorem Akin.sound₂ (h : Akin s₁ s₂) : s₂.Sound := by
  obtain ⟨label₁, label₂, c, L₁, L₂, halike, -⟩ := h.alike
  exact ⟨c, L₂, halike.right.tracked⟩

theorem Akin.length_answers (h : Akin s₁ s₂) : s₁.answers.length = s₂.answers.length := by
  simpa using congrArg List.length h.answers

/-- The same requests have been issued keys. -/
theorem isSome_join_eq (h : s₁.answers.map (·.isSome) = s₂.answers.map (·.isSome))
    (request : Nat) :
    s₁.answers[request]?.join.isSome = s₂.answers[request]?.join.isSome := by
  have hat := congrArg (·[request]?) h
  simp only [List.getElem?_map] at hat
  cases h₁ : s₁.answers[request]? <;> cases h₂ : s₂.answers[request]? <;> simp_all

theorem settleKey_akin (h : Akin s₁ s₂) (signal : SignalId) (edge : Edge) (task : TaskId)
    (mode : Mode) :
    ∃ replies t₁ t₂, s₁.settleKey (s₁.bench.registerSingle signal edge task mode) =
        ⟨replies, t₁, none⟩ ∧
      s₂.settleKey (s₂.bench.registerSingle signal edge task mode) = ⟨replies, t₂, none⟩ ∧
      Akin t₁ t₂ := by
  obtain ⟨label₁, label₂, c, L₁, L₂, halike, hanswered₁, hanswered₂⟩ := h.alike
  have hresult := registerSingle_agree halike signal edge task mode s₁.answers.length
  generalize s₁.bench.registerSingle signal edge task mode = o₁ at hresult ⊢
  generalize s₂.bench.registerSingle signal edge task mode = o₂ at hresult ⊢
  cases hresult with
  | failed e b₁ b₂ hkeeps₁ hkeeps₂ halike' =>
    refine ⟨_, s₁.next b₁ none, s₂.next b₂ none, rfl, rfl,
      ⟨⟨label₁, label₂, c, L₁, L₂, halike', ?_, ?_⟩, ?_⟩⟩
    · exact answered_next_none halike.left.unlabelled hkeeps₁.issued hanswered₁
    · exact answered_next_none halike.right.unlabelled hkeeps₂.issued hanswered₂
    · rw [next, next, List.map_append, List.map_append, h.answers]
  | done e₁ e₂ b₁ b₂ hkeeps₁ hkeeps₂ hlater₁ hissued₁ hlater₂ hissued₂ halike' =>
    -- the label of both registrations is the number of the request, which is the same
    refine ⟨_, s₁.next b₁ (some e₁.key), s₂.next b₂ (some e₂.key), rfl, rfl,
      ⟨⟨_, _, c, _, _, halike', ?_, ?_⟩, ?_⟩⟩
    · exact answered_next_some halike.left.unlabelled hkeeps₁.issued hanswered₁ hlater₁ hissued₁
    · rw [h.length_answers]
      exact answered_next_some halike.right.unlabelled hkeeps₂.issued hanswered₂ hlater₂ hissued₂
    · rw [next, next, List.map_append, List.map_append, h.answers]
      rfl

/-- Whether a change can be scheduled depends on the time alone. -/
theorem scheduled_eq {sim sim' : Sim} (h : sim.now = sim'.now) (time : SimTime) (signal : SignalId)
    (value : Logic) : sim.scheduled time signal value = sim'.scheduled time signal value := by
  rw [Sim.scheduled, Sim.scheduled, Sim.schedule, Sim.schedule, h]
  by_cases hpast : time.fs < sim'.now.fs
  · rw [if_pos hpast, if_pos hpast]
  · rw [if_neg hpast, if_neg hpast]

/-- **A request** comes to the same in both sessions. -/
theorem prompt_akin (h : Akin s₁ s₂) (hnodup₁ : s₁.bench.log.issued.Nodup)
    (hnodup₂ : s₂.bench.log.issued.Nodup) (p : Prompt) :
    ∃ replies t₁ t₂, s₁.prompt p = ⟨replies, t₁, none⟩ ∧ s₂.prompt p = ⟨replies, t₂, none⟩ ∧
      Akin t₁ t₂ := by
  cases p with
  | waitNow signal edge task => exact settleKey_akin h signal edge task .oneShot
  | watch signal edge task => exact settleKey_akin h signal edge task .persistent
  | cancel request =>
    have hsome := isSome_join_eq h.answers request
    rw [prompt, prompt]
    cases hkey₁ : s₁.answers[request]?.join with
    | none =>
      rw [hkey₁, Option.isSome_none, eq_comm, Option.isSome_eq_false_iff,
        Option.isNone_iff_eq_none] at hsome
      rw [hsome]
      exact ⟨_, s₁, s₂, rfl, rfl, h⟩
    | some key₁ =>
      rw [hkey₁, Option.isSome_some, eq_comm, Option.isSome_iff_exists] at hsome
      obtain ⟨key₂, hkey₂⟩ := hsome
      rw [hkey₂]
      obtain ⟨label₁, label₂, c, L₁, L₂, halike, hanswered₁, hanswered₂⟩ := h.alike
      -- each key is that of the registration that the request has made in its session
      obtain ⟨found, b₁, b₂, heq₁, heq₂, hkeeps₁, hkeeps₂, L₁', L₂', halike'⟩ := cancel_agree halike
        (fun e he => hanswered₁.label_eq_iff halike.left.tracked.extra.1.numbered.issued_at hnodup₁
          hkey₁ he)
        (fun e he => hanswered₂.label_eq_iff halike.right.tracked.extra.1.numbered.issued_at hnodup₂
          hkey₂ he)
      refine ⟨_, ⟨b₁, s₁.answers⟩, ⟨b₂, s₂.answers⟩, by simp only [heq₁]; rfl,
        by simp only [heq₂]; rfl, ⟨⟨label₁, label₂, c, L₁', L₂', halike', ?_, ?_⟩, h.answers⟩⟩
      · exact hanswered₁.of_prefix halike.left.unlabelled hkeeps₁.issued
      · exact hanswered₂.of_prefix halike.right.unlabelled hkeeps₂.issued
  | schedule time signal value =>
    obtain ⟨label₁, label₂, c, L₁, L₂, halike, hanswered₁, hanswered₂⟩ := h.alike
    have hworld₁ := halike.left.tracked.carries.extra.world
    have hworld₂ := halike.right.tracked.carries.extra.world
    have hreply := scheduled_eq (hworld₁.now.trans hworld₂.now.symm) time signal value
    rw [prompt, prompt, hreply]
    exact ⟨_, _, _, rfl, rfl, ⟨⟨label₁, label₂, _, L₁, L₂,
      halike.onSim (plain_schedule time signal value), hanswered₁, hanswered₂⟩, h.answers⟩⟩
  | shutdown =>
    obtain ⟨label₁, label₂, c, L₁, L₂, halike, hanswered₁, hanswered₂⟩ := h.alike
    obtain ⟨count, b₁, b₂, heq₁, heq₂, hemptied₁, hemptied₂, halike'⟩ := shutdown_agree halike
    rw [prompt, prompt, heq₁, heq₂]
    refine ⟨_, ⟨b₁, s₁.answers⟩, ⟨b₂, s₂.answers⟩, rfl, rfl,
      ⟨⟨label₁, label₂, c, [], [], halike', ?_, ?_⟩, h.answers⟩⟩
    · exact hanswered₁.of_prefix halike.left.unlabelled hemptied₁.issued
    · exact hanswered₂.of_prefix halike.right.unlabelled hemptied₂.issued

/-! ### Waits in another order -/

/-- Two lists have the same requests besides waits. -/
inductive Interleaved : List Ask → List Ask → Prop where
  | nil : Interleaved [] []
  | left (w : Wait SignalId) {asks₁ asks₂ : List Ask} (rest : Interleaved asks₁ asks₂) :
      Interleaved (.addWait w :: asks₁) asks₂
  | right (w : Wait SignalId) {asks₁ asks₂ : List Ask} (rest : Interleaved asks₁ asks₂) :
      Interleaved asks₁ (.addWait w :: asks₂)
  | both (p : Prompt) {asks₁ asks₂ : List Ask} (rest : Interleaved asks₁ asks₂) :
      Interleaved (.prompt p :: asks₁) (.prompt p :: asks₂)

theorem interleaved_of_prompts (asks₁ : List Ask) :
    ∀ asks₂, prompts asks₁ = prompts asks₂ → Interleaved asks₁ asks₂ := by
  induction asks₁ with
  | nil =>
    intro asks₂ h
    induction asks₂ with
    | nil => exact .nil
    | cons a rest₂ ih₂ =>
      cases a with
      | addWait w => exact .right w (ih₂ h)
      | prompt p => cases h
  | cons a rest₁ ih₁ =>
    cases a with
    | addWait w => exact fun asks₂ h => .left w (ih₁ asks₂ h)
    | prompt p =>
      -- the waits that come first in the other list go by
      intro asks₂ h
      induction asks₂ with
      | nil => cases h
      | cons a rest₂ ih₂ =>
        cases a with
        | addWait w => exact .right w (ih₂ h)
        | prompt p' =>
          obtain ⟨rfl, hrest⟩ := List.cons.inj h
          exact .both p (ih₁ rest₂ hrest)

theorem sameCore_afterWait (b : SimBench (SchedulerRecord T)) (w : Wait SignalId) :
    SameCore b (b.afterWait w) :=
  ⟨rfl, rfl, rfl, rfl, rfl, rfl, rfl⟩

theorem Akin.afterWait_left (h : Akin s₁ s₂) (w : Wait SignalId) :
    Akin ⟨s₁.bench.afterWait w, s₁.answers⟩ s₂ := by
  obtain ⟨label₁, label₂, c, L₁, L₂, halike, hanswered₁, hanswered₂⟩ := h.alike
  exact ⟨⟨label₁, label₂, c, L₁, L₂, halike.congr (sameCore_afterWait _ w) (.refl _), hanswered₁,
    hanswered₂⟩, h.answers⟩

theorem Akin.afterWait_right (h : Akin s₁ s₂) (w : Wait SignalId) :
    Akin s₁ ⟨s₂.bench.afterWait w, s₂.answers⟩ := by
  obtain ⟨label₁, label₂, c, L₁, L₂, halike, hanswered₁, hanswered₂⟩ := h.alike
  exact ⟨⟨label₁, label₂, c, L₁, L₂, halike.congr (.refl _) (sameCore_afterWait _ w), hanswered₁,
    hanswered₂⟩, h.answers⟩

/-- **The requests of a round** come to the same in both sessions, however the waits have been
interleaved. -/
theorem ask_akin {asks₁ asks₂ : List Ask} (hasks : Interleaved asks₁ asks₂) :
    ∀ s₁ s₂ : Session T, Akin s₁ s₂ → (ask asks₁ s₁).fault = none → (ask asks₂ s₂).fault = none →
      (ask asks₁ s₁).session.bench.log.issued.Nodup →
      (ask asks₂ s₂).session.bench.log.issued.Nodup →
      (ask asks₁ s₁).replies = (ask asks₂ s₂).replies ∧
        Akin (ask asks₁ s₁).session (ask asks₂ s₂).session := by
  induction hasks with
  | nil => exact fun s₁ s₂ h _ _ _ _ => ⟨rfl, h⟩
  | left w rest ih =>
    intro s₁ s₂ h hfault₁ hfault₂ hnodup₁ hnodup₂
    have heq := ask_addWait hfault₁
    rw [heq] at hfault₁ hnodup₁ ⊢
    exact ih _ s₂ (h.afterWait_left w) hfault₁ hfault₂ hnodup₁ hnodup₂
  | right w rest ih =>
    intro s₁ s₂ h hfault₁ hfault₂ hnodup₁ hnodup₂
    have heq := ask_addWait hfault₂
    rw [heq] at hfault₂ hnodup₂ ⊢
    exact ih s₁ _ (h.afterWait_right w) hfault₁ hfault₂ hnodup₁ hnodup₂
  | both p rest ih =>
    intro s₁ s₂ h hfault₁ hfault₂ hnodup₁ hnodup₂
    -- the keys issued by now are among those of the end
    have hbefore₁ : s₁.bench.log.issued.Nodup :=
      hnodup₁.sublist (ask_grown _ s₁ h.sound₁.grown).session.issued.sublist
    have hbefore₂ : s₂.bench.log.issued.Nodup :=
      hnodup₂.sublist (ask_grown _ s₂ h.sound₂.grown).session.issued.sublist
    obtain ⟨replies, t₁, t₂, heq₁, heq₂, hakin⟩ := prompt_akin h hbefore₁ hbefore₂ p
    simp only [ask, answer, heq₁] at hfault₁ hnodup₁ ⊢
    simp only [ask, answer, heq₂] at hfault₂ hnodup₂ ⊢
    rw [Course.onward_of_no_fault rfl] at hfault₁ hnodup₁ ⊢
    rw [Course.onward_of_no_fault rfl] at hfault₂ hnodup₂ ⊢
    obtain ⟨hreplies, hend⟩ := ih t₁ t₂ hakin hfault₁ hfault₂ hnodup₁ hnodup₂
    exact ⟨congrArg (replies ++ ·) hreplies, hend⟩

end Session

end EdgeWait
