/-
A table of slots through any changes: which key finds what, and when a key can come back.

* `get?_after` — a key finds exactly what was last inserted under it and not erased since;
* `live_after` — the number of values is that of the live keys;
* `slot?_after` — the generation of a slot tells how often it has been erased, up to wrapping around;
* `reuses_spec` — a slot that is erased and filled in turn comes back to any of its keys;
* `recycling_after` — all of this for a table that never holds as many values as there are indices.

Design notes: the values are counted by the table itself, and the bound is on this count at every
point of the history (`Bounded`).  It is what an index can name, and has nothing to do with how often
slots are reused.  What is counted for a key are the erasures in its slot that found a value
(`erasures`); others leave the table as it is.
-/
import EdgeWait.Proofs.Slots
import Mathlib.Data.List.Induction

namespace EdgeWait

/-- A change of a table. -/
inductive TableChange (α : Type) where
  | insert (a : α)
  | erase (key : SlotKey)

namespace SlotMap

variable {α : Type}

/-- The table after a change. To erase a key that is not live changes nothing. -/
def apply (m : SlotMap α) : TableChange α → SlotMap α
  | .insert a => (m.insert a).2
  | .erase key =>
    match m.erase? key with
    | some (_, m') => m'
    | none => m

/-- The table after some changes, in turn. -/
def after (changes : List (TableChange α)) (m : SlotMap α) : SlotMap α :=
  changes.foldl apply m

/-- The table never holds as many values as there are indices. -/
def Bounded : List (TableChange α) → SlotMap α → Prop
  | [], m => m.live < 2 ^ 32
  | c :: rest, m => m.live < 2 ^ 32 ∧ Bounded rest (m.apply c)

instance decidableBounded :
    (changes : List (TableChange α)) → (m : SlotMap α) → Decidable (Bounded changes m)
  | [], m => inferInstanceAs (Decidable (m.live < 2 ^ 32))
  | c :: rest, m =>
    have := decidableBounded rest (m.apply c)
    inferInstanceAs (Decidable (m.live < 2 ^ 32 ∧ Bounded rest (m.apply c)))

/-- How often a value is taken out of a slot. -/
def erasures (index : UInt32) : List (TableChange α) → SlotMap α → Nat
  | [], _ => 0
  | .insert a :: rest, m => erasures index rest (m.insert a).2
  | .erase key :: rest, m =>
    (if key.index = index ∧ m.contains key = true then 1 else 0) +
      erasures index rest (m.apply (.erase key))

/-- A value was inserted under a key, and the key has not been erased since. -/
def Holds (changes : List (TableChange α)) (key : SlotKey) (a : α) : Prop :=
  ∃ pre post, changes = pre ++ .insert a :: post ∧ ((after pre empty).insert a).1 = key ∧
    .erase key ∉ post

/-! ### One change -/

theorem after_append (pre post : List (TableChange α)) (m : SlotMap α) :
    after (pre ++ post) m = after post (after pre m) :=
  List.foldl_append

theorem bounded_append {pre post : List (TableChange α)} :
    ∀ {m : SlotMap α}, Bounded (pre ++ post) m ↔ Bounded pre m ∧ Bounded post (after pre m) := by
  induction pre with
  | nil =>
    intro m
    refine ⟨fun h => ⟨?_, h⟩, fun h => h.2⟩
    cases post with
    | nil => exact h
    | cons c rest => exact h.1
  | cons c rest ih =>
    intro m
    show m.live < 2 ^ 32 ∧ Bounded (rest ++ post) (m.apply c) ↔ _
    rw [ih, ← and_assoc]
    rfl

theorem Bounded.live_after_lt {changes : List (TableChange α)} {m : SlotMap α}
    (h : Bounded changes m) : (after changes m).live < 2 ^ 32 := by
  rw [← List.append_nil changes] at h
  exact (bounded_append.mp h).2

/-- As long as there are fewer values than indices, an index can name the next slot. -/
theorem room_of_live {m : SlotMap α} (h : m.Valid) (hlive : m.live < 2 ^ 32)
    (hfree : m.free = []) : m.slots.size < 2 ^ 32 := by
  have hsize := h.size_eq
  rw [hfree, List.length_nil] at hsize
  omega

theorem apply_erase_of_live {m : SlotMap α} {key : SlotKey} {a : α} (hk : m.get? key = some a) :
    m.apply (.erase key) = m.erase key := by
  simp [apply, erase?_eq, hk]

theorem apply_erase_of_not_live {m : SlotMap α} {key : SlotKey} (hk : m.get? key = none) :
    m.apply (.erase key) = m := by
  simp [apply, erase?_eq, hk]

/-- After an erasure the erased key finds nothing, and every other key what it found before. -/
theorem get?_apply_erase (m : SlotMap α) (key k : SlotKey) :
    (m.apply (.erase key)).get? k = if k = key then none else m.get? k := by
  cases hk : m.get? key with
  | none =>
    rw [apply_erase_of_not_live hk]
    by_cases hkk : k = key
    · rw [if_pos hkk, hkk, hk]
    · rw [if_neg hkk]
  | some a => rw [apply_erase_of_live hk, get?_erase hk]

theorem apply_valid {m : SlotMap α} (h : m.Valid) (hlive : m.live < 2 ^ 32)
    (c : TableChange α) : (m.apply c).Valid := by
  cases c with
  | insert a => exact insert_valid h (room_of_live h hlive) a
  | erase key =>
    cases hk : m.get? key with
    | none => rwa [apply_erase_of_not_live hk]
    | some a =>
      rw [apply_erase_of_live hk]
      exact erase_valid h hk

theorem valid_after (changes : List (TableChange α)) :
    ∀ {m : SlotMap α}, m.Valid → Bounded changes m → (after changes m).Valid := by
  induction changes with
  | nil => exact fun h _ => h
  | cons c rest ih => exact fun h hb => ih (apply_valid h hb.1 c) hb.2

/-! ### What the keys find -/

/-- What is held after one more change. -/
theorem holds_concat {changes : List (TableChange α)} {c : TableChange α} {key : SlotKey} {a : α} :
    Holds (changes ++ [c]) key a ↔
      c = .insert a ∧ ((after changes empty).insert a).1 = key ∨
        Holds changes key a ∧ c ≠ .erase key := by
  constructor
  · rintro ⟨pre, post, hsplit, hkey, hpost⟩
    rcases List.eq_nil_or_concat post with rfl | ⟨post, d, rfl⟩
    · obtain ⟨rfl, hc⟩ := List.append_inj' hsplit rfl
      exact .inl ⟨(List.cons.inj hc).1, hkey⟩
    · rw [List.concat_eq_append] at hsplit hpost
      obtain ⟨rfl, hc⟩ : changes = pre ++ .insert a :: post ∧ [c] = [d] :=
        List.append_inj' (by simpa using hsplit) rfl
      obtain rfl := (List.cons.inj hc).1
      rw [List.mem_append, List.mem_singleton, not_or] at hpost
      exact .inr ⟨⟨pre, post, rfl, hkey, hpost.1⟩, Ne.symm hpost.2⟩
  · rintro (⟨rfl, hkey⟩ | ⟨⟨pre, post, rfl, hkey, hpost⟩, hc⟩)
    · exact ⟨changes, [], rfl, hkey, List.not_mem_nil⟩
    · refine ⟨pre, post ++ [c], by simp, hkey, ?_⟩
      rw [List.mem_append, List.mem_singleton, not_or]
      exact ⟨hpost, Ne.symm hc⟩

/-- **A key finds what was inserted under it**, until it is erased. -/
theorem get?_after (changes : List (TableChange α)) (hb : Bounded changes empty) (key : SlotKey)
    (a : α) : (after changes empty).get? key = some a ↔ Holds changes key a := by
  induction changes using List.reverseRecOn with
  | nil =>
    refine ⟨fun h => absurd h (by simp [after]), ?_⟩
    rintro ⟨pre, post, hsplit, -⟩
    exact absurd hsplit (by simp)
  | append_singleton changes c ih =>
    obtain ⟨hb, hlast⟩ := bounded_append.mp hb
    have hvalid := valid_after changes valid_empty hb
    have hroom := room_of_live hvalid hlast.1
    rw [after_append, holds_concat, ← ih hb]
    cases c with
    | insert b =>
      show ((after changes empty).insert b).2.get? key = some a ↔ _
      rw [get?_insert hvalid hroom]
      by_cases hkey : key = ((after changes empty).insert b).1
      · -- the issued key found nothing before
        have hnone := get?_insert_key hvalid hroom b
        rw [← hkey] at hnone
        rw [if_pos hkey, hnone]
        constructor
        · intro h
          obtain rfl := Option.some.inj h
          exact .inl ⟨rfl, hkey.symm⟩
        · rintro (⟨hc, -⟩ | ⟨h, -⟩)
          · exact congrArg some (TableChange.insert.inj hc)
          · exact absurd h (by simp)
      · rw [if_neg hkey]
        constructor
        · exact fun h => .inr ⟨h, by simp⟩
        · rintro (⟨hc, hk⟩ | ⟨h, -⟩)
          · obtain rfl := TableChange.insert.inj hc
            exact absurd hk.symm hkey
          · exact h
    | erase k =>
      show ((after changes empty).apply (.erase k)).get? key = some a ↔ _
      rw [get?_apply_erase]
      by_cases hkey : key = k
      · simp [hkey]
      · simp [hkey, Ne.symm hkey]

/-! ### The number of values -/

theorem keys_insert_perm {m : SlotMap α} (h : m.Valid)
    (hroom : m.free = [] → m.slots.size < 2 ^ 32) (a : α) :
    (m.insert a).2.keys.Perm ((m.insert a).1 :: m.keys) := by
  have hvalid := insert_valid h hroom a
  have hnew : (m.insert a).1 ∉ m.keys := by
    rw [mem_keys_iff h, get?_insert_key h hroom]
    simp
  refine (List.perm_ext_iff_of_nodup (nodup_keys hvalid)
    (List.nodup_cons.mpr ⟨hnew, nodup_keys h⟩)).mpr fun k => ?_
  rw [mem_keys_iff hvalid, List.mem_cons, mem_keys_iff h, get?_insert h hroom]
  by_cases hk : k = (m.insert a).1 <;> simp [hk]

theorem keys_erase_perm {m : SlotMap α} (h : m.Valid) {key : SlotKey} {a : α}
    (hk : m.get? key = some a) : m.keys.Perm (key :: (m.erase key).keys) := by
  have hvalid := erase_valid h hk
  have hgone : key ∉ (m.erase key).keys := by
    rw [mem_keys_iff hvalid, get?_erase hk]
    simp
  refine (List.perm_ext_iff_of_nodup (nodup_keys h)
    (List.nodup_cons.mpr ⟨hgone, nodup_keys hvalid⟩)).mpr fun k => ?_
  rw [mem_keys_iff h, List.mem_cons, mem_keys_iff hvalid, get?_erase hk]
  by_cases hkk : k = key <;> simp [hkk, hk]

/-- **The size of a table** is the number of its live keys. -/
theorem live_after (changes : List (TableChange α)) :
    ∀ {m : SlotMap α}, m.Valid → Bounded changes m → m.live = m.keys.length →
      (after changes m).live = (after changes m).keys.length := by
  induction changes with
  | nil => exact fun _ _ hlive => hlive
  | cons c rest ih =>
    intro m h hb hlive
    refine ih (apply_valid h hb.1 c) hb.2 ?_
    cases c with
    | insert a =>
      show (m.insert a).2.live = (m.insert a).2.keys.length
      have hlen := (keys_insert_perm h (room_of_live h hb.1) a).length_eq
      rw [live_insert, hlen, List.length_cons, hlive]
    | erase key =>
      cases hk : m.get? key with
      | none => rwa [apply_erase_of_not_live hk]
      | some a =>
        have hlen := (keys_erase_perm h hk).length_eq
        rw [List.length_cons] at hlen
        rw [apply_erase_of_live hk, live_erase]
        omega

/-! ### Generations -/

/-- **The generation of a slot** goes on by one with each value that is taken out, and a value stays
until then. -/
theorem slot?_after (i : UInt32) (changes : List (TableChange α)) :
    ∀ {m : SlotMap α} {g : UInt32} {e : Option α}, m.Valid → Bounded changes m →
      m.slot? i = some ⟨g, e⟩ → ∃ e', (after changes m).slot? i =
        some ⟨g + UInt32.ofNat (erasures i changes m), e'⟩ := by
  induction changes with
  | nil =>
    intro m g e _ _ hs
    exact ⟨e, by simpa [erasures, after] using hs⟩
  | cons c rest ih =>
    intro m g e h hb hs
    have hvalid := apply_valid h hb.1 c
    cases c with
    | insert a =>
      -- an insertion may fill the slot, but does not change its generation
      have hslot : ∃ e', (m.insert a).2.slot? i = some ⟨g, e'⟩ := by
        rw [slot?_insert h (room_of_live h hb.1)]
        by_cases hi : i = (m.insert a).1.index
        · rw [if_pos hi]
          rcases slot?_insert_key h (room_of_live h hb.1) a with hkey | ⟨hkey, -⟩
          · rw [← hi, hs] at hkey
            exact ⟨some a, by rw [(Slot.mk.inj (Option.some.inj hkey)).1]⟩
          · rw [← hi, hs] at hkey
            cases hkey
        · exact ⟨e, by rw [if_neg hi, hs]⟩
      obtain ⟨e', hslot⟩ := hslot
      exact ih hvalid hb.2 hslot
    | erase key =>
      show ∃ e', (after rest (m.apply (.erase key))).slot? i = _
      rw [erasures]
      cases hk : m.get? key with
      | none =>
        have hcontains : m.contains key = false := by simp [contains, hk]
        obtain ⟨e', hafter⟩ := ih hvalid hb.2 ((apply_erase_of_not_live hk).symm ▸ hs)
        exact ⟨e', by simpa [hcontains] using hafter⟩
      | some a =>
        have hcontains : m.contains key = true := by simp [contains, hk]
        by_cases hi : i = key.index
        · have hslot : (m.apply (.erase key)).slot? i = some ⟨g + 1, none⟩ := by
            have hkey := get?_eq_some_iff.mp hk
            rw [← hi, hs] at hkey
            rw [apply_erase_of_live hk, slot?_erase hk, if_pos hi,
              (Slot.mk.inj (Option.some.inj hkey)).1]
          obtain ⟨e', hafter⟩ := ih hvalid hb.2 hslot
          refine ⟨e', ?_⟩
          rw [hafter, if_pos ⟨hi.symm, hcontains⟩, UInt32.ofNat_add, UInt32.add_assoc]
          rfl
        · have hslot : (m.apply (.erase key)).slot? i = some ⟨g, e⟩ := by
            rw [apply_erase_of_live hk, slot?_erase hk, if_neg hi, hs]
          obtain ⟨e', hafter⟩ := ih hvalid hb.2 hslot
          refine ⟨e', ?_⟩
          rw [hafter, if_neg fun hc => hi hc.1.symm, Nat.zero_add]

/-- The key that is issued next for a slot has the generation of the slot. -/
theorem generation_insert {m : SlotMap α} {b : α} {g : UInt32} {e : Option α} (h : m.Valid)
    (hroom : m.free = [] → m.slots.size < 2 ^ 32)
    (hs : m.slot? (m.insert b).1.index = some ⟨g, e⟩) : (m.insert b).1.generation = g := by
  rcases slot?_insert_key h hroom b with hkey | ⟨hkey, -⟩
  · rw [hs] at hkey
    exact (Slot.mk.inj (Option.some.inj hkey)).1.symm
  · rw [hs] at hkey
    cases hkey

theorem generation_ne {g : UInt32} {n : Nat} (hpos : 0 < n) (hlt : n < 2 ^ 32) :
    g + UInt32.ofNat n ≠ g := by
  intro h
  have hnat := congrArg UInt32.toNat h
  rw [UInt32.toNat_add, UInt32.toNat_ofNat'] at hnat
  have hg := g.toNat_lt
  omega

theorem generation_wraps (g : UInt32) : g + UInt32.ofNat (2 ^ 32) = g := by
  rw [show UInt32.ofNat (2 ^ 32) = 0 from rfl, UInt32.add_zero]

/-- Whoever erases a live key takes a value out of its slot. -/
theorem erasures_pos {key : SlotKey} (changes : List (TableChange α)) :
    ∀ {m : SlotMap α} {a : α}, m.Valid → Bounded changes m → m.get? key = some a →
      .erase key ∈ changes → 0 < erasures key.index changes m := by
  induction changes with
  | nil => exact fun _ _ _ hmem => absurd hmem List.not_mem_nil
  | cons c rest ih =>
    intro m a h hb hk hmem
    have hvalid := apply_valid h hb.1 c
    cases c with
    -- to insert leaves the value under `key` where it is, for no live key is issued again
    | insert b =>
      have hmem : .erase key ∈ rest := by simpa using hmem
      have hroom := room_of_live h hb.1
      refine ih (a := a) hvalid hb.2 ?_ hmem
      show (m.insert b).2.get? key = some a
      rw [get?_insert h hroom, if_neg, hk]
      intro hc
      rw [hc, get?_insert_key h hroom] at hk
      cases hk
    | erase k =>
      rw [erasures]
      by_cases hkey : k = key
      · have hcontains : m.contains key = true := by simp [contains, hk]
        rw [hkey, if_pos ⟨rfl, hcontains⟩]
        omega
      · have hmem : .erase key ∈ rest := by simpa [Ne.symm hkey] using hmem
        have hrest := ih hvalid hb.2 (by rw [get?_apply_erase, if_neg (Ne.symm hkey), hk]) hmem
        omega

/-! ### A slot used over and over -/

/-- Erases a key and the keys that its slot issues for some values after it, so many and one. -/
def reuses (a : α) (key : SlotKey) : Nat → List (TableChange α)
  | 0 => [.erase key]
  | n + 1 => .erase key :: .insert a :: reuses a ⟨key.index, key.generation + 1⟩ n

/-- The slot of the value that was taken out last is the next one to be used. -/
theorem insert_erase {m : SlotMap α} {key : SlotKey} {a : α} (hk : m.get? key = some a) (b : α) :
    ((m.erase key).insert b).1 = ⟨key.index, key.generation + 1⟩ := by
  have hslot : (m.erase key).slot? key.index = some ⟨key.generation + 1, none⟩ := by
    rw [slot?_erase hk, if_pos rfl]
  have hfree : (m.erase key).free = key.index :: m.free := rfl
  rw [insert, hfree]
  simp [hslot]

/-- **A slot that is erased and filled in turn** is erased as often as it is meant to be, and is the
next to be used in the end; the table never gets larger by it. -/
theorem reuses_spec (a : α) (n : Nat) : ∀ {m : SlotMap α} {key : SlotKey} {x : α}, m.Valid →
    m.live < 2 ^ 32 → m.get? key = some x → Bounded (reuses a key n) m ∧
      erasures key.index (reuses a key n) m = n + 1 ∧
      ∀ b, ((after (reuses a key n) m).insert b).1.index = key.index := by
  induction n with
  | zero =>
    intro m key x h hlive hk
    have hcontains : m.contains key = true := by simp [contains, hk]
    refine ⟨⟨hlive, ?_⟩, by simp [reuses, erasures, hcontains], fun b => ?_⟩
    · show (m.apply (.erase key)).live < 2 ^ 32
      rw [apply_erase_of_live hk, live_erase]
      omega
    · show ((m.apply (.erase key)).insert b).1.index = key.index
      rw [apply_erase_of_live hk, insert_erase hk]
  | succ n ih =>
    intro m key x h hlive hk
    have hcontains : m.contains key = true := by simp [contains, hk]
    have herased := erase_valid h hk
    have hless : (m.erase key).live < 2 ^ 32 := by
      rw [live_erase]
      omega
    have hroom := room_of_live herased hless
    have hfilled := insert_valid herased hroom a
    -- the slot that has been freed is the next to be filled, under its next generation
    have hissued := insert_erase hk a
    have hfound : ((m.erase key).insert a).2.get? ⟨key.index, key.generation + 1⟩ = some a := by
      rw [get?_insert herased hroom, if_pos hissued.symm]
    have hsame : ((m.erase key).insert a).2.live < 2 ^ 32 := by
      have hpos := live_pos h hk
      rw [live_insert, live_erase]
      omega
    obtain ⟨hbounded, hcount, hnext⟩ := ih hfilled hsame hfound
    refine ⟨⟨hlive, ?_⟩, ?_, ?_⟩
    · rw [apply_erase_of_live hk]
      exact ⟨hless, hbounded⟩
    · rw [reuses, erasures, apply_erase_of_live hk, erasures, hcount, if_pos ⟨rfl, hcontains⟩]
      omega
    · intro b
      show ((after (reuses a _ n) ((m.apply (.erase key)).insert a).2).insert b).1.index = _
      rw [apply_erase_of_live hk]
      exact hnext b

/-! ### The account -/

/-- The key that is issued for a value which is inserted after some changes to an empty table. -/
def issuedFor (pre : List (TableChange α)) (a : α) : SlotKey := ((after pre empty).insert a).1

/-- A value that was put into the table: its slot is at the generation of its key until it is taken
out, and then as far on as values have been taken out. -/
theorem slot?_of_issued {pre post : List (TableChange α)} {a : α}
    (hb : Bounded (pre ++ .insert a :: post) empty) :
    ∃ e, (after (pre ++ .insert a :: post) empty).slot? (issuedFor pre a).index =
      some ⟨(issuedFor pre a).generation + UInt32.ofNat (erasures (issuedFor pre a).index post
        ((after pre empty).insert a).2), e⟩ := by
  obtain ⟨hpre, hlive, hpost⟩ := bounded_append.mp hb
  have hvalid := valid_after pre valid_empty hpre
  have hroom := room_of_live hvalid hlive
  have hslot : ((after pre empty).insert a).2.slot? (issuedFor pre a).index =
      some ⟨(issuedFor pre a).generation, some a⟩ := by
    rw [slot?_insert hvalid hroom, issuedFor, if_pos rfl]
  rw [after_append]
  exact slot?_after _ post (insert_valid hvalid hroom a) hpost hslot

theorem erasures_of_issued {pre post : List (TableChange α)} {a : α}
    (hb : Bounded (pre ++ .insert a :: post) empty) (herased : .erase (issuedFor pre a) ∈ post) :
    0 < erasures (issuedFor pre a).index post ((after pre empty).insert a).2 := by
  obtain ⟨hpre, hlive, hpost⟩ := bounded_append.mp hb
  have hvalid := valid_after pre valid_empty hpre
  have hroom := room_of_live hvalid hlive
  refine erasures_pos post (insert_valid hvalid hroom a) hpost (a := a) ?_ herased
  rw [get?_insert hvalid hroom, issuedFor, if_pos rfl]

/-- **An erased key stays without a value** and is not issued again, while the generations of its slot
have not run out. -/
theorem stale_of_issued {pre post : List (TableChange α)} {a : α}
    (hb : Bounded (pre ++ .insert a :: post) empty) (herased : .erase (issuedFor pre a) ∈ post)
    (hfew : erasures (issuedFor pre a).index post ((after pre empty).insert a).2 < 2 ^ 32) :
    (after (pre ++ .insert a :: post) empty).get? (issuedFor pre a) = none ∧
      ∀ b, ((after (pre ++ .insert a :: post) empty).insert b).1 ≠ issuedFor pre a := by
  have hvalid := valid_after _ valid_empty hb
  have hroom := room_of_live hvalid hb.live_after_lt
  obtain ⟨e, hslot⟩ := slot?_of_issued hb
  have hne := generation_ne (g := (issuedFor pre a).generation) (erasures_of_issued hb herased) hfew
  refine ⟨by simp [get?, hslot, hne], fun b hkey => hne ?_⟩
  rw [← hkey] at hslot ⊢
  exact (generation_insert hvalid hroom hslot).symm

/-- When the generations of a slot have run out just once, a value that goes into the slot is found
under the old key. -/
theorem reissued_of_issued {pre post : List (TableChange α)} {a : α}
    (hb : Bounded (pre ++ .insert a :: post) empty)
    (hall : erasures (issuedFor pre a).index post ((after pre empty).insert a).2 = 2 ^ 32) {b : α}
    (hindex : ((after (pre ++ .insert a :: post) empty).insert b).1.index =
      (issuedFor pre a).index) :
    ((after (pre ++ .insert a :: post) empty).insert b).1 = issuedFor pre a ∧
      ((after (pre ++ .insert a :: post) empty).insert b).2.get? (issuedFor pre a) = some b := by
  have hvalid := valid_after _ valid_empty hb
  have hroom := room_of_live hvalid hb.live_after_lt
  obtain ⟨e, hslot⟩ := slot?_of_issued hb
  rw [hall, generation_wraps, ← hindex] at hslot
  have hkey := SlotKey.eq_of_parts hindex (generation_insert hvalid hroom hslot)
  exact ⟨hkey, by rw [get?_insert hvalid hroom, if_pos hkey.symm]⟩

/-- **Every live key can come back**: its slot is emptied and filled until the generations have run
out. -/
theorem exists_reissued {m : SlotMap α} {key : SlotKey} {a : α} (h : m.Valid)
    (hlive : m.live < 2 ^ 32) (hk : m.get? key = some a) :
    ∃ post, Bounded post m ∧ erasures key.index post m = 2 ^ 32 ∧
      ∀ b, ((after post m).insert b).1 = key ∧ ((after post m).insert b).2.get? key = some b := by
  -- the number of erasures is a variable, so that nothing is unfolded so often
  obtain ⟨n, hn⟩ : ∃ n, n + 1 = 2 ^ 32 := ⟨2 ^ 32 - 1, rfl⟩
  obtain ⟨hbounded, hcount, hnext⟩ := reuses_spec a n h hlive hk
  rw [hn] at hcount
  refine ⟨reuses a key n, hbounded, hcount, fun b => ?_⟩
  have hvalid := valid_after _ h hbounded
  have hroom := room_of_live hvalid hbounded.live_after_lt
  obtain ⟨e, hslot⟩ := slot?_after key.index _ h hbounded (get?_eq_some_iff.mp hk)
  rw [hcount, generation_wraps, ← hnext b] at hslot
  have hkey := SlotKey.eq_of_parts (hnext b) (generation_insert hvalid hroom hslot)
  exact ⟨hkey, by rw [get?_insert hvalid hroom, if_pos hkey.symm]⟩

/-- What there is to say of a table after some changes to an empty one. -/
structure Recycles (changes : List (TableChange α)) (m : SlotMap α) : Prop where
  /-- A key finds what was inserted under it, until it is erased, and no other key finds anything. -/
  get_iff : ∀ key a, m.get? key = some a ↔ Holds changes key a
  contains_iff : ∀ key, m.contains key = true ↔ ∃ a, Holds changes key a
  erase_held : ∀ key a, Holds changes key a → ∃ m', m.erase? key = some (a, m') ∧
    m' = m.apply (.erase key) ∧ ∀ k, m'.get? k = if k = key then none else m.get? k
  erase_other : ∀ key, (∀ a, ¬ Holds changes key a) →
    m.get? key = none ∧ m.erase? key = none ∧ m.apply (.erase key) = m
  /-- The keys are listed in the order of the slots, each of them once. -/
  keys_sorted : m.keys.Pairwise fun k k' => k.index.toNat < k'.index.toNat
  keys_nodup : m.keys.Nodup
  mem_keys : ∀ key, key ∈ m.keys ↔ ∃ a, Holds changes key a
  live_eq : m.live = m.keys.length
  /-- The slot for the next value holds none. -/
  unblocked : m.blockedSlot? = none
  /-- A key that has been erased finds nothing and is not issued again, as long as fewer values have
  been taken out of its slot since it was issued than there are generations. -/
  stale : ∀ pre a post, changes = pre ++ .insert a :: post →
    .erase (issuedFor pre a) ∈ post →
    erasures (issuedFor pre a).index post ((after pre empty).insert a).2 < 2 ^ 32 →
    m.get? (issuedFor pre a) = none ∧ ∀ b, (m.insert b).1 ≠ issuedFor pre a
  /-- When just as many have been, the next value to go into the slot is found under that key. -/
  comesBack : ∀ pre a post, changes = pre ++ .insert a :: post →
    erasures (issuedFor pre a).index post ((after pre empty).insert a).2 = 2 ^ 32 →
    ∀ b, (m.insert b).1.index = (issuedFor pre a).index →
      (m.insert b).1 = issuedFor pre a ∧ (m.insert b).2.get? (issuedFor pre a) = some b
  /-- So it can be with any live key. -/
  attained : ∀ key a, Holds changes key a → ∃ post, Bounded (changes ++ post) empty ∧
    erasures key.index post m = 2 ^ 32 ∧ ∀ b, ((after post m).insert b).1 = key ∧
      ((after post m).insert b).2.get? key = some b

/-- **A table of slots is a map whose keys are not used again** before the generations of a slot
have run out, after any changes to an empty table that never holds as many values as there are
indices. -/
theorem recycling_after {changes : List (TableChange α)} (hb : Bounded changes empty) :
    Recycles changes (after changes empty) := by
  have hvalid := valid_after changes valid_empty hb
  have hget := get?_after changes hb
  have hsome : ∀ key, (∃ a, (after changes empty).get? key = some a) ↔ ∃ a, Holds changes key a :=
    fun key => exists_congr fun a => hget key a
  refine ⟨hget, ?_, ?_, ?_, pairwise_keys _ hvalid, nodup_keys hvalid, ?_,
    live_after changes valid_empty hb rfl, blockedSlot?_eq_none hvalid, ?_, ?_, ?_⟩
  · intro key
    rw [contains, Option.isSome_iff_exists, hsome]
  · intro key a hheld
    have hk := (hget key a).mpr hheld
    exact ⟨_, by rw [erase?_eq, hk]; rfl, (apply_erase_of_live hk).symm, get?_erase hk⟩
  · intro key hnone
    have hk : (after changes empty).get? key = none :=
      Option.eq_none_iff_forall_ne_some.mpr fun a ha => hnone a ((hget key a).mp ha)
    exact ⟨hk, by rw [erase?_eq, hk]; rfl, apply_erase_of_not_live hk⟩
  · intro key
    rw [mem_keys_iff hvalid, hsome]
  · rintro pre a post rfl herased hfew
    exact stale_of_issued hb herased hfew
  · rintro pre a post rfl hall b hindex
    exact reissued_of_issued hb hall hindex
  · intro key a hheld
    obtain ⟨post, hbounded, hcount, hback⟩ :=
      exists_reissued hvalid hb.live_after_lt ((hget key a).mpr hheld)
    exact ⟨post, bounded_append.mpr ⟨hb, hbounded⟩, hcount, hback⟩

/-- Two keys, one of which has been erased and followed by another in its slot. -/
theorem recycling_after_secondKey :
    Bounded [.insert 10, .insert 20, .erase ⟨0, 0⟩, .insert 30, .erase ⟨0, 0⟩, .erase ⟨7, 7⟩]
        (empty : SlotMap Nat) ∧
      Recycles [.insert 10, .insert 20, .erase ⟨0, 0⟩, .insert 30, .erase ⟨0, 0⟩, .erase ⟨7, 7⟩]
        ⟨#[⟨1, some 30⟩, ⟨0, some 20⟩], [], 2⟩ := by
  have hb : Bounded [.insert 10, .insert 20, .erase ⟨0, 0⟩, .insert 30, .erase ⟨0, 0⟩,
      .erase ⟨7, 7⟩] (empty : SlotMap Nat) := by
    decide
  exact ⟨hb, recycling_after hb⟩

end SlotMap

end EdgeWait
