import CallGraphs.Graph.Basic
import CallGraphs.Proofs.Flow.Binding
import Mathlib.Data.List.Permutation

/-!
# The least solution

A run that ends computes the least solution of the constraints of a program,
although the constraints grow while it goes on and every round looks only at
the slots that grew in the round before.

That the result is contained in every solution is an invariant of each single
update (`Sound`).  That it is a solution itself is carried by `Pending`: a copy
from a slot that did not grow is closed or waits as an update, a call through a
slot that did not grow has had its arguments passed to all its targets, and
whatever was passed has arrived or waits as an update.  When no slot grows any
more, nothing waits.
-/

namespace CallGraphs

namespace Flow

namespace Program

/-! ## Updates -/

/-- An update brings an item to a slot, as the program stands. -/
def Brings (p : Program) (id : SlotId) (x : Item NodeId) : Update → Prop
  | .add target f => target = id ∧ x = .function f
  | .copy source target => target = id ∧ p.Holds source x
  | .block target => target = id ∧ x = .blocked

theorem mem_incoming {p : Program} {updates : List Update} {id : SlotId} {f : NodeId} :
    f ∈ p.incoming updates id ↔ ∃ u ∈ updates, p.Brings id (.function f) u := by
  rw [incoming, List.mem_flatMap]
  refine exists_congr fun u => and_congr_right fun _ => ?_
  cases u with
  | add target g => by_cases h : target = id <;> simp [Brings, h]
  | copy source target =>
      by_cases h : target = id <;> simp [Brings, Holds, h, SortedSet.mem_def]
  | block target => simp [Brings]

theorem blocks_iff {p : Program} {updates : List Update} {id : SlotId} :
    p.blocks updates id = true ↔ ∃ u ∈ updates, p.Brings id .blocked u := by
  rw [blocks, List.any_eq_true]
  refine exists_congr fun u => and_congr_right fun _ => ?_
  cases u <;> simp [Brings, Holds]

theorem keys_apply (p : Program) (updates : List Update) : (p.apply updates).keys = p.keys := by
  refine List.ext_getElem? fun id => ?_
  simp only [keys, apply, List.getElem?_map, List.getElem?_mapIdx, Option.map_map]
  rfl

theorem holds_apply {p : Program} {updates : List Update} {id : SlotId} {x : Item NodeId} :
    (p.apply updates).Holds id x ↔
      p.Holds id x ∨ id < p.keys.length ∧ ∃ u ∈ updates, p.Brings id x u := by
  rw [length_keys]
  by_cases hlt : id < p.slots.length
  · rw [and_iff_right hlt]
    cases x with
    | function f =>
        rw [← mem_incoming]
        simp [Holds, heldBy, apply, hlt, updateSlot, SortedSet.mem_insertAll]
    | blocked =>
        rw [← blocks_iff]
        simp [Holds, isBlocked, apply, hlt, updateSlot]
  · cases x <;> simp [Holds, heldBy, isBlocked, apply, hlt]

/-- A slot that does not count as changed holds what it held. -/
theorem holds_of_not_mem_changed {p q : Program} (hlen : q.slots.length = p.slots.length)
    {id : SlotId} (h : id ∉ changed p q) {x : Item NodeId} : q.Holds id x ↔ p.Holds id x := by
  have hsame : p.slots[id]? = q.slots[id]? := by
    by_cases hlt : id < q.slots.length
    · by_contra hne
      exact h (List.mem_filter.mpr ⟨List.mem_range.mpr hlt, by simpa using hne⟩)
    · rw [List.getElem?_eq_none (Nat.le_of_not_lt hlt),
        List.getElem?_eq_none (hlen ▸ Nat.le_of_not_lt hlt)]
  cases x <;> simp [Holds, heldBy, isBlocked, hsame]

end Program

open Binding

/-- The name of a function, by number. -/
def nameOf (names : List FunctionKey) (f : NodeId) : FunctionKey := (names[f]?).getD ""

/-- A later stage of a program: only slots and copies may be new. -/
structure Follows (p q : Program) : Prop where
  keys : p.keys <+: q.keys
  nodup : q.keys.Nodup
  copies : p.copies ⊆ q.copies
  calls : q.calls = p.calls
  defaults : q.defaults = p.defaults
  expansions : q.expansions = p.expansions

theorem Follows.grows {p : Program} {L : Value → Slot → Prop} {b b' : Binding}
    (h : Follows p b.program) (hb : Grows L b b') : Follows p b'.program :=
  ⟨h.keys.trans hb.keys, hb.nodup h.nodup, List.Subset.trans h.copies hb.copies,
    hb.calls.trans h.calls, hb.defaults.trans h.defaults, hb.expansions.trans h.expansions⟩

theorem Follows.apply {p q : Program} (h : Follows p q) (updates : List Update) :
    Follows p (q.apply updates) := by
  have heq := q.keys_apply updates
  exact ⟨heq ▸ h.keys, heq ▸ h.nodup, h.copies, h.calls, h.defaults, h.expansions⟩

/-! ## Soundness -/

/-- Under a family, an update brings nothing that its slot would not hold. -/
def Allowed (F : Family NodeId) (p : Program) : Update → Prop
  | .add t f => ∃ key, p.keys[t]? = some key ∧ .function f ∈ F key
  | .copy s t => ∃ source key, p.keys[s]? = some source ∧ p.keys[t]? = some key ∧ F source ⊆ F key
  | .block t => ∃ key, p.keys[t]? = some key ∧ .blocked ∈ F key

theorem Allowed.of_isPrefix {F : Family NodeId} {p q : Program} {u : Update}
    (h : Allowed F p u) (hpre : p.keys <+: q.keys) : Allowed F q u := by
  cases u with
  | add t f =>
      obtain ⟨key, hkey, hf⟩ := h
      exact ⟨key, Program.getElem?_of_isPrefix hpre hkey, hf⟩
  | copy s t =>
      obtain ⟨source, key, hsource, hkey, hsub⟩ := h
      exact ⟨source, key, Program.getElem?_of_isPrefix hpre hsource,
        Program.getElem?_of_isPrefix hpre hkey, hsub⟩
  | block t =>
      obtain ⟨key, hkey, hx⟩ := h
      exact ⟨key, Program.getElem?_of_isPrefix hpre hkey, hx⟩

/-- What an allowed update brings is held under the family. -/
theorem Allowed.brings {F : Family NodeId} {p : Program} {u : Update} {id : SlotId} {key : Slot}
    {x : Item NodeId} (h : Allowed F p u) (hkey : p.keys[id]? = some key)
    (hitems : ∀ id key x, p.keys[id]? = some key → p.Holds id x → x ∈ F key)
    (hx : p.Brings id x u) : x ∈ F key := by
  cases u with
  | add t f =>
      obtain ⟨rfl, rfl⟩ := hx
      obtain ⟨key', hkey', hf⟩ := h
      rwa [Option.some.inj (hkey.symm.trans hkey')]
  | copy s t =>
      obtain ⟨rfl, hheld⟩ := hx
      obtain ⟨source, key', hsource, hkey', hsub⟩ := h
      rw [Option.some.inj (hkey.symm.trans hkey')]
      exact hsub (hitems s source x hsource hheld)
  | block t =>
      obtain ⟨rfl, rfl⟩ := hx
      obtain ⟨key', hkey', hb⟩ := h
      rwa [Option.some.inj (hkey.symm.trans hkey')]

/-- Slots hold nothing, and copies and updates bring nothing, that a family does not allow. -/
structure Sound (F : Family NodeId) (b : Binding) : Prop where
  items : ∀ id key x, b.program.keys[id]? = some key → b.program.Holds id x → x ∈ F key
  copies : ∀ s t, (s, t) ∈ b.program.copies → Allowed F b.program (.copy s t)
  updates : ∀ u ∈ b.updates, Allowed F b.program u

/-- Copies are between slots that there are. -/
theorem Sound.lt_of_mem_copies {F : Family NodeId} {b : Binding} (h : Sound F b) {s t : SlotId}
    (hst : (s, t) ∈ b.program.copies) :
    s < b.program.keys.length ∧ t < b.program.keys.length := by
  obtain ⟨_, _, hs, ht, -⟩ := h.copies s t hst
  exact ⟨(List.getElem?_eq_some_iff.mp hs).1, (List.getElem?_eq_some_iff.mp ht).1⟩

section Solving

variable {p : Program} {names : List FunctionKey} {F : Family NodeId} {b b' : Binding}

/-- A value flows into a slot under a family, by the constraints of a program. -/
def License (p : Program) (names : List FunctionKey) (F : Family NodeId) (v : Value) (key : Slot) :
    Prop :=
  v.Within p.keys.length ∧ Flows {c | c ∈ p.constraints} (nameOf names) F (p.origin v) key

theorem License.allowed {v : Value} {key : Slot} (h : License p names F v key)
    (hF : Solves {c | c ∈ p.constraints} (nameOf names) F) {q : Program}
    (hpre : p.keys <+: q.keys) {t : SlotId} (ht : q.keys[t]? = some key) :
    Allowed F q (v.into t) := by
  obtain ⟨hwithin, hflows⟩ := h
  have hsub := hF _ _ hflows
  cases v with
  | slot s =>
      exact ⟨_, key, Program.getElem?_of_isPrefix hpre (Program.getElem?_keyAt hwithin), ht, hsub⟩
  | function f => exact ⟨key, ht, hsub rfl⟩
  | blocked => exact ⟨key, ht, hsub rfl⟩

theorem Sound.grows (h : Sound F b) (hF : Solves {c | c ∈ p.constraints} (nameOf names) F)
    (hp : Follows p b.program) (hb : Grows (License p names F) b b') : Sound F b' := by
  have hupdates : ∀ u ∈ b'.updates, Allowed F b'.program u := by
    intro u hu
    rcases hb.newUpdates hu with hold | ⟨v, t, key, rfl, hkey, hL⟩
    · exact (h.updates u hold).of_isPrefix hb.keys
    · exact hL.allowed hF (hp.keys.trans hb.keys) hkey
  refine ⟨fun id key x hkey hx => ?_, fun s t hst => ?_, hupdates⟩
  · have hx' := hb.holds.mp hx
    have hold := Program.getElem?_keyAt hx'.lt_length
    have hsame := (Program.getElem?_of_isPrefix hb.keys hold).symm.trans hkey
    exact h.items id key x (hold.trans hsame) hx'
  · exact (hb.newCopies hst).elim (fun hold => (h.copies s t hold).of_isPrefix hb.keys)
      (hupdates _)

/-- Under a family a call is licensed to pass what the constraints let flow for it. -/
theorem licensed_of_called (hv : p.Valid) {q : Program} (hdefaults : q.defaults = p.defaults)
    {args : List (Option Value)} {explicit : Nat} {f : NodeId}
    (hargs : ArgsWithin p.keys.length args)
    (hcall : Called {c | c ∈ p.constraints} F f (p.origins args) explicit) :
    Licensed (License p names F) names q args explicit f := by
  rintro key hkey ⟨i, v⟩ harg
  have hname : nameOf names f = key := by rw [nameOf, hkey, Option.getD_some]
  rw [passes_congr hdefaults, passes, List.mem_append, mem_given, mem_defaultsFrom] at harg
  subst hname
  rcases harg with hi | ⟨hd, hle⟩
  · refine ⟨hargs v (List.mem_of_getElem? hi), .argument hcall ?_⟩
    simp [Program.origins, hi]
  · exact ⟨hv.defaults _ hd,
      .default hcall (Program.mem_constraints_default.mpr ⟨_, hd, rfl, rfl, rfl⟩) hle⟩

/-- What a call reaches is called, under a family that takes in what slots hold. -/
theorem called_of_target (hv : p.Valid) (hp : Follows p b.program)
    (hitems : ∀ id key x, b.program.keys[id]? = some key → b.program.Holds id x → x ∈ F key)
    {call : IndirectCall} (hcall : call ∈ p.calls) {f : NodeId}
    (hf : f ∈ targetsOf b.program call) :
    Called {c | c ∈ p.constraints} F f (p.origins call.args) call.explicit := by
  have hkey := Program.getElem?_of_isPrefix hp.keys
    (Program.getElem?_keyAt (hv.calls call hcall).1)
  have hmem := Program.mem_constraints_callThrough.mpr ⟨call, hcall, rfl, rfl, rfl, rfl⟩
  rcases mem_targetsOf.mp hf with hheld | ⟨hexpand, g, hheld, hg⟩
  · exact .held hmem (hitems _ _ _ hkey hheld)
  · rw [Program.expansionOf, hp.expansions] at hg
    rw [hexpand] at hmem
    exact .overrider hmem (hitems _ _ _ hkey hheld) (Program.mem_constraints_overrider.mpr hg)

theorem licensedCalls (hv : p.Valid) (hp : Follows p b.program)
    (hitems : ∀ id key x, b.program.keys[id]? = some key → b.program.Holds id x → x ∈ F key) :
    LicensedCalls (License p names F) names b.program := by
  intro call hcall f hf
  rw [hp.calls] at hcall
  exact licensed_of_called hv hp.defaults (hv.calls call hcall).2
    (called_of_target hv hp hitems hcall hf)

/-! ## Completeness -/

/-- Every copy from a slot that is not dirty has been carried out, or waits as an update. -/
def CopiesCarried (dirty : List SlotId) (b : Binding) : Prop :=
  ∀ s t, (s, t) ∈ b.program.copies →
    s ∈ dirty ∨ (∀ x, b.program.Holds s x → b.program.Holds t x) ∨ .copy s t ∈ b.updates

theorem CopiesCarried.grows {dirty : List SlotId} {L : Value → Slot → Prop}
    (h : CopiesCarried dirty b) (hb : Grows L b b') : CopiesCarried dirty b' := by
  intro s t hst
  rcases hb.newCopies hst with hold | hnew
  · refine (h s t hold).imp_right (Or.imp (fun hclosed x hx => ?_) fun hu => ?_)
    · exact hb.holds.mpr (hclosed x (hb.holds.mp hx))
    · exact hb.updates hu
  · exact Or.inr (Or.inr hnew)

/-- What is still to be done.  Copies from dirty slots are to be carried out, and calls through
some slots are to be looked at; all else is done, or waits as an update. -/
structure Pending (p : Program) (names : List FunctionKey) (dirty todo : List SlotId)
    (b : Binding) : Prop where
  copies : ∀ s t, (s, t) ∈ b.program.copies →
    s ∈ dirty ∨ (∀ x, b.program.Holds s x → b.program.Holds t x) ∨ .copy s t ∈ b.updates
  calls : ∀ place call, b.program.calls[place]? = some call →
    call.through ∈ todo ∨ ∀ f ∈ targetsOf b.program call, (place, f) ∈ b.program.bound
  bound : BoundPassed names b
  known : ∀ call ∈ p.staticCalls, Passed names b call.args call.explicit call.callee
  seeds : ∀ t v, v.into t ∈ p.seeds → b.Served t v

theorem Pending.discover {dirty todo : List SlotId} {slot : SlotId}
    (h : Pending p names dirty (slot :: todo) b)
    (hmissing : (b.discover names slot).missing = none) :
    Pending p names dirty todo (b.discover names slot) := by
  have hgrows := grows_discover (licensedCalls_true names b.program) slot
  obtain ⟨hpassed, hbound⟩ := bound_discover h.bound hmissing
  refine ⟨CopiesCarried.grows h.copies hgrows, fun place call hcall => ?_, hpassed,
    fun call hcall => (h.known call hcall).grows hgrows,
    fun t v hv => (h.seeds t v hv).grows hgrows⟩
  rw [hgrows.calls] at hcall
  rcases h.calls place call hcall with hin | hdone
  · rcases List.mem_cons.mp hin with hslot | htodo
    · exact Or.inr fun f hf => hbound place call hcall hslot f (hgrows.mem_targetsOf.mp hf)
    · exact Or.inl htodo
  · exact Or.inr fun f hf => hgrows.bound (hdone f (hgrows.mem_targetsOf.mp hf))

/-- A stage of a run. -/
structure Stage (p : Program) (names : List FunctionKey) (dirty todo : List SlotId)
    (b : Binding) : Prop where
  follows : Follows p b.program
  sound : ∀ F, Solves {c | c ∈ p.constraints} (nameOf names) F → Sound F b
  pending : Pending p names dirty todo b

theorem Stage.discover (hv : p.Valid) {dirty todo : List SlotId} {slot : SlotId}
    (h : Stage p names dirty (slot :: todo) b)
    (hmissing : (b.discover names slot).missing = none) :
    Stage p names dirty todo (b.discover names slot) :=
  ⟨h.follows.grows (grows_discover (licensedCalls_true names b.program) slot),
    fun F hF => (h.sound F hF).grows hF h.follows
      (grows_discover (licensedCalls hv h.follows (h.sound F hF).items) slot),
    h.pending.discover hmissing⟩

theorem Stage.discoverAll (hv : p.Valid) {dirty todo : List SlotId}
    (h : Stage p names dirty todo b)
    (hmissing : (todo.foldl (Binding.discover names) b).missing = none) :
    Stage p names dirty [] (todo.foldl (Binding.discover names) b) := by
  induction todo generalizing b with
  | nil => exact h
  | cons slot todo ih =>
      have hgrows : Grows (fun _ _ => True) (b.discover names slot)
          (todo.foldl (Binding.discover names) (b.discover names slot)) :=
        .foldl (P := fun _ => True) (fun _ _ => trivial)
          fun _ x _ _ => grows_discover (licensedCalls_true names _) x
      exact ih (h.discover hv (hgrows.missing hmissing)) hmissing

/-! ## The end of a round -/

/-- The updates that are made at the end of a round: those that wait, and copies from all dirty
slots. -/
structure Round (b : Binding) (dirty : List SlotId) (updates : List Update) : Prop where
  waiting : b.updates ⊆ updates
  dirty : ∀ s t, (s, t) ∈ b.program.copies → s ∈ dirty → .copy s t ∈ updates
  only : ∀ u ∈ updates, u ∈ b.updates ∨ ∃ s t, (s, t) ∈ b.program.copies ∧ u = .copy s t

variable {dirty : List SlotId} {updates : List Update}

theorem Binding.Served.apply {t : SlotId} {v : Value} (h : b.Served t v)
    (hsub : b.updates ⊆ updates) (ht : t < b.program.keys.length) :
    Served { program := b.program.apply updates } t v := by
  cases v with
  | slot s => exact h
  | function f =>
      refine Or.inr (Program.holds_apply.mpr (h.symm.imp_right fun hu => ⟨ht, ?_⟩))
      exact ⟨_, hsub hu, rfl, rfl⟩
  | blocked =>
      refine Or.inr (Program.holds_apply.mpr (h.symm.imp_right fun hu => ⟨ht, ?_⟩))
      exact ⟨_, hsub hu, rfl, rfl⟩

theorem Binding.Passed.apply {args : List (Option Value)} {explicit : Nat} {f : NodeId}
    (h : Passed names b args explicit f) (hsub : b.updates ⊆ updates) :
    Passed names { program := b.program.apply updates } args explicit f := by
  obtain ⟨key, hkey, hgiven⟩ := h
  refine ⟨key, hkey, fun arg harg => ?_⟩
  obtain ⟨t, ht, hserved⟩ := hgiven arg harg
  have hlt := (List.getElem?_eq_some_iff.mp (Program.getElem?_of_slotId? ht)).1
  refine ⟨t, ?_, hserved.apply hsub hlt⟩
  rw [Program.slotId?_eq, Program.keys_apply, ← Program.slotId?_eq]
  exact ht

theorem Sound.apply (h : Sound F b) (hr : Round b dirty updates) :
    Sound F { program := b.program.apply updates } := by
  have hpre : b.program.keys <+: (b.program.apply updates).keys :=
    ⟨[], by rw [List.append_nil, Program.keys_apply]⟩
  refine ⟨fun id key x hkey hx => ?_, fun s t hst => (h.copies s t hst).of_isPrefix hpre,
    fun u hu => absurd hu List.not_mem_nil⟩
  rw [Program.keys_apply] at hkey
  rcases Program.holds_apply.mp hx with hold | ⟨-, u, hu, hbrings⟩
  · exact h.items id key x hkey hold
  · refine Allowed.brings (u := u) ?_ hkey h.items hbrings
    rcases hr.only u hu with hw | ⟨s, t, hst, rfl⟩
    · exact h.updates u hw
    · exact h.copies s t hst

theorem Program.length_slots_apply (q : Program) (updates : List Update) :
    (q.apply updates).slots.length = q.slots.length := by
  simp [Program.apply]

theorem CopiesCarried.apply
    (hcopies : ∀ s t, (s, t) ∈ b.program.copies → t < b.program.keys.length)
    (h : CopiesCarried dirty b) (hr : Round b dirty updates) :
    CopiesCarried (Program.changed b.program (b.program.apply updates))
      { program := b.program.apply updates } := by
  intro s t hst
  -- a copy whose source did not grow carried all of it by the end of this round
  refine or_iff_not_imp_left.mpr fun hnot => Or.inl fun x hx => ?_
  have hx' := (Program.holds_of_not_mem_changed (b.program.length_slots_apply updates) hnot).mp hx
  have carried : .copy s t ∈ updates → (b.program.apply updates).Holds t x := fun hu =>
    Program.holds_apply.mpr (Or.inr ⟨hcopies s t hst, _, hu, rfl, hx'⟩)
  rcases h s t hst with hd | hclosed | hw
  · exact carried (hr.dirty s t hst hd)
  · exact Program.holds_apply.mpr (Or.inl (hclosed x hx'))
  · exact carried (hr.waiting hw)

theorem Pending.apply (hv : p.Valid) (hp : Follows p b.program)
    (hcopies : ∀ s t, (s, t) ∈ b.program.copies → t < b.program.keys.length)
    (h : Pending p names dirty [] b) (hr : Round b dirty updates) :
    Pending p names (Program.changed b.program (b.program.apply updates))
      (Program.changed b.program (b.program.apply updates))
      { program := b.program.apply updates } := by
  have hlen := b.program.length_slots_apply updates
  refine ⟨CopiesCarried.apply hcopies h.copies hr, fun place call hcall => ?_,
    fun place f hmem => ?_, fun call hcall => (h.known call hcall).apply hr.waiting,
    fun t v hseed => ?_⟩
  · refine or_iff_not_imp_left.mpr fun hnot f hf => ?_
    have hsame : ∀ {x}, (b.program.apply updates).Holds call.through x ↔
        b.program.Holds call.through x := Program.holds_of_not_mem_changed hlen hnot
    refine (h.calls place call hcall).resolve_left List.not_mem_nil f ?_
    rw [mem_targetsOf] at hf ⊢
    simp only [hsame] at hf
    exact hf
  · obtain ⟨call, hcall, hpassed⟩ := h.bound place f hmem
    exact ⟨call, hcall, hpassed.apply hr.waiting⟩
  · refine (h.seeds t v hseed).apply hr.waiting (Nat.lt_of_lt_of_le ?_ hp.keys.length_le)
    have hwithin := hv.seeds _ hseed
    cases v with
    | slot s => exact hwithin.elim
    | function f => exact hwithin
    | blocked => exact hwithin

theorem solves_univ {cs : Set (Constraint NodeId)} {name : NodeId → FunctionKey} :
    Solves cs name fun _ => Set.univ :=
  fun _ _ _ => Set.subset_univ _

theorem Stage.apply (hv : p.Valid) (h : Stage p names dirty [] b) (hr : Round b dirty updates) :
    Stage p names (Program.changed b.program (b.program.apply updates))
      (Program.changed b.program (b.program.apply updates))
      { program := b.program.apply updates } where
  follows := h.follows.apply updates
  sound F hF := (h.sound F hF).apply hr
  pending := h.pending.apply hv h.follows
    (fun _ _ hst => ((h.sound _ solves_univ).lt_of_mem_copies hst).2) hr

/-! ## The beginning of a run -/

/-- What a run begins with. -/
def startOf (p : Program) : Binding :=
  { program := { p with seeds := [], staticCalls := [] }, updates := p.seeds }

theorem follows_startOf (hv : p.Valid) : Follows p (startOf p).program :=
  ⟨List.prefix_refl _, hv.nodup, List.Subset.refl _, rfl, rfl, rfl⟩

theorem sound_startOf (hv : p.Valid)
    (hitems : ∀ id key x, p.keys[id]? = some key → p.Holds id x → x ∈ F key)
    (hF : Solves {c | c ∈ p.constraints} (nameOf names) F) : Sound F (startOf p) := by
  refine ⟨hitems, fun s t hst => ?_, fun u hu => ?_⟩
  · obtain ⟨hs, ht⟩ := hv.copies s t hst
    exact ⟨_, _, Program.getElem?_keyAt hs, Program.getElem?_keyAt ht,
      hF _ _ (.given (Program.mem_constraints_flow.mpr (Or.inl ⟨s, t, hst, rfl⟩)))⟩
  · have hwithin := hv.seeds u hu
    cases u with
    | add t f =>
        exact ⟨_, Program.getElem?_keyAt hwithin,
          hF _ _ (.given (Program.mem_constraints_flow.mpr (Or.inr ⟨_, hu, rfl⟩))) rfl⟩
    | copy s t => exact hwithin.elim
    | block t =>
        exact ⟨_, Program.getElem?_keyAt hwithin,
          hF _ _ (.given (Program.mem_constraints_flow.mpr (Or.inr ⟨_, hu, rfl⟩))) rfl⟩

/-- Calls of known functions pass what the constraints let flow, under any family. -/
theorem grows_knowns (hv : p.Valid) :
    Grows (License p names F) (startOf p) (p.staticCalls.foldl (bindKnown names) (startOf p)) := by
  refine grows_bindKnowns ?_
  intro call hcall
  exact licensed_of_called hv rfl (hv.staticCalls call hcall)
    (.known (Program.mem_constraints_call.mpr ⟨call, hcall, rfl, rfl, rfl⟩))

/-- Once the arguments of calls of known functions have been passed, all copies are dirty and
nothing else is to be done, because no slot holds anything yet. -/
theorem stage_bindKnowns (hv : p.Valid) (hfresh : p.Fresh)
    (hb : p.staticCalls.foldl (bindKnown names) (startOf p) = b) (hmissing : b.missing = none) :
    Stage p names (b.program.copies.map (·.1)) [] b := by
  subst hb
  have hgrows : Grows (fun _ _ => True) (startOf p)
      (p.staticCalls.foldl (bindKnown names) (startOf p)) :=
    grows_bindKnowns fun _ _ _ _ _ _ => trivial
  refine ⟨(follows_startOf hv).grows hgrows, fun F hF => ?_, ?_, fun place call _ => ?_,
    fun place f hmem => ?_, passed_bindKnowns hmissing, fun t v hseed => ?_⟩
  · have hitems : ∀ id key x, p.keys[id]? = some key → p.Holds id x → x ∈ F key :=
      fun id _ x _ hx => absurd hx (hfresh.holds id x)
    exact (sound_startOf hv hitems hF).grows hF (follows_startOf hv) (grows_knowns hv)
  · exact fun s t hst => Or.inl (List.mem_map.mpr ⟨(s, t), hst, rfl⟩)
  · refine Or.inr fun f hf => ?_
    rcases mem_targetsOf.mp (hgrows.mem_targetsOf.mp hf) with hheld | ⟨-, g, hheld, -⟩
    · exact (hfresh.holds call.through (.function f) hheld).elim
    · exact (hfresh.holds call.through (.function g) hheld).elim
  · rw [bound_bindKnowns] at hmem
    change (place, f) ∈ p.bound at hmem
    rw [hfresh.bound] at hmem
    exact absurd hmem List.not_mem_nil
  · have hserved : (startOf p).Served t v := by
      cases v with
      | slot s => exact (hv.seeds _ hseed).elim
      | function f => exact Or.inl hseed
      | blocked => exact Or.inl hseed
    exact hserved.grows hgrows

/-! ## Runs -/

theorem round_of_copiesFrom (b : Binding) (dirty : List SlotId) :
    Round b dirty (b.updates ++ b.program.copiesFrom dirty) := by
  have hmem : ∀ u, u ∈ b.program.copiesFrom dirty ↔
      ∃ s t, s ∈ dirty ∧ (s, t) ∈ b.program.copies ∧ u = .copy s t := by
    intro u
    simp only [Program.copiesFrom, List.mem_flatMap, List.mem_map, List.mem_filter,
      decide_eq_true_eq]
    constructor
    · rintro ⟨slot, hslot, ⟨s, t⟩, ⟨hst, rfl⟩, rfl⟩
      exact ⟨s, t, hslot, hst, rfl⟩
    · rintro ⟨s, t, hs, hst, rfl⟩
      exact ⟨s, hs, (s, t), ⟨hst, rfl⟩, rfl⟩
  refine ⟨List.subset_append_left _ _, fun s t hst hs => ?_, fun u hu => ?_⟩
  · exact List.mem_append_right _ ((hmem _).mpr ⟨s, t, hs, hst, rfl⟩)
  · refine (List.mem_append.mp hu).imp_right fun hu => ?_
    obtain ⟨s, t, -, hst, rfl⟩ := (hmem u).mp hu
    exact ⟨s, t, hst, rfl⟩

theorem round_of_copies (b : Binding) : Round b (b.program.copies.map (·.1))
    (b.updates ++ b.program.copies.map fun c => Update.copy c.1 c.2) := by
  refine ⟨List.subset_append_left _ _, fun s t hst _ => ?_, fun u hu => ?_⟩
  · exact List.mem_append_right _ (List.mem_map.mpr ⟨(s, t), hst, rfl⟩)
  · refine (List.mem_append.mp hu).imp_right fun hu => ?_
    obtain ⟨c, hc, rfl⟩ := List.mem_map.mp hu
    exact ⟨c.1, c.2, hc, rfl⟩

/-- The counts of a run after one round more. -/
def FixpointStats.next (stats : FixpointStats) (after : Program) : FixpointStats :=
  { stats with rounds := stats.rounds + 1, totals := stats.totals ++ [after.total] }

/-- A run of rounds that ends has nothing to do, or makes a round and goes on. -/
theorem rounds_cases {limit : Option Nat} {cancelled : Bool} {bound : Nat} {q : Program}
    {changes : List SlotId} {stats result : FixpointStats}
    (hok : (q.rounds names limit cancelled bound changes stats).2 = .ok result) :
    changes = [] ∧ (q.rounds names limit cancelled bound changes stats).1 = q ∨
      ∃ bound' b next, bound = bound' + 1 ∧
        changes.foldl (Binding.discover names) { program := q } = b ∧ b.missing = none ∧
        b.program.apply (b.updates ++ b.program.copiesFrom changes) = next ∧
        q.rounds names limit cancelled bound changes stats =
          next.rounds names limit cancelled bound' (Program.changed b.program next)
            (stats.next next) := by
  cases changes with
  | nil => exact Or.inl ⟨rfl, by simp only [Program.rounds]⟩
  | cons x changes =>
      rw [Program.rounds.eq_def] at hok ⊢
      simp only at hok ⊢
      split at hok
      · exact absurd hok (by simp)
      · split at hok
        · exact absurd hok (by simp)
        · next hcancel hcap =>
          rw [if_neg hcancel, if_neg hcap]
          cases bound with
          | zero => exact absurd hok (by simp)
          | succ bound =>
              simp only at hok ⊢
              split at hok
              · exact absurd hok (by simp)
              · next hmissing =>
                exact Or.inr ⟨bound, _, _, rfl, rfl, hmissing, rfl, rfl⟩

/-- A run of rounds that ends leaves nothing to be done. -/
theorem stage_rounds (hv : p.Valid) {limit : Option Nat} {cancelled : Bool} {bound : Nat}
    {q : Program} {changes : List SlotId} {stats result : FixpointStats}
    (h : Stage p names changes changes { program := q })
    (hok : (q.rounds names limit cancelled bound changes stats).2 = .ok result) :
    Stage p names [] [] { program := (q.rounds names limit cancelled bound changes stats).1 } := by
  induction bound generalizing q changes stats with
  | zero =>
      rcases rounds_cases hok with ⟨rfl, heq⟩ | ⟨_, _, _, hbound, -⟩
      · rw [heq]
        exact h
      · exact absurd hbound (by simp)
  | succ bound ih =>
      rcases rounds_cases hok with ⟨rfl, heq⟩ | ⟨_, b, next, hbound, hb, hmissing, hnext, heq⟩
      · rw [heq]
        exact h
      · obtain rfl := Nat.succ.inj hbound
        rw [heq] at hok ⊢
        subst hb hnext
        exact ih ((h.discoverAll hv hmissing).apply hv (round_of_copiesFrom _ _)) hok

theorem stage_solve (hv : p.Valid) (hfresh : p.Fresh) {limit : Option Nat} {cancelled : Bool}
    {result : FixpointStats} (hok : (p.solve names limit cancelled).2 = .ok result) :
    Stage p names [] [] { program := (p.solve names limit cancelled).1 } := by
  rw [Program.solve] at hok ⊢
  dsimp only at hok ⊢
  split at hok
  · exact absurd hok (by simp)
  · next hmissing =>
    have hstage := (stage_bindKnowns hv hfresh rfl hmissing).apply hv (round_of_copies _)
    exact stage_rounds hv hstage hok

/-! ## What flows in a round -/

theorem Stage.mem_contents {todo : List SlotId} (h : Stage p names dirty todo b) {id : SlotId}
    (hid : id < p.keys.length) {x : Item NodeId} :
    x ∈ b.program.contents (p.keyAt id) ↔ b.program.Holds id x :=
  Program.mem_contents h.follows.nodup
    (Program.getElem?_of_isPrefix h.follows.keys (Program.getElem?_keyAt hid))

/-- What has been passed to a slot is held by it at the end of the round. -/
theorem Stage.takes (h : Stage p names dirty [] b) (hr : Round b dirty updates) {v : Value}
    (hv : v.Within p.keys.length) {t : SlotId} {key : Slot} (ht : b.program.keys[t]? = some key)
    (hserved : b.Served t v) :
    (p.origin v).content b.program.contents ⊆ (b.program.apply updates).contents key := by
  have hlt := (List.getElem?_eq_some_iff.mp ht).1
  have hkeys := b.program.keys_apply updates
  have arrives : ∀ x u, u ∈ updates → b.program.Brings t x u →
      (b.program.apply updates).Holds t x :=
    fun x u hu hx => Program.holds_apply.mpr (Or.inr ⟨hlt, u, hu, hx⟩)
  intro x hx
  rw [Program.mem_contents (hkeys ▸ h.follows.nodup) (hkeys ▸ ht)]
  cases v with
  | slot s =>
      have hheld := (h.mem_contents hv).mp hx
      rcases hserved with rfl | hcopy
      · exact Program.holds_apply.mpr (Or.inl hheld)
      · rcases h.pending.copies s t hcopy with hdirty | hclosed | hwaits
        · exact arrives x _ (hr.dirty s t hcopy hdirty) ⟨rfl, hheld⟩
        · exact Program.holds_apply.mpr (Or.inl (hclosed x hheld))
        · exact arrives x _ (hr.waiting hwaits) ⟨rfl, hheld⟩
  | function f =>
      obtain rfl : x = .function f := hx
      rcases hserved with hwaits | hheld
      · exact arrives _ _ (hr.waiting hwaits) ⟨rfl, rfl⟩
      · exact Program.holds_apply.mpr (Or.inl hheld)
  | blocked =>
      obtain rfl : x = .blocked := hx
      rcases hserved with hwaits | hheld
      · exact arrives _ _ (hr.waiting hwaits) ⟨rfl, rfl⟩
      · exact Program.holds_apply.mpr (Or.inl hheld)

/-- Every call that the constraints ask for has had its arguments passed. -/
theorem Stage.passed_of_called (hv : p.Valid) (h : Stage p names dirty [] b)
    {f : NodeId} {args : List (Option (Origin NodeId))} {explicit : Nat}
    (hcall : Called {c | c ∈ p.constraints} b.program.contents f args explicit) :
    ∃ values, args = p.origins values ∧ ArgsWithin p.keys.length values ∧
      Passed names b values explicit f := by
  have through : ∀ call ∈ p.calls, ∀ f ∈ targetsOf b.program call,
      Passed names b call.args call.explicit f := by
    intro call hmem f hf
    obtain ⟨place, hplace⟩ := List.mem_iff_getElem?.mp hmem
    rw [← h.follows.calls] at hplace
    have hbound := (h.pending.calls place call hplace).resolve_left List.not_mem_nil f hf
    obtain ⟨call', hplace', hpassed⟩ := h.pending.bound place f hbound
    rwa [Option.some.inj (hplace.symm.trans hplace')]
  cases hcall with
  | known hc =>
      obtain ⟨call, hmem, rfl, rfl, rfl⟩ := Program.mem_constraints_call.mp hc
      exact ⟨call.args, rfl, hv.staticCalls call hmem, h.pending.known call hmem⟩
  | held hc hf =>
      obtain ⟨call, hmem, rfl, rfl, rfl, rfl⟩ := Program.mem_constraints_callThrough.mp hc
      obtain ⟨hthrough, hargs⟩ := hv.calls call hmem
      exact ⟨call.args, rfl, hargs, through call hmem f
        (mem_targetsOf.mpr (Or.inl ((h.mem_contents hthrough).mp hf)))⟩
  | overrider hc hg ho =>
      obtain ⟨call, hmem, rfl, rfl, rfl, hexpand⟩ := Program.mem_constraints_callThrough.mp hc
      obtain ⟨hthrough, hargs⟩ := hv.calls call hmem
      have hover := Program.mem_constraints_overrider.mp ho
      rw [Program.expansionOf, ← h.follows.expansions] at hover
      exact ⟨call.args, rfl, hargs, through call hmem f
        (mem_targetsOf.mpr (Or.inr ⟨hexpand, _, (h.mem_contents hthrough).mp hg, hover⟩))⟩

/-- Once all calls have been looked at, a round takes in whatever flows at its beginning. -/
theorem Stage.advance_le (hv : p.Valid) (h : Stage p names dirty [] b)
    (hr : Round b dirty updates) :
    advance {c | c ∈ p.constraints} (nameOf names) b.program.contents ≤
      (b.program.apply updates).contents := by
  have passed : ∀ {values : List (Option Value)} {explicit f i v}, v.Within p.keys.length →
      Passed names b values explicit f → (i, v) ∈ passes b.program values explicit f →
      (p.origin v).content b.program.contents ⊆
        (b.program.apply updates).contents (.param (nameOf names f) i) := by
    intro values explicit f i v hwithin hpassed hmem
    obtain ⟨key, hkey, hgiven⟩ := hpassed
    obtain ⟨t, ht, hserved⟩ := hgiven (i, v) hmem
    rw [show nameOf names f = key by rw [nameOf, hkey, Option.getD_some]]
    exact h.takes hr hwithin (Program.getElem?_of_slotId? ht) hserved
  intro key x hx
  rcases hx with hx | ⟨o, hflow, hx⟩
  · obtain ⟨id, hid, hheld⟩ := hx
    refine ⟨id, ?_, Program.holds_apply.mpr (Or.inl hheld)⟩
    rw [Program.slotId?_eq, Program.keys_apply, ← Program.slotId?_eq]
    exact hid
  revert x
  cases hflow with
  | given hc =>
      have key_ : ∀ {t}, t < p.keys.length → b.program.keys[t]? = some (p.keyAt t) := fun ht =>
        Program.getElem?_of_isPrefix h.follows.keys (Program.getElem?_keyAt ht)
      rcases Program.mem_constraints_flow.mp hc with ⟨s, t, hst, heq⟩ | ⟨u, hu, heq⟩
      · obtain ⟨rfl, rfl⟩ := Constraint.flow.inj heq
        obtain ⟨hs, ht⟩ := hv.copies s t hst
        exact h.takes hr (v := .slot s) hs (key_ ht) (Or.inr (h.follows.copies hst))
      · have hwithin := hv.seeds u hu
        cases u with
        | add t f =>
            obtain ⟨rfl, rfl⟩ := Constraint.flow.inj heq
            exact h.takes hr (v := .function f) trivial (key_ hwithin) (h.pending.seeds t _ hu)
        | copy s t => exact hwithin.elim
        | block t =>
            obtain ⟨rfl, rfl⟩ := Constraint.flow.inj heq
            exact h.takes hr (v := .blocked) trivial (key_ hwithin) (h.pending.seeds t _ hu)
  | argument hcall hi =>
      obtain ⟨values, rfl, hwithin, hpassed⟩ := h.passed_of_called hv hcall
      simp only [Program.origins, List.getElem?_map, Option.map_eq_some_iff] at hi
      obtain ⟨_, hi, v, rfl, rfl⟩ := hi
      exact passed (hwithin v (List.mem_of_getElem? hi)) hpassed
        (List.mem_append_left _ (mem_given.mpr hi))
  | default hcall hd hle =>
      obtain ⟨values, rfl, -, hpassed⟩ := h.passed_of_called hv hcall
      obtain ⟨⟨f, i, v⟩, hmem, rfl, rfl, rfl⟩ := Program.mem_constraints_default.mp hd
      refine passed (hv.defaults _ hmem) hpassed (List.mem_append_right _ ?_)
      exact mem_defaultsFrom.mpr ⟨by rwa [h.follows.defaults], hle⟩

/-! ## Nothing left to be done -/

section Done

variable {q : Program}

theorem Program.contents_apply_nil (q : Program) : (q.apply []).contents = q.contents := by
  funext key
  ext x
  simp [Program.contents, Program.slotId?_eq, Program.keys_apply, Program.holds_apply]

theorem Stage.solves (hv : p.Valid) (h : Stage p names [] [] { program := q }) :
    Solves {c | c ∈ p.constraints} (nameOf names) q.contents := by
  have hr : Round { program := q } [] [] := ⟨List.Subset.refl _, by simp, by simp⟩
  rw [solves_iff_advance_le]
  exact (h.advance_le hv hr).trans_eq q.contents_apply_nil

/-- When nothing is left to be done, the slots hold the least solution. -/
theorem Stage.isLeast (hv : p.Valid) (h : Stage p names [] [] { program := q }) :
    IsLeast {F | Solves {c | c ∈ p.constraints} (nameOf names) F} q.contents := by
  refine ⟨h.solves hv, fun F hF key x hx => ?_⟩
  obtain ⟨id, hid, hheld⟩ := hx
  exact (h.sound F hF).items id key x (Program.getElem?_of_slotId? hid) hheld

end Done

end Solving

/-! ## Main statement -/

theorem nameOf_nodes (g : Graph) : nameOf (g.nodes.map (·.key)) = g.keyOf := by
  funext f
  rw [nameOf, List.getElem?_map]
  rfl

theorem Program.Represents.isLeast {p : Program} {cs : List (Constraint NodeId)}
    (h : p.Represents cs) (g : Graph) {limit : Option Nat} {cancelled : Bool}
    {stats : FixpointStats}
    (hok : (p.solve (g.nodes.map (·.key)) limit cancelled).2 = .ok stats) :
    IsLeast {F | Solves {c | c ∈ cs} g.keyOf F}
      (p.solve (g.nodes.map (·.key)) limit cancelled).1.contents := by
  have hleast := (stage_solve h.valid h.fresh hok).isLeast h.valid
  simpa only [nameOf_nodes, h.solves_iff] using hleast

/-- A run over the functions of a graph that ends computes the least solution: if a program came
about from the empty one, step by step, then after its first run the slots hold, by name, the least
family that solves the constraints that the steps asked for. -/
theorem solve_isLeast {p : Program} {cs : List (Constraint NodeId)} (h : p.Built cs) (g : Graph)
    {limit : Option Nat} {cancelled : Bool} {stats : FixpointStats}
    (hok : (p.solve (g.nodes.map (·.key)) limit cancelled).2 = .ok stats) :
    IsLeast {F | Solves {c | c ∈ cs} g.keyOf F}
      (p.solve (g.nodes.map (·.key)) limit cancelled).1.contents :=
  h.represents.isLeast g hok

/-- Two functions, the second of which is called. -/
def mainAndRun : Graph := { nodes := [{ key := "main" }, { key := "run" }] }

/-- A function that one slot holds is called with what another slot holds. -/
def callThroughSlot : Program :=
  ((((Program.empty.intern (.global "callback")).1.intern (.global "argument")).1.assign
    (.function 1) 0).assign (.function 0) 1).addIndirectCall ⟨0, [some (.slot 1)], 1, false⟩

theorem callThroughSlot_isLeast : ∃ cs stats, callThroughSlot.Built cs ∧
    (callThroughSlot.solve (mainAndRun.nodes.map (·.key)) none false).2 = .ok stats ∧
    IsLeast {F | Solves {c | c ∈ cs} mainAndRun.keyOf F}
      (callThroughSlot.solve (mainAndRun.nodes.map (·.key)) none false).1.contents := by
  have hslots := (Program.Built.empty.intern (.global "callback")).intern (.global "argument")
  have hassigned := (hslots.assign (.function 1) 0 trivial (by decide)).assign (.function 0) 1
    trivial (by decide)
  have hargs : ArgsWithin 2 [some (.slot 1)] := by
    rintro v hv
    obtain rfl := Option.some.inj (List.mem_singleton.mp hv)
    exact Nat.lt_succ_self 1
  have hbuilt := hassigned.indirectCall ⟨0, [some (.slot 1)], 1, false⟩ (by decide) hargs
  exact ⟨_, _, hbuilt, by cbv, solve_isLeast hbuilt mainAndRun (by cbv)⟩

end Flow

end CallGraphs
