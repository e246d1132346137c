import CallGraphs.Flow.Program
import CallGraphs.Proofs.Flow.Constraints
import Mathlib.Data.List.Nodup

/-!
# Programs as constraints

A flow program names slots by place.  Here its slots and constraints are read
by name (`Program.contents`, `Program.constraints`), and `Built` follows the
ways in which a program comes about from the empty one, with the constraints
that were asked for on the way.  Places that were handed out stay what they
are, so the program asks for just these constraints, apart from copies of a
slot to itself, which it drops (`Built.sameSolutions`).
-/

namespace CallGraphs

namespace Flow

/-- A value that refers to a place refers to one of the first so many. -/
def Value.Within (n : Nat) : Value → Prop
  | slot id => id < n
  | function _ | blocked => True

theorem Value.Within.mono {v : Value} {n m : Nat} (h : v.Within n) (hle : n ≤ m) :
    v.Within m := by
  cases v with
  | slot id => exact Nat.lt_of_lt_of_le h hle
  | function _ => trivial
  | blocked => trivial

/-- Arguments that refer to places refer to the first so many. -/
def ArgsWithin (n : Nat) (args : List (Option Value)) : Prop :=
  ∀ v, some v ∈ args → v.Within n

theorem ArgsWithin.mono {args : List (Option Value)} {n m : Nat} (h : ArgsWithin n args)
    (hle : n ≤ m) : ArgsWithin m args :=
  fun v hv => (h v hv).mono hle

/-- An assignment of a function or of a blocked value to one of the first so many places. -/
def Update.SeedWithin (n : Nat) : Update → Prop
  | add t _ | block t => t < n
  | copy .. => False

theorem Update.SeedWithin.mono {u : Update} {n m : Nat} (h : u.SeedWithin n) (hle : n ≤ m) :
    u.SeedWithin m := by
  cases u with
  | add t _ => exact Nat.lt_of_lt_of_le h hle
  | copy _ _ => exact h.elim
  | block t => exact Nat.lt_of_lt_of_le h hle

namespace Program

/-! ## Slots by name -/

/-- The names of the slots, by place. -/
def keys (p : Program) : List Slot := p.slots.map (·.key)

@[simp]
theorem length_keys (p : Program) : p.keys.length = p.slots.length := by
  simp [keys]

/-- The name of the slot at a place. -/
def keyAt (p : Program) (id : SlotId) : Slot := (p.keys[id]?).getD default

/-- Where a value flows from. -/
def origin (p : Program) : Value → Origin NodeId
  | .slot id => .slot (p.keyAt id)
  | .function f => .item (.function f)
  | .blocked => .item .blocked

/-- Where the arguments of a call flow from. -/
def origins (p : Program) (args : List (Option Value)) : List (Option (Origin NodeId)) :=
  args.map (·.map p.origin)

/-- The slot at a place holds an item. -/
def Holds (p : Program) (id : SlotId) : Item NodeId → Prop
  | .function f => f ∈ p.heldBy id
  | .blocked => p.isBlocked id = true

/-- What the slots hold, by name. -/
def contents (p : Program) : Family NodeId :=
  fun key => {x | ∃ id, p.slotId? key = some id ∧ p.Holds id x}

theorem function_mem_contents {p : Program} {key : Slot} {f : NodeId} :
    .function f ∈ p.contents key ↔ f ∈ p.aliasSet key := by
  change (∃ id, p.slotId? key = some id ∧ f ∈ p.heldBy id) ↔ _
  rw [aliasSet]
  cases p.slotId? key with
  | none => exact iff_of_false (by simp) (SortedSet.not_mem_empty f)
  | some id => simp

theorem slotId?_eq (p : Program) (key : Slot) : p.slotId? key = p.keys.findIdx? (· = key) := by
  simp [slotId?, keys, List.findIdx?_map, Function.comp_def]

theorem getElem?_of_slotId? {p : Program} {key : Slot} {id : SlotId}
    (h : p.slotId? key = some id) : p.keys[id]? = some key := by
  rw [slotId?_eq, List.findIdx?_eq_some_iff_getElem] at h
  obtain ⟨hlt, hkey, -⟩ := h
  rw [List.getElem?_eq_getElem hlt, of_decide_eq_true hkey]

theorem slotId?_of_getElem? {p : Program} (hn : p.keys.Nodup) {key : Slot} {id : SlotId}
    (h : p.keys[id]? = some key) : p.slotId? key = some id := by
  cases hfind : p.slotId? key with
  | none =>
      rw [slotId?_eq, List.findIdx?_eq_none_iff] at hfind
      exact absurd (hfind key (List.mem_of_getElem? h)) (by simp)
  | some other =>
      have hother := getElem?_of_slotId? hfind
      have hlt : other < p.keys.length := (List.getElem?_eq_some_iff.mp hother).1
      rw [(List.getElem?_inj hlt hn).mp (hother.trans h.symm)]

theorem keyAt_of_getElem? {p : Program} {key : Slot} {id : SlotId} (h : p.keys[id]? = some key) :
    p.keyAt id = key := by
  rw [keyAt, h, Option.getD_some]

theorem getElem?_keyAt {p : Program} {id : SlotId} (h : id < p.keys.length) :
    p.keys[id]? = some (p.keyAt id) := by
  rw [keyAt, List.getElem?_eq_getElem h, Option.getD_some]

theorem Holds.lt_length {p : Program} {id : SlotId} {x : Item NodeId} (h : p.Holds id x) :
    id < p.keys.length := by
  rw [length_keys]
  by_contra hge
  have hnone : p.slots[id]? = none := List.getElem?_eq_none (Nat.le_of_not_lt hge)
  cases x with
  | function f =>
      rw [Holds, heldBy, hnone] at h
      exact SortedSet.not_mem_empty f h
  | blocked => simp [Holds, isBlocked, hnone] at h

/-- What a place holds is what the slot of its name holds. -/
theorem mem_contents {p : Program} (hn : p.keys.Nodup) {key : Slot} {id : SlotId}
    (h : p.keys[id]? = some key) {x : Item NodeId} : x ∈ p.contents key ↔ p.Holds id x := by
  have hid := slotId?_of_getElem? hn h
  constructor
  · rintro ⟨other, hother, hx⟩
    rwa [Option.some.inj (hid.symm.trans hother)]
  · exact fun hx => ⟨id, hid, hx⟩

/-! ## More slots -/

section Extension

variable {p q : Program}

theorem getElem?_of_isPrefix (hpre : p.keys <+: q.keys) {id : SlotId} {key : Slot}
    (h : p.keys[id]? = some key) : q.keys[id]? = some key := by
  obtain ⟨hlt, rfl⟩ := List.getElem?_eq_some_iff.mp h
  exact List.prefix_iff_getElem?.mp hpre id hlt

theorem keyAt_of_isPrefix (hpre : p.keys <+: q.keys) {id : SlotId} (h : id < p.keys.length) :
    q.keyAt id = p.keyAt id :=
  keyAt_of_getElem? (getElem?_of_isPrefix hpre (getElem?_keyAt h))

theorem slotId?_of_isPrefix (hpre : p.keys <+: q.keys) {id : SlotId} {key : Slot}
    (h : p.slotId? key = some id) : q.slotId? key = some id := by
  obtain ⟨more, hmore⟩ := hpre
  rw [slotId?_eq] at h ⊢
  rw [← hmore, List.findIdx?_append, h]
  rfl

theorem origin_of_isPrefix (hpre : p.keys <+: q.keys) {v : Value} (h : v.Within p.keys.length) :
    q.origin v = p.origin v := by
  cases v with
  | slot id => exact congrArg Origin.slot (keyAt_of_isPrefix hpre h)
  | function _ => rfl
  | blocked => rfl

theorem origins_of_isPrefix (hpre : p.keys <+: q.keys) {args : List (Option Value)}
    (h : ArgsWithin p.keys.length args) : q.origins args = p.origins args := by
  refine List.map_congr_left fun arg harg => ?_
  cases arg with
  | none => rfl
  | some v => exact congrArg some (origin_of_isPrefix hpre (h v harg))

/-- Slots that come in empty make no difference to what slots hold, by name. -/
theorem contents_congr (hpre : p.keys <+: q.keys) (hn : p.keys.Nodup)
    (hholds : ∀ {id x}, q.Holds id x ↔ p.Holds id x) : q.contents = p.contents := by
  funext key
  ext x
  constructor
  · rintro ⟨id, hid, hx⟩
    have hx' := hholds.mp hx
    have hold := getElem?_keyAt hx'.lt_length
    have hkey := (getElem?_of_isPrefix hpre hold).symm.trans (getElem?_of_slotId? hid)
    obtain rfl := Option.some.inj hkey
    exact ⟨id, slotId?_of_getElem? hn hold, hx'⟩
  · rintro ⟨id, hid, hx⟩
    exact ⟨id, slotId?_of_isPrefix hpre hid, hholds.mpr hx⟩

end Extension

section Intern

variable (p : Program) (key : Slot)

/-- Only the list of slots changes when a place is asked for. -/
theorem intern_eq : (p.intern key).1 = { p with slots := (p.intern key).1.slots } := by
  rw [intern]
  split <;> rfl

theorem keys_intern : p.keys <+: (p.intern key).1.keys := by
  rw [intern]
  split
  · exact List.prefix_refl _
  · simp [keys]

theorem mem_keys_intern {other : Slot} (h : other ∈ (p.intern key).1.keys) :
    other ∈ p.keys ∨ other = key := by
  rw [intern] at h
  split at h
  · exact Or.inl h
  · simpa [keys] using h

theorem slotId?_intern : (p.intern key).1.slotId? key = some (p.intern key).2 := by
  rw [intern]
  split
  · next id hid => exact hid
  · next hnone =>
    rw [slotId?_eq] at hnone ⊢
    simp only [keys, List.map_append, List.map_cons, List.map_nil, List.findIdx?_append] at hnone ⊢
    simp [hnone]

theorem nodup_keys_intern (hn : p.keys.Nodup) : (p.intern key).1.keys.Nodup := by
  rw [intern]
  split
  · exact hn
  · next hnone =>
    rw [slotId?_eq, List.findIdx?_eq_none_iff] at hnone
    have hnot : key ∉ p.keys := fun hmem => absurd (hnone key hmem) (by simp)
    simp only [keys, List.map_append, List.map_cons, List.map_nil]
    exact List.nodup_append.mpr ⟨hn, by simp, fun a ha b hb => by
      rw [List.mem_singleton.mp hb]
      exact ne_of_mem_of_not_mem ha hnot⟩

theorem holds_intern {id : SlotId} {x : Item NodeId} :
    (p.intern key).1.Holds id x ↔ p.Holds id x := by
  rw [intern]
  split
  · rfl
  · -- the new slot holds nothing, and no slot was at its place before
    rcases Nat.lt_trichotomy id p.slots.length with hlt | rfl | hgt
    · cases x <;> simp [Holds, heldBy, isBlocked, List.getElem?_append_left hlt]
    · cases x <;> simp [Holds, heldBy, isBlocked]
    · have hnew : (p.slots ++ [{ key := key }])[id]? = none :=
        List.getElem?_eq_none (by simpa using Nat.succ_le_of_lt hgt)
      have hold : p.slots[id]? = none := List.getElem?_eq_none (Nat.le_of_lt hgt)
      cases x <;> simp only [Holds, heldBy, isBlocked, hnew, hold]

end Intern

/-! ## Constraints by name -/

/-- What an update lets flow. -/
def flowOf (p : Program) : Update → Constraint NodeId
  | .add target f => .flow (.item (.function f)) (p.keyAt target)
  | .copy source target => .flow (.slot (p.keyAt source)) (p.keyAt target)
  | .block target => .flow (.item .blocked) (p.keyAt target)

/-- The constraints that a program asks for, with places read in another one. -/
def readAsking (p q : Program) : List (Constraint NodeId) :=
  q.copies.map (fun c => p.flowOf (.copy c.1 c.2)) ++ q.seeds.map p.flowOf ++
    q.staticCalls.map (fun c => .call c.callee (p.origins c.args) c.explicit) ++
    q.calls.map (fun c =>
      .callThrough (p.keyAt c.through) (p.origins c.args) c.explicit c.expand) ++
    q.defaults.map (fun d => .default d.function d.index (p.origin d.value)) ++
    q.expansions.flatMap fun e => e.2.map (.overrider e.1)

/-- The constraints that a program asks for. -/
def constraints (p : Program) : List (Constraint NodeId) := p.readAsking p

section Members

variable {p : Program}

theorem mem_constraints_flow {o : Origin NodeId} {key : Slot} :
    .flow o key ∈ p.constraints ↔ (∃ s t, (s, t) ∈ p.copies ∧ p.flowOf (.copy s t) = .flow o key) ∨
      ∃ u ∈ p.seeds, p.flowOf u = .flow o key := by
  simp [constraints, readAsking]

theorem mem_constraints_call {f : NodeId} {args : List (Option (Origin NodeId))} {explicit : Nat} :
    .call f args explicit ∈ p.constraints ↔
      ∃ c ∈ p.staticCalls, c.callee = f ∧ p.origins c.args = args ∧ c.explicit = explicit := by
  have hflow : ∀ u, p.flowOf u ≠ .call f args explicit := by
    intro u
    cases u <;> simp [flowOf]
  simp [constraints, readAsking, hflow]

theorem mem_constraints_callThrough {key : Slot} {args : List (Option (Origin NodeId))}
    {explicit : Nat} {expand : Bool} :
    .callThrough key args explicit expand ∈ p.constraints ↔
      ∃ c ∈ p.calls, p.keyAt c.through = key ∧ p.origins c.args = args ∧
        c.explicit = explicit ∧ c.expand = expand := by
  have hflow : ∀ u, p.flowOf u ≠ .callThrough key args explicit expand := by
    intro u
    cases u <;> simp [flowOf]
  simp [constraints, readAsking, hflow]

theorem mem_constraints_default {f : NodeId} {index : Nat} {o : Origin NodeId} :
    .default f index o ∈ p.constraints ↔
      ∃ d ∈ p.defaults, d.function = f ∧ d.index = index ∧ p.origin d.value = o := by
  have hflow : ∀ u, p.flowOf u ≠ .default f index o := by
    intro u
    cases u <;> simp [flowOf]
  simp [constraints, readAsking, hflow]

theorem mem_constraints_overrider {f g : NodeId} :
    .overrider f g ∈ p.constraints ↔ g ∈ p.expansionOf f := by
  have hflow : ∀ u, p.flowOf u ≠ .overrider f g := by
    intro u
    cases u <;> simp [flowOf]
  simp [constraints, readAsking, hflow, expansionOf]

end Members

/-- The names of slots are distinct, and every place that is referred to has been handed out. -/
structure Valid (p : Program) : Prop where
  nodup : p.keys.Nodup
  copies : ∀ s t, (s, t) ∈ p.copies → s < p.keys.length ∧ t < p.keys.length
  seeds : ∀ u ∈ p.seeds, u.SeedWithin p.keys.length
  staticCalls : ∀ call ∈ p.staticCalls, ArgsWithin p.keys.length call.args
  calls : ∀ call ∈ p.calls, call.through < p.keys.length ∧ ArgsWithin p.keys.length call.args
  defaults : ∀ d ∈ p.defaults, d.value.Within p.keys.length

/-- Nothing has flowed yet. -/
structure Fresh (p : Program) : Prop where
  holds : ∀ id x, ¬ p.Holds id x
  bound : p.bound = []

/-- A program that came about from the empty one, step by step, and the constraints that were asked
for.  Every step refers only to places that were handed out before. -/
inductive Built : Program → List (Constraint NodeId) → Prop where
  | empty : Built .empty []
  | intern {p cs} (key : Slot) : Built p cs → Built (p.intern key).1 cs
  | copy {p cs} (s t : SlotId) : Built p cs → s < p.slots.length → t < p.slots.length →
      Built (p.addCopy s t).1 (cs ++ [.flow (.slot (p.keyAt s)) (p.keyAt t)])
  | assign {p cs} (v : Value) (t : SlotId) : Built p cs → v.Within p.slots.length →
      t < p.slots.length → Built (p.assign v t) (cs ++ [.flow (p.origin v) (p.keyAt t)])
  | staticCall {p cs} (call : StaticCall) : Built p cs → ArgsWithin p.slots.length call.args →
      Built (p.addStaticCall call)
        (cs ++ [.call call.callee (p.origins call.args) call.explicit])
  | indirectCall {p cs} (call : IndirectCall) : Built p cs → call.through < p.slots.length →
      ArgsWithin p.slots.length call.args →
      Built (p.addIndirectCall call) (cs ++
        [.callThrough (p.keyAt call.through) (p.origins call.args) call.explicit call.expand])
  | default {p cs} (f : NodeId) (index : Nat) (v : Value) : Built p cs → v.Within p.slots.length →
      Built (p.addDefault f index v) (cs ++ [.default f index (p.origin v)])
  | expansion {p cs} (f : NodeId) (others : List NodeId) : Built p cs →
      Built (p.addExpansion f others) (cs ++ others.map (.overrider f))

/-- One step in which a program comes about, and the constraints that are asked for in it.  It
refers only to places that were handed out before. -/
inductive Adds : Program → Program → List (Constraint NodeId) → Prop where
  | intern {p} (key : Slot) : Adds p (p.intern key).1 []
  | copy {p} (s t : SlotId) : s < p.slots.length → t < p.slots.length →
      Adds p (p.addCopy s t).1 [.flow (.slot (p.keyAt s)) (p.keyAt t)]
  | assign {p} (v : Value) (t : SlotId) : v.Within p.slots.length → t < p.slots.length →
      Adds p (p.assign v t) [.flow (p.origin v) (p.keyAt t)]
  | staticCall {p} (call : StaticCall) : ArgsWithin p.slots.length call.args →
      Adds p (p.addStaticCall call) [.call call.callee (p.origins call.args) call.explicit]
  | indirectCall {p} (call : IndirectCall) : call.through < p.slots.length →
      ArgsWithin p.slots.length call.args → Adds p (p.addIndirectCall call)
        [.callThrough (p.keyAt call.through) (p.origins call.args) call.explicit call.expand]
  | default {p} (f : NodeId) (index : Nat) (v : Value) : v.Within p.slots.length →
      Adds p (p.addDefault f index v) [.default f index (p.origin v)]
  | expansion {p} (f : NodeId) (others : List NodeId) :
      Adds p (p.addExpansion f others) (others.map (.overrider f))

theorem readAsking_congr {p q : Program} (h : q.slots = p.slots) : q.readAsking = p.readAsking := by
  have hkey : q.keyAt = p.keyAt := by
    funext id
    rw [keyAt, keyAt, keys, keys, h]
  have hflow : q.flowOf = p.flowOf := by
    funext u
    cases u <;> simp only [flowOf, hkey]
  have horigin : q.origin = p.origin := by
    funext v
    cases v <;> simp only [origin, hkey]
  have horigins : q.origins = p.origins := by
    funext args
    simp only [origins, horigin]
  funext r
  simp only [readAsking, hkey, hflow, horigin, horigins]

/-- A program asks for the same as a list does, apart from copies of a slot to itself. -/
structure Represents (p : Program) (cs : List (Constraint NodeId)) : Prop where
  valid : p.Valid
  fresh : p.Fresh
  sound : ∀ c ∈ p.constraints, c ∈ cs
  complete : ∀ c ∈ cs, c ∈ p.constraints ∨ ∃ key, c = .flow (.slot key) key

theorem constraints_intern {p : Program} (hv : p.Valid) (key : Slot) :
    (p.intern key).1.constraints = p.constraints := by
  have hpre := p.keys_intern key
  rw [p.intern_eq key] at hpre ⊢
  rw [constraints, constraints, readAsking, readAsking]
  congr 1
  congr 1
  congr 1
  congr 1
  congr 1
  · refine List.map_congr_left fun c hc => ?_
    obtain ⟨hs, ht⟩ := hv.copies _ _ hc
    rw [flowOf, keyAt_of_isPrefix hpre hs, keyAt_of_isPrefix hpre ht, flowOf]
  · refine List.map_congr_left fun u hu => ?_
    have hw := hv.seeds u hu
    cases u with
    | add t f => rw [flowOf, keyAt_of_isPrefix hpre hw, flowOf]
    | copy s t => exact hw.elim
    | block t => rw [flowOf, keyAt_of_isPrefix hpre hw, flowOf]
  · refine List.map_congr_left fun c hc => ?_
    rw [origins_of_isPrefix hpre (hv.staticCalls c hc)]
  · refine List.map_congr_left fun c hc => ?_
    obtain ⟨ht, hargs⟩ := hv.calls c hc
    rw [keyAt_of_isPrefix hpre ht, origins_of_isPrefix hpre hargs]
  · refine List.map_congr_left fun d hd => ?_
    rw [origin_of_isPrefix hpre (hv.defaults d hd)]

/-! ## Places that were handed out -/

theorem forall_mem_concat {α : Type} {P : α → Prop} {l : List α} {a : α} (hl : ∀ x ∈ l, P x)
    (ha : P a) : ∀ x ∈ l ++ [a], P x :=
  List.forall_mem_append.mpr ⟨hl, List.forall_mem_singleton.mpr ha⟩

namespace Valid

variable {p : Program}

theorem empty : Program.empty.Valid :=
  ⟨by simp [keys, Program.empty], by simp [Program.empty], by simp [Program.empty],
    by simp [Program.empty], by simp [Program.empty], by simp [Program.empty]⟩

theorem intern (h : p.Valid) (key : Slot) : (p.intern key).1.Valid := by
  have hle : p.keys.length ≤ (p.intern key).1.keys.length := (p.keys_intern key).length_le
  obtain ⟨hn, hc, hs, hk, ht, hd⟩ := h
  have hn' := p.nodup_keys_intern key hn
  rw [p.intern_eq key] at hle hn' ⊢
  exact ⟨hn', fun s t hst => (hc s t hst).imp (·.trans_le hle) (·.trans_le hle),
    fun u hu => (hs u hu).mono hle, fun c hc => (hk c hc).mono hle,
    fun c hc => (ht c hc).imp (·.trans_le hle) (·.mono hle), fun d hd' => (hd d hd').mono hle⟩

theorem copy (h : p.Valid) {s t : SlotId} (hs : s < p.slots.length) (ht : t < p.slots.length) :
    (p.addCopy s t).1.Valid := by
  rw [addCopy]
  split
  · exact h
  · refine { h with copies := fun s' t' hmem => ?_ }
    rcases List.mem_append.mp hmem with hold | hnew
    · exact h.copies s' t' hold
    · obtain ⟨rfl, rfl⟩ := Prod.mk.inj (List.mem_singleton.mp hnew)
      exact ⟨by rwa [length_keys], by rwa [length_keys]⟩

theorem seed (h : p.Valid) {u : Update} (hu : u.SeedWithin p.slots.length) :
    Valid { p with seeds := p.seeds ++ [u] } :=
  { h with seeds := forall_mem_concat h.seeds (p.length_keys ▸ hu) }

theorem assign (h : p.Valid) {v : Value} {t : SlotId} (hv : v.Within p.slots.length)
    (ht : t < p.slots.length) : (p.assign v t).Valid := by
  cases v with
  | slot s => exact h.copy hv ht
  | function f => exact h.seed (u := .add t f) ht
  | blocked => exact h.seed (u := .block t) ht

theorem staticCall (h : p.Valid) {call : StaticCall} (hargs : ArgsWithin p.slots.length call.args) :
    (p.addStaticCall call).Valid :=
  { h with staticCalls := forall_mem_concat h.staticCalls (p.length_keys ▸ hargs) }

theorem indirectCall (h : p.Valid) {call : IndirectCall} (ht : call.through < p.slots.length)
    (hargs : ArgsWithin p.slots.length call.args) : (p.addIndirectCall call).Valid :=
  { h with calls := forall_mem_concat h.calls (p.length_keys ▸ ⟨ht, hargs⟩) }

theorem default (h : p.Valid) {f : NodeId} {index : Nat} {v : Value}
    (hv : v.Within p.slots.length) : (p.addDefault f index v).Valid :=
  { h with defaults := forall_mem_concat h.defaults (p.length_keys ▸ hv) }

theorem expansion (h : p.Valid) (f : NodeId) (others : List NodeId) :
    (p.addExpansion f others).Valid := by
  rw [addExpansion]
  split
  · exact h
  · exact { h with }

theorem adds {q : Program} {new : List (Constraint NodeId)} (h : p.Valid) (hadds : Adds p q new) :
    q.Valid := by
  cases hadds with
  | intern key => exact h.intern key
  | copy s t hs ht => exact h.copy hs ht
  | assign v t hv ht => exact h.assign hv ht
  | staticCall call hargs => exact h.staticCall hargs
  | indirectCall call ht hargs => exact h.indirectCall ht hargs
  | default f index v hv => exact h.default hv
  | expansion f others => exact h.expansion f others

end Valid

/-! ## What a step asks for -/

/-- A later stage of a program, which asks for more, apart from copies of a slot to itself, but in
which nothing has flowed in between. -/
structure Extends (p q : Program) (new : List (Constraint NodeId)) : Prop where
  keys : p.keys <+: q.keys
  holds : ∀ {id x}, q.Holds id x ↔ p.Holds id x
  bound : q.bound = p.bound
  sound : ∀ c ∈ q.constraints, c ∈ p.constraints ∨ c ∈ new
  complete : ∀ c, c ∈ p.constraints ∨ c ∈ new →
    c ∈ q.constraints ∨ ∃ key, c = .flow (.slot key) key

namespace Extends

variable {p q : Program} {new : List (Constraint NodeId)}

/-- A program that asks for more, over the same slots. -/
theorem of_slots (hslots : q.slots = p.slots) (hbound : q.bound = p.bound)
    (hmem : ∀ c, c ∈ p.readAsking q ↔ c ∈ p.readAsking p ∨ c ∈ new) : Extends p q new where
  keys := by
    have hkeys : q.keys = p.keys := by rw [Program.keys, Program.keys, hslots]
    exact hkeys ▸ List.prefix_refl _
  holds := by
    intro id x
    cases x <;> simp only [Holds, heldBy, isBlocked, hslots]
  bound := hbound
  sound c hc := by
    rw [constraints, readAsking_congr hslots] at hc
    exact (hmem c).mp hc
  complete c hc := by
    rw [constraints, readAsking_congr hslots]
    exact Or.inl ((hmem c).mpr hc)

theorem intern (hv : p.Valid) (key : Slot) : Extends p (p.intern key).1 [] where
  keys := p.keys_intern key
  holds := p.holds_intern key
  bound := by rw [p.intern_eq key]
  sound := by
    rw [constraints_intern hv]
    exact fun _ => Or.inl
  complete := by
    rw [constraints_intern hv]
    rintro c (hc | hc)
    · exact Or.inl hc
    · exact absurd hc List.not_mem_nil

theorem copy (s t : SlotId) :
    Extends p (p.addCopy s t).1 [.flow (.slot (p.keyAt s)) (p.keyAt t)] := by
  rw [addCopy]
  split
  · -- the copy is there already, or it would not carry anything
    next hor =>
    refine ⟨List.prefix_refl _, Iff.rfl, rfl, fun c => Or.inl, ?_⟩
    rintro c (hold | hnew)
    · exact Or.inl hold
    · rw [List.mem_singleton.mp hnew]
      rcases hor with rfl | hmem
      · exact Or.inr ⟨_, rfl⟩
      · exact Or.inl (mem_constraints_flow.mpr (Or.inl ⟨s, t, hmem, rfl⟩))
  · refine of_slots rfl rfl fun c => ?_
    simp only [readAsking, List.map_append, List.mem_append, List.map_cons, List.map_nil, flowOf]
    grind

/-- One seed more. -/
theorem seed (u : Update) : Extends p { p with seeds := p.seeds ++ [u] } [p.flowOf u] := by
  refine of_slots rfl rfl fun c => ?_
  simp only [readAsking, List.map_append, List.mem_append, List.map_cons, List.map_nil]
  grind

theorem assign (v : Value) (t : SlotId) :
    Extends p (p.assign v t) [.flow (p.origin v) (p.keyAt t)] := by
  cases v with
  | slot s => exact copy s t
  | function f => exact seed (.add t f)
  | blocked => exact seed (.block t)

theorem staticCall (call : StaticCall) : Extends p (p.addStaticCall call)
    [.call call.callee (p.origins call.args) call.explicit] := by
  refine of_slots rfl rfl fun c => ?_
  simp only [readAsking, addStaticCall, List.map_append, List.mem_append, List.map_cons,
    List.map_nil]
  grind

theorem indirectCall (call : IndirectCall) : Extends p (p.addIndirectCall call)
    [.callThrough (p.keyAt call.through) (p.origins call.args) call.explicit call.expand] := by
  refine of_slots rfl rfl fun c => ?_
  simp only [readAsking, addIndirectCall, List.map_append, List.mem_append, List.map_cons,
    List.map_nil]
  grind

theorem default (f : NodeId) (index : Nat) (v : Value) :
    Extends p (p.addDefault f index v) [.default f index (p.origin v)] := by
  refine of_slots rfl rfl fun c => ?_
  simp only [readAsking, addDefault, List.map_append, List.mem_append, List.map_cons,
    List.map_nil]
  grind

theorem expansion (f : NodeId) (others : List NodeId) :
    Extends p (p.addExpansion f others) (others.map (.overrider f)) := by
  rw [addExpansion]
  split
  · next hempty =>
    rw [List.isEmpty_iff.mp hempty, List.map_nil]
    refine of_slots rfl rfl fun c => ?_
    rw [or_iff_left List.not_mem_nil]
  · refine of_slots rfl rfl fun c => ?_
    simp only [readAsking, List.flatMap_append, List.mem_append, List.flatMap_cons,
      List.flatMap_nil, List.append_nil]
    grind

end Extends

theorem Adds.extends {p q : Program} {new : List (Constraint NodeId)} (h : Adds p q new)
    (hv : p.Valid) : Extends p q new := by
  cases h with
  | intern key => exact .intern hv key
  | copy s t _ _ => exact .copy s t
  | assign v t _ _ => exact .assign v t
  | staticCall call _ => exact .staticCall call
  | indirectCall call _ _ => exact .indirectCall call
  | default f index v _ => exact .default f index v
  | expansion f others => exact .expansion f others

namespace Represents

variable {p q : Program} {cs new : List (Constraint NodeId)}

theorem empty : Represents .empty [] where
  valid := .empty
  fresh := ⟨fun id x h => absurd h.lt_length (by simp [Program.empty]), rfl⟩
  sound := by simp [constraints, readAsking, Program.empty]
  complete := by simp

theorem adds (h : Represents p cs) (hadds : Adds p q new) : Represents q (cs ++ new) := by
  have hextends := hadds.extends h.valid
  refine ⟨h.valid.adds hadds, ?_, ?_, ?_⟩
  · exact ⟨fun id x hx => h.fresh.holds id x (hextends.holds.mp hx),
      hextends.bound.trans h.fresh.bound⟩
  · intro c hc
    exact List.mem_append.mpr ((hextends.sound c hc).imp_left (h.sound c))
  · intro c hc
    rcases List.mem_append.mp hc with hold | hnew
    · rcases h.complete c hold with hp | hself
      · exact hextends.complete c (Or.inl hp)
      · exact Or.inr hself
    · exact hextends.complete c (Or.inr hnew)

end Represents

theorem Built.represents {p : Program} {cs : List (Constraint NodeId)} (h : Built p cs) :
    Represents p cs := by
  induction h with
  | empty => exact .empty
  | @intern _ cs key _ ih => exact List.append_nil cs ▸ ih.adds (.intern key)
  | copy s t _ hs ht ih => exact ih.adds (.copy s t hs ht)
  | assign v t _ hv ht ih => exact ih.adds (.assign v t hv ht)
  | staticCall call _ hargs ih => exact ih.adds (.staticCall call hargs)
  | indirectCall call _ ht hargs ih => exact ih.adds (.indirectCall call ht hargs)
  | default f index v _ hv ih => exact ih.adds (.default f index v hv)
  | expansion f others _ ih => exact ih.adds (.expansion f others)

/-- The program and the list of constraints have the same solutions. -/
theorem Represents.solves_iff {p : Program} {cs : List (Constraint NodeId)} (h : Represents p cs)
    {name : NodeId → FunctionKey} {F : Family NodeId} :
    Solves {c | c ∈ cs} name F ↔ Solves {c | c ∈ p.constraints} name F :=
  ⟨fun hF => hF.anti fun c hc => Or.inl (h.sound c hc), fun hF => hF.anti h.complete⟩

end Program

end Flow

end CallGraphs
