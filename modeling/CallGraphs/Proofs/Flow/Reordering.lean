import CallGraphs.Proofs.Flow.Runs

/-!
# Steps in another order

The order in which constraints are added decides on the places of slots, on the
numbers of calls, and on when a copy comes in; the outcome of a run depends on
none of these.  What the slots hold after a round, by name, is what they hold
after so many steps to the least solution (`Reached`), and these know constraints
only as a set.  So two programs that ask for the same over the same slots go
through their rounds side by side: after each of them they have the same slots,
which hold the same (`Reached.sameSlots`), and so they come to the same cap, to
the same counts, and to an end in the same round (`rounds_alike`).

A run is broken off when it comes upon a function that the graph does not have.
The two runs then are in the same round, but which function it is that they come
upon first depends on the order (`SameOutcome.unknown`).
-/

namespace CallGraphs

namespace Flow

/-! ## Steps by name -/

/-- One step in which a program comes about, with slots by name. -/
inductive Step where
  | intern (key : Slot)
  | copy (source target : Slot)
  | assign (value : Origin NodeId) (target : Slot)
  | staticCall (callee : NodeId) (args : List (Option (Origin NodeId))) (explicit : Nat)
  | indirectCall (through : Slot) (args : List (Option (Origin NodeId))) (explicit : Nat)
      (expand : Bool)
  | default (function : NodeId) (index : Nat) (value : Origin NodeId)
  | expansion (function : NodeId) (overriders : List NodeId)

/-- The slot that a value names, if any. -/
def Origin.keys : Origin NodeId → List Slot
  | slot key => [key]
  | item _ => []

/-- The slots that arguments name. -/
def argKeys (args : List (Option (Origin NodeId))) : List Slot :=
  args.flatMap fun arg => arg.elim [] Origin.keys

namespace Step

/-- The slots that a step names. -/
def keys : Step → List Slot
  | intern key => [key]
  | copy source target => [source, target]
  | assign value target => target :: value.keys
  | staticCall _ args _ => argKeys args
  | indirectCall through args _ _ => through :: argKeys args
  | default _ _ value => value.keys
  | expansion .. => []

/-- What a step asks for. -/
def constraints : Step → List (Constraint NodeId)
  | intern _ => []
  | copy source target => [.flow (.slot source) target]
  | assign value target => [.flow value target]
  | staticCall callee args explicit => [.call callee args explicit]
  | indirectCall through args explicit expand => [.callThrough through args explicit expand]
  | default f index value => [.default f index value]
  | expansion f overriders => overriders.map (.overrider f)

end Step

namespace Program

/-- Gives every slot a place. -/
def internAll (p : Program) (keys : List Slot) : Program :=
  keys.foldl (fun p key => (p.intern key).1) p

/-- The place of a slot that has one. -/
def placeOf (p : Program) (key : Slot) : SlotId := (p.intern key).2

/-- A value, with slots by place. -/
def valueOf (p : Program) : Origin NodeId → Value
  | .slot key => .slot (p.placeOf key)
  | .item (.function f) => .function f
  | .item .blocked => .blocked

/-- Arguments, with slots by place. -/
def valuesOf (p : Program) (args : List (Option (Origin NodeId))) : List (Option Value) :=
  args.map (·.map p.valueOf)

/-- Takes a step in a program that has places for all slots that the step names. -/
def perform (p : Program) : Step → Program
  | .intern _ => p
  | .copy source target => (p.addCopy (p.placeOf source) (p.placeOf target)).1
  | .assign value target => p.assign (p.valueOf value) (p.placeOf target)
  | .staticCall callee args explicit => p.addStaticCall ⟨callee, p.valuesOf args, explicit⟩
  | .indirectCall through args explicit expand =>
    p.addIndirectCall ⟨p.placeOf through, p.valuesOf args, explicit, expand⟩
  | .default f index value => p.addDefault f index (p.valueOf value)
  | .expansion f overriders => p.addExpansion f overriders

/-- Takes a step, which gives places to the slots that it names. -/
def take (p : Program) (step : Step) : Program := (p.internAll step.keys).perform step

/-- The program that comes about by steps, in their order. -/
def ofSteps (steps : List Step) : Program := steps.foldl take .empty

section Taking

variable {p : Program} {cs : List (Constraint NodeId)} {key : Slot}

theorem slotId?_placeOf (h : key ∈ p.keys) : p.slotId? key = some (p.placeOf key) := by
  rw [placeOf, intern]
  cases hfind : p.slotId? key with
  | some id => rfl
  | none =>
      rw [slotId?_eq, List.findIdx?_eq_none_iff] at hfind
      exact absurd (hfind key h) (by simp)

theorem getElem?_placeOf (h : key ∈ p.keys) : p.keys[p.placeOf key]? = some key :=
  getElem?_of_slotId? (slotId?_placeOf h)

theorem keyAt_placeOf (h : key ∈ p.keys) : p.keyAt (p.placeOf key) = key :=
  keyAt_of_getElem? (getElem?_placeOf h)

theorem placeOf_lt (h : key ∈ p.keys) : p.placeOf key < p.slots.length := by
  rw [← length_keys]
  exact (List.getElem?_eq_some_iff.mp (getElem?_placeOf h)).1

theorem origin_valueOf {value : Origin NodeId} (h : ∀ key ∈ value.keys, key ∈ p.keys) :
    p.origin (p.valueOf value) = value := by
  cases value with
  | slot key => exact congrArg Origin.slot (keyAt_placeOf (h key (List.mem_singleton.mpr rfl)))
  | item x => cases x <;> rfl

theorem within_valueOf {value : Origin NodeId} (h : ∀ key ∈ value.keys, key ∈ p.keys) :
    (p.valueOf value).Within p.slots.length := by
  cases value with
  | slot key => exact placeOf_lt (h key (List.mem_singleton.mpr rfl))
  | item x => cases x <;> trivial

theorem mem_argKeys {args : List (Option (Origin NodeId))} {value : Origin NodeId}
    (hvalue : some value ∈ args) (hkey : key ∈ value.keys) : key ∈ argKeys args :=
  List.mem_flatMap.mpr ⟨some value, hvalue, hkey⟩

theorem origins_valuesOf {args : List (Option (Origin NodeId))}
    (h : ∀ key ∈ argKeys args, key ∈ p.keys) : p.origins (p.valuesOf args) = args := by
  rw [origins, valuesOf, List.map_map]
  refine (List.map_congr_left fun arg harg => ?_).trans (List.map_id args)
  cases arg with
  | none => rfl
  | some value =>
      exact congrArg some (origin_valueOf fun key hkey => h key (mem_argKeys harg hkey))

theorem within_valuesOf {args : List (Option (Origin NodeId))}
    (h : ∀ key ∈ argKeys args, key ∈ p.keys) : ArgsWithin p.slots.length (p.valuesOf args) := by
  intro v hv
  obtain ⟨arg, harg, heq⟩ := List.mem_map.mp hv
  obtain ⟨value, rfl, rfl⟩ := Option.map_eq_some_iff.mp heq
  exact within_valueOf fun key hkey => h key (mem_argKeys harg hkey)

theorem Built.internAll (h : Built p cs) (keys : List Slot) : Built (p.internAll keys) cs := by
  induction keys generalizing p with
  | nil => exact h
  | cons key keys ih => exact ih (h.intern key)

theorem mem_keys_internAll (keys : List Slot) :
    key ∈ (p.internAll keys).keys ↔ key ∈ p.keys ∨ key ∈ keys := by
  induction keys generalizing p with
  | nil => simp [Program.internAll]
  | cons first keys ih =>
      refine ih.trans ?_
      rw [List.mem_cons, ← or_assoc]
      refine or_congr_left ⟨p.mem_keys_intern first, ?_⟩
      rintro (hold | rfl)
      · exact (p.keys_intern first).subset hold
      · exact List.mem_of_getElem? (getElem?_of_slotId? (p.slotId?_intern key))

/-- A step asks for what its constraints say. -/
theorem Built.perform (h : Built p cs) {step : Step} (hkeys : ∀ key ∈ step.keys, key ∈ p.keys) :
    Built (p.perform step) (cs ++ step.constraints) := by
  cases step with
  | intern key =>
      rw [Step.constraints, List.append_nil]
      exact h
  | copy source target =>
      have hs : source ∈ p.keys := hkeys source List.mem_cons_self
      have ht : target ∈ p.keys := hkeys target (List.mem_cons_of_mem _ List.mem_cons_self)
      have hcopy := h.copy _ _ (placeOf_lt hs) (placeOf_lt ht)
      rwa [keyAt_placeOf hs, keyAt_placeOf ht] at hcopy
  | assign value target =>
      have ht : target ∈ p.keys := hkeys target List.mem_cons_self
      have hv : ∀ key ∈ value.keys, key ∈ p.keys :=
        fun key hkey => hkeys key (List.mem_cons_of_mem _ hkey)
      have hassign := h.assign _ _ (within_valueOf hv) (placeOf_lt ht)
      rwa [origin_valueOf hv, keyAt_placeOf ht] at hassign
  | staticCall callee args explicit =>
      have hcall := h.staticCall ⟨callee, p.valuesOf args, explicit⟩ (within_valuesOf hkeys)
      rwa [origins_valuesOf hkeys] at hcall
  | indirectCall through args explicit expand =>
      have ht : through ∈ p.keys := hkeys through List.mem_cons_self
      have hargs : ∀ key ∈ argKeys args, key ∈ p.keys :=
        fun key hkey => hkeys key (List.mem_cons_of_mem _ hkey)
      have hcall := h.indirectCall ⟨p.placeOf through, p.valuesOf args, explicit, expand⟩
        (placeOf_lt ht) (within_valuesOf hargs)
      rwa [origins_valuesOf hargs, keyAt_placeOf ht] at hcall
  | default f index value =>
      have hdefault := h.default f index _ (within_valueOf hkeys)
      rwa [origin_valueOf hkeys] at hdefault
  | expansion f overriders => exact h.expansion f overriders

theorem slots_addCopy (s t : SlotId) : (p.addCopy s t).1.slots = p.slots := by
  rw [addCopy]
  split <;> rfl

theorem slots_perform (step : Step) : (p.perform step).slots = p.slots := by
  cases step with
  | copy source target => exact slots_addCopy _ _
  | assign value target =>
      rcases value with key | f | -
      · exact slots_addCopy _ _
      · rfl
      · rfl
  | expansion f overriders =>
      rw [perform, addExpansion]
      split <;> rfl
  | _ => rfl

theorem Built.take (h : Built p cs) (step : Step) :
    Built (p.take step) (cs ++ step.constraints) :=
  (h.internAll step.keys).perform fun _ hkey => (mem_keys_internAll _).mpr (Or.inr hkey)

theorem mem_keys_take (step : Step) :
    key ∈ (p.take step).keys ↔ key ∈ p.keys ∨ key ∈ step.keys := by
  rw [Program.take, keys, slots_perform]
  exact mem_keys_internAll _

theorem Built.takeAll (h : Built p cs) (steps : List Step) :
    Built (steps.foldl Program.take p) (cs ++ steps.flatMap Step.constraints) := by
  induction steps generalizing p cs with
  | nil =>
      rw [List.flatMap_nil, List.append_nil]
      exact h
  | cons step steps ih =>
      rw [List.flatMap_cons, ← List.append_assoc]
      exact ih (h.take step)

theorem mem_keys_takeAll (steps : List Step) : key ∈ (steps.foldl Program.take p).keys ↔
    key ∈ p.keys ∨ key ∈ steps.flatMap Step.keys := by
  induction steps generalizing p with
  | nil => simp
  | cons step steps ih =>
      refine ih.trans ?_
      rw [mem_keys_take, List.flatMap_cons, List.mem_append, or_assoc]

end Taking

theorem built_ofSteps (steps : List Step) :
    Built (ofSteps steps) (steps.flatMap Step.constraints) :=
  Built.empty.takeAll steps

theorem mem_keys_ofSteps {steps : List Step} {key : Slot} :
    key ∈ (ofSteps steps).keys ↔ key ∈ steps.flatMap Step.keys := by
  refine (mem_keys_takeAll steps).trans (or_iff_right ?_)
  simp [keys, Program.empty]

/-! ## The same slots -/

/-- Whether a slot is blocked, by its name. -/
def blockedAt (p : Program) (key : Slot) : Bool := (p.slotId? key).any p.isBlocked

theorem blocked_mem_contents {p : Program} {key : Slot} :
    .blocked ∈ p.contents key ↔ p.blockedAt key = true := by
  change (∃ id, p.slotId? key = some id ∧ p.isBlocked id = true) ↔ _
  rw [blockedAt]
  cases p.slotId? key <;> simp

end Program

/-- Two programs have the same slots, at whatever places, and these hold the same. -/
structure SameSlots (q q' : Program) : Prop where
  keys : q.keys.Perm q'.keys
  aliasSet : ∀ key, q.aliasSet key = q'.aliasSet key
  blocked : ∀ key, q.blockedAt key = q'.blockedAt key

/-- Two runs have the same outcome: both end with the same counts and the same slots, or both fail
for the same reason. -/
inductive SameOutcome :
    Program × Except Failure FixpointStats → Program × Except Failure FixpointStats → Prop where
  | ended {q q' : Program} (stats : FixpointStats) : SameSlots q q' →
      SameOutcome (q, .ok stats) (q', .ok stats)
  | failed {q q' : Program} (failure : Failure) :
      SameOutcome (q, .error failure) (q', .error failure)
  /-- Both come upon functions that do not exist, which need not be the same first. -/
  | unknown {q q' : Program} (f f' : NodeId) :
      SameOutcome (q, .error (.unknownFunction f)) (q', .error (.unknownFunction f'))

theorem SameOutcome.result_eq {r r' : Program × Except Failure FixpointStats}
    (h : SameOutcome r r') (hknown : ∀ f, r.2 ≠ .error (.unknownFunction f)) : r.2 = r'.2 := by
  cases h with
  | ended stats => rfl
  | failed failure => rfl
  | unknown f f' => exact absurd rfl (hknown f)

namespace SameSlots

variable {q q' : Program}

theorem of_contents (hkeys : q.keys.Perm q'.keys) (hcontents : q.contents = q'.contents) :
    SameSlots q q' where
  keys := hkeys
  aliasSet key := by
    refine SortedSet.eq_of_forall_mem_iff fun f => ?_
    rw [← Program.function_mem_contents, hcontents, Program.function_mem_contents]
  blocked key := by
    rw [Bool.eq_iff_iff, ← Program.blocked_mem_contents, hcontents, Program.blocked_mem_contents]

theorem length_eq (h : SameSlots q q') : q.slots.length = q'.slots.length := by
  rw [← Program.length_keys, ← Program.length_keys]
  exact h.keys.length_eq

theorem capFor_eq (h : SameSlots q q') (functions : Nat) (limit : Option Nat) :
    q.capFor functions limit = q'.capFor functions limit := by
  rw [Program.capFor, Program.capFor, h.length_eq]

theorem total_eq (h : SameSlots q q') (hnodup : q.keys.Nodup) (hnodup' : q'.keys.Nodup) :
    q.total = q'.total := by
  rw [Program.total_eq hnodup, Program.total_eq hnodup']
  simp only [h.aliasSet]
  exact (h.keys.map _).sum_eq

end SameSlots

/-! ## Rounds side by side -/

section Programs

open Binding

variable {p p' : Program} {cs cs' : List (Constraint NodeId)} {names : List FunctionKey}
  {b b' : Binding} {n : Nat} {q q' : Program} {changes changes' : List SlotId}

/-- Only which constraints there are counts. -/
theorem Program.Represents.congr (h : p.Represents cs) (hcs : ∀ c, c ∈ cs ↔ c ∈ cs') :
    p.Represents cs' where
  valid := h.valid
  fresh := h.fresh
  sound c hc := (hcs c).mp (h.sound c hc)
  complete c hc := h.complete c ((hcs c).mpr hc)

theorem Program.Represents.after_eq (h : p.Represents cs) (n : Nat) :
    after {c | c ∈ p.constraints} (nameOf names) n = after {c | c ∈ cs} (nameOf names) n :=
  after_congr h.sound h.complete n

theorem Program.Represents.called_iff (h : p.Represents cs) {F : Family NodeId} {f : NodeId}
    {args : List (Option (Origin NodeId))} {explicit : Nat} :
    Called {c | c ∈ p.constraints} F f args explicit ↔ Called {c | c ∈ cs} F f args explicit :=
  called_congr h.sound h.complete

theorem Program.mem_keys_of_origin {v : Value} {source : Slot} (hv : v.Within p.keys.length)
    (heq : p.origin v = .slot source) : source ∈ p.keys := by
  cases v with
  | slot id =>
      obtain rfl := Origin.slot.inj heq
      exact List.mem_of_getElem? (getElem?_keyAt hv)
  | function f => exact absurd heq (by simp [origin])
  | blocked => exact absurd heq (by simp [origin])

/-- The arguments of a call flow from values that refer to places of the program. -/
theorem Program.Valid.exists_values (hv : p.Valid) {F : Family NodeId} {f : NodeId}
    {args : List (Option (Origin NodeId))} {explicit : Nat}
    (h : Called {c | c ∈ p.constraints} F f args explicit) :
    ∃ values, args = p.origins values ∧ ArgsWithin p.keys.length values := by
  cases h with
  | known hc =>
      obtain ⟨call, hmem, rfl, rfl, rfl⟩ := mem_constraints_call.mp hc
      exact ⟨_, rfl, hv.staticCalls call hmem⟩
  | held hc _ =>
      obtain ⟨call, hmem, rfl, rfl, rfl, rfl⟩ := mem_constraints_callThrough.mp hc
      exact ⟨_, rfl, (hv.calls call hmem).2⟩
  | overrider hc _ _ =>
      obtain ⟨call, hmem, rfl, rfl, rfl, -⟩ := mem_constraints_callThrough.mp hc
      exact ⟨_, rfl, (hv.calls call hmem).2⟩

/-- A slot that flows somewhere is one of the program's own. -/
theorem Program.Valid.mem_keys_of_flows (hv : p.Valid) {F : Family NodeId} {source key : Slot}
    (h : Flows {c | c ∈ p.constraints} (nameOf names) F (.slot source) key) : source ∈ p.keys := by
  cases h with
  | given hc =>
      rcases mem_constraints_flow.mp hc with ⟨s, t, hst, heq⟩ | ⟨u, hu, heq⟩
      · obtain ⟨hs, -⟩ := Constraint.flow.inj heq
        exact mem_keys_of_origin (v := .slot s) (hv.copies s t hst).1 hs
      · have hwithin := hv.seeds u hu
        cases u with
        | add t f => exact absurd heq (by simp [flowOf])
        | copy s t => exact hwithin.elim
        | block t => exact absurd heq (by simp [flowOf])
  | argument hcall hi =>
      obtain ⟨values, rfl, hwithin⟩ := hv.exists_values hcall
      simp only [origins, List.getElem?_map, Option.map_eq_some_iff] at hi
      obtain ⟨_, hi, v, rfl, heq⟩ := hi
      exact mem_keys_of_origin (hwithin v (List.mem_of_getElem? hi)) heq
  | default hcall hd _ =>
      obtain ⟨d, hmem, -, -, heq⟩ := mem_constraints_default.mp hd
      exact mem_keys_of_origin (hv.defaults d hmem) heq

namespace Reached

theorem contents_eq (hp : p.Represents cs) (h : Reached p names n changes q) :
    q.contents = after {c | c ∈ cs} (nameOf names) (n + 1) :=
  h.contents.trans (hp.after_eq _)

theorem nil_iff (hp : p.Represents cs) (h : Reached p names n changes q) : changes = [] ↔
    after {c | c ∈ cs} (nameOf names) (n + 1) = after {c | c ∈ cs} (nameOf names) n := by
  rw [h.changes_eq_nil_iff, hp.after_eq, hp.after_eq]

/-- The same slots have come in. -/
theorem keys_subset (hp : p.Represents cs) (hp' : p'.Represents cs)
    (hkeys : ∀ key, key ∈ p.keys ↔ key ∈ p'.keys) (h : Reached p names n changes q)
    (h' : Reached p' names n changes' q') : q.keys ⊆ q'.keys := by
  intro key hkey
  refine (h'.mem_keys_iff key).mpr ?_
  rcases (h.mem_keys_iff key).mp hkey with hold | ⟨o, hflow⟩
  · exact Or.inl ((hkeys key).mp hold)
  have hmore : Flows {c | c ∈ cs} (nameOf names) _ o key := hflow.anti hp.sound
  rw [hp.after_eq, ← hp'.after_eq] at hmore
  rcases hmore.of_congr hp'.sound hp'.complete with hflow' | rfl
  · exact Or.inr ⟨o, hflow'⟩
  · -- a slot that flows into itself was there from the beginning
    exact Or.inl ((hkeys key).mp (hp.valid.mem_keys_of_flows hflow))

theorem sameSlots (hp : p.Represents cs) (hp' : p'.Represents cs)
    (hkeys : ∀ key, key ∈ p.keys ↔ key ∈ p'.keys) (h : Reached p names n changes q)
    (h' : Reached p' names n changes' q') : SameSlots q q' := by
  refine .of_contents ?_ ((h.contents_eq hp).trans (h'.contents_eq hp').symm)
  refine (List.perm_ext_iff_of_nodup h.stage.follows.nodup h'.stage.follows.nodup).mpr ?_
  intro key
  exact ⟨fun hkey => keys_subset hp hp' hkeys h h' hkey,
    fun hkey => keys_subset hp' hp (fun key => (hkeys key).symm) h' h hkey⟩

/-- A round comes upon no unknown function if and only if all functions are known that are called at
its beginning. -/
theorem missing_eq_none_iff (hp : p.Represents cs) (h : Reached p names n changes q)
    (hb : changes.foldl (discover names) { program := q } = b) :
    b.missing = none ↔ ∀ f args explicit,
      Called {c | c ∈ cs} (after {c | c ∈ cs} (nameOf names) (n + 1)) f args explicit →
        f < names.length := by
  subst hb
  have hv := hp.valid
  simp only [← hp.called_iff, ← h.contents_eq hp]
  constructor
  · intro hmissing f args explicit hcall
    have hgrows : Grows (fun _ _ => True) { program := q } _ :=
      grows_discovers (licensedCalls_true names q) changes
    rw [← hgrows.contents h.stage.follows.nodup] at hcall
    obtain ⟨_, -, -, key, hkey, -⟩ := (h.stage.discoverAll hv hmissing).passed_of_called hv hcall
    exact (List.getElem?_eq_some_iff.mp hkey).1
  · intro hknown
    refine missing_discovers ?_ rfl changes
    intro call hcall f hf
    have hfollows : Follows p q := h.stage.follows
    refine hknown f _ _ (called_of_target (b := { program := q }) hv hfollows ?_
      (hfollows.calls ▸ hcall) hf)
    intro id key x hkey hx
    exact (Program.mem_contents hfollows.nodup hkey).mpr hx

end Reached

/-- The calls of known functions come upon no unknown function if and only if they are all calls of
functions that are known. -/
theorem missing_knowns_iff (hp : p.Represents cs)
    (hb : p.staticCalls.foldl (bindKnown names) (startOf p) = b) :
    b.missing = none ↔ ∀ f args explicit, .call f args explicit ∈ cs → f < names.length := by
  subst hb
  have hmem : ∀ f args explicit, .call f args explicit ∈ p.constraints ↔
      .call f args explicit ∈ cs := fun f args explicit =>
    ⟨hp.sound _, fun hc => (hp.complete _ hc).resolve_right (by simp)⟩
  simp only [← hmem]
  constructor
  · intro hmissing f args explicit hc
    obtain ⟨call, hcall, rfl, -, -⟩ := Program.mem_constraints_call.mp hc
    obtain ⟨key, hkey, -⟩ := passed_bindKnowns hmissing call hcall
    exact (List.getElem?_eq_some_iff.mp hkey).1
  · intro hknown
    refine missing_bindKnowns rfl _ ?_
    intro call hcall
    exact hknown _ _ _ (Program.mem_constraints_call.mpr ⟨call, hcall, rfl, rfl, rfl⟩)

variable {limit : Option Nat} {cancelled : Bool} {bound bound' : Nat} {stats : FixpointStats}

/-- A run that may take no more rounds has reached its cap. -/
theorem Reached.cap_lt (h : Reached p names stats.rounds changes q)
    (hbound : 0 + stats.rounds = p.roundBound names.length limit) :
    q.capFor names.length limit < stats.rounds + 1 := by
  have hcap : q.capFor names.length limit ≤ p.roundBound names.length limit :=
    h.stage.follows.capFor_le h.keys limit
  omega

/-- Rounds that are over at once come to the same over the same slots. -/
theorem rounds_over_alike (hsame : SameSlots q q') (hnil : changes = [] ↔ changes' = [])
    (hdone : changes = [] ∨ cancelled = true ∨
      q.capFor names.length limit < stats.rounds + 1) :
    SameOutcome (q.rounds names limit cancelled bound changes stats)
      (q'.rounds names limit cancelled bound' changes' stats) := by
  have hdone' := hdone
  rw [hnil, hsame.capFor_eq] at hdone'
  rw [rounds_over hdone, rounds_over hdone', hsame.length_eq, hsame.capFor_eq]
  by_cases hempty : changes = []
  · rw [if_pos hempty, if_pos (hnil.mp hempty)]
    exact .ended _ hsame
  · rw [if_neg hempty, if_neg (hnil.not.mp hempty)]
    split <;> exact .failed _

/-- Rounds of two programs that ask for the same, over the same slots, come to the same. -/
theorem rounds_alike (hp : p.Represents cs) (hp' : p'.Represents cs)
    (hkeys : ∀ key, key ∈ p.keys ↔ key ∈ p'.keys) (h : Reached p names stats.rounds changes q)
    (h' : Reached p' names stats.rounds changes' q')
    (hbound : bound + stats.rounds = p.roundBound names.length limit)
    (hbound' : bound' + stats.rounds = p'.roundBound names.length limit) :
    SameOutcome (q.rounds names limit cancelled bound changes stats)
      (q'.rounds names limit cancelled bound' changes' stats) := by
  induction bound generalizing q q' changes changes' bound' stats with
  | zero =>
      have hnil := (h.nil_iff hp).trans (h'.nil_iff hp').symm
      exact rounds_over_alike (h.sameSlots hp hp' hkeys h') hnil
        (Or.inr (Or.inr (h.cap_lt hbound)))
  | succ bound ih =>
      have hsame := h.sameSlots hp hp' hkeys h'
      have hnil := (h.nil_iff hp).trans (h'.nil_iff hp').symm
      by_cases hdone : changes = [] ∨ cancelled = true ∨
          q.capFor names.length limit < stats.rounds + 1
      · exact rounds_over_alike hsame hnil hdone
      obtain ⟨hne, hgoes, hcap⟩ := of_not_over hdone
      have hne' : changes' ≠ [] := fun hempty => hne (hnil.mpr hempty)
      have hcap' : stats.rounds + 1 ≤ q'.capFor names.length limit :=
        hsame.capFor_eq names.length limit ▸ hcap
      subst hgoes
      cases bound' with
      | zero => exact absurd (h'.cap_lt hbound') (Nat.not_lt.mpr hcap')
      | succ bound' =>
          obtain ⟨b, hb⟩ : ∃ b, changes.foldl (discover names) { program := q } = b := ⟨_, rfl⟩
          obtain ⟨b', hb'⟩ : ∃ b', changes'.foldl (discover names) { program := q' } = b' :=
            ⟨_, rfl⟩
          have hiff := (h.missing_eq_none_iff hp hb).trans (h'.missing_eq_none_iff hp' hb').symm
          cases hmissing : b.missing with
          | some f =>
              obtain ⟨f', hmissing'⟩ := Option.ne_none_iff_exists'.mp
                fun hnone => absurd (hmissing.symm.trans (hiff.mpr hnone)) (by simp)
              rw [rounds_of_missing bound hne hcap hb hmissing,
                rounds_of_missing bound' hne' hcap' hb' hmissing']
              exact .unknown f f'
          | none =>
              have hmissing' := hiff.mp hmissing
              have hnext := h.round hp.valid hb hmissing
              have hnext' := h'.round hp'.valid hb' hmissing'
              have htotal := (hnext.sameSlots hp hp' hkeys hnext').total_eq
                hnext.stage.follows.nodup hnext'.stage.follows.nodup
              rw [rounds_succ bound hne hcap hb hmissing,
                rounds_succ bound' hne' hcap' hb' hmissing', FixpointStats.next,
                FixpointStats.next, htotal]
              exact ih hnext hnext' ((Nat.add_right_comm _ _ _).symm.trans hbound)
                ((Nat.add_right_comm _ _ _).symm.trans hbound')

/-- First runs of two programs that ask for the same, over the same slots, have the same outcome. -/
theorem solve_alike (hp : p.Represents cs) (hp' : p'.Represents cs)
    (hkeys : ∀ key, key ∈ p.keys ↔ key ∈ p'.keys) :
    SameOutcome (p.solve names limit cancelled) (p'.solve names limit cancelled) := by
  obtain ⟨b, hb⟩ : ∃ b, p.staticCalls.foldl (bindKnown names) (startOf p) = b := ⟨_, rfl⟩
  obtain ⟨b', hb'⟩ : ∃ b', p'.staticCalls.foldl (bindKnown names) (startOf p') = b' := ⟨_, rfl⟩
  have hiff := (missing_knowns_iff hp hb).trans (missing_knowns_iff hp' hb').symm
  cases hmissing : b.missing with
  | some f =>
      obtain ⟨f', hmissing'⟩ := Option.ne_none_iff_exists'.mp
        fun hnone => absurd (hmissing.symm.trans (hiff.mpr hnone)) (by simp)
      rw [solve_of_missing hb hmissing, solve_of_missing hb' hmissing']
      exact .unknown f f'
  | none =>
      have hmissing' := hiff.mp hmissing
      have h := reached_start hp.valid hp.fresh hb hmissing
      have h' := reached_start hp'.valid hp'.fresh hb' hmissing'
      have htotal := (h.sameSlots hp hp' hkeys h').total_eq h.stage.follows.nodup
        h'.stage.follows.nodup
      rw [solve_eq hb hmissing rfl, solve_eq hb' hmissing' rfl, htotal]
      exact rounds_alike hp hp' hkeys h h' rfl rfl

/-! ## Functions that exist -/

/-- Rounds over functions that all have a name come upon no other. -/
theorem rounds_known (hv : p.Valid) (hover : ∀ c ∈ p.constraints, c.Over (· < names.length))
    (h : Reached p names stats.rounds changes q)
    (hbound : bound + stats.rounds = p.roundBound names.length limit) (f : NodeId) :
    (q.rounds names limit cancelled bound changes stats).2 ≠ .error (.unknownFunction f) := by
  induction bound generalizing q changes stats with
  | zero =>
      rw [rounds_over (Or.inr (Or.inr (h.cap_lt hbound)))]
      repeat' split
      all_goals simp
  | succ bound ih =>
      by_cases hdone : changes = [] ∨ cancelled = true ∨
          q.capFor names.length limit < stats.rounds + 1
      · rw [rounds_over hdone]
        repeat' split
        all_goals simp
      obtain ⟨hne, hgoes, hcap⟩ := of_not_over hdone
      subst hgoes
      have hmissing := missing_discovers (b := { program := q }) (h.knownTargets hover) rfl changes
      rw [rounds_succ bound hne hcap rfl hmissing]
      exact ih (h.round hv rfl hmissing) ((Nat.add_right_comm _ _ _).symm.trans hbound)

theorem solve_known (hv : p.Valid) (hfresh : p.Fresh)
    (hover : ∀ c ∈ p.constraints, c.Over (· < names.length)) (f : NodeId) :
    (p.solve names limit cancelled).2 ≠ .error (.unknownFunction f) := by
  have hmissing := missing_start hover
  rw [solve_eq rfl hmissing rfl]
  exact rounds_known hv hover (reached_start hv hfresh rfl hmissing) rfl f

/-! ## Copies in another order -/

/-- Updates are made together, so their order does not count. -/
theorem Program.apply_perm (q : Program) {updates updates' : List Update}
    (h : updates.Perm updates') : q.apply updates = q.apply updates' := by
  have hslot : q.updateSlot updates = q.updateSlot updates' := by
    funext id s
    have hheld : s.held.insertAll (q.incoming updates id) =
        s.held.insertAll (q.incoming updates' id) := by
      refine SortedSet.eq_of_forall_mem_iff fun f => ?_
      rw [SortedSet.mem_insertAll, SortedSet.mem_insertAll, mem_incoming, mem_incoming]
      simp only [h.mem_iff]
    have hblocks : q.blocks updates id = q.blocks updates' id := by
      rw [Bool.eq_iff_iff, blocks_iff, blocks_iff]
      simp only [h.mem_iff]
    rw [updateSlot, updateSlot, hheld, hblocks]
  rw [apply, apply, hslot]

/-- A run that begins with the copies in some order of their own. -/
def Program.solveIn (order : List (SlotId × SlotId) → List (SlotId × SlotId)) (p : Program)
    (names : List FunctionKey) (limit : Option Nat) (cancelled : Bool) :
    Program × Except Failure FixpointStats :=
  let b := p.staticCalls.foldl (bindKnown names) (startOf p)
  match b.missing with
  | some f => (b.program, .error (.unknownFunction f))
  | none =>
    let next := b.program.apply
      (b.updates ++ (order b.program.copies).map fun c => Update.copy c.1 c.2)
    next.rounds names limit cancelled (p.roundBound names.length limit)
      (changed b.program next) { functions := names.length, totals := [next.total] }

theorem Program.solveIn_eq (p : Program) {order : List (SlotId × SlotId) → List (SlotId × SlotId)}
    (horder : ∀ l, (order l).Perm l) :
    p.solveIn order names limit cancelled = p.solve names limit cancelled := by
  obtain ⟨b, hb⟩ : ∃ b, p.staticCalls.foldl (bindKnown names) (startOf p) = b := ⟨_, rfl⟩
  rw [solveIn, hb]
  cases hmissing : b.missing with
  | some f => exact (solve_of_missing hb hmissing).symm
  | none =>
      have hsame : (b.updates ++ (order b.program.copies).map fun c => Update.copy c.1 c.2).Perm
          (b.updates ++ b.program.copies.map fun c => Update.copy c.1 c.2) :=
        ((horder _).map _).append_left _
      rw [solve_eq hb hmissing (apply_perm _ hsame.symm)]

/-! ## Main statement -/

/-- The order of steps does not count: over any graph and under any limit the first runs of two
programs that come about by the same steps, in whatever orders, have the same outcome, and if the
graph has all functions that the steps mention, then also the same result as it is.  Nor does the
order count in which a run goes through the copies. -/
theorem solve_reordered (g : Graph) {steps steps' : List Step} (h : steps.Perm steps')
    (limit : Option Nat) (cancelled : Bool) :
    SameOutcome ((Program.ofSteps steps).solve (g.nodes.map (·.key)) limit cancelled)
        ((Program.ofSteps steps').solve (g.nodes.map (·.key)) limit cancelled) ∧
      ((∀ step ∈ steps, ∀ c ∈ step.constraints, c.Over (· < g.size)) →
        ((Program.ofSteps steps).solve (g.nodes.map (·.key)) limit cancelled).2 =
          ((Program.ofSteps steps').solve (g.nodes.map (·.key)) limit cancelled).2) ∧
      ∀ order : List (SlotId × SlotId) → List (SlotId × SlotId), (∀ l, (order l).Perm l) →
        (Program.ofSteps steps).solveIn order (g.nodes.map (·.key)) limit cancelled =
          (Program.ofSteps steps).solve (g.nodes.map (·.key)) limit cancelled := by
  have hp := (Program.built_ofSteps steps).represents
  have hp' := (Program.built_ofSteps steps').represents.congr fun c =>
    (h.flatMap_right Step.constraints).symm.mem_iff
  have hkeys : ∀ key, key ∈ (Program.ofSteps steps).keys ↔ key ∈ (Program.ofSteps steps').keys := by
    intro key
    rw [Program.mem_keys_ofSteps, Program.mem_keys_ofSteps]
    exact (h.flatMap_right Step.keys).mem_iff
  have halike : SameOutcome ((Program.ofSteps steps).solve (g.nodes.map (·.key)) limit cancelled)
      ((Program.ofSteps steps').solve (g.nodes.map (·.key)) limit cancelled) :=
    solve_alike hp hp' hkeys
  refine ⟨halike, ?_, ?_⟩
  · intro hover
    refine halike.result_eq (solve_known hp.valid hp.fresh ?_)
    intro c hc
    obtain ⟨step, hstep, hc⟩ := List.mem_flatMap.mp (hp.sound c hc)
    rw [List.length_map]
    exact hover step hstep c hc
  · intro order horder
    exact Program.solveIn_eq _ horder

/-- A slot is called that another step lets a function flow into, with what a third slot holds. -/
def callbackSteps : List Step :=
  [.assign (.item (.function 1)) (.global "callback"),
    .copy (.global "callback") (.global "handler"),
    .assign (.item (.function 0)) (.global "argument"),
    .indirectCall (.global "handler") [some (.slot (.global "argument"))] 1 false]

theorem callbackSteps_reordered : callbackSteps.Perm callbackSteps.reverse ∧
    (∀ step ∈ callbackSteps, ∀ c ∈ step.constraints, c.Over (· < mainAndRun.size)) ∧
    SameOutcome ((Program.ofSteps callbackSteps).solve (mainAndRun.nodes.map (·.key)) none false)
      ((Program.ofSteps callbackSteps.reverse).solve (mainAndRun.nodes.map (·.key)) none false) ∧
    ((Program.ofSteps callbackSteps).solve (mainAndRun.nodes.map (·.key)) none false).2 =
      ((Program.ofSteps callbackSteps.reverse).solve
        (mainAndRun.nodes.map (·.key)) none false).2 ∧
    (Program.ofSteps callbackSteps).solveIn List.reverse
        (mainAndRun.nodes.map (·.key)) none false =
      (Program.ofSteps callbackSteps).solve (mainAndRun.nodes.map (·.key)) none false := by
  have hperm := (List.reverse_perm callbackSteps).symm
  have hover : ∀ step ∈ callbackSteps, ∀ c ∈ step.constraints, c.Over (· < mainAndRun.size) := by
    simp [callbackSteps, Step.constraints, Constraint.Over, Origin.Over, Item.Over, ArgsOver,
      mainAndRun, Graph.size]
  obtain ⟨hsame, hresult, horder⟩ := solve_reordered mainAndRun hperm none false
  exact ⟨hperm, hover, hsame, hresult hover, horder List.reverse List.reverse_perm⟩

end Programs

end Flow

end CallGraphs
