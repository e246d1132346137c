import CallGraphs.Proofs.Flow.Fixpoint
import CallGraphs.Proofs.Flow.Steps
import Mathlib.Tactic.Ring

/-!
# Rounds

How long a run takes, and when it is given up.  The constraints of a program
determine what the slots hold after every single round, not only at the end: a
round takes in what flows at its beginning and nothing else
(`Stage.contents_apply`).  So what slots hold after `n` rounds is what they hold
after `n + 1` steps from nothing (`Reached`), although a run looks only at slots
that grew and passes arguments as it finds new targets.

Under a limit of `n` rounds a run ends if and only if step `n + 1` brings nothing
new.  Without a limit it always ends (`solve_ok_iff`): every round but the last
brings a function to a slot or blocks one, and there are no more slots than those
of the program and the parameters that arguments may be passed to.
-/

namespace CallGraphs

namespace Flow

/-! ## What a round brings -/

section Programs

open Binding

variable {p : Program} {names : List FunctionKey} {F G : Family NodeId} {b b' : Binding}
  {dirty : List SlotId} {updates : List Update}

/-- Under a family, updates and copies bring only what flows. -/
structure Backed (p : Program) (names : List FunctionKey) (F : Family NodeId) (b : Binding) :
    Prop where
  updates : ∀ u ∈ b.updates, ∃ v t key, u = Value.into t v ∧ b.program.keys[t]? = some key ∧
    License p names F v key
  copies : ∀ s t, (s, t) ∈ b.program.copies →
    ∃ key, b.program.keys[t]? = some key ∧ License p names F (.slot s) key

theorem License.mono (hle : F ≤ G) {v : Value} {key : Slot} (h : License p names F v key) :
    License p names G v key :=
  ⟨h.1, h.2.mono hle⟩

theorem Backed.grows (h : Backed p names F b) (hb : Grows (License p names F) b b') :
    Backed p names F b' := by
  have hupdates : ∀ u ∈ b'.updates, ∃ v t key, u = Value.into t v ∧
      b'.program.keys[t]? = some key ∧ License p names F v key := by
    intro u hu
    rcases hb.newUpdates hu with hold | hnew
    · obtain ⟨v, t, key, rfl, hkey, hL⟩ := h.updates u hold
      exact ⟨v, t, key, rfl, Program.getElem?_of_isPrefix hb.keys hkey, hL⟩
    · exact hnew
  refine ⟨hupdates, ?_⟩
  intro s t hst
  rcases hb.newCopies hst with hold | hnew
  · obtain ⟨key, hkey, hL⟩ := h.copies s t hold
    exact ⟨key, Program.getElem?_of_isPrefix hb.keys hkey, hL⟩
  · obtain ⟨v, t', key, heq, hkey, hL⟩ := hupdates _ hnew
    cases v with
    | slot s' =>
        obtain ⟨rfl, rfl⟩ := Update.copy.inj heq
        exact ⟨key, hkey, hL⟩
    | function f => exact absurd heq (by simp [Value.into])
    | blocked => exact absurd heq (by simp [Value.into])

/-- Passing arguments does not change what slots hold. -/
theorem Binding.Grows.contents {L : Value → Slot → Prop} (hb : Grows L b b')
    (hnodup : b.program.keys.Nodup) : b'.program.contents = b.program.contents :=
  Program.contents_congr hb.keys hnodup hb.holds

/-- What a round brings to a slot flows into it at the beginning of the round. -/
theorem Backed.contents_le (h : Backed p names b.program.contents b)
    (hp : Follows p b.program) (hr : Round b dirty updates) :
    (b.program.apply updates).contents ≤
      advance {c | c ∈ p.constraints} (nameOf names) b.program.contents := by
  rintro key x ⟨id, hid, hx⟩
  rw [Program.slotId?_eq, Program.keys_apply, ← Program.slotId?_eq] at hid
  rcases Program.holds_apply.mp hx with hold | ⟨-, u, hu, hbrings⟩
  · exact Or.inl ⟨id, hid, hold⟩
  obtain ⟨v, t, key', rfl, hkey', hwithin, hflow⟩ : ∃ v t key', u = Value.into t v ∧
      b.program.keys[t]? = some key' ∧ License p names b.program.contents v key' := by
    rcases hr.only u hu with hwaits | ⟨s, t, hst, rfl⟩
    · exact h.updates u hwaits
    · obtain ⟨key', hkey', hL⟩ := h.copies s t hst
      exact ⟨.slot s, t, key', rfl, hkey', hL⟩
  have hkey := Program.getElem?_of_slotId? hid
  cases v with
  | slot s =>
      obtain ⟨rfl, hheld⟩ := hbrings
      obtain rfl := Option.some.inj (hkey.symm.trans hkey')
      refine Or.inr ⟨_, hflow, ?_⟩
      exact (Program.mem_contents hp.nodup (Program.getElem?_of_isPrefix hp.keys
        (Program.getElem?_keyAt hwithin))).mpr hheld
  | function f =>
      obtain ⟨rfl, rfl⟩ := hbrings
      obtain rfl := Option.some.inj (hkey.symm.trans hkey')
      exact Or.inr ⟨_, hflow, rfl⟩
  | blocked =>
      obtain ⟨rfl, rfl⟩ := hbrings
      obtain rfl := Option.some.inj (hkey.symm.trans hkey')
      exact Or.inr ⟨_, hflow, rfl⟩

/-- A round takes in what flows at its beginning, and nothing else. -/
theorem Stage.contents_apply (hv : p.Valid) (h : Stage p names dirty [] b)
    (hbacked : Backed p names b.program.contents b) (hr : Round b dirty updates) :
    (b.program.apply updates).contents =
      advance {c | c ∈ p.constraints} (nameOf names) b.program.contents :=
  le_antisymm (hbacked.contents_le h.follows hr) (h.advance_le hv hr)

/-- A slot that holds the same after updates is the same. -/
theorem Program.updateSlot_eq {q : Program} {id : SlotId} {s : SlotState}
    (hs : q.slots[id]? = some s) (hsame : ∀ x, (q.apply updates).Holds id x → q.Holds id x) :
    q.updateSlot updates id s = s := by
  have hnew : (q.apply updates).slots[id]? = some (q.updateSlot updates id s) := by
    simp [Program.apply, hs]
  have hheld : (q.updateSlot updates id s).held = s.held := by
    refine SortedSet.eq_of_forall_mem_iff fun f => ⟨fun hf => ?_, fun hf => ?_⟩
    · have hold := hsame (.function f) (by simpa [Program.Holds, Program.heldBy, hnew] using hf)
      simpa [Program.Holds, Program.heldBy, hs] using hold
    · exact SortedSet.mem_insertAll.mpr (Or.inl hf)
  have hblocked : (q.updateSlot updates id s).blocked = s.blocked := by
    cases hb : s.blocked with
    | true => simp [Program.updateSlot, hb]
    | false =>
        refine Bool.eq_false_iff.mpr fun hupdated => ?_
        have hold := hsame .blocked (by simpa [Program.Holds, Program.isBlocked, hnew])
        simp [Program.Holds, Program.isBlocked, hs, hb] at hold
  cases s
  simp_all [Program.updateSlot]

/-- No slot changes in a round if and only if all hold the same after it. -/
theorem Program.changed_eq_nil_iff {q : Program} (hnodup : q.keys.Nodup) :
    Program.changed q (q.apply updates) = [] ↔ (q.apply updates).contents = q.contents := by
  have hlen := q.length_slots_apply updates
  constructor
  · intro hnone
    funext key
    ext x
    simp only [Program.contents, Program.slotId?_eq, Program.keys_apply]
    refine exists_congr fun id => and_congr_right fun _ => ?_
    exact Program.holds_of_not_mem_changed hlen (by simp [hnone])
  · intro hcontents
    refine List.filter_eq_nil_iff.mpr ?_
    intro id hid
    rw [List.mem_range, hlen] at hid
    have hkey : q.keys[id]? = some (q.keyAt id) :=
      Program.getElem?_keyAt (by rwa [Program.length_keys])
    have hslot := List.getElem?_eq_getElem hid
    have hupdated : q.updateSlot updates id q.slots[id] = q.slots[id] := by
      refine Program.updateSlot_eq hslot ?_
      intro x hx
      rw [← Program.mem_contents hnodup hkey, ← hcontents]
      exact (Program.mem_contents (q.keys_apply updates ▸ hnodup)
        (q.keys_apply updates ▸ hkey)).mpr hx
    simp [Program.apply, hslot, hupdated]

/-! ## Functions that are known -/

theorem missing_bindValue (v : Value) (t : SlotId) : (b.bindValue v t).missing = b.missing := by
  cases v with
  | slot s =>
      rw [bindValue_slot]
      split <;> rfl
  | function f => rfl
  | blocked => rfl

theorem missing_bindParams {key : FunctionKey} (l : List (Nat × Value)) :
    (l.foldl (bindParam key) b).missing = b.missing := by
  induction l generalizing b with
  | nil => rfl
  | cons arg l ih => exact ih.trans (missing_bindValue _ _)

theorem missing_bindCall {args : List (Option Value)} {explicit : Nat} {f : NodeId}
    (hb : b.missing = none) (hf : f < names.length) :
    (b.bindCall names args explicit f).missing = none := by
  simp only [bindCall, hb, List.getElem?_eq_getElem hf]
  exact (missing_bindParams _).trans hb

theorem missing_bindTarget {place : Nat} {call : IndirectCall} {f : NodeId}
    (hb : b.missing = none) (hf : f < names.length) :
    (bindTarget names place call b f).missing = none := by
  rw [bindTarget]
  split
  · exact hb
  · exact missing_bindCall hb hf

/-- The calls of a program reach only functions that have a name. -/
def KnownTargets (names : List FunctionKey) (q : Program) : Prop :=
  ∀ call ∈ q.calls, ∀ f ∈ targetsOf q call, f < names.length

theorem KnownTargets.grows {L : Value → Slot → Prop} (h : KnownTargets names b.program)
    (hb : Grows L b b') : KnownTargets names b'.program := by
  intro call hcall f hf
  rw [hb.calls] at hcall
  exact h call hcall f (hb.mem_targetsOf.mp hf)

theorem missing_bindTargets {place : Nat} {call : IndirectCall} (hb : b.missing = none)
    (l : List NodeId) (hl : ∀ f ∈ l, f < names.length) :
    (l.foldl (bindTarget names place call) b).missing = none := by
  induction l generalizing b with
  | nil => exact hb
  | cons f l ih =>
      refine ih (missing_bindTarget hb (hl f List.mem_cons_self)) ?_
      intro g hg
      exact hl g (List.mem_cons_of_mem _ hg)

theorem missing_bindThroughs (h : KnownTargets names b.program) (hb : b.missing = none)
    (l : List (IndirectCall × Nat)) (hl : ∀ c ∈ l, c.1 ∈ b.program.calls) :
    (l.foldl (bindThrough names) b).missing = none := by
  induction l generalizing b with
  | nil => exact hb
  | cons c l ih =>
      have hgrows : Grows (fun _ _ => True) b (bindThrough names b c) :=
        grows_bindThrough fun _ _ _ _ _ _ => trivial
      refine ih (h.grows hgrows) (missing_bindTargets hb _ (h c.1 (hl c List.mem_cons_self))) ?_
      intro d hd
      rw [hgrows.calls]
      exact hl d (List.mem_cons_of_mem _ hd)

theorem missing_discovers (h : KnownTargets names b.program) (hb : b.missing = none)
    (slots : List SlotId) : (slots.foldl (discover names) b).missing = none := by
  induction slots generalizing b with
  | nil => exact hb
  | cons slot slots ih =>
      refine ih (h.grows (grows_discover (licensedCalls_true names b.program) slot)) ?_
      rw [discover_eq]
      refine missing_bindThroughs h hb _ ?_
      intro c hc
      exact List.mem_of_getElem? (mem_calls_of_mem_zipIdx (List.mem_of_mem_filter hc))

theorem missing_bindKnowns (hb : b.missing = none) (l : List StaticCall)
    (hl : ∀ call ∈ l, call.callee < names.length) :
    (l.foldl (bindKnown names) b).missing = none := by
  induction l generalizing b with
  | nil => exact hb
  | cons call l ih =>
      refine ih (missing_bindCall hb (hl call List.mem_cons_self)) ?_
      intro c hc
      exact hl c (List.mem_cons_of_mem _ hc)

/-! ## Slots that may come in -/

/-- The positions at which calls and defaults pass something. -/
def Program.positions (p : Program) : List Nat :=
  (p.staticCalls.flatMap fun call => List.range call.args.length) ++
    (p.calls.flatMap fun call => List.range call.args.length) ++ p.defaults.map (·.index)

/-- The parameters that arguments may be passed to. -/
def Program.params (p : Program) (names : List FunctionKey) : List Slot :=
  names.flatMap fun name => p.positions.map (.param name)

theorem length_flatMap_range {α : Type} (f : α → Nat) (l : List α) :
    (l.flatMap fun x => List.range (f x)).length = sumOf f l := by
  induction l with
  | nil => rfl
  | cons x l ih => rw [List.flatMap_cons, List.length_append, List.length_range, ih, sumOf]

theorem length_flatMap_const {α β : Type} {l : List α} {f : α → List β} {n : Nat}
    (h : ∀ x ∈ l, (f x).length = n) : (l.flatMap f).length = l.length * n := by
  induction l with
  | nil => simp
  | cons x l ih =>
      rw [List.flatMap_cons, List.length_append, h x List.mem_cons_self,
        ih fun y hy => h y (List.mem_cons_of_mem _ hy), List.length_cons]
      ring

theorem Program.length_params (p : Program) (names : List FunctionKey) :
    (p.params names).length = p.paramBound names.length := by
  rw [params, length_flatMap_const fun name _ => List.length_map _, positions, paramBound,
    List.length_append, List.length_append, length_flatMap_range, length_flatMap_range,
    List.length_map]

/-- Whatever a call passes, it passes to one of these parameters. -/
theorem licensed_params {q : Program} (hdefaults : q.defaults = p.defaults)
    {args : List (Option Value)} {explicit : Nat} {f : NodeId}
    (hargs : ∀ i < args.length, i ∈ p.positions) :
    Licensed (fun _ key => key ∈ p.params names) names q args explicit f := by
  rintro name hname ⟨i, v⟩ harg
  have hpos : i ∈ p.positions := by
    rw [passes_congr hdefaults, passes, List.mem_append, mem_given, mem_defaultsFrom] at harg
    rcases harg with hi | ⟨hd, -⟩
    · exact hargs i (List.getElem?_eq_some_iff.mp hi).1
    · exact List.mem_append_right _ (List.mem_map_of_mem hd)
  exact List.mem_flatMap.mpr ⟨name, List.mem_of_getElem? hname, List.mem_map_of_mem hpos⟩

theorem licensedCalls_params {q : Program} (hp : Follows p q) :
    LicensedCalls (fun _ key => key ∈ p.params names) names q := by
  intro call hcall f _
  rw [hp.calls] at hcall
  refine licensed_params hp.defaults ?_
  intro i hi
  refine List.mem_append_left _ (List.mem_append_right _ ?_)
  exact List.mem_flatMap.mpr ⟨call, hcall, List.mem_range.mpr hi⟩

theorem grows_discovers {L : Value → Slot → Prop} (hL : LicensedCalls L names b.program)
    (slots : List SlotId) : Grows L b (slots.foldl (discover names) b) := by
  refine .foldl (P := fun _ => True) (fun _ _ => trivial) ?_
  intro b' slot hb _
  refine grows_discover ?_ slot
  intro call hcall f hf
  rw [hb.calls] at hcall
  exact (hL call hcall f (hb.mem_targetsOf.mp hf)).congr hb.defaults

/-- Passing arguments of calls of known functions adds no slots but these parameters. -/
theorem mem_keys_knowns {key : Slot}
    (h : key ∈ (p.staticCalls.foldl (bindKnown names) (startOf p)).program.keys) :
    key ∈ p.keys ∨ key ∈ p.params names := by
  have hgrows : Grows (fun _ key => key ∈ p.params names) (startOf p)
      (p.staticCalls.foldl (bindKnown names) (startOf p)) := by
    refine grows_bindKnowns ?_
    intro call hcall
    refine licensed_params (p := p) (q := (startOf p).program) rfl ?_
    intro i hi
    refine List.mem_append_left _ (List.mem_append_left _ ?_)
    exact List.mem_flatMap.mpr ⟨call, hcall, List.mem_range.mpr hi⟩
  rcases hgrows.newKeys h with hold | ⟨-, hnew⟩
  · exact Or.inl hold
  · exact Or.inr hnew

/-- Looking at calls adds no slots but these parameters. -/
theorem mem_keys_discovers {q : Program} (hp : Follows p q) (slots : List SlotId) {key : Slot}
    (h : key ∈ (slots.foldl (discover names) { program := q }).program.keys) :
    key ∈ q.keys ∨ key ∈ p.params names := by
  have hallowed : LicensedCalls (fun _ key => key ∈ p.params names) names q :=
    licensedCalls_params hp
  rcases (grows_discovers (b := { program := q }) hallowed slots).newKeys h with hold | ⟨-, hnew⟩
  · exact Or.inl hold
  · exact Or.inr hnew

/-! ## Rounds -/

/-- A run after so many rounds: the slots hold what they hold after one step more, and what is still
to be done concerns the slots that changed last. -/
structure Reached (p : Program) (names : List FunctionKey) (n : Nat) (changes : List SlotId)
    (q : Program) : Prop where
  stage : Stage p names changes changes { program := q }
  contents : q.contents = after {c | c ∈ p.constraints} (nameOf names) (n + 1)
  backed : Backed p names q.contents { program := q }
  keys : ∀ key ∈ q.keys, key ∈ p.keys ∨ key ∈ p.params names
  mem_keys_iff : ∀ key, key ∈ q.keys ↔ key ∈ p.keys ∨
    ∃ o, Flows {c | c ∈ p.constraints} (nameOf names)
      (after {c | c ∈ p.constraints} (nameOf names) n) o key
  changes_eq_nil_iff : changes = [] ↔ after {c | c ∈ p.constraints} (nameOf names) (n + 1) =
    after {c | c ∈ p.constraints} (nameOf names) n

/-- Once all calls have been looked at, whatever something flows into has a place. -/
theorem Stage.mem_keys_of_flows (hv : p.Valid) (h : Stage p names dirty [] b) {o : Origin NodeId}
    {key : Slot}
    (hflow : Flows {c | c ∈ p.constraints} (nameOf names) b.program.contents o key) :
    key ∈ b.program.keys := by
  have placed : ∀ {t}, t < p.keys.length → p.keyAt t ∈ b.program.keys := fun ht =>
    h.follows.keys.subset (List.mem_of_getElem? (Program.getElem?_keyAt ht))
  have passed : ∀ {values : List (Option Value)} {explicit f i v},
      Passed names b values explicit f → (i, v) ∈ passes b.program values explicit f →
      .param (nameOf names f) i ∈ b.program.keys := by
    intro values explicit f i v hpassed hmem
    obtain ⟨key, hkey, hgiven⟩ := hpassed
    obtain ⟨t, ht, -⟩ := hgiven (i, v) hmem
    rw [nameOf, hkey, Option.getD_some]
    exact List.mem_of_getElem? (Program.getElem?_of_slotId? ht)
  cases hflow with
  | given hc =>
      rcases Program.mem_constraints_flow.mp hc with ⟨s, t, hst, heq⟩ | ⟨u, hu, heq⟩
      · obtain ⟨rfl, rfl⟩ := Constraint.flow.inj heq
        exact placed (hv.copies s t hst).2
      · have hwithin := hv.seeds u hu
        cases u with
        | add t f =>
            obtain ⟨rfl, rfl⟩ := Constraint.flow.inj heq
            exact placed hwithin
        | copy s t => exact hwithin.elim
        | block t =>
            obtain ⟨rfl, rfl⟩ := Constraint.flow.inj heq
            exact placed hwithin
  | argument hcall hi =>
      obtain ⟨values, rfl, -, hpassed⟩ := h.passed_of_called hv hcall
      simp only [Program.origins, List.getElem?_map, Option.map_eq_some_iff] at hi
      obtain ⟨_, hi, v, rfl, rfl⟩ := hi
      exact passed hpassed (List.mem_append_left _ (mem_given.mpr hi))
  | default hcall hd hle =>
      obtain ⟨values, rfl, -, hpassed⟩ := h.passed_of_called hv hcall
      obtain ⟨⟨f, i, v⟩, hmem, rfl, rfl, rfl⟩ := Program.mem_constraints_default.mp hd
      refine passed (v := v) hpassed (List.mem_append_right _ (mem_defaultsFrom.mpr ⟨?_, hle⟩))
      rwa [h.follows.defaults]

/-- The end of a round. -/
theorem reached_apply (hv : p.Valid) {n : Nat} (h : Stage p names dirty [] b)
    (hcontents : b.program.contents = after {c | c ∈ p.constraints} (nameOf names) n)
    (hbacked : Backed p names b.program.contents b)
    (hkeys : ∀ key ∈ b.program.keys, key ∈ p.keys ∨ key ∈ p.params names)
    (hnew : ∀ key ∈ b.program.keys, key ∈ p.keys ∨ ∃ o, Flows {c | c ∈ p.constraints}
      (nameOf names) (after {c | c ∈ p.constraints} (nameOf names) n) o key)
    (hr : Round b dirty updates) :
    Reached p names n (Program.changed b.program (b.program.apply updates))
      (b.program.apply updates) := by
  have hnext := h.contents_apply hv hbacked hr
  have hkeysApply := b.program.keys_apply updates
  refine ⟨h.apply hv hr, ?_, ⟨by simp, ?_⟩, ?_, ?_, ?_⟩
  · rw [hnext, hcontents, after_succ]
  · intro s t hst
    obtain ⟨key, hkey, hL⟩ := hbacked.copies s t hst
    refine ⟨key, hkeysApply ▸ hkey, hL.mono ?_⟩
    rw [hnext]
    exact le_advance
  · intro key hkey
    exact hkeys key (hkeysApply ▸ hkey)
  · intro key
    rw [hkeysApply]
    refine ⟨hnew key, ?_⟩
    rintro (hold | ⟨o, hflow⟩)
    · exact h.follows.keys.subset hold
    · rw [← hcontents] at hflow
      exact h.mem_keys_of_flows hv hflow
  · rw [Program.changed_eq_nil_iff h.follows.nodup, hnext, hcontents, after_succ]

/-- Functions that slots hold have a name, if those of the constraints do. -/
theorem Sound.knownTargets (h : Sound (fun _ => {x | x.Over (· < names.length)}) b)
    (hp : Follows p b.program) (hover : ∀ c ∈ p.constraints, c.Over (· < names.length)) :
    KnownTargets names b.program := by
  have hheld : ∀ id f, b.program.Holds id (.function f) → f < names.length := by
    intro id f hf
    exact h.items id _ _ (Program.getElem?_keyAt hf.lt_length) hf
  intro call _ f hf
  rcases mem_targetsOf.mp hf with hf | ⟨-, g, -, hf⟩
  · exact hheld _ f hf
  · rw [Program.expansionOf, hp.expansions] at hf
    exact (hover _ (Program.mem_constraints_overrider.mpr hf)).2

theorem Reached.knownTargets (hover : ∀ c ∈ p.constraints, c.Over (· < names.length)) {n : Nat}
    {changes : List SlotId} {q : Program} (h : Reached p names n changes q) :
    KnownTargets names q :=
  (h.stage.sound _ (solves_over hover)).knownTargets h.stage.follows hover

theorem Reached.licensedCalls (hv : p.Valid) {n : Nat} {changes : List SlotId} {q : Program}
    (h : Reached p names n changes q) : LicensedCalls (License p names q.contents) names q := by
  refine Flow.licensedCalls (b := { program := q }) hv h.stage.follows ?_
  intro id key x hkey hx
  exact (Program.mem_contents h.stage.follows.nodup hkey).mpr hx

/-- One round more, if it reaches only functions that have a name. -/
theorem Reached.round (hv : p.Valid) {n : Nat} {changes : List SlotId} {q : Program}
    (h : Reached p names n changes q)
    (hb : changes.foldl (discover names) { program := q } = b) (hmissing : b.missing = none) :
    Reached p names (n + 1)
      (Program.changed b.program
        (b.program.apply (b.updates ++ b.program.copiesFrom changes)))
      (b.program.apply (b.updates ++ b.program.copiesFrom changes)) := by
  subst hb
  have hgrows := grows_discovers (b := { program := q }) (h.licensedCalls hv) changes
  have hsame := hgrows.contents h.stage.follows.nodup
  refine reached_apply hv (h.stage.discoverAll hv hmissing) ?_ ?_ ?_ ?_
    (round_of_copiesFrom _ changes)
  · exact hsame.trans h.contents
  · rw [hsame]
    exact h.backed.grows hgrows
  · intro key hkey
    rcases mem_keys_discovers h.stage.follows changes hkey with hold | hnew
    · exact h.keys key hold
    · exact Or.inr hnew
  · intro key hkey
    rw [← h.contents]
    rcases hgrows.newKeys hkey with hold | ⟨v, -, hflow⟩
    · refine ((h.mem_keys_iff key).mp hold).imp_right ?_
      rintro ⟨o, hflow⟩
      refine ⟨o, hflow.mono ?_⟩
      rw [h.contents, after_succ]
      exact le_advance
    · exact Or.inr ⟨_, hflow⟩

/-- Calls of known functions reach functions that have a name. -/
theorem missing_start (hover : ∀ c ∈ p.constraints, c.Over (· < names.length)) :
    (p.staticCalls.foldl (bindKnown names) (startOf p)).missing = none := by
  refine missing_bindKnowns rfl _ ?_
  intro call hcall
  exact (hover _ (Program.mem_constraints_call.mpr ⟨call, hcall, rfl, rfl, rfl⟩)).1

/-- The beginning of a run: calls of known functions have had their arguments passed, and the first
updates are made. -/
theorem reached_start (hv : p.Valid) (hfresh : p.Fresh)
    (hb : p.staticCalls.foldl (bindKnown names) (startOf p) = b) (hmissing : b.missing = none) :
    Reached p names 0
      (Program.changed b.program (b.program.apply
        (b.updates ++ b.program.copies.map fun c => Update.copy c.1 c.2)))
      (b.program.apply (b.updates ++ b.program.copies.map fun c => Update.copy c.1 c.2)) := by
  have hstage := stage_bindKnowns hv hfresh hb hmissing
  have hnothing : (startOf p).program.contents = fun _ => ∅ := by
    funext key
    refine Set.eq_empty_iff_forall_notMem.mpr ?_
    rintro x ⟨id, -, hx⟩
    exact hfresh.holds id x hx
  have hgiven : ∀ {o key}, .flow o key ∈ p.constraints →
      Flows {c | c ∈ p.constraints} (nameOf names) (startOf p).program.contents o key :=
    fun hc => .given hc
  have hbacked : Backed p names (startOf p).program.contents (startOf p) := by
    refine ⟨?_, ?_⟩
    · intro u hu
      have hwithin := hv.seeds u hu
      cases u with
      | add t f =>
          exact ⟨.function f, t, _, rfl, Program.getElem?_keyAt hwithin, trivial,
            hgiven (Program.mem_constraints_flow.mpr (Or.inr ⟨_, hu, rfl⟩))⟩
      | copy s t => exact hwithin.elim
      | block t =>
          exact ⟨.blocked, t, _, rfl, Program.getElem?_keyAt hwithin, trivial,
            hgiven (Program.mem_constraints_flow.mpr (Or.inr ⟨_, hu, rfl⟩))⟩
    · intro s t hst
      obtain ⟨hs, ht⟩ := hv.copies s t hst
      exact ⟨_, Program.getElem?_keyAt ht, hs,
        hgiven (Program.mem_constraints_flow.mpr (Or.inl ⟨s, t, hst, rfl⟩))⟩
  have hgrows : Grows (License p names (startOf p).program.contents) (startOf p) b :=
    hb ▸ grows_knowns hv
  have hsame := hgrows.contents hv.nodup
  refine reached_apply hv hstage ?_ ?_ ?_ ?_ (round_of_copies b)
  · exact hsame.trans hnothing
  · rw [hsame]
    exact hbacked.grows hgrows
  · intro key hkey
    exact mem_keys_knowns (hb ▸ hkey)
  · intro key hkey
    rcases hgrows.newKeys hkey with hold | ⟨v, -, hflow⟩
    · exact Or.inl hold
    · exact Or.inr ⟨_, hnothing ▸ hflow⟩

/-! ## The number of rounds -/

/-- There are no more slots than those of the program and the parameters. -/
theorem Follows.length_slots_le {q : Program} (h : Follows p q)
    (hkeys : ∀ key ∈ q.keys, key ∈ p.keys ∨ key ∈ p.params names) :
    q.slots.length ≤ p.slots.length + p.paramBound names.length := by
  have hsub : q.keys ⊆ p.keys ++ p.params names := by
    intro key hkey
    exact List.mem_append.mpr (hkeys key hkey)
  have hle := (h.nodup.subperm hsub).length_le
  rwa [List.length_append, Program.length_params, Program.length_keys, Program.length_keys] at hle

/-- The cap is never above the bound on rounds. -/
theorem Follows.capFor_le {q : Program} (h : Follows p q)
    (hkeys : ∀ key ∈ q.keys, key ∈ p.keys ∨ key ∈ p.params names) (limit : Option Nat) :
    q.capFor names.length limit ≤ p.roundBound names.length limit := by
  cases limit with
  | none =>
      rw [Program.capFor, Program.roundBound, Option.getD_none, Option.getD_none]
      exact Nat.succ_le_succ (Nat.mul_le_mul_right _ (h.length_slots_le hkeys))
  | some n => exact le_rfl

/-- The items that slots may hold. -/
def Program.possible (q : Program) (functions : Nat) : List (Slot × Item NodeId) :=
  q.keys.flatMap fun key =>
    (key, .blocked) :: (List.range functions).map fun f => (key, .function f)

theorem Program.length_possible (q : Program) (functions : Nat) :
    (q.possible functions).length = q.slots.length * (functions + 1) := by
  rw [possible, length_flatMap_const (n := functions + 1), length_keys]
  intro key _
  rw [List.length_cons, List.length_map, List.length_range]

theorem Sound.heldItems_subset {functions : Nat}
    (h : Sound (fun _ => {x | x.Over (· < functions)}) b) :
    heldItems b.program.contents ⊆ {x | x ∈ b.program.possible functions} := by
  rintro ⟨key, x⟩ ⟨id, hid, hx⟩
  have hkey := Program.getElem?_of_slotId? hid
  have hx' : x.Over (· < functions) := h.items id key x hkey hx
  refine List.mem_flatMap.mpr ⟨key, List.mem_of_getElem? hkey, ?_⟩
  cases x with
  | function f =>
      exact List.mem_cons_of_mem _ (List.mem_map.mpr ⟨f, List.mem_range.mpr hx', rfl⟩)
  | blocked => exact List.mem_cons_self

theorem Sound.finite_heldItems {functions : Nat}
    (h : Sound (fun _ => {x | x.Over (· < functions)}) b) : (heldItems b.program.contents).Finite :=
  (List.finite_toSet _).subset h.heldItems_subset

/-- There are no more items than slots with all functions, and blocked, in each of them. -/
theorem Sound.ncard_heldItems_le {functions : Nat}
    (h : Sound (fun _ => {x | x.Over (· < functions)}) b) :
    (heldItems b.program.contents).ncard ≤ b.program.slots.length * (functions + 1) := by
  classical
  calc (heldItems b.program.contents).ncard
      ≤ {x | x ∈ b.program.possible functions}.ncard :=
        Set.ncard_le_ncard h.heldItems_subset (List.finite_toSet _)
    _ ≤ (b.program.possible functions).length := by
        rw [← List.coe_toFinset, Set.ncard_coe_finset]
        exact List.toFinset_card_le _
    _ = b.program.slots.length * (functions + 1) := b.program.length_possible functions

/-- A run that is not at its end has made fewer rounds than there are items. -/
theorem Reached.rounds_lt (hover : ∀ c ∈ p.constraints, c.Over (· < names.length)) {n : Nat}
    {changes : List SlotId} {q : Program} (h : Reached p names n changes q) (hne : changes ≠ []) :
    n + 1 ≤ q.slots.length * (names.length + 1) := by
  have hsound := h.stage.sound _ (solves_over hover)
  have hcontents := h.contents
  calc n + 1
      ≤ (heldItems (after {c | c ∈ p.constraints} (nameOf names) (n + 1))).ncard :=
        le_ncard_heldItems (fun heq => hne (h.changes_eq_nil_iff.mpr heq))
          (hcontents ▸ hsound.finite_heldItems)
    _ = (heldItems q.contents).ncard := by rw [hcontents]
    _ ≤ q.slots.length * (names.length + 1) := hsound.ncard_heldItems_le

/-! ## Main statement -/

section Runs

variable {limit : Option Nat} {bound : Nat} {changes : List SlotId} {q : Program}
  {stats : FixpointStats}

theorem rounds_nil (cancelled : Bool) (bound : Nat) :
    q.rounds names limit cancelled bound [] stats =
      (q, .ok { stats with slots := q.slots.length, cap := q.capFor names.length limit }) := by
  simp only [Program.rounds]

theorem rounds_of_cap_lt (bound : Nat) (hne : changes ≠ [])
    (hcap : q.capFor names.length limit < stats.rounds + 1) :
    q.rounds names limit false bound changes stats =
      (q, .error (.diverged (q.capFor names.length limit) q.slots.length names.length)) := by
  cases changes with
  | nil => exact absurd rfl hne
  | cons x changes =>
      rw [Program.rounds.eq_def]
      simp [hcap]

theorem rounds_succ (bound : Nat) (hne : changes ≠ [])
    (hcap : stats.rounds + 1 ≤ q.capFor names.length limit)
    (hb : changes.foldl (discover names) { program := q } = b) (hmissing : b.missing = none) :
    q.rounds names limit false (bound + 1) changes stats =
      (b.program.apply (b.updates ++ b.program.copiesFrom changes)).rounds names limit false bound
        (Program.changed b.program (b.program.apply (b.updates ++ b.program.copiesFrom changes)))
        (stats.next (b.program.apply (b.updates ++ b.program.copiesFrom changes))) := by
  cases changes with
  | nil => exact absurd rfl hne
  | cons x changes =>
      rw [Program.rounds.eq_def]
      simp only [Bool.false_eq_true, if_false, if_neg (Nat.not_lt.mpr hcap)]
      rw [hb]
      simp only [hmissing]
      rfl

theorem rounds_cancelled (bound : Nat) (hne : changes ≠ []) :
    q.rounds names limit true bound changes stats = (q, .error .cancelled) := by
  cases changes with
  | nil => exact absurd rfl hne
  | cons x changes =>
      rw [Program.rounds.eq_def]
      simp

theorem rounds_of_missing (bound : Nat) (hne : changes ≠ [])
    (hcap : stats.rounds + 1 ≤ q.capFor names.length limit) {f : NodeId}
    (hb : changes.foldl (discover names) { program := q } = b) (hmissing : b.missing = some f) :
    q.rounds names limit false (bound + 1) changes stats =
      (b.program, .error (.unknownFunction f)) := by
  cases changes with
  | nil => exact absurd rfl hne
  | cons x changes =>
      rw [Program.rounds.eq_def]
      simp only [Bool.false_eq_true, if_false, if_neg (Nat.not_lt.mpr hcap)]
      rw [hb]
      simp only [hmissing]

/-- Rounds that are over at once. -/
theorem rounds_over {cancelled : Bool} (hdone : changes = [] ∨ cancelled = true ∨
    q.capFor names.length limit < stats.rounds + 1) :
    q.rounds names limit cancelled bound changes stats = (q,
      if changes = [] then
        .ok { stats with slots := q.slots.length, cap := q.capFor names.length limit }
      else if cancelled = true then .error .cancelled
      else .error (.diverged (q.capFor names.length limit) q.slots.length names.length)) := by
  by_cases hempty : changes = []
  · rw [if_pos hempty, hempty, rounds_nil]
  · rw [if_neg hempty]
    cases cancelled with
    | true => exact rounds_cancelled bound hempty
    | false =>
        exact rounds_of_cap_lt bound hempty ((hdone.resolve_left hempty).resolve_left (by simp))

theorem of_not_over {cancelled : Bool} (h : ¬ (changes = [] ∨ cancelled = true ∨
    q.capFor names.length limit < stats.rounds + 1)) :
    changes ≠ [] ∧ cancelled = false ∧ stats.rounds + 1 ≤ q.capFor names.length limit := by
  simpa only [not_or, Bool.not_eq_true, Nat.not_lt] using h

/-- What is at rest before the limit is at rest at the limit. -/
theorem Reached.stable_at_limit (h : Reached p names stats.rounds changes q)
    (hbound : bound + stats.rounds = p.roundBound names.length limit) (hnil : changes = []) :
    ∀ n, limit = some n → after {c | c ∈ p.constraints} (nameOf names) (n + 1) =
      after {c | c ∈ p.constraints} (nameOf names) n := by
  rintro n rfl
  rw [Program.roundBound, Option.getD_some] at hbound
  exact after_stable (h.changes_eq_nil_iff.mp hnil) (Nat.le.intro ((Nat.add_comm _ _).trans hbound))

/-- A run of rounds ends in time: always if there is no limit, and otherwise if nothing is new at
the limit. -/
theorem rounds_ok_iff (hv : p.Valid) (hover : ∀ c ∈ p.constraints, c.Over (· < names.length))
    (h : Reached p names stats.rounds changes q)
    (hbound : bound + stats.rounds = p.roundBound names.length limit) :
    (∃ result, (q.rounds names limit false bound changes stats).2 = .ok result) ↔
      ∀ n, limit = some n → after {c | c ∈ p.constraints} (nameOf names) (n + 1) =
        after {c | c ∈ p.constraints} (nameOf names) n := by
  induction bound generalizing q changes stats with
  | zero =>
      by_cases hne : changes = []
      · exact iff_of_true ⟨_, by rw [hne, rounds_nil]⟩ (h.stable_at_limit hbound hne)
      cases limit with
      | none =>
          -- no more rounds are made than there are items, and the cap is larger
          have hlt := h.rounds_lt hover hne
          have hcap : q.capFor names.length none ≤ p.roundBound names.length none :=
            h.stage.follows.capFor_le h.keys none
          rw [← hbound, Program.capFor, Option.getD_none] at hcap
          omega
      | some n =>
          rw [Program.roundBound, Option.getD_some, Nat.zero_add] at hbound
          subst hbound
          refine iff_of_false ?_ fun hstable => hne (h.changes_eq_nil_iff.mpr (hstable _ rfl))
          rintro ⟨result, hok⟩
          rw [rounds_of_cap_lt 0 hne (Nat.lt_succ_self _)] at hok
          exact absurd hok (by simp)
  | succ bound ih =>
      by_cases hne : changes = []
      · exact iff_of_true ⟨_, by rw [hne, rounds_nil]⟩ (h.stable_at_limit hbound hne)
      have hcap : stats.rounds + 1 ≤ q.capFor names.length limit := by
        cases limit with
        | none =>
            rw [Program.capFor, Option.getD_none]
            exact Nat.le_succ_of_le (h.rounds_lt hover hne)
        | some n =>
            rw [Program.roundBound, Option.getD_some] at hbound
            rw [Program.capFor, Option.getD_some]
            omega
      have hmissing := missing_discovers (b := { program := q }) (h.knownTargets hover) rfl changes
      rw [rounds_succ bound hne hcap rfl hmissing]
      exact ih (h.round hv rfl hmissing) ((Nat.add_right_comm _ _ _).symm.trans hbound)

/-- A run begins with the calls of known functions and a first round. -/
theorem solve_eq {cancelled : Bool} (hb : p.staticCalls.foldl (bindKnown names) (startOf p) = b)
    (hmissing : b.missing = none)
    (hnext : b.program.apply (b.updates ++ b.program.copies.map fun c => Update.copy c.1 c.2) = q) :
    p.solve names limit cancelled =
      q.rounds names limit cancelled (p.roundBound names.length limit)
        (Program.changed b.program q) { functions := names.length, totals := [q.total] } := by
  subst hb hnext
  rw [Program.solve]
  simp only
  split
  · next id hid => exact absurd (hmissing.symm.trans hid) (by simp)
  · rfl

/-- A run is broken off when a call of a known function reaches none. -/
theorem solve_of_missing {cancelled : Bool} {f : NodeId}
    (hb : p.staticCalls.foldl (bindKnown names) (startOf p) = b) (hmissing : b.missing = some f) :
    p.solve names limit cancelled = (b.program, .error (.unknownFunction f)) := by
  subst hb
  rw [Program.solve]
  simp only
  split
  · next id hid => rw [Option.some.inj (hmissing.symm.trans hid)]; rfl
  · next hnone => exact absurd (hmissing.symm.trans hnone) (by simp)

/-- A first run over functions that all have a name ends without a limit, and ends under a limit if
and only if nothing is new at the limit. -/
theorem solve_ok_iff (hv : p.Valid) (hfresh : p.Fresh)
    (hover : ∀ c ∈ p.constraints, c.Over (· < names.length)) :
    (∃ result, (p.solve names limit false).2 = .ok result) ↔
      ∀ n, limit = some n → after {c | c ∈ p.constraints} (nameOf names) (n + 1) =
        after {c | c ∈ p.constraints} (nameOf names) n := by
  have hmissing := missing_start hover
  rw [solve_eq rfl hmissing rfl]
  exact rounds_ok_iff hv hover (reached_start hv hfresh rfl hmissing) rfl

end Runs

end Programs

end Flow

end CallGraphs
