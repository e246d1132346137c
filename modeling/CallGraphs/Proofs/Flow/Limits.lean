import CallGraphs.Proofs.Flow.Runs

/-!
# Runs under a limit

A program may be run again, with constraints added in between, so a run may
begin with slots that hold a lot already and with arguments that were passed
before.  Whatever has been done to a program (`Program.Reachable`), the places
and the functions that it mentions are known, and more is not needed: every
round but the last brings a function to a slot or blocks one, and so a run
without a limit ends below its own cap, although the cap is worked out in every
round from the slots that there are by then.

A limit does not change what a round does.  A run under a limit is the run
without one, unless it is given up on the way (`solve_under_limit`).
-/

namespace CallGraphs

namespace Flow

/-! ## Programs that have been used -/

/-- A function that is the value is among the first so many. -/
def Value.Known (n : Nat) : Value → Prop
  | function f => f < n
  | slot _ | blocked => True

/-- The functions among arguments are among the first so many. -/
def ArgsKnown (n : Nat) (args : List (Option Value)) : Prop := ∀ v, some v ∈ args → v.Known n

/-- A function that an update brings is among the first so many. -/
def Update.Known (n : Nat) : Update → Prop
  | add _ f => f < n
  | copy .. | block _ => True

namespace Program

/-- A program that came about from the empty one by construction steps and runs, in whatever order.
Every step refers to places that were handed out before and to functions among the first so many.
A run may be over any graph and under any limit, may be called off, and need not have ended well. -/
inductive Reachable (n : Nat) : Program → Prop where
  | empty : Reachable n .empty
  | intern {p} (key : Slot) : Reachable n p → Reachable n (p.intern key).1
  | copy {p} (s t : SlotId) : Reachable n p → s < p.slots.length → t < p.slots.length →
      Reachable n (p.addCopy s t).1
  | assign {p} (v : Value) (t : SlotId) : Reachable n p → v.Within p.slots.length → v.Known n →
      t < p.slots.length → Reachable n (p.assign v t)
  | staticCall {p} (call : StaticCall) : Reachable n p → call.callee < n →
      ArgsWithin p.slots.length call.args → ArgsKnown n call.args →
      Reachable n (p.addStaticCall call)
  | indirectCall {p} (call : IndirectCall) : Reachable n p → call.through < p.slots.length →
      ArgsWithin p.slots.length call.args → ArgsKnown n call.args →
      Reachable n (p.addIndirectCall call)
  | default {p} (f : NodeId) (index : Nat) (v : Value) : Reachable n p → f < n →
      v.Within p.slots.length → v.Known n → Reachable n (p.addDefault f index v)
  | expansion {p} (f : NodeId) (others : List NodeId) : Reachable n p → f < n →
      (∀ g ∈ others, g < n) → Reachable n (p.addExpansion f others)
  | solve {p} (g : Graph) (limit : Option Nat) (cancelled : Bool) : Reachable n p →
      Reachable n (p.solve (g.nodes.map (·.key)) limit cancelled).1

/-- All functions that a program mentions or holds are among the first so many. -/
structure Known (n : Nat) (p : Program) : Prop where
  seeds : ∀ u ∈ p.seeds, u.Known n
  staticCalls : ∀ call ∈ p.staticCalls, call.callee < n ∧ ArgsKnown n call.args
  calls : ∀ call ∈ p.calls, ArgsKnown n call.args
  defaults : ∀ d ∈ p.defaults, d.function < n ∧ d.value.Known n
  expansions : ∀ e ∈ p.expansions, e.1 < n ∧ ∀ g ∈ e.2, g < n
  holds : ∀ id f, p.Holds id (.function f) → f < n

namespace Known

variable {n : Nat} {p : Program}

theorem empty (n : Nat) : Known n .empty :=
  ⟨by simp [Program.empty], by simp [Program.empty], by simp [Program.empty],
    by simp [Program.empty], by simp [Program.empty],
    fun _ _ h => absurd h.lt_length (by simp [Program.empty])⟩

theorem intern (h : p.Known n) (key : Slot) : (p.intern key).1.Known n := by
  have hholds : ∀ id f, (p.intern key).1.Holds id (.function f) → f < n :=
    fun id f hf => h.holds id f ((p.holds_intern key).mp hf)
  rw [p.intern_eq key] at hholds ⊢
  exact ⟨h.seeds, h.staticCalls, h.calls, h.defaults, h.expansions, hholds⟩

theorem copy (h : p.Known n) (s t : SlotId) : (p.addCopy s t).1.Known n := by
  rw [addCopy]
  split
  · exact h
  · exact { h with }

theorem seed (h : p.Known n) {u : Update} (hu : u.Known n) :
    Known n { p with seeds := p.seeds ++ [u] } :=
  { h with seeds := forall_mem_concat h.seeds hu }

theorem assign (h : p.Known n) {v : Value} (hv : v.Known n) (t : SlotId) :
    (p.assign v t).Known n := by
  cases v with
  | slot s => exact h.copy s t
  | function f => exact h.seed (u := .add t f) hv
  | blocked => exact h.seed (u := .block t) trivial

theorem staticCall (h : p.Known n) {call : StaticCall} (hcallee : call.callee < n)
    (hargs : ArgsKnown n call.args) : (p.addStaticCall call).Known n :=
  { h with staticCalls := forall_mem_concat h.staticCalls ⟨hcallee, hargs⟩ }

theorem indirectCall (h : p.Known n) {call : IndirectCall} (hargs : ArgsKnown n call.args) :
    (p.addIndirectCall call).Known n :=
  { h with calls := forall_mem_concat h.calls hargs }

theorem default (h : p.Known n) {f : NodeId} (hf : f < n) (index : Nat) {v : Value}
    (hv : v.Known n) : (p.addDefault f index v).Known n :=
  { h with defaults := forall_mem_concat h.defaults ⟨hf, hv⟩ }

theorem expansion (h : p.Known n) {f : NodeId} (hf : f < n) {others : List NodeId}
    (hothers : ∀ g ∈ others, g < n) : (p.addExpansion f others).Known n := by
  rw [addExpansion]
  split
  · exact h
  · exact { h with expansions := forall_mem_concat h.expansions ⟨hf, hothers⟩ }

theorem origin_over {v : Value} (hv : v.Known n) : (p.origin v).Over (· < n) := by
  cases v with
  | slot id => trivial
  | function f => exact hv
  | blocked => trivial

theorem origins_over {args : List (Option Value)} (hargs : ArgsKnown n args) :
    ArgsOver (· < n) (p.origins args) := by
  intro o ho
  obtain ⟨arg, harg, heq⟩ := List.mem_map.mp ho
  obtain ⟨v, rfl, rfl⟩ := Option.map_eq_some_iff.mp heq
  exact origin_over (hargs v harg)

/-- The constraints of a program mention the functions that it mentions. -/
theorem constraints_over (h : p.Known n) : ∀ c ∈ p.constraints, c.Over (· < n) := by
  intro c hc
  cases c with
  | flow o key =>
      rcases mem_constraints_flow.mp hc with ⟨s, t, -, heq⟩ | ⟨u, hu, heq⟩
      · obtain ⟨rfl, -⟩ := Constraint.flow.inj heq
        trivial
      · have hknown := h.seeds u hu
        cases u <;> obtain ⟨rfl, -⟩ := Constraint.flow.inj heq
        · exact hknown
        · trivial
        · trivial
  | call f args explicit =>
      obtain ⟨call, hcall, rfl, rfl, -⟩ := mem_constraints_call.mp hc
      obtain ⟨hcallee, hargs⟩ := h.staticCalls call hcall
      exact ⟨hcallee, origins_over hargs⟩
  | callThrough key args explicit expand =>
      obtain ⟨call, hcall, -, rfl, -⟩ := mem_constraints_callThrough.mp hc
      exact origins_over (h.calls call hcall)
  | default f index o =>
      obtain ⟨d, hd, rfl, -, rfl⟩ := mem_constraints_default.mp hc
      obtain ⟨hf, hv⟩ := h.defaults d hd
      exact ⟨hf, origin_over hv⟩
  | overrider f g =>
      have hg := mem_constraints_overrider.mp hc
      rw [expansionOf, List.mem_flatMap] at hg
      obtain ⟨e, he, hg⟩ := hg
      obtain ⟨he, hf⟩ := List.mem_filter.mp he
      obtain ⟨hlt, hothers⟩ := h.expansions e he
      exact ⟨of_decide_eq_true hf ▸ hlt, hothers g hg⟩

end Known

end Program

/-! ## What a run leaves behind -/

section Runs

open Binding

variable {n : Nat} {p q : Program} {names : List FunctionKey} {b b' : Binding}
  {dirty changes : List SlotId} {updates : List Update} {limit : Option Nat} {cancelled : Bool}
  {bound : Nat} {stats result : FixpointStats}

/-- A run has used up assignments and calls of known functions, and has found no other functions
than those that the program mentions. -/
structure Used (n : Nat) (p : Program) (b : Binding) : Prop where
  follows : Follows p b.program
  sound : Sound (fun _ => {x | x.Over (· < n)}) b
  seeds : b.program.seeds = []
  staticCalls : b.program.staticCalls = []

theorem used_iff : Used n p b ↔ Spent (fun _ => {x | x.Over (· < n)}) p b :=
  ⟨fun h => ⟨h.follows, h.sound, h.seeds, h.staticCalls⟩,
    fun h => ⟨h.follows, h.sound, h.seeds, h.staticCalls⟩⟩

/-- A program holds no other functions than it mentions. -/
theorem Program.Known.items (hk : p.Known n) :
    ∀ id (key : Slot) x, p.keys[id]? = some key → p.Holds id x → x.Over (· < n) := by
  intro id key x _ hx
  cases x with
  | function f => exact hk.holds id f hx
  | blocked => trivial

namespace Used

theorem knowns (hv : p.Valid) (hk : p.Known n) :
    Used n p (p.staticCalls.foldl (bindKnown names) (startOf p)) :=
  used_iff.mpr (.knowns (solves_over hk.constraints_over) hv hk.items)

theorem discovers (hv : p.Valid) (hk : p.Known n) (h : Used n p b) (slots : List SlotId) :
    Used n p (slots.foldl (discover names) b) :=
  used_iff.mpr ((used_iff.mp h).discovers (solves_over hk.constraints_over) hv slots)

theorem apply (h : Used n p b) (hr : Round b dirty updates) :
    Used n p { program := b.program.apply updates } :=
  used_iff.mpr ((used_iff.mp h).apply hr)

theorem solve (hv : p.Valid) (hk : p.Known n) :
    Used n p { program := (p.solve names limit cancelled).1 } := by
  rw [← solveUntil_const]
  exact used_iff.mpr (.solveUntil (solves_over hk.constraints_over) hv hk.items)

theorem known (hk : p.Known n) (h : Used n p { program := q }) : q.Known n where
  seeds := by
    have hseeds : q.seeds = [] := h.seeds
    simp [hseeds]
  staticCalls := by
    have hknowns : q.staticCalls = [] := h.staticCalls
    simp [hknowns]
  calls call hcall := hk.calls call (h.follows.calls ▸ hcall)
  defaults d hd := hk.defaults d (h.follows.defaults ▸ hd)
  expansions e he := hk.expansions e (h.follows.expansions ▸ he)
  holds id _ hf := h.sound.items id _ _ (Program.getElem?_keyAt hf.lt_length) hf

end Used

theorem Program.Reachable.valid_and_known (h : p.Reachable n) : p.Valid ∧ p.Known n := by
  induction h with
  | empty => exact ⟨.empty, .empty n⟩
  | intern key _ ih => exact ⟨ih.1.intern key, ih.2.intern key⟩
  | copy s t _ hs ht ih => exact ⟨ih.1.copy hs ht, ih.2.copy s t⟩
  | assign v t _ hv hknown ht ih => exact ⟨ih.1.assign hv ht, ih.2.assign hknown t⟩
  | staticCall call _ hcallee hargs hknown ih =>
      exact ⟨ih.1.staticCall hargs, ih.2.staticCall hcallee hknown⟩
  | indirectCall call _ ht hargs hknown ih =>
      exact ⟨ih.1.indirectCall ht hargs, ih.2.indirectCall hknown⟩
  | default f index v _ hf hv hknown ih =>
      exact ⟨ih.1.default hv, ih.2.default hf index hknown⟩
  | expansion f others _ hf hothers ih =>
      exact ⟨ih.1.expansion f others, ih.2.expansion hf hothers⟩
  | @solve p g limit cancelled _ ih =>
      have hused : Used n p { program := (p.solve (g.nodes.map (·.key)) limit cancelled).1 } :=
        Used.solve ih.1 ih.2
      exact ⟨(used_iff.mp hused).valid ih.1, hused.known ih.2⟩

/-! ## Runs without a limit -/

/-- A round that changes something brings an item. -/
theorem ncard_lt_of_changed (hn : b.program.keys.Nodup)
    (h : Sound (fun _ => {x | x.Over (· < n)}) { program := b.program.apply updates })
    (hne : Program.changed b.program (b.program.apply updates) ≠ []) :
    (heldItems b.program.contents).ncard <
      (heldItems (b.program.apply updates).contents).ncard := by
  refine Set.ncard_lt_ncard (heldItems_ssubset ?_ ?_) h.finite_heldItems
  · rintro key x ⟨id, hid, hx⟩
    refine ⟨id, ?_, Program.holds_apply.mpr (Or.inl hx)⟩
    rw [Program.slotId?_eq, Program.keys_apply, ← Program.slotId?_eq]
    exact hid
  · exact fun heq => hne ((Program.changed_eq_nil_iff hn).mpr heq.symm)

/-- A run is under way over as many functions as it has names for: it has added no slots but
parameters, and unless it is at its end it has brought an item in every round. -/
structure UnderWay (p : Program) (names : List FunctionKey) (rounds : Nat)
    (changes : List SlotId) (q : Program) : Prop where
  used : Used names.length p { program := q }
  keys : ∀ key ∈ q.keys, key ∈ p.keys ∨ key ∈ p.params names
  items : changes ≠ [] → rounds + 1 ≤ (heldItems q.contents).ncard

namespace UnderWay

theorem knownTargets (hk : p.Known names.length)
    (h : UnderWay p names stats.rounds changes q) : KnownTargets names q :=
  h.used.sound.knownTargets h.used.follows hk.constraints_over

/-- The cap is never reached. -/
theorem rounds_lt (h : UnderWay p names stats.rounds changes q) (hne : changes ≠ []) :
    stats.rounds + 1 ≤ q.slots.length * (names.length + 1) :=
  (h.items hne).trans h.used.sound.ncard_heldItems_le

theorem start (hv : p.Valid) (hk : p.Known names.length)
    (hb : p.staticCalls.foldl (bindKnown names) (startOf p) = b) :
    UnderWay p names 0
      (Program.changed b.program (b.program.apply
        (b.updates ++ b.program.copies.map fun c => Update.copy c.1 c.2)))
      (b.program.apply (b.updates ++ b.program.copies.map fun c => Update.copy c.1 c.2)) := by
  have hknowns : Used names.length p b := hb ▸ Used.knowns hv hk
  have hused := hknowns.apply (round_of_copies b)
  refine ⟨hused, ?_, ?_⟩
  · intro key hkey
    rw [Program.keys_apply] at hkey
    exact mem_keys_knowns (hb ▸ hkey)
  · intro hne
    have hlt := ncard_lt_of_changed hknowns.follows.nodup hused.sound hne
    exact Nat.lt_of_le_of_lt (Nat.zero_le _) hlt

theorem round (hv : p.Valid) (hk : p.Known names.length)
    (h : UnderWay p names stats.rounds changes q) (hne : changes ≠ [])
    (hb : changes.foldl (discover names) { program := q } = b) :
    UnderWay p names (stats.rounds + 1)
      (Program.changed b.program (b.program.apply (b.updates ++ b.program.copiesFrom changes)))
      (b.program.apply (b.updates ++ b.program.copiesFrom changes)) := by
  have hfound : Used names.length p b := hb ▸ h.used.discovers hv hk changes
  have hused := hfound.apply (round_of_copiesFrom b changes)
  refine ⟨hused, ?_, ?_⟩
  · intro key hkey
    rw [Program.keys_apply] at hkey
    rcases mem_keys_discovers h.used.follows changes (hb ▸ hkey) with hold | hnew
    · exact h.keys key hold
    · exact Or.inr hnew
  · intro hchanged
    have hgrows : Grows (fun _ _ => True) { program := q } b :=
      hb ▸ grows_discovers (licensedCalls_true names q) changes
    have hlt := ncard_lt_of_changed hfound.follows.nodup hused.sound hchanged
    rw [hgrows.contents h.used.follows.nodup] at hlt
    exact Nat.lt_of_le_of_lt (h.items hne) hlt

/-- A run without a limit ends. -/
theorem exists_ok (hv : p.Valid) (hk : p.Known names.length)
    (h : UnderWay p names stats.rounds changes q)
    (hbound : bound + stats.rounds = p.roundBound names.length none) :
    ∃ result, (q.rounds names none false bound changes stats).2 = .ok result := by
  refine exists_ok_of_kept (I := fun changes stats q => UnderWay p names stats.rounds changes q)
    (fun _ _ _ _ h hne hb _ => h.round hv hk hne hb) (fun _ _ _ h hne => h.rounds_lt hne)
    (fun _ _ _ h => h.knownTargets hk) (fun _ _ _ h => ?_) h hbound
  exact h.used.follows.capFor_le h.keys none

end UnderWay

/-! ## Runs under a limit -/

theorem rounds_le (hok : (q.rounds names limit cancelled bound changes stats).2 = .ok result) :
    stats.rounds ≤ result.rounds := by
  induction bound generalizing q changes stats with
  | zero =>
      rcases rounds_cases hok with ⟨rfl, -⟩ | ⟨_, _, _, hbound, -⟩
      · rw [rounds_nil] at hok
        exact Except.ok.inj hok ▸ le_rfl
      · exact absurd hbound (by simp)
  | succ bound ih =>
      rcases rounds_cases hok with ⟨rfl, -⟩ | ⟨_, b, next, hbound, -, -, -, heq⟩
      · rw [rounds_nil] at hok
        exact Except.ok.inj hok ▸ le_rfl
      · obtain rfl := Nat.succ.inj hbound
        rw [heq] at hok
        exact (Nat.le_succ _).trans (ih hok)

/-- A run that is at its end when the limit is set ends in the same way. -/
theorem end_under_limit {most left : Nat} (hleft : left + stats.rounds = most)
    (hok : (q.rounds names none false bound [] stats).2 = .ok result) :
    (result.rounds ≤ most → q.rounds names (some most) false left [] stats =
      ((q.rounds names none false bound [] stats).1, .ok { result with cap := most })) ∧
    (most < result.rounds → ∃ slots, (q.rounds names (some most) false left [] stats).2 =
      .error (.diverged most slots names.length)) := by
  rw [rounds_nil] at hok ⊢
  obtain rfl := Except.ok.inj hok
  rw [rounds_nil]
  refine ⟨fun _ => rfl, ?_⟩
  intro hlt
  exact absurd hlt (Nat.not_lt.mpr (hleft ▸ Nat.le_add_left _ _))

/-- Rounds under a limit are those without a limit, up to the limit. -/
theorem rounds_under_limit {most left : Nat} (hleft : left + stats.rounds = most)
    (hok : (q.rounds names none false bound changes stats).2 = .ok result) :
    (result.rounds ≤ most → q.rounds names (some most) false left changes stats =
      ((q.rounds names none false bound changes stats).1, .ok { result with cap := most })) ∧
    (most < result.rounds → ∃ slots, (q.rounds names (some most) false left changes stats).2 =
      .error (.diverged most slots names.length)) := by
  induction bound generalizing q changes stats left with
  | zero =>
      rcases rounds_cases hok with ⟨rfl, -⟩ | ⟨_, _, _, hbound, -⟩
      · exact end_under_limit hleft hok
      · exact absurd hbound (by simp)
  | succ bound ih =>
      by_cases hne : changes = []
      · subst hne
        exact end_under_limit hleft hok
      · rcases rounds_cases hok with ⟨hnil, -⟩ | ⟨_, b, next, hbound, hb, hmissing, rfl, heq⟩
        · exact absurd hnil hne
        obtain rfl := Nat.succ.inj hbound
        rw [heq] at hok ⊢
        have hmore : stats.rounds + 1 ≤ result.rounds := rounds_le hok
        cases left with
        | zero =>
            -- the limit is reached, and something has changed
            have hcap : q.capFor names.length (some most) < stats.rounds + 1 := by
              rw [Program.capFor, Option.getD_some]
              omega
            rw [rounds_of_cap_lt 0 hne hcap]
            exact ⟨fun hle => by omega, fun _ => ⟨_, rfl⟩⟩
        | succ left =>
            have hcap : stats.rounds + 1 ≤ q.capFor names.length (some most) := by
              rw [Program.capFor, Option.getD_some]
              omega
            rw [rounds_succ left hne hcap hb hmissing]
            exact ih ((Nat.add_right_comm _ _ _).symm.trans hleft) hok

end Runs

/-! ## Main statement -/

/-- A run over a graph that has all functions which a program mentions ends without a limit,
whatever was done to the program before.  Under a limit the run is given up if and only if the one
without a limit takes more rounds, and otherwise it ends with the same program and the same counts,
but for the cap that it reports. -/
theorem solve_under_limit (g : Graph) {p : Program} (h : p.Reachable g.size) :
    ∃ result, (p.solve (g.nodes.map (·.key)) none false).2 = .ok result ∧ ∀ limit,
      ((∃ cap slots functions, (p.solve (g.nodes.map (·.key)) (some limit) false).2 =
        .error (.diverged cap slots functions)) ↔ limit < result.rounds) ∧
      (result.rounds ≤ limit → p.solve (g.nodes.map (·.key)) (some limit) false =
        ((p.solve (g.nodes.map (·.key)) none false).1, .ok { result with cap := limit })) := by
  obtain ⟨hv, hk⟩ := h.valid_and_known
  have hsize : (g.nodes.map (·.key)).length = g.size := by rw [List.length_map, Graph.size]
  rw [← hsize] at hk
  generalize g.nodes.map (·.key) = names at hk
  obtain ⟨b, hb⟩ : ∃ b, p.staticCalls.foldl (Binding.bindKnown names) (startOf p) = b := ⟨_, rfl⟩
  obtain ⟨q, hq⟩ : ∃ q, b.program.apply
    (b.updates ++ b.program.copies.map fun c => Update.copy c.1 c.2) = q := ⟨_, rfl⟩
  have hmissing : b.missing = none := hb ▸ missing_start hk.constraints_over
  have hunder : UnderWay p names 0 (Program.changed b.program q) q := hq ▸ .start hv hk hb
  obtain ⟨result, hok⟩ : ∃ result, (q.rounds names none false (p.roundBound names.length none)
      (Program.changed b.program q) { functions := names.length, totals := [q.total] }).2 =
        .ok result := hunder.exists_ok hv hk rfl
  refine ⟨result, by rw [solve_eq hb hmissing hq, hok], ?_⟩
  intro limit
  obtain ⟨hends, hgivenUp⟩ := rounds_under_limit (Nat.add_zero limit) hok
  rw [solve_eq hb hmissing hq, solve_eq hb hmissing hq, Program.roundBound, Option.getD_some]
  refine ⟨⟨?_, ?_⟩, hends⟩
  · rintro ⟨cap, slots, functions, hdiverged⟩
    by_contra hle
    rw [hends (Nat.le_of_not_lt hle)] at hdiverged
    exact absurd hdiverged (by simp)
  · intro hlt
    obtain ⟨slots, hdiverged⟩ := hgivenUp hlt
    exact ⟨_, _, _, hdiverged⟩

/-- A program that was run under a limit which is too low, and asks for more after that. -/
def callThroughSlotAgain : Program :=
  (callThroughSlot.solve (mainAndRun.nodes.map (·.key)) (some 0) false).1.assign (.function 0) 0

theorem callThroughSlotAgain_under_limit :
    callThroughSlotAgain.Reachable mainAndRun.size ∧ ∃ result,
      (callThroughSlotAgain.solve (mainAndRun.nodes.map (·.key)) none false).2 = .ok result ∧
      ∀ limit,
        ((∃ cap slots functions, (callThroughSlotAgain.solve (mainAndRun.nodes.map (·.key))
          (some limit) false).2 = .error (.diverged cap slots functions)) ↔
            limit < result.rounds) ∧
        (result.rounds ≤ limit → callThroughSlotAgain.solve (mainAndRun.nodes.map (·.key))
          (some limit) false =
            ((callThroughSlotAgain.solve (mainAndRun.nodes.map (·.key)) none false).1,
              .ok { result with cap := limit })) := by
  have hempty : Program.Reachable 2 .empty := .empty
  have hslots := (hempty.intern (.global "callback")).intern (.global "argument")
  have hassigned := (hslots.assign (.function 1) 0 trivial Nat.one_lt_two (by decide)).assign
    (.function 0) 1 trivial Nat.two_pos (by decide)
  have hargs : ArgsWithin 2 [some (.slot 1)] ∧ ArgsKnown 2 [some (.slot 1)] := by
    constructor
    all_goals
      rintro v hv
      obtain rfl := Option.some.inj (List.mem_singleton.mp hv)
    · exact Nat.one_lt_two
    · trivial
  have hcall := hassigned.indirectCall ⟨0, [some (.slot 1)], 1, false⟩ (by decide) hargs.1 hargs.2
  have hagain := (hcall.solve mainAndRun (some 0) false).assign (.function 0) 0 trivial Nat.two_pos
    (by cbv)
  exact ⟨hagain, solve_under_limit mainAndRun hagain⟩

end Flow

end CallGraphs
