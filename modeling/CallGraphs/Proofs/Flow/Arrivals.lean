import CallGraphs.Proofs.Flow.Reordering

/-!
# When items arrive

If no call goes through a slot, then what flows does not depend on what slots
hold: which slots are seeded with which items is settled from the start, and so
are the copies, those that pass arguments of known functions among them.  An item
comes to a slot along copies (`Arrives`), and what a slot holds after `n` steps is
what comes to it along fewer than `n` of them (`mem_after_iff`), in whatever
circles the copies run.

So something is new in step `n + 1` if and only if some item takes just `n`
copies to some slot at least (`after_ne_iff`).  On a shortest way every slot is
farther by one than the slot before it, so the slots on the way are distinct
(`LeastCopies.exists_route`), and a run makes no more rounds than there are
slots.
-/

namespace CallGraphs

namespace Flow

section Steps

variable {φ : Type} {cs : Set (Constraint φ)} {name : φ → FunctionKey} {F G : Family φ}
  {x : Item φ} {key : Slot} {n : Nat}

/-- No call goes through a slot. -/
def Direct (cs : Set (Constraint φ)) : Prop :=
  ∀ through args explicit expand, .callThrough through args explicit expand ∉ cs

theorem Flows.of_direct (hcs : Direct cs) {o : Origin φ} (h : Flows cs name F o key) :
    Flows cs name G o key := by
  have called : ∀ {f args explicit}, Called cs F f args explicit → Called cs G f args explicit := by
    intro f args explicit hcall
    cases hcall with
    | known hc => exact .known hc
    | held hc _ => exact absurd hc (hcs _ _ _ _)
    | overrider hc _ _ => exact absurd hc (hcs _ _ _ _)
  cases h with
  | given hc => exact .given hc
  | argument hcall hi => exact .argument (called hcall) hi
  | default hcall hd hi => exact .default (called hcall) hd hi

/-- A slot is seeded with an item: it is assigned the item, or it is a parameter that the item is
passed to, as an argument or as a default. -/
def Seeded (cs : Set (Constraint φ)) (name : φ → FunctionKey) (x : Item φ) (key : Slot) : Prop :=
  Flows cs name (fun _ => ∅) (.item x) key

/-- An item comes to a slot along so many copies, from a slot that is seeded with it. -/
inductive Arrives (cs : Set (Constraint φ)) (name : φ → FunctionKey) (x : Item φ) :
    Slot → Nat → Prop where
  | seeded {key : Slot} : Seeded cs name x key → Arrives cs name x key 0
  | copied {source key : Slot} {n : Nat} : Arrives cs name x source n →
      Flows cs name (fun _ => ∅) (.slot source) key → Arrives cs name x key (n + 1)

/-- The least number of copies along which an item comes to a slot. -/
def LeastCopies (cs : Set (Constraint φ)) (name : φ → FunctionKey) (x : Item φ) (key : Slot)
    (n : Nat) : Prop :=
  IsLeast {k | Arrives cs name x key k} n

/-- After so many steps slots hold what comes to them along fewer copies. -/
theorem mem_after_iff (hcs : Direct cs) :
    x ∈ after cs name n key ↔ ∃ k < n, Arrives cs name x key k := by
  induction n generalizing key with
  | zero =>
      refine iff_of_false (Set.notMem_empty x) ?_
      rintro ⟨k, hk, -⟩
      exact Nat.not_lt_zero k hk
  | succ n ih =>
      rw [after_succ]
      constructor
      · rintro (hx | ⟨o, hflow, hx⟩)
        · obtain ⟨k, hk, harrives⟩ := ih.mp hx
          exact ⟨k, Nat.lt_succ_of_lt hk, harrives⟩
        · cases o with
          | slot source =>
              obtain ⟨k, hk, harrives⟩ := ih.mp hx
              exact ⟨k + 1, Nat.succ_lt_succ hk, harrives.copied (hflow.of_direct hcs)⟩
          | item y =>
              obtain rfl : x = y := hx
              exact ⟨0, Nat.succ_pos n, .seeded (hflow.of_direct hcs)⟩
      · rintro ⟨k, hk, harrives⟩
        cases harrives with
        | seeded hflow => exact Or.inr ⟨_, hflow.of_direct hcs, rfl⟩
        | copied hsource hflow =>
            exact Or.inr ⟨_, hflow.of_direct hcs, ih.mpr ⟨_, Nat.lt_of_succ_lt_succ hk, hsource⟩⟩

/-- What comes to a slot at all comes to it along some number of copies at least. -/
theorem Arrives.exists_leastCopies (h : Arrives cs name x key n) :
    ∃ m ≤ n, LeastCopies cs name x key m := by
  classical
  have hex : ∃ k, Arrives cs name x key k := ⟨n, h⟩
  exact ⟨Nat.find hex, Nat.find_min' hex h, Nat.find_spec hex, fun k hk => Nat.find_min' hex hk⟩

theorem Arrives.exists_seeded (h : Arrives cs name x key n) : ∃ seed, Seeded cs name x seed := by
  induction h with
  | seeded hseed => exact ⟨_, hseed⟩
  | copied _ _ ih => exact ih

/-- A slot that is seeded with an item takes no copies. -/
theorem Seeded.leastCopies (h : Seeded cs name x key) : LeastCopies cs name x key 0 :=
  ⟨.seeded h, fun k _ => Nat.zero_le k⟩

/-- Something is new in a step if and only if it takes just so many copies. -/
theorem after_ne_iff (hcs : Direct cs) :
    after cs name (n + 1) ≠ after cs name n ↔ ∃ key x, LeastCopies cs name x key n := by
  constructor
  · intro hne
    by_contra hnone
    refine hne (funext fun key => Set.ext fun x => ?_)
    rw [mem_after_iff hcs, mem_after_iff hcs]
    constructor
    · rintro ⟨k, hk, harrives⟩
      obtain ⟨m, hm, hleast⟩ := harrives.exists_leastCopies
      have hmn : m ≠ n := by
        rintro rfl
        exact hnone ⟨key, x, hleast⟩
      exact ⟨m, by omega, hleast.1⟩
    · rintro ⟨k, hk, harrives⟩
      exact ⟨k, Nat.lt_succ_of_lt hk, harrives⟩
  · rintro ⟨key, x, hleast⟩ heq
    have hx : x ∈ after cs name (n + 1) key :=
      (mem_after_iff hcs).mpr ⟨n, Nat.lt_succ_self n, hleast.1⟩
    rw [heq] at hx
    obtain ⟨k, hk, harrives⟩ := (mem_after_iff hcs).mp hx
    exact absurd (hleast.2 harrives) (Nat.not_le.mpr hk)

/-- On a shortest way the slot before is nearer by one. -/
theorem LeastCopies.exists_source (h : LeastCopies cs name x key (n + 1)) :
    ∃ source, LeastCopies cs name x source n := by
  obtain ⟨harrives, hleast⟩ := h
  cases harrives with
  | @copied source _ _ hsource hflow =>
      obtain ⟨m, hm, hsource'⟩ := hsource.exists_leastCopies
      have hle : n + 1 ≤ m + 1 := hleast (hsource'.1.copied hflow)
      obtain rfl : m = n := by omega
      exact ⟨source, hsource'⟩

/-- A shortest way along `n` copies goes through `n + 1` slots. -/
theorem LeastCopies.exists_route (h : LeastCopies cs name x key n) :
    ∃ route : List Slot, route.length = n + 1 ∧ route.Nodup ∧
      ∀ k ∈ route, ∃ m ≤ n, LeastCopies cs name x k m := by
  induction n generalizing key with
  | zero => exact ⟨[key], rfl, List.nodup_singleton key, fun k hk =>
      ⟨0, le_rfl, List.mem_singleton.mp hk ▸ h⟩⟩
  | succ n ih =>
      obtain ⟨source, hsource⟩ := h.exists_source
      obtain ⟨route, hlength, hnodup, hroute⟩ := ih hsource
      refine ⟨key :: route, by rw [List.length_cons, hlength], List.nodup_cons.mpr ⟨?_, hnodup⟩, ?_⟩
      · intro hkey
        obtain ⟨m, hm, hleast⟩ := hroute key hkey
        exact absurd (h.unique hleast) (by omega)
      · intro k hk
        rcases List.mem_cons.mp hk with rfl | hmem
        · exact ⟨n + 1, le_rfl, h⟩
        · obtain ⟨m, hm, hleast⟩ := hroute k hmem
          exact ⟨m, Nat.le_succ_of_le hm, hleast⟩

end Steps

/-! ## Runs without calls through slots -/

section Programs

open Binding

variable {p q : Program} {names : List FunctionKey} {cs : List (Constraint NodeId)}
  {changes : List SlotId} {n : Nat} {x : Item NodeId} {key : Slot}

theorem Program.Represents.direct (hrep : p.Represents cs) (hcalls : p.calls = []) :
    Direct {c | c ∈ cs} := by
  intro through args explicit expand hc
  have hmem := (hrep.complete _ hc).resolve_right (by simp)
  obtain ⟨call, hcall, -⟩ := Program.mem_constraints_callThrough.mp hmem
  rw [hcalls] at hcall
  exact absurd hcall List.not_mem_nil

/-- If an item takes `n` copies and is held wherever it takes no more of them, then there are more
than `n` slots. -/
theorem LeastCopies.lt_slots {cs : Set (Constraint NodeId)} {name : NodeId → FunctionKey}
    (h : LeastCopies cs name x key n)
    (hheld : ∀ k, ∀ m ≤ n, LeastCopies cs name x k m → x ∈ q.contents k) :
    n + 1 ≤ q.slots.length := by
  obtain ⟨route, hlength, hnodup, hroute⟩ := h.exists_route
  have hsub : route ⊆ q.keys := by
    intro k hk
    obtain ⟨m, hm, hleast⟩ := hroute k hk
    obtain ⟨id, hid, -⟩ := hheld k m hm hleast
    exact List.mem_of_getElem? (Program.getElem?_of_slotId? hid)
  have hle := (hnodup.subperm hsub).length_le
  rwa [hlength, Program.length_keys] at hle

section Direct

variable (hrep : p.Represents cs) (hcs : Direct {c | c ∈ cs})
include hrep hcs

/-- A run that is not at its end has made fewer rounds than there are slots. -/
theorem Reached.lt_slots (h : Reached p names n changes q) (hne : changes ≠ []) :
    n + 1 ≤ q.slots.length := by
  obtain ⟨key, x, hleast⟩ := (after_ne_iff hcs).mp fun heq => hne ((h.nil_iff hrep).mpr heq)
  refine hleast.lt_slots fun k m hm hleast' => ?_
  rw [h.contents_eq hrep]
  exact (mem_after_iff hcs).mpr ⟨m, Nat.lt_succ_of_le hm, hleast'.1⟩

/-- A first run ends, unless it is limited. -/
theorem exists_ok_of_direct (hcallees : ∀ call ∈ p.staticCalls, call.callee < names.length)
    (hcalls : p.calls = []) : ∃ result, (p.solve names none false).2 = .ok result := by
  have hmissing : (p.staticCalls.foldl (bindKnown names) (startOf p)).missing = none :=
    missing_bindKnowns rfl _ hcallees
  rw [solve_eq rfl hmissing rfl]
  refine exists_ok_of_kept (I := fun changes stats q => Reached p names stats.rounds changes q)
    (fun _ _ _ _ h _ hb hmissing => h.round hrep.valid hb hmissing) ?_ ?_
    (fun _ _ _ h => h.stage.follows.capFor_le h.keys none)
    (reached_start hrep.valid hrep.fresh rfl hmissing) rfl
  · intro changes stats q h hne
    exact (h.lt_slots hrep hcs hne).trans (Nat.le_mul_of_pos_right _ (Nat.succ_pos _))
  · intro changes stats q h call hcall
    rw [h.stage.follows.calls, hcalls] at hcall
    exact absurd hcall List.not_mem_nil

/-- At the end of a run slots hold what comes to them. -/
theorem Reached.exists_leastCopies (h : Reached p names n [] q) (hx : x ∈ q.contents key) :
    ∃ m, LeastCopies {c | c ∈ cs} (nameOf names) x key m := by
  rw [h.contents_eq hrep, mem_after_iff hcs] at hx
  obtain ⟨k, -, harrives⟩ := hx
  obtain ⟨m, -, hleast⟩ := harrives.exists_leastCopies
  exact ⟨m, hleast⟩

/-- The run has made more rounds than any item takes copies. -/
theorem Reached.lt_of_leastCopies (h : Reached p names n [] q) {m : Nat}
    (hleast : LeastCopies {c | c ∈ cs} (nameOf names) x key m) : m < n ∧ x ∈ q.contents key := by
  have hlt : m < n := by
    by_contra hle
    have hstable := after_stable ((h.nil_iff hrep).mp rfl) (Nat.le_of_not_lt hle)
    exact (after_ne_iff hcs).mpr ⟨key, x, hleast⟩ hstable
  refine ⟨hlt, ?_⟩
  rw [h.contents_eq hrep, mem_after_iff hcs]
  exact ⟨m, Nat.lt_succ_of_lt hlt, hleast.1⟩

end Direct

end Programs

/-! ## Main statement -/

/-- A program without calls through slots, run for the first time and without a limit over a graph
that has all functions which it calls, comes to an end.  If no slot is seeded, no round is made
after the first changes.  Otherwise there is one round more than the largest number of copies that
any item takes at least to any slot that holds it; in any case there are no more rounds than
slots. -/
theorem rounds_eq_farthest (g : Graph) {p : Program} {cs : List (Constraint NodeId)}
    (h : p.Built cs) (hcalls : p.calls = [])
    (hcallees : ∀ call ∈ p.staticCalls, call.callee < g.size) :
    ∃ q result, p.solve (g.nodes.map (·.key)) none false = (q, .ok result) ∧
      result.slots = q.slots.length ∧ result.rounds ≤ result.slots ∧
      (∀ key x, x ∈ q.contents key → ∃ d, LeastCopies {c | c ∈ cs} g.keyOf x key d) ∧
      ((¬ ∃ key x, Seeded {c | c ∈ cs} g.keyOf x key) → result.rounds = 0) ∧
      ((∃ key x, Seeded {c | c ∈ cs} g.keyOf x key) → ∃ farthest, result.rounds = farthest + 1 ∧
        IsGreatest {d | ∃ key x, x ∈ q.contents key ∧ LeastCopies {c | c ∈ cs} g.keyOf x key d}
          farthest) := by
  have hrep := h.represents
  have hcs := hrep.direct hcalls
  rw [← nameOf_nodes]
  have hsize : (g.nodes.map (·.key)).length = g.size := by rw [List.length_map, Graph.size]
  rw [← hsize] at hcallees
  generalize g.nodes.map (·.key) = names at hcallees
  obtain ⟨result, hok⟩ := exists_ok_of_direct hrep hcs hcallees hcalls
  obtain ⟨hreached, hearlier, hslots⟩ := reached_of_solve hrep.valid hrep.fresh hok
  obtain ⟨q, hq⟩ : ∃ q, (p.solve names none false).1 = q := ⟨_, rfl⟩
  rw [hq] at hreached hslots
  have hheld : ∀ key x, x ∈ q.contents key →
      ∃ d, LeastCopies {c | c ∈ cs} (nameOf names) x key d :=
    fun key x => hreached.exists_leastCopies hrep hcs
  refine ⟨q, result, Prod.ext hq hok, hslots, ?_⟩
  rw [hslots]
  cases hrounds : result.rounds with
  | zero =>
      rw [hrounds] at hreached
      refine ⟨Nat.zero_le _, hheld, fun _ => rfl, ?_⟩
      rintro ⟨key, x, hseed⟩
      exact absurd (hreached.lt_of_leastCopies hrep hcs hseed.leastCopies).1 (Nat.not_lt_zero 0)
  | succ farthest =>
      rw [hrounds] at hreached hearlier
      have hnew := hearlier farthest (Nat.lt_succ_self _)
      rw [hrep.after_eq, hrep.after_eq] at hnew
      obtain ⟨key, x, hleast⟩ := (after_ne_iff hcs).mp hnew
      refine ⟨?_, hheld, ?_, fun _ => ⟨farthest, rfl, ?_⟩⟩
      · exact hleast.lt_slots fun k m _ hleast' =>
          (hreached.lt_of_leastCopies hrep hcs hleast').2
      · intro hnone
        obtain ⟨seed, hseed⟩ := hleast.1.exists_seeded
        exact absurd ⟨seed, x, hseed⟩ hnone
      · refine ⟨⟨key, x, (hreached.lt_of_leastCopies hrep hcs hleast).2, hleast⟩, ?_⟩
        rintro d ⟨key', x', -, hleast'⟩
        exact Nat.le_of_lt_succ (hreached.lt_of_leastCopies hrep hcs hleast').1

/-- A function goes round a circle of two slots and from there to a function that is called. -/
def circleToCall : Program :=
  (((((Program.empty.intern (.global "first")).1.intern (.global "second")).1.addCopy 0 1).1.addCopy
    1 0).1.assign (.function 0) 0).addStaticCall ⟨1, [some (.slot 1)], 1⟩

theorem circleToCall_rounds : ∃ cs, circleToCall.Built cs ∧ circleToCall.calls = [] ∧
    (∀ call ∈ circleToCall.staticCalls, call.callee < mainAndRun.size) ∧
    ∃ q result, circleToCall.solve (mainAndRun.nodes.map (·.key)) none false = (q, .ok result) ∧
      result.rounds = 3 ∧ result.slots = 3 ∧
      IsGreatest {d | ∃ key x, x ∈ q.contents key ∧
        LeastCopies {c | c ∈ cs} mainAndRun.keyOf x key d} 2 := by
  have hslots := (Program.Built.empty.intern (.global "first")).intern (.global "second")
  have hcopies := (hslots.copy 0 1 (by decide) (by decide)).copy 1 0 (by decide) (by decide)
  have hassigned := hcopies.assign (.function 0) 0 trivial (by decide)
  have hargs : ArgsWithin 2 [some (.slot 1)] := by
    rintro v hv
    obtain rfl := Option.some.inj (List.mem_singleton.mp hv)
    exact Nat.one_lt_two
  obtain ⟨cs, hbuilt⟩ : ∃ cs, circleToCall.Built cs :=
    ⟨_, hassigned.staticCall ⟨1, [some (.slot 1)], 1⟩ hargs⟩
  have hcallees : ∀ call ∈ circleToCall.staticCalls, call.callee < mainAndRun.size := by decide
  obtain ⟨q, result, hsolve, -, -, -, hnone, hsome⟩ :=
    rounds_eq_farthest mainAndRun hbuilt rfl hcallees
  have hthree : ∃ result, (circleToCall.solve (mainAndRun.nodes.map (·.key)) none false).2 =
      .ok result ∧ result.rounds = 3 ∧ result.slots = 3 := ⟨_, by cbv, rfl, rfl⟩
  obtain ⟨result', hok, hrounds, hcount⟩ := hthree
  rw [hsolve] at hok
  obtain rfl := Except.ok.inj hok
  have hseeded : ∃ key x, Seeded {c | c ∈ cs} mainAndRun.keyOf x key := by
    by_contra hempty
    exact absurd (hrounds.symm.trans (hnone hempty)) (by decide)
  obtain ⟨farthest, hfarthest, hgreatest⟩ := hsome hseeded
  obtain rfl : 2 = farthest := Nat.succ.inj (hrounds.symm.trans hfarthest)
  exact ⟨_, hbuilt, rfl, hcallees, q, result, hsolve, hrounds, hcount, hgreatest⟩

end Flow

end CallGraphs
