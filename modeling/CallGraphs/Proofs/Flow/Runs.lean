import CallGraphs.Proofs.Flow.Rounds

/-!
# What every run keeps

A run can be called off at any moment, and it looks whether it was before every
round.  `Program.solveUntil` is a run under a token that says so from some round
on, or now and then; if the token never changes, it is `Program.solve`
(`solveUntil_const`).

However a run ends, it ends at a stage that it came to round by round
(`roundsUntil_ends`), and at most passes some arguments after that.  So what is
kept by one round is kept by every run, whether it came to its end or was given
up: a run takes nothing away from any slot (`holds_solveUntil`), and it stays
below every family that solves the constraints and takes in what the slots held
before (`Spent.solveUntil`).  A run that comes to its end has carried out all
copies besides, those of earlier runs too, because it begins with all of them
(`closed_of_solveUntil`), and its totals never went down
(`totals_solveUntil`).
-/

namespace CallGraphs

namespace Flow

open Binding

/-! ## Runs that are called off -/

namespace Program

/-- Rounds under a token that is looked at before each of them.  What it says then is given by the
number of rounds made so far. -/
def roundsUntil (names : List FunctionKey) (limit : Option Nat) (calledOff : Nat → Bool) :
    (bound : Nat) → Program → (changes : List SlotId) → FixpointStats →
      Program × Except Failure FixpointStats
  | _, p, [], stats =>
    (p, .ok { stats with slots := p.slots.length, cap := p.capFor names.length limit })
  | bound, p, changes, stats =>
    let cap := p.capFor names.length limit
    if calledOff stats.rounds then (p, .error .cancelled)
    else if cap < stats.rounds + 1 then
      (p, .error (.diverged cap p.slots.length names.length))
    else
      match bound with
      | 0 => (p, .error (.diverged cap p.slots.length names.length))
      | bound + 1 =>
        let b := changes.foldl (Binding.discover names) { program := p }
        match b.missing with
        | some id => (b.program, .error (.unknownFunction id))
        | none =>
          let next := b.program.apply (b.updates ++ b.program.copiesFrom changes)
          roundsUntil names limit calledOff bound next (changed b.program next) (stats.next next)

/-- A run under a token that is looked at before every round but the first. -/
def solveUntil (p : Program) (names : List FunctionKey) (limit : Option Nat)
    (calledOff : Nat → Bool) : Program × Except Failure FixpointStats :=
  let b := p.staticCalls.foldl (bindKnown names) (startOf p)
  match b.missing with
  | some id => (b.program, .error (.unknownFunction id))
  | none =>
    let all := b.program.copies.map fun c => Update.copy c.1 c.2
    let next := b.program.apply (b.updates ++ all)
    next.roundsUntil names limit calledOff (p.roundBound names.length limit)
      (changed b.program next) { functions := names.length, totals := [next.total] }

end Program

section Runs

variable {p q : Program} {names : List FunctionKey} {F : Family NodeId} {b b' : Binding}
  {dirty changes : List SlotId} {updates : List Update} {limit : Option Nat} {cancelled : Bool}
  {calledOff : Nat → Bool} {bound : Nat} {stats result : FixpointStats}

theorem roundsUntil_const : q.roundsUntil names limit (fun _ => cancelled) bound changes stats =
    q.rounds names limit cancelled bound changes stats := by
  induction bound generalizing q changes stats with
  | zero => cases changes <;> simp only [Program.roundsUntil, Program.rounds]
  | succ bound ih =>
      cases changes with
      | nil => simp only [Program.roundsUntil, Program.rounds]
      | cons slot changes =>
          simp only [Program.roundsUntil, Program.rounds, ih]
          rfl

theorem solveUntil_const :
    p.solveUntil names limit (fun _ => cancelled) = p.solve names limit cancelled := by
  cases hmissing : (p.staticCalls.foldl (bindKnown names) (startOf p)).missing with
  | some f => simp only [Program.solveUntil, hmissing, solve_of_missing rfl hmissing]
  | none =>
      simp only [Program.solveUntil, hmissing, roundsUntil_const]
      rw [solve_eq rfl hmissing rfl]

/-- A program at the end of the first round of a run. -/
abbrev Binding.begun (b : Binding) : Program :=
  b.program.apply (b.updates ++ b.program.copies.map fun c => Update.copy c.1 c.2)

/-- A program at the end of a round that looked at some slots. -/
abbrev Binding.ended (b : Binding) (changes : List SlotId) : Program :=
  b.program.apply (b.updates ++ b.program.copiesFrom changes)

/-- A property of the stages of a run, each given by the slots that changed last, the counts and the
program, that is kept by every round. -/
def KeptByRounds (names : List FunctionKey) (I : List SlotId → FixpointStats → Program → Prop) :
    Prop :=
  ∀ ⦃changes stats q b⦄, I changes stats q → changes ≠ [] →
    changes.foldl (discover names) { program := q } = b → b.missing = none →
    I (Program.changed b.program (b.ended changes)) (stats.next (b.ended changes))
      (b.ended changes)

/-- A property that the stage after the first round of a run has. -/
def HoldsAtFirst (names : List FunctionKey) (p : Program)
    (I : List SlotId → FixpointStats → Program → Prop) : Prop :=
  ∀ ⦃b⦄, p.staticCalls.foldl (bindKnown names) (startOf p) = b → b.missing = none →
    I (Program.changed b.program b.begun)
      { functions := names.length, totals := [b.begun.total] } b.begun

/-- How a run of rounds ends at a stage: nothing changed last, or the run is given up, or it is
broken off while arguments are passed. -/
inductive EndsAt (names : List FunctionKey) (limit : Option Nat) (changes : List SlotId)
    (stats : FixpointStats) (q : Program) : Program × Except Failure FixpointStats → Prop where
  | atRest : changes = [] → EndsAt names limit changes stats q
      (q, .ok { stats with slots := q.slots.length, cap := q.capFor names.length limit })
  | givenUp (failure : Failure) : EndsAt names limit changes stats q (q, .error failure)
  | brokenOff (failure : Failure) : EndsAt names limit changes stats q
      ((changes.foldl (discover names) { program := q }).program, .error failure)

variable {I : List SlotId → FixpointStats → Program → Prop}

/-- What holds at some stage of a run and is kept by every round holds at the stage at which the run
ends. -/
theorem roundsUntil_ends (hround : KeptByRounds names I) (h : I changes stats q) :
    ∃ changes' stats' q', I changes' stats' q' ∧ EndsAt names limit changes' stats' q'
      (q.roundsUntil names limit calledOff bound changes stats) := by
  induction bound generalizing q changes stats with
  | zero =>
      refine ⟨changes, stats, q, h, ?_⟩
      cases changes with
      | nil =>
          rw [Program.roundsUntil]
          exact .atRest rfl
      | cons slot changes =>
          rw [Program.roundsUntil.eq_def]
          dsimp only
          repeat' split
          all_goals exact .givenUp _
  | succ bound ih =>
      cases changes with
      | nil =>
          refine ⟨[], stats, q, h, ?_⟩
          rw [Program.roundsUntil]
          exact .atRest rfl
      | cons slot changes =>
          rw [Program.roundsUntil.eq_def]
          dsimp only
          split
          · exact ⟨_, stats, q, h, .givenUp _⟩
          split
          · exact ⟨_, stats, q, h, .givenUp _⟩
          split
          · exact ⟨_, stats, q, h, .brokenOff _⟩
          · next hmissing => exact ih (hround h (List.cons_ne_nil _ _) rfl hmissing)

/-- What holds after the first round and is kept by every other holds at the stage at which a run
ends, unless the run is broken off before that. -/
theorem solveUntil_ends (hfirst : HoldsAtFirst names p I) (hround : KeptByRounds names I)
    (limit : Option Nat) (calledOff : Nat → Bool) :
    (∃ failure, p.solveUntil names limit calledOff =
      ((p.staticCalls.foldl (bindKnown names) (startOf p)).program, .error failure)) ∨
    ∃ changes stats q, I changes stats q ∧
      EndsAt names limit changes stats q (p.solveUntil names limit calledOff) := by
  rw [Program.solveUntil]
  dsimp only
  split
  · exact Or.inl ⟨_, rfl⟩
  · next hmissing => exact Or.inr (roundsUntil_ends hround (hfirst rfl hmissing))

/-- A run that comes to its end is at a stage after which nothing changed. -/
theorem atRest_of_solveUntil (hfirst : HoldsAtFirst names p I) (hround : KeptByRounds names I)
    (hok : (p.solveUntil names limit calledOff).2 = .ok result) :
    ∃ stats, I [] stats (p.solveUntil names limit calledOff).1 ∧
      result.rounds = stats.rounds ∧ result.totals = stats.totals ∧
      result.slots = (p.solveUntil names limit calledOff).1.slots.length := by
  rcases solveUntil_ends hfirst hround limit calledOff with
    ⟨failure, heq⟩ | ⟨changes, stats, q, hI, hends⟩
  · rw [heq] at hok
    exact absurd hok (by simp)
  · generalize p.solveUntil names limit calledOff = outcome at hok hends
    cases hends with
    | atRest hnil =>
        subst hnil
        obtain rfl := Except.ok.inj hok
        exact ⟨stats, hI, rfl, rfl, rfl⟩
    | givenUp failure => exact absurd hok (by simp)
    | brokenOff failure => exact absurd hok (by simp)

/-- What is kept when arguments are passed and when updates are made is kept by a whole run, however
it ends. -/
theorem solveUntil_keeps {J : Binding → Prop}
    (hknowns : J (p.staticCalls.foldl (bindKnown names) (startOf p)))
    (hdiscovers : ∀ {b} (slots : List SlotId), J b → J (slots.foldl (discover names) b))
    (happly : ∀ {b dirty updates}, J b → Round b dirty updates →
      J { program := b.program.apply updates })
    (hforget : ∀ {b}, J b → J { program := b.program }) :
    J { program := (p.solveUntil names limit calledOff).1 } := by
  have hfirst : HoldsAtFirst names p fun _ _ q => J { program := q } := by
    intro b hb _
    exact happly (hb ▸ hknowns) (round_of_copies b)
  have hround : KeptByRounds names fun _ _ q => J { program := q } := by
    intro changes stats q b h _ hb _
    exact happly (hb ▸ hdiscovers changes h) (round_of_copiesFrom b changes)
  rcases solveUntil_ends hfirst hround limit calledOff with
    ⟨failure, heq⟩ | ⟨changes, stats, q, hJ, hends⟩
  · rw [heq]
    exact hforget hknowns
  · generalize p.solveUntil names limit calledOff = outcome at hends
    cases hends with
    | atRest _ => exact hJ
    | givenUp failure => exact hJ
    | brokenOff failure => exact hforget (hdiscovers changes hJ)

/-- A run without a limit ends, if at every stage there are no fewer slots with functions than
rounds and only functions are called that have a name. -/
theorem exists_ok_of_kept {most : Nat} (hround : KeptByRounds names I)
    (hlt : ∀ ⦃changes stats q⦄, I changes stats q → changes ≠ [] →
      stats.rounds + 1 ≤ q.slots.length * (names.length + 1))
    (hknown : ∀ ⦃changes stats q⦄, I changes stats q → KnownTargets names q)
    (hcap : ∀ ⦃changes stats q⦄, I changes stats q → q.capFor names.length none ≤ most)
    (h : I changes stats q) (hbound : bound + stats.rounds = most) :
    ∃ result, (q.rounds names none false bound changes stats).2 = .ok result := by
  induction bound generalizing q changes stats with
  | zero =>
      by_cases hne : changes = []
      · exact ⟨_, by rw [hne, rounds_nil]⟩
      · -- all rounds that the run may take have been made, and more would fit
        have hlt := hlt h hne
        have hcap := hcap h
        rw [← hbound, Program.capFor, Option.getD_none] at hcap
        omega
  | succ bound ih =>
      by_cases hne : changes = []
      · exact ⟨_, by rw [hne, rounds_nil]⟩
      · have hcap : stats.rounds + 1 ≤ q.capFor names.length none := Nat.le_succ_of_le (hlt h hne)
        have hmissing := missing_discovers (b := { program := q }) (hknown h) rfl changes
        rw [rounds_succ bound hne hcap rfl hmissing]
        exact ih (hround h hne rfl hmissing) ((Nat.add_right_comm _ _ _).symm.trans hbound)

/-! ## Nothing is taken away -/

theorem grows_knowns_true (p : Program) (names : List FunctionKey) :
    Grows (fun _ _ => True) (startOf p) (p.staticCalls.foldl (bindKnown names) (startOf p)) :=
  grows_bindKnowns fun _ _ _ _ _ _ => trivial

theorem grows_discovers_true (b : Binding) (names : List FunctionKey) (slots : List SlotId) :
    Grows (fun _ _ => True) b (slots.foldl (discover names) b) :=
  grows_discovers (licensedCalls_true names b.program) slots

/-- A run takes nothing away from any slot. -/
theorem holds_solveUntil {id : SlotId} {x : Item NodeId} (h : p.Holds id x) :
    (p.solveUntil names limit calledOff).1.Holds id x := by
  have hstart : (startOf p).program.Holds id x := by
    cases x <;> exact h
  refine solveUntil_keeps (J := fun b => b.program.Holds id x) ?_ ?_ ?_ fun hb => hb
  · exact (grows_knowns_true p names).holds.mpr hstart
  · exact fun {b} slots hb => (grows_discovers_true b names slots).holds.mpr hb
  · exact fun hb _ => Program.holds_apply.mpr (Or.inl hb)

/-! ## Nothing else comes in -/

/-- A run has used up assignments and calls of known functions, and has brought nothing but what a
family allows. -/
structure Spent (F : Family NodeId) (p : Program) (b : Binding) : Prop where
  follows : Follows p b.program
  sound : Sound F b
  seeds : b.program.seeds = []
  staticCalls : b.program.staticCalls = []

namespace Spent

theorem apply (h : Spent F p b) (hr : Round b dirty updates) :
    Spent F p { program := b.program.apply updates } where
  follows := h.follows.apply updates
  sound := h.sound.apply hr
  seeds := h.seeds
  staticCalls := h.staticCalls

/-- The updates that wait are dropped when a run is given up. -/
theorem forget (h : Spent F p b) : Spent F p { program := b.program } :=
  ⟨h.follows, ⟨h.sound.items, h.sound.copies, by simp⟩, h.seeds, h.staticCalls⟩

theorem valid (hv : p.Valid) (h : Spent F p { program := q }) : q.Valid := by
  have hle := h.follows.keys.length_le
  have hseeds : q.seeds = [] := h.seeds
  have hknowns : q.staticCalls = [] := h.staticCalls
  refine ⟨h.follows.nodup, fun _ _ hst => h.sound.lt_of_mem_copies hst, by simp [hseeds],
    by simp [hknowns], ?_, ?_⟩
  · intro call hcall
    rw [h.follows.calls] at hcall
    exact (hv.calls call hcall).imp (·.trans_le hle) (·.mono hle)
  · intro d hd
    rw [h.follows.defaults] at hd
    exact (hv.defaults d hd).mono hle

section Solution

variable (hF : Solves {c | c ∈ p.constraints} (nameOf names) F)
include hF

theorem grows (h : Spent F p b) (hb : Grows (License p names F) b b') : Spent F p b' :=
  ⟨h.follows.grows hb, h.sound.grows hF h.follows hb, hb.seeds.trans h.seeds,
    hb.staticCalls.trans h.staticCalls⟩

theorem knowns (hv : p.Valid)
    (hitems : ∀ id key x, p.keys[id]? = some key → p.Holds id x → x ∈ F key) :
    Spent F p (p.staticCalls.foldl (bindKnown names) (startOf p)) :=
  grows hF ⟨follows_startOf hv, sound_startOf hv hitems hF, rfl, rfl⟩ (grows_knowns hv)

theorem discovers (hv : p.Valid) (h : Spent F p b) (slots : List SlotId) :
    Spent F p (slots.foldl (discover names) b) :=
  h.grows hF (grows_discovers (licensedCalls hv h.follows h.sound.items) slots)

/-- A run stays below a family that solves the constraints and takes in what slots held before. -/
theorem solveUntil (hv : p.Valid)
    (hitems : ∀ id key x, p.keys[id]? = some key → p.Holds id x → x ∈ F key) :
    Spent F p { program := (p.solveUntil names limit calledOff).1 } :=
  solveUntil_keeps (knowns hF hv hitems) (fun slots h => discovers hF hv h slots) apply forget

end Solution

/-- Whatever slots hold, there is a family that takes it in. -/
theorem solveUntil_univ (hv : p.Valid) : Spent (fun _ => Set.univ) p
    { program := (p.solveUntil names limit calledOff).1 } :=
  solveUntil (solves_univ : Solves _ (nameOf names) _) hv fun _ _ _ _ _ => Set.mem_univ _

end Spent

/-! ## Totals -/

theorem sumOf_eq_sum {α : Type} (f : α → Nat) (l : List α) : sumOf f l = (l.map f).sum := by
  induction l with
  | nil => rfl
  | cons x l ih => rw [sumOf, ih, List.map_cons, List.sum_cons]

/-- The total is a sum over the names of slots. -/
theorem Program.total_eq {q : Program} (hnodup : q.keys.Nodup) :
    q.total = (q.keys.map fun key => (q.aliasSet key).size).sum := by
  rw [total, sumOf_eq_sum, keys, List.map_map]
  refine congrArg List.sum (List.map_congr_left fun s hs => ?_)
  obtain ⟨id, hid⟩ := List.mem_iff_getElem?.mp hs
  have hkey : q.keys[id]? = some s.key := by rw [keys, List.getElem?_map, hid, Option.map_some]
  rw [Function.comp_apply, aliasSet, slotId?_of_getElem? hnodup hkey]
  simp only [heldBy, hid, Option.map_some, Option.getD_some]

theorem size_le_of_subset {α : Type} [Ord α] [Std.TransOrd α] {s t : SortedSet α}
    (h : ∀ a ∈ s, a ∈ t) : s.size ≤ t.size := by
  have hnodup : s.toList.Nodup := by
    refine s.increasing.imp ?_
    rintro a _ hlt rfl
    simp [Std.ReflCmp.compare_self] at hlt
  exact (hnodup.subperm h).length_le

/-- Slots that hold as much have as large a total. -/
theorem Program.contents_le (hkeys : p.keys <+: q.keys)
    (hholds : ∀ id x, p.Holds id x → q.Holds id x) : p.contents ≤ q.contents := by
  rintro key x ⟨id, hid, hx⟩
  exact ⟨id, slotId?_of_isPrefix hkeys hid, hholds id x hx⟩

theorem Program.total_le (hkeys : p.keys <+: q.keys) (hnodup : q.keys.Nodup)
    (hholds : ∀ id x, p.Holds id x → q.Holds id x) : p.total ≤ q.total := by
  have hsub := Program.contents_le hkeys hholds
  have hsize : ∀ key, (p.aliasSet key).size ≤ (q.aliasSet key).size := by
    intro key
    refine size_le_of_subset fun f hf => ?_
    exact function_mem_contents.mp (hsub key (function_mem_contents.mpr hf))
  obtain ⟨more, hmore⟩ := hkeys
  have hnodup' : p.keys.Nodup := (List.nodup_append.mp (hmore ▸ hnodup)).1
  rw [total_eq hnodup, total_eq hnodup', ← hmore, List.map_append, List.sum_append]
  exact Nat.le_add_right_of_le (List.sum_le_sum fun key _ => hsize key)

/-- Passing arguments and making updates does not lower the total. -/
theorem total_le_apply {L : Value → Slot → Prop} (hb : Grows L { program := q } b)
    (hnodup : b.program.keys.Nodup) : q.total ≤ (b.program.apply updates).total := by
  have hkeys := b.program.keys_apply updates
  refine Program.total_le (hkeys ▸ hb.keys) (hkeys ▸ hnodup) fun id x hx => ?_
  exact Program.holds_apply.mpr (Or.inl (hb.holds.mpr hx))

theorem FixpointStats.isMonotone_of_pairwise (h : stats.totals.Pairwise (· ≤ ·)) :
    stats.isMonotone = true := by
  rw [isMonotone]
  generalize stats.totals = totals at h
  induction totals with
  | nil => rfl
  | cons first rest ih =>
      obtain ⟨hfirst, hrest⟩ := List.pairwise_cons.mp h
      cases rest with
      | nil => rfl
      | cons second rest => simpa [hfirst second List.mem_cons_self] using ih hrest

/-! ## Runs that come to their end -/

section Ended

variable (hv : p.Valid) (hok : (p.solveUntil names limit calledOff).2 = .ok result)
include hv hok

/-- A run that comes to its end is at a stage with whatever the first updates establish and every
round keeps, over slots that there are. -/
theorem exists_atRest
    (hfirst : ∀ b, Spent (fun _ => Set.univ) p b → I (Program.changed b.program b.begun)
      { functions := names.length, totals := [b.begun.total] } b.begun)
    (hround : ∀ changes stats q b, I changes stats q → Grows (fun _ _ => True) { program := q } b →
      Spent (fun _ => Set.univ) p b → I (Program.changed b.program (b.ended changes))
        (stats.next (b.ended changes)) (b.ended changes)) :
    ∃ stats, I [] stats (p.solveUntil names limit calledOff).1 ∧
      result.totals = stats.totals := by
  have hF : Solves {c | c ∈ p.constraints} (nameOf names) fun _ => Set.univ := solves_univ
  have hfirst' : HoldsAtFirst names p fun changes stats q =>
      Spent (fun _ => Set.univ) p { program := q } ∧ I changes stats q := by
    rintro b hb -
    have hknowns : Spent (fun _ => Set.univ) p b :=
      hb ▸ Spent.knowns hF hv fun _ _ _ _ _ => Set.mem_univ _
    exact ⟨hknowns.apply (round_of_copies b), hfirst b hknowns⟩
  have hround' : KeptByRounds names fun changes stats q =>
      Spent (fun _ => Set.univ) p { program := q } ∧ I changes stats q := by
    rintro changes stats q b ⟨hspent, hI⟩ - hb -
    have hfound : Spent (fun _ => Set.univ) p b := hb ▸ hspent.discovers hF hv changes
    have hgrows : Grows (fun _ _ => True) { program := q } b := hb ▸ grows_discovers_true _ _ _
    exact ⟨hfound.apply (round_of_copiesFrom b changes), hround changes stats q b hI hgrows hfound⟩
  obtain ⟨stats, ⟨-, hI⟩, -, heq, -⟩ := atRest_of_solveUntil hfirst' hround' hok
  exact ⟨stats, hI, heq⟩

/-- The totals of a run that comes to its end never went down. -/
theorem totals_solveUntil : result.totals.Pairwise (· ≤ ·) := by
  have hends := exists_atRest (I := fun _ stats q =>
      stats.totals.Pairwise (· ≤ ·) ∧ ∀ total ∈ stats.totals, total ≤ q.total) hv hok
  obtain ⟨stats, ⟨hpairwise, -⟩, heq⟩ := by
    refine hends (fun b _ => ⟨List.pairwise_singleton _ _, by simp⟩) ?_
    rintro changes stats q b ⟨hpairwise, hle⟩ hgrows hfound
    have hmore : q.total ≤ (b.ended changes).total := total_le_apply hgrows hfound.follows.nodup
    have hle' : ∀ total ∈ stats.totals, total ≤ (b.ended changes).total :=
      fun total htotal => (hle total htotal).trans hmore
    refine ⟨List.pairwise_append.mpr ⟨hpairwise, List.pairwise_singleton _ _, ?_⟩,
      Program.forall_mem_concat hle' le_rfl⟩
    intro total htotal new hnew
    rw [List.mem_singleton.mp hnew]
    exact hle' total htotal
  rwa [heq]

/-- A run that comes to its end has carried out all copies that there are. -/
theorem closed_of_solveUntil {s t : SlotId}
    (hst : (s, t) ∈ (p.solveUntil names limit calledOff).1.copies) {x : Item NodeId}
    (hx : (p.solveUntil names limit calledOff).1.Holds s x) :
    (p.solveUntil names limit calledOff).1.Holds t x := by
  have hends := exists_atRest (I := fun changes _ q =>
      CopiesCarried changes { program := q }) hv hok
  obtain ⟨_, hcarried, -⟩ := by
    refine hends (fun b hknowns => ?_) fun changes stats q b hcarried hgrows hfound => ?_
    · -- the first round carries out every copy, whatever earlier runs left behind
      have hall : CopiesCarried (b.program.copies.map (·.1)) b :=
        fun s t hst => Or.inl (List.mem_map.mpr ⟨(s, t), hst, rfl⟩)
      exact hall.apply (fun _ _ hst => (hknowns.sound.lt_of_mem_copies hst).2) (round_of_copies b)
    · exact (hcarried.grows hgrows).apply
        (fun _ _ hst => (hfound.sound.lt_of_mem_copies hst).2) (round_of_copiesFrom b changes)
  rcases hcarried s t hst with hdirty | hclosed | hwaits
  · exact absurd hdirty List.not_mem_nil
  · exact hclosed x hx
  · exact absurd hwaits List.not_mem_nil

end Ended

/-- The first run of a program makes as many rounds as it takes until nothing is new. -/
theorem reached_of_solve (hv : p.Valid) (hfresh : p.Fresh)
    (hok : (p.solve names limit cancelled).2 = .ok result) :
    Reached p names result.rounds [] (p.solve names limit cancelled).1 ∧
    (∀ n < result.rounds, after {c | c ∈ p.constraints} (nameOf names) (n + 1) ≠
      after {c | c ∈ p.constraints} (nameOf names) n) ∧
    result.slots = (p.solve names limit cancelled).1.slots.length := by
  have hfirst : HoldsAtFirst names p fun changes stats q => Reached p names stats.rounds changes q ∧
      ∀ n < stats.rounds, after {c | c ∈ p.constraints} (nameOf names) (n + 1) ≠
        after {c | c ∈ p.constraints} (nameOf names) n :=
    fun b hb hmissing => ⟨reached_start hv hfresh hb hmissing, by simp⟩
  have hround : KeptByRounds names fun changes stats q => Reached p names stats.rounds changes q ∧
      ∀ n < stats.rounds, after {c | c ∈ p.constraints} (nameOf names) (n + 1) ≠
        after {c | c ∈ p.constraints} (nameOf names) n := by
    rintro changes stats q b ⟨hreached, hearlier⟩ hne hb hmissing
    refine ⟨hreached.round hv hb hmissing, fun n hn => ?_⟩
    rcases Nat.lt_succ_iff_lt_or_eq.mp hn with hlt | rfl
    · exact hearlier n hlt
    · exact fun heq => hne (hreached.changes_eq_nil_iff.mpr heq)
  rw [← solveUntil_const] at hok ⊢
  obtain ⟨stats, ⟨hreached, hearlier⟩, hrounds, -, hslots⟩ :=
    atRest_of_solveUntil hfirst hround hok
  rw [hrounds]
  exact ⟨hreached, hearlier, hslots⟩

/-! ## Runs that find nothing to do -/

theorem Program.apply_eq_self
    (h : ∀ id x, (q.apply updates).Holds id x → q.Holds id x) : q.apply updates = q := by
  have hslots : q.slots.mapIdx (q.updateSlot updates) = q.slots := by
    refine List.ext_getElem? fun id => ?_
    cases hs : q.slots[id]? with
    | none => simp [hs]
    | some s => simp [hs, updateSlot_eq hs (h id)]
  rw [apply, hslots]

theorem Program.changed_self (q : Program) : changed q q = [] := by
  simp [changed]

/-- If no assignment and no call of a known function waits and all copies have been carried out,
then a run ends after its first round and changes nothing. -/
theorem solveUntil_of_closed (hseeds : q.seeds = []) (hcalls : q.staticCalls = [])
    (hclosed : ∀ s t, (s, t) ∈ q.copies → ∀ x, q.Holds s x → q.Holds t x) :
    q.solveUntil names limit calledOff = (q, .ok { slots := q.slots.length
                                                   functions := names.length
                                                   totals := [q.total]
                                                   cap := q.capFor names.length limit }) := by
  have hstart : startOf q = { program := q } := by
    cases q
    simp_all [startOf]
  have hsame : q.apply (q.copies.map fun c => Update.copy c.1 c.2) = q := by
    refine Program.apply_eq_self fun id x hx => ?_
    rcases Program.holds_apply.mp hx with hold | ⟨-, u, hu, hbrings⟩
    · exact hold
    · obtain ⟨⟨s, t⟩, hst, rfl⟩ := List.mem_map.mp hu
      obtain ⟨rfl, hheld⟩ := hbrings
      exact hclosed s t hst x hheld
  simp only [Program.solveUntil, hcalls, List.foldl_nil, hstart, List.nil_append, hsame,
    Program.changed_self, Program.roundsUntil]

end Runs

end Flow

end CallGraphs
