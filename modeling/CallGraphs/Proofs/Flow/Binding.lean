import CallGraphs.Flow.Solve
import CallGraphs.Proofs.Flow.Program

/-!
# Passing arguments

What it does to a program when the arguments of calls are passed.  No slot
holds more or less after it: slots and copies are added, and updates pile up
for the end of the round.  `Grows` says so, and that every update that is new
was licensed, which is where the soundness of a run comes from.  `Passed` says
that arguments have arrived, at least as updates, which is where its
completeness comes from.
-/

namespace CallGraphs

namespace Flow

/-- The update by which a value gets into a slot. -/
def Value.into (target : SlotId) : Value → Update
  | slot source => .copy source target
  | function f => .add target f
  | blocked => .block target

namespace Binding

/-- One stage of passing arguments and a later one, in between which every update that was added
brings a value to a slot for which there is a license. -/
structure Grows (L : Value → Slot → Prop) (b b' : Binding) : Prop where
  keys : b.program.keys <+: b'.program.keys
  nodup : b.program.keys.Nodup → b'.program.keys.Nodup
  holds : ∀ {id x}, b'.program.Holds id x ↔ b.program.Holds id x
  calls : b'.program.calls = b.program.calls
  defaults : b'.program.defaults = b.program.defaults
  expansions : b'.program.expansions = b.program.expansions
  seeds : b'.program.seeds = b.program.seeds
  staticCalls : b'.program.staticCalls = b.program.staticCalls
  bound : b.program.bound ⊆ b'.program.bound
  copies : b.program.copies ⊆ b'.program.copies
  updates : b.updates ⊆ b'.updates
  newCopies : ∀ {s t}, (s, t) ∈ b'.program.copies →
    (s, t) ∈ b.program.copies ∨ .copy s t ∈ b'.updates
  newUpdates : ∀ {u}, u ∈ b'.updates → u ∈ b.updates ∨
    ∃ v t key, u = v.into t ∧ b'.program.keys[t]? = some key ∧ L v key
  newKeys : ∀ {key}, key ∈ b'.program.keys → key ∈ b.program.keys ∨ ∃ v, L v key
  missing : b'.missing = none → b.missing = none

variable {L : Value → Slot → Prop} {b b' b'' : Binding}

namespace Grows

theorem refl (b : Binding) : Grows L b b :=
  ⟨List.prefix_refl _, id, Iff.rfl, rfl, rfl, rfl, rfl, rfl, List.Subset.refl _, List.Subset.refl _,
    List.Subset.refl _, Or.inl, Or.inl, Or.inl, id⟩

theorem trans (h : Grows L b b') (h' : Grows L b' b'') : Grows L b b'' where
  keys := h.keys.trans h'.keys
  nodup hn := h'.nodup (h.nodup hn)
  holds := h'.holds.trans h.holds
  calls := h'.calls.trans h.calls
  defaults := h'.defaults.trans h.defaults
  expansions := h'.expansions.trans h.expansions
  seeds := h'.seeds.trans h.seeds
  staticCalls := h'.staticCalls.trans h.staticCalls
  bound := List.Subset.trans h.bound h'.bound
  copies := List.Subset.trans h.copies h'.copies
  updates := List.Subset.trans h.updates h'.updates
  newCopies hc := by
    rcases h'.newCopies hc with hold | hnew
    · exact (h.newCopies hold).imp_right fun hu => h'.updates hu
    · exact Or.inr hnew
  newUpdates hu := by
    rcases h'.newUpdates hu with hold | hnew
    · rcases h.newUpdates hold with hfirst | ⟨v, t, key, rfl, hkey, hL⟩
      · exact Or.inl hfirst
      · exact Or.inr ⟨v, t, key, rfl, Program.getElem?_of_isPrefix h'.keys hkey, hL⟩
    · exact Or.inr hnew
  newKeys hk := by
    rcases h'.newKeys hk with hold | hnew
    · exact h.newKeys hold
    · exact Or.inr hnew
  missing hm := h.missing (h'.missing hm)

/-- A run of stages. -/
theorem foldl {α : Type} {step : Binding → α → Binding} {P : α → Prop} {l : List α}
    (hl : ∀ x ∈ l, P x) (hstep : ∀ b' x, Grows L b b' → P x → Grows L b' (step b' x)) :
    Grows L b (l.foldl step b) := by
  have run : ∀ (l : List α) (b' : Binding), Grows L b b' → (∀ x ∈ l, P x) →
      Grows L b (l.foldl step b') := by
    intro l
    induction l with
    | nil => exact fun b' hb _ => hb
    | cons x l ih =>
        intro b' hb hl
        exact ih _ (hb.trans (hstep b' x hb (hl x List.mem_cons_self)))
          fun y hy => hl y (List.mem_cons_of_mem _ hy)
  exact run l b (.refl b) hl

end Grows

/-! ## Values -/

/-- A value has got into a slot, or will at the end of the round. -/
def Served (b : Binding) (t : SlotId) : Value → Prop
  | .slot s => s = t ∨ (s, t) ∈ b.program.copies
  | .function f => .add t f ∈ b.updates ∨ b.program.Holds t (.function f)
  | .blocked => .block t ∈ b.updates ∨ b.program.Holds t .blocked

theorem Served.grows {t : SlotId} {v : Value} (h : b.Served t v) (hb : Grows L b b') :
    b'.Served t v := by
  cases v with
  | slot s => exact h.imp_right fun hc => hb.copies hc
  | function f => exact h.imp (fun hu => hb.updates hu) hb.holds.mpr
  | blocked => exact h.imp (fun hu => hb.updates hu) hb.holds.mpr

theorem bindValue_slot (b : Binding) (s t : SlotId) : b.bindValue (.slot s) t =
    if s = t ∨ (s, t) ∈ b.program.copies then b
    else { b with
      program := { b.program with copies := b.program.copies ++ [(s, t)] }
      updates := b.updates ++ [.copy s t] } := by
  by_cases h : s = t ∨ (s, t) ∈ b.program.copies <;> simp [bindValue, Program.addCopy, h]

theorem grows_bindValue {v : Value} {t : SlotId} {key : Slot}
    (hkey : b.program.keys[t]? = some key) (hL : L v key) : Grows L b (b.bindValue v t) := by
  have single : ∀ {u}, u ∈ b.updates ++ [v.into t] → u ∈ b.updates ∨
      ∃ v t key, u = Value.into t v ∧ b.program.keys[t]? = some key ∧ L v key := by
    intro u hu
    exact (List.mem_append.mp hu).imp_right fun hu =>
      ⟨v, t, key, List.mem_singleton.mp hu, hkey, hL⟩
  cases v with
  | slot s =>
      rw [bindValue_slot]
      split
      · exact .refl b
      · refine ⟨List.prefix_refl _, id, Iff.rfl, rfl, rfl, rfl, rfl, rfl, List.Subset.refl _,
          List.subset_append_left _ _, List.subset_append_left _ _, fun hc => ?_, single, Or.inl,
          id⟩
        refine (List.mem_append.mp hc).imp_right fun hc => List.mem_append_right _ ?_
        obtain ⟨rfl, rfl⟩ := Prod.mk.inj (List.mem_singleton.mp hc)
        exact List.mem_singleton.mpr rfl
  | function f =>
      exact ⟨List.prefix_refl _, id, Iff.rfl, rfl, rfl, rfl, rfl, rfl, List.Subset.refl _,
        List.Subset.refl _, List.subset_append_left _ _, Or.inl, single, Or.inl, id⟩
  | blocked =>
      exact ⟨List.prefix_refl _, id, Iff.rfl, rfl, rfl, rfl, rfl, rfl, List.Subset.refl _,
        List.Subset.refl _, List.subset_append_left _ _, Or.inl, single, Or.inl, id⟩

theorem served_bindValue (v : Value) (t : SlotId) : (b.bindValue v t).Served t v := by
  cases v with
  | slot s =>
      rw [bindValue_slot]
      split
      · assumption
      · exact Or.inr (List.mem_append_right _ (List.mem_singleton.mpr rfl))
  | function f => exact Or.inl (List.mem_append_right _ (List.mem_singleton.mpr rfl))
  | blocked => exact Or.inl (List.mem_append_right _ (List.mem_singleton.mpr rfl))

theorem bound_bindValue (v : Value) (t : SlotId) :
    (b.bindValue v t).program.bound = b.program.bound := by
  cases v with
  | slot s =>
      rw [bindValue_slot]
      split <;> rfl
  | function f => rfl
  | blocked => rfl

/-! ## Parameters -/

/-- A value has been passed to a parameter of a function. -/
def Given (b : Binding) (callee : FunctionKey) (arg : Nat × Value) : Prop :=
  ∃ t, b.program.slotId? (.param callee arg.1) = some t ∧ b.Served t arg.2

theorem Given.grows {callee : FunctionKey} {arg : Nat × Value} (h : b.Given callee arg)
    (hb : Grows L b b') : b'.Given callee arg := by
  obtain ⟨t, ht, hv⟩ := h
  exact ⟨t, Program.slotId?_of_isPrefix hb.keys ht, hv.grows hb⟩

theorem grows_bindParam {callee : FunctionKey} {arg : Nat × Value}
    (hL : L arg.2 (.param callee arg.1)) : Grows L b (bindParam callee b arg) := by
  have hintern : Grows L b { b with program := (b.program.intern (.param callee arg.1)).1 } := by
    refine ⟨Program.keys_intern _ _, Program.nodup_keys_intern _ _, Program.holds_intern _ _,
      ?_, ?_, ?_, ?_, ?_, ?_, ?_, List.Subset.refl _, ?_, Or.inl, fun hk => ?_, id⟩
    · rw [Program.intern_eq]
    · rw [Program.intern_eq]
    · rw [Program.intern_eq]
    · rw [Program.intern_eq]
    · rw [Program.intern_eq]
    · rw [Program.intern_eq]
      exact List.Subset.refl _
    · rw [Program.intern_eq]
      exact List.Subset.refl _
    · rw [Program.intern_eq]
      exact Or.inl
    · refine (Program.mem_keys_intern _ _ hk).imp_right ?_
      rintro rfl
      exact ⟨_, hL⟩
  exact hintern.trans
    (grows_bindValue (Program.getElem?_of_slotId? (Program.slotId?_intern _ _)) hL)

theorem given_bindParam (callee : FunctionKey) (arg : Nat × Value) :
    (bindParam callee b arg).Given callee arg := by
  have hid := b.program.slotId?_intern (.param callee arg.1)
  have hgrows : Grows (fun _ _ => True)
      { b with program := (b.program.intern (.param callee arg.1)).1 } (bindParam callee b arg) :=
    grows_bindValue (Program.getElem?_of_slotId? hid) trivial
  exact ⟨_, Program.slotId?_of_isPrefix hgrows.keys hid, served_bindValue _ _⟩

theorem bound_bindParam (callee : FunctionKey) (arg : Nat × Value) :
    (bindParam callee b arg).program.bound = b.program.bound := by
  have hintern := congrArg Program.bound (b.program.intern_eq (.param callee arg.1))
  exact (bound_bindValue _ _).trans hintern

/-! ## Calls -/

section Calls

variable {names : List FunctionKey} {args : List (Option Value)} {explicit : Nat} {callee : NodeId}

/-- What a call passes to a function: arguments and defaults, each with the position. -/
def passes (p : Program) (args : List (Option Value)) (explicit : Nat) (callee : NodeId) :
    List (Nat × Value) :=
  given args ++ p.defaultsFrom callee explicit

/-- Whatever a call passes has a license. -/
def Licensed (L : Value → Slot → Prop) (names : List FunctionKey) (p : Program)
    (args : List (Option Value)) (explicit : Nat) (callee : NodeId) : Prop :=
  ∀ key, names[callee]? = some key → ∀ arg ∈ passes p args explicit callee,
    L arg.2 (.param key arg.1)

/-- Whatever a call passes to a function has been passed. -/
def Passed (names : List FunctionKey) (b : Binding) (args : List (Option Value)) (explicit : Nat)
    (callee : NodeId) : Prop :=
  ∃ key, names[callee]? = some key ∧
    ∀ arg ∈ passes b.program args explicit callee, b.Given key arg

theorem passes_congr {p q : Program} (h : q.defaults = p.defaults) :
    passes q args explicit callee = passes p args explicit callee := by
  rw [passes, passes, Program.defaultsFrom, Program.defaultsFrom, h]

theorem Passed.grows (h : Passed names b args explicit callee) (hb : Grows L b b') :
    Passed names b' args explicit callee := by
  obtain ⟨key, hkey, hgiven⟩ := h
  refine ⟨key, hkey, fun arg harg => ?_⟩
  rw [passes_congr hb.defaults] at harg
  exact (hgiven arg harg).grows hb

theorem Licensed.congr {p q : Program} (h : Licensed L names p args explicit callee)
    (hdefaults : q.defaults = p.defaults) : Licensed L names q args explicit callee := by
  intro key hkey arg harg
  rw [passes_congr hdefaults] at harg
  exact h key hkey arg harg

theorem grows_bindParams {key : FunctionKey} {l : List (Nat × Value)}
    (hL : ∀ arg ∈ l, L arg.2 (.param key arg.1)) : Grows L b (l.foldl (bindParam key) b) :=
  .foldl hL fun _ _ _ hx => grows_bindParam hx

theorem given_bindParams {key : FunctionKey} {l : List (Nat × Value)} :
    ∀ arg ∈ l, (l.foldl (bindParam key) b).Given key arg := by
  induction l generalizing b with
  | nil => exact fun _ h => absurd h List.not_mem_nil
  | cons x l ih =>
      intro arg harg
      rcases List.mem_cons.mp harg with rfl | hmem
      · exact (given_bindParam key arg).grows
          (grows_bindParams (L := fun _ _ => True) fun _ _ => trivial)
      · exact ih arg hmem

theorem bound_bindParams {key : FunctionKey} {l : List (Nat × Value)} :
    (l.foldl (bindParam key) b).program.bound = b.program.bound := by
  induction l generalizing b with
  | nil => rfl
  | cons x l ih => exact ih.trans (bound_bindParam key x)

theorem grows_bindCall (hL : Licensed L names b.program args explicit callee) :
    Grows L b (b.bindCall names args explicit callee) := by
  rw [bindCall]
  split
  · exact .refl b
  · next hmissing _ =>
    have hrefl := Grows.refl (L := L) b
    exact { hrefl with missing := fun h => absurd h (by simp) }
  · next key _ hkey => exact grows_bindParams (hL key hkey)

theorem passed_bindCall (h : (b.bindCall names args explicit callee).missing = none) :
    Passed names (b.bindCall names args explicit callee) args explicit callee := by
  have hgrows : Grows (fun _ _ => True) b (b.bindCall names args explicit callee) :=
    grows_bindCall fun _ _ _ _ => trivial
  have hnone := hgrows.missing h
  cases hkey : names[callee]? with
  | none => simp [bindCall, hnone, hkey] at h
  | some key =>
      refine ⟨key, hkey, fun arg harg => ?_⟩
      rw [passes_congr hgrows.defaults] at harg
      simp only [bindCall, hnone, hkey]
      exact given_bindParams arg harg

theorem bound_bindCall :
    (b.bindCall names args explicit callee).program.bound = b.program.bound := by
  rw [bindCall]
  split
  · rfl
  · rfl
  · exact bound_bindParams

/-- Passes the arguments of a call of a known function. -/
def bindKnown (names : List FunctionKey) (b : Binding) (call : StaticCall) : Binding :=
  b.bindCall names call.args call.explicit call.callee

theorem grows_bindKnowns {l : List StaticCall}
    (hL : ∀ c ∈ l, Licensed L names b.program c.args c.explicit c.callee) :
    Grows L b (l.foldl (bindKnown names) b) :=
  .foldl hL fun _ _ hb hc => grows_bindCall (hc.congr hb.defaults)

theorem passed_bindKnowns {l : List StaticCall}
    (h : (l.foldl (bindKnown names) b).missing = none) :
    ∀ c ∈ l, Passed names (l.foldl (bindKnown names) b) c.args c.explicit c.callee := by
  induction l generalizing b with
  | nil => exact fun _ hc => absurd hc List.not_mem_nil
  | cons x l ih =>
      have htail : Grows (fun _ _ => True) (bindKnown names b x)
          (l.foldl (bindKnown names) (bindKnown names b x)) :=
        grows_bindKnowns fun _ _ _ _ _ _ => trivial
      intro c hc
      rcases List.mem_cons.mp hc with rfl | hmem
      · exact (passed_bindCall (htail.missing h)).grows htail
      · exact ih h c hmem

theorem bound_bindKnowns {l : List StaticCall} :
    (l.foldl (bindKnown names) b).program.bound = b.program.bound := by
  induction l generalizing b with
  | nil => rfl
  | cons x l ih => exact ih.trans bound_bindCall

/-- What stands in a list of arguments is passed by position. -/
theorem mem_given {i : Nat} {v : Value} : (i, v) ∈ given args ↔ args[i]? = some (some v) := by
  simp only [given, List.mem_filterMap, Prod.exists, Option.map_eq_some_iff, Prod.mk.injEq]
  constructor
  · rintro ⟨arg, index, hmem, w, rfl, rfl, rfl⟩
    exact List.mem_zipIdx_iff_getElem?.mp hmem
  · exact fun h => ⟨some v, i, List.mem_zipIdx_iff_getElem?.mpr h, v, rfl, rfl, rfl⟩

theorem mem_defaultsFrom {p : Program} {i : Nat} {v : Value} :
    (i, v) ∈ p.defaultsFrom callee explicit ↔ ⟨callee, i, v⟩ ∈ p.defaults ∧ explicit ≤ i := by
  simp only [Program.defaultsFrom, List.mem_mergeSort, List.mem_map, List.mem_filter,
    Bool.and_eq_true, decide_eq_true_eq, Prod.mk.injEq]
  constructor
  · rintro ⟨⟨f, index, w⟩, ⟨hmem, rfl, hle⟩, rfl, rfl⟩
    exact ⟨hmem, hle⟩
  · exact fun ⟨hmem, hle⟩ => ⟨_, ⟨hmem, rfl, hle⟩, rfl, rfl⟩

end Calls

/-! ## Targets -/

section Targets

variable {names : List FunctionKey} {place : Nat} {call : IndirectCall} {target : NodeId}

theorem mem_targetsOf {p : Program} {f : NodeId} : f ∈ targetsOf p call ↔
    p.Holds call.through (.function f) ∨
      call.expand = true ∧ ∃ g, p.Holds call.through (.function g) ∧ f ∈ p.expansionOf g := by
  simp only [targetsOf, Program.Holds, SortedSet.mem_def]
  cases call.expand <;> simp

theorem Grows.mem_targetsOf (hb : Grows L b b') {f : NodeId} :
    f ∈ targetsOf b'.program call ↔ f ∈ targetsOf b.program call := by
  simp only [Binding.mem_targetsOf, hb.holds, Program.expansionOf, hb.expansions]

/-- Every target that is noted as done has had its arguments passed. -/
def BoundPassed (names : List FunctionKey) (b : Binding) : Prop :=
  ∀ place f, (place, f) ∈ b.program.bound → ∃ call, b.program.calls[place]? = some call ∧
    Passed names b call.args call.explicit f

theorem BoundPassed.grows (h : BoundPassed names b) (hb : Grows L b b')
    (hbound : b'.program.bound = b.program.bound) : BoundPassed names b' := by
  intro place f hmem
  rw [hbound] at hmem
  obtain ⟨call, hcall, hpassed⟩ := h place f hmem
  exact ⟨call, by rwa [hb.calls], hpassed.grows hb⟩

theorem grows_noteBound (b : Binding) (pair : Nat × NodeId) : Grows L b
    { b with program := { b.program with bound := b.program.bound ++ [pair] } } :=
  ⟨List.prefix_refl _, id, Iff.rfl, rfl, rfl, rfl, rfl, rfl, List.subset_append_left _ _,
    List.Subset.refl _, List.Subset.refl _, Or.inl, Or.inl, Or.inl, id⟩

theorem grows_bindTarget
    (hL : Licensed L names b.program call.args call.explicit target) :
    Grows L b (bindTarget names place call b target) := by
  rw [bindTarget]
  split
  · exact .refl b
  · exact (grows_noteBound b (place, target)).trans (grows_bindCall (hL.congr rfl))

theorem boundPassed_bindTarget (h : BoundPassed names b)
    (hcall : b.program.calls[place]? = some call)
    (hmissing : (bindTarget names place call b target).missing = none) :
    BoundPassed names (bindTarget names place call b target) := by
  have hgrows : Grows (fun _ _ => True) b (bindTarget names place call b target) :=
    grows_bindTarget fun _ _ _ _ => trivial
  rw [bindTarget] at hmissing hgrows ⊢
  split at hmissing
  · next hor =>
    rw [if_pos hor]
    exact h
  · next hor =>
    rw [if_neg hor] at hgrows ⊢
    intro place' f hmem
    -- passing arguments notes nothing, so the only new pair is the one noted before it
    rw [bound_bindCall] at hmem
    rcases List.mem_append.mp hmem with hold | hnew
    · obtain ⟨call', hcall', hpassed⟩ := h place' f hold
      exact ⟨call', by rwa [hgrows.calls], hpassed.grows hgrows⟩
    · obtain ⟨rfl, rfl⟩ := Prod.mk.inj (List.mem_singleton.mp hnew)
      exact ⟨call, by rwa [hgrows.calls], passed_bindCall hmissing⟩

theorem mem_bound_bindTarget (hmissing : (bindTarget names place call b target).missing = none) :
    (place, target) ∈ (bindTarget names place call b target).program.bound := by
  rw [bindTarget] at hmissing ⊢
  split at hmissing
  · next hor =>
    rw [if_pos hor]
    exact hor.resolve_left (by simp [hmissing])
  · next hor =>
    rw [if_neg hor, bound_bindCall]
    exact List.mem_append_right _ (List.mem_singleton.mpr rfl)

theorem grows_bindTargets {l : List NodeId}
    (hL : ∀ f ∈ l, Licensed L names b.program call.args call.explicit f) :
    Grows L b (l.foldl (bindTarget names place call) b) :=
  .foldl hL fun _ _ hb hf => grows_bindTarget (hf.congr hb.defaults)

theorem bound_bindTargets {l : List NodeId} (h : BoundPassed names b)
    (hcall : b.program.calls[place]? = some call)
    (hmissing : (l.foldl (bindTarget names place call) b).missing = none) :
    BoundPassed names (l.foldl (bindTarget names place call) b) ∧
      ∀ f ∈ l, (place, f) ∈ (l.foldl (bindTarget names place call) b).program.bound := by
  induction l generalizing b with
  | nil => exact ⟨h, fun _ hf => absurd hf List.not_mem_nil⟩
  | cons x l ih =>
      have hhead : Grows (fun _ _ => True) b (bindTarget names place call b x) :=
        grows_bindTarget fun _ _ _ _ => trivial
      have htail : Grows (fun _ _ => True) (bindTarget names place call b x)
          (l.foldl (bindTarget names place call) (bindTarget names place call b x)) :=
        grows_bindTargets fun _ _ _ _ _ _ => trivial
      have hnone := htail.missing hmissing
      obtain ⟨hpassed, hall⟩ := ih (boundPassed_bindTarget h hcall hnone)
        (by rwa [hhead.calls]) hmissing
      refine ⟨hpassed, fun f hf => ?_⟩
      rcases List.mem_cons.mp hf with rfl | hmem
      · exact htail.bound (mem_bound_bindTarget hnone)
      · exact hall f hmem

/-- Passes the arguments of one call to all its targets. -/
def bindThrough (names : List FunctionKey) (b : Binding) (call : IndirectCall × Nat) : Binding :=
  (targetsOf b.program call.1).foldl (bindTarget names call.2 call.1) b

theorem discover_eq (names : List FunctionKey) (b : Binding) (slot : SlotId) :
    discover names b slot =
      (b.program.calls.zipIdx.filter (·.1.through = slot)).foldl (bindThrough names) b := rfl

/-- Whatever the calls of a program pass to their targets has a license. -/
def LicensedCalls (L : Value → Slot → Prop) (names : List FunctionKey) (p : Program) : Prop :=
  ∀ call ∈ p.calls, ∀ f ∈ targetsOf p call, Licensed L names p call.args call.explicit f

theorem grows_bindThrough {c : IndirectCall × Nat}
    (hL : ∀ f ∈ targetsOf b.program c.1, Licensed L names b.program c.1.args c.1.explicit f) :
    Grows L b (bindThrough names b c) :=
  grows_bindTargets hL

theorem grows_bindThroughs {l : List (IndirectCall × Nat)} (hl : ∀ c ∈ l, c.1 ∈ b.program.calls)
    (hL : LicensedCalls L names b.program) : Grows L b (l.foldl (bindThrough names) b) := by
  refine .foldl hl fun b' c hb hc => grows_bindThrough fun f hf => ?_
  exact (hL c.1 hc f (hb.mem_targetsOf.mp hf)).congr hb.defaults

theorem mem_calls_of_mem_zipIdx {p : Program} {c : IndirectCall × Nat} (h : c ∈ p.calls.zipIdx) :
    p.calls[c.2]? = some c.1 :=
  List.mem_zipIdx_iff_getElem?.mp h

theorem grows_discover (hL : LicensedCalls L names b.program) (slot : SlotId) :
    Grows L b (discover names b slot) := by
  rw [discover_eq]
  exact grows_bindThroughs (fun c hc => List.mem_of_getElem?
    (mem_calls_of_mem_zipIdx (List.mem_of_mem_filter hc))) hL

theorem licensedCalls_true (names : List FunctionKey) (p : Program) :
    LicensedCalls (fun _ _ => True) names p :=
  fun _ _ _ _ _ _ _ _ => trivial

theorem bound_bindThroughs {l : List (IndirectCall × Nat)} (h : BoundPassed names b)
    (hl : ∀ c ∈ l, b.program.calls[c.2]? = some c.1)
    (hmissing : (l.foldl (bindThrough names) b).missing = none) :
    BoundPassed names (l.foldl (bindThrough names) b) ∧
      ∀ c ∈ l, ∀ f ∈ targetsOf b.program c.1,
        (c.2, f) ∈ (l.foldl (bindThrough names) b).program.bound := by
  induction l generalizing b with
  | nil => exact ⟨h, fun _ hc => absurd hc List.not_mem_nil⟩
  | cons x l ih =>
      have hhead : Grows (fun _ _ => True) b (bindThrough names b x) :=
        grows_bindThrough fun _ _ _ _ _ _ => trivial
      have hcalls : ∀ c ∈ l, (bindThrough names b x).program.calls[c.2]? = some c.1 := by
        intro c hc
        rw [hhead.calls]
        exact hl c (List.mem_cons_of_mem _ hc)
      have htail : Grows (fun _ _ => True) (bindThrough names b x)
          (l.foldl (bindThrough names) (bindThrough names b x)) :=
        grows_bindThroughs (fun c hc => List.mem_of_getElem? (hcalls c hc))
          (licensedCalls_true _ _)
      obtain ⟨hpassed, hbound⟩ := bound_bindTargets (l := targetsOf b.program x.1) h
        (hl x List.mem_cons_self) (htail.missing hmissing)
      obtain ⟨hpassed', hall⟩ := ih hpassed hcalls hmissing
      refine ⟨hpassed', fun c hc f hf => ?_⟩
      rcases List.mem_cons.mp hc with rfl | hmem
      · exact htail.bound (hbound f hf)
      · exact hall c hmem f (hhead.mem_targetsOf.mpr hf)

/-- After the calls through a slot have been looked at, all their targets are noted as done. -/
theorem bound_discover (h : BoundPassed names b) {slot : SlotId}
    (hmissing : (discover names b slot).missing = none) :
    BoundPassed names (discover names b slot) ∧
      ∀ place call, b.program.calls[place]? = some call → call.through = slot →
        ∀ f ∈ targetsOf b.program call, (place, f) ∈ (discover names b slot).program.bound := by
  rw [discover_eq] at hmissing ⊢
  obtain ⟨hpassed, hall⟩ := bound_bindThroughs h
    (fun c hc => mem_calls_of_mem_zipIdx (List.mem_of_mem_filter hc)) hmissing
  refine ⟨hpassed, fun place call hcall hthrough f hf => ?_⟩
  refine hall (call, place) (List.mem_filter.mpr ⟨?_, decide_eq_true hthrough⟩) f hf
  exact List.mem_zipIdx_iff_getElem?.mpr hcall

end Targets

end Binding

end Flow

end CallGraphs
