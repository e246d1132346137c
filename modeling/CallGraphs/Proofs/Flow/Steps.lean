import CallGraphs.Proofs.Flow.Constraints
import Mathlib

/-!
# Steps to the least solution

The least solution of constraints is reached in steps, from slots that hold
nothing: in every step slots take in what flows at its beginning (`advance`).
What they hold after `n` steps is `after … n`.

* If a step brings nothing new, no later one does (`after_stable`), and up to
  then there are no fewer items than steps (`le_ncard_heldItems`).
* Constraints that let a slot flow into itself make no difference
  (`after_congr`), nor do the names of functions (`after_map_stable_iff`).
-/

namespace CallGraphs

namespace Flow

/-! ## Steps -/

section Steps

variable {φ : Type} {cs : Set (Constraint φ)} {name : φ → FunctionKey} {F G : Family φ}

theorem Origin.content_mono (hle : F ≤ G) (o : Origin φ) : o.content F ⊆ o.content G := by
  cases o with
  | slot key => exact hle key
  | item x => exact subset_rfl

/-- What all solutions have in common is a solution. -/
theorem exists_isLeast_solves (cs : Set (Constraint φ)) (name : φ → FunctionKey) :
    ∃ F, IsLeast {F | Solves cs name F} F := by
  refine ⟨fun key => {x | ∀ F, Solves cs name F → x ∈ F key}, ?_, fun F hF key x hx => hx F hF⟩
  intro o key hflow x hx F hF
  have hle : (fun key => {x | ∀ F, Solves cs name F → x ∈ F key}) ≤ F := fun key x hx => hx F hF
  exact hF o key (hflow.mono hle) (Origin.content_mono hle o hx)

theorem advance_mono (hle : F ≤ G) : advance cs name F ≤ advance cs name G := by
  intro key x hx
  rcases hx with hx | ⟨o, hflow, hx⟩
  · exact Or.inl (hle key hx)
  · exact Or.inr ⟨o, hflow.mono hle, Origin.content_mono hle o hx⟩

/-- What slots hold after so many steps, from nothing. -/
def after (cs : Set (Constraint φ)) (name : φ → FunctionKey) (n : Nat) : Family φ :=
  (advance cs name)^[n] fun _ => ∅

theorem after_succ (n : Nat) : after cs name (n + 1) = advance cs name (after cs name n) :=
  Function.iterate_succ_apply' _ _ _

theorem after_le_of_solves (h : Solves cs name F) (n : Nat) : after cs name n ≤ F := by
  induction n with
  | zero => exact fun _ => Set.empty_subset _
  | succ n ih =>
      rw [after_succ]
      exact (advance_mono ih).trans (solves_iff_advance_le.mp h)

/-- What stands still once stands still for ever. -/
theorem after_stable {k n : Nat} (h : after cs name (k + 1) = after cs name k) (hle : k ≤ n) :
    after cs name (n + 1) = after cs name n := by
  induction n, hle using Nat.le_induction with
  | base => exact h
  | succ n _ ih => rw [after_succ, ih, ← after_succ, ih]

section Congr

variable {cs' : Set (Constraint φ)}

theorem Called.anti (hsub : cs ⊆ cs') {f : φ} {args : List (Option (Origin φ))} {explicit : Nat}
    (h : Called cs F f args explicit) : Called cs' F f args explicit := by
  cases h with
  | known hc => exact .known (hsub hc)
  | held hc hf => exact .held (hsub hc) hf
  | overrider hc hg ho => exact .overrider (hsub hc) hg (hsub ho)

/-- Constraints that let a slot flow into itself ask for no call. -/
theorem called_congr (hsub : cs ⊆ cs')
    (hcs : ∀ c ∈ cs', c ∈ cs ∨ ∃ key, c = .flow (.slot key) key) {f : φ}
    {args : List (Option (Origin φ))} {explicit : Nat} :
    Called cs F f args explicit ↔ Called cs' F f args explicit := by
  refine ⟨Called.anti hsub, fun h => ?_⟩
  cases h with
  | known hc => exact .known ((hcs _ hc).resolve_right (by simp))
  | held hc hf => exact .held ((hcs _ hc).resolve_right (by simp)) hf
  | overrider hc hg ho =>
      exact .overrider ((hcs _ hc).resolve_right (by simp)) hg
        ((hcs _ ho).resolve_right (by simp))

theorem Flows.anti (hsub : cs ⊆ cs') {o : Origin φ} {key : Slot} (h : Flows cs name F o key) :
    Flows cs' name F o key := by
  cases h with
  | given hc => exact .given (hsub hc)
  | argument hcall hi => exact .argument (hcall.anti hsub) hi
  | default hcall hd hi => exact .default (hcall.anti hsub) (hsub hd) hi

/-- What flows although there are fewer constraints flows from a slot into itself. -/
theorem Flows.of_congr (hsub : cs ⊆ cs')
    (hcs : ∀ c ∈ cs', c ∈ cs ∨ ∃ key, c = .flow (.slot key) key) {o : Origin φ} {key : Slot}
    (h : Flows cs' name F o key) : Flows cs name F o key ∨ o = .slot key := by
  cases h with
  | given hc =>
      rcases hcs _ hc with hc | ⟨key', heq⟩
      · exact Or.inl (.given hc)
      · obtain ⟨rfl, rfl⟩ := Constraint.flow.inj heq
        exact Or.inr rfl
  | argument hcall hi => exact Or.inl (.argument ((called_congr hsub hcs).mpr hcall) hi)
  | default hcall hd hi =>
      exact Or.inl (.default ((called_congr hsub hcs).mpr hcall)
        ((hcs _ hd).resolve_right (by simp)) hi)

/-- Constraints that let a slot flow into itself bring nothing. -/
theorem advance_congr (hsub : cs ⊆ cs')
    (hcs : ∀ c ∈ cs', c ∈ cs ∨ ∃ key, c = .flow (.slot key) key) :
    advance cs name F = advance cs' name F := by
  funext key
  ext x
  constructor
  · rintro (hx | ⟨o, hflow, hx⟩)
    · exact Or.inl hx
    · exact Or.inr ⟨o, hflow.anti hsub, hx⟩
  · rintro (hx | ⟨o, hflow, hx⟩)
    · exact Or.inl hx
    · rcases hflow.of_congr hsub hcs with hflow | rfl
      · exact Or.inr ⟨o, hflow, hx⟩
      · exact Or.inl hx

theorem after_congr (hsub : cs ⊆ cs')
    (hcs : ∀ c ∈ cs', c ∈ cs ∨ ∃ key, c = .flow (.slot key) key) (n : Nat) :
    after cs name n = after cs' name n := by
  have hsame : advance cs name = advance cs' name := by
    funext F
    exact advance_congr hsub hcs
  rw [after, after, hsame]

end Congr

/-- What slots hold, item by item. -/
def heldItems (F : Family φ) : Set (Slot × Item φ) := {x | x.2 ∈ F x.1}

theorem heldItems_ssubset (hle : F ≤ G) (hne : F ≠ G) : heldItems F ⊂ heldItems G := by
  refine ⟨fun x hx => hle x.1 hx, fun hsub =>
    hne (funext fun key => Set.Subset.antisymm (hle key) ?_)⟩
  intro x hx
  exact hsub (show (key, x) ∈ heldItems G from hx)

/-- As long as something is new at every step, there are no fewer items than steps. -/
theorem le_ncard_heldItems {k : Nat} (hk : after cs name (k + 1) ≠ after cs name k)
    (hfinite : (heldItems (after cs name (k + 1))).Finite) :
    k + 1 ≤ (heldItems (after cs name (k + 1))).ncard := by
  have hgrows : heldItems (after cs name k) ⊂ heldItems (after cs name (k + 1)) := by
    refine heldItems_ssubset ?_ hk.symm
    rw [after_succ]
    exact le_advance
  have hlt := Set.ncard_lt_ncard hgrows hfinite
  induction k with
  | zero => omega
  | succ k ih =>
      have hk' : after cs name (k + 1) ≠ after cs name k := by
        intro heq
        exact hk (after_stable heq (Nat.le_succ k))
      have hfinite' := hfinite.subset hgrows.subset
      have hgrows' : heldItems (after cs name k) ⊂ heldItems (after cs name (k + 1)) := by
        refine heldItems_ssubset ?_ hk'.symm
        rw [after_succ]
        exact le_advance
      have hle := ih hk' hfinite' hgrows' (Set.ncard_lt_ncard hgrows' hfinite')
      omega

end Steps

/-! ## Steps under other names -/

section Renaming

variable {φ ψ : Type} {σ : φ → ψ} {D : φ → Prop} {cs : Set (Constraint φ)} {F : Family φ}
  {name : φ → FunctionKey} {name' : ψ → FunctionKey}

/-- What every slot holds, under other names of functions. -/
def Family.map (σ : φ → ψ) (F : Family φ) : Family ψ := fun key => Item.map σ '' F key

theorem Item.eq_of_map_eq (hσ : Set.InjOn σ {f | D f}) {x y : Item φ} (hx : x.Over D)
    (hy : y.Over D) (heq : x.map σ = y.map σ) : x = y := by
  cases x with
  | function f =>
      cases y with
      | function g => exact congrArg Item.function (hσ hx hy (Item.function.inj heq))
      | blocked => exact absurd heq (by simp [Item.map])
  | blocked =>
      cases y with
      | function g => exact absurd heq (by simp [Item.map])
      | blocked => rfl

theorem mem_content_map {o : Origin φ} {y : Item ψ} :
    y ∈ (o.map σ).content (F.map σ) ↔ ∃ x ∈ o.content F, x.map σ = y := by
  cases o with
  | slot key => exact Iff.rfl
  | item x => simp [Origin.map, Origin.content, eq_comm]

theorem mapArgs_eq_some {args : List (Option (Origin φ))} {i : Nat} {o : Origin ψ}
    (h : (mapArgs σ args)[i]? = some (some o)) :
    ∃ o', args[i]? = some (some o') ∧ o'.map σ = o := by
  rw [mapArgs, List.getElem?_map, Option.map_eq_some_iff] at h
  obtain ⟨arg, hi, harg⟩ := h
  obtain ⟨o', rfl, rfl⟩ := Option.map_eq_some_iff.mp harg
  exact ⟨o', hi, rfl⟩

theorem Called.map {f : φ} {args : List (Option (Origin φ))} {explicit : Nat}
    (h : Called cs F f args explicit) :
    Called (Constraint.map σ '' cs) (F.map σ) (σ f) (mapArgs σ args) explicit := by
  cases h with
  | known hc => exact .known ⟨_, hc, rfl⟩
  | held hc hf => exact .held ⟨_, hc, rfl⟩ ⟨_, hf, rfl⟩
  | overrider hc hg ho => exact .overrider ⟨_, hc, rfl⟩ ⟨_, hg, rfl⟩ ⟨_, ho, rfl⟩

section Told

-- functions of the kind can be told from their names, and only they are mentioned and held
variable (hσ : Set.InjOn σ {f | D f}) (hcs : ∀ c ∈ cs, c.Over D)
  (hF : ∀ key, ∀ x ∈ F key, x.Over D)
include hσ hcs hF

theorem exists_called_of_map {f' : ψ} {args' : List (Option (Origin ψ))} {explicit : Nat}
    (h : Called (Constraint.map σ '' cs) (F.map σ) f' args' explicit) :
    ∃ f args, D f ∧ σ f = f' ∧ mapArgs σ args = args' ∧ Called cs F f args explicit := by
  cases h with
  | known hc =>
      obtain ⟨c, hc, heq⟩ := hc
      cases c with
      | call f args e =>
          obtain ⟨rfl, rfl, rfl⟩ := Constraint.call.inj heq
          exact ⟨f, args, (hcs _ hc).1, rfl, rfl, .known hc⟩
      | _ => exact absurd heq (by simp [Constraint.map])
  | held hc hf =>
      obtain ⟨c, hc, heq⟩ := hc
      obtain ⟨x, hx, hxeq⟩ := hf
      cases c with
      | callThrough through args e expand =>
          obtain ⟨rfl, rfl, rfl, rfl⟩ := Constraint.callThrough.inj heq
          cases x with
          | function f =>
              obtain rfl := Item.function.inj hxeq
              exact ⟨f, args, hF _ _ hx, rfl, rfl, .held hc hx⟩
          | blocked => exact absurd hxeq (by simp [Item.map])
      | _ => exact absurd heq (by simp [Constraint.map])
  | overrider hc hg ho =>
      obtain ⟨c, hc, heq⟩ := hc
      obtain ⟨d, hd, hdeq⟩ := ho
      obtain ⟨x, hx, hxeq⟩ := hg
      cases c with
      | callThrough through args e expand =>
          obtain ⟨rfl, rfl, rfl, rfl⟩ := Constraint.callThrough.inj heq
          cases d with
          | overrider g f =>
              obtain ⟨rfl, rfl⟩ := Constraint.overrider.inj hdeq
              obtain ⟨hg, hf⟩ := hcs _ hd
              -- the function that is held is the one that has the overrider
              obtain rfl := Item.eq_of_map_eq (y := .function g) hσ (hF _ _ hx) hg hxeq
              exact ⟨f, args, hf, rfl, rfl, .overrider hc hx hd⟩
          | _ => exact absurd hdeq (by simp [Constraint.map])
      | _ => exact absurd heq (by simp [Constraint.map])

theorem advance_map (hname : ∀ f, D f → name f = name' (σ f)) :
    advance (Constraint.map σ '' cs) name' (F.map σ) = (advance cs name F).map σ := by
  have called_over : ∀ {f args e}, Called cs F f args e → D f := by
    intro f args e h
    cases h with
    | known hc => exact (hcs _ hc).1
    | held hc hf => exact hF _ _ hf
    | overrider hc hg ho => exact (hcs _ ho).2
  funext key
  ext y
  constructor
  · rintro (⟨x, hx, rfl⟩ | ⟨o, hflow, hy⟩)
    · exact ⟨x, Or.inl hx, rfl⟩
    -- what flows under the names flows under the functions
    obtain ⟨o', rfl, hflow'⟩ : ∃ o', Origin.map σ o' = o ∧ Flows cs name F o' key := by
      cases hflow with
      | given hc =>
          obtain ⟨c, hc, heq⟩ := hc
          cases c with
          | flow o' target =>
              obtain ⟨rfl, rfl⟩ := Constraint.flow.inj heq
              exact ⟨o', rfl, .given hc⟩
          | _ => exact absurd heq (by simp [Constraint.map])
      | argument hcall hi =>
          obtain ⟨f, args, hf, rfl, rfl, hcall'⟩ := exists_called_of_map hσ hcs hF hcall
          obtain ⟨o', hi', rfl⟩ := mapArgs_eq_some hi
          rw [← hname f hf]
          exact ⟨o', rfl, .argument hcall' hi'⟩
      | default hcall hd hi =>
          obtain ⟨f, args, hf, rfl, rfl, hcall'⟩ := exists_called_of_map hσ hcs hF hcall
          obtain ⟨d, hd, heq⟩ := hd
          cases d with
          | default g index o' =>
              obtain ⟨hg, rfl, rfl⟩ := Constraint.default.inj heq
              obtain rfl := hσ (hcs _ hd).1 hf hg
              rw [← hname g hf]
              exact ⟨o', rfl, .default hcall' hd hi⟩
          | _ => exact absurd heq (by simp [Constraint.map])
    obtain ⟨x, hx, rfl⟩ := mem_content_map.mp hy
    exact ⟨x, Or.inr ⟨o', hflow', hx⟩, rfl⟩
  · rintro ⟨x, hx | ⟨o, hflow, hx⟩, rfl⟩
    · exact Or.inl ⟨x, hx, rfl⟩
    refine Or.inr ⟨o.map σ, ?_, mem_content_map.mpr ⟨x, hx, rfl⟩⟩
    cases hflow with
    | given hc => exact .given ⟨_, hc, rfl⟩
    | argument hcall hi =>
        rw [hname _ (called_over hcall)]
        exact .argument hcall.map (getElem?_mapArgs hi)
    | default hcall hd hi =>
        rw [hname _ (called_over hcall)]
        exact .default hcall.map ⟨_, hd, rfl⟩ hi

end Told

theorem after_over (hcs : ∀ c ∈ cs, c.Over D) (n : Nat) (key : Slot) :
    ∀ x ∈ after cs name n key, x.Over D :=
  fun _ hx => after_le_of_solves (solves_over hcs) n key hx

theorem after_map (hσ : Set.InjOn σ {f | D f}) (hcs : ∀ c ∈ cs, c.Over D)
    (hname : ∀ f, D f → name f = name' (σ f)) (n : Nat) :
    after (Constraint.map σ '' cs) name' n = (after cs name n).map σ := by
  induction n with
  | zero =>
      funext key
      exact (Set.image_empty _).symm
  | succ n ih =>
      rw [after_succ, ih, after_succ]
      exact advance_map hσ hcs (after_over hcs n) hname

/-- Under other names it takes as many steps until nothing is new. -/
theorem after_map_stable_iff (hσ : Set.InjOn σ {f | D f}) (hcs : ∀ c ∈ cs, c.Over D)
    (hname : ∀ f, D f → name f = name' (σ f)) {n : Nat} :
    after (Constraint.map σ '' cs) name' (n + 1) = after (Constraint.map σ '' cs) name' n ↔
      after cs name (n + 1) = after cs name n := by
  rw [after_map hσ hcs hname, after_map hσ hcs hname]
  constructor
  · intro heq
    refine le_antisymm ?_ (by rw [after_succ]; exact le_advance)
    intro key x hx
    have hy : x.map σ ∈ (after cs name n).map σ key := heq ▸ ⟨x, hx, rfl⟩
    obtain ⟨y, hy, hmap⟩ := hy
    rwa [← Item.eq_of_map_eq hσ (after_over hcs n key y hy) (after_over hcs (n + 1) key x hx) hmap]
  · intro heq
    rw [heq]

end Renaming

end Flow

end CallGraphs
