import CallGraphs.Facts.Slot
import Mathlib.Data.Set.Basic
import Mathlib.Order.Bounds.Defs

/-!
# Flow constraints

The meaning of a flow program, without rounds, queues or places of slots.  A
family says what every slot holds: functions, and whether the result of a call
that is not followed may be among them.  A constraint lets something flow into
a slot, at once or as soon as some slot holds a function.  A family solves a
set of constraints if it takes in all that flows under the family itself, and
what a program means is the least family that does.

Functions are of any type here, because the same constraints are read once
over the nodes of a graph and once over the names of functions.
`Solves.comap` carries a solution over from one reading to the other, and
`Solves.comapSlots` from one naming of slots to another.
-/

namespace CallGraphs

namespace Flow

/-- What a slot may hold. -/
inductive Item (φ : Type) where
  /-- The address of a function. -/
  | function (f : φ)
  /-- The result of a call that is not followed. -/
  | blocked
deriving DecidableEq

/-- Where something flows from: a slot, with all it holds, or a single item. -/
inductive Origin (φ : Type) where
  | slot (key : Slot)
  | item (x : Item φ)
deriving DecidableEq

/-- What every slot holds. -/
abbrev Family (φ : Type) := Slot → Set (Item φ)

/-- A reason why something flows. -/
inductive Constraint (φ : Type) where
  /-- The origin flows into the slot. -/
  | flow (origin : Origin φ) (target : Slot)
  /-- A function is called with arguments, of which so many are explicit. -/
  | call (callee : φ) (args : List (Option (Origin φ))) (explicit : Nat)
  /-- Whatever a slot holds is called and, if told so, the overriders of it. -/
  | callThrough (through : Slot) (args : List (Option (Origin φ))) (explicit : Nat) (expand : Bool)
  /-- A parameter has a default. -/
  | default (function : φ) (index : Nat) (origin : Origin φ)
  /-- A function has an overrider. -/
  | overrider (function other : φ)
deriving DecidableEq

section Solutions

variable {φ : Type} {cs : Set (Constraint φ)} {name : φ → FunctionKey} {F G : Family φ}

/-- What an origin stands for under a family. -/
def Origin.content (F : Family φ) : Origin φ → Set (Item φ)
  | slot key => F key
  | item x => {x}

/-- The calls that constraints ask for under a family. -/
inductive Called (cs : Set (Constraint φ)) (F : Family φ) :
    φ → List (Option (Origin φ)) → Nat → Prop where
  | known {f args explicit} : .call f args explicit ∈ cs → Called cs F f args explicit
  | held {f through args explicit expand} : .callThrough through args explicit expand ∈ cs →
      .function f ∈ F through → Called cs F f args explicit
  | overrider {f g through args explicit} : .callThrough through args explicit true ∈ cs →
      .function g ∈ F through → .overrider g f ∈ cs → Called cs F f args explicit

/-- What flows where under a family.  A call passes its arguments by position, and the defaults of
the parameters after the explicit ones. -/
inductive Flows (cs : Set (Constraint φ)) (name : φ → FunctionKey) (F : Family φ) :
    Origin φ → Slot → Prop where
  | given {o key} : .flow o key ∈ cs → Flows cs name F o key
  | argument {f args explicit i o} : Called cs F f args explicit → args[i]? = some (some o) →
      Flows cs name F o (.param (name f) i)
  | default {f args explicit i o} : Called cs F f args explicit → .default f i o ∈ cs →
      explicit ≤ i → Flows cs name F o (.param (name f) i)

/-- The family takes in all that flows under it. -/
def Solves (cs : Set (Constraint φ)) (name : φ → FunctionKey) (F : Family φ) : Prop :=
  ∀ o key, Flows cs name F o key → o.content F ⊆ F key

theorem Called.mono {f : φ} {args : List (Option (Origin φ))} {explicit : Nat} (hle : F ≤ G)
    (h : Called cs F f args explicit) : Called cs G f args explicit := by
  cases h with
  | known hc => exact .known hc
  | held hc hf => exact .held hc (hle _ hf)
  | overrider hc hg ho => exact .overrider hc (hle _ hg) ho

theorem Flows.mono {o : Origin φ} {key : Slot} (hle : F ≤ G) (h : Flows cs name F o key) :
    Flows cs name G o key := by
  cases h with
  | given hc => exact .given hc
  | argument hcall hi => exact .argument (hcall.mono hle) hi
  | default hcall hd hi => exact .default (hcall.mono hle) hd hi

/-- What slots hold one step later: what they hold, and whatever flows while they hold that. -/
def advance (cs : Set (Constraint φ)) (name : φ → FunctionKey) (F : Family φ) : Family φ :=
  fun key => F key ∪ {x | ∃ o, Flows cs name F o key ∧ x ∈ o.content F}

theorem le_advance : F ≤ advance cs name F :=
  fun _ _ hx => Or.inl hx

theorem solves_iff_advance_le : Solves cs name F ↔ advance cs name F ≤ F := by
  constructor
  · intro h key x hx
    rcases hx with hx | ⟨o, hflow, hx⟩
    · exact hx
    · exact h o key hflow hx
  · intro h o key hflow x hx
    exact h key (Or.inr ⟨o, hflow, hx⟩)

end Solutions

/-! ## Renaming functions -/

section Renaming

variable {φ ψ : Type}

/-- An item under other names of functions. -/
def Item.map (σ : φ → ψ) : Item φ → Item ψ
  | function f => .function (σ f)
  | blocked => .blocked

/-- An origin under other names of functions. -/
def Origin.map (σ : φ → ψ) : Origin φ → Origin ψ
  | slot key => .slot key
  | item x => .item (x.map σ)

/-- Arguments under other names of functions. -/
def mapArgs (σ : φ → ψ) (args : List (Option (Origin φ))) : List (Option (Origin ψ)) :=
  args.map (·.map (·.map σ))

/-- A constraint under other names of functions. -/
def Constraint.map (σ : φ → ψ) : Constraint φ → Constraint ψ
  | flow o target => .flow (o.map σ) target
  | call f args explicit => .call (σ f) (mapArgs σ args) explicit
  | callThrough through args explicit expand =>
    .callThrough through (mapArgs σ args) explicit expand
  | default f index o => .default (σ f) index (o.map σ)
  | overrider f g => .overrider (σ f) (σ g)

/-- A function that the item is, if it is one, is of a kind. -/
def Item.Over (D : φ → Prop) : Item φ → Prop
  | function f => D f
  | blocked => True

/-- A function that flows from the origin directly is of a kind. -/
def Origin.Over (D : φ → Prop) : Origin φ → Prop
  | slot _ => True
  | item x => x.Over D

/-- The functions that flow from arguments directly are of a kind. -/
def ArgsOver (D : φ → Prop) (args : List (Option (Origin φ))) : Prop :=
  ∀ o, some o ∈ args → o.Over D

/-- The functions that a constraint mentions are of a kind. -/
def Constraint.Over (D : φ → Prop) : Constraint φ → Prop
  | flow o _ => o.Over D
  | call f args _ => D f ∧ ArgsOver D args
  | callThrough _ args _ _ => ArgsOver D args
  | default f _ o => D f ∧ o.Over D
  | overrider f g => D f ∧ D g

variable {σ : φ → ψ} {D : φ → Prop} {F : Family φ} {G : Family ψ} {cs : Set (Constraint φ)}
  {cs' : Set (Constraint ψ)} {name : φ → FunctionKey} {name' : ψ → FunctionKey}

theorem getElem?_mapArgs {args : List (Option (Origin φ))} {i : Nat} {o : Origin φ}
    (h : args[i]? = some (some o)) : (mapArgs σ args)[i]? = some (some (o.map σ)) := by
  simp [mapArgs, h]

/-- A solution read through other names solves the constraints that it covers.  A constraint that
lets a slot flow into itself need not be covered. -/
theorem Solves.comap (σ : φ → ψ) (D : φ → Prop)
    (hF : ∀ key x, x ∈ F key ↔ x.map σ ∈ G key ∧ x.Over D)
    (hcs : ∀ c ∈ cs, c.map σ ∈ cs' ∧ c.Over D ∨ ∃ key, c = .flow (.slot key) key)
    (hname : ∀ f, D f → name f = name' (σ f)) (hG : Solves cs' name' G) : Solves cs name F := by
  have content : ∀ {o : Origin φ} {x}, o.Over D → x ∈ o.content F →
      x.map σ ∈ (o.map σ).content G ∧ x.Over D := by
    intro o x ho hx
    cases o with
    | slot key => exact (hF key x).mp hx
    | item y =>
        obtain rfl : x = y := hx
        exact ⟨rfl, ho⟩
  have called : ∀ {f args e}, Called cs F f args e →
      Called cs' G (σ f) (mapArgs σ args) e ∧ D f ∧ ArgsOver D args := by
    intro f args e h
    cases h with
    | known hc =>
        obtain ⟨hmem, hover⟩ := (hcs _ hc).resolve_right (by simp)
        exact ⟨.known hmem, hover⟩
    | held hc hf =>
        obtain ⟨hmem, hover⟩ := (hcs _ hc).resolve_right (by simp)
        obtain ⟨hheld, hD⟩ := (hF _ _).mp hf
        exact ⟨.held hmem hheld, hD, hover⟩
    | overrider hc hg ho =>
        obtain ⟨hmem, hover⟩ := (hcs _ hc).resolve_right (by simp)
        obtain ⟨hmem', -, hD⟩ := (hcs _ ho).resolve_right (by simp)
        exact ⟨.overrider hmem ((hF _ _).mp hg).1 hmem', hD, hover⟩
  -- whatever flows on this side flows on the other, where the solution takes it in
  have takes : ∀ {o : Origin φ} {key}, o.Over D → Flows cs' name' G (o.map σ) key →
      o.content F ⊆ F key := by
    intro o key ho hflow x hx
    obtain ⟨hmem, hD⟩ := content ho hx
    exact (hF key x).mpr ⟨hG _ _ hflow hmem, hD⟩
  intro o key hflow
  cases hflow with
  | given hc =>
      rcases hcs _ hc with ⟨hmem, hover⟩ | ⟨_, heq⟩
      · exact takes hover (.given hmem)
      · injection heq with ho hk
        subst ho hk
        exact subset_rfl
  | argument hcall hi =>
      obtain ⟨hcall', hD, hover⟩ := called hcall
      rw [hname _ hD]
      exact takes (hover _ (List.mem_of_getElem? hi)) (.argument hcall' (getElem?_mapArgs hi))
  | default hcall hd hi =>
      obtain ⟨hcall', hD, -⟩ := called hcall
      obtain ⟨hmem, -, hover⟩ := (hcs _ hd).resolve_right (by simp)
      rw [hname _ hD]
      exact takes hover (.default hcall' hmem hi)

theorem Item.map_congr {τ : φ → ψ} (h : ∀ f, D f → σ f = τ f) {x : Item φ} (hx : x.Over D) :
    x.map σ = x.map τ := by
  cases x with
  | function f => exact congrArg Item.function (h f hx)
  | blocked => rfl

theorem Origin.map_congr {τ : φ → ψ} (h : ∀ f, D f → σ f = τ f) {o : Origin φ} (ho : o.Over D) :
    o.map σ = o.map τ := by
  cases o with
  | slot key => rfl
  | item x => exact congrArg Origin.item (Item.map_congr h ho)

theorem mapArgs_congr {τ : φ → ψ} (h : ∀ f, D f → σ f = τ f) {args : List (Option (Origin φ))}
    (hargs : ArgsOver D args) : mapArgs σ args = mapArgs τ args := by
  refine List.map_congr_left fun arg harg => ?_
  cases arg with
  | none => rfl
  | some o => exact congrArg some (Origin.map_congr h (hargs o harg))

/-- Only the functions that a constraint mentions count when it is renamed. -/
theorem Constraint.map_congr {τ : φ → ψ} (h : ∀ f, D f → σ f = τ f) {c : Constraint φ}
    (hc : c.Over D) : c.map σ = c.map τ := by
  cases c with
  | flow o target => rw [map, Origin.map_congr h hc, map]
  | call f args explicit => rw [map, h f hc.1, mapArgs_congr h hc.2, map]
  | callThrough through args explicit expand => rw [map, mapArgs_congr h hc, map]
  | default f index o => rw [map, h f hc.1, Origin.map_congr h hc.2, map]
  | overrider f g => rw [map, h f hc.1, h g hc.2, map]

theorem Item.Over.map {E : ψ → Prop} {x : Item φ} (hx : x.Over D) (h : ∀ f, D f → E (σ f)) :
    (x.map σ).Over E := by
  cases x with
  | function f => exact h f hx
  | blocked => trivial

theorem Origin.Over.map {E : ψ → Prop} {o : Origin φ} (ho : o.Over D)
    (h : ∀ f, D f → E (σ f)) : (o.map σ).Over E := by
  cases o with
  | slot key => trivial
  | item x => exact Item.Over.map ho h

theorem ArgsOver.map {E : ψ → Prop} {args : List (Option (Origin φ))} (hargs : ArgsOver D args)
    (h : ∀ f, D f → E (σ f)) : ArgsOver E (mapArgs σ args) := by
  intro o ho
  obtain ⟨arg, harg, heq⟩ := List.mem_map.mp ho
  obtain ⟨o', rfl, rfl⟩ := Option.map_eq_some_iff.mp heq
  exact (hargs o' harg).map h

theorem Constraint.Over.map {E : ψ → Prop} {c : Constraint φ} (hc : c.Over D)
    (h : ∀ f, D f → E (σ f)) : (c.map σ).Over E := by
  cases c with
  | flow o target => exact Origin.Over.map hc h
  | call f args explicit => exact ⟨h f hc.1, ArgsOver.map hc.2 h⟩
  | callThrough through args explicit expand => exact ArgsOver.map hc h
  | default f index o => exact ⟨h f hc.1, Origin.Over.map hc.2 h⟩
  | overrider f g => exact ⟨h f hc.1, h g hc.2⟩

theorem Item.map_map {χ : Type} (τ : ψ → χ) (x : Item φ) : (x.map σ).map τ = x.map (τ ∘ σ) := by
  cases x <;> rfl

theorem Constraint.map_map {χ : Type} (τ : ψ → χ) (c : Constraint φ) :
    (c.map σ).map τ = c.map (τ ∘ σ) := by
  have origin : ∀ o : Origin φ, (o.map σ).map τ = o.map (τ ∘ σ) := by
    rintro (_ | x)
    · rfl
    · exact congrArg Origin.item (x.map_map τ)
  have args : ∀ l : List (Option (Origin φ)), mapArgs τ (mapArgs σ l) = mapArgs (τ ∘ σ) l := by
    intro l
    simp [mapArgs, Function.comp_def, origin]
  cases c <;> simp [Constraint.map, origin, args]

@[simp]
theorem Item.map_id (x : Item φ) : x.map id = x := by
  cases x <;> rfl

@[simp]
theorem Origin.map_id (o : Origin φ) : o.map id = o := by
  cases o with
  | slot key => rfl
  | item x => exact congrArg Origin.item x.map_id

@[simp]
theorem Constraint.map_id (c : Constraint φ) : c.map id = c := by
  have args : ∀ l : List (Option (Origin φ)), mapArgs id l = l := by
    intro l
    simp [mapArgs]
  cases c <;> simp [Constraint.map, args]

theorem Origin.Over.imp {E : φ → Prop} {o : Origin φ} (ho : o.Over D) (h : ∀ f, D f → E f) :
    o.Over E := by
  have hmap := Origin.Over.map (σ := id) ho h
  rwa [Origin.map_id] at hmap

theorem Constraint.Over.imp {E : φ → Prop} {c : Constraint φ} (hc : c.Over D)
    (h : ∀ f, D f → E f) : c.Over E := by
  have hmap := hc.map (σ := id) h
  rwa [Constraint.map_id] at hmap

theorem Item.over_true (x : Item φ) : x.Over fun _ => True := by
  cases x <;> trivial

theorem Constraint.over_true (c : Constraint φ) : c.Over fun _ => True := by
  have origin : ∀ o : Origin φ, o.Over fun _ => True := by
    rintro (_ | x)
    · trivial
    · exact x.over_true
  cases c <;> simp [Constraint.Over, ArgsOver, origin]

/-- Fewer constraints are solved as well, and so are copies that the solution has carried out. -/
theorem Solves.of_implied {cs cs' : Set (Constraint φ)} (h : Solves cs' name F)
    (hcs : ∀ c ∈ cs, c ∈ cs' ∨ ∃ a b, c = .flow (.slot a) b ∧ F a ⊆ F b) : Solves cs name F := by
  have called : ∀ {f args explicit}, Called cs F f args explicit →
      Called cs' F f args explicit := by
    intro f args explicit hcall
    cases hcall with
    | known hc => exact .known ((hcs _ hc).resolve_right (by simp))
    | held hc hf => exact .held ((hcs _ hc).resolve_right (by simp)) hf
    | overrider hc hg ho =>
        exact .overrider ((hcs _ hc).resolve_right (by simp)) hg
          ((hcs _ ho).resolve_right (by simp))
  intro o key hflow
  cases hflow with
  | given hc =>
      rcases hcs _ hc with hc | ⟨a, b, heq, hsub⟩
      · exact h _ _ (.given hc)
      · obtain ⟨rfl, rfl⟩ := Constraint.flow.inj heq
        exact hsub
  | argument hcall hi => exact h _ _ (.argument (called hcall) hi)
  | default hcall hd hi =>
      exact h _ _ (.default (called hcall) ((hcs _ hd).resolve_right (by simp)) hi)

/-- Constraints that let a slot flow into itself do not count. -/
theorem Solves.anti {cs cs' : Set (Constraint φ)} (h : Solves cs' name F)
    (hcs : ∀ c ∈ cs, c ∈ cs' ∨ ∃ key, c = .flow (.slot key) key) : Solves cs name F := by
  refine h.of_implied fun c hc => (hcs c hc).imp_right ?_
  rintro ⟨key, rfl⟩
  exact ⟨key, key, rfl, subset_rfl⟩

/-- If only functions of a kind are mentioned, then slots may be taken to hold no others. -/
theorem solves_over (hcs : ∀ c ∈ cs, c.Over D) : Solves cs name fun _ => {x | x.Over D} := by
  have item : ∀ {o : Origin φ}, o.Over D →
      o.content (fun _ => {x | x.Over D}) ⊆ {x | x.Over D} := by
    intro o ho x hx
    cases o with
    | slot key => exact hx
    | item y =>
        obtain rfl : x = y := hx
        exact ho
  have called : ∀ {f args e}, Called cs (fun _ => {x | x.Over D}) f args e → ArgsOver D args := by
    intro f args e h
    cases h with
    | known hc => exact (hcs _ hc).2
    | held hc _ => exact hcs _ hc
    | overrider hc _ _ => exact hcs _ hc
  intro o key hflow
  cases hflow with
  | given hc => exact item (hcs _ hc)
  | argument hcall hi => exact item (called hcall _ (List.mem_of_getElem? hi))
  | default hcall hd hi => exact item (hcs _ hd).2

/-- Constraints under other names have the least solution of the constraints themselves under these
names, if the functions that they mention can be told from the names. -/
theorem isLeast_map {τ : ψ → φ} {E : ψ → Prop} (hσ : ∀ f, D f → E (σ f) ∧ τ (σ f) = f)
    (hτ : ∀ k, E k → D (τ k) ∧ σ (τ k) = k) (hname : ∀ f, D f → name f = name' (σ f))
    (hcs : ∀ c ∈ cs, c.Over D) (hleast : IsLeast {F | Solves cs name F} F) :
    IsLeast {G | Solves (Constraint.map σ '' cs) name' G} fun key => Item.map σ '' F key := by
  have hover : ∀ {key x}, x ∈ F key → x.Over D := fun hx => hleast.2 (solves_over hcs) _ hx
  have hback : ∀ f, D f → (τ ∘ σ) f = id f := fun f hf => (hσ f hf).2
  have hforth : ∀ k, E k → (σ ∘ τ) k = id k := fun k hk => (hτ k hk).2
  constructor
  · refine hleast.1.comap τ E (fun key x => ?_) ?_ ?_
    · constructor
      · rintro ⟨y, hy, rfl⟩
        rw [Item.map_map, Item.map_congr hback (hover hy), Item.map_id]
        exact ⟨hy, (hover hy).map fun f hf => (hσ f hf).1⟩
      · rintro ⟨hmem, hx⟩
        refine ⟨x.map τ, hmem, ?_⟩
        rw [Item.map_map, Item.map_congr hforth hx, Item.map_id]
    · rintro _ ⟨c, hc, rfl⟩
      left
      rw [Constraint.map_map, Constraint.map_congr hback (hcs c hc), Constraint.map_id]
      exact ⟨hc, (hcs c hc).map fun f hf => (hσ f hf).1⟩
    · intro k hk
      rw [hname _ (hτ k hk).1, (hτ k hk).2]
  · rintro G hG key _ ⟨x, hx, rfl⟩
    have hsolves : Solves cs name fun key => {y | y.map σ ∈ G key ∧ y.Over D} :=
      hG.comap σ D (fun _ _ => Iff.rfl)
        (fun c hc => Or.inl ⟨Set.mem_image_of_mem _ hc, hcs c hc⟩) hname
    exact (hleast.2 hsolves key hx).1

end Renaming

/-! ## Renaming slots -/

section Slots

variable {φ : Type} (ρ : Slot → Slot)

/-- An origin under other names of slots. -/
def Origin.mapSlot : Origin φ → Origin φ
  | slot key => .slot (ρ key)
  | item x => .item x

/-- Arguments under other names of slots. -/
def mapSlots (args : List (Option (Origin φ))) : List (Option (Origin φ)) :=
  args.map (·.map (·.mapSlot ρ))

/-- A constraint under other names of slots. -/
def Constraint.mapSlots : Constraint φ → Constraint φ
  | flow o target => .flow (o.mapSlot ρ) (ρ target)
  | call f args explicit => .call f (Flow.mapSlots ρ args) explicit
  | callThrough through args explicit expand =>
    .callThrough (ρ through) (Flow.mapSlots ρ args) explicit expand
  | default f index o => .default f index (o.mapSlot ρ)
  | overrider f g => .overrider f g

variable {ρ}

theorem Origin.content_mapSlot (F : Family φ) (o : Origin φ) :
    (o.mapSlot ρ).content F = o.content (F ∘ ρ) := by
  cases o <;> rfl

theorem getElem?_mapSlots {args : List (Option (Origin φ))} {i : Nat} {o : Origin φ}
    (h : args[i]? = some (some o)) : (mapSlots ρ args)[i]? = some (some (o.mapSlot ρ)) := by
  simp [mapSlots, h]

variable {cs cs' : Set (Constraint φ)} {name : φ → FunctionKey} {F : Family φ}

theorem Called.mapSlots (hcs : ∀ c ∈ cs, c.mapSlots ρ ∈ cs') {f : φ}
    {args : List (Option (Origin φ))} {explicit : Nat} (h : Called cs (F ∘ ρ) f args explicit) :
    Called cs' F f (Flow.mapSlots ρ args) explicit := by
  cases h with
  | known hc => exact .known (hcs _ hc)
  | held hc hf => exact .held (hcs _ hc) hf
  | overrider hc hg ho => exact .overrider (hcs _ hc) hg (hcs _ ho)

theorem Flows.mapSlots (hρ : ∀ f i, ρ (.param f i) = .param f i)
    (hcs : ∀ c ∈ cs, c.mapSlots ρ ∈ cs') {o : Origin φ} {key : Slot}
    (h : Flows cs name (F ∘ ρ) o key) : Flows cs' name F (o.mapSlot ρ) (ρ key) := by
  cases h with
  | given hc => exact .given (hcs _ hc)
  | argument hcall hi =>
      rw [hρ]
      exact .argument (hcall.mapSlots hcs) (getElem?_mapSlots hi)
  | default hcall hd hi =>
      rw [hρ]
      exact .default (hcall.mapSlots hcs) (hcs _ hd) hi

/-- A solution read through other names of slots solves the constraints that it covers, if
parameters keep their names. -/
theorem Solves.comapSlots (hρ : ∀ f i, ρ (.param f i) = .param f i)
    (hcs : ∀ c ∈ cs, c.mapSlots ρ ∈ cs') (h : Solves cs' name F) : Solves cs name (F ∘ ρ) := by
  intro o key hflow
  rw [← Origin.content_mapSlot]
  exact h _ _ (hflow.mapSlots hρ hcs)

end Slots

end Flow

end CallGraphs
