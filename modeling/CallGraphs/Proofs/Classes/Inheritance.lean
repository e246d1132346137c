import CallGraphs.Classes.Hierarchy
import CallGraphs.Classes.Lifetime
import CallGraphs.Proofs.Worklists
import Mathlib.Data.List.Nodup
import Mathlib.Tactic.ByContra
import Mathlib.Tactic.Tauto

/-!
# Inheritance

What the walks over a class table compute, said without the walks.

* `ClassTable.HasBase` is the relation between a class and a direct base of it
  that is in the table.  A class derives from another when a chain of such
  steps leads up to it (`ClassTable.DerivesFrom`), and `derivedClosure` holds
  exactly the class itself and the classes that derive from it.
* `ClassTable.Finds` is the upward lookup: a chain of bases stops at the first
  class that declares the name.  `nearest` holds exactly what it finds.
* `ClassTable.Ordered` is a list of classes without repetition in which every
  class comes after its bases.  `basesFirst` gives such a list, and it holds
  every class; so no class derives from itself.
-/

namespace CallGraphs

open Relation

/-! ## Joined records -/

/-- Appending adds nothing but elements of the second list. -/
theorem mem_of_mem_appendNew {α : Type} {same : α → α → Bool} {x : α} :
    ∀ {more l : List α}, x ∈ appendNew same l more → x ∈ l ∨ x ∈ more
  | [], _, h => Or.inl h
  | y :: more, l, h => by
      have h' : x ∈ appendNew same (if l.any (same y) then l else l ++ [y]) more := h
      rcases mem_of_mem_appendNew h' with h' | h'
      · split at h'
        · exact Or.inl h'
        · rcases List.mem_append.mp h' with h' | h'
          · exact Or.inl h'
          · exact Or.inr (List.mem_cons.mpr (Or.inl (List.mem_singleton.mp h')))
      · exact Or.inr (List.mem_cons_of_mem _ h')

namespace ClassRecord

theorem mem_members {c : ClassRecord} {f : FunctionKey} :
    f ∈ c.members ↔ (∃ m ∈ c.methods, m.function = f) ∨
      (∃ k ∈ c.constructors, k.function = f) ∨ ∃ d, c.destructor = some d ∧ d.function = f := by
  simp [members]

theorem mem_declarations {c : ClassRecord} {name : String} {f : FunctionKey} :
    (name, f) ∈ c.declarations ↔ (∃ m ∈ c.methods, m.name = name ∧ m.function = f) ∨
      name = destructorName ∧ ∃ d, c.destructor = some d ∧ d.function = f := by
  cases h : c.destructor with
  | none => simp [declarations, h]
  | some d => simp [declarations, h, eq_comm]

theorem mem_members_of_mem_declarations {c : ClassRecord} {name : String} {f : FunctionKey}
    (h : (name, f) ∈ c.declarations) : f ∈ c.members := by
  rcases mem_declarations.mp h with ⟨m, hm, -, rfl⟩ | ⟨-, d, hd, rfl⟩
  · exact mem_members.mpr (Or.inl ⟨m, hm, rfl⟩)
  · exact mem_members.mpr (Or.inr (Or.inr ⟨d, hd, rfl⟩))

/-- What a class answers with under a name is one of its declarations. -/
theorem mem_declarations_of_declares? {c : ClassRecord} {name : String} {f : FunctionKey}
    (h : c.declares? name = some f) : (name, f) ∈ c.declarations := by
  rw [declares?] at h
  split at h
  · next hname =>
    obtain ⟨d, hd, hf⟩ := Option.map_eq_some_iff.mp h
    exact mem_declarations.mpr (Or.inr ⟨hname, d, hd, hf⟩)
  · obtain ⟨m, hm, hf⟩ := Option.map_eq_some_iff.mp h
    have hn : m.name = name := by simpa using List.find?_some hm
    exact mem_declarations.mpr (Or.inl ⟨m, List.mem_of_find?_eq_some hm, hn, hf⟩)

/-- A class without an answer under a name has no declaration of it, unless a method goes by
the name of destructors. -/
theorem not_mem_declarations_of_declares? {c : ClassRecord} {name : String} {f : FunctionKey}
    (hmethods : ∀ m ∈ c.methods, m.name ≠ destructorName) (h : c.declares? name = none) :
    (name, f) ∉ c.declarations := by
  intro hmem
  rw [declares?] at h
  rcases mem_declarations.mp hmem with ⟨m, hm, hname, -⟩ | ⟨hname, d, hd, -⟩
  · split at h
    · next hdtor => exact hmethods m hm (hname.trans hdtor)
    · have hnone := Option.map_eq_none_iff.mp h
      exact absurd hname (by simpa using List.find?_eq_none.mp hnone m hm)
  · rw [if_pos hname, hd] at h
    simp at h

theorem mem_methods_absorb {c other : ClassRecord} {m : MethodDecl}
    (h : m ∈ (c.absorb other).methods) : m ∈ c.methods ∨ m ∈ other.methods :=
  mem_of_mem_appendNew h

theorem mem_constructors_absorb {c other : ClassRecord} {k : ConstructorDecl}
    (h : k ∈ (c.absorb other).constructors) : k ∈ c.constructors ∨ k ∈ other.constructors :=
  mem_of_mem_appendNew h

theorem destructor_absorb {c other : ClassRecord} {d : DestructorDecl}
    (h : (c.absorb other).destructor = some d) :
    c.destructor = some d ∨ other.destructor = some d := by
  have h' : (c.destructor <|> other.destructor) = some d := h
  cases hc : c.destructor with
  | none => simpa [hc] using h'
  | some e => exact Or.inl (by simpa [hc] using h')

theorem mem_members_absorb {c other : ClassRecord} {f : FunctionKey}
    (h : f ∈ (c.absorb other).members) : f ∈ c.members ∨ f ∈ other.members := by
  simp only [mem_members] at h ⊢
  rcases h with ⟨m, hm, rfl⟩ | ⟨k, hk, rfl⟩ | ⟨d, hd, rfl⟩
  · exact (mem_methods_absorb hm).imp (fun h => Or.inl ⟨m, h, rfl⟩) fun h => Or.inl ⟨m, h, rfl⟩
  · exact (mem_constructors_absorb hk).imp (fun h => Or.inr (Or.inl ⟨k, h, rfl⟩))
      fun h => Or.inr (Or.inl ⟨k, h, rfl⟩)
  · exact (destructor_absorb hd).imp (fun h => Or.inr (Or.inr ⟨d, h, rfl⟩))
      fun h => Or.inr (Or.inr ⟨d, h, rfl⟩)

theorem mem_declarations_absorb {c other : ClassRecord} {name : String} {f : FunctionKey}
    (h : (name, f) ∈ (c.absorb other).declarations) :
    (name, f) ∈ c.declarations ∨ (name, f) ∈ other.declarations := by
  simp only [mem_declarations] at h ⊢
  rcases h with ⟨m, hm, hn⟩ | ⟨hn, d, hd, rfl⟩
  · exact (mem_methods_absorb hm).imp (fun h => Or.inl ⟨m, h, hn⟩) fun h => Or.inl ⟨m, h, hn⟩
  · exact (destructor_absorb hd).imp (fun h => Or.inr ⟨hn, d, h, rfl⟩)
      fun h => Or.inr ⟨hn, d, h, rfl⟩

end ClassRecord

namespace ClassTable

/-! ## One record for each class -/

theorem contains_iff {t : ClassTable} {key : String} : t.contains key = true ↔ key ∈ t.keys :=
  List.contains_iff_mem

theorem keys_add (t : ClassTable) (r : ClassRecord) :
    (t.add r).keys = if r.key ∈ t.keys then t.keys else t.keys ++ [r.key] := by
  by_cases h : r.key ∈ t.keys
  · rw [add, if_pos (contains_iff.mpr h), if_pos h]
    simp only [keys, List.map_map]
    apply List.map_congr_left
    intro c _
    simp only [Function.comp]
    split
    · rfl
    · rfl
  · rw [add, if_neg (mt contains_iff.mp h), if_neg h]
    simp [keys]

theorem nodup_keys_foldl_add :
    ∀ (rs : List ClassRecord) (t : ClassTable), t.keys.Nodup → (rs.foldl add t).keys.Nodup
  | [], _, h => h
  | r :: rs, t, h => by
      refine nodup_keys_foldl_add rs (t.add r) ?_
      rw [keys_add]
      split
      · exact h
      · next hr =>
        refine List.nodup_append.mpr ⟨h, List.nodup_singleton _, ?_⟩
        intro a ha b hb hab
        exact hr (List.mem_singleton.mp hb ▸ hab ▸ ha)

theorem nodup_keys_ofRecords (rs : List ClassRecord) : (ofRecords rs).keys.Nodup :=
  nodup_keys_foldl_add rs {} List.nodup_nil

theorem class?_eq_some {t : ClassTable} {key : String} {c : ClassRecord}
    (h : t.class? key = some c) : c ∈ t.records ∧ c.key = key :=
  ⟨List.mem_of_find?_eq_some h, by simpa using List.find?_some h⟩

/-- In a table without repeated keys, the record of a class is the one with its key. -/
theorem class?_of_mem {t : ClassTable} (hk : t.keys.Nodup) {c : ClassRecord}
    (hc : c ∈ t.records) : t.class? c.key = some c := by
  cases h : t.class? c.key with
  | none =>
      exact absurd (List.mem_map_of_mem hc) (class?_eq_none_iff.mp h)
  | some d =>
      obtain ⟨hd, hkey⟩ := class?_eq_some h
      exact congrArg some (List.inj_on_of_nodup_map hk hd hc hkey)

/-- A property of records that joining keeps holds of every record of a table. -/
theorem forall_records_foldl_add {P : ClassRecord → Prop}
    (habsorb : ∀ c r : ClassRecord, c.key = r.key → P c → P r → P (c.absorb r)) :
    ∀ (rs : List ClassRecord) (t : ClassTable), (∀ c ∈ t.records, P c) → (∀ r ∈ rs, P r) →
      ∀ c ∈ (rs.foldl add t).records, P c
  | [], _, ht, _ => ht
  | r :: rs, t, ht, hrs => by
      have hr : P r := hrs r List.mem_cons_self
      refine forall_records_foldl_add habsorb rs (t.add r) ?_
        fun x hx => hrs x (List.mem_cons_of_mem _ hx)
      intro c hc
      rw [add] at hc
      split at hc
      · obtain ⟨d, hd, rfl⟩ := List.mem_map.mp hc
        split
        · next hkey => exact habsorb d r hkey (ht d hd) hr
        · exact ht d hd
      · rcases List.mem_append.mp hc with hc | hc
        · exact ht c hc
        · exact List.mem_singleton.mp hc ▸ hr

theorem forall_records_ofRecords {P : ClassRecord → Prop}
    (habsorb : ∀ c r : ClassRecord, c.key = r.key → P c → P r → P (c.absorb r))
    {rs : List ClassRecord} (hrs : ∀ r ∈ rs, P r) : ∀ c ∈ (ofRecords rs).records, P c :=
  forall_records_foldl_add habsorb rs {} (fun _ h => absurd h List.not_mem_nil) hrs

/-- A member of a class of the table is one of a record of that class. -/
theorem exists_record_of_mem_members {rs : List ClassRecord} {c : ClassRecord} {f : FunctionKey}
    (hc : c ∈ (ofRecords rs).records) (hf : f ∈ c.members) :
    ∃ r ∈ rs, r.key = c.key ∧ f ∈ r.members := by
  refine forall_records_ofRecords (P := fun c => ∀ f ∈ c.members, ∃ r ∈ rs,
    r.key = c.key ∧ f ∈ r.members) ?_ (fun r hr f hf => ⟨r, hr, rfl, hf⟩) c hc f hf
  intro c r hkey hc hr f hf
  rcases ClassRecord.mem_members_absorb hf with h | h
  · exact hc f h
  · obtain ⟨x, hx, hxk, hxf⟩ := hr f h
    exact ⟨x, hx, hxk.trans hkey.symm, hxf⟩

/-- A declaration of a class of the table is one of a record of that class. -/
theorem exists_record_of_mem_declarations {rs : List ClassRecord} {c : ClassRecord}
    {name : String} {f : FunctionKey} (hc : c ∈ (ofRecords rs).records)
    (hf : (name, f) ∈ c.declarations) :
    ∃ r ∈ rs, r.key = c.key ∧ (name, f) ∈ r.declarations := by
  refine forall_records_ofRecords (P := fun c => ∀ p ∈ c.declarations, ∃ r ∈ rs,
    r.key = c.key ∧ p ∈ r.declarations) ?_ (fun r hr p hp => ⟨r, hr, rfl, hp⟩) c hc (name, f) hf
  rintro c r hkey hc hr ⟨n, g⟩ hp
  rcases ClassRecord.mem_declarations_absorb hp with h | h
  · exact hc _ h
  · obtain ⟨x, hx, hxk, hxf⟩ := hr _ h
    exact ⟨x, hx, hxk.trans hkey.symm, hxf⟩

theorem forall_methods_ofRecords {P : MethodDecl → Prop} {rs : List ClassRecord}
    (h : ∀ r ∈ rs, ∀ m ∈ r.methods, P m) :
    ∀ c ∈ (ofRecords rs).records, ∀ m ∈ c.methods, P m := by
  refine forall_records_ofRecords ?_ h
  intro c r _ hc hr m hm
  rcases ClassRecord.mem_methods_absorb hm with h | h
  · exact hc m h
  · exact hr m h

/-! ## Deriving -/

/-- A class of the table is a direct base of a class. -/
def HasBase (t : ClassTable) (key base : String) : Prop := base ∈ t.basesOf key ∧ base ∈ t.keys

/-- A class has another above it, through classes of the table. -/
def DerivesFrom (t : ClassTable) : String → String → Prop := TransGen t.HasBase

theorem mem_basesOf {t : ClassTable} {key base : String} :
    base ∈ t.basesOf key ↔ ∃ c, t.class? key = some c ∧ base ∈ c.baseNames := by
  cases h : t.class? key with
  | none => simp [basesOf, h]
  | some c => simp [basesOf, h]

theorem mem_keys_of_mem_basesOf {t : ClassTable} {key base : String} (h : base ∈ t.basesOf key) :
    key ∈ t.keys := by
  by_contra hk
  rw [basesOf_of_not_mem hk] at h
  exact absurd h List.not_mem_nil

theorem mem_derivedFrom {t : ClassTable} (hk : t.keys.Nodup) {key base : String} :
    key ∈ t.derivedFrom base ↔ base ∈ t.basesOf key := by
  rw [mem_basesOf]
  simp only [derivedFrom, List.mem_map, List.mem_filter, List.contains_iff_mem]
  constructor
  · rintro ⟨c, ⟨hc, hbase⟩, rfl⟩
    exact ⟨c, class?_of_mem hk hc, hbase⟩
  · rintro ⟨c, hc, hbase⟩
    obtain ⟨hmem, hkey⟩ := class?_eq_some hc
    exact ⟨c, ⟨hmem, hbase⟩, hkey⟩

/-- The derived closure of a class of the table is the class and all that derives from it. -/
theorem mem_derivedClosure_iff {t : ClassTable} (hk : t.keys.Nodup) {base key : String}
    (hbase : base ∈ t.keys) :
    key ∈ t.derivedClosure base ↔ ReflTransGen t.HasBase key base := by
  rw [derivedClosure, if_pos (contains_iff.mpr hbase), mem_queueSearch_iff, ← reflTransGen_swap]
  constructor
  · intro h
    -- going up, every class that is met is in the table: the first one is, and then each has
    -- another one derived from it
    have known : ∀ x, ReflTransGen (fun x y => y ∈ t.derivedFrom x) base x → x ∈ t.keys := by
      intro x hx
      cases hx with
      | refl => exact hbase
      | tail _ h => exact t.derivedFrom_subset_keys _ h
    rw [reflTransGen_swap] at h
    induction h with
    | refl => exact .refl
    | tail hpath hstep ih =>
        exact .head ⟨(mem_derivedFrom hk).mp hstep, known _ hpath⟩ ih
  · intro h
    exact ReflTransGen.mono (fun x y hxy => (mem_derivedFrom hk).mpr hxy.1) _ _ h

/-! ## Upward lookup -/

/-- The lookup of a name at or above a class comes to a function.  It goes on to the bases only
from a class that does not declare the name. -/
inductive Finds (t : ClassTable) (name : String) : String → FunctionKey → Prop
  | here {key : String} {f : FunctionKey} : t.declaredIn? key name = some f → Finds t name key f
  | above {key base : String} {f : FunctionKey} : t.declaredIn? key name = none →
      base ∈ t.basesOf key → Finds t name base f → Finds t name key f

theorem declaredIn?_eq_some {t : ClassTable} {key name : String} {f : FunctionKey} :
    t.declaredIn? key name = some f ↔ ∃ c, t.class? key = some c ∧ c.declares? name = some f := by
  simp [declaredIn?, Option.bind_eq_some_iff]

theorem Finds.known {t : ClassTable} {name key : String} {f : FunctionKey}
    (h : t.Finds name key f) : key ∈ t.keys := by
  cases h with
  | here h =>
      obtain ⟨c, hc, -⟩ := declaredIn?_eq_some.mp h
      exact mem_keys_of_class? hc
  | above _ hbase _ => exact mem_keys_of_mem_basesOf hbase

/-- What a lookup finds is declared by a class at or above the one it starts from. -/
theorem Finds.exists_class {t : ClassTable} {name key : String} {f : FunctionKey}
    (h : t.Finds name key f) :
    ∃ c, t.class? c.key = some c ∧ c.declares? name = some f ∧
      ReflTransGen t.HasBase key c.key := by
  induction h with
  | here h =>
      obtain ⟨c, hc, hf⟩ := declaredIn?_eq_some.mp h
      obtain ⟨-, rfl⟩ := class?_eq_some hc
      exact ⟨c, hc, hf, .refl⟩
  | above _ hbase hfinds ih =>
      obtain ⟨c, hc, hf, hpath⟩ := ih
      exact ⟨c, hc, hf, .head ⟨hbase, hfinds.known⟩ hpath⟩

/-- A class that declares the name finds its own declaration and no other. -/
theorem finds_iff_of_declares {t : ClassTable} {name key : String} {f g : FunctionKey}
    (h : t.declaredIn? key name = some g) : t.Finds name key f ↔ f = g := by
  constructor
  · intro hf
    cases hf with
    | here hf => exact Option.some.inj (hf.symm.trans h)
    | above hnone => exact absurd (h.symm.trans hnone) (by simp)
  · rintro rfl
    exact .here h

/-- The state of a walk up from some classes: whatever a visited class declares was found, and
if it declares nothing then its bases were visited or wait on the stack. -/
def WalkedUp (t : ClassTable) (name : String) (stack visited : List String)
    (found : List FunctionKey) : Prop :=
  ∀ key ∈ visited, (∃ f ∈ found, t.declaredIn? key name = some f) ∨
    t.declaredIn? key name = none ∧ ∀ base ∈ t.basesOf key, base ∈ visited ∨ base ∈ stack

/-- When nothing is left on the stack, all that the visited classes find was found. -/
theorem WalkedUp.finds {t : ClassTable} {name : String} {visited : List String}
    {found : List FunctionKey} (h : WalkedUp t name [] visited found) {key : String}
    {f : FunctionKey} (hf : t.Finds name key f) (hkey : key ∈ visited) : f ∈ found := by
  induction hf with
  | @here key f hdecl =>
      rcases h key hkey with ⟨g, hg, hdecl'⟩ | ⟨hnone, -⟩
      · exact Option.some.inj (hdecl'.symm.trans hdecl) ▸ hg
      · exact absurd (hdecl.symm.trans hnone) (by simp)
  | @above key base f hnone hbase _ ih =>
      rcases h key hkey with ⟨g, -, hdecl⟩ | ⟨-, hbases⟩
      · exact absurd (hdecl.symm.trans hnone) (by simp)
      · exact ih ((hbases base hbase).resolve_right List.not_mem_nil)

/-- A walk up finds, besides what was found before, exactly what the classes on its stack and
the visited ones find. -/
theorem mem_nearestFrom_iff {t : ClassTable} {name : String} {f : FunctionKey}
    (stack visited : List String) (found : List FunctionKey)
    (hwalk : WalkedUp t name stack visited found)
    (hfound : ∀ g ∈ found, ∃ key ∈ visited, t.Finds name key g) :
    f ∈ t.nearestFrom name stack visited found ↔
      ∃ key, (key ∈ visited ∨ key ∈ stack) ∧ t.Finds name key f := by
  fun_induction t.nearestFrom name stack visited found with
  | case1 visited found =>
      constructor
      · intro h
        obtain ⟨key, hkey, hf⟩ := hfound f h
        exact ⟨key, Or.inl hkey, hf⟩
      · rintro ⟨key, hkey, hf⟩
        exact hwalk.finds hf (hkey.resolve_right List.not_mem_nil)
  | case2 visited found key rest hkey ih =>
      have hwalk' : WalkedUp t name rest visited found := by
        intro x hx
        refine (hwalk x hx).imp id (And.imp_right fun h base hbase => ?_)
        rcases h base hbase with hb | hb
        · exact Or.inl hb
        · rcases List.mem_cons.mp hb with rfl | hb
          · exact Or.inl hkey
          · exact Or.inr hb
      rw [ih hwalk' hfound]
      refine exists_congr fun x => and_congr_left fun _ => ?_
      rw [List.mem_cons]
      constructor
      · exact Or.imp id Or.inr
      · rintro (h | rfl | h)
        · exact Or.inl h
        · exact Or.inl hkey
        · exact Or.inr h
  | case3 visited found key rest hkey g hg ih =>
      have hmem : ∀ x ∈ found, x ∈ (if g ∈ found then found else found ++ [g]) := by
        intro x hx
        split
        · exact hx
        · exact List.mem_append_left _ hx
      have hnew : g ∈ (if g ∈ found then found else found ++ [g]) := by
        split
        · assumption
        · exact List.mem_append_right _ List.mem_cons_self
      have hwalk' : WalkedUp t name rest (key :: visited)
          (if g ∈ found then found else found ++ [g]) := by
        intro x hx
        rcases List.mem_cons.mp hx with rfl | hx
        · exact Or.inl ⟨g, hnew, hg⟩
        · refine (hwalk x hx).imp (fun ⟨f, hf, hd⟩ => ⟨f, hmem f hf, hd⟩)
            (And.imp_right fun h base hbase => ?_)
          rcases h base hbase with hb | hb
          · exact Or.inl (List.mem_cons_of_mem _ hb)
          · rcases List.mem_cons.mp hb with rfl | hb
            · exact Or.inl List.mem_cons_self
            · exact Or.inr hb
      have hfound' : ∀ x ∈ (if g ∈ found then found else found ++ [g]),
          ∃ y ∈ key :: visited, t.Finds name y x := by
        intro x hx
        have hx' : x ∈ found ∨ x = g := by
          split at hx
          · exact Or.inl hx
          · simpa using hx
        rcases hx' with hx | rfl
        · obtain ⟨y, hy, hf⟩ := hfound x hx
          exact ⟨y, List.mem_cons_of_mem _ hy, hf⟩
        · exact ⟨key, List.mem_cons_self, .here hg⟩
      simp only [dite_eq_ite] at ih
      rw [ih hwalk' hfound']
      refine exists_congr fun x => and_congr_left fun _ => ?_
      simp only [List.mem_cons]
      tauto
  | case4 visited found key rest hkey hnone ih =>
      have hwalk' : WalkedUp t name (t.basesOf key ++ rest) (key :: visited) found := by
        intro x hx
        rcases List.mem_cons.mp hx with rfl | hx
        · exact Or.inr ⟨hnone, fun base hbase => Or.inr (List.mem_append_left _ hbase)⟩
        · refine (hwalk x hx).imp id (And.imp_right fun h base hbase => ?_)
          rcases h base hbase with hb | hb
          · exact Or.inl (List.mem_cons_of_mem _ hb)
          · rcases List.mem_cons.mp hb with rfl | hb
            · exact Or.inl List.mem_cons_self
            · exact Or.inr (List.mem_append_right _ hb)
      have hfound' : ∀ x ∈ found, ∃ y ∈ key :: visited, t.Finds name y x := by
        intro x hx
        obtain ⟨y, hy, hf⟩ := hfound x hx
        exact ⟨y, List.mem_cons_of_mem _ hy, hf⟩
      rw [ih hwalk' hfound']
      constructor
      · rintro ⟨x, hx, hf⟩
        simp only [List.mem_cons, List.mem_append] at hx
        rcases hx with (rfl | hx) | hx | hx
        · exact ⟨x, Or.inr List.mem_cons_self, hf⟩
        · exact ⟨x, Or.inl hx, hf⟩
        · exact ⟨key, Or.inr List.mem_cons_self, .above hnone hx hf⟩
        · exact ⟨x, Or.inr (List.mem_cons_of_mem _ hx), hf⟩
      · rintro ⟨x, hx, hf⟩
        refine ⟨x, ?_, hf⟩
        simp only [List.mem_cons, List.mem_append] at hx ⊢
        tauto

/-- The nearest declarations are those that the upward lookup finds. -/
theorem mem_nearest_iff {t : ClassTable} {key name : String} {f : FunctionKey} :
    f ∈ t.nearest key name ↔ t.Finds name key f := by
  rw [nearest, mem_nearestFrom_iff [key] [] [] (fun _ h => absurd h List.not_mem_nil)
    (fun _ h => absurd h List.not_mem_nil)]
  simp

/-! ## Bases before derived classes -/

/-- A list of classes, each of them once and after its bases. -/
inductive Ordered (t : ClassTable) : List String → Prop
  | nil : Ordered t []
  | snoc {done : List String} {key : String} : Ordered t done → key ∉ done →
      (∀ base, t.HasBase key base → base ∈ done) → Ordered t (done ++ [key])

/-- The state of a depth-first walk.  A class on the path is not done, and each of its bases is
still to be looked at, or done, or the class next on the path. -/
def OnTheWay (t : ClassTable) (done : List String) :
    (above : Option String) → List (String × List String) → Prop
  | _, [] => True
  | above, (key, bases) :: rest =>
      key ∉ done ∧ key ∉ onPath rest ∧
        (∀ base, t.HasBase key base → base ∈ bases ∨ base ∈ done ∨ above = some base) ∧
        OnTheWay t done (some key) rest

theorem OnTheWay.extend {t : ClassTable} {done : List String} {key : String} :
    ∀ {path : List (String × List String)} {above : Option String},
      key ∉ onPath path → OnTheWay t done above path → OnTheWay t (done ++ [key]) above path
  | [], _, _, _ => trivial
  | (k, bases) :: rest, above, hkey, ⟨hdone, hpath, hbases, hrest⟩ => by
      simp only [onPath, List.map_cons, List.mem_cons, not_or] at hkey
      refine ⟨?_, hpath, fun base hb => ?_, hrest.extend hkey.2⟩
      · simp only [List.mem_append, List.mem_singleton, not_or]
        exact ⟨hdone, fun h => hkey.1 h.symm⟩
      · exact (hbases base hb).imp_right (Or.imp_left (List.mem_append_left _))

/-- The class at the top of the path is done, so the one below it need no longer wait for it. -/
theorem OnTheWay.pop {t : ClassTable} {done : List String} {key : String}
    {path : List (String × List String)} (hkey : key ∉ onPath path)
    (h : OnTheWay t done (some key) path) : OnTheWay t (done ++ [key]) none path := by
  cases path with
  | nil => trivial
  | cons entry rest =>
      obtain ⟨hdone, hpath, hbases, hrest⟩ := h.extend hkey
      refine ⟨hdone, hpath, fun base hb => ?_, hrest⟩
      rcases hbases base hb with h | h | h
      · exact Or.inl h
      · exact Or.inr (Or.inl h)
      · obtain rfl := Option.some.inj h
        exact Or.inr (Or.inl (List.mem_append_right _ List.mem_cons_self))

/-- A walk that comes to an end lists the classes on its path after those done before. -/
theorem ordered_of_walk {t : ClassTable} {order : List String}
    (path : List (String × List String)) (done : List String) (hdone : t.Ordered done)
    (hpath : OnTheWay t done none path) (h : t.walk path done = .ok order) :
    t.Ordered order ∧ done ⊆ order ∧ onPath path ⊆ order := by
  fun_induction t.walk path done with
  | case1 done =>
      obtain rfl := Except.ok.inj h
      exact ⟨hdone, fun _ hx => hx, fun _ hx => absurd hx List.not_mem_nil⟩
  | case2 done key rest ih =>
      obtain ⟨hnew, hkey, hbases, hrest⟩ := hpath
      have hordered : t.Ordered (done ++ [key]) := by
        refine .snoc hdone hnew fun base hb => ?_
        rcases hbases base hb with h | h | h
        · exact absurd h List.not_mem_nil
        · exact h
        · exact absurd h (by simp)
      obtain ⟨hord, hsub, hon⟩ := ih hordered (hrest.pop hkey) h
      refine ⟨hord, fun x hx => hsub (List.mem_append_left _ hx), fun x hx => ?_⟩
      rcases List.mem_cons.mp hx with rfl | hx
      · exact hsub (List.mem_append_right _ List.mem_cons_self)
      · exact hon hx
  | case3 done key base bases rest hunknown ih =>
      obtain ⟨hnew, hkey, hbases, hrest⟩ := hpath
      refine ih hdone ⟨hnew, hkey, fun b hb => ?_, hrest⟩ h
      refine (hbases b hb).imp_left fun hmem => ?_
      rcases List.mem_cons.mp hmem with rfl | hmem
      · exact absurd hb.2 hunknown
      · exact hmem
  | case4 => exact absurd h (by simp)
  | case5 done key base bases rest hknown hfree hbase ih =>
      obtain ⟨hnew, hkey, hbases, hrest⟩ := hpath
      refine ih hdone ⟨hnew, hkey, fun b hb => ?_, hrest⟩ h
      rcases hbases b hb with hmem | hmem
      · rcases List.mem_cons.mp hmem with rfl | hmem
        · exact Or.inr (Or.inl hbase)
        · exact Or.inl hmem
      · exact Or.inr hmem
  | case6 done key base bases rest hknown hfree hbase ih =>
      obtain ⟨hnew, hkey, hbases, hrest⟩ := hpath
      have hpush : OnTheWay t done none ((base, t.basesOf base) :: (key, bases) :: rest) := by
        refine ⟨hbase, hfree, fun b hb => Or.inl hb.1, hnew, hkey, fun b hb => ?_, hrest⟩
        rcases hbases b hb with hmem | hmem | hmem
        · rcases List.mem_cons.mp hmem with rfl | hmem
          · exact Or.inr (Or.inr rfl)
          · exact Or.inl hmem
        · exact Or.inr (Or.inl hmem)
        · exact absurd hmem (by simp)
      obtain ⟨hord, hsub, hon⟩ := ih hdone hpush h
      exact ⟨hord, hsub, fun x hx => hon (List.mem_cons_of_mem _ hx)⟩

theorem ordered_of_walkFrom {t : ClassTable} {done order : List String} {root : String}
    (hdone : t.Ordered done) (h : t.walkFrom done root = .ok order) :
    t.Ordered order ∧ done ⊆ order ∧ root ∈ order := by
  rw [walkFrom] at h
  split at h
  · next hroot =>
    obtain rfl := Except.ok.inj h
    exact ⟨hdone, fun _ hx => hx, hroot⟩
  · next hroot =>
    have hpath : OnTheWay t done none [(root, t.basesOf root)] :=
      ⟨hroot, List.not_mem_nil, fun b hb => Or.inl hb.1, trivial⟩
    obtain ⟨hord, hsub, hon⟩ := ordered_of_walk _ _ hdone hpath h
    exact ⟨hord, hsub, hon List.mem_cons_self⟩

theorem ordered_of_foldlM {t : ClassTable} {order : List String} :
    ∀ {roots done : List String}, t.Ordered done → roots.foldlM t.walkFrom done = .ok order →
      t.Ordered order ∧ done ⊆ order ∧ roots ⊆ order
  | [], done, hdone, h => by
      obtain rfl := Except.ok.inj h
      exact ⟨hdone, fun _ hx => hx, fun _ hx => absurd hx List.not_mem_nil⟩
  | root :: roots, done, hdone, h => by
      rw [List.foldlM_cons] at h
      cases hwalk : t.walkFrom done root with
      | error key =>
          rw [hwalk] at h
          exact absurd h (by simp [bind, Except.bind])
      | ok next =>
          rw [hwalk] at h
          obtain ⟨hnext, hsub, hroot⟩ := ordered_of_walkFrom hdone hwalk
          obtain ⟨hord, hsub', hroots⟩ := ordered_of_foldlM hnext h
          refine ⟨hord, fun x hx => hsub' (hsub hx), fun x hx => ?_⟩
          rcases List.mem_cons.mp hx with rfl | hx
          · exact hsub' hroot
          · exact hroots hx

/-- The order of a table has every class once, after its bases. -/
theorem ordered_basesFirst {t : ClassTable} {order : List String}
    (h : t.basesFirst = .ok order) : t.Ordered order ∧ t.keys ⊆ order := by
  obtain ⟨hord, -, hkeys⟩ := ordered_of_foldlM .nil h
  exact ⟨hord, hkeys⟩

/-- In an ordered list, the classes above a class are in it and are others. -/
theorem Ordered.above {t : ClassTable} {order : List String} (h : t.Ordered order)
    {key base : String} (hkey : key ∈ order) (hbase : t.DerivesFrom key base) :
    base ∈ order ∧ base ≠ key := by
  induction h generalizing key base with
  | nil => exact absurd hkey List.not_mem_nil
  | @snoc done last hdone hlast hbases ih =>
      rcases List.mem_append.mp hkey with hkey | hkey
      · obtain ⟨hmem, hne⟩ := ih hkey hbase
        exact ⟨List.mem_append_left _ hmem, hne⟩
      · obtain rfl := List.mem_singleton.mp hkey
        -- the first base on the way up is done, and so is all that is above it
        obtain ⟨first, hfirst, hpath⟩ := TransGen.head'_iff.mp hbase
        have hin := hbases first hfirst
        have hmem : base ∈ done := by
          rcases reflTransGen_iff_eq_or_transGen.mp hpath with rfl | hpath
          · exact hin
          · exact (ih hin hpath).1
        exact ⟨List.mem_append_left _ hmem, fun he => hlast (he ▸ hmem)⟩

/-- In a table that can be ordered, no class derives from itself. -/
theorem Ordered.derivesFrom_irrefl {t : ClassTable} {order : List String} (h : t.Ordered order)
    (hall : t.keys ⊆ order) {key : String} : ¬ t.DerivesFrom key key := by
  intro hself
  obtain ⟨first, hfirst, -⟩ := TransGen.head'_iff.mp hself
  have hkey : key ∈ order := hall (mem_keys_of_mem_basesOf hfirst.1)
  exact (h.above hkey hself).2 rfl

end ClassTable

end CallGraphs
