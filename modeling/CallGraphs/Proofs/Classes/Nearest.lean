import CallGraphs.Proofs.Classes.Lifetimes

/-!
# Nearest declarations

The upward lookup looks at a class once, on whichever path it first comes to it.
This module says path by path what it finds.

* `ClassTable.LeadsUp` is one step of a path: from a class that does not declare the
  name to one of its bases.  The lookup finds what is declared where such a path ends
  (`ClassTable.finds_iff_leadsUp`).
* `ClassTable.declarationsAlong` is the depth-first walk over all paths, which knows of no
  class but those on its own path.  The lookup gives what this walk meets, in that
  order and each function once (`ClassTable.nearestFrom_eq`).  In a table that can be
  ordered no path comes back to a class, and the walk is the plain recursion over bases
  (`ClassTable.walksUp_declarationsAlong`).

A class that is left out because another path came to it has all of its declarations
found already, or is on the path itself (`ClassTable.Along.found_of_visited`).
-/

namespace CallGraphs

open Relation

/-! ## First occurrences -/

section FirstOccurrences

variable {α : Type} [DecidableEq α]

theorem eraseDups_concat (l : List α) (a : α) :
    (l ++ [a]).eraseDups = if a ∈ l.eraseDups then l.eraseDups else l.eraseDups ++ [a] := by
  rw [List.eraseDups_append]
  by_cases ha : a ∈ l
  · simp [List.removeAll, ha]
  · simp [List.removeAll, ha, List.eraseDups_cons]

/-- Nothing new occurs among elements that all occurred before. -/
theorem eraseDups_append_of_subset {l old : List α} (hold : old ⊆ l) (rest : List α) :
    (l ++ (old ++ rest)).eraseDups = (l ++ rest).eraseDups := by
  have hnone : old.removeAll l = [] := by
    refine List.filter_eq_nil_iff.mpr fun a ha => ?_
    simpa using hold ha
  rw [List.eraseDups_append, List.eraseDups_append, List.removeAll, List.filter_append,
    ← List.removeAll, ← List.removeAll, hnone, List.nil_append]

end FirstOccurrences

/-! ## Paths -/

/-- A class declares a function under a name: its destructor under `~`, and under any other name
the first of its methods of that name. -/
inductive ClassRecord.Declares (c : ClassRecord) : String → FunctionKey → Prop
  | destructor {d : DestructorDecl} : c.destructor = some d →
      c.Declares destructorName d.function
  | method {name : String} {f : FunctionKey} {before after : List MethodDecl} :
      name ≠ destructorName → c.methods = before ++ ⟨name, f⟩ :: after →
      (∀ m ∈ before, m.name ≠ name) → c.Declares name f

theorem ClassRecord.declares?_eq_some_iff {c : ClassRecord} {name : String} {f : FunctionKey} :
    c.declares? name = some f ↔ c.Declares name f := by
  rw [declares?]
  constructor
  · intro h
    split at h
    · next hname =>
      obtain ⟨d, hd, rfl⟩ := Option.map_eq_some_iff.mp h
      exact hname ▸ .destructor hd
    · next hname =>
      obtain ⟨⟨n, g⟩, hm, rfl⟩ := Option.map_eq_some_iff.mp h
      obtain ⟨hn, before, after, hmethods, hbefore⟩ := List.find?_eq_some_iff_append.mp hm
      obtain rfl : n = name := by simpa using hn
      exact .method hname hmethods fun m hm => by simpa using hbefore m hm
  · intro h
    cases h with
    | destructor hd => rw [if_pos rfl, hd, Option.map_some]
    | @method _ _ before after hname hmethods hbefore =>
        have hfirst : c.methods.find? (·.name = name) = some ⟨name, f⟩ :=
          List.find?_eq_some_iff_append.mpr
            ⟨by simp, before, after, hmethods, fun m hm => by simpa using hbefore m hm⟩
        rw [if_neg hname, method?, hfirst, Option.map_some]

namespace ClassTable

/-- `ClassRecord.Declares` for a class of the table. -/
def Declares (t : ClassTable) (key name : String) (f : FunctionKey) : Prop :=
  ∃ c, t.class? key = some c ∧ c.Declares name f

/-- A path on which a name is looked up goes on to a base, known or not, from a class of the table
that does not declare the name. -/
def LeadsUp (t : ClassTable) (name key base : String) : Prop :=
  (∀ f, ¬ t.Declares key name f) ∧ ∃ c, t.class? key = some c ∧ base ∈ c.baseNames

theorem declaredIn?_eq_some_iff {t : ClassTable} {key name : String} {f : FunctionKey} :
    t.declaredIn? key name = some f ↔ t.Declares key name f := by
  rw [declaredIn?_eq_some]
  exact exists_congr fun _ => and_congr_right fun _ => ClassRecord.declares?_eq_some_iff

theorem leadsUp_iff {t : ClassTable} {name key base : String} :
    t.LeadsUp name key base ↔ t.declaredIn? key name = none ∧ base ∈ t.basesOf key := by
  rw [LeadsUp, mem_basesOf, Option.eq_none_iff_forall_ne_some]
  exact and_congr_left fun _ => forall_congr' fun _ => not_congr declaredIn?_eq_some_iff.symm

/-- The upward lookup finds what is declared at the end of a path that no declaration stops
before. -/
theorem finds_iff_leadsUp {t : ClassTable} {name key : String} {f : FunctionKey} :
    t.Finds name key f ↔ ∃ last, ReflTransGen (t.LeadsUp name) key last ∧
      t.Declares last name f := by
  constructor
  · intro h
    induction h with
    | here hdecl => exact ⟨_, .refl, declaredIn?_eq_some_iff.mp hdecl⟩
    | above hnone hbase _ ih =>
        obtain ⟨last, hpath, hdecl⟩ := ih
        exact ⟨last, .head (leadsUp_iff.mpr ⟨hnone, hbase⟩) hpath, hdecl⟩
  · rintro ⟨last, hpath, hdecl⟩
    induction hpath using ReflTransGen.head_induction_on with
    | refl => exact .here (declaredIn?_eq_some_iff.mpr hdecl)
    | head hstep _ ih =>
        obtain ⟨hnone, hbase⟩ := leadsUp_iff.mp hstep
        exact .above hnone hbase ih

/-! ## The walk over all paths -/

/-- What a depth-first walk over the bases of a class meets on all paths up, each base in its place
and each path as far as the first class that declares the name.  The walk has come by a path of
classes that it does not go around again. -/
def declarationsAlong (t : ClassTable) (name : String) (path : List String) (key : String) :
    List FunctionKey :=
  match _h : t.class? key with
  | none => []
  | some c =>
    match c.declares? name with
    | some function => [function]
    | none =>
      if key ∈ path then []
      else c.baseNames.flatMap fun base => t.declarationsAlong name (key :: path) base
termination_by unseen t.keys path
decreasing_by exact unseen_cons_lt (mem_keys_of_class? _h) (by assumption)

theorem declarationsAlong_eq (t : ClassTable) (name : String) (path : List String) (key : String) :
    t.declarationsAlong name path key =
      match t.declaredIn? key name with
      | some function => [function]
      | none => if key ∈ path then []
        else (t.basesOf key).flatMap (t.declarationsAlong name (key :: path)) := by
  rw [declarationsAlong]
  split
  · next hc => simp [declaredIn?, basesOf, hc]
  · next c hc =>
    simp only [declaredIn?, basesOf, hc, Option.bind_some, Option.map_some, Option.getD_some]

theorem declarationsAlong_of_declared {t : ClassTable} {name key : String} {f : FunctionKey}
    (hdecl : t.declaredIn? key name = some f) (path : List String) :
    t.declarationsAlong name path key = [f] := by
  rw [declarationsAlong_eq, hdecl]

/-- The state of a walk with visited classes, when each class on the stack comes with the path that
leads to it. -/
structure Along (t : ClassTable) (name : String) (stack : List (String × List String))
    (visited : List String) (found : List FunctionKey) : Prop where
  /-- What a visited class declares was found.  If it declares nothing, each of its bases was
  visited or waits on the stack, at the end of a path through the class. -/
  served : ∀ key ∈ visited, (∃ f ∈ found, t.declaredIn? key name = some f) ∨
    t.declaredIn? key name = none ∧
      ∀ base ∈ t.basesOf key, base ∈ visited ∨ ∃ path, (base, key :: path) ∈ stack
  /-- The classes on the paths were visited. -/
  behind : ∀ entry ∈ stack, entry.2 ⊆ visited
  /-- The path of a class on the stack branched off the paths of those above it. -/
  nested : stack.Pairwise fun upper lower => lower.2 ⊆ upper.2

namespace Along

variable {t : ClassTable} {name key : String} {path visited : List String}
  {stack : List (String × List String)} {found : List FunctionKey}

theorem start (t : ClassTable) (name key : String) : t.Along name [(key, [])] [] [] where
  served := fun _ h => absurd h List.not_mem_nil
  behind := fun entry hentry => by
    obtain rfl := List.mem_singleton.mp hentry
    exact List.nil_subset _
  nested := List.pairwise_singleton _ _

/-- All that the walk over all paths meets at a visited class was found.  Only a class on the path
of the next entry has bases that still wait, and there the walk turns back. -/
theorem found_of_visited (h : t.Along name ((key, path) :: stack) visited found)
    {longer : List String} (hlonger : path ⊆ longer) {other : String} (hother : other ∈ visited) :
    t.declarationsAlong name longer other ⊆ found := by
  fun_induction t.declarationsAlong name longer other with
  | case1 longer other hc => exact List.nil_subset _
  | case2 longer other c hc f hf =>
      have hdecl : t.declaredIn? other name = some f := declaredIn?_eq_some.mpr ⟨c, hc, hf⟩
      rcases h.served other hother with ⟨g, hg, hdecl'⟩ | ⟨hnone, -⟩
      · obtain rfl := Option.some.inj (hdecl'.symm.trans hdecl)
        exact List.cons_subset.mpr ⟨hg, List.nil_subset _⟩
      · exact absurd (hdecl.symm.trans hnone) (by simp)
  | case3 longer other c hc hf hmem => exact List.nil_subset _
  | case4 longer other c hc hf hnew ih =>
      have hnone : t.declaredIn? other name = none := by rw [declaredIn?, hc, Option.bind_some, hf]
      intro f hf
      obtain ⟨base, hbase, hf⟩ := List.mem_flatMap.mp hf
      refine ih base (fun x hx => List.mem_cons_of_mem _ (hlonger hx)) ?_ hf
      rcases h.served other hother with ⟨g, -, hdecl⟩ | ⟨-, hbases⟩
      · exact absurd (hdecl.symm.trans hnone) (by simp)
      · rcases hbases base (mem_basesOf.mpr ⟨c, hc, hbase⟩) with hvisited | ⟨rest, hwaits⟩
        · exact hvisited
        · -- a base that waits puts the class on the path of the next entry
          refine absurd (hlonger ?_) hnew
          rcases List.mem_cons.mp hwaits with hnext | hlater
          · obtain ⟨-, rfl⟩ := Prod.mk.inj hnext
            exact List.mem_cons_self
          · exact (List.pairwise_cons.mp h.nested).1 _ hlater List.mem_cons_self

/-- What the visited classes wait for, when the next entry leaves the stack. -/
theorem served_pop (h : t.Along name ((key, path) :: stack) visited found) {other : String}
    (hother : other ∈ visited) : (∃ f ∈ found, t.declaredIn? other name = some f) ∨
      t.declaredIn? other name = none ∧ ∀ base ∈ t.basesOf other,
        base ∈ key :: visited ∨ ∃ path, (base, other :: path) ∈ stack := by
  refine (h.served other hother).imp id (And.imp_right fun hbases base hbase => ?_)
  rcases hbases base hbase with hb | ⟨rest, hwaits⟩
  · exact Or.inl (List.mem_cons_of_mem _ hb)
  · rcases List.mem_cons.mp hwaits with hnext | hlater
    · exact Or.inl ((Prod.mk.inj hnext).1 ▸ List.mem_cons_self)
    · exact Or.inr ⟨rest, hlater⟩

/-- A class that was visited before is left out. -/
theorem skip (h : t.Along name ((key, path) :: stack) visited found) (hkey : key ∈ visited) :
    t.Along name stack visited found where
  served := by
    intro other hother
    refine (h.served_pop hother).imp id (And.imp_right fun hbases base hbase => ?_)
    exact (hbases base hbase).imp_left (List.cons_subset.mpr ⟨hkey, List.Subset.refl _⟩ ·)
  behind := fun entry hentry => h.behind entry (List.mem_cons_of_mem _ hentry)
  nested := (List.pairwise_cons.mp h.nested).2

/-- A class is visited: what it declares is found, or its bases go onto the stack. -/
theorem visit (h : t.Along name ((key, path) :: stack) visited found)
    (more : List (String × List String)) {found' : List FunctionKey} (hfound : found ⊆ found')
    (hmore : ∀ entry ∈ more, entry.2 = key :: path)
    (hkey : (∃ f ∈ found', t.declaredIn? key name = some f) ∨ t.declaredIn? key name = none ∧
      ∀ base ∈ t.basesOf key, (base, key :: path) ∈ more) :
    t.Along name (more ++ stack) (key :: visited) found' where
  served := by
    intro other hother
    rcases List.mem_cons.mp hother with rfl | hother
    · exact hkey.imp id (And.imp_right fun hbases base hbase =>
        Or.inr ⟨path, List.mem_append_left _ (hbases base hbase)⟩)
    · refine (h.served_pop hother).imp (fun ⟨f, hf, hdecl⟩ => ⟨f, hfound hf, hdecl⟩)
        (And.imp_right fun hbases base hbase => ?_)
      exact (hbases base hbase).imp_right fun ⟨rest, hwaits⟩ =>
        ⟨rest, List.mem_append_right _ hwaits⟩
  behind := by
    intro entry hentry
    rcases List.mem_append.mp hentry with hnew | hold
    · rw [hmore entry hnew]
      exact List.cons_subset_cons key (h.behind (key, path) List.mem_cons_self)
    · exact List.subset_cons_of_subset key (h.behind entry (List.mem_cons_of_mem _ hold))
  nested := by
    obtain ⟨hbranch, hnested⟩ := List.pairwise_cons.mp h.nested
    refine List.pairwise_append.mpr ⟨?_, hnested, fun upper hupper lower hlower => ?_⟩
    · refine List.pairwise_of_forall_mem_list fun upper hupper lower hlower => ?_
      rw [hmore upper hupper, hmore lower hlower]
      exact List.Subset.refl _
    · rw [hmore upper hupper]
      exact List.subset_cons_of_subset key (hbranch lower hlower)

/-- A class that declares the name ends its path. -/
theorem declared (h : t.Along name ((key, path) :: stack) visited found)
    {found' : List FunctionKey} {f : FunctionKey} (hfound : found ⊆ found') (hf : f ∈ found')
    (hdecl : t.declaredIn? key name = some f) : t.Along name stack (key :: visited) found' :=
  h.visit [] hfound (fun _ hentry => absurd hentry List.not_mem_nil)
    (Or.inl ⟨f, hf, hdecl⟩)

/-- From a class that does not declare the name, the path goes on to each of the bases. -/
theorem up (h : t.Along name ((key, path) :: stack) visited found)
    (hnone : t.declaredIn? key name = none) :
    t.Along name ((t.basesOf key).map (·, key :: path) ++ stack) (key :: visited) found := by
  refine h.visit _ (List.Subset.refl _) (fun entry hentry => ?_)
    (Or.inr ⟨hnone, fun base hbase => List.mem_map_of_mem hbase⟩)
  obtain ⟨base, -, rfl⟩ := List.mem_map.mp hentry
  rfl

end Along

/-- The walk with visited classes finds, each once and in the same order, what the walk over all
paths meets. -/
theorem nearestFrom_eq {t : ClassTable} {name : String} (entries : List (String × List String))
    (visited : List String) (met : List FunctionKey)
    (h : t.Along name entries visited met.eraseDups) :
    t.nearestFrom name (entries.map (·.1)) visited met.eraseDups =
      (met ++ entries.flatMap fun entry => t.declarationsAlong name entry.2 entry.1).eraseDups := by
  -- the induction keeps all that was met, repetitions included, behind what was found
  generalize hstack : entries.map (·.1) = stack
  generalize hfound : met.eraseDups = found at h ⊢
  fun_induction t.nearestFrom name stack visited found generalizing entries met with
  | case1 visited found =>
      obtain rfl := List.map_eq_nil_iff.mp hstack
      rw [List.flatMap_nil, List.append_nil, hfound]
  | case2 visited found key rest hkey ih =>
      obtain ⟨⟨k, path⟩, entries, rfl, rfl, rfl⟩ := List.map_eq_cons_iff.mp hstack
      rw [ih entries met rfl hfound (h.skip hkey), List.flatMap_cons, eraseDups_append_of_subset]
      -- what the entry that is left out would meet was met before
      intro f hf
      exact List.mem_eraseDups.mp (hfound ▸ h.found_of_visited (List.Subset.refl _) hkey hf)
  | case3 visited found key rest hkey f hf ih =>
      obtain ⟨⟨k, path⟩, entries, rfl, rfl, rfl⟩ := List.map_eq_cons_iff.mp hstack
      simp only [dite_eq_ite] at ih
      have hmet : (met ++ [f]).eraseDups = if f ∈ found then found else found ++ [f] := by
        rw [eraseDups_concat, hfound]
      have hsub : found ⊆ (met ++ [f]).eraseDups := by
        intro g hg
        rw [← hfound, List.mem_eraseDups] at hg
        exact List.mem_eraseDups.mpr (List.mem_append_left _ hg)
      have hmem : f ∈ (met ++ [f]).eraseDups := by simp
      rw [ih entries (met ++ [f]) rfl hmet (hmet ▸ h.declared hsub hmem hf), List.flatMap_cons,
        declarationsAlong_of_declared hf, List.append_assoc]
  | case4 visited found key rest hkey hnone ih =>
      obtain ⟨⟨k, path⟩, entries, rfl, rfl, rfl⟩ := List.map_eq_cons_iff.mp hstack
      have hnew : k ∉ path := fun hmem => hkey (h.behind (k, path) List.mem_cons_self hmem)
      have hbases : ((t.basesOf k).map (·, k :: path)).map (·.1) = t.basesOf k := by
        simp [Function.comp_def]
      rw [ih ((t.basesOf k).map (·, k :: path) ++ entries) met
        (by rw [List.map_append, hbases]) hfound (h.up hnone), List.flatMap_append,
        List.flatMap_map, List.flatMap_cons, declarationsAlong_eq t name path k, hnone]
      simp only [if_neg hnew]

theorem nearest_eq (t : ClassTable) (key name : String) :
    t.nearest key name = (t.declarationsAlong name [] key).eraseDups := by
  have h := nearestFrom_eq [(key, [])] [] [] (Along.start t name key)
  simpa [nearest] using h

/-! ## Where no class derives from itself -/

/-- A chain of bases that ends in a class of the table goes through classes of the table. -/
theorem derivesFrom_of_bases {t : ClassTable} {key last : String} (hlast : last ∈ t.keys)
    (h : TransGen (fun x y => y ∈ t.basesOf x) key last) : t.DerivesFrom key last := by
  induction h using TransGen.head_induction_on with
  | single hbase => exact .single ⟨hbase, hlast⟩
  | head hbase hrest ih =>
      obtain ⟨next, hnext, -⟩ := TransGen.head'_iff.mp hrest
      exact .head ⟨hbase, mem_keys_of_mem_basesOf hnext⟩ ih

/-- The path by which a walk has come makes no difference to it if no chain of bases leads back to
the path. -/
theorem declarationsAlong_congr {t : ClassTable} (hcircle : ∀ key, ¬ t.DerivesFrom key key)
    {name key : String} {path path' : List String}
    (hoff : ∀ k, ReflTransGen (fun x y => y ∈ t.basesOf x) key k → k ∉ path ∧ k ∉ path') :
    t.declarationsAlong name path key = t.declarationsAlong name path' key := by
  fun_induction t.declarationsAlong name path key generalizing path' with
  | case1 path key hc =>
      rw [declarationsAlong_eq, declaredIn?, basesOf, hc]
      simp
  | case2 path key c hc f hf =>
      exact (declarationsAlong_of_declared (declaredIn?_eq_some.mpr ⟨c, hc, hf⟩) path').symm
  | case3 path key c hc hf hmem => exact absurd hmem (hoff key .refl).1
  | case4 path key c hc hf hnew ih =>
      rw [declarationsAlong_eq, declaredIn?, basesOf, hc]
      simp only [Option.bind_some, hf, if_neg (hoff key .refl).2, Option.map_some, Option.getD_some]
      refine List.flatMap_congr fun base hbase => ih base fun k hk => ?_
      have hstep : base ∈ t.basesOf key := mem_basesOf.mpr ⟨c, hc, hbase⟩
      obtain ⟨hpath, hpath'⟩ := hoff k (.head hstep hk)
      have hne : k ≠ key := by
        rintro rfl
        exact hcircle k (derivesFrom_of_bases (mem_keys_of_class? hc) (TransGen.head' hstep hk))
      simp only [List.mem_cons, not_or]
      exact ⟨⟨hne, hpath⟩, hne, hpath'⟩

/-- What a depth-first walk over bases meets above each class: the declaration of the class, and
where there is none all that it meets above the bases, in their order. -/
structure WalksUp (t : ClassTable) (name : String) (walk : String → List FunctionKey) : Prop where
  stops : ∀ key f, t.Declares key name f → walk key = [f]
  goesOn : ∀ key, (∀ f, ¬ t.Declares key name f) → walk key = (t.basesOf key).flatMap walk

theorem walksUp_declarationsAlong {t : ClassTable} {order : List String}
    (h : t.basesFirst = .ok order) (name : String) :
    t.WalksUp name (t.declarationsAlong name []) where
  stops := fun key f hdecl => declarationsAlong_of_declared (declaredIn?_eq_some_iff.mpr hdecl) []
  goesOn := by
    intro key hnone
    obtain ⟨hordered, hall⟩ := ordered_basesFirst h
    have hcircle : ∀ key, ¬ t.DerivesFrom key key := fun _ => hordered.derivesFrom_irrefl hall
    have hnone' : t.declaredIn? key name = none :=
      Option.eq_none_iff_forall_ne_some.mpr fun f hf => hnone f (declaredIn?_eq_some_iff.mp hf)
    rw [declarationsAlong_eq, hnone']
    simp only [List.not_mem_nil, if_false]
    refine List.flatMap_congr fun base hbase => declarationsAlong_congr hcircle fun k hk => ?_
    refine ⟨fun hmem => ?_, List.not_mem_nil⟩
    obtain rfl := List.mem_singleton.mp hmem
    exact hcircle k (derivesFrom_of_bases (mem_keys_of_mem_basesOf hbase) (TransGen.head' hbase hk))

/-! ## Main statement -/

/-- The nearest declarations of a name are, each once, the functions that are declared where a path
of bases ends on which no class before declares the name.  They come in the order in which a
depth-first walk over all paths first meets them; and where the classes can be put in order, bases
first, as those of every hierarchy that was built, that walk is the plain recursion over bases. -/
theorem nearest_exact (t : ClassTable) (name : String) :
    (∀ key, (t.nearest key name).Nodup ∧
      (∀ f, f ∈ t.nearest key name ↔ ∃ last, ReflTransGen (t.LeadsUp name) key last ∧
        t.Declares last name f) ∧
      t.nearest key name = (t.declarationsAlong name [] key).eraseDups) ∧
    ∀ order, t.basesFirst = .ok order → t.WalksUp name (t.declarationsAlong name []) := by
  refine ⟨fun key => ⟨?_, fun f => ?_, nearest_eq t key name⟩,
    fun order horder => walksUp_declarationsAlong horder name⟩
  · rw [nearest_eq]
    exact nodup_eraseDups _
  · rw [mem_nearest_iff, finds_iff_leadsUp]

/-- A button with two bases that share one, an unknown base between them, and a third base that
overrides what the shared one declares. -/
def toolkit : ClassTable := ofRecords
  [{ key := "Object", methods := [⟨"draw", "Object::draw"⟩] },
   { key := "Widget", bases := [{ className := "Object" }] },
   { key := "Focusable", bases := [{ className := "Object" }] },
   { key := "Clickable", bases := [{ className := "Object" }]
     methods := [⟨"draw", "Clickable::draw"⟩] },
   { key := "Button", bases := [{ className := "Widget" }, { className := "Plugin" },
       { className := "Focusable" }, { className := "Clickable" }] }]

/-- Two paths lead to the shared base, and the third one ends before it. -/
theorem toolkit_nearest : (∃ order, toolkit.basesFirst = .ok order ∧
      toolkit.WalksUp "draw" (toolkit.declarationsAlong "draw" [])) ∧
    toolkit.declarationsAlong "draw" [] "Button" =
      ["Object::draw", "Object::draw", "Clickable::draw"] ∧
    toolkit.nearest "Button" "draw" = ["Object::draw", "Clickable::draw"] := by
  obtain ⟨hlookup, hwalk⟩ := nearest_exact toolkit "draw"
  have hmet : toolkit.declarationsAlong "draw" [] "Button" =
      ["Object::draw", "Object::draw", "Clickable::draw"] := by cbv
  obtain ⟨order, horder⟩ : ∃ order, toolkit.basesFirst = .ok order := ⟨_, by cbv⟩
  refine ⟨⟨order, horder, hwalk order horder⟩, hmet, ?_⟩
  rw [(hlookup "Button").2.2, hmet]
  rfl

end ClassTable

end CallGraphs
