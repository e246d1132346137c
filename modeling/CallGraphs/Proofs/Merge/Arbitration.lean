import CallGraphs.Proofs.Merge.Derivation
import CallGraphs.Proofs.Merge.Traits
import Mathlib

/-!
# The first definition is kept

Of the units that define a function, the one with the lowest index gives it its
body (`Merge.FirstDefiner`).  Definitions in later units that are the same count
as duplicates.  Those that differ are excluded and reported, and what is left of
them is a declaration (`Merge.first_definition_kept`).

Arbitration looks at one definition after another.  `Judged` says what it knows
after the definitions in a list; that the list is in the order of the indices
comes in only afterwards, and that no two units have the same index even later.
-/

namespace CallGraphs

open CallGraphs.Graph

/-! ## Definitions -/

section FirstMentions

variable {α κ : Type} [DecidableEq κ] (key : α → κ)

/-- Leaving out later mentions does not change what is found first. -/
theorem find?_appendNew (k : κ) (l acc : List α) :
    (appendNew (fun a b => key a = key b) acc l).find? (key · = k) =
      (acc ++ l).find? (key · = k) := by
  induction l generalizing acc with
  | nil => simp [appendNew]
  | cons x l ih =>
      rw [appendNew, List.foldl_cons]
      refine (ih _).trans ?_
      split
      · next hany =>
        obtain ⟨y, hy, hsame⟩ := List.any_eq_true.mp hany
        rw [List.find?_append, List.find?_append]
        by_cases hx : key x = k
        · have hsome : (acc.find? (key · = k)).isSome :=
            List.find?_isSome.mpr ⟨y, hy, by simp_all⟩
          obtain ⟨z, hz⟩ := Option.isSome_iff_exists.mp hsome
          rw [hz, Option.some_or, Option.some_or]
        · rw [List.find?_cons_of_neg (by simpa using hx)]
      · rw [List.append_assoc, List.singleton_append]

theorem nodup_map_appendNew (l acc : List α) (hacc : (acc.map key).Nodup) :
    ((appendNew (fun a b => key a = key b) acc l).map key).Nodup := by
  induction l generalizing acc with
  | nil => exact hacc
  | cons x l ih =>
      refine ih _ ?_
      dsimp only
      split
      · exact hacc
      · next hnew =>
        rw [List.map_append, List.map_singleton]
        refine List.nodup_append.mpr ⟨hacc, List.nodup_singleton _, ?_⟩
        intro k hk k' hk' heq
        obtain ⟨y, hy, rfl⟩ := List.mem_map.mp hk
        rw [List.mem_singleton.mp hk'] at heq
        exact hnew (List.any_eq_true.mpr ⟨y, hy, by simpa using heq.symm⟩)

/-- Where no two elements have the same key, an element is the one found under its key. -/
theorem find?_eq_some_iff_mem_of_nodup {l : List α} (hl : (l.map key).Nodup) {x : α} :
    l.find? (key · = key x) = some x ↔ x ∈ l := by
  refine ⟨List.mem_of_find?_eq_some, fun hx => ?_⟩
  have hsome : (l.find? (key · = key x)).isSome := List.find?_isSome.mpr ⟨x, hx, by simp⟩
  obtain ⟨y, hy⟩ := Option.isSome_iff_exists.mp hsome
  have hkey : key y = key x := by simpa using List.find?_some hy
  rw [hy, List.inj_on_of_nodup_map hl (List.mem_of_find?_eq_some hy) hx hkey]

end FirstMentions

/-- By what the definition of a function in a unit is known, the first one if there are several. -/
def TranslationUnit.fingerprint? (digest : String → String) (u : TranslationUnit)
    (key : FunctionKey) : Option Fingerprint :=
  (u.functions.find? fun r => r.defined && r.key = key).map (Fingerprint.of digest u)

namespace Arbitration

variable {digest : String → String}

theorem nodup_definitions (rs : List FunctionRecord) :
    ((definitions rs).map (·.key)).Nodup :=
  nodup_map_appendNew FunctionRecord.key _ [] List.nodup_nil

/-- The definitions of a unit are the first records that define a function. -/
theorem mem_definitions_iff {rs : List FunctionRecord} {r : FunctionRecord} :
    r ∈ definitions rs ↔ rs.find? (fun x => x.defined && x.key = r.key) = some r := by
  rw [← find?_eq_some_iff_mem_of_nodup FunctionRecord.key (nodup_definitions rs), definitions,
    find?_appendNew, List.nil_append, List.find?_filter]
  simp

theorem fingerprint?_of_mem_definitions {u : TranslationUnit} {r : FunctionRecord}
    (hr : r ∈ definitions u.functions) : u.fingerprint? digest r.key = some (.of digest u r) := by
  rw [TranslationUnit.fingerprint?, mem_definitions_iff.mp hr, Option.map_some]

/-- A unit has one definition of each function that it defines. -/
theorem defines_iff_exists_definition {u : TranslationUnit} {key : FunctionKey} :
    u.Defines key ↔ ∃ r ∈ definitions u.functions, r.key = key := by
  constructor
  · rintro ⟨r, hr, hdefined, rfl⟩
    have hsome : (u.functions.find? fun x => x.defined && x.key = r.key).isSome :=
      List.find?_isSome.mpr ⟨r, hr, by simp [hdefined]⟩
    obtain ⟨first, hfirst⟩ := Option.isSome_iff_exists.mp hsome
    have hkey : first.key = r.key := by
      have := List.find?_some hfirst
      simp_all
    exact ⟨first, mem_definitions_iff.mpr (hkey ▸ hfirst), hkey⟩
  · rintro ⟨r, hr, rfl⟩
    have hfound := mem_definitions_iff.mp hr
    have hdefined : r.defined = true := by
      have := List.find?_some hfound
      simp_all
    exact ⟨r, List.mem_of_find?_eq_some hfound, hdefined, rfl⟩

/-! ## What arbitration knows -/

/-- A definition: a unit, and the record in it that defines the function. -/
abbrev Entry := UnitGraph × FunctionRecord

/-- The definitions of units, in the order in which they are looked at. -/
def entries (units : List UnitGraph) : List Entry :=
  units.flatMap fun p => (definitions p.unit.functions).map (p, ·)

theorem mem_entries_iff {units : List UnitGraph} {e : Entry} :
    e ∈ entries units ↔ e.1 ∈ units ∧ e.2 ∈ definitions e.1.unit.functions := by
  simp only [entries, List.mem_flatMap, List.mem_map]
  constructor
  · rintro ⟨p, hp, r, hr, rfl⟩
    exact ⟨hp, hr⟩
  · rintro ⟨hp, hr⟩
    exact ⟨e.1, hp, e.2, hr, rfl⟩

/-- By what a definition is known. -/
def Entry.fingerprint (digest : String → String) (e : Entry) : Fingerprint :=
  .of digest e.1.unit e.2

theorem ofUnits_eq_foldl (units : List UnitGraph) :
    ofUnits digest units = (entries units).foldl (fun a e => a.judge digest e.1 e.2) {} := by
  rw [ofUnits, entries, List.foldl_flatMap]
  simp only [List.foldl_map]
  rfl

/-- The definition of a function that comes first in a list. -/
def firstOf (done : List Entry) (key : FunctionKey) : Option Entry := done.find? (·.2.key = key)

theorem firstOf_concat (done : List Entry) (e : Entry) (key : FunctionKey) :
    firstOf (done ++ [e]) key = (firstOf done key).or (if e.2.key = key then some e else none) := by
  rw [firstOf, List.find?_append, List.find?_singleton]
  simp [firstOf]

theorem firstOf_eq_none_iff {done : List Entry} {key : FunctionKey} :
    firstOf done key = none ↔ ∀ e ∈ done, e.2.key ≠ key := by
  simp [firstOf]

/-- What arbitration knows after the definitions in a list. -/
structure Judged (digest : String → String) (done : List Entry) (a : Arbitration) : Prop where
  winner : ∀ key, a.winner? key =
    (firstOf done key).map fun e => ⟨key, e.1.unit.name, e.fingerprint digest⟩
  excluded : ∀ i key, (i, key) ∈ a.excluded ↔ ∃ e ∈ done, e.1.index = i ∧ e.2.key = key ∧
    ∃ first, firstOf done key = some first ∧ first.fingerprint digest ≠ e.fingerprint digest
  conflicts : ∀ e ∈ done, ∀ first, firstOf done e.2.key = some first →
    first.fingerprint digest ≠ e.fingerprint digest →
    .odrConflict e.2.key first.1.unit.name e.1.unit.name ∈ a.conflicts
  counts : a.duplicates + a.excluded.length + a.winners.length = done.length
  distinct : (a.winners.map (·.function)).Nodup
  known : ∀ key, key ∈ a.winners.map (·.function) ↔ ∃ e ∈ done, e.2.key = key

namespace Judged

variable {done : List Entry} {a : Arbitration}

theorem nil : Judged digest [] {} where
  winner _ := rfl
  excluded := by simp
  conflicts := by simp
  counts := rfl
  distinct := List.nodup_nil
  known := by simp

/-- The first definition of a function is kept. -/
theorem keep (h : Judged digest done a) {e : Entry} (hnew : firstOf done e.2.key = none) :
    Judged digest (done ++ [e])
      { a with winners := a.winners ++ [⟨e.2.key, e.1.unit.name, e.fingerprint digest⟩] } := by
  have hfirst : ∀ key, firstOf (done ++ [e]) key =
      if e.2.key = key then some e else firstOf done key := by
    intro key
    rw [firstOf_concat]
    split
    · next hkey => rw [← hkey, hnew, Option.none_or]
    · rw [Option.or_none]
  have hother : ∀ x ∈ done, firstOf (done ++ [e]) x.2.key = firstOf done x.2.key := by
    intro x hx
    rw [hfirst, if_neg (firstOf_eq_none_iff.mp hnew x hx).symm]
  refine ⟨fun key => ?_, fun i key => ?_, fun x hx first hf hne => ?_, ?_, ?_, fun key => ?_⟩
  · rw [winner?, List.find?_append, ← winner?, h.winner, List.find?_singleton, hfirst]
    by_cases hkey : e.2.key = key
    · simp [hkey ▸ hnew, hkey]
    · simp [hkey]
  · rw [h.excluded]
    constructor
    · rintro ⟨x, hx, hi, rfl, hdiffers⟩
      exact ⟨x, List.mem_append_left _ hx, hi, rfl, hother x hx ▸ hdiffers⟩
    · rintro ⟨x, hx, hi, rfl, first, hf, hne⟩
      rcases List.mem_append.mp hx with hx | hx
      · exact ⟨x, hx, hi, rfl, first, hother x hx ▸ hf, hne⟩
      · obtain rfl := List.mem_singleton.mp hx
        rw [hfirst, if_pos rfl] at hf
        exact absurd (congrArg _ (Option.some.inj hf).symm) hne
  · rcases List.mem_append.mp hx with hx | hx
    · exact h.conflicts x hx first (hother x hx ▸ hf) hne
    · obtain rfl := List.mem_singleton.mp hx
      rw [hfirst, if_pos rfl] at hf
      exact absurd (congrArg _ (Option.some.inj hf).symm) hne
  · have := h.counts
    simp only [List.length_append, List.length_singleton]
    omega
  · rw [List.map_append, List.map_singleton]
    refine List.nodup_append.mpr ⟨h.distinct, List.nodup_singleton _, fun k hk k' hk' heq => ?_⟩
    obtain ⟨x, hx, hkey⟩ := (h.known k).mp hk
    rw [List.mem_singleton.mp hk'] at heq
    exact firstOf_eq_none_iff.mp hnew x hx (hkey.trans heq)
  · rw [List.map_append, List.mem_append, h.known]
    simp [or_and_right, exists_or, eq_comm]

/-- A definition of a function that has one already leaves it with that one. -/
theorem firstOf_concat_of_known {e first : Entry} (hfirst : firstOf done e.2.key = some first)
    (key : FunctionKey) : firstOf (done ++ [e]) key = firstOf done key := by
  rw [firstOf_concat]
  split
  · next hkey => rw [← hkey, hfirst, Option.some_or]
  · rw [Option.or_none]

theorem known_concat (h : Judged digest done a) {e first : Entry}
    (hfirst : firstOf done e.2.key = some first) (key : FunctionKey) :
    key ∈ a.winners.map (·.function) ↔ ∃ x ∈ done ++ [e], x.2.key = key := by
  rw [h.known]
  constructor
  · rintro ⟨x, hx, hkey⟩
    exact ⟨x, List.mem_append_left _ hx, hkey⟩
  · rintro ⟨x, hx, hkey⟩
    rcases List.mem_append.mp hx with hx | hx
    · exact ⟨x, hx, hkey⟩
    · obtain rfl := List.mem_singleton.mp hx
      exact ⟨first, List.mem_of_find?_eq_some hfirst, by
        simpa [hkey] using List.find?_some hfirst⟩

/-- A definition that is the same as the one kept is a duplicate. -/
theorem repeated (h : Judged digest done a) {e first : Entry}
    (hfirst : firstOf done e.2.key = some first)
    (hsame : first.fingerprint digest = e.fingerprint digest) :
    Judged digest (done ++ [e]) { a with duplicates := a.duplicates + 1 } := by
  have hstays := firstOf_concat_of_known hfirst
  refine ⟨fun key => ?_, fun i key => ?_, fun x hx f hf hne => ?_, ?_, h.distinct,
    h.known_concat hfirst⟩
  · rw [hstays]
    exact h.winner key
  · rw [h.excluded, hstays]
    constructor
    · rintro ⟨x, hx, hdiffers⟩
      exact ⟨x, List.mem_append_left _ hx, hdiffers⟩
    · rintro ⟨x, hx, hi, rfl, f, hf, hne⟩
      rcases List.mem_append.mp hx with hx | hx
      · exact ⟨x, hx, hi, rfl, f, hf, hne⟩
      · obtain rfl := List.mem_singleton.mp hx
        obtain rfl := Option.some.inj (hfirst.symm.trans hf)
        exact absurd hsame hne
  · rw [hstays] at hf
    rcases List.mem_append.mp hx with hx | hx
    · exact h.conflicts x hx f hf hne
    · obtain rfl := List.mem_singleton.mp hx
      obtain rfl := Option.some.inj (hfirst.symm.trans hf)
      exact absurd hsame hne
  · have := h.counts
    simp only [List.length_append, List.length_singleton]
    omega

/-- A definition that differs from the one kept is excluded and reported. -/
theorem exclude (h : Judged digest done a) {e first : Entry}
    (hfirst : firstOf done e.2.key = some first)
    (hdiffers : first.fingerprint digest ≠ e.fingerprint digest) :
    Judged digest (done ++ [e]) { a with
      excluded := a.excluded ++ [(e.1.index, e.2.key)]
      conflicts := a.conflicts ++ [.odrConflict e.2.key first.1.unit.name e.1.unit.name] } := by
  have hstays := firstOf_concat_of_known hfirst
  refine ⟨fun key => ?_, fun i key => ?_, fun x hx f hf hne => ?_, ?_, h.distinct,
    h.known_concat hfirst⟩
  · rw [hstays]
    exact h.winner key
  · rw [List.mem_append, h.excluded, hstays, List.mem_singleton, Prod.mk.injEq]
    constructor
    · rintro (⟨x, hx, hold⟩ | ⟨rfl, rfl⟩)
      · exact ⟨x, List.mem_append_left _ hx, hold⟩
      · exact ⟨e, by simp, rfl, rfl, first, hfirst, hdiffers⟩
    · rintro ⟨x, hx, rfl, rfl, hold⟩
      rcases List.mem_append.mp hx with hx | hx
      · exact Or.inl ⟨x, hx, rfl, rfl, hold⟩
      · obtain rfl := List.mem_singleton.mp hx
        exact Or.inr ⟨rfl, rfl⟩
  · rw [hstays] at hf
    rcases List.mem_append.mp hx with hx | hx
    · exact List.mem_append_left _ (h.conflicts x hx f hf hne)
    · obtain rfl := List.mem_singleton.mp hx
      obtain rfl := Option.some.inj (hfirst.symm.trans hf)
      exact List.mem_append_right _ (List.mem_singleton_self _)
  · have := h.counts
    simp only [List.length_append, List.length_singleton]
    omega

theorem judge (h : Judged digest done a) (e : Entry) :
    Judged digest (done ++ [e]) (a.judge digest e.1 e.2) := by
  rw [Arbitration.judge, h.winner]
  cases hfirst : firstOf done e.2.key with
  | none => exact h.keep hfirst
  | some first =>
      simp only [Option.map_some]
      split
      · next hsame => exact h.repeated hfirst hsame
      · next hdiffers => exact h.exclude hfirst hdiffers

theorem foldl (h : Judged digest done a) (more : List Entry) :
    Judged digest (done ++ more) (more.foldl (fun a e => a.judge digest e.1 e.2) a) := by
  induction more generalizing done a with
  | nil => rwa [List.append_nil]
  | cons e more ih =>
      rw [List.append_cons]
      exact ih (h.judge e)

end Judged

theorem judged_ofUnits (units : List UnitGraph) :
    Judged digest (entries units) (ofUnits digest units) := by
  rw [ofUnits_eq_foldl]
  exact Judged.nil.foldl (entries units)

end Arbitration

/-! ## Units in order -/

/-- The unit has been analysed, under whatever options. -/
def UnitGraph.Processed (p : UnitGraph) : Prop :=
  ∃ options cancelled, UnitGraph.analyse options cancelled p.index p.unit = .ok p

namespace UnitGraph.Processed

variable {p : UnitGraph}

theorem wellFormed (hp : p.Processed) : p.graph.WellFormed := by
  obtain ⟨options, cancelled, hok⟩ := hp
  exact (analysed_of_analyse hok).wellFormed

theorem body_mem_traits_iff (hp : p.Processed) {key : FunctionKey} :
    (key, .body) ∈ p.graph.traits ↔ p.unit.Defines key := by
  obtain ⟨options, cancelled, hok⟩ := hp
  exact (analysed_of_analyse hok).body_mem_features_iff

theorem bodyFrom (hp : p.Processed) (key : FunctionKey) :
    p.graph.BodyFrom key (some p.unit.name) := by
  obtain ⟨options, cancelled, hok⟩ := hp
  obtain ⟨h, -, hm⟩ := marked_of_analyse hok
  exact hm.bodies key

end UnitGraph.Processed

/-- The second pass gives no bodies. -/
theorem VirtualCalls.body_notMem_marked {h : Hierarchy} {shown : Set Feature} {key : FunctionKey} :
    (key, .body) ∉ VirtualCalls.marked h shown := by
  rintro (⟨hx, -⟩ | ⟨o, -, ⟨-, hx | hx⟩ | ⟨hx, -⟩⟩)
  all_goals exact absurd hx (by simp)

namespace Merge

open Arbitration

variable {digest : String → String} {parts : List UnitGraph}

/-- Of the units that define a function, the one with the lowest index. -/
structure FirstDefiner (parts : List UnitGraph) (key : FunctionKey) (w : UnitGraph) : Prop where
  mem : w ∈ parts
  defines : w.unit.Defines key
  least : ∀ p ∈ parts, p.unit.Defines key → w.index ≤ p.index

theorem eq_of_index_eq (hdistinct : (parts.map (·.index)).Nodup) {p q : UnitGraph}
    (hp : p ∈ parts) (hq : q ∈ parts) (hindex : p.index = q.index) : p = q :=
  List.inj_on_of_nodup_map hdistinct hp hq hindex

theorem FirstDefiner.eq (hdistinct : (parts.map (·.index)).Nodup) {key : FunctionKey}
    {w w' : UnitGraph} (h : FirstDefiner parts key w) (h' : FirstDefiner parts key w') : w = w' :=
  eq_of_index_eq hdistinct h.mem h'.mem
    (Nat.le_antisymm (h.least w' h'.mem h'.defines) (h'.least w h.mem h.defines))

theorem pairwise_inOrder (parts : List UnitGraph) :
    (inOrder parts).Pairwise fun p q => p.index ≤ q.index := by
  refine (List.pairwise_mergeSort ?_ ?_ parts).imp of_decide_eq_true
  · intro p q r hpq hqr
    exact decide_eq_true (Nat.le_trans (of_decide_eq_true hpq) (of_decide_eq_true hqr))
  · intro p q
    simpa using Nat.le_total p.index q.index

theorem pairwise_lt_inOrder (hdistinct : (parts.map (·.index)).Nodup) :
    (inOrder parts).Pairwise fun p q => p.index < q.index := by
  have hne : ((inOrder parts).map (·.index)).Nodup :=
    ((List.mergeSort_perm parts _).map _).nodup_iff.mpr hdistinct
  exact ((pairwise_inOrder parts).and (List.pairwise_map.mp hne)).imp
    fun h => Nat.lt_of_le_of_ne h.1 h.2

theorem mem_entries_inOrder {e : Entry} : e ∈ entries (inOrder parts) ↔
    e.1 ∈ parts ∧ e.2 ∈ definitions e.1.unit.functions := by
  rw [mem_entries_iff, inOrder, List.mem_mergeSort]

/-- What is looked at first is in the unit with the lowest index. -/
theorem firstDefiner_of_firstOf {key : FunctionKey} {e : Entry}
    (hfirst : firstOf (entries (inOrder parts)) key = some e) :
    FirstDefiner parts key e.1 ∧ e.2.key = key ∧
      ∀ digest, e.1.unit.fingerprint? digest key = some (e.fingerprint digest) := by
  obtain ⟨hmem, hdef⟩ := mem_entries_inOrder.mp (List.mem_of_find?_eq_some hfirst)
  obtain ⟨hkey, before, after, hsplit, hbefore⟩ := List.find?_eq_some_iff_append.mp hfirst
  replace hkey : e.2.key = key := of_decide_eq_true hkey
  subst hkey
  refine ⟨⟨hmem, defines_iff_exists_definition.mpr ⟨e.2, hdef, rfl⟩, fun p hp hdefines => ?_⟩, rfl,
    fun _ => fingerprint?_of_mem_definitions hdef⟩
  obtain ⟨r, hr, hkey⟩ := defines_iff_exists_definition.mp hdefines
  have hentry : (p, r) ∈ before ++ e :: after := hsplit ▸ mem_entries_inOrder.mpr ⟨hp, hr⟩
  have hsorted : (entries (inOrder parts)).Pairwise fun x y => x.1.index ≤ y.1.index := by
    refine List.pairwise_flatMap.mpr ⟨fun q _ => ?_, ?_⟩
    · exact List.pairwise_map.mpr (List.pairwise_of_forall fun _ _ => Nat.le_refl _)
    · refine (pairwise_inOrder parts).imp fun hle x hx y hy => ?_
      obtain ⟨_, -, rfl⟩ := List.mem_map.mp hx
      obtain ⟨_, -, rfl⟩ := List.mem_map.mp hy
      exact hle
  rcases List.mem_append.mp hentry with hentry | hentry
  · exact absurd (decide_eq_true hkey) (by simpa using hbefore (p, r) hentry)
  · rw [hsplit] at hsorted
    rcases List.mem_cons.mp hentry with heq | hentry
    · exact Nat.le_of_eq (congrArg (·.1.index) heq.symm)
    · exact (List.pairwise_cons.mp (List.pairwise_append.mp hsorted).2.1).1 _ hentry

theorem exists_firstOf {p : UnitGraph} (hp : p ∈ parts) {key : FunctionKey}
    (hdefines : p.unit.Defines key) : ∃ e, firstOf (entries (inOrder parts)) key = some e := by
  obtain ⟨r, hr, hkey⟩ := defines_iff_exists_definition.mp hdefines
  exact Option.isSome_iff_exists.mp (List.find?_isSome.mpr
    ⟨(p, r), mem_entries_inOrder.mpr ⟨hp, hr⟩, decide_eq_true hkey⟩)

theorem exists_firstDefiner {p : UnitGraph} (hp : p ∈ parts) {key : FunctionKey}
    (hdefines : p.unit.Defines key) : ∃ w, FirstDefiner parts key w := by
  obtain ⟨e, he⟩ := exists_firstOf hp hdefines
  exact ⟨e.1, (firstDefiner_of_firstOf he).1⟩

/-! ## Exclusion -/

/-- A unit defines a function in another way than the unit that does so first. -/
structure Conflicts (digest : String → String) (parts : List UnitGraph) (key : FunctionKey)
    (w p : UnitGraph) : Prop where
  first : FirstDefiner parts key w
  mem : p ∈ parts
  defines : p.unit.Defines key
  differs : p.unit.fingerprint? digest key ≠ w.unit.fingerprint? digest key

/-- A conflict of units is one of the definitions that are looked at. -/
theorem Conflicts.exists_entry (hdistinct : (parts.map (·.index)).Nodup) {key : FunctionKey}
    {w p : UnitGraph} (h : Conflicts digest parts key w p) :
    ∃ e first, e ∈ entries (inOrder parts) ∧ e.1 = p ∧ e.2.key = key ∧ first.1 = w ∧
      firstOf (entries (inOrder parts)) key = some first ∧
      first.fingerprint digest ≠ e.fingerprint digest := by
  obtain ⟨r, hr, rfl⟩ := defines_iff_exists_definition.mp h.defines
  obtain ⟨first, hfirst⟩ := exists_firstOf h.mem h.defines
  obtain ⟨hdefiner, -, hprint⟩ := firstDefiner_of_firstOf hfirst
  obtain rfl := hdefiner.eq hdistinct h.first
  refine ⟨(p, r), first, mem_entries_inOrder.mpr ⟨h.mem, hr⟩, rfl, rfl, rfl, hfirst, fun heq => ?_⟩
  exact h.differs (by rw [hprint, fingerprint?_of_mem_definitions hr, heq]; rfl)

/-- What is excluded are the definitions that conflict with the first one. -/
theorem mem_excluded_iff (hdistinct : (parts.map (·.index)).Nodup) {i : Nat} {key : FunctionKey} :
    (i, key) ∈ (ofUnits digest (inOrder parts)).excluded ↔
      ∃ w p, Conflicts digest parts key w p ∧ p.index = i := by
  rw [(judged_ofUnits (inOrder parts)).excluded]
  constructor
  · rintro ⟨e, he, rfl, rfl, first, hfirst, hdiffers⟩
    obtain ⟨hmem, hdef⟩ := mem_entries_inOrder.mp he
    obtain ⟨hdefiner, -, hprint⟩ := firstDefiner_of_firstOf hfirst
    refine ⟨first.1, e.1, ⟨hdefiner, hmem, defines_iff_exists_definition.mpr ⟨e.2, hdef, rfl⟩,
      fun heq => hdiffers ?_⟩, rfl⟩
    rw [hprint, fingerprint?_of_mem_definitions hdef] at heq
    exact (Option.some.inj heq).symm
  · rintro ⟨w, p, hconflicts, rfl⟩
    obtain ⟨e, first, he, rfl, rfl, -, hfirst, hdiffers⟩ := hconflicts.exists_entry hdistinct
    exact ⟨e, he, rfl, rfl, first, hfirst, hdiffers⟩

theorem odrConflict_mem_conflicts (hdistinct : (parts.map (·.index)).Nodup) {key : FunctionKey}
    {w p : UnitGraph} (h : Conflicts digest parts key w p) :
    .odrConflict key w.unit.name p.unit.name ∈ (ofUnits digest (inOrder parts)).conflicts := by
  obtain ⟨e, first, he, rfl, rfl, rfl, hfirst, hdiffers⟩ := h.exists_entry hdistinct
  exact (judged_ofUnits (inOrder parts)).conflicts e he first hfirst hdiffers

/-- The first definition is never excluded. -/
theorem FirstDefiner.not_excluded (hdistinct : (parts.map (·.index)).Nodup) {key : FunctionKey}
    {w : UnitGraph} (h : FirstDefiner parts key w) :
    (ofUnits digest (inOrder parts)).excludes w.index key = false := by
  refine Bool.eq_false_iff.mpr fun hexcluded => ?_
  obtain ⟨w', p, hconflicts, hindex⟩ :=
    (mem_excluded_iff hdistinct).mp (of_decide_eq_true hexcluded)
  obtain rfl := eq_of_index_eq hdistinct hconflicts.mem h.mem hindex
  obtain rfl := hconflicts.first.eq hdistinct h
  exact hconflicts.differs rfl

/-! ## Counts -/

theorem ncard_mem_of_nodup {α : Type} {l : List α} (hl : l.Nodup) :
    {x | x ∈ l}.ncard = l.length := by
  classical
  rw [← List.coe_toFinset, Set.ncard_coe_finset, List.toFinset_card_of_nodup hl]

/-- The functions that some unit defines. -/
def definedKeys (parts : List UnitGraph) : Set FunctionKey :=
  {key | ∃ p ∈ parts, p.unit.Defines key}

/-- The definitions of functions in units, by the indices of the units. -/
def definitionPairs (parts : List UnitGraph) : Set (Nat × FunctionKey) :=
  {x | ∃ p ∈ parts, p.index = x.1 ∧ p.unit.Defines x.2}

theorem ncard_definedKeys (parts : List UnitGraph) :
    (definedKeys parts).ncard = (ofUnits digest (inOrder parts)).winners.length := by
  have hjudged : Judged digest _ _ := judged_ofUnits (inOrder parts)
  rw [← List.length_map (f := (·.function)), ← ncard_mem_of_nodup hjudged.distinct]
  congr 1
  ext key
  refine Iff.trans ?_ (hjudged.known key).symm
  constructor
  · rintro ⟨p, hp, hdefines⟩
    obtain ⟨r, hr, hkey⟩ := defines_iff_exists_definition.mp hdefines
    exact ⟨(p, r), mem_entries_inOrder.mpr ⟨hp, hr⟩, hkey⟩
  · rintro ⟨e, he, hkey⟩
    obtain ⟨hp, hr⟩ := mem_entries_inOrder.mp he
    exact ⟨e.1, hp, defines_iff_exists_definition.mpr ⟨e.2, hr, hkey⟩⟩

theorem nodup_entries (hdistinct : (parts.map (·.index)).Nodup) :
    ((entries (inOrder parts)).map fun e => (e.1.index, e.2.key)).Nodup := by
  rw [entries, List.map_flatMap]
  refine List.pairwise_flatMap.mpr ⟨fun p _ => ?_, ?_⟩
  · have hkeys := List.pairwise_map.mp (nodup_definitions p.unit.functions)
    rw [List.map_map]
    exact List.pairwise_map.mpr (hkeys.imp fun hne heq => hne (Prod.mk.inj heq).2)
  · refine (pairwise_lt_inOrder hdistinct).imp fun hlt x hx y hy heq => ?_
    simp only [List.mem_map, exists_exists_and_eq_and] at hx hy
    obtain ⟨_, -, rfl⟩ := hx
    obtain ⟨_, -, rfl⟩ := hy
    exact absurd (Prod.mk.inj heq).1 hlt.ne

theorem ncard_definitionPairs (hdistinct : (parts.map (·.index)).Nodup) :
    (definitionPairs parts).ncard = (entries (inOrder parts)).length := by
  rw [← List.length_map (f := fun e : Entry => (e.1.index, e.2.key)),
    ← ncard_mem_of_nodup (nodup_entries hdistinct)]
  congr 1
  ext ⟨i, key⟩
  constructor
  · rintro ⟨p, hp, rfl, hdefines⟩
    obtain ⟨r, hr, rfl⟩ := defines_iff_exists_definition.mp hdefines
    exact List.mem_map.mpr ⟨(p, r), mem_entries_inOrder.mpr ⟨hp, hr⟩, rfl⟩
  · intro hx
    obtain ⟨e, he, heq⟩ := List.mem_map.mp hx
    obtain ⟨rfl, rfl⟩ := Prod.mk.inj heq
    obtain ⟨hp, hr⟩ := mem_entries_inOrder.mp he
    exact ⟨e.1, hp, rfl, defines_iff_exists_definition.mpr ⟨e.2, hr, rfl⟩⟩

theorem stats_of_run {options : Options} {cancelled : Bool} {g : Graph} {stats : MergeStats}
    (hrun : (run digest options cancelled parts).2 = .ok (g, stats)) :
    stats.duplicates = (ofUnits digest (inOrder parts)).duplicates ∧
      stats.odrConflicts = (ofUnits digest (inOrder parts)).excluded.length := by
  rw [run] at hrun
  split at hrun
  · exact absurd hrun (by simp)
  dsimp only at hrun
  split at hrun
  · exact absurd hrun (by simp)
  · obtain ⟨-, rfl⟩ := Prod.mk.inj (Except.ok.inj hrun)
    exact ⟨rfl, rfl⟩

/-! ## Bodies -/

section Bodies

variable (a : Arbitration) {g : Graph} {key : FunctionKey}

/-- A unit whose bodies are its own brings no other body. -/
theorem bodyFrom_absorb {p : UnitGraph} (hp : p.Processed) (hg : g.WellFormed)
    (hbody : g.BodyFrom key (some p.unit.name)) :
    (absorb a g p).BodyFrom key (some p.unit.name) := by
  rw [absorb_eq_joinUnit a hp.wellFormed]
  refine (evolves_takeRest a hp.wellFormed (covers_foldl_joinFunction a hg p)).bodyFrom ?_
  have hown := hp.bodyFrom key
  have hstep : ∀ (fs : List Function) (g : Graph), (∀ f ∈ fs, f ∈ p.graph.nodes) →
      g.BodyFrom key (some p.unit.name) →
      (fs.foldl (joinFunction a p.index) g).BodyFrom key (some p.unit.name) := by
    intro fs
    induction fs with
    | nil => exact fun g _ hg => hg
    | cons f fs ih =>
        intro g hfs hg
        refine ih _ (fun x hx => hfs x (List.mem_cons_of_mem _ hx)) (bodyFrom_addFunction hg ?_)
        rw [keptFunction]
        split
        · exact fun _ hbody => absurd hbody (by simp)
        · exact hown f (hfs f List.mem_cons_self)
  exact hstep _ g (fun _ hf => hf) hbody

/-- A body that is there stays with its unit. -/
theorem bodyAt_absorb {origin : Option String} {p : UnitGraph} (hp : p.graph.WellFormed)
    (hg : g.WellFormed) (hbody : g.BodyAt key origin) : (absorb a g p).BodyAt key origin := by
  rw [absorb_eq_joinUnit a hp]
  have hcovers := covers_foldl_joinFunction a hg p
  refine (evolves_takeRest a hp hcovers).bodyAt hcovers.1.nodup ?_
  exact List.foldlRecOn p.graph.nodes _ (motive := fun g : Graph => g.BodyAt key origin) hbody
    fun _ hg _ _ => bodyAt_addFunction hg _

theorem bodyAt_foldl_absorb {origin : Option String} {units : List UnitGraph}
    (hunits : ∀ p ∈ units, p.graph.WellFormed) (hg : g.WellFormed) (hbody : g.BodyAt key origin) :
    (units.foldl (absorb a) g).BodyAt key origin := by
  induction units generalizing g with
  | nil => exact hbody
  | cons p units ih =>
      have hp := hunits p List.mem_cons_self
      exact ih (fun q hq => hunits q (List.mem_cons_of_mem _ hq)) (adds_absorb a hg hp).wellFormed
        (bodyAt_absorb a hp hg hbody)

/-- The body that is there first comes from a unit that is absorbed when there is none. -/
theorem bodyAt_absorb_of_new {p : UnitGraph} (hp : p.Processed) (hg : g.WellFormed)
    (hnew : (key, .body) ∉ g.traits) (hdefines : p.unit.Defines key)
    (hkept : a.excludes p.index key = false) :
    (absorb a g p).BodyAt key (some p.unit.name) := by
  have hfrom : g.BodyFrom key (some p.unit.name) :=
    fun f hf hkey hbody => absurd ⟨f, hf, hkey, hbody⟩ hnew
  refine (bodyFrom_absorb a hp hg hfrom).bodyAt ?_
  rw [traits_absorb a hg hp.wellFormed]
  exact Or.inr ⟨hp.body_mem_traits_iff.mpr hdefines, fun _ => hkept⟩

end Bodies

/-- The first unit that defines a function gives the union its body. -/
theorem FirstDefiner.bodyAt_unionGraph (hparts : ∀ p ∈ parts, p.Processed)
    (hdistinct : (parts.map (·.index)).Nodup) {key : FunctionKey} {w : UnitGraph}
    (h : FirstDefiner parts key w) :
    (unionGraph (ofUnits digest (inOrder parts)) (inOrder parts)).BodyAt key
      (some w.unit.name) := by
  have hkept : (ofUnits digest (inOrder parts)).excludes w.index key = false :=
    h.not_excluded hdistinct
  generalize ofUnits digest (inOrder parts) = a at hkept ⊢
  have hw : w ∈ inOrder parts := List.mem_mergeSort.mpr h.mem
  have hmem : ∀ p ∈ inOrder parts, p ∈ parts := fun p => List.mem_mergeSort.mp
  have hwell := wellFormed_inOrder fun p hp => (hparts p hp).wellFormed
  have hsorted := pairwise_lt_inOrder hdistinct
  obtain ⟨before, after, hsplit⟩ := List.append_of_mem hw
  rw [unionGraph, hsplit, List.foldl_append, List.foldl_cons]
  rw [hsplit] at hwell hsorted hmem
  have hbefore : ∀ p ∈ before, p.graph.WellFormed := fun p hp => hwell p (List.mem_append_left _ hp)
  have hstart := wellFormed_foldl_absorb a hbefore wellFormed_empty
  -- no body comes from a unit before the first that defines the function
  have hnew : (key, .body) ∉ (before.foldl (absorb a) .empty).traits := by
    rw [traits_foldl_absorb a hbefore wellFormed_empty, traits_empty, Set.empty_union]
    rintro ⟨p, hp, hbody, -⟩
    have hp' := hmem p (List.mem_append_left _ hp)
    have hle := h.least p hp' ((hparts p hp').body_mem_traits_iff.mp hbody)
    have hlt := (List.pairwise_append.mp hsorted).2.2 p hp w List.mem_cons_self
    exact absurd hle (Nat.not_le.mpr hlt)
  have hmid := adds_absorb a hstart (hparts w h.mem).wellFormed
  have hafter : ∀ p ∈ after, p.graph.WellFormed :=
    fun p hp => hwell p (List.mem_append_right _ (List.mem_cons_of_mem _ hp))
  refine (evolves_conflicts a _).bodyAt (wellFormed_foldl_absorb a hafter hmid.wellFormed).nodup ?_
  exact bodyAt_foldl_absorb a hafter hmid.wellFormed
    (bodyAt_absorb_of_new a (hparts w h.mem) hstart hnew h.defines hkept)

/-! ## Main statement -/

/-- A merged graph has the bodies of all units, each from the unit that is first to define the
function. -/
theorem FirstDefiner.bodyAt_of_run (hparts : ∀ p ∈ parts, p.Processed)
    (hdistinct : (parts.map (·.index)).Nodup) {options : Options} {cancelled : Bool} {g : Graph}
    {stats : MergeStats} (hrun : (run digest options cancelled parts).2 = .ok (g, stats))
    {key : FunctionKey} {w : UnitGraph} (h : FirstDefiner parts key w) :
    g.BodyAt key (some w.unit.name) := by
  have hwell : ∀ p ∈ parts, p.graph.WellFormed := fun p hp => (hparts p hp).wellFormed
  obtain ⟨_, -, hevolves⟩ := evolves_of_run hwell hrun
  exact hevolves.bodyAt (adds_unionGraph _ (wellFormed_inOrder hwell)).wellFormed.nodup
    (h.bodyAt_unionGraph hparts hdistinct)

theorem defines_of_body_mem_traits (hparts : ∀ p ∈ parts, p.Processed) {options : Options}
    {cancelled : Bool} {g : Graph} {stats : MergeStats}
    (hrun : (run digest options cancelled parts).2 = .ok (g, stats)) {key : FunctionKey}
    (hbody : (key, .body) ∈ g.traits) : ∃ p ∈ parts, p.unit.Defines key := by
  have hwell : ∀ p ∈ parts, p.graph.WellFormed := fun p hp => (hparts p hp).wellFormed
  obtain ⟨_, -, hevolves⟩ := evolves_of_run hwell hrun
  rw [hevolves.traits, traits_unionGraph _ (wellFormed_inOrder hwell)] at hbody
  rcases hbody with ⟨p, hp, hbody, -⟩ | hbody | ⟨hbody, -⟩
  · have hmem : p ∈ parts := List.mem_mergeSort.mp hp
    exact ⟨p, hmem, (hparts p hmem).body_mem_traits_iff.mp hbody⟩
  · exact absurd hbody VirtualCalls.body_notMem_marked
  · exact absurd hbody (by simp)

theorem subset_diagnostics_foldl (ds : List Diagnostic) (g : Graph) :
    ds ⊆ (ds.foldl Graph.addDiagnostic g).diagnostics := by
  induction ds generalizing g with
  | nil => exact List.nil_subset _
  | cons d ds ih =>
      refine List.cons_subset.mpr ⟨?_, ih _⟩
      refine (Evolves.foldl_empty id (fun _ d => evolves_addDiagnostic d) ds _).diagnostics ?_
      show d ∈ (g.addDiagnostic d).diagnostics
      rw [addDiagnostic]
      split
      · assumption
      · simp

/-- Of the definitions of a function the first one is kept, by the indices of the units.  The others
are duplicates or, if they differ from it, are excluded and reported. -/
theorem first_definition_kept {digest : String → String} {options : Options} {cancelled : Bool}
    {parts : List UnitGraph} {g : Graph} {stats : MergeStats} (hparts : ∀ p ∈ parts, p.Processed)
    (hdistinct : (parts.map (·.index)).Nodup)
    (hrun : (run digest options cancelled parts).2 = .ok (g, stats)) :
    (∀ key, (∃ p ∈ parts, p.unit.Defines key) → ∃! w, FirstDefiner parts key w) ∧
    (∀ i key, (i, key) ∈ (ofUnits digest (inOrder parts)).excluded ↔
      ∃ w p, Conflicts digest parts key w p ∧ p.index = i) ∧
    stats.duplicates + stats.odrConflicts + (definedKeys parts).ncard =
      (definitionPairs parts).ncard ∧
    (∀ key w p, Conflicts digest parts key w p →
      .odrConflict key w.unit.name p.unit.name ∈ g.diagnostics) ∧
    ∀ f ∈ g.nodes, (f.hasBody = true ↔ ∃ p ∈ parts, p.unit.Defines f.key) ∧
      ∀ w, FirstDefiner parts f.key w → f.origin = some w.unit.name := by
  have hwell : ∀ p ∈ parts, p.graph.WellFormed := fun p hp => (hparts p hp).wellFormed
  have hnodup := (wellFormed_of_run hwell hrun).nodup
  refine ⟨fun key ⟨p, hp, hdefines⟩ => ?_, fun i key => mem_excluded_iff hdistinct, ?_,
    fun key w p hconflicts => ?_, fun f hf => ⟨⟨fun hbody => ?_, fun ⟨p, hp, hdefines⟩ => ?_⟩,
      fun w hw => ?_⟩⟩
  · obtain ⟨w, hw⟩ := exists_firstDefiner hp hdefines
    exact ⟨w, hw, fun w' hw' => hw'.eq hdistinct hw⟩
  · obtain ⟨hduplicates, hexcluded⟩ := stats_of_run hrun
    rw [hduplicates, hexcluded, ncard_definedKeys, ncard_definitionPairs hdistinct,
      (judged_ofUnits (inOrder parts)).counts]
  · obtain ⟨_, -, hevolves⟩ := evolves_of_run hwell hrun
    exact hevolves.diagnostics
      (subset_diagnostics_foldl _ _ (odrConflict_mem_conflicts hdistinct hconflicts))
  · exact defines_of_body_mem_traits hparts hrun ⟨f, hf, rfl, hbody⟩
  · obtain ⟨w, hw⟩ := exists_firstDefiner hp hdefines
    obtain ⟨f', hf', hkey, hbody, -⟩ := hw.bodyAt_of_run hparts hdistinct hrun
    rwa [List.inj_on_of_nodup_map hnodup hf hf' hkey.symm]
  · obtain ⟨f', hf', hkey, -, horigin⟩ := hw.bodyAt_of_run hparts hdistinct hrun
    rwa [List.inj_on_of_nodup_map hnodup hf hf' hkey.symm]

/-- Three definitions of a function.  The first, by the indices, is neither the first in the list
nor the last, and only one of the others is the same. -/
def rivalDefinitions : List (Nat × TranslationUnit) :=
  [(4, { name := "late", functions := [{ key := "f", defined := true, bodyHash := some "b" }] }),
    (2, { name := "early"
          functions := [{ key := "f" }, { key := "f", defined := true, bodyHash := some "a" }] }),
    (9, { name := "same"
          functions := [{ key := "f", defined := true, bodyHash := some "a" },
            { key := "g", defined := true }] })]

theorem rivalDefinitions_early : ∃ p q r g stats,
    UnitGraph.analyseIndexed {} false rivalDefinitions = .ok [p, q, r] ∧
    (run id {} false [p, q, r]).2 = .ok (g, stats) ∧ ([p, q, r].map (·.index)).Nodup ∧
    Conflicts id [p, q, r] "f" q p ∧ (4, "f") ∈ (ofUnits id (inOrder [p, q, r])).excluded ∧
    .odrConflict "f" "early" "late" ∈ g.diagnostics ∧
    stats.duplicates + stats.odrConflicts + (definedKeys [p, q, r]).ncard =
      (definitionPairs [p, q, r]).ncard ∧
    ∃ f ∈ g.nodes, f.key = "f" ∧ f.hasBody = true ∧ f.origin = some "early" := by
  obtain ⟨p, q, r, g, stats, hparts, hrun, hdistinct, hnames, hdefines, hleast, hdiffers, hnode⟩ :
      ∃ p q r g stats, UnitGraph.analyseIndexed {} false rivalDefinitions = .ok [p, q, r] ∧
      (run id {} false [p, q, r]).2 = .ok (g, stats) ∧ ([p, q, r].map (·.index)).Nodup ∧
      (p.index = 4 ∧ p.unit.name = "late" ∧ q.unit.name = "early") ∧
      (∀ x ∈ [p, q], ∃ d ∈ x.unit.functions, d.defined = true ∧ d.key = "f") ∧
      (∀ x ∈ [p, q, r], q.index ≤ x.index) ∧
      p.unit.fingerprint? id "f" ≠ q.unit.fingerprint? id "f" ∧ ∃ f ∈ g.nodes, f.key = "f" :=
    ⟨_, _, _, _, _, by cbv, by cbv, by decide, by decide, by decide, by decide, by decide,
      by decide⟩
  have hprocessed : ∀ x ∈ [p, q, r], x.Processed :=
    fun x hx => ⟨_, _, UnitGraph.analyse_of_mem hparts hx⟩
  obtain ⟨-, hexcluded, hcounts, hreported, hbodies⟩ :=
    first_definition_kept hprocessed hdistinct hrun
  have hfirst : FirstDefiner [p, q, r] "f" q :=
    ⟨by simp, hdefines q (by simp), fun x hx _ => hleast x hx⟩
  have hconflicts : Conflicts id [p, q, r] "f" q p :=
    ⟨hfirst, by simp, hdefines p (by simp), hdiffers⟩
  obtain ⟨hindex, hlate, hearly⟩ := hnames
  obtain ⟨f, hf, hkey⟩ := hnode
  obtain ⟨hbody, horigin⟩ := hkey ▸ hbodies f hf
  refine ⟨p, q, r, g, stats, hparts, hrun, hdistinct, hconflicts,
    (hexcluded 4 "f").mpr ⟨q, p, hconflicts, hindex⟩, ?_, hcounts, f, hf, hkey,
    hbody.mpr ⟨q, hfirst.mem, hfirst.defines⟩, ?_⟩
  · exact hlate ▸ hearly ▸ hreported "f" q p hconflicts
  · exact (horigin q hfirst).trans (congrArg some hearly)

end Merge

end CallGraphs
