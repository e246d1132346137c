import CallGraphs.Proofs.Graph.Distances
import CallGraphs.Proofs.Store.RoundTrip
import CallGraphs.Store.Query
import Mathlib

/-!
# Walks along stored calls

A walk reads rows, function by function, and keeps a queue of its own; a traversal of
the graph goes by node numbers.  Both are searches by a queue.  A walk has reported
the start exactly if a step has come back to it, and otherwise has visited what steps
have reached (`Wandering.Matches`), so it reports what a search by layers comes to
(`Wandering.run_eq`).  What such a search comes to is told by the calls alone, so a
walk over a store that holds a graph answers what the graph answers
(`StoredGraph.answers_walk`), and walks deep enough report all that can be reached
(`StoredGraph.reachable_eq`).
-/

namespace CallGraphs

open CallGraphs.Graph

/-! ## A walk as a search by a queue -/

/-- A strict walk takes definite calls only. -/
def Call.isTaken (definite : Bool) (c : Call) : Bool := !definite || c.confidence = .definite

/-- What is reported of a function that a walk came to by a call, so many calls from its start. -/
def Direction.hitOf (direction : Direction) (p : Call × Nat) : CallHit where
  function := direction.target p.1
  depth := p.2
  kind := p.1.kind
  confidence := p.1.confidence

namespace Wandering

variable {direction : Direction} {definite : Bool} {start : FunctionKey} {w : Wandering}
  {s : Standing FunctionKey Call}

/-- A walk stands where a search by a queue stands. -/
structure Matches (direction : Direction) (start : FunctionKey) (w : Wandering)
    (s : Standing FunctionKey Call) : Prop where
  queue : w.queue = s.queue
  visited : ∀ f, f ∈ w.visited ↔ f = start ∨ f ∈ Standing.seen [] direction.target s.reached
  startReported : w.startReported = true ↔ start ∈ Standing.seen [] direction.target s.reached
  hits : w.hits = s.reached.map direction.hitOf

theorem matches_start (direction : Direction) (key : FunctionKey) :
    Matches direction key (.start key) ⟨[(key, 0)], []⟩ where
  queue := rfl
  visited f := by simp [Wandering.start, Standing.seen]
  startReported := by simp [Wandering.start, Standing.seen]
  hits := rfl

/-- To follow a call is to take the step along it. -/
theorem Matches.follow (h : Matches direction start w s) {c : Call}
    (hc : c.isTaken definite = true) (d : Nat) : Matches direction start
      (w.follow direction definite start d c) (s.take [] direction.target start d c) := by
  have htaken : (definite && decide (c.confidence ≠ .definite)) = false := by
    rw [Call.isTaken] at hc
    cases definite <;> simp_all
  have hseen : ∀ f, f ∈ Standing.seen [] direction.target (s.reached ++ [(c, d + 1)]) ↔
      f ∈ Standing.seen [] direction.target s.reached ∨ f = direction.target c := by
    simp [Standing.seen]
  have hhits : w.hits ++ [direction.hitOf (c, d + 1)] =
      (s.reached ++ [(c, d + 1)]).map direction.hitOf := by
    rw [h.hits, List.map_append, List.map_singleton]
  rw [Wandering.follow, htaken, Standing.take]
  simp only [Bool.false_eq_true, if_false]
  by_cases hreached : direction.target c ∈ Standing.seen [] direction.target s.reached
  · rw [if_pos hreached]
    by_cases hstart : direction.target c = start
    · rw [if_pos hstart, if_pos (h.startReported.mpr (hstart ▸ hreached))]
      exact h
    · rw [if_neg hstart, if_pos ((h.visited _).mpr (.inr hreached))]
      exact h
  · rw [if_neg hreached]
    by_cases hstart : direction.target c = start
    · have hnew : w.startReported = false := by
        rw [Bool.eq_false_iff, ne_eq, h.startReported, ← hstart]
        exact hreached
      rw [if_pos hstart, if_pos hstart, hnew, if_neg Bool.false_ne_true]
      refine ⟨h.queue, fun f => ?_, ?_, hhits⟩
      · rw [hseen, h.visited, hstart]
        tauto
      · rw [hseen, hstart]
        simp
    · have hnew : direction.target c ∉ w.visited := by
        rw [h.visited]
        exact fun hor => hor.elim hstart hreached
      rw [if_neg hstart, if_neg hstart, if_neg hnew]
      refine ⟨congrArg (· ++ _) h.queue, fun f => ?_, ?_, hhits⟩
      · rw [List.mem_cons, hseen, h.visited]
        tauto
      · rw [hseen, h.startReported, eq_comm (a := start)]
        simp [hstart]

/-- Calls that a strict walk does not take leave it where it is. -/
theorem foldl_follow_filter (l : List Call) (d : Nat) (w : Wandering) :
    (l.filter (Call.isTaken definite)).foldl (Wandering.follow direction definite start d) w =
      l.foldl (Wandering.follow direction definite start d) w := by
  rw [List.foldl_filter]
  refine congrArg (fun step => l.foldl step w) (funext₂ fun w c => ?_)
  split
  · rfl
  · next hc =>
    rw [Wandering.follow, if_pos]
    rw [Call.isTaken] at hc
    cases definite <;> simp_all

section
variable {calls : FunctionKey → Except DatabaseError (List Call)}
  {rows : FunctionKey → List Call} (hrows : ∀ key, calls key = .ok (rows key))
  {all : List FunctionKey}
  (hall : ∀ key row, calls key = .ok row → ∀ c ∈ row, direction.target c ∈ all)
include hrows

/-- A walk runs as a search by a queue does. -/
theorem Matches.exists_drains (h : Matches direction start w s) (depth : Nat) :
    ∃ out, Drains (fun key => (rows key).filter (Call.isTaken definite)) direction.target start []
        depth s out ∧
      run calls direction definite start depth all hall w = .ok (out.map direction.hitOf) := by
  induction w using run.induct calls direction definite start depth all hall generalizing s with
  | case1 visited startReported hits =>
      obtain ⟨queue, reached⟩ := s
      obtain rfl : [] = queue := h.queue
      rw [run]
      exact ⟨reached, .done, congrArg Except.ok h.hits⟩
  | case2 key distance rest visited startReported hits hcut ih =>
      obtain ⟨queue, reached⟩ := s
      obtain rfl : (key, distance) :: rest = queue := h.queue
      obtain ⟨out, hdrains, hout⟩ :=
        @ih ⟨rest, reached⟩ ⟨rfl, h.visited, h.startReported, h.hits⟩
      rw [run, if_pos hcut]
      exact ⟨out, .cut hcut hdrains, hout⟩
  | case3 key distance rest visited startReported hits hcut e herror =>
      rw [hrows] at herror
      cases herror
  | case4 key distance rest visited startReported hits hcut row hread ih =>
      obtain ⟨queue, reached⟩ := s
      obtain rfl : (key, distance) :: rest = queue := h.queue
      obtain rfl : rows key = row := Except.ok.inj ((hrows key).symm.trans hread)
      have hrow := List.foldl_rel (r := Matches direction start)
        (l := (rows key).filter (Call.isTaken definite))
        (⟨rfl, h.visited, h.startReported, h.hits⟩ : Matches direction start
          ⟨rest, visited, startReported, hits⟩ ⟨rest, reached⟩)
        fun c hc _ _ hmatch => hmatch.follow (List.mem_filter.mp hc).2 distance
      rw [foldl_follow_filter] at hrow
      obtain ⟨out, hdrains, hout⟩ := ih hrow
      rw [run, if_neg hcut]
      refine ⟨out, .leave (Nat.lt_of_not_le hcut) hdrains, ?_⟩
      split
      · next e herror => cases (hrows key).symm.trans herror
      · next row' hread' =>
        obtain rfl : rows key = row' := Except.ok.inj ((hrows key).symm.trans hread')
        exact hout

/-- A walk reports what a search by layers comes to. -/
theorem run_eq (key : FunctionKey) (depth : Nat) :
    run calls direction definite key depth all hall (.start key) =
      .ok ((arrivals (fun key => (rows key).filter (Call.isTaken definite)) direction.target depth 0
        [key] []).map direction.hitOf) := by
  obtain ⟨out, hdrains, hout⟩ := (matches_start direction key).exists_drains hrows hall depth
  rw [hout, hdrains.eq_arrivals]

end

end Wandering

/-! ## Graphs as walks see them -/

/-- The graph that a walk goes along: a strict walk takes definite edges only. -/
def Graph.walked (g : Graph) (definite : Bool) : Graph :=
  { g with edges := g.edges.filter fun e => !definite || e.edge.isDefinite }

namespace Graph

variable {g : Graph} {definite : Bool}

theorem mem_calls_walked {c : Call} :
    c ∈ (g.walked definite).calls ↔ c ∈ g.calls ∧ c.isTaken definite = true := by
  rw [calls, calls, List.mem_map, List.mem_map]
  constructor
  · rintro ⟨e, he, rfl⟩
    obtain ⟨hmem, htaken⟩ := List.mem_filter.mp he
    exact ⟨⟨e, hmem, rfl⟩, htaken⟩
  · rintro ⟨⟨e, he, rfl⟩, htaken⟩
    exact ⟨e, List.mem_filter.mpr ⟨he, htaken⟩, rfl⟩

theorem wellFormed_walked (hg : g.WellFormed) (definite : Bool) : (g.walked definite).WellFormed :=
  ⟨hg.nodup, fun e he => hg.closed e (List.mem_filter.mp he).1⟩

end Graph

namespace Direction

/-- The end of a call that a walk comes from. -/
def source : Direction → Call → FunctionKey
  | outgoing => Call.caller
  | incoming => Call.callee

/-- Whether a walk goes along the calls, and not against them. -/
def forward : Direction → Bool
  | outgoing => true
  | incoming => false

/-- The functions of a graph within a number of calls, in one direction. -/
def within (direction : Direction) (g : Graph) (key : FunctionKey) (depth : Nat) :
    List (FunctionKey × Nat) :=
  match direction with
  | outgoing => g.calleesWithin key depth
  | incoming => g.callersWithin key depth

/-- What a walk has to answer.  Functions are reported once, the nearer ones first and those at one
distance by key; they are the functions that the graph has within the depth, at the same distances;
and each comes with a call to it from the layer before. -/
structure Answers (direction : Direction) (g : Graph) (key : FunctionKey) (depth : Nat)
    (hits : List CallHit) : Prop where
  once : (hits.map (·.function)).Nodup
  sorted : hits.Pairwise fun a b =>
    a.depth < b.depth ∨ a.depth = b.depth ∧ a.function < b.function
  within : (hits.map fun hit => (hit.function, hit.depth)).Perm (direction.within g key depth)
  reached : ∀ hit ∈ hits, ∃ c ∈ g.calls, direction.target c = hit.function ∧
    c.kind = hit.kind ∧ c.confidence = hit.confidence ∧
      ((hit.depth = 1 ∧ direction.source c = key) ∨
        ∃ before ∈ hits, before.function = direction.source c ∧ before.depth + 1 = hit.depth)

variable {direction : Direction} {g : Graph}

theorem within_eq (key : FunctionKey) (depth : Nat) :
    direction.within g key depth = (g.bfs key depth direction.forward).entries := by
  cases direction with
  | outgoing => rfl
  | incoming => rfl

/-- A step is a call from where a walk stands to where it goes. -/
theorem along_iff {a b : FunctionKey} : g.Along direction.forward a b ↔
    ∃ c ∈ g.calls, direction.source c = a ∧ direction.target c = b := by
  cases direction with
  | outgoing =>
      constructor
      · rintro ⟨e, he, hcaller, hcallee⟩
        exact ⟨g.callOf e, List.mem_map_of_mem he, hcaller, hcallee⟩
      · rintro ⟨c, hc, hcaller, hcallee⟩
        obtain ⟨e, he, rfl⟩ := List.mem_map.mp hc
        exact ⟨e, he, hcaller, hcallee⟩
  | incoming =>
      constructor
      · rintro ⟨e, he, hcaller, hcallee⟩
        exact ⟨g.callOf e, List.mem_map_of_mem he, hcallee, hcaller⟩
      · rintro ⟨c, hc, hcallee, hcaller⟩
        obtain ⟨e, he, rfl⟩ := List.mem_map.mp hc
        exact ⟨e, he, hcaller, hcallee⟩

end Direction

/-! ## Rows of a store that holds a graph -/

namespace StoredGraph

variable {s : StoredGraph} {g : Graph} {direction : Direction} {definite : Bool}
  {key : FunctionKey} {depth : Nat}

namespace Holds

theorem function?_eq (h : s.Holds g) (key : FunctionKey) :
    s.function? key = .ok (g.find? key) := by
  have hkey : ((fun row : Row => decide (row.column "key" = .text key)) ∘
      fun x : Function × Nat => x.1.row x.2) = (fun f : Function => f.key == key) ∘ Prod.fst := by
    funext x
    simp [beq_eq_decide]
  have hfind : g.find? key = (g.nodes.zipIdx.find? ((fun f => f.key == key) ∘ Prod.fst)).map
      Prod.fst := by
    rw [← List.find?_map, map_fst_zipIdx, find?]
  rw [function?, h.functions, List.find?_map, hkey, hfind]
  cases g.nodes.zipIdx.find? ((fun f => f.key == key) ∘ Prod.fst) with
  | none => rfl
  | some x =>
      rw [Option.map_some, Option.map_some]
      dsimp only
      rw [x.1.ofRow_row x.2]
      rfl

/-- The rows of calls are read, and they are the calls of the graph with a text in a column. -/
theorem exists_callsWhere (h : s.Holds g) (column : String)
    (hcolumn : ∀ (c : Call) number,
      Row.column (("id", number) :: c.row) column = c.row.column column)
    (value : String) (order : List String) : ∃ calls, s.callsWhere column value order = .ok calls ∧
      ∀ c, c ∈ calls ↔ c ∈ g.calls ∧ c.row.column column = .text value := by
  obtain ⟨last, hrows⟩ := h.edges
  have hmem : ∀ r, r ∈ Row.orderBy order (s.edges.rows.filter (·.column column = .text value)) ↔
      r ∈ numbered last (g.calls.map Call.row) ∧ r.column column = .text value := by
    intro r
    rw [Row.orderBy, List.mem_mergeSort, List.mem_filter, hrows, decide_eq_true_eq]
  have hread : ∀ r ∈ numbered last (g.calls.map Call.row), ∃ c ∈ g.calls, ∃ number,
      r = ("id", number) :: c.row ∧ Call.ofRow (r.select Call.columns) = .ok c := by
    intro r hr
    obtain ⟨row, hrow, number, -, rfl⟩ := exists_of_mem_numbered hr
    obtain ⟨c, hc, rfl⟩ := List.mem_map.mp hrow
    exact ⟨c, hc, _, rfl, by rw [c.select_row, c.ofRow_row]⟩
  obtain ⟨calls, hcalls⟩ : ∃ calls, s.callsWhere column value order = .ok calls := by
    refine exists_mapM_iff.mpr fun r hr => ?_
    obtain ⟨c, -, -, -, hof⟩ := hread r ((hmem r).mp hr).1
    exact ⟨c, hof⟩
  refine ⟨calls, hcalls, fun c => (mem_of_mapM hcalls).trans ?_⟩
  constructor
  · rintro ⟨r, hr, hof⟩
    obtain ⟨hnumbered, hvalue⟩ := (hmem r).mp hr
    obtain ⟨c', hc', number, rfl, hof'⟩ := hread r hnumbered
    obtain rfl : c' = c := Except.ok.inj (hof'.symm.trans hof)
    exact ⟨hc', (hcolumn c' number).symm.trans hvalue⟩
  · rintro ⟨hc, hvalue⟩
    obtain ⟨number, hnumbered⟩ := exists_mem_numbered last (List.mem_map_of_mem hc)
    refine ⟨_, (hmem _).mpr ⟨hnumbered, (hcolumn c _).trans hvalue⟩, ?_⟩
    rw [c.select_row, c.ofRow_row]

theorem exists_calls (h : s.Holds g) (direction : Direction) (key : FunctionKey) :
    ∃ calls, direction.calls s key = .ok calls ∧
      ∀ c, c ∈ calls ↔ c ∈ g.calls ∧ direction.source c = key := by
  cases direction with
  | outgoing =>
      obtain ⟨calls, hread, hmem⟩ := h.exists_callsWhere "caller" (fun _ _ => rfl) key
        ["callee", "kind", "confidence"]
      refine ⟨calls, hread, fun c => (hmem c).trans (and_congr_right fun _ => ?_)⟩
      exact ⟨ColumnValue.text.inj, congrArg ColumnValue.text⟩
  | incoming =>
      obtain ⟨calls, hread, hmem⟩ := h.exists_callsWhere "callee" (fun _ _ => rfl) key
        ["caller", "kind", "confidence"]
      refine ⟨calls, hread, fun c => (hmem c).trans (and_congr_right fun _ => ?_)⟩
      exact ⟨ColumnValue.text.inj, congrArg ColumnValue.text⟩

end Holds

instance : Std.TransOrd CallHit :=
  inferInstanceAs <| Std.TransCmp <|
    compareLex (compareOn CallHit.depth) (compareOn CallHit.function)

/-- Hits of different functions that are in order are so strictly. -/
theorem lt_of_isLE {a b : CallHit} (hle : (compare a b).isLE = true)
    (hne : a.function ≠ b.function) :
    a.depth < b.depth ∨ a.depth = b.depth ∧ a.function < b.function := by
  have hlex : ((compare a.depth b.depth).then (compare a.function b.function)).isLE = true := hle
  rcases Ordering.isLE_then_iff_or.mp hlex with hdepth | ⟨hdepth, hkey⟩
  · exact .inl (Nat.compare_eq_lt.mp hdepth)
  · refine .inr ⟨Nat.compare_eq_eq.mp hdepth, ?_⟩
    rcases Ordering.isLE_iff_eq_lt_or_eq_eq.mp hkey with hlt | heq
    · exact compareOfLessAndEq_eq_lt.mp hlt
    · exact absurd (Std.LawfulEqOrd.eq_of_compare heq) hne

/-! ## What walks answer -/

/-- A walk from a function of the graph searches by layers, along the calls of the graph. -/
theorem Holds.exists_next (h : s.Holds g) (direction : Direction) (definite : Bool) :
    ∃ next : FunctionKey → List Call,
      (∀ a c, c ∈ next a ↔ c ∈ (g.walked definite).calls ∧ direction.source c = a) ∧
      ∀ key ∈ g.keys, ∀ depth, s.walk direction definite key depth =
        .ok (((arrivals next direction.target depth 0 [key] []).map direction.hitOf).mergeSort
          fun a b => (compare a b).isLE) := by
  choose rows hread hrows using h.exists_calls direction
  refine ⟨fun a => (rows a).filter (Call.isTaken definite), fun a c => ?_, fun key hkey depth => ?_⟩
  · rw [List.mem_filter, hrows, mem_calls_walked]
    exact and_right_comm
  · obtain ⟨f, hf⟩ : ∃ f, g.find? key = some f := by
      rw [find?, ← Option.isSome_iff_exists, List.find?_isSome]
      obtain ⟨f, hf, rfl⟩ := List.mem_map.mp hkey
      exact ⟨f, hf, beq_self_eq_true f.key⟩
    rw [walk, h.function?_eq, hf, Wandering.run_eq hread]
    rfl

/-- Only a walk from a function that is not stored has no answer. -/
theorem Holds.walk_of_notMem_keys (h : s.Holds g) (hkey : key ∉ g.keys) (direction : Direction)
    (definite : Bool) (depth : Nat) :
    s.walk direction definite key depth = .error (.functionNotFound key) := by
  have hnone : g.find? key = none := by
    rw [find?, List.find?_eq_none]
    intro f hf heq
    exact hkey (List.mem_map.mpr ⟨f, hf, eq_of_beq heq⟩)
  rw [walk, h.function?_eq, hnone]
  rfl

section
variable {next : FunctionKey → List Call}
  (hnext : ∀ a c, c ∈ next a ↔ c ∈ (g.walked definite).calls ∧ direction.source c = a)
include hnext

theorem leadsTo_next :
    LeadsTo next direction.target = (g.walked definite).Along direction.forward := by
  funext a b
  refine propext ((exists_congr fun c => ?_).trans Direction.along_iff.symm)
  rw [hnext, and_assoc]

/-- What a search comes to is what a traversal of the graph finds, at the same distances. -/
theorem exists_arrival_iff_mem_within (hg : (g.walked definite).WellFormed) {f : FunctionKey}
    {d : Nat} : (∃ c, (c, d) ∈ arrivals next direction.target depth 0 [key] [] ∧
      direction.target c = f) ↔ (f, d) ∈ direction.within (g.walked definite) key depth := by
  rw [exists_arrival_iff, leadsTo_next hnext, Direction.within_eq, mem_bfs_iff_shortest hg]

/-- A hit comes with a call from the layer before. -/
theorem exists_call_of_arrival {c : Call} {d : Nat}
    (h : (c, d) ∈ arrivals next direction.target depth 0 [key] []) :
    c ∈ (g.walked definite).calls ∧ ((d = 1 ∧ direction.source c = key) ∨
      ∃ p ∈ arrivals next direction.target depth 0 [key] [],
        direction.target p.1 = direction.source c ∧ p.2 + 1 = d) := by
  obtain ⟨a, hstep, hcase⟩ := exists_origin_of_arrival h
  obtain ⟨hc, rfl⟩ := (hnext a c).mp hstep
  exact ⟨hc, hcase.imp_left (And.imp_right List.mem_singleton.mp)⟩

/-- The hits of a walk answer what the graph has in that direction. -/
theorem answers_arrivals (hg : (g.walked definite).WellFormed) :
    direction.Answers (g.walked definite) key depth
      (((arrivals next direction.target depth 0 [key] []).map direction.hitOf).mergeSort
        fun a b => (compare a b).isLE) := by
  have hperm := List.mergeSort_perm
    ((arrivals next direction.target depth 0 [key] []).map direction.hitOf)
    fun a b => (compare a b).isLE
  have hnodup : (((arrivals next direction.target depth 0 [key] []).map direction.hitOf).map
      (·.function)).Nodup := by
    rw [List.map_map]
    exact nodup_arrivals depth 0 [key] []
  have honce := (hperm.map (·.function)).nodup_iff.mpr hnodup
  refine ⟨honce, ?_, ?_, ?_⟩
  · have hsorted := pairwise_mergeSort_compare id
      ((arrivals next direction.target depth 0 [key] []).map direction.hitOf)
    exact List.Pairwise.imp₂ (fun a b hle hne => lt_of_isLE hle hne) hsorted
      (List.pairwise_map.mp honce)
  · have hfound : (direction.within (g.walked definite) key depth).Nodup := by
      rw [Direction.within_eq]
      exact .of_map Prod.fst (SortedMap.nodup_keys _)
    refine (List.perm_ext_iff_of_nodup (.of_map Prod.fst ?_) hfound).mpr ?_
    · rw [List.map_map]
      exact honce
    · rintro ⟨f, d⟩
      rw [← exists_arrival_iff_mem_within hnext hg, (hperm.map _).mem_iff, List.map_map]
      constructor
      · intro hmem
        obtain ⟨⟨c, d'⟩, hc, heq⟩ := List.mem_map.mp hmem
        obtain ⟨rfl, rfl⟩ := Prod.mk.inj heq
        exact ⟨c, hc, rfl⟩
      · rintro ⟨c, hc, rfl⟩
        exact List.mem_map.mpr ⟨(c, d), hc, rfl⟩
  · intro hit hhit
    obtain ⟨⟨c, d⟩, hc, rfl⟩ := List.mem_map.mp (hperm.mem_iff.mp hhit)
    obtain ⟨hcall, hcase⟩ := exists_call_of_arrival hnext hc
    refine ⟨c, hcall, rfl, rfl, rfl, hcase.imp_right ?_⟩
    rintro ⟨p, hp, htarget, hd⟩
    exact ⟨direction.hitOf p, hperm.mem_iff.mpr (List.mem_map_of_mem hp), htarget, hd⟩

/-- A walk that is deep enough comes to all that calls lead to. -/
theorem mem_arrivals_iff_transGen (hg : (g.walked definite).WellFormed) (hdepth : g.size ≤ depth)
    {f : FunctionKey} :
    f ∈ (arrivals next direction.target depth 0 [key] []).map (fun p => direction.target p.1) ↔
      Relation.TransGen ((g.walked definite).Along direction.forward) key f := by
  have hkeys : ∀ a, ∀ c ∈ next a, direction.target c ∈ g.keys := by
    intro a c hc
    have hends := hg.ends ((hnext a c).mp hc).1
    cases direction with
    | outgoing => exact hends.2
    | incoming => exact hends.1
  rw [← leadsTo_next hnext, ← reports_iff hkeys (g.length_keys ▸ hdepth), List.mem_map]
  rfl

end

/-- A walk from a function of the graph answers with what the graph has in that direction. -/
theorem answers_walk (h : s.Holds g) (hg : g.Regular) (hkey : key ∈ g.keys)
    (direction : Direction) (definite : Bool) (depth : Nat) :
    ∃ hits, s.walk direction definite key depth = .ok hits ∧
      direction.Answers (g.walked definite) key depth hits := by
  obtain ⟨next, hnext, hwalk⟩ := h.exists_next direction definite
  exact ⟨_, hwalk key hkey depth,
    answers_arrivals hnext (wellFormed_walked hg.toWellFormed definite)⟩

/-- What is reached from a function is what a walk of any depth comes to that is not below the
number of functions. -/
theorem reachable_eq (h : s.Holds g) (hg : g.Regular) {limit : Nat} (hlimit : g.size ≤ limit)
    (hword : limit < wordLimit) : s.reachable definite key =
      (s.callees definite key limit).map fun hits => .ofList (hits.map (·.function)) := by
  by_cases hkey : key ∈ g.keys
  · obtain ⟨next, hnext, hwalk⟩ := h.exists_next .outgoing definite
    have hwell := wellFormed_walked hg.toWellFormed definite
    rw [reachable, callees, callees, hwalk key hkey, hwalk key hkey]
    refine congrArg Except.ok (SortedSet.eq_of_forall_mem_iff fun f => ?_)
    rw [SortedSet.mem_ofList, SortedSet.mem_ofList, ((List.mergeSort_perm _ _).map _).mem_iff,
      ((List.mergeSort_perm _ _).map _).mem_iff, List.map_map, List.map_map]
    exact (mem_arrivals_iff_transGen hnext hwell (by omega)).trans
      (mem_arrivals_iff_transGen hnext hwell hlimit).symm
  · rw [reachable, callees, callees, h.walk_of_notMem_keys hkey, h.walk_of_notMem_keys hkey]
    rfl

end StoredGraph

/-! ## Main statement -/

namespace Store

/-- Queries of a stored graph answer what the graph itself answers.  They fail exactly for functions
that the graph does not have; otherwise walks report what the graph has within their depth, of the
definite edges alone if they are strict.  What is reached is what a walk comes to whose depth is not
below the number of functions. -/
theorem queries_agree {refuses : Refusals} {s s' : Store} {g : Graph} (hg : g.Reachable)
    (hsave : s.save refuses g = (s', .ok ())) (definite : Bool) (key : FunctionKey) (depth : Nat) :
    (s'.graph.callees definite key depth = .error (.functionNotFound key) ↔
      g.contains key = false) ∧
    (s'.graph.callers definite key depth = .error (.functionNotFound key) ↔
      g.contains key = false) ∧
    (g.contains key = true →
      (∃ hits, s'.graph.callees definite key depth = .ok hits ∧
        Direction.outgoing.Answers (g.walked definite) key depth hits) ∧
      ∃ hits, s'.graph.callers definite key depth = .ok hits ∧
        Direction.incoming.Answers (g.walked definite) key depth hits) ∧
    ∀ limit, g.size ≤ limit → limit < wordLimit → s'.graph.reachable definite key =
      (s'.graph.callees definite key limit).map fun hits => .ofList (hits.map (·.function)) := by
  have hregular := hg.regular
  obtain ⟨-, hholds⟩ := holds_of_save hregular hsave
  have hcontains : g.contains key = true ↔ key ∈ g.keys := by
    rw [contains, Option.isSome_iff_exists]
    exact node_mem_features.symm
  have hnot : ∀ direction, s'.graph.walk direction definite key depth =
      .error (.functionNotFound key) ↔ g.contains key = false := by
    intro direction
    rw [← Bool.not_eq_true, hcontains]
    constructor
    · intro herror hkey
      obtain ⟨hits, hok, -⟩ :=
        StoredGraph.answers_walk hholds hregular hkey direction definite depth
      cases hok.symm.trans herror
    · exact fun hkey => hholds.walk_of_notMem_keys hkey direction definite depth
  refine ⟨hnot .outgoing, hnot .incoming, fun hkey => ?_, fun limit hlimit hword =>
    StoredGraph.reachable_eq hholds hregular hlimit hword⟩
  have hmem := hcontains.mp hkey
  exact ⟨StoredGraph.answers_walk hholds hregular hmem .outgoing definite depth,
    StoredGraph.answers_walk hholds hregular hmem .incoming definite depth⟩

/-- A cycle of three functions, of which one also calls itself; two edges are possible only, and one
call has a definite and a possible edge. -/
def recursiveGraph : Graph :=
  (((((((Graph.empty.ensureNode "main").1.ensureNode "parse").1.ensureNode "read").1.insertEdge
    ⟨0, 1, .direct, .definite⟩ none).1.insertEdge ⟨0, 1, .pointer, .may⟩ none).1.insertEdge
      ⟨1, 2, .pointer, .may⟩ none).1.insertEdge ⟨2, 2, .direct, .definite⟩ none).1.insertEdge
        ⟨2, 0, .direct, .definite⟩ none |>.1

theorem recursiveGraph_queried :
    ∃ s', Store.empty.save (fun _ _ => none) recursiveGraph = (s', .ok ()) ∧
    (∃ hits, s'.graph.callees false "main" 5 = .ok hits ∧
      Direction.outgoing.Answers (recursiveGraph.walked false) "main" 5 hits) ∧
    (∃ hits, s'.graph.callers true "main" 1 = .ok hits ∧
      Direction.incoming.Answers (recursiveGraph.walked true) "main" 1 hits) ∧
    s'.graph.callees false "exit" 1 = .error (.functionNotFound "exit") ∧
    s'.graph.reachable true "read" =
      (s'.graph.callees true "read" 3).map (fun hits => .ofList (hits.map (·.function))) ∧
    (recursiveGraph.walked false).calleesWithin "main" 5 =
      [("main", 3), ("parse", 1), ("read", 2)] ∧
    (recursiveGraph.walked true).callersWithin "main" 1 = [("read", 1)] := by
  have hreachable : recursiveGraph.Reachable :=
    .tail (.tail (.tail (.tail (.tail (.tail (.tail (.tail .refl (.ensureNode _ _))
      (.ensureNode _ _)) (.ensureNode _ _)) (.insertEdge _ _ _ (by decide)))
      (.insertEdge _ _ _ (by decide))) (.insertEdge _ _ _ (by decide)))
      (.insertEdge _ _ _ (by decide))) (.insertEdge _ _ _ (by decide))
  obtain ⟨s', hsave⟩ := exists_save (s := empty) rfl (fun _ _ => rfl) recursiveGraph
  exact ⟨s', hsave, ((queries_agree hreachable hsave false "main" 5).2.2.1 (by decide)).1,
    ((queries_agree hreachable hsave true "main" 1).2.2.1 (by decide)).2,
    (queries_agree hreachable hsave false "exit" 1).1.mpr (by decide),
    (queries_agree hreachable hsave true "read" 1).2.2.2 3 (by decide) (by decide), by cbv, by cbv⟩

end Store

end CallGraphs
