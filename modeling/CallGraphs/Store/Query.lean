import CallGraphs.Data.Counting
import CallGraphs.Data.Results
import CallGraphs.Pattern.Regex.Parser
import CallGraphs.Store.Basic

/-!
# Queries on stored graphs

Searches by name, and walks along the stored calls.  A walk takes functions from
a queue and puts those behind that it comes to for the first time.  It reports
every function once, with the call by which it came there; the start is reported
when a call leads back to it, and is not left again.  How search patterns are
compared with texts is for whoever asks to say.
-/

namespace CallGraphs

/-- Why a query has no answer. -/
inductive QueryError where
  /-- No stored function has this name. -/
  | functionNotFound (name : String)
  /-- The regular expression is not one. -/
  | invalidPattern (pattern : String)
  /-- What is stored cannot be read. -/
  | storage (error : DatabaseError)
deriving DecidableEq, Inhabited, Repr

namespace QueryError

/-- The error in words. -/
def message : QueryError → String
  | functionNotFound name => "Function not found: " ++ name
  | invalidPattern pattern => "Invalid pattern: " ++ pattern
  | storage error => error.message

end QueryError

/-- A function found by name. -/
structure SearchHit where
  function : Function
  /-- The name is exactly what was searched for. -/
  isExact : Bool
deriving DecidableEq, Inhabited

namespace SearchHit

/-- An exact hit counts one, any other half. -/
def score (hit : SearchHit) : String := if hit.isExact then "1.0" else "0.5"

end SearchHit

/-- A function that a walk came to, and the call that first reached it. -/
structure CallHit where
  function : FunctionKey
  depth : Nat
  kind : EdgeKind
  confidence : Confidence
deriving DecidableEq, Inhabited, Repr

namespace CallHit

/-- Nearer functions come first, and functions at one distance go by key. -/
instance : Ord CallHit where
  compare := compareLex (compareOn CallHit.depth) (compareOn CallHit.function)

end CallHit

/-- Which way a walk follows the calls. -/
inductive Direction where
  /-- From callers to callees. -/
  | outgoing
  /-- From callees to callers. -/
  | incoming
deriving DecidableEq, Inhabited, Repr

namespace Direction

/-- The end of a call that a walk comes to. -/
def target : Direction → Call → FunctionKey
  | outgoing => Call.callee
  | incoming => Call.caller

/-- The calls by which a walk leaves a function. -/
def calls (direction : Direction) (s : StoredGraph) (key : FunctionKey) :
    Except DatabaseError (List Call) :=
  match direction with
  | outgoing => s.callsFrom key
  | incoming => s.callsTo key

end Direction

/-! ## Names -/

namespace StoredGraph

/-- The first functions whose name contains a text, or matches it if it has wildcards. -/
def search (like : String → String → Bool) (s : StoredGraph) (text : String) (limit : Nat) :
    List SearchHit :=
  ((s.findFunctions like (Like.containing text)).take limit).map fun f =>
    { function := f, isExact := f.key = text || f.name = text }

/-- The first functions that a regular expression matches, in their key or their name. -/
def searchRegex (like : String → String → Bool) (s : StoredGraph) (pattern : String)
    (limit : Nat) : Except QueryError (List Function) :=
  match Regex.parse? pattern with
  | some regex =>
    .ok (((s.findFunctions like "%").filter fun f =>
      regex.isMatch f.key || regex.isMatch f.name).take limit)
  | none => .error (.invalidPattern pattern)

/-- The function that a name stands for: the one with this key, else the first that it matches. -/
def resolve (like : String → String → Bool) (s : StoredGraph) (name : String) :
    Except QueryError Function := do
  match ← (s.function? name).mapError QueryError.storage with
  | some f => return f
  | none =>
    match s.findFunctions like name with
    | f :: _ => return f
    | [] => throw (.functionNotFound name)

end StoredGraph

/-! ## Walks -/

/-- Where a walk stands. -/
structure Wandering where
  /-- The functions to go on from, each with its distance. -/
  queue : List (FunctionKey × Nat)
  visited : List FunctionKey
  startReported : Bool := false
  hits : List CallHit := []
deriving DecidableEq, Inhabited, Repr

namespace Wandering

/-- Nothing is reported yet, and the start is to be left. -/
def start (key : FunctionKey) : Wandering := { queue := [(key, 0)], visited := [key] }

/-- Follows a call out of a function at some distance; a strict walk follows definite calls only. -/
def follow (direction : Direction) (definite : Bool) (start : FunctionKey) (distance : Nat)
    (w : Wandering) (c : Call) : Wandering :=
  if definite && c.confidence ≠ .definite then w
  else
    let next := direction.target c
    let hit : CallHit :=
      { function := next, depth := distance + 1, kind := c.kind, confidence := c.confidence }
    if next = start then
      if w.startReported then w else { w with startReported := true, hits := w.hits ++ [hit] }
    else if next ∈ w.visited then w
    else { w with
      visited := next :: w.visited
      hits := w.hits ++ [hit]
      queue := w.queue ++ [(next, distance + 1)] }

section
variable {direction : Direction} {definite : Bool} {start : FunctionKey} {distance : Nat}
  {all : List FunctionKey}

/-- What a walk may still do: functions to come to and functions to go on from. -/
def work (all : List FunctionKey) (w : Wandering) : Nat := unseen all w.visited + w.queue.length

theorem work_follow_le {c : Call} (hc : direction.target c ∈ all) (w : Wandering) :
    (w.follow direction definite start distance c).work all ≤ w.work all := by
  rw [follow]
  split
  · exact Nat.le_refl _
  · dsimp only
    split
    · split <;> exact Nat.le_refl _
    · split
      · exact Nat.le_refl _
      · next hnew =>
        have := unseen_cons_lt hc hnew
        simp only [work, List.length_append, List.length_singleton]
        omega

theorem work_foldl_follow_le {calls : List Call} (hcalls : ∀ c ∈ calls, direction.target c ∈ all)
    (w : Wandering) :
    (calls.foldl (follow direction definite start distance) w).work all ≤ w.work all := by
  induction calls generalizing w with
  | nil => exact Nat.le_refl _
  | cons c rest ih =>
    obtain ⟨hc, hrest⟩ := List.forall_mem_cons.1 hcalls
    exact Nat.le_trans (ih hrest _) (work_follow_le hc w)

end

/-- Goes on while there are functions in the queue; functions as far away as `depth` are not
left. -/
def run (calls : FunctionKey → Except DatabaseError (List Call)) (direction : Direction)
    (definite : Bool) (start : FunctionKey) (depth : Nat) (all : List FunctionKey)
    (hall : ∀ key row, calls key = .ok row → ∀ c ∈ row, direction.target c ∈ all) :
    Wandering → Except DatabaseError (List CallHit)
  | { queue := [], visited := _, startReported := _, hits } => .ok hits
  | { queue := (key, distance) :: rest, visited, startReported, hits } =>
    if depth ≤ distance then
      run calls direction definite start depth all hall
        { queue := rest, visited, startReported, hits }
    else
      match _hrow : calls key with
      | .error e => .error e
      | .ok row =>
        run calls direction definite start depth all hall
          (row.foldl (follow direction definite start distance)
            { queue := rest, visited, startReported, hits })
termination_by w => w.work all
decreasing_by
  · simp [work]
  · refine Nat.lt_of_le_of_lt (work_foldl_follow_le (hall key row _hrow) _) ?_
    simp [work]

end Wandering

namespace StoredGraph

/-- The texts that stand at the ends of stored calls. -/
def ends (s : StoredGraph) : List FunctionKey :=
  s.edges.rows.flatMap fun row =>
    [row.column "caller", row.column "callee"].filterMap ColumnValue.asText?

/-- The ends of a call stand in its row. -/
theorem ends_of_ofRow {row : Row} {c : Call} (h : Call.ofRow (row.select Call.columns) = .ok c) :
    row.column "caller" = .text c.caller ∧ row.column "callee" = .text c.callee := by
  rw [Call.ofRow] at h
  obtain ⟨caller, hcaller, h⟩ := bind_eq_ok.1 h
  obtain ⟨callee, hcallee, h⟩ := bind_eq_ok.1 h
  obtain ⟨_, _, h⟩ := bind_eq_ok.1 h
  obtain ⟨_, _, h⟩ := bind_eq_ok.1 h
  obtain ⟨_, _, h⟩ := bind_eq_ok.1 h
  obtain ⟨_, _, h⟩ := bind_eq_ok.1 h
  obtain ⟨_, _, h⟩ := bind_eq_ok.1 h
  obtain rfl := Except.ok.inj h
  exact ⟨ColumnValue.eq_text_of_asText? (Row.read_of_get rfl hcaller),
    ColumnValue.eq_text_of_asText? (Row.read_of_get rfl hcallee)⟩

theorem target_mem_ends (s : StoredGraph) (direction : Direction) (key : FunctionKey)
    (row : List Call) (h : direction.calls s key = .ok row) :
    ∀ c ∈ row, direction.target c ∈ s.ends := by
  have hends : ∀ {column value order}, s.callsWhere column value order = .ok row →
      ∀ c ∈ row, c.caller ∈ s.ends ∧ c.callee ∈ s.ends := by
    intro column value order hread c hc
    obtain ⟨r, hr, hof⟩ := (mem_of_mapM hread).1 hc
    obtain ⟨hcaller, hcallee⟩ := ends_of_ofRow hof
    have hrow : r ∈ s.edges.rows := (List.mem_filter.1 (List.mem_mergeSort.1 hr)).1
    constructor <;> refine List.mem_flatMap.2 ⟨r, hrow, ?_⟩ <;>
      simp [hcaller, hcallee, ColumnValue.asText?]
  cases direction with
  | outgoing => exact fun c hc => (hends h c hc).2
  | incoming => exact fun c hc => (hends h c hc).1

/-- What a walk comes to within `depth` calls of its start, nearest first. -/
def walk (s : StoredGraph) (direction : Direction) (definite : Bool) (start : FunctionKey)
    (depth : Nat) : Except QueryError (List CallHit) := do
  match ← (s.function? start).mapError QueryError.storage with
  | none => throw (.functionNotFound start)
  | some _ =>
    let hits ← (Wandering.run (direction.calls s) direction definite start depth s.ends
      (s.target_mem_ends direction) (.start start)).mapError QueryError.storage
    return hits.mergeSort fun a b => (compare a b).isLE

/-- The functions that call a function, over at most `depth` calls. -/
def callers (s : StoredGraph) (definite : Bool) (key : FunctionKey) (depth : Nat) :
    Except QueryError (List CallHit) :=
  s.walk .incoming definite key depth

/-- The functions that a function calls, over at most `depth` calls. -/
def callees (s : StoredGraph) (definite : Bool) (key : FunctionKey) (depth : Nat) :
    Except QueryError (List CallHit) :=
  s.walk .outgoing definite key depth

/-- The functions reached from a function, by as many calls as can be counted, by key. -/
def reachable (s : StoredGraph) (definite : Bool) (entry : FunctionKey) :
    Except QueryError (SortedSet FunctionKey) := do
  return .ofList ((← s.callees definite entry (wordLimit - 1)).map (·.function))

end StoredGraph

end CallGraphs
