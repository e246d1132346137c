import CallGraphs.Graph.Stats
import CallGraphs.Proofs.Graph.Building
import CallGraphs.Proofs.Store.Rows
import Mathlib

/-!
# Stored and read back

To store a graph is to carry out statements one after the other.  The first ones
leave the tables without rows, whatever was in them, and of the others none takes the
place of a row or is passed over, since a graph that operations build has each key and
each edge once.  So the tables hold the rows of that graph and no others
(`StoredGraph.holds_write`), in the order in which they are asked for, and since every
row is read back, so is the graph (`StoredGraph.Holds.load_eq`).

A statement may be refused.  Then the transaction is undone and nothing has changed;
a graph that is reported as stored is there (`Store.save_roundTrip`).
-/

namespace CallGraphs

open CallGraphs.Graph

/-! ## Rows in order -/

/-- Rows under the numbers that follow `last`. -/
def numbered (last : Nat) : List Row → List Row
  | [] => []
  | row :: rest => (("id", .integer (last + 1)) :: row) :: numbered (last + 1) rest

theorem foldl_numbered (rows : List Row) (t : NumberedTable) : rows.foldl .append t =
    { rows := t.rows ++ numbered t.last rows, last := t.last + rows.length } := by
  induction rows generalizing t with
  | nil => simp [numbered]
  | cons row rows ih =>
      rw [List.foldl_cons, ih]
      simp only [NumberedTable.append, numbered, List.length_cons]
      simp only [List.append_assoc, List.singleton_append, NumberedTable.mk.injEq, true_and]
      omega

theorem length_numbered (rows : List Row) (last : Nat) :
    (numbered last rows).length = rows.length := by
  induction rows generalizing last with
  | nil => rfl
  | cons row rows ih => rw [numbered, List.length_cons, ih, List.length_cons]

theorem countP_numbered {p : Row → Bool} (h : ∀ row number, p (("id", number) :: row) = p row)
    (rows : List Row) (last : Nat) : (numbered last rows).countP p = rows.countP p := by
  induction rows generalizing last with
  | nil => rfl
  | cons row rows ih => rw [numbered, List.countP_cons, List.countP_cons, ih, h]

theorem exists_of_mem_numbered {rows : List Row} {last : Nat} {r : Row}
    (h : r ∈ numbered last rows) :
    ∃ row ∈ rows, ∃ number : Nat, last < number ∧ r = ("id", .integer number) :: row := by
  induction rows generalizing last with
  | nil => exact absurd h List.not_mem_nil
  | cons row rows ih =>
      rcases List.mem_cons.mp h with rfl | h
      · exact ⟨row, List.mem_cons_self, last + 1, Nat.lt_succ_self last, rfl⟩
      · obtain ⟨row', hrow, number, hlt, rfl⟩ := ih h
        exact ⟨row', List.mem_cons_of_mem row hrow, number, by omega, rfl⟩

theorem exists_mem_numbered {rows : List Row} (last : Nat) {row : Row} (h : row ∈ rows) :
    ∃ number, (("id", .integer number) :: row) ∈ numbered last rows := by
  induction rows generalizing last with
  | nil => exact absurd h List.not_mem_nil
  | cons first rows ih =>
      rcases List.mem_cons.mp h with rfl | h
      · exact ⟨_, List.mem_cons_self⟩
      · obtain ⟨number, hnumber⟩ := ih (last + 1) h
        exact ⟨number, List.mem_cons_of_mem _ hnumber⟩

namespace Row

theorem isLE_compare_integers {a b : Int} (h : a ≤ b) :
    (compare [ColumnValue.integer a] [ColumnValue.integer b]).isLE = true := by
  have hvalues : compare (ColumnValue.integer a) (ColumnValue.integer b) = compare a b :=
    Ordering.then_eq
  rw [List.compare_eq_compareLex, List.compareLex_cons_cons, List.compareLex_nil_nil, hvalues,
    Ordering.then_eq]
  exact Int.isLE_compare.mpr h

/-- Rows whose numbers in a column go up are in the order of that column. -/
theorem orderBy_of_pairwise {column : String} {rows : List Row}
    (h : rows.Pairwise fun a b => ∃ m n : Int, m ≤ n ∧ a.column column = .integer m ∧
      b.column column = .integer n) : orderBy [column] rows = rows := by
  refine List.mergeSort_of_pairwise (h.imp ?_)
  rintro a b ⟨m, n, hle, ha, hb⟩
  rw [List.map_singleton, List.map_singleton, ha, hb]
  exact isLE_compare_integers hle

theorem orderBy_numbered (rows : List Row) (last : Nat) :
    orderBy ["id"] (numbered last rows) = numbered last rows := by
  refine orderBy_of_pairwise ?_
  induction rows generalizing last with
  | nil => exact .nil
  | cons row rows ih =>
      refine .cons (fun r hr => ?_) (ih (last + 1))
      obtain ⟨_, -, number, hlt, rfl⟩ := exists_of_mem_numbered hr
      exact ⟨last + 1, number, by omega, rfl, rfl⟩

end Row

namespace StoredGraph

/-! ## Writing -/

/-- Functions of new keys are written behind those that are there. -/
theorem foldl_insertFunction (l : List (Function × Nat)) (s : StoredGraph)
    (hnew : ∀ x ∈ l, ∀ row ∈ s.functions, row.column "key" ≠ .text x.1.key)
    (hnodup : (l.map (·.1.key)).Nodup) :
    l.foldl (fun s x => s.insertFunction x.1 x.2) s =
      { s with functions := s.functions ++ l.map fun x => x.1.row x.2 } := by
  induction l generalizing s with
  | nil => simp
  | cons x l ih =>
      obtain ⟨hfirst, hrest⟩ := List.nodup_cons.mp hnodup
      have hkept : s.functions.filter (·.column "key" ≠ .text x.1.key) = s.functions :=
        List.filter_eq_self.mpr fun row hrow =>
          decide_eq_true (hnew x List.mem_cons_self row hrow)
      rw [List.foldl_cons, insertFunction, hkept, ih _ ?_ hrest]
      · simp
      · intro y hy row hrow
        rcases List.mem_append.mp hrow with hrow | hrow
        · exact hnew y (List.mem_cons_of_mem x hy) row hrow
        · rw [List.mem_singleton.mp hrow, Function.column_key_row]
          intro heq
          exact hfirst (List.mem_map.mpr ⟨y, hy, (ColumnValue.text.inj heq).symm⟩)

/-- Calls that are all different are written behind those that are there. -/
theorem foldl_insertEdge (l : List Call) (s : StoredGraph)
    (hnew : ∀ c ∈ l, ∀ row ∈ s.edges.rows,
      Call.keyColumns.map row.column ≠ Call.keyColumns.map c.row.column)
    (hdistinct : l.Pairwise fun a b => a.sameEdge b = false) :
    l.foldl insertEdge s = { s with edges := (l.map Call.row).foldl .append s.edges } := by
  induction l generalizing s with
  | nil => rfl
  | cons c l ih =>
      obtain ⟨hfirst, hrest⟩ := List.pairwise_cons.mp hdistinct
      have hinsert : s.insertEdge c = { s with edges := s.edges.append c.row } := by
        refine if_neg ?_
        rw [List.any_eq_true]
        rintro ⟨row, hrow, hsame⟩
        exact hnew c List.mem_cons_self row hrow (of_decide_eq_true hsame)
      rw [List.foldl_cons, hinsert, ih _ ?_ hrest]
      · rfl
      · intro d hd row hrow
        rcases List.mem_append.mp hrow with hrow | hrow
        · exact hnew d (List.mem_cons_of_mem c hd) row hrow
        · rw [List.mem_singleton.mp hrow, ne_eq, Call.keyColumns_row_iff, hfirst d hd]
          exact Bool.false_ne_true

theorem foldl_insertDiagnostic (l : List Diagnostic) (s : StoredGraph) :
    l.foldl insertDiagnostic s =
      { s with diagnostics := (l.map Diagnostic.row).foldl .append s.diagnostics } := by
  induction l generalizing s with
  | nil => rfl
  | cons d l ih => rw [List.foldl_cons, ih]; rfl

/-- The tables hold the rows of a graph, each function at its node number, and no other rows. -/
structure Holds (s : StoredGraph) (g : Graph) : Prop where
  functions : s.functions = g.nodes.zipIdx.map fun x => x.1.row x.2
  edges : ∃ last, s.edges.rows = numbered last (g.calls.map Call.row)
  diagnostics : ∃ last, s.diagnostics.rows = numbered last (g.diagnostics.map Diagnostic.row)

/-- The functions of a graph have its keys, node by node. -/
theorem map_fst_zipIdx (l : List Function) : l.zipIdx.map (·.1) = l := List.zipIdx_map_fst 0 l

/-- When a graph is written the tables hold it, whatever was in them. -/
theorem holds_write (s : StoredGraph) {g : Graph} (hg : g.Regular) :
    ((Statement.write g).foldl Statement.apply s).Holds g := by
  have hkeys : (g.nodes.zipIdx.map (·.1.key)).Nodup := by
    have hfst : g.nodes.zipIdx.map (·.1.key) = g.keys := by
      rw [keys, ← map_fst_zipIdx g.nodes, List.map_map, map_fst_zipIdx]
      rfl
    exact hfst ▸ hg.nodup
  have hcleared : Statement.clearAll.foldl Statement.apply s =
      { functions := [], edges := s.edges.clear, diagnostics := s.diagnostics.clear } := rfl
  have hfunctions := foldl_insertFunction g.nodes.zipIdx
    { functions := [], edges := s.edges.clear, diagnostics := s.diagnostics.clear }
    (fun x _ row hrow => absurd hrow List.not_mem_nil) hkeys
  have hedges := foldl_insertEdge g.calls
    { functions := g.nodes.zipIdx.map fun x => x.1.row x.2
      edges := s.edges.clear
      diagnostics := s.diagnostics.clear }
    (fun c _ row hrow => absurd hrow List.not_mem_nil) (pairwise_sameEdge hg)
  have hwritten : (Statement.write g).foldl Statement.apply s =
      { functions := g.nodes.zipIdx.map fun x => x.1.row x.2
        edges := (g.calls.map Call.row).foldl .append s.edges.clear
        diagnostics := (g.diagnostics.map Diagnostic.row).foldl .append s.diagnostics.clear } := by
    simp only [Statement.write, List.foldl_append, List.foldl_map, hcleared, Statement.apply]
    rw [hfunctions, List.nil_append, hedges, foldl_insertDiagnostic]
    simp only [List.foldl_map]
  rw [hwritten]
  exact ⟨rfl, ⟨_, congrArg NumberedTable.rows (foldl_numbered _ _)⟩,
    ⟨_, congrArg NumberedTable.rows (foldl_numbered _ _)⟩⟩

/-! ## Reading -/

theorem readRows_map {α β : Type} {columns : List String} {read : Row → Except DatabaseError β}
    {row : α → Row} {value : α → β} {l : List α}
    (h : ∀ a ∈ l, read ((row a).select columns) = .ok (value a)) :
    readRows columns read (l.map row) = .ok (l.map value) := by
  induction l with
  | nil => rfl
  | cons a l ih =>
      have hrest := ih fun b hb => h b (List.mem_cons_of_mem a hb)
      rw [readRows] at hrest ⊢
      rw [List.map_cons, List.mapM_cons, h a List.mem_cons_self, hrest]
      rfl

/-- Rows are read whatever their numbers are. -/
theorem readRows_numbered {α : Type} {columns : List String} {read : Row → Except DatabaseError α}
    {row : α → Row}
    (h : ∀ a number, read (Row.select columns (("id", number) :: row a)) = .ok a)
    (l : List α) (last : Nat) : readRows columns read (numbered last (l.map row)) = .ok l := by
  induction l generalizing last with
  | nil => rfl
  | cons a l ih =>
      have hrest := ih (last + 1)
      rw [readRows] at hrest ⊢
      rw [List.map_cons, numbered, List.mapM_cons, h, hrest]
      rfl

/-- The lower half of the words are not negative as signed numbers. -/
theorem signedWord_of_lt {n : Nat} (h : n < wordLimit / 2) : signedWord n = n := by
  rw [signedWord, Int.bmod_eq_of_le]
  · simp [wordLimit]
  · simp only [wordLimit] at *
    omega

/-- Functions at their node numbers are in order already. -/
theorem orderBy_position {g : Graph} (hsize : g.size ≤ wordLimit / 2) :
    Row.orderBy ["position"] (g.nodes.zipIdx.map fun x => x.1.row x.2) =
      g.nodes.zipIdx.map fun x => x.1.row x.2 := by
  refine Row.orderBy_of_pairwise ?_
  rw [List.pairwise_map, List.pairwise_iff_getElem]
  intro i j hi hj hij
  rw [List.length_zipIdx] at hi hj
  simp only [List.getElem_zipIdx, Nat.zero_add, Function.column_position_row]
  rw [signedWord_of_lt (by unfold Graph.size at hsize; omega),
    signedWord_of_lt (by unfold Graph.size at hsize; omega)]
  exact ⟨i, j, by omega, rfl, rfl⟩

namespace Holds

variable {s : StoredGraph} {g : Graph}

/-- The graph that the tables hold is read from them. -/
theorem load_eq (h : s.Holds g) (hg : g.Regular) (hsize : g.size ≤ wordLimit / 2) :
    s.load = .ok g := by
  have hfunctions : readRows Function.columns Function.ofRow (Row.orderBy ["position"] s.functions)
      = .ok g.nodes := by
    rw [h.functions, orderBy_position hsize, readRows_map fun x _ => x.1.ofRow_row x.2,
      map_fst_zipIdx]
  have hcalls : readRows Call.columns Call.ofRow (Row.orderBy ["id"] s.edges.rows) =
      .ok g.calls := by
    obtain ⟨last, hrows⟩ := h.edges
    rw [hrows, Row.orderBy_numbered]
    exact readRows_numbered (fun c number => by rw [c.select_row, c.ofRow_row]) g.calls last
  have hdiagnostics : s.allDiagnostics = .ok g.diagnostics := by
    obtain ⟨last, hrows⟩ := h.diagnostics
    rw [allDiagnostics, hrows, Row.orderBy_numbered]
    exact readRows_numbered (fun d number => d.ofRow_row number) g.diagnostics last
  rw [load, hfunctions, hcalls, hdiagnostics]
  exact congrArg Except.ok (build_self hg)

/-- The tables count what the graph counts. -/
theorem stats_eq (h : s.Holds g) : s.stats =
    { functions := g.stats.functions
      defined := g.stats.defined
      edges := g.stats.totalEdges
      mayEdges := g.stats.mayEdges
      diagnostics := g.stats.diagnostics } := by
  obtain ⟨lastEdge, hedges⟩ := h.edges
  obtain ⟨lastDiagnostic, hdiagnostics⟩ := h.diagnostics
  have hdefined : s.functions.countP (·.column "has_body" = .integer 1) =
      g.nodes.countP (·.hasBody) := by
    rw [h.functions, ← map_fst_zipIdx g.nodes, List.countP_map, List.countP_map, map_fst_zipIdx]
    refine List.countP_congr fun x _ => ?_
    cases hbody : x.1.hasBody <;> simp [hbody, ColumnValue.ofBool]
  have hmay : s.edges.rows.countP (·.column "confidence" = .text "may") =
      g.edges.countP (!·.edge.isDefinite) := by
    rw [hedges, countP_numbered fun row number => rfl, calls, List.map_map, List.countP_map]
    refine List.countP_congr fun e _ => ?_
    have hcolumn : Row.column (g.callOf e).row "confidence" = .text e.edge.confidence.name := rfl
    cases hconfidence : e.edge.confidence <;>
      simp [hcolumn, hconfidence, Edge.isDefinite, Confidence.name]
  rw [stats, hdefined, hmay, h.functions, hedges, hdiagnostics, length_numbered, length_numbered]
  simp [Graph.stats, Graph.size, Graph.calls]

end Holds

end StoredGraph

/-! ## Transactions -/

/-- A statement that changes tables. -/
def Statement.IsChange (statement : Statement) : Prop :=
  statement ≠ begin ∧ statement ≠ commit ∧ statement ≠ rollback

theorem Statement.isChange_of_mem_write {g : Graph} {statement : Statement}
    (h : statement ∈ write g) : statement.IsChange := by
  simp only [write, clearAll, List.mem_append, List.mem_cons, List.not_mem_nil, or_false,
    List.mem_map] at h
  rcases h with ((((rfl | rfl | rfl) | ⟨_, -, rfl⟩) | ⟨_, -, rfl⟩) | ⟨_, -, rfl⟩) <;>
    simp [IsChange]

namespace Store

variable {refuses : Refusals} {s s' : Store} {g : Graph}

theorem run_change {statement : Statement} (h : statement.IsChange) (s : Store) :
    s.run statement = .ok { s with graph := statement.apply s.graph } := by
  obtain ⟨hbegin, hcommit, hrollback⟩ := h
  cases statement with
  | begin => exact absurd rfl hbegin
  | commit => exact absurd rfl hcommit
  | rollback => exact absurd rfl hrollback
  | _ => rfl

/-- Statements that change tables leave a transaction open, and without an error all of them were
carried out. -/
theorem executeAll_changes {l : List Statement} (hl : ∀ statement ∈ l, statement.IsChange)
    (s : Store) : (s.executeAll refuses l).1.checkpoint = s.checkpoint ∧
      ((s.executeAll refuses l).2 = .ok () →
        (s.executeAll refuses l).1.graph = l.foldl Statement.apply s.graph) ∧
      ((∀ store statement, refuses store statement = none) →
        (s.executeAll refuses l).2 = .ok ()) := by
  induction l generalizing s with
  | nil => exact ⟨rfl, fun _ => rfl, fun _ => rfl⟩
  | cons statement l ih =>
      obtain ⟨hfirst, hrest⟩ := List.forall_mem_cons.mp hl
      rw [executeAll, execute]
      cases hrefuses : refuses s statement with
      | some e =>
          have herror : (Except.error e : Except DatabaseError Unit) ≠ .ok () := nofun
          refine ⟨rfl, fun h => absurd h herror, fun hnever => ?_⟩
          rw [hnever] at hrefuses
          cases hrefuses
      | none =>
          rw [run_change hfirst]
          exact ih hrest { s with graph := statement.apply s.graph }

/-- The store once a transaction is open. -/
def opened (s : Store) : Store := { s with checkpoint := some s.graph }

/-- What storing a graph comes to when no transaction is open: it does not begin, or the tables are
written and that is committed, or it is undone. -/
theorem save_cases (refuses : Refusals) (hclosed : s.checkpoint = none) (g : Graph) :
    (∃ e, refuses s .begin = some e ∧ s.save refuses g = (s, .error e)) ∨
    ((s.opened.executeAll refuses (Statement.write g)).2 = .ok () ∧
      s.save refuses g =
        (s.opened.executeAll refuses (Statement.write g)).1.executeAll refuses [.commit]) ∨
    ∃ e, (s.opened.executeAll refuses (Statement.write g)).2 = .error e ∧ s.save refuses g =
      match (s.opened.executeAll refuses (Statement.write g)).1.execute refuses .rollback with
      | .ok undone => (undone, .error e)
      | .error e' => ((s.opened.executeAll refuses (Statement.write g)).1, .error e') := by
  have hbegin : s.run .begin = .ok s.opened := by
    rw [run, hclosed]
    rfl
  rw [save, execute]
  cases hrefuses : refuses s .begin with
  | some e => exact .inl ⟨e, rfl, rfl⟩
  | none =>
      rw [hbegin]
      dsimp only
      obtain ⟨written, outcome⟩ := s.opened.executeAll refuses (Statement.write g)
      cases outcome with
      | ok _ => exact .inr (.inl ⟨rfl, rfl⟩)
      | error e => exact .inr (.inr ⟨e, rfl, rfl⟩)

/-- A transaction that is open stays open, and nothing is stored. -/
theorem save_of_open (hopen : s.checkpoint ≠ none) :
    s.save refuses g = (s, .error ((refuses s .begin).getD .nested)) := by
  obtain ⟨before, hbefore⟩ := Option.ne_none_iff_exists'.mp hopen
  have hbegin : s.run .begin = .error .nested := by rw [run, hbefore]
  rw [save, execute]
  cases refuses s .begin with
  | some e => rfl
  | none => rw [hbegin]; rfl

/-- While a graph is written a transaction is open, to which the old tables belong. -/
theorem executeAll_write (refuses : Refusals) (s : Store) (g : Graph) :
    (s.opened.executeAll refuses (Statement.write g)).1.checkpoint = some s.graph ∧
      ((s.opened.executeAll refuses (Statement.write g)).2 = .ok () →
        (s.opened.executeAll refuses (Statement.write g)).1.graph =
          (Statement.write g).foldl Statement.apply s.graph) ∧
      ((∀ store statement, refuses store statement = none) →
        (s.opened.executeAll refuses (Statement.write g)).2 = .ok ()) :=
  executeAll_changes (fun _ h => Statement.isChange_of_mem_write h) s.opened

/-- A graph that is reported as stored is in the tables. -/
theorem holds_of_save (hg : g.Regular) (h : s.save refuses g = (s', .ok ())) :
    s'.checkpoint = none ∧ s'.graph.Holds g := by
  by_cases hclosed : s.checkpoint = none
  · obtain ⟨hopen, htables, -⟩ := executeAll_write refuses s g
    rcases save_cases refuses hclosed g with ⟨e, -, hsave⟩ | ⟨hwritten, hsave⟩ | ⟨e, -, hsave⟩
    · rw [hsave] at h
      cases h
    · have hgraph := htables hwritten
      rw [hsave, executeAll, execute] at h
      generalize (s.opened.executeAll refuses (Statement.write g)).1 = written at *
      cases hcommit : refuses written .commit with
      | some e => simp [hcommit] at h
      | none =>
          simp only [hcommit, run, hopen, executeAll, Prod.mk.injEq, and_true] at h
          rw [← h]
          refine ⟨rfl, ?_⟩
          rw [hgraph]
          exact StoredGraph.holds_write s.graph hg
    · rw [hsave] at h
      split at h <;> cases h
  · rw [save_of_open hclosed] at h
    cases h

/-- A graph is stored when no transaction is open and no statement is refused. -/
theorem exists_save (hclosed : s.checkpoint = none)
    (hnever : ∀ store statement, refuses store statement = none) (g : Graph) :
    ∃ s', s.save refuses g = (s', .ok ()) := by
  obtain ⟨hopen, -, hwrites⟩ := executeAll_write refuses s g
  rcases save_cases refuses hclosed g with ⟨e, hbegin, -⟩ | ⟨-, hsave⟩ | ⟨e, hwritten, -⟩
  · rw [hnever] at hbegin
    cases hbegin
  · rw [hsave, executeAll, execute, hnever, run, hopen]
    exact ⟨_, rfl⟩
  · rw [hwrites hnever] at hwritten
    cases hwritten

/-- When a graph is not stored nothing has changed, as long as transactions can be ended. -/
theorem eq_of_save_error {e : DatabaseError} (hcommit : ∀ store, refuses store .commit = none)
    (hrollback : ∀ store, refuses store .rollback = none)
    (h : s.save refuses g = (s', .error e)) : s' = s := by
  by_cases hclosed : s.checkpoint = none
  · obtain ⟨hopen, -⟩ := executeAll_write refuses s g
    rcases save_cases refuses hclosed g with ⟨e', -, hsave⟩ | ⟨-, hsave⟩ | ⟨e', -, hsave⟩
    · rw [hsave] at h
      exact (congrArg Prod.fst h).symm
    · rw [hsave, executeAll, execute, hcommit, run, hopen] at h
      cases h
    · rw [hsave, execute, hrollback, run, hopen] at h
      obtain ⟨tables, checkpoint⟩ := s
      obtain rfl : checkpoint = none := hclosed
      exact (congrArg Prod.fst h).symm
  · rw [save_of_open hclosed] at h
    exact (congrArg Prod.fst h).symm

/-! ## Main statement -/

/-- A graph that operations build is stored when no transaction is open and no statement is refused.
Once it is reported as stored it is read back as it was, whatever was stored before, and the store
counts what the graph counts.  While a transaction is open nothing is stored and the transaction
stays open, and when a statement is refused on the way all is as before.

The positions of functions are signed words in a store, so there are half as many of them as there
are words; a table of functions has no more entries than that. -/
theorem save_roundTrip (refuses : Refusals) (s : Store) {g : Graph} (hg : g.Reachable)
    (hsize : g.size ≤ wordLimit / 2) :
    (s.checkpoint = none → (∀ store statement, refuses store statement = none) →
      ∃ s', s.save refuses g = (s', .ok ())) ∧
    (∀ s', s.save refuses g = (s', .ok ()) → s'.checkpoint = none ∧
      s'.graph.load = .ok g ∧
      s'.graph.stats =
        { functions := g.stats.functions
          defined := g.stats.defined
          edges := g.stats.totalEdges
          mayEdges := g.stats.mayEdges
          diagnostics := g.stats.diagnostics }) ∧
    (s.checkpoint ≠ none → s.save refuses g = (s, .error ((refuses s .begin).getD .nested))) ∧
    ∀ s' e, s.save refuses g = (s', .error e) → (∀ store, refuses store .commit = none) →
      (∀ store, refuses store .rollback = none) → s' = s := by
  refine ⟨fun hclosed hnever => exists_save hclosed hnever g, fun s' hsave => ?_, save_of_open,
    fun s' e hsave hcommit hrollback => eq_of_save_error hcommit hrollback hsave⟩
  obtain ⟨hclosed, hholds⟩ := holds_of_save hg.regular hsave
  exact ⟨hclosed, hholds.load_eq hg.regular hsize, hholds.stats_eq⟩

/-- A graph with an override link, an edge and a diagnostic. -/
def overridingGraph : Graph :=
  ((((Graph.empty.addFunction { key := "main", hasBody := true, origin := some "a" }).1.linkOverride
    "B::f" "A::f").insertEdge ⟨0, 2, .virtual, .may⟩ (some "a")).1.addDiagnostic
      ⟨.malformedFact "unknown class", some "a"⟩)

/-- A store that has a function already. -/
def occupied : Store := { graph := { functions := [(Function.declared "old").row 7] } }

/-- There is no room for diagnostics. -/
def withoutRoom : Refusals
  | _, .insertDiagnostic _ => some (.refused "database or disk is full")
  | _, _ => none

theorem overridingGraph_saved :
    (∃ s', occupied.save (fun _ _ => none) overridingGraph = (s', .ok ()) ∧
      s'.graph.load = .ok overridingGraph) ∧
    ({ occupied with checkpoint := some .empty } : Store).save withoutRoom overridingGraph =
      ({ occupied with checkpoint := some .empty }, .error .nested) ∧
    occupied.save withoutRoom overridingGraph =
      (occupied, .error (.refused "database or disk is full")) := by
  have hreachable : overridingGraph.Reachable :=
    .tail (.tail (.tail (.tail .refl (.addFunction _ _)) (.linkOverride _ _ _))
      (.insertEdge _ _ _ (by decide))) (.addDiagnostic _ _)
  have hsize : overridingGraph.size ≤ wordLimit / 2 := by decide
  obtain ⟨hsaves, hsaved, -⟩ := save_roundTrip (fun _ _ => none) occupied hreachable hsize
  obtain ⟨s', hsave⟩ := hsaves rfl fun _ _ => rfl
  obtain ⟨-, -, hopen, -⟩ := save_roundTrip withoutRoom
    { occupied with checkpoint := some .empty } hreachable hsize
  obtain ⟨-, -, -, hundone⟩ := save_roundTrip withoutRoom occupied hreachable hsize
  have herror : (occupied.save withoutRoom overridingGraph).2 =
      .error (.refused "database or disk is full") := by decide
  have hstore := hundone _ _ (Prod.ext rfl herror) (fun _ => rfl) fun _ => rfl
  exact ⟨⟨s', hsave, (hsaved s' hsave).2.1⟩, hopen nofun, Prod.ext hstore herror⟩

end Store

end CallGraphs
