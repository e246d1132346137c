import CallGraphs.Formats.Dot
import CallGraphs.Proofs.Text.Delimited
import Mathlib.Data.List.Basic

/-!
# Digraphs can be read back

Keys and names are written in quotes, and nothing inside can be taken for the quote
that ends them (`delimits_quote`), whether it looks like the rest of a statement or
not.  So every statement ends by itself, and one for a function is told from one for an
edge by what stands after the first name (`delimits_line`).  A digraph is its statements
in a row, up to a brace that begins none of them, and hence shows all that stands in
them (`text_unambiguous`).
-/

namespace CallGraphs

namespace Dot

/-! ## Names -/

/-- A character inside a quoted name: a quote or a backslash takes a backslash before it. -/
def escape (c : Char) : List Char :=
  if c = '\\' || c = '"' then ['\\', c] else [c]

/-- The two rounds of replacements come to one, since the second round finds no quotes that the
first one has made. -/
theorem replaced_replaced (text : List Char) :
    replaced '"' ['\\', '"'] (replaced '\\' ['\\', '\\'] text) = text.flatMap escape := by
  rw [replaced, replaced, List.flatMap_assoc]
  refine List.flatMap_congr fun c _ => ?_
  by_cases hslash : c = '\\'
  · simp [escape, hslash]
  · by_cases hquote : c = '"' <;> simp [escape, hslash, hquote]

/-- A character that has a backslash before it is one of two, and any other stands alone. -/
theorem escape_cases (c : Char) :
    escape c = ['\\', c] ∨ (escape c = [c] ∧ c ≠ '\\' ∧ c ≠ '"') := by
  by_cases hc : c = '\\' ∨ c = '"'
  · exact Or.inl (by simp [escape, hc])
  · exact Or.inr ⟨by simp [escape, hc], not_or.mp hc⟩

theorem delimits_escape : Delimits fun c => String.ofList (escape c) := by
  intro c d x y h
  simp only [String.toList_ofList] at h
  rcases escape_cases c with hc | ⟨hc, hslash, -⟩ <;>
    rcases escape_cases d with hd | ⟨hd, hslash', -⟩ <;>
    simp only [hc, hd, List.cons_append, List.nil_append, List.cons.injEq, true_and] at h
  · exact h
  · exact absurd h.1.symm hslash'
  · exact absurd h.1 hslash
  · exact h

/-- A name in quotes ends at the first quote that has no backslash of its own before it. -/
theorem delimits_quote : Delimits quote := by
  intro s t x y h
  have hstop : ∀ c (x y : List Char), (String.ofList (escape c)).toList ++ x ≠ '"' :: y := by
    intro c x y
    rcases escape_cases c with hc | ⟨hc, -, hquote⟩ <;> simp [hc]
    exact fun h => absurd h hquote
  simp only [quote, replaced_replaced, String.toList_append, List.append_assoc] at h
  obtain ⟨hchars, hrest⟩ := delimits_escape.endsBefore_join hstop
    (by simpa [List.flatMap_map] using h)
  exact ⟨String.toList_inj.mp hchars, hrest⟩

/-! ## Statements -/

/-- A statement of a digraph. -/
inductive Statement where
  | node (key : FunctionKey) (name : String) (hasBody : Bool)
  | edge (caller callee : FunctionKey) (kind : EdgeKind) (confidence : Confidence)

namespace Statement

/-- The statement for a function. -/
def ofFunction (f : Function) : Statement := .node f.key f.name f.hasBody

/-- The statement for a call. -/
def ofCall (c : Call) : Statement := .edge c.caller c.callee c.kind c.confidence

/-- What a statement says of a function. -/
def node? : Statement → Option (FunctionKey × String × Bool)
  | node key name hasBody => some (key, name, hasBody)
  | edge .. => none

/-- The call that a statement is for. -/
def call? : Statement → Option Call
  | node .. => none
  | edge caller callee kind confidence => some { caller, callee, kind, confidence }

/-- The statement as a line. -/
def line : Statement → String
  | node key name hasBody => nodeLine { key, displayName := some name, hasBody }
  | edge caller callee kind confidence => edgeLine { caller, callee, kind, confidence }

theorem line_ofFunction (f : Function) : (ofFunction f).line = nodeLine f := rfl

theorem line_ofCall (c : Call) : (ofCall c).line = edgeLine c := rfl

/-! ## Where statements end -/

/-- How a function with a body is drawn, and one without. -/
def shape (hasBody : Bool) : String := if hasBody then "box" else "ellipse"

theorem line_node (key : FunctionKey) (name : String) (hasBody : Bool) :
    (node key name hasBody).line =
      "  " ++ quote key ++ " [label=" ++ quote name ++ ", shape=" ++ shape hasBody ++ "];\n" := rfl

theorem line_edge (caller callee : FunctionKey) (kind : EdgeKind) (confidence : Confidence) :
    (edge caller callee kind confidence).line =
      "  " ++ quote caller ++ " -> " ++ quote callee ++ " [color=" ++ colour kind ++
        ", style=" ++ style confidence ++ ", label=\"" ++ kind.name ++ "\"];\n" := rfl

theorem endsBefore_shape : EndsBefore ']' shape := by
  refine endsBefore_of_notMem (fun a b => ?_) fun a => ?_
  · cases a <;> cases b <;> decide
  · cases a <;> decide

theorem endsBefore_colour : EndsBefore ',' colour := by
  refine endsBefore_of_notMem (fun a b => ?_) fun a => ?_
  · cases a <;> cases b <;> decide
  · cases a <;> decide

theorem endsBefore_style : EndsBefore ',' style := by
  refine endsBefore_of_notMem (fun a b => ?_) fun a => ?_
  · cases a <;> cases b <;> decide
  · cases a <;> decide

/-- A statement ends by itself. -/
theorem delimits_line : Delimits line := by
  intro a b x y h
  cases a with
  | node key name hasBody =>
      rw [line_node] at h
      cases b with
      | node key' name' hasBody' =>
          rw [line_node] at h
          obtain ⟨rfl, h⟩ := delimits_quote (by simpa using h)
          obtain ⟨rfl, h⟩ := delimits_quote (by simpa using h)
          obtain ⟨rfl, h⟩ := endsBefore_shape (by simpa using h)
          exact ⟨rfl, by simpa using h⟩
      | edge caller callee kind confidence =>
          rw [line_edge] at h
          obtain ⟨-, h⟩ := delimits_quote (by simpa using h)
          exact absurd h (by simp)
  | edge caller callee kind confidence =>
      rw [line_edge] at h
      cases b with
      | node key' name' hasBody' =>
          rw [line_node] at h
          obtain ⟨-, h⟩ := delimits_quote (by simpa using h)
          exact absurd h (by simp)
      | edge caller' callee' kind' confidence' =>
          rw [line_edge] at h
          obtain ⟨rfl, h⟩ := delimits_quote (by simpa using h)
          obtain ⟨rfl, h⟩ := delimits_quote (by simpa using h)
          obtain ⟨rfl, h⟩ := endsBefore_colour (by simpa using h)
          -- the name of a kind only repeats what the colour has told
          obtain ⟨rfl, h⟩ := endsBefore_style (by simpa using h)
          exact ⟨rfl, by simpa using h⟩

theorem line_append_ne (a : Statement) (x y : List Char) : a.line.toList ++ x ≠ '\x7d' :: y := by
  cases a with
  | node key name hasBody => simp [line_node]
  | edge caller callee kind confidence => simp [line_edge]

end Statement

/-- The statements for a graph. -/
def statements (g : Graph) : List Statement :=
  g.sortedFunctions.map .ofFunction ++ g.sortedCalls.map .ofCall

/-! ## Digraphs -/

open Statement

theorem text_eq (g : Graph) : text g =
    "digraph callgraph \x7b\n" ++ (String.join ((statements g).map line) ++ "\x7d\n") := by
  have htext : text g = "digraph callgraph \x7b\n" ++
      String.join (g.sortedFunctions.map nodeLine) ++ String.join (g.sortedCalls.map edgeLine) ++
      "\x7d\n" := rfl
  have hnodes : g.sortedFunctions.map (line ∘ ofFunction) = g.sortedFunctions.map nodeLine :=
    List.map_congr_left fun f _ => line_ofFunction f
  have hedges : g.sortedCalls.map (line ∘ ofCall) = g.sortedCalls.map edgeLine :=
    List.map_congr_left fun c _ => line_ofCall c
  rw [htext, statements, List.map_append, List.map_map, List.map_map, hnodes, hedges,
    String.join_append, String.append_assoc, String.append_assoc, String.append_assoc]

/-- A digraph shows its statements. -/
theorem text_eq_iff (g g' : Graph) : text g = text g' ↔ statements g = statements g' := by
  rw [text_eq, text_eq]
  refine ⟨fun h => ?_, fun h => by rw [h]⟩
  have hlines := congrArg String.toList ((String.append_right_inj _).mp h)
  rw [String.toList_append, String.toList_append] at hlines
  exact (delimits_line.endsBefore_join line_append_ne hlines).1

theorem nodes_statements (g : Graph) : (statements g).filterMap node? =
    g.sortedFunctions.map fun f => (f.key, f.name, f.hasBody) := by
  have hnone : node? ∘ ofCall = fun _ => none := rfl
  have hsome : node? ∘ ofFunction = fun f => some (f.key, f.name, f.hasBody) := rfl
  rw [statements, List.filterMap_append, List.filterMap_map, List.filterMap_map, hnone, hsome]
  simp

/-- Sorted calls have no origin, so that a statement shows all of a call. -/
theorem calls_statements (g : Graph) : (statements g).filterMap call? = g.sortedCalls := by
  have hnone : call? ∘ ofFunction = fun _ => none := rfl
  have hsome : ∀ c ∈ g.sortedCalls, (call? ∘ ofCall) c = some c := by
    intro c hc
    obtain ⟨d, -, rfl⟩ := List.mem_map.mp (List.mem_mergeSort.mp hc)
    rfl
  rw [statements, List.filterMap_append, List.filterMap_map, List.filterMap_map, hnone,
    List.filterMap_congr hsome]
  simp

/-- The statements for a graph show its functions, by key, name and body, and its calls. -/
theorem statements_eq_iff (g g' : Graph) : statements g = statements g' ↔
    g.sortedFunctions.map (fun f => (f.key, f.name, f.hasBody)) =
      g'.sortedFunctions.map (fun f => (f.key, f.name, f.hasBody)) ∧
    g.sortedCalls = g'.sortedCalls := by
  constructor
  · intro h
    rw [← nodes_statements, ← nodes_statements, ← calls_statements, ← calls_statements, h]
    exact ⟨rfl, rfl⟩
  · rintro ⟨hnodes, hcalls⟩
    have hfunctions : ∀ g : Graph, g.sortedFunctions.map ofFunction =
        (g.sortedFunctions.map fun f => (f.key, f.name, f.hasBody)).map
          fun (key, name, hasBody) => node key name hasBody := by
      intro g
      rw [List.map_map]
      rfl
    rw [statements, statements, hfunctions, hfunctions, hnodes, hcalls]

/-! ## Main statement -/

/-- Names in quotes end by themselves, and two graphs are drawn alike if and only if they have the
same functions, by key, name and body, and the same calls. -/
theorem text_unambiguous :
    (∀ s t u v : String, quote s ++ u = quote t ++ v ↔ s = t ∧ u = v) ∧
    ∀ g g' : Graph, text g = text g' ↔
      g.sortedFunctions.map (fun f => (f.key, f.name, f.hasBody)) =
        g'.sortedFunctions.map (fun f => (f.key, f.name, f.hasBody)) ∧
      g.sortedCalls = g'.sortedCalls := by
  constructor
  · intro s t u v
    refine ⟨fun h => ?_, fun ⟨hst, huv⟩ => by rw [hst, huv]⟩
    have hlists := congrArg String.toList h
    rw [String.toList_append, String.toList_append] at hlists
    obtain ⟨hst, huv⟩ := delimits_quote hlists
    exact ⟨hst, String.toList_inj.mp huv⟩
  · intro g g'
    exact (text_eq_iff g g').trans (statements_eq_iff g g')

end Dot

end CallGraphs
