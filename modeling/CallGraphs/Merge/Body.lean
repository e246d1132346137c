import CallGraphs.Facts.TranslationUnit
import CallGraphs.Text.Quoted

/-!
# Bodies

When two units define one function, their definitions are the same if their
bodies are.  A body is known by the digest that the front end gives for it,
or else by the digest of a text: its signature and the facts that it
contributes, each written out as a line, in sorted order.  How a text is
digested is left open.
-/

namespace CallGraphs

/-- By what a definition is known: a digest of its body. -/
abbrev Fingerprint := String

namespace Body

/-! ## Values in words -/

/-- A value that may be absent. -/
def optional {α : Type} (render : α → String) : Option α → String
  | some value => "Some(" ++ render value ++ ")"
  | none => "None"

/-- The key of a function. -/
def key (function : FunctionKey) : String := "FunctionKey(" ++ quotedText function ++ ")"

/-- A record with its fields in braces. -/
def fields (name : String) (fields : List (String × String)) : String :=
  name ++ " \x7b " ++
    String.intercalate ", " (fields.map fun (field, value) => field ++ ": " ++ value) ++ " \x7d"

/-- A slot, field by field. -/
def slot : Slot → String
  | .localVar function name =>
    fields "Local" [("function", key function), ("name", quotedText name)]
  | .param function index =>
    fields "Param" [("function", key function), ("index", toString index)]
  | .result function => fields "Return" [("function", key function)]
  | .field className name =>
    fields "Field" [("class", quotedText className), ("field", quotedText name)]
  | .global name => fields "Global" [("name", quotedText name)]
  | .element array => fields "Element" [("array", slot array)]
  | .temporary function id =>
    fields "Temporary" [("function", key function), ("id", toString id)]

/-- A source, field by field. -/
def source : PointerSource → String
  | .function function => fields "Function" [("function", key function)]
  | .lambda function => fields "Lambda" [("function", key function)]
  | .slot place => fields "Slot" [("slot", slot place)]
  | .callResult callee => fields "CallResult" [("callee", key callee)]
  | .null => "Null"

/-- An occasion. -/
def lifetime : LifetimeKind → String
  | .localVar => "Local"
  | .temporary => "Temporary"
  | .heap => "Heap"
  | .explicit => "Explicit"
  | .member => "Member"
  | .base => "Base"

/-- A phase. -/
def phase : Phase → String
  | .construct => "Construct"
  | .destroy => "Destroy"

/-! ## Facts in words -/

/-- What a site calls. -/
def target : CallTarget → String
  | .direct callee => "direct " ++ callee
  | .virtual receiver method => "virtual " ++ receiver ++ "::" ++ method
  | .pointer place => "pointer " ++ place.text
  | .memberPointer place receiver => "member " ++ place.text ++ " " ++ optional quotedText receiver
  | .implicit kind step className constructor =>
    "implicit " ++ lifetime kind ++ " " ++ phase step ++ " " ++ className ++ " " ++
      optional key constructor

/-- A call site. -/
def site (s : CallSite) : String :=
  target s.target ++ " args=[" ++ String.intercalate ", " (s.args.map (optional source)) ++
    "] count=" ++ optional toString s.argCount

/-- An assignment. -/
def assignment (a : Assignment) : String :=
  "assign " ++ source a.source ++ " -> " ++ a.destination.text

/-- A lifetime event. -/
def event (e : LifetimeEvent) : String :=
  "lifetime " ++ lifetime e.kind ++ " " ++ phase e.phase ++ " " ++ e.className ++ " " ++
    optional key e.constructor

/-- The facts that the body of a function contributes, each as a line. -/
def lines (u : TranslationUnit) (function : FunctionKey) : List String :=
  (u.callSites.filter (·.caller = function)).map site ++
  (u.assignments.filter (·.context = some function)).map assignment ++
  (u.lifetimeEvents.filter (·.caller = function)).map event

/-- The text of a body: the key and the signature, then the facts in sorted order. -/
def text (u : TranslationUnit) (r : FunctionRecord) : String :=
  r.key ++ r.signature.text ++
    String.join (((lines u r.key).mergeSort fun a b => (compare a b).isLE).map ("\n" ++ ·))

end Body

namespace Fingerprint

/-- The fingerprint of a definition in a unit: the digest that the front end gives, or else that of
the text. -/
def of (digest : String → String) (u : TranslationUnit) (r : FunctionRecord) : Fingerprint :=
  match r.bodyHash with
  | some hash => hash
  | none => digest (Body.text u r)

end Fingerprint

end CallGraphs
