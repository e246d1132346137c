import CallGraphs.Facts.TranslationUnit
import CallGraphs.Json.Record

/-!
# Facts in JSON

The form in which a front end delivers the facts of a unit.  Every record has
a writer and a reader; the writer can lay plain records out by name or by
position, and the reader takes both.
-/

namespace CallGraphs

open Json (Fields)

namespace Signature

/-- The signature as a record. -/
def toJson (layout : Layout) (s : Signature) : Json :=
  layout.record [("params", .strings s.params), ("ret", .string s.ret)]

/-- Reads a signature. -/
def ofJson? (j : Json) : Option Signature := do
  let f ← j.fields? ["params", "ret"]
  some { params := ← f.list "params" Json.asString?, ret := ← f.getD "ret" "" Json.asString? }

end Signature

/-! ## Slots and sources -/

namespace Slot

/-- The slot as a choice of records. -/
def toJson : Slot → Json
  | localVar function name =>
    .choice "local" [("function", .string function), ("name", .string name)]
  | param function index =>
    .choice "param" [("function", .string function), ("index", .natural index)]
  | result function => .choice "return" [("function", .string function)]
  | field className name =>
    .choice "field" [("class", .string className), ("field", .string name)]
  | global name => .choice "global" [("name", .string name)]
  | element array => .choice "element" [("array", array.toJson)]
  | temporary function id =>
    .choice "temporary" [("function", .string function), ("id", .natural id)]

/-- The kinds of slots. -/
def kinds : List String :=
  ["local", "param", "return", "field", "global", "element", "temporary"]

/-- Reads a slot that is written with at most `depth` nested objects. -/
def readWithin (inner : Bool) : (depth : Nat) → Json → Option Slot
  | 0, _ => none
  | depth + 1, j => do
    let (kind, content) ← j.choice? kinds inner
    match kind with
    | "local" =>
      let f ← content.fields? ["function", "name"]
      some (localVar (← f.get "function" Json.asString?) (← f.get "name" Json.asString?))
    | "param" =>
      let f ← content.fields? ["function", "index"]
      some (param (← f.get "function" Json.asString?) (← f.get "index" Json.asCount?))
    | "return" =>
      let f ← content.fields? ["function"]
      some (result (← f.get "function" Json.asString?))
    | "field" =>
      let f ← content.fields? ["class", "field"]
      some (field (← f.get "class" Json.asString?) (← f.get "field" Json.asString?))
    | "global" =>
      let f ← content.fields? ["name"]
      some (global (← f.get "name" Json.asString?))
    | "element" =>
      let f ← content.fields? ["array"]
      some (element (← f.get "array" (readWithin true depth)))
    | "temporary" =>
      let f ← content.fields? ["function", "id"]
      some (temporary (← f.get "function" Json.asString?) (← f.get "id" (Json.below? 4294967296)))
    | _ => none

/-- Reads a slot. -/
def ofJson? (j : Json) : Option Slot := readWithin false j.nesting j

/-- Reads a slot inside of a choice. -/
def ofInnerJson? (j : Json) : Option Slot := readWithin true j.nesting j

end Slot

namespace PointerSource

/-- The source as a choice of records. -/
def toJson : PointerSource → Json
  | function key => .choice "function" [("function", .string key)]
  | lambda key => .choice "lambda" [("function", .string key)]
  | slot place => .choice "slot" [("slot", place.toJson)]
  | callResult callee => .choice "call_result" [("callee", .string callee)]
  | null => .choice "null" []

/-- The kinds of sources. -/
def kinds : List String := ["function", "lambda", "slot", "call_result", "null"]

/-- Reads a source. -/
def ofJson? (j : Json) : Option PointerSource := do
  let (kind, content) ← j.choice? kinds false
  match kind with
  | "function" =>
    let f ← content.fields? ["function"]
    some (function (← f.get "function" Json.asString?))
  | "lambda" =>
    let f ← content.fields? ["function"]
    some (lambda (← f.get "function" Json.asString?))
  | "slot" =>
    let f ← content.fields? ["slot"]
    some (slot (← f.get "slot" Slot.ofInnerJson?))
  | "call_result" =>
    let f ← content.fields? ["callee"]
    some (callResult (← f.get "callee" Json.asString?))
  | "null" =>
    let _ ← content.fields? []
    some null
  | _ => none

end PointerSource

/-! ## Functions -/

namespace DefaultArg

/-- The default argument as a record. -/
def toJson (layout : Layout) (d : DefaultArg) : Json :=
  layout.record [("index", .natural d.index), ("value", d.value.toJson)]

/-- Reads a default argument. -/
def ofJson? (j : Json) : Option DefaultArg := do
  let f ← j.fields? ["index", "value"]
  some { index := ← f.get "index" Json.asCount?, value := ← f.get "value" PointerSource.ofJson? }

end DefaultArg

namespace FunctionRecord

/-- The function as a record. -/
def toJson (layout : Layout) (r : FunctionRecord) : Json :=
  layout.record [
    ("key", .string r.key),
    ("name", .option .string r.name),
    ("defined", .bool r.defined),
    ("is_virtual", .bool r.isVirtual),
    ("is_lambda", .bool r.isLambda),
    ("signature", r.signature.toJson layout),
    ("overrides", .strings r.overrides),
    ("default_args", .list (·.toJson layout) r.defaultArgs),
    ("body_hash", .option .string r.bodyHash)]

/-- Reads a function. -/
def ofJson? (j : Json) : Option FunctionRecord := do
  let f ← j.fields? ["key", "name", "defined", "is_virtual", "is_lambda", "signature",
    "overrides", "default_args", "body_hash"]
  some {
    key := ← f.get "key" Json.asString?
    name := ← f.option "name" Json.asString?
    defined := ← f.flag "defined"
    isVirtual := ← f.flag "is_virtual"
    isLambda := ← f.flag "is_lambda"
    signature := ← f.getD "signature" {} Signature.ofJson?
    overrides := ← f.list "overrides" Json.asString?
    defaultArgs := ← f.list "default_args" DefaultArg.ofJson?
    bodyHash := ← f.option "body_hash" Json.asString? }

end FunctionRecord

/-! ## Classes -/

namespace Access

/-- The words for the ways of deriving. -/
def words : List (String × Access) :=
  [("public", publicly), ("protected", protectedly), ("private", privately)]

/-- The way of deriving as a word. -/
def toJson : Access → Json
  | publicly => .string "public"
  | protectedly => .string "protected"
  | privately => .string "private"

end Access

namespace BaseSpec

/-- The base as a record. -/
def toJson (layout : Layout) (b : BaseSpec) : Json :=
  layout.record [("class", .string b.className), ("is_virtual", .bool b.isVirtual),
    ("access", b.access.toJson)]

/-- Reads a base. -/
def ofJson? (j : Json) : Option BaseSpec := do
  let f ← j.fields? ["class", "is_virtual", "access"]
  some {
    className := ← f.get "class" Json.asString?
    isVirtual := ← f.flag "is_virtual"
    access := ← f.getD "access" .publicly (Json.asWord? Access.words) }

end BaseSpec

namespace MethodDecl

/-- The method as a record. -/
def toJson (layout : Layout) (m : MethodDecl) : Json :=
  layout.record [("name", .string m.name), ("function", .string m.function)]

/-- Reads a method. -/
def ofJson? (j : Json) : Option MethodDecl := do
  let f ← j.fields? ["name", "function"]
  some { name := ← f.get "name" Json.asString?, function := ← f.get "function" Json.asString? }

end MethodDecl

namespace ConstructorDecl

/-- The constructor as a record. -/
def toJson (layout : Layout) (c : ConstructorDecl) : Json :=
  layout.record [("function", .string c.function), ("is_default", .bool c.isDefault)]

/-- Reads a constructor. -/
def ofJson? (j : Json) : Option ConstructorDecl := do
  let f ← j.fields? ["function", "is_default"]
  some { function := ← f.get "function" Json.asString?, isDefault := ← f.flag "is_default" }

end ConstructorDecl

namespace DestructorDecl

/-- The destructor as a record. -/
def toJson (layout : Layout) (d : DestructorDecl) : Json :=
  layout.record [("function", .string d.function), ("is_virtual", .bool d.isVirtual)]

/-- Reads a destructor. -/
def ofJson? (j : Json) : Option DestructorDecl := do
  let f ← j.fields? ["function", "is_virtual"]
  some { function := ← f.get "function" Json.asString?, isVirtual := ← f.flag "is_virtual" }

end DestructorDecl

namespace FieldDecl

/-- The field as a record. -/
def toJson (layout : Layout) (d : FieldDecl) : Json :=
  layout.record [("name", .string d.name), ("class", .option .string d.className),
    ("is_pointer", .bool d.isPointer)]

/-- Reads a field. -/
def ofJson? (j : Json) : Option FieldDecl := do
  let f ← j.fields? ["name", "class", "is_pointer"]
  some {
    name := ← f.get "name" Json.asString?
    className := ← f.option "class" Json.asString?
    isPointer := ← f.flag "is_pointer" }

end FieldDecl

namespace ClassRecord

/-- The class as a record. -/
def toJson (layout : Layout) (c : ClassRecord) : Json :=
  layout.record [
    ("key", .string c.key),
    ("bases", .list (·.toJson layout) c.bases),
    ("methods", .list (·.toJson layout) c.methods),
    ("constructors", .list (·.toJson layout) c.constructors),
    ("destructor", .option (·.toJson layout) c.destructor),
    ("fields", .list (·.toJson layout) c.fields),
    ("is_union", .bool c.isUnion)]

/-- Reads a class. -/
def ofJson? (j : Json) : Option ClassRecord := do
  let f ← j.fields? ["key", "bases", "methods", "constructors", "destructor", "fields",
    "is_union"]
  some {
    key := ← f.get "key" Json.asString?
    bases := ← f.list "bases" BaseSpec.ofJson?
    methods := ← f.list "methods" MethodDecl.ofJson?
    constructors := ← f.list "constructors" ConstructorDecl.ofJson?
    destructor := ← f.option "destructor" DestructorDecl.ofJson?
    fields := ← f.list "fields" FieldDecl.ofJson?
    isUnion := ← f.flag "is_union" }

end ClassRecord

/-! ## Call sites, assignments and lifetime events -/

namespace LifetimeKind

/-- The words for the occasions. -/
def words : List (String × LifetimeKind) :=
  [("local", localVar), ("temporary", temporary), ("heap", heap), ("explicit", explicit),
    ("member", member), ("base", base)]

/-- The occasion as a word. -/
def toJson : LifetimeKind → Json
  | localVar => .string "local"
  | temporary => .string "temporary"
  | heap => .string "heap"
  | explicit => .string "explicit"
  | member => .string "member"
  | base => .string "base"

end LifetimeKind

namespace Phase

/-- The words for the phases. -/
def words : List (String × Phase) := [("construct", construct), ("destroy", destroy)]

/-- The phase as a word. -/
def toJson : Phase → Json
  | construct => .string "construct"
  | destroy => .string "destroy"

end Phase

namespace CallTarget

/-- The target as a choice of records. -/
def toJson : CallTarget → Json
  | direct callee => .choice "direct" [("callee", .string callee)]
  | virtual receiver method =>
    .choice "virtual" [("receiver", .string receiver), ("method", .string method)]
  | pointer slot => .choice "pointer" [("slot", slot.toJson)]
  | memberPointer slot receiver =>
    .choice "member_pointer" [("slot", slot.toJson), ("receiver", .option .string receiver)]
  | implicit lifetime phase className constructor =>
    .choice "implicit" [("lifetime", lifetime.toJson), ("phase", phase.toJson),
      ("class", .string className), ("constructor", .option .string constructor)]

/-- The kinds of targets. -/
def kinds : List String := ["direct", "virtual", "pointer", "member_pointer", "implicit"]

/-- Reads a target. -/
def ofJson? (j : Json) : Option CallTarget := do
  let (kind, content) ← j.choice? kinds false
  match kind with
  | "direct" =>
    let f ← content.fields? ["callee"]
    some (direct (← f.get "callee" Json.asString?))
  | "virtual" =>
    let f ← content.fields? ["receiver", "method"]
    some (virtual (← f.get "receiver" Json.asString?) (← f.get "method" Json.asString?))
  | "pointer" =>
    let f ← content.fields? ["slot"]
    some (pointer (← f.get "slot" Slot.ofInnerJson?))
  | "member_pointer" =>
    let f ← content.fields? ["slot", "receiver"]
    some (memberPointer (← f.get "slot" Slot.ofInnerJson?) (← f.option "receiver" Json.asString?))
  | "implicit" =>
    let f ← content.fields? ["lifetime", "phase", "class", "constructor"]
    some (implicit (← f.get "lifetime" (Json.wordIn? .inner LifetimeKind.words))
      (← f.get "phase" (Json.wordIn? .inner Phase.words)) (← f.get "class" Json.asString?)
      (← f.option "constructor" Json.asString?))
  | _ => none

end CallTarget

namespace CallSite

/-- The call site as a record. -/
def toJson (layout : Layout) (s : CallSite) : Json :=
  layout.record [
    ("caller", .string s.caller),
    ("target", s.target.toJson),
    ("args", .list (.option (·.toJson)) s.args),
    ("arg_count", .option .natural s.argCount),
    ("label", .option .string s.label)]

/-- Reads a call site. -/
def ofJson? (j : Json) : Option CallSite := do
  let f ← j.fields? ["caller", "target", "args", "arg_count", "label"]
  some {
    caller := ← f.get "caller" Json.asString?
    target := ← f.get "target" CallTarget.ofJson?
    args := ← f.list "args" (Json.asOption? PointerSource.ofJson?)
    argCount := ← f.option "arg_count" Json.asCount?
    label := ← f.option "label" Json.asString? }

end CallSite

namespace Assignment

/-- The assignment as a record. -/
def toJson (layout : Layout) (a : Assignment) : Json :=
  layout.record [("source", a.source.toJson), ("destination", a.destination.toJson),
    ("context", .option .string a.context)]

/-- Reads an assignment. -/
def ofJson? (j : Json) : Option Assignment := do
  let f ← j.fields? ["source", "destination", "context"]
  some {
    source := ← f.get "source" PointerSource.ofJson?
    destination := ← f.get "destination" Slot.ofJson?
    context := ← f.option "context" Json.asString? }

end Assignment

namespace LifetimeEvent

/-- The event as a record. -/
def toJson (layout : Layout) (e : LifetimeEvent) : Json :=
  layout.record [
    ("caller", .string e.caller),
    ("kind", e.kind.toJson),
    ("phase", e.phase.toJson),
    ("class", .string e.className),
    ("constructor", .option .string e.constructor)]

/-- Reads an event. -/
def ofJson? (j : Json) : Option LifetimeEvent := do
  let f ← j.fields? ["caller", "kind", "phase", "class", "constructor"]
  some {
    caller := ← f.get "caller" Json.asString?
    kind := ← f.get "kind" (Json.asWord? LifetimeKind.words)
    phase := ← f.get "phase" (Json.asWord? Phase.words)
    className := ← f.get "class" Json.asString?
    constructor := ← f.option "constructor" Json.asString? }

end LifetimeEvent

namespace TranslationUnit

/-- The unit as a record. -/
def toJson (layout : Layout) (u : TranslationUnit) : Json :=
  layout.record [
    ("name", .string u.name),
    ("functions", .list (·.toJson layout) u.functions),
    ("classes", .list (·.toJson layout) u.classes),
    ("call_sites", .list (·.toJson layout) u.callSites),
    ("assignments", .list (·.toJson layout) u.assignments),
    ("lifetime_events", .list (·.toJson layout) u.lifetimeEvents)]

/-- Reads a unit. -/
def ofJson? (j : Json) : Option TranslationUnit := do
  let f ← j.fields? ["name", "functions", "classes", "call_sites", "assignments",
    "lifetime_events"]
  some {
    name := ← f.getD "name" "" Json.asString?
    functions := ← f.list "functions" FunctionRecord.ofJson?
    classes := ← f.list "classes" ClassRecord.ofJson?
    callSites := ← f.list "call_sites" CallSite.ofJson?
    assignments := ← f.list "assignments" Assignment.ofJson?
    lifetimeEvents := ← f.list "lifetime_events" LifetimeEvent.ofJson? }

end TranslationUnit

end CallGraphs
