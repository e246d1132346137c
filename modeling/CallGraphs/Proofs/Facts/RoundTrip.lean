import CallGraphs.Facts.Encoding
import CallGraphs.Proofs.Json.Records

/-!
# Facts that are read back

A unit is read back from what was written of it, whether its plain records are
laid out by name or by position (`TranslationUnit.facts_roundTrip`).  There is one
statement for each kind of record, from slots up; slots nest, so theirs is by
induction on the slot (`Slot.readWithin_toJson`).  The numbers of a unit are
words, and the numbers of temporaries have half the width (`TranslationUnit.Fits`).
-/

namespace CallGraphs

open CallGraphs.Json

/-! ## Numbers -/

namespace Slot

/-- The numbers in a slot have the width that is set aside for them. -/
def Fits : Slot → Prop
  | param _ index => index < wordLimit
  | temporary _ id => id < 4294967296
  | element slot => slot.Fits
  | localVar .. | result _ | field .. | global _ => True

end Slot

/-- The numbers in a source have their width. -/
def PointerSource.Fits : PointerSource → Prop
  | slot place => place.Fits
  | function _ | lambda _ | callResult _ | null => True

/-- The numbers in a default argument have their width. -/
structure DefaultArg.Fits (d : DefaultArg) : Prop where
  index : d.index < wordLimit
  value : d.value.Fits

/-- The numbers in a target have their width. -/
def CallTarget.Fits : CallTarget → Prop
  | pointer slot | memberPointer slot _ => slot.Fits
  | direct _ | virtual .. | implicit .. => True

/-- The numbers at a call site have their width. -/
structure CallSite.Fits (s : CallSite) : Prop where
  target : s.target.Fits
  args : ∀ arg ∈ s.args, ∀ source ∈ arg, source.Fits
  argCount : ∀ count ∈ s.argCount, count < wordLimit

/-- The numbers in an assignment have their width. -/
structure Assignment.Fits (a : Assignment) : Prop where
  source : a.source.Fits
  destination : a.destination.Fits

/-- The numbers in a unit have the width that is set aside for them. -/
structure TranslationUnit.Fits (u : TranslationUnit) : Prop where
  functions : ∀ r ∈ u.functions, ∀ d ∈ r.defaultArgs, d.Fits
  callSites : ∀ s ∈ u.callSites, s.Fits
  assignments : ∀ a ∈ u.assignments, a.Fits

/-! ## Slots and sources -/

namespace Slot

@[simp]
theorem isSound_toJson (s : Slot) : s.toJson.isSound = true := by
  induction s with
  | element slot ih => simp [toJson, Json.choice, ih]
  | _ => rfl

/-- A slot is written as a choice, so something is nested in it. -/
theorem exists_nesting_toJson (s : Slot) : ∃ depth, s.toJson.nesting = depth + 1 := by
  cases s with
  | _ => exact ⟨_, nesting_choice _ _⟩

/-- A slot is read back, inside of a choice or not, if the reader goes as deep as it is nested. -/
theorem readWithin_toJson {s : Slot} (hfits : s.Fits) (inner : Bool) {depth : Nat}
    (hdepth : s.toJson.nesting ≤ depth + 1) : readWithin inner (depth + 1) s.toJson = some s := by
  induction s generalizing inner depth with
  | localVar function name => simp [readWithin, toJson]
  | param function index => simp [readWithin, toJson, asCount?, below?_natural hfits]
  | result function => simp [readWithin, toJson]
  | field className name => simp [readWithin, toJson]
  | global name => simp [readWithin, toJson]
  | element slot ih =>
      obtain ⟨inside, hinside⟩ := slot.exists_nesting_toJson
      have hle : slot.toJson.nesting ≤ depth := by
        simpa [toJson, nesting_choice, nestingMembers] using hdepth
      obtain ⟨depth, rfl⟩ : ∃ n, depth = n + 1 := ⟨depth - 1, by omega⟩
      have hread := ih hfits true hle
      rw [readWithin, toJson, choice?_choice (by simp) (by simp)]
      simp [hread]
  | temporary function id => simp [readWithin, toJson, below?_natural hfits]

theorem ofJson?_toJson {s : Slot} (hfits : s.Fits) : ofJson? s.toJson = some s := by
  obtain ⟨depth, hdepth⟩ := s.exists_nesting_toJson
  rw [ofJson?, hdepth]
  exact readWithin_toJson hfits false (Nat.le_of_eq hdepth)

theorem ofInnerJson?_toJson {s : Slot} (hfits : s.Fits) : ofInnerJson? s.toJson = some s := by
  obtain ⟨depth, hdepth⟩ := s.exists_nesting_toJson
  rw [ofInnerJson?, hdepth]
  exact readWithin_toJson hfits true (Nat.le_of_eq hdepth)

end Slot

theorem PointerSource.ofJson?_toJson {source : PointerSource} (hfits : source.Fits) :
    ofJson? source.toJson = some source := by
  cases source with
  | function key => simp [ofJson?, toJson]
  | lambda key => simp [ofJson?, toJson]
  | slot place => simp [ofJson?, toJson, Slot.ofInnerJson?_toJson hfits]
  | callResult callee => simp [ofJson?, toJson]
  | null => simp [ofJson?, toJson]

theorem PointerSource.toJson_ne_null (source : PointerSource) : source.toJson ≠ Json.null := by
  cases source with
  | _ => exact choice_ne_null _ _

/-! ## Functions -/

theorem Signature.ofJson?_toJson (layout : Layout) (s : Signature) :
    ofJson? (s.toJson layout) = some s := by
  simp [ofJson?, toJson]

theorem DefaultArg.ofJson?_toJson (layout : Layout) {d : DefaultArg} (hfits : d.Fits) :
    ofJson? (d.toJson layout) = some d := by
  simp [ofJson?, toJson, asCount?, below?_natural hfits.index,
    PointerSource.ofJson?_toJson hfits.value]

theorem FunctionRecord.ofJson?_toJson (layout : Layout) {r : FunctionRecord}
    (hfits : ∀ d ∈ r.defaultArgs, d.Fits) : ofJson? (r.toJson layout) = some r := by
  have hdefaults := asList?_list fun d hd => DefaultArg.ofJson?_toJson layout (hfits d hd)
  simp [-Option.bind_eq_bind, some_bind, ofJson?, toJson, Signature.ofJson?_toJson, hdefaults]

/-! ## Classes -/

theorem Access.asWord?_toJson (access : Access) : asWord? words access.toJson = some access := by
  cases access with
  | _ => rfl

theorem BaseSpec.ofJson?_toJson (layout : Layout) (b : BaseSpec) :
    ofJson? (b.toJson layout) = some b := by
  simp [ofJson?, toJson, Access.asWord?_toJson]

theorem MethodDecl.ofJson?_toJson (layout : Layout) (m : MethodDecl) :
    ofJson? (m.toJson layout) = some m := by
  simp [ofJson?, toJson]

theorem ConstructorDecl.ofJson?_toJson (layout : Layout) (c : ConstructorDecl) :
    ofJson? (c.toJson layout) = some c := by
  simp [ofJson?, toJson]

theorem DestructorDecl.ofJson?_toJson (layout : Layout) (d : DestructorDecl) :
    ofJson? (d.toJson layout) = some d := by
  simp [ofJson?, toJson]

theorem FieldDecl.ofJson?_toJson (layout : Layout) (d : FieldDecl) :
    ofJson? (d.toJson layout) = some d := by
  simp [ofJson?, toJson]

theorem ClassRecord.ofJson?_toJson (layout : Layout) (c : ClassRecord) :
    ofJson? (c.toJson layout) = some c := by
  have hbases := asList?_list fun b (_ : b ∈ c.bases) => b.ofJson?_toJson layout
  have hmethods := asList?_list fun m (_ : m ∈ c.methods) => m.ofJson?_toJson layout
  have hconstructors :=
    asList?_list fun d (_ : d ∈ c.constructors) => d.ofJson?_toJson layout
  have hfields := asList?_list fun d (_ : d ∈ c.fields) => d.ofJson?_toJson layout
  have hdestructor : asOption? DestructorDecl.ofJson?
      (option (·.toJson layout) c.destructor) = some c.destructor :=
    asOption?_option (fun _ => record_ne_null layout _) fun d _ => d.ofJson?_toJson layout
  simp [ofJson?, toJson, hbases, hmethods, hconstructors, hfields, hdestructor]

/-! ## Call sites, assignments and lifetime events -/

@[simp]
theorem LifetimeKind.isSound_toJson (kind : LifetimeKind) : kind.toJson.isSound = true := by
  cases kind with
  | _ => rfl

@[simp]
theorem LifetimeKind.wordIn?_toJson (dialect : Dialect) (kind : LifetimeKind) :
    wordIn? dialect words kind.toJson = some kind := by
  cases kind with
  | _ => rfl

@[simp]
theorem Phase.isSound_toJson (phase : Phase) : phase.toJson.isSound = true := by
  cases phase with
  | _ => rfl

@[simp]
theorem Phase.wordIn?_toJson (dialect : Dialect) (phase : Phase) :
    wordIn? dialect words phase.toJson = some phase := by
  cases phase with
  | _ => rfl

theorem CallTarget.ofJson?_toJson {target : CallTarget} (hfits : target.Fits) :
    ofJson? target.toJson = some target := by
  cases target with
  | direct callee => simp [ofJson?, toJson]
  | virtual receiver method => simp [ofJson?, toJson]
  | pointer slot => simp [ofJson?, toJson, Slot.ofInnerJson?_toJson hfits]
  | memberPointer slot receiver => simp [ofJson?, toJson, Slot.ofInnerJson?_toJson hfits]
  | implicit lifetime phase className constructor => simp [ofJson?, toJson]

theorem CallSite.ofJson?_toJson (layout : Layout) {s : CallSite} (hfits : s.Fits) :
    ofJson? (s.toJson layout) = some s := by
  have hargs : asList? (asOption? PointerSource.ofJson?) (list (option (·.toJson)) s.args) =
      some s.args := by
    refine asList?_list fun arg harg => ?_
    exact asOption?_option PointerSource.toJson_ne_null
      fun source hsource => PointerSource.ofJson?_toJson (hfits.args arg harg source hsource)
  have hcount : asOption? asCount? (option natural s.argCount) = some s.argCount :=
    asOption?_option (fun _ => Json.noConfusion) fun n hn => below?_natural (hfits.argCount n hn)
  simp [ofJson?, toJson, CallTarget.ofJson?_toJson hfits.target, hargs, hcount]

theorem Assignment.ofJson?_toJson (layout : Layout) {a : Assignment} (hfits : a.Fits) :
    ofJson? (a.toJson layout) = some a := by
  simp [ofJson?, toJson, PointerSource.ofJson?_toJson hfits.source,
    Slot.ofJson?_toJson hfits.destination]

theorem LifetimeEvent.ofJson?_toJson (layout : Layout) (e : LifetimeEvent) :
    ofJson? (e.toJson layout) = some e := by
  simp [ofJson?, toJson, asWord?]

/-! ## Main statement -/

namespace TranslationUnit

/-- A unit is read back as it was written, in either layout of its plain records. -/
theorem facts_roundTrip (layout : Layout) {u : TranslationUnit} (hfits : u.Fits) :
    ofJson? (u.toJson layout) = some u := by
  have hfunctions :=
    asList?_list fun r hr => FunctionRecord.ofJson?_toJson layout (hfits.functions r hr)
  have hclasses := asList?_list fun c (_ : c ∈ u.classes) => c.ofJson?_toJson layout
  have hsites := asList?_list fun s hs => CallSite.ofJson?_toJson layout (hfits.callSites s hs)
  have hassignments :=
    asList?_list fun a ha => Assignment.ofJson?_toJson layout (hfits.assignments a ha)
  have hevents := asList?_list fun e (_ : e ∈ u.lifetimeEvents) => e.ofJson?_toJson layout
  simp [ofJson?, toJson, hfunctions, hclasses, hsites, hassignments, hevents]

/-- A unit whose numbers are the largest ones, in nested slots, default arguments and arguments that
are absent, null or not. -/
def widestUnit : TranslationUnit where
  name := "wide"
  functions := [{
    key := "f", name := some "f(int)", defined := true, signature := { params := ["int"] },
    defaultArgs := [{ index := wordLimit - 1, value := .slot (.element (.param "g" 0)) }] }]
  classes := [{
    key := "C", bases := [{ className := "B", access := .privately }],
    destructor := some { function := "C::~C", isVirtual := true },
    fields := [{ name := "handler", isPointer := true }], isUnion := true }]
  callSites := [{
    caller := "f",
    target := .memberPointer (.element (.element (.temporary "f" 4294967295))) none,
    args := [none, some .null, some (.slot (.param "f" (wordLimit - 1)))],
    argCount := some (wordLimit - 1) }]
  assignments := [{ source := .lambda "l", destination := .param "f" (wordLimit - 1) }]
  lifetimeEvents := [{ caller := "f", kind := .heap, phase := .destroy, className := "C" }]

theorem widestUnit_roundTrip : widestUnit.Fits ∧
    ofJson? (widestUnit.toJson .named) = some widestUnit ∧
    ofJson? (widestUnit.toJson .positional) = some widestUnit := by
  have hfits : widestUnit.Fits := by
    refine ⟨?_, ?_, ?_⟩
    · intro r hr d hd
      simp only [widestUnit, List.mem_singleton] at hr
      subst hr
      simp only [List.mem_singleton] at hd
      subst hd
      exact ⟨by decide, by simp [PointerSource.Fits, Slot.Fits, wordLimit]⟩
    · intro s hs
      simp only [widestUnit, List.mem_singleton] at hs
      subst hs
      refine ⟨by simp [CallTarget.Fits, Slot.Fits], ?_, by simp [wordLimit]⟩
      simp [PointerSource.Fits, Slot.Fits, wordLimit]
    · intro a ha
      simp only [widestUnit, List.mem_singleton] at ha
      subst ha
      exact ⟨trivial, by simp [Slot.Fits, wordLimit]⟩
  exact ⟨hfits, facts_roundTrip .named hfits, facts_roundTrip .positional hfits⟩

end TranslationUnit

end CallGraphs
