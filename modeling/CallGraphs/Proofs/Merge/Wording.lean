import CallGraphs.Merge.Body
import CallGraphs.Proofs.Text.Delimited

/-!
# Facts in words

What can be read back from the line that is written for a fact of a body.  Some parts of
a line are in quotes and end where they end: sources, arguments, receivers of member
pointers and constructors.  Others are set down as they are: the names in a target, and
the slots.  So a line is read from its ends.

* What a site passes is found behind the last bracket outside quotes
  (`Body.site_inj`), and a constructor or a receiver behind the last blank outside
  quotes.
* Two facts are written as the same line exactly if the same words are left of them,
  where a method is known by its full name only and a slot by its text only
  (`BodyFact.line_eq_iff`).
-/

namespace CallGraphs

namespace Body

/-! ## Values -/

theorem delimits_optional {α : Type} {render : α → String} (h : EndsBefore ')' render) :
    Delimits (optional render) := by
  intro a b x y heq
  cases a with
  | none =>
      cases b with
      | none => exact ⟨rfl, by simpa [optional] using heq⟩
      | some b => simp [optional] at heq
  | some a =>
      cases b with
      | none => simp [optional] at heq
      | some b =>
          obtain ⟨rfl, hrest⟩ := h (by simpa [optional] using heq)
          exact ⟨rfl, hrest⟩

theorem delimits_key : Delimits key := by
  intro f g x y heq
  unfold key at heq
  obtain ⟨rfl, hrest⟩ := delimits_quotedText (by simpa using heq)
  exact ⟨rfl, by simpa using hrest⟩

theorem delimits_fields {α : Type} {render : α → String} (h : EndsBefore ' ' render)
    (name field : String) : Delimits fun a => fields name [(field, render a)] := by
  intro a b x y heq
  obtain ⟨rfl, hrest⟩ := h (by simpa [fields] using heq)
  exact ⟨rfl, by simpa using hrest⟩

theorem delimits_fields₂ {α β : Type} {render : α → String} {render' : β → String}
    (h : Delimits render) (h' : EndsBefore ' ' render') (name field field' : String) :
    Delimits fun p : α × β => fields name [(field, render p.1), (field', render' p.2)] := by
  rintro ⟨a, a'⟩ ⟨b, b'⟩ x y heq
  obtain ⟨rfl, hrest⟩ := h (by simpa [fields] using heq)
  obtain ⟨rfl, hrest⟩ := h' (by simpa using hrest)
  exact ⟨rfl, by simpa using hrest⟩

/-- The letter that a slot begins with. -/
def slotInitial : Slot → Char
  | .localVar .. => 'L'
  | .param .. => 'P'
  | .result _ => 'R'
  | .field .. => 'F'
  | .global _ => 'G'
  | .element _ => 'E'
  | .temporary .. => 'T'

theorem head?_slot (a : Slot) (x : List Char) :
    ((slot a).toList ++ x).head? = some (slotInitial a) := by
  cases a <;> simp [slot, fields, slotInitial]

theorem delimits_slot : Delimits slot := by
  have hnumber : EndsBefore ' ' (toString : Nat → String) := endsBefore_toString (by decide)
  have hname := delimits_quotedText.endsBefore ' '
  intro a b x y heq
  have hinitial : slotInitial a = slotInitial b := Option.some.inj <| by
    rw [← head?_slot a x, heq, head?_slot]
  induction a generalizing b x y with
  | localVar f n =>
      cases b with
      | localVar g m =>
          obtain ⟨⟨⟩, hrest⟩ := delimits_fields₂ (a := (f, n)) (b := (g, m)) delimits_key hname
            _ _ _ heq
          exact ⟨rfl, hrest⟩
      | _ => simp [slotInitial] at hinitial
  | param f i =>
      cases b with
      | param g j =>
          obtain ⟨⟨⟩, hrest⟩ := delimits_fields₂ (a := (f, i)) (b := (g, j)) delimits_key hnumber
            _ _ _ heq
          exact ⟨rfl, hrest⟩
      | _ => simp [slotInitial] at hinitial
  | result f =>
      cases b with
      | result g =>
          obtain ⟨rfl, hrest⟩ := delimits_fields (delimits_key.endsBefore ' ') _ _ heq
          exact ⟨rfl, hrest⟩
      | _ => simp [slotInitial] at hinitial
  | field c n =>
      cases b with
      | field d m =>
          obtain ⟨⟨⟩, hrest⟩ := delimits_fields₂ (a := (c, n)) (b := (d, m)) delimits_quotedText
            hname _ _ _ heq
          exact ⟨rfl, hrest⟩
      | _ => simp [slotInitial] at hinitial
  | global n =>
      cases b with
      | global m =>
          obtain ⟨rfl, hrest⟩ := delimits_fields hname _ _ heq
          exact ⟨rfl, hrest⟩
      | _ => simp [slotInitial] at hinitial
  | element a ih =>
      cases b with
      | element b =>
          have harray : (slot a).toList ++ (" \x7d".toList ++ x) =
              (slot b).toList ++ (" \x7d".toList ++ y) := by
            simpa [slot, fields] using heq
          obtain ⟨rfl, hrest⟩ := ih harray <| Option.some.inj <| by
            rw [← head?_slot a, harray, head?_slot]
          exact ⟨rfl, List.append_cancel_left hrest⟩
      | _ => simp [slotInitial] at hinitial
  | temporary f i =>
      cases b with
      | temporary g j =>
          obtain ⟨⟨⟩, hrest⟩ := delimits_fields₂ (a := (f, i)) (b := (g, j)) delimits_key hnumber
            _ _ _ heq
          exact ⟨rfl, hrest⟩
      | _ => simp [slotInitial] at hinitial

/-- The letter that a source begins with. -/
def sourceInitial : PointerSource → Char
  | .function _ => 'F'
  | .lambda _ => 'L'
  | .slot _ => 'S'
  | .callResult _ => 'C'
  | .null => 'N'

theorem head?_source (a : PointerSource) (x : List Char) :
    ((source a).toList ++ x).head? = some (sourceInitial a) := by
  cases a <;> simp [source, fields, sourceInitial]

theorem delimits_source : Delimits source := by
  have hkey := delimits_key.endsBefore ' '
  intro a b x y heq
  have hinitial : sourceInitial a = sourceInitial b := Option.some.inj <| by
    rw [← head?_source a x, heq, head?_source]
  cases a with
  | function f =>
      cases b with
      | function g =>
          obtain ⟨rfl, hrest⟩ := delimits_fields hkey _ _ heq
          exact ⟨rfl, hrest⟩
      | _ => simp [sourceInitial] at hinitial
  | lambda f =>
      cases b with
      | lambda g =>
          obtain ⟨rfl, hrest⟩ := delimits_fields hkey _ _ heq
          exact ⟨rfl, hrest⟩
      | _ => simp [sourceInitial] at hinitial
  | slot s =>
      cases b with
      | slot t =>
          obtain ⟨rfl, hrest⟩ := delimits_fields (delimits_slot.endsBefore ' ') _ _ heq
          exact ⟨rfl, hrest⟩
      | _ => simp [sourceInitial] at hinitial
  | callResult f =>
      cases b with
      | callResult g =>
          obtain ⟨rfl, hrest⟩ := delimits_fields hkey _ _ heq
          exact ⟨rfl, hrest⟩
      | _ => simp [sourceInitial] at hinitial
  | null =>
      cases b with
      | null => exact ⟨rfl, List.append_cancel_left heq⟩
      | _ => simp [sourceInitial] at hinitial

theorem delimits_lifetime : Delimits lifetime := by
  intro a b x y heq
  cases a <;> cases b <;> simp [lifetime] at heq <;> exact ⟨rfl, heq⟩

theorem delimits_phase : Delimits phase := by
  intro a b x y heq
  cases a <;> cases b <;> simp [phase] at heq <;> exact ⟨rfl, heq⟩

/-! ## What stands in quotes only -/

theorem enclosed_key {c : Char} (hc : c = ' ' ∨ c = '[') (f : FunctionKey) :
    Enclosed c (key f) := by
  rcases hc with rfl | rfl <;>
    exact ((Enclosed.of_plain (by decide)).append (.quotedText f)).append (.of_plain (by decide))

theorem enclosed_optional {α : Type} {render : α → String} {c : Char} (hc : c = ' ' ∨ c = '[')
    (h : ∀ a, Enclosed c (render a)) (a : Option α) : Enclosed c (optional render a) := by
  cases a with
  | none =>
      have hnone : Enclosed c "None" := by rcases hc with rfl | rfl <;> exact .of_plain (by decide)
      exact hnone
  | some a =>
      rcases hc with rfl | rfl <;>
        exact ((Enclosed.of_plain (by decide)).append (h a)).append (.of_plain (by decide))

/-- A bracket stands in a record in quotes only, if it does so in the values. -/
theorem enclosed_fields {name : String} {values : List (String × String)}
    (hname : Enclosed '[' name) (hvalues : ∀ v ∈ values, Enclosed '[' v.1 ∧ Enclosed '[' v.2) :
    Enclosed '[' (fields name values) := by
  refine ((hname.append (.of_plain (by decide))).append
    (.intercalate (.of_plain (by decide)) ?_)).append (.of_plain (by decide))
  intro text htext
  obtain ⟨v, hv, rfl⟩ := List.mem_map.mp htext
  exact ((hvalues v hv).1.append (.of_plain (by decide))).append (hvalues v hv).2

theorem enclosed_slot (a : Slot) : Enclosed '[' (slot a) := by
  have hplain : ∀ word ∈ ["Local", "Param", "Return", "Field", "Global", "Element", "Temporary",
      "function", "name", "index", "class", "field", "array", "id"],
      (word.toList.all fun d => d != '"' && d != '\\' && d != '[') = true := by decide
  have hword := fun word hmem => Enclosed.of_plain (hplain word hmem)
  have hkey := enclosed_key (Or.inr rfl)
  have hnumber : ∀ n : Nat, Enclosed '[' (Nat.repr n) := .toString (by decide)
  induction a <;> exact enclosed_fields (hword _ (by simp)) (by simp [*, Enclosed.quotedText])

theorem enclosed_source (a : PointerSource) : Enclosed '[' (source a) := by
  have hplain : ∀ word ∈ ["Function", "Lambda", "Slot", "CallResult", "Null", "function", "slot",
      "callee"], (word.toList.all fun d => d != '"' && d != '\\' && d != '[') = true := by decide
  have hword := fun word hmem => Enclosed.of_plain (hplain word hmem)
  have hkey := enclosed_key (Or.inr rfl)
  cases a with
  | null => exact hword "Null" (by simp)
  | _ => exact enclosed_fields (hword _ (by simp)) (by simp [*, enclosed_slot])

/-! ## Lines -/

theorem lifetimeWords_inj {kind kind' : LifetimeKind} {step step' : Phase} {name name' : String}
    {constructor constructor' : Option FunctionKey}
    (h : lifetime kind ++ " " ++ phase step ++ " " ++ name ++ " " ++ optional key constructor =
      lifetime kind' ++ " " ++ phase step' ++ " " ++ name' ++ " " ++ optional key constructor') :
    kind = kind' ∧ step = step' ∧ name = name' ∧ constructor = constructor' := by
  have henclosed := enclosed_optional (c := ' ') (Or.inl rfl) (enclosed_key (Or.inl rfl))
  have hwords := congrArg String.toList h
  simp only [String.toList_append, List.append_assoc] at hwords
  obtain ⟨rfl, hrest⟩ := delimits_lifetime hwords
  obtain ⟨rfl, hrest⟩ := delimits_phase (List.append_cancel_left hrest)
  obtain ⟨rfl, hconstructor⟩ := Enclosed.cut (by decide) (by decide) (henclosed constructor)
    (henclosed constructor') (by simpa using hrest)
  exact ⟨rfl, rfl, rfl, (delimits_optional (delimits_key.endsBefore ')')).injective hconstructor⟩

/-- What a site passes, in words. -/
def passed (args : List (Option PointerSource)) (argCount : Option Nat) : String :=
  String.intercalate ", " (args.map (optional source)) ++ "] count=" ++ optional toString argCount

theorem site_eq (s : CallSite) :
    site s = target s.target ++ " args=[" ++ passed s.args s.argCount := by
  unfold site passed
  simp only [String.append_assoc]

theorem enclosed_passed (args : List (Option PointerSource)) (argCount : Option Nat) :
    Enclosed '[' (passed args argCount) := by
  refine ((Enclosed.intercalate (.of_plain (by decide)) ?_).append (.of_plain (by decide))).append
    (enclosed_optional (Or.inr rfl) (.toString (by decide)) argCount)
  intro text htext
  obtain ⟨arg, -, rfl⟩ := List.mem_map.mp htext
  exact enclosed_optional (Or.inr rfl) enclosed_source arg

theorem passed_inj {args args' : List (Option PointerSource)} {argCount argCount' : Option Nat}
    (h : passed args argCount = passed args' argCount') : args = args' ∧ argCount = argCount' := by
  have harg := delimits_optional (delimits_source.endsBefore ')')
  have hcount := delimits_optional (endsBefore_toString (c := ')') (by decide))
  have hbracket : ∀ (a : Option PointerSource) (x y : List Char),
      (optional source a).toList ++ x ≠ ']' :: y := by
    intro a x y
    cases a <;> simp [optional]
  obtain ⟨rfl, hrest⟩ := harg.endsBefore_intercalate hbracket
    (by simpa [passed] using congrArg String.toList h)
  exact ⟨rfl, hcount.injective (String.toList_inj.mp (by simpa using hrest))⟩

/-- The target of a site ends at the last bracket that stands outside quotes. -/
theorem site_inj {s t : CallSite} (h : site s = site t) :
    target s.target = target t.target ∧ s.args = t.args ∧ s.argCount = t.argCount := by
  obtain ⟨htarget, hpassed⟩ := Enclosed.cut (c := '[') (a := target s.target ++ " args=")
    (b := target t.target ++ " args=") (by decide) (by decide) (enclosed_passed s.args s.argCount)
    (enclosed_passed t.args t.argCount) (by simpa [site_eq] using congrArg String.toList h)
  exact ⟨(String.append_left_inj _).mp htarget, passed_inj hpassed⟩

theorem assignment_inj {a b : Assignment} (h : assignment a = assignment b) :
    a.source = b.source ∧ a.destination.text = b.destination.text := by
  unfold assignment at h
  obtain ⟨hsource, hrest⟩ := delimits_source (by simpa using congrArg String.toList h)
  exact ⟨hsource, String.toList_inj.mp (by simpa using hrest)⟩

theorem event_inj {e e' : LifetimeEvent} (h : event e = event e') : e.kind = e'.kind ∧
    e.phase = e'.phase ∧ e.className = e'.className ∧ e.constructor = e'.constructor := by
  unfold event at h
  exact lifetimeWords_inj (by simpa [String.append_assoc] using h)

end Body

/-- What the body of a function contributes: a call, an assignment or a lifetime event. -/
inductive BodyFact where
  | call (target : CallTarget) (args : List (Option PointerSource)) (argCount : Option Nat)
  | assignment (source : PointerSource) (destination : Slot)
  | lifetime (kind : LifetimeKind) (phase : Phase) (className : String)
      (constructor : Option FunctionKey)
deriving DecidableEq

namespace BodyFact

/-- The fact as a line. -/
def line : BodyFact → String
  | call target args argCount => Body.site { caller := "", target, args, argCount }
  | assignment source destination => Body.assignment { source, destination }
  | lifetime kind phase className constructor =>
    Body.event { caller := "", kind, phase, className, constructor }

end BodyFact

namespace Body

/-- The facts that the body of a function contributes. -/
def facts (u : TranslationUnit) (function : FunctionKey) : List BodyFact :=
  (u.callSites.filter (·.caller = function)).map (fun s => .call s.target s.args s.argCount) ++
  (u.assignments.filter (·.context = some function)).map
    (fun a => .assignment a.source a.destination) ++
  (u.lifetimeEvents.filter (·.caller = function)).map
    fun e => .lifetime e.kind e.phase e.className e.constructor

theorem lines_eq_map_facts (u : TranslationUnit) (function : FunctionKey) :
    lines u function = (facts u function).map BodyFact.line := by
  simp only [lines, facts, List.map_append, List.map_map]
  rfl

end Body

/-- A slot of which only the text is left. -/
def Slot.spelled (s : Slot) : Slot := .global s.text

@[simp]
theorem Slot.spelled_eq_iff {s t : Slot} : s.spelled = t.spelled ↔ s.text = t.text := by
  simp [Slot.spelled]

/-- A target of which only the words are left: a method by its full name, a slot by its text. -/
def CallTarget.spelled : CallTarget → CallTarget
  | virtual receiver method => virtual "" (receiver ++ "::" ++ method)
  | pointer place => pointer place.spelled
  | memberPointer place receiver => memberPointer place.spelled receiver
  | target => target

namespace BodyFact

/-- A fact of which only the words are left. -/
def spelled : BodyFact → BodyFact
  | call target args argCount => call target.spelled args argCount
  | assignment source destination => assignment source destination.spelled
  | fact => fact

/-- The letter that a target begins with. -/
def initial : CallTarget → Char
  | .direct _ => 'd'
  | .virtual .. => 'v'
  | .pointer _ => 'p'
  | .memberPointer .. => 'm'
  | .implicit .. => 'i'

theorem head?_target (t : CallTarget) : (Body.target t).toList.head? = some (initial t) := by
  cases t <;> unfold Body.target <;> simp [initial]

theorem spelled_eq_of_target_eq {a b : CallTarget} (h : Body.target a = Body.target b) :
    a.spelled = b.spelled := by
  have hinitial : initial a = initial b := Option.some.inj <| by
    rw [← head?_target, ← head?_target, h]
  cases a with
  | direct f =>
      cases b with
      | direct g => rw [(String.append_right_inj _).mp h]
      | _ => simp [initial] at hinitial
  | virtual c m =>
      cases b with
      | virtual d n =>
          unfold Body.target at h
          simp only [String.append_assoc, String.append_right_inj] at h
          rw [CallTarget.spelled, CallTarget.spelled, String.append_assoc, String.append_assoc, h]
      | _ => simp [initial] at hinitial
  | pointer s =>
      cases b with
      | pointer t =>
          rw [CallTarget.spelled, CallTarget.spelled, Slot.spelled, Slot.spelled,
            (String.append_right_inj _).mp h]
      | _ => simp [initial] at hinitial
  | memberPointer s r =>
      cases b with
      | memberPointer t q =>
          have henclosed := Body.enclosed_optional (c := ' ') (Or.inl rfl) Enclosed.quotedText
          unfold Body.target at h
          obtain ⟨htext, hreceiver⟩ := Enclosed.cut (by decide) (by decide) (henclosed r)
            (henclosed q) (by simpa using congrArg String.toList h)
          have hinjective := (Body.delimits_optional (delimits_quotedText.endsBefore ')')).injective
          rw [CallTarget.spelled, CallTarget.spelled, Slot.spelled, Slot.spelled, htext,
            hinjective hreceiver]
      | _ => simp [initial] at hinitial
  | implicit k p c f =>
      cases b with
      | implicit k' p' c' f' =>
          unfold Body.target at h
          obtain ⟨rfl, rfl, rfl, rfl⟩ := Body.lifetimeWords_inj
            (by simpa [String.append_assoc] using h)
          rfl
      | _ => simp [initial] at hinitial

theorem target_eq_of_spelled_eq {a b : CallTarget} (h : a.spelled = b.spelled) :
    Body.target a = Body.target b := by
  cases a with
  | virtual c m =>
      cases b with
      | virtual d n =>
          have hname : c ++ ("::" ++ m) = d ++ ("::" ++ n) := by
            simpa [CallTarget.spelled, String.append_assoc] using h
          unfold Body.target
          simp only [String.append_assoc, hname]
      | _ => cases h
  | pointer s =>
      cases b with
      | pointer t =>
          have htext : s.text = t.text := by simpa [CallTarget.spelled] using h
          unfold Body.target
          simp only [htext]
      | _ => cases h
  | memberPointer s r =>
      cases b with
      | memberPointer t q =>
          obtain ⟨htext, rfl⟩ : s.text = t.text ∧ r = q := by
            simpa [CallTarget.spelled] using h
          unfold Body.target
          simp only [htext]
      | _ => cases h
  | direct f =>
      cases b <;> cases h
      rfl
  | implicit k p c f =>
      cases b <;> cases h
      rfl

/-- The letter that a fact begins with. -/
def firstLetter : BodyFact → Char
  | call target _ _ => initial target
  | assignment .. => 'a'
  | lifetime .. => 'l'

theorem head?_line (f : BodyFact) : f.line.toList.head? = some f.firstLetter := by
  cases f with
  | call target args argCount =>
      simp [line, Body.site_eq, List.head?_append, head?_target, firstLetter]
  | assignment source destination =>
      simp [line, Body.assignment, firstLetter]
  | lifetime kind phase className constructor =>
      unfold line Body.event
      simp [firstLetter]

/-- Facts are written as the same line exactly if the same words are left of them. -/
theorem line_eq_iff {f g : BodyFact} : f.line = g.line ↔ f.spelled = g.spelled := by
  constructor
  · intro h
    have hletter : f.firstLetter = g.firstLetter := Option.some.inj <| by
      rw [← head?_line, ← head?_line, h]
    cases f with
    | call a args argCount =>
        cases g with
        | call b args' argCount' =>
            obtain ⟨htarget, rfl, rfl⟩ := Body.site_inj h
            rw [spelled, spelled, spelled_eq_of_target_eq htarget]
        | _ => cases a <;> simp [firstLetter, initial] at hletter
    | assignment a s =>
        cases g with
        | assignment b t =>
            obtain ⟨rfl, htext⟩ := Body.assignment_inj h
            rw [spelled, spelled, Slot.spelled_eq_iff.mpr htext]
        | call b _ _ => cases b <;> simp [firstLetter, initial] at hletter
        | lifetime => simp [firstLetter] at hletter
    | lifetime k p c f =>
        cases g with
        | lifetime k' p' c' f' =>
            obtain ⟨rfl, rfl, rfl, rfl⟩ := Body.event_inj h
            rfl
        | call b _ _ => cases b <;> simp [firstLetter, initial] at hletter
        | assignment => simp [firstLetter] at hletter
  · intro h
    cases f with
    | call a args argCount =>
        cases g with
        | call b args' argCount' =>
            obtain ⟨htarget, rfl, rfl⟩ := BodyFact.call.inj h
            simp only [line, Body.site_eq, target_eq_of_spelled_eq htarget]
        | _ => cases h
    | assignment a s =>
        cases g with
        | assignment b t =>
            obtain ⟨rfl, htext⟩ := BodyFact.assignment.inj h
            simp only [line, Body.assignment, Slot.spelled_eq_iff.mp htext]
        | _ => cases h
    | lifetime k p c f =>
        cases g <;> cases h
        rfl

end BodyFact

end CallGraphs
