import MesonCheck.Analysis.Walk
import MesonCheck.Proofs.Walk.Findings
import MesonCheck.Proofs.Walk.Scope

/-! States side by side. Two walks over the same files may differ in the frames of their scopes, in what they have
recorded and in what is switched on. Where the differences are of a kind that no rule can see, every step keeps them
so. -/
namespace MesonCheck

structure Switches where
  lints : LintOptions
  deprecations : List Deprecation

namespace Setting

def switches (cx : Setting) : Switches :=
  ⟨cx.lints, cx.catalogue.deprecations⟩

def switched (cx : Setting) (sw : Switches) : Setting :=
  { cx with lints := sw.lints, catalogue := { cx.catalogue with deprecations := sw.deprecations } }

def Lacks (cx : Setting) (name : String) : Prop :=
  ∃ known, cx.subprojects = some known ∧ ∀ k ∈ known, k.name ≠ name

end Setting

abbrev Records := List Event × Option Fault

def Records.emit (e : Event) (a : Records) : Records :=
  (e :: a.1, a.2)

def Records.fail (f : Fault) (a : Records) : Records :=
  (a.1, some (a.2.getD f))

def Run.records (r : Run) : Records :=
  (r.log, r.fault)

def Issue.isRecursion : Issue → Bool
  | .recursiveInclusion _ => true
  | _ => false

def Event.isRecursion : Event → Bool
  | .found f => f.issue.isRecursion
  | _ => false

/-- Issues that two walks need not report alike. -/
def Issue.isOpen : Issue → Bool
  | .recursiveInclusion _ | .missingSubprojects _ | .mixedCase | .unknownName _ | .deprecatedCallable ..
  | .deprecatedKeyword .. => true
  | _ => false

theorem Issue.isOpen_of_isMisuse {issue : Issue} (misuse : issue.isMisuse = true) : issue.isOpen = false := by
  cases issue <;> trivial

def Event.isOpen : Event → Bool
  | .found f => f.issue.isOpen
  | _ => false

theorem Event.isRecursion_of_isOpen {e : Event} (calm : e.isOpen = false) : e.isRecursion = false := by
  cases e with
  | found f =>
    obtain ⟨_, _, issue⟩ := f
    cases issue with
    | recursiveInclusion path => exact calm
    | _ => rfl
  | _ => rfl

/-- How two walks may differ. Endless guesses and reports of some issues are left open here: what they do is said where
they occur. -/
structure Comparison where
  scopes : Scope → Scope → Prop
  records : Records → Records → Prop
  lookup : ∀ {s s' : Scope}, scopes s s' → ∀ x, s'.lookup x = s.lookup x
  bind : ∀ {s s' : Scope}, scopes s s' → ∀ x ts, scopes (s.bind x ts) (s'.bind x ts)
  emit : ∀ {a b : Records} {e : Event}, e.isOpen = false → records a b → records (a.emit e) (b.emit e)
  fail : ∀ {a b : Records} {f : Fault}, f ≠ .endlessGuess → records a b → records (a.fail f) (b.fail f)

namespace Comparison

def ofRecords (records : Records → Records → Prop)
    (emit : ∀ {a b : Records} {e : Event}, e.isOpen = false → records a b → records (a.emit e) (b.emit e))
    (fail : ∀ {a b : Records} {f : Fault}, f ≠ .endlessGuess → records a b → records (a.fail f) (b.fail f)) :
    Comparison where
  scopes := Eq
  records := records
  lookup same x := by rw [same]
  bind same x ts := by rw [same]
  emit := emit
  fail := fail

inductive Matches (c : Comparison) (r : Run) : Run → Prop where
  | mk {s : Scope} {log : List Event} {fault : Option Fault} : c.scopes r.scope s → c.records r.records (log, fault) →
      Matches c r { r with scope := s, log := log, fault := fault }

def Agree (c : Comparison) {α : Type} (x x' : α × Run) : Prop :=
  x'.1 = x.1 ∧ c.Matches x.2 x'.2

namespace Matches

variable {c : Comparison} {r r' : Run} (m : c.Matches r r')
include m

/-! What a rule can see of a state. -/

theorem lookup (x : String) : r'.scope.lookup x = r.scope.lookup x := by
  obtain ⟨scope, _⟩ := m
  exact c.lookup scope x

theorem flatten : r'.scope.flatten = r.scope.flatten := by
  refine Std.ExtTreeMap.ext_getElem? fun x => ?_
  rw [Scope.getElem?_flatten, Scope.getElem?_flatten, m.lookup]

theorem version : r'.version = r.version := by cases m; rfl

theorem selections : r'.selections = r.selections := by cases m; rfl

theorem debts : r'.debts = r.debts := by cases m; rfl

theorem active : r'.active = r.active := by cases m; rfl

theorem slots : r'.slots = r.slots := by cases m; rfl

theorem callAt? (s : Site) : r'.callAt? s = r.callAt? s := by cases m; rfl

theorem isIdle (cx : Setting) (sw : Switches) (n : Node) : r'.isIdle (cx.switched sw) n = r.isIdle cx n := by
  cases m
  rfl

theorem reading (x : String) : r'.reading x = r.reading x := by
  rw [Run.reading, Run.reading, Run.hidden, Run.hidden, m.selections, m.lookup]

theorem misses (x : String) : r'.misses x = r.misses x := by
  have ignored : r'.ignored = r.ignored := by cases m; rfl
  rw [Run.misses, Run.misses, Scope.has, Scope.has, m.lookup, ignored]

/-! Steps. -/

theorem emit {e : Event} (calm : e.isOpen = false) : c.Matches (r.emit e) (r'.emit e) := by
  obtain ⟨scope, records⟩ := m
  exact .mk scope (c.emit calm records)

theorem fail {f : Fault} (known : f ≠ .endlessGuess) : c.Matches (r.fail f) (r'.fail f) := by
  obtain ⟨scope, records⟩ := m
  exact .mk scope (c.fail known records)

theorem annotate (s : Site) (ts : TypeSet) : c.Matches (r.annotate s ts) (r'.annotate s ts) := by
  obtain ⟨scope, records⟩ := m
  exact .mk scope records

theorem typed (s : Site) (ts : TypeSet) : c.Agree (r.typed s ts) (r'.typed s ts) :=
  ⟨rfl, m.annotate s ts⟩

theorem resolve (s : Site) (f : Callable) : c.Matches (r.resolve s f) (r'.resolve s f) := by
  obtain ⟨scope, records⟩ := m
  exact .mk scope (c.emit (e := .resolved s f) rfl records)

theorem use (x : String) : c.Matches (r.use x) (r'.use x) := by
  obtain ⟨scope, records⟩ := m
  exact .mk scope (c.emit (e := .used x) rfl records)

theorem owe (d : Debt) : c.Matches (r.owe d) (r'.owe d) := by
  unfold Run.owe
  rw [m.debts]
  split
  · exact m
  · obtain ⟨scope, records⟩ := m
    exact .mk scope (c.emit (e := .owed d.name) rfl records)

theorem carry (ds : List Debt) : c.Matches (r.carry ds) (r'.carry ds) := by
  unfold Run.carry
  rw [m.debts]
  split
  · exact m
  · obtain ⟨scope, records⟩ := m
    exact .mk scope records

theorem withVersion (v : Option Version) : c.Matches { r with version := v } { r' with version := v } := by
  obtain ⟨scope, records⟩ := m
  exact .mk scope records

theorem note (x : String) (ts : TypeSet) : c.Matches (r.note x ts) (r'.note x ts) := by
  unfold Run.note
  rw [m.selections, m.lookup]
  split
  · exact m
  · obtain ⟨scope, records⟩ := m
    exact .mk scope records

theorem bind (x : String) (ts : TypeSet) : c.Matches (r.bind x ts) (r'.bind x ts) := by
  have noted := m.note x ts
  unfold Run.bind
  generalize r'.note x ts = s at noted ⊢
  obtain ⟨scope, records⟩ := noted
  exact .mk (c.bind scope x ts) (c.emit (e := .bound x ts _) rfl records)

theorem report {f : Finding} (calm : f.issue.isOpen = false) : c.Matches (r.report f) (r'.report f) :=
  m.emit calm

omit m in
theorem ite {q : Prop} [Decidable q] {a a' b b' : Run} (yes : c.Matches a a') (no : c.Matches b b') :
    c.Matches (if q then a else b) (if q then a' else b') := by
  split
  · exact yes
  · exact no

theorem reportIf (cond : Bool) {f : Finding} (calm : f.issue.isOpen = false) :
    c.Matches (r.reportIf cond f) (r'.reportIf cond f) :=
  .ite (m.report calm) m

theorem foldl {α : Type} {f g : Run → α → Run} {as : List α}
    (step : ∀ a ∈ as, ∀ r r', c.Matches r r' → c.Matches (f r a) (g r' a)) :
    c.Matches (as.foldl f r) (as.foldl g r') := by
  induction as generalizing r r' with
  | nil => exact m
  | cons a as ih =>
    have head := step a List.mem_cons_self r r' m
    exact ih head fun b member => step b (List.mem_cons_of_mem _ member)

theorem reportAll {spot : Site → Prop} {fs : List Finding} (misuses : Misuses spot fs) :
    c.Matches (r.reportAll fs) (r'.reportAll fs) :=
  m.foldl fun f member _ _ m => m.report (Issue.isOpen_of_isMisuse (misuses f member).1)

/-! Brackets. -/

theorem openDebts : c.Matches r.openDebts r'.openDebts := by
  obtain ⟨scope, records⟩ := m
  exact .mk scope records

theorem closeDebts : c.Agree r.closeDebts r'.closeDebts := by
  obtain ⟨scope, records⟩ := m
  exact ⟨rfl, .mk scope records⟩

theorem openFile (id : Nat) : c.Matches (r.openFile id) (r'.openFile id) := by
  obtain ⟨scope, records⟩ := m
  exact .mk scope records

theorem closeFile : c.Matches r.closeFile r'.closeFile := by
  obtain ⟨scope, records⟩ := m
  exact .mk scope records

theorem ignore (names : List String) : c.Matches (r.ignore names) (r'.ignore names) := by
  obtain ⟨scope, records⟩ := m
  exact .mk scope records

theorem unignore (names : List String) : c.Matches (r.unignore names) (r'.unignore names) := by
  obtain ⟨scope, records⟩ := m
  exact .mk scope records

theorem openSelection : c.Matches (Place.openSelection r) (Place.openSelection r') := by
  obtain ⟨scope, records⟩ := m
  exact .mk scope records

theorem closeSelection (isExhaustive : Bool) (before : Frame) :
    c.Matches (Place.closeSelection isExhaustive before r) (Place.closeSelection isExhaustive before r') := by
  have merged (name : String) (ts : TypeSet) :
      Place.mergedTypes isExhaustive before r' name ts = Place.mergedTypes isExhaustive before r name ts := by
    rw [Place.mergedTypes, Place.mergedTypes, m.lookup]
  unfold Place.closeSelection
  rw [m.selections]
  simp only [merged]
  split
  · exact m
  · rename_i s outer _
    have popped : c.Matches { r with selections := outer } { r' with selections := outer } := by
      obtain ⟨scope, records⟩ := m
      exact .mk scope records
    exact popped.foldl fun b _ _ _ m => m.bind b.1 b.2

/-! Lints. -/

theorem checkBool (s : Site) (ts : TypeSet) : c.Matches (r.checkBool s ts) (r'.checkBool s ts) :=
  m.reportIf _ rfl

theorem checkPlaceholders (s : Site) (value : String) :
    c.Matches (r.checkPlaceholders s value) (r'.checkPlaceholders s value) := by
  refine m.foldl fun name _ r r' m => ?_
  rw [m.misses]
  exact (m.use name).reportIf _ rfl

theorem settle (cx : Setting) (sw : Switches) (ds : List Debt) :
    c.Matches (r.settle cx ds) (r'.settle (cx.switched sw) ds) :=
  m.foldl fun _ _ _ _ m => m.reportIf _ rfl

end Matches

/-! Issues that are open. -/

def Reports (c : Comparison) (issue : Issue) : Prop :=
  ∀ a b, c.records a b → ∀ first last,
    c.records (a.emit (.found ⟨first, last, issue⟩)) (b.emit (.found ⟨first, last, issue⟩))

namespace Reports

variable {c : Comparison} {r r' : Run} (cx : Setting)

theorem report {issue : Issue} (reports : c.Reports issue) (m : c.Matches r r') (first last : Site) :
    c.Matches (r.report ⟨first, last, issue⟩) (r'.report ⟨first, last, issue⟩) := by
  obtain ⟨scope, records⟩ := m
  exact .mk scope (reports _ _ records first last)

theorem checkName (reports : c.Reports .mixedCase) (m : c.Matches r r') (id : Ident) :
    c.Matches (r.checkName cx id) (r'.checkName cx id) :=
  .ite (reports.report m _ _) m

theorem checkResult (reports : ∀ names, c.Reports (.unknownName names)) (m : c.Matches r r') (method text : Site)
    (value : String) :
    c.Matches (r.checkResult cx method text value) (r'.checkResult cx method text value) := by
  unfold Run.checkResult
  rw [m.callAt?]
  split
  · exact .ite ((reports _).report m _ _) m
  · exact m

theorem checkDeprecated (reports : ∀ id alternatives, c.Reports (.deprecatedCallable id alternatives))
    (m : c.Matches r r') (callee : Ident) (f : Callable) :
    c.Matches (r.checkDeprecated cx callee f) (r'.checkDeprecated cx callee f) := by
  unfold Run.checkDeprecated
  rw [m.version]
  split
  · exact (reports _ _).report m _ _
  · exact m

theorem checkKeyword (reports : ∀ key alternatives, c.Reports (.deprecatedKeyword key alternatives))
    (m : c.Matches r r') (key : Ident) : c.Matches (r.checkKeyword cx key) (r'.checkKeyword cx key) := by
  unfold Run.checkKeyword
  rw [m.version]
  split
  · exact m
  · split
    · exact (reports _ _).report m _ _
    · exact m

end Reports

/-- Whether states go on to match where something is looked for that can be switched off, and where subprojects are
missed. -/
structure Tolerates (c : Comparison) (cx : Setting) (sw : Switches) : Prop where
  name : ∀ {r r' : Run}, c.Matches r r' → ∀ id,
    c.Matches (r.checkName cx id) (r'.checkName (cx.switched sw) id)
  result : ∀ {r r' : Run}, c.Matches r r' → ∀ method text value,
    c.Matches (r.checkResult cx method text value) (r'.checkResult (cx.switched sw) method text value)
  callable : ∀ {r r' : Run}, c.Matches r r' → ∀ callee f,
    c.Matches (r.checkDeprecated cx callee f) (r'.checkDeprecated (cx.switched sw) callee f)
  keyword : ∀ {r r' : Run}, c.Matches r r' → ∀ key,
    c.Matches (r.checkKeyword cx key) (r'.checkKeyword (cx.switched sw) key)
  missing : ∀ names, (∀ n ∈ names, cx.Lacks n) → c.Reports (.missingSubprojects names)

namespace Tolerates

variable {c : Comparison} {cx : Setting}

theorem comparison {sw : Switches} (tolerates : c.Tolerates cx sw) {r r' : Run} (m : c.Matches r r')
    (op : Operator) (left right : Node) :
    c.Matches (r.checkComparison cx op left right) (r'.checkComparison (cx.switched sw) op left right) := by
  unfold Run.checkComparison
  split
  · split
    · exact tolerates.result m ..
    · exact m
    · exact tolerates.result m ..
    · exact m
  · exact m

theorem of_reports (reports : ∀ {issue : Issue}, issue.isRecursion = false → c.Reports issue) :
    c.Tolerates cx cx.switches where
  name m := Reports.checkName cx (reports rfl) m
  result m := Reports.checkResult cx (fun _ => reports rfl) m
  callable m := Reports.checkDeprecated cx (fun _ _ => reports rfl) m
  keyword m := Reports.checkKeyword cx (fun _ _ => reports rfl) m
  missing _ _ := reports rfl

end Tolerates

end Comparison

end MesonCheck
