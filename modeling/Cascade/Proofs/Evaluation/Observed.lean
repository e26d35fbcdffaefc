import Cascade.Proofs.Evaluation.InPlace

/-!
# Evaluation under observation

`Observed` is the interpretation of evaluation that also records its course: every scope in which a
part is evaluated, and every marker that is handed to the declaration around, with the scope it
comes from.  Without the record it is the plain interpretation (`Observed.outcome_eval`), so what
is shown about the record is true of the evaluation.

`Watch.Keeps` says that an evaluation in a scope lets only such things happen as it is watched for,
and that its result is as expected.  The rules of this module say how this passes through the
operations of evaluation and through what is composed of them.
-/

namespace Cascade

/-- What happens in the course of an evaluation. -/
inductive Event where
  /-- A part is evaluated in a scope. -/
  | enters (scope : Scope)
  /-- A marker is handed, from a scope, to the declaration around. -/
  | marks (scope : Scope) (marker : String)

namespace Event

/-- The marker that is handed on. -/
def marker? : Event → Option String
  | .enters _ => none
  | .marks _ marker => some marker

/-- The scope in which a part is evaluated. -/
def entered? : Event → Option Scope
  | .enters scope => some scope
  | .marks _ _ => none

/-- The last marker that is handed on. -/
def lastMarker (events : List Event) : Option String :=
  (events.filterMap marker?).getLast?

/-- Of two markers the later one counts. -/
lemma lastMarker_append (earlier later : List Event) :
    lastMarker (earlier ++ later) = (lastMarker later).or (lastMarker earlier) := by
  simp [lastMarker]

/-- The scopes that are entered hand on no marker. -/
lemma lastMarker_filter (events : List Event) :
    lastMarker (events.filter fun event => event.marker?.isNone) = none := by
  have hnone : (events.filter fun event => event.marker?.isNone).filterMap marker? = [] := by
    simp [List.filterMap_eq_nil_iff]
  rw [lastMarker, hnone]
  rfl

end Event

/-- The course of an evaluation: its result, the query conditions after it, and what happened. -/
structure Course (α : Type) where
  result : Except Halt α
  queries : Queries
  events : List Event

namespace Course

variable {α : Type}

/-- What the course of an evaluation gives. -/
def outcome (course : Course α) : Outcome α :=
  ⟨course.result, course.queries, Event.lastMarker course.events⟩

/-- The scopes in which parts are evaluated. -/
def scopes (course : Course α) : List Scope :=
  course.events.filterMap Event.entered?

end Course

/-- An evaluation under observation. -/
def Observed (α : Type) : Type :=
  Scope → Queries → Course α

namespace Observed

variable {α β : Type}

/-- The evaluation without effects. -/
protected def pure (a : α) : Observed α :=
  fun _ queries => ⟨.ok a, queries, []⟩

/-- One evaluation after the other. -/
protected def bind (x : Observed α) (f : α → Observed β) : Observed β :=
  fun scope queries =>
    let first := x scope queries
    match first.result with
    | .error halt => ⟨.error halt, first.queries, first.events⟩
    | .ok a =>
      let second := f a scope first.queries
      ⟨second.result, second.queries, first.events ++ second.events⟩

/-- Gives the error of an evaluation as a value. -/
def attempt (x : Observed α) : Observed (Except Error α) :=
  fun scope queries =>
    let inner := x scope queries
    match inner.result with
    | .ok a => ⟨.ok (.ok a), inner.queries, inner.events⟩
    | .error (.failed error) => ⟨.ok (.error error), inner.queries, inner.events⟩
    | .error .exhausted => ⟨.error .exhausted, inner.queries, inner.events⟩

/-- Keeps the markers of an evaluation from the declaration around and gives the last one. -/
def capture (x : Observed α) : Observed (α × Option String) :=
  fun scope queries =>
    let inner := x scope queries
    ⟨inner.result.map fun a => (a, Event.lastMarker inner.events), inner.queries,
      inner.events.filter fun event => event.marker?.isNone⟩

/-- What one of the caller's functions does: no more is known than its outcome. -/
def foreign (x : Eval Node) : Observed Node :=
  fun scope queries =>
    let outcome := x queries
    ⟨outcome.result, outcome.queries, outcome.marker.toList.map (.marks scope)⟩

/-- Evaluates a part in another scope. -/
def within (enter : Scope → Scope) (x : Observed α) : Observed α :=
  fun scope queries =>
    let inner := x (enter scope) queries
    { inner with events := .enters (enter scope) :: inner.events }

end Observed

instance : Evaluation Observed where
  pure := Observed.pure
  bind := Observed.bind
  scope := fun scope queries => ⟨.ok scope, queries, []⟩
  queries := fun _ queries => ⟨.ok queries, queries, []⟩
  update f := fun _ queries => ⟨.ok ⟨⟩, f queries, []⟩
  stop halt := fun _ queries => ⟨.error halt, queries, []⟩
  attempt := Observed.attempt
  deposit marker := fun scope queries => ⟨.ok ⟨⟩, queries, [.marks scope marker]⟩
  capture := Observed.capture
  textOf node := fun scope queries => ⟨node.css queries scope.style, queries, []⟩
  foreign := Observed.foreign
  inParens := Observed.within Scope.enterParens
  inCall asCalc := Observed.within fun scope => scope.enterCall asCalc
  inMath math := Observed.within fun scope => scope.setMath math
  inSelectors selectors := Observed.within fun scope => scope.setSelectors selectors
  inFrame frame := Observed.within fun scope => scope.pushFrame frame
  inFrames frames := Observed.within fun scope => scope.setFrames frames
  inVariable name := Observed.within fun scope => scope.enterVariable name
  inSurroundings change := Observed.within fun scope => scope.changeSurroundings change

/-! ### Without the record -/

namespace Observed

variable {α β : Type}

/-- The evaluation without the record of its course. -/
def plain (x : Observed α) : Scoped α :=
  fun scope queries => (x scope queries).outcome

/-- One evaluation after the other: of the markers in both courses the last one counts. -/
lemma plain_bind (x : Observed α) (f : α → Observed β) :
    plain (x >>= f) = plain x >>= fun a => plain (f a) := by
  funext scope queries
  show (Observed.bind x f scope queries).outcome =
    Eval.bind (plain x scope) (fun a => plain (f a) scope) queries
  unfold Observed.bind Eval.bind plain
  obtain ⟨_ | a, states, events⟩ := x scope queries
  · rfl
  · simp [Course.outcome, Event.lastMarker_append]

/-- Two evaluations one after the other succeed if both do. -/
lemma bind_result_eq_ok {x : Observed α} {f : α → Observed β} {s : Scope} {q : Queries} {b : β} :
    ((x >>= f) s q).result = .ok b ↔
      ∃ a, (x s q).result = .ok a ∧ (f a s (x s q).queries).result = .ok b := by
  show (Observed.bind x f s q).result = .ok b ↔ _
  unfold Observed.bind
  obtain ⟨_ | a, states, events⟩ := x s q
  · simp
  · simp

/-- A computation that succeeds. -/
lemma ofExcept_result_eq_ok {x : Except Error α} {s : Scope} {q : Queries} {a : α} :
    ((Evaluation.ofExcept x : Observed α) s q).result = .ok a ↔ x = .ok a := by
  cases x with
  | error error => exact ⟨nofun, nofun⟩
  | ok b =>
    show (Except.ok b : Except Halt α) = .ok a ↔ _
    simp

/-- The marker that is captured is the last one in the course. -/
lemma capture_result_eq_ok {x : Observed α} {s : Scope} {q : Queries} {r : α × Option String} :
    (Evaluation.capture x s q).result = .ok r ↔
      (x s q).result = .ok r.1 ∧ r.2 = Event.lastMarker (x s q).events := by
  show (capture x s q).result = .ok r ↔ _
  unfold capture
  obtain ⟨a, marker⟩ := r
  obtain ⟨_ | b, states, events⟩ := x s q
  · simp [Except.map]
  · simp [Except.map, eq_comm]

/-- An error as a value. -/
lemma plain_attempt (x : Observed α) :
    plain (Evaluation.attempt x) = Evaluation.attempt (plain x) := by
  funext scope queries
  show (attempt x scope queries).outcome = Eval.attempt (plain x scope) queries
  unfold attempt Eval.attempt plain
  obtain ⟨(error | _) | a, states, events⟩ := x scope queries <;> rfl

/-- A marker that is captured does not go on. -/
lemma plain_capture (x : Observed α) :
    plain (Evaluation.capture x) = Evaluation.capture (plain x) := by
  funext scope queries
  show (capture x scope queries).outcome = Eval.capture (plain x scope) queries
  unfold capture Eval.capture plain
  obtain ⟨_ | a, states, events⟩ := x scope queries <;>
    simp [Course.outcome, Event.lastMarker_filter, Except.map]

/-- What one of the caller's functions does. -/
lemma plain_foreign (x : Eval Node) : plain (Evaluation.foreign x) = Evaluation.foreign x := by
  funext scope queries
  show (foreign x scope queries).outcome = x queries
  unfold foreign
  obtain ⟨result, states, _ | marker⟩ := x queries <;> rfl

/-- Observed and plain evaluations agree on every operation. -/
def morphism : Evaluation.Morphism Observed Scoped where
  map := plain
  map_pure _ := rfl
  map_bind := plain_bind
  map_scope := rfl
  map_queries := rfl
  map_update _ := rfl
  map_stop _ := rfl
  map_attempt := plain_attempt
  map_deposit _ := rfl
  map_capture := plain_capture
  map_textOf _ := rfl
  map_foreign := plain_foreign
  map_inParens _ := rfl
  map_inCall _ _ := rfl
  map_inMath _ _ := rfl
  map_inSelectors _ _ := rfl
  map_inFrame _ _ := rfl
  map_inFrames _ _ := rfl
  map_inVariable _ _ := rfl
  map_inSurroundings _ _ := rfl

/-- Observation does not change an evaluation. -/
theorem outcome_eval (depth : Nat) (node : Node) (s : Scope) (q : Queries) :
    ((Node.eval depth node : Observed Node) s q).outcome =
      (Node.eval depth node : Scoped Node) s q :=
  congrFun (congrFun (morphism.map_eval depth node) s) q

end Observed

/-- The course of evaluating a node in a context. -/
def Context.course (c : Context) (depth : Nat) (node : Node) : Course Node :=
  (Node.eval depth node : Observed Node) c.scope c.queries

/-- What evaluating a node in a context gives can be read off its course. -/
theorem Context.evaluate_eq_course (c : Context) (depth : Nat) (node : Node) :
    c.evaluate depth node =
      ((c.course depth node).result, c.afterwards (c.course depth node).outcome) := by
  rw [Context.evaluate_eq, ← Observed.outcome_eval]
  rfl

/-! ### Watched evaluations -/

/-- What an evaluation is watched for: what the states of the query conditions between two steps
are like, and what may happen. -/
structure Watch where
  States : Queries → Prop
  Admits : Event → Prop

namespace Watch

variable (W : Watch) {α β : Type} {s : Scope}

/-- A course in which only happened what may happen, with a result as expected. -/
structure Kept (Post : α → Prop) (course : Course α) : Prop where
  states : W.States course.queries
  events : ∀ event ∈ course.events, W.Admits event
  post : ∀ a, course.result = .ok a → Post a

/-- An evaluation in a scope whose courses are as expected. -/
def Keeps (s : Scope) (Post : α → Prop) (x : Observed α) : Prop :=
  ∀ q, W.States q → W.Kept Post (x s q)

variable {W} {P : α → Prop} {Q : β → Prop}

/-- A course in which nothing happens. -/
lemma Kept.quiet {result : Except Halt α} {q : Queries} (hq : W.States q)
    (h : ∀ a, result = .ok a → P a) : W.Kept P ⟨result, q, []⟩ where
  states := hq
  events := List.forall_mem_nil _
  post := h

namespace Keeps

/-! ### Sequences of steps -/

/-- A value. -/
lemma pure {a : α} (h : P a) : W.Keeps s P (pure a) :=
  fun _ hq => Kept.quiet hq fun _ ha => Except.ok.inj ha ▸ h

/-- A stop. -/
lemma stop (halt : Halt) : W.Keeps s P (Evaluation.stop halt) :=
  fun _ hq => Kept.quiet hq fun _ ha => by cases ha

/-- A failure. -/
lemma fail (error : Error) : W.Keeps s P (Evaluation.fail error) :=
  .stop _

/-- A computation. -/
lemma ofExcept {x : Except Error α} (h : ∀ a, x = .ok a → P a) :
    W.Keeps s P (Evaluation.ofExcept x) := by
  cases x with
  | ok a => exact .pure (h a rfl)
  | error error => exact .fail error

/-- A weaker expectation. -/
lemma imp {P' : α → Prop} {x : Observed α} (h : W.Keeps s P x) (himp : ∀ a, P a → P' a) :
    W.Keeps s P' x :=
  fun q hq => { h q hq with post := fun a ha => himp a ((h q hq).post a ha) }

/-- One step after the other. -/
lemma bind {x : Observed α} {f : α → Observed β} (h : W.Keeps s P x)
    (hf : ∀ a, P a → W.Keeps s Q (f a)) : W.Keeps s Q (x >>= f) := by
  intro q hq
  have hfirst := h q hq
  show W.Kept Q (Observed.bind x f s q)
  unfold Observed.bind
  generalize x s q = first at hfirst
  obtain ⟨_ | a, states, events⟩ := first
  · exact ⟨hfirst.states, hfirst.events, nofun⟩
  · have hsecond := hf a (hfirst.post a rfl) states hfirst.states
    refine ⟨hsecond.states, ?_, hsecond.post⟩
    exact List.forall_mem_append.2 ⟨hfirst.events, hsecond.events⟩

/-- A step that looks at the scope. -/
lemma bind_scope {f : Scope → Observed β} (h : W.Keeps s Q (f s)) :
    W.Keeps s Q (Evaluation.scope >>= f) :=
  fun q hq => h q hq

/-- A result that there is in any case. -/
lemma bind_some {x : Observed α} (h : W.Keeps s P x) :
    W.Keeps s (fun result => ∀ a ∈ result, P a) (x >>= fun a => Pure.pure (some a)) := by
  refine .bind h fun a ha => .pure ?_
  rintro _ ⟨⟩
  exact ha

/-- A look at the states of the query conditions. -/
lemma queries : W.Keeps s W.States Evaluation.queries :=
  fun _ hq => Kept.quiet hq fun _ ha => Except.ok.inj ha ▸ hq

/-- A change of the states of the query conditions. -/
lemma update {f : Queries → Queries} (h : ∀ q, W.States q → W.States (f q)) :
    W.Keeps s (fun _ => True) (Evaluation.update f) :=
  fun q hq => Kept.quiet (h q hq) fun _ _ => trivial

/-- A marker handed on. -/
lemma announce {marker : String} (h : W.Admits (.marks s marker)) :
    W.Keeps s (fun _ => True) (Evaluation.announce marker) := by
  unfold Evaluation.announce
  split
  · exact .pure trivial
  · exact fun q hq => ⟨hq, List.forall_mem_singleton.2 h, fun _ _ => trivial⟩

/-- Markers kept from the declaration around. -/
lemma capture {x : Observed α} (h : W.Keeps s P x) :
    W.Keeps s (fun r => P r.1) (Evaluation.capture x) := by
  intro q hq
  have hinner := h q hq
  refine ⟨hinner.states, fun event hevent => hinner.events event (List.mem_filter.1 hevent).1, ?_⟩
  exact fun r hr => hinner.post r.1 (Observed.capture_result_eq_ok.1 hr).1

/-- An error as a value. -/
lemma attempt {x : Observed α} (h : W.Keeps s P x) :
    W.Keeps s (fun _ => True) (Evaluation.attempt x) := by
  intro q hq
  have hinner := h q hq
  show W.Kept _ (Observed.attempt x s q)
  unfold Observed.attempt
  generalize x s q = inner at hinner
  obtain ⟨(error | _) | a, states, events⟩ := inner <;>
    exact ⟨hinner.states, hinner.events, fun _ _ => trivial⟩

/-- A text. -/
lemma textOf (node : Node) : W.Keeps s (fun _ => True) (Evaluation.textOf node) :=
  fun _ hq => Kept.quiet hq fun _ _ => trivial

/-! ### Parts in other scopes -/

section Scopes

variable {x : Observed α}

/-- In another scope. -/
lemma within (enter : Scope → Scope) (hadmits : W.Admits (.enters (enter s)))
    (h : W.Keeps (enter s) P x) : W.Keeps s P (Observed.within enter x) :=
  fun q hq => ⟨(h q hq).states, List.forall_mem_cons.2 ⟨hadmits, (h q hq).events⟩, (h q hq).post⟩

/-- In parentheses. -/
lemma inParens (hadmits : W.Admits (.enters s.enterParens)) (h : W.Keeps s.enterParens P x) :
    W.Keeps s P (Evaluation.inParens x) :=
  within Scope.enterParens hadmits h

/-- In the arguments of a call. -/
lemma inCall {asCalc : Bool} (hadmits : W.Admits (.enters (s.enterCall asCalc)))
    (h : W.Keeps (s.enterCall asCalc) P x) : W.Keeps s P (Evaluation.inCall asCalc x) :=
  within (fun s => s.enterCall asCalc) hadmits h

/-- Under rules for arithmetic. -/
lemma inMath {math : MathMode} (hadmits : W.Admits (.enters (s.setMath math)))
    (h : W.Keeps (s.setMath math) P x) : W.Keeps s P (Evaluation.inMath math x) :=
  within (fun s => s.setMath math) hadmits h

/-- Inside selectors. -/
lemma inSelectors {selectors : List String}
    (hadmits : W.Admits (.enters (s.setSelectors selectors)))
    (h : W.Keeps (s.setSelectors selectors) P x) :
    W.Keeps s P (Evaluation.inSelectors selectors x) :=
  within (fun s => s.setSelectors selectors) hadmits h

/-- With one more frame. -/
lemma inFrame {frame : Frame} (hadmits : W.Admits (.enters (s.pushFrame frame)))
    (h : W.Keeps (s.pushFrame frame) P x) : W.Keeps s P (Evaluation.inFrame frame x) :=
  within (fun s => s.pushFrame frame) hadmits h

/-- In other frames. -/
lemma inFrames {frames : List Frame} (hadmits : W.Admits (.enters (s.setFrames frames)))
    (h : W.Keeps (s.setFrames frames) P x) : W.Keeps s P (Evaluation.inFrames frames x) :=
  within (fun s => s.setFrames frames) hadmits h

/-- While a variable is being resolved. -/
lemma inVariable {name : String} (hadmits : W.Admits (.enters (s.enterVariable name)))
    (h : W.Keeps (s.enterVariable name) P x) : W.Keeps s P (Evaluation.inVariable name x) :=
  within (fun s => s.enterVariable name) hadmits h

/-- In parentheses, if there are any. -/
lemma parenthesized {parens : Bool} (hadmits : W.Admits (.enters s.enterParens))
    (hinside : W.Keeps s.enterParens P x) (h : W.Keeps s P x) :
    W.Keeps s P (Evaluation.parenthesized parens x) := by
  unfold Evaluation.parenthesized
  split
  · exact .inParens hadmits hinside
  · exact h

end Scopes

/-! ### Lists of evaluations -/

/-- Evaluations one after the other. -/
lemma runEach {xs : List (Observed α)} (h : ∀ x ∈ xs, W.Keeps s P x) :
    W.Keeps s (fun as => as.length = xs.length ∧ ∀ a ∈ as, P a) (Evaluation.runEach xs) := by
  induction xs with
  | nil => exact .pure ⟨rfl, nofun⟩
  | cons x rest ih =>
    obtain ⟨hx, hrest⟩ := List.forall_mem_cons.1 h
    refine .bind hx fun a ha => .bind (ih hrest) ?_
    rintro as ⟨hlength, has⟩
    exact .pure ⟨by simp [hlength], List.forall_mem_cons.2 ⟨ha, has⟩⟩

/-- Several evaluations all of which run. -/
lemma runAll {xs : List (Observed α)} (h : ∀ x ∈ xs, W.Keeps s P x) :
    W.Keeps s (fun _ => True) (Evaluation.runAll xs) := by
  refine .bind (P := fun _ => True) ?_ fun results _ => .ofExcept fun _ _ => trivial
  refine (runEach (P := fun _ => True) fun y hy => ?_).imp fun _ _ => trivial
  obtain ⟨x, hx, rfl⟩ := List.mem_map.1 hy
  exact (h x hx).attempt

/-! ### Variables -/

section Variables

variable {resolve : Resolver Observed} {Post : Node → Prop}

/-- The value of a variable that is not being resolved, in the scope of its declaration. -/
lemma binding {name : String} (henters : W.Admits (.enters (s.enterVariable name)))
    (hfound : name ∉ s.resolving → ∀ found, Frame.lookup? name s.frames = some found →
      W.Admits (.marks (s.enterVariable name) found.important) ∧
        W.Admits (.enters ((s.enterVariable name).setFrames (s.bindingFrames found))) ∧
        W.Keeps ((s.enterVariable name).setFrames (s.bindingFrames found)) Post
          (resolve.value found.value)) :
    W.Keeps s Post (resolve.binding name) := by
  refine .bind_scope ?_
  split
  · exact .fail _
  next hfresh =>
  have hname : name ∉ s.resolving := by simpa using hfresh
  refine .inVariable henters ?_
  unfold Resolver.lookup
  cases hlookup : Frame.lookup? name s.frames with
  | none => exact .fail _
  | some found =>
    obtain ⟨hmarks, hadmits, hvalue⟩ := hfound hname found hlookup
    exact .bind (.announce hmarks) fun _ _ => .inFrames hadmits hvalue

/-- The name that a value gives. -/
lemma nameText (v : Node) : W.Keeps s (fun _ => True) (Resolver.nameText v) := by
  unfold Resolver.nameText
  split
  · exact .pure trivial
  · exact .pure trivial
  · exact .pure trivial
  · exact .textOf v

/-- The value of a reference. -/
lemma reference (h : ∀ name, W.Keeps s Post (resolve.binding name)) (name : String) :
    W.Keeps s Post (resolve.reference name) := by
  have hindirect : ∀ base depth, W.Keeps s Post (resolve.indirect base depth) := by
    intro base depth
    induction depth with
    | zero => exact h base
    | succ depth ih => exact .bind ih fun inner _ => .bind (.nameText inner) fun text _ => h _
  unfold Resolver.reference
  dsimp only
  split
  · exact h name
  · exact hindirect _ _

/-- What a placeholder stands for. -/
lemma placeholder (h : ∀ name, W.Keeps s Post (resolve.binding name)) (name : String) :
    W.Keeps s (fun _ => True) (resolve.placeholder name) := by
  refine .bind (.reference h _) fun value _ => ?_
  unfold Resolver.fillText
  split
  · exact .pure trivial
  · exact .textOf value

/-- A string with its placeholders filled in: it stays as it is, or what comes out is evaluated. -/
lemma string {Found : Node → Prop} {info : Info} {quote : Char} {text : String} {escaped : Bool}
    (h : ∀ name, W.Keeps s Found (resolve.binding name))
    (hdone : Post (.quoted info.snapshot quote text escaped))
    (hagain : ∀ filled, W.Keeps s Post (resolve.body (.quoted info quote filled escaped))) :
    W.Keeps s Post (resolve.string info quote text escaped) := by
  have hnames : ∀ x ∈ (Text.Piece.names (Text.pieces text)).map resolve.placeholder,
      W.Keeps s (fun _ => True) x := by
    intro x hx
    obtain ⟨name, _, rfl⟩ := List.mem_map.1 hx
    exact .placeholder h name
  refine .bind (.runAll hnames) fun texts _ => ?_
  dsimp only
  split
  · exact .pure hdone
  · exact hagain _

end Variables

/-! ### Functions -/

section Functions

variable {xs : List (Observed Node)} {Post Post' : Node → Prop}

/-- The evaluation of an argument of the conditional. -/
lemma branch (h : ∀ x ∈ xs, W.Keeps s Post x) (position : Nat) :
    W.Keeps s Post (Builtin.branch xs position) := by
  unfold Builtin.branch Builtin.argument
  cases hat : xs[position]? with
  | none => exact .fail _
  | some x => exact h x (List.mem_of_getElem? hat)

/-- The conditional. -/
lemma choose (h : ∀ x ∈ xs, W.Keeps s Post x) (hnothing : Post (.anonymous {} "" false false)) :
    W.Keeps s Post (Builtin.choose xs) := by
  refine .bind (.branch h 0) fun condition _ => ?_
  split
  · exact .branch h 1
  · cases hat : xs[2]? with
    | none => exact .pure hnothing
    | some x => exact h x (List.mem_of_getElem? hat)

/-- The arguments of a function, evaluated and without comments. -/
lemma evaluateArguments (function : String) (args : List Node) (h : ∀ x ∈ xs, W.Keeps s Post x) :
    W.Keeps s (fun values => ∀ v ∈ values, ∃ a, Post a ∧ v = a.stripComments)
      (Node.evaluateArguments function (args.zip xs)) := by
  induction xs generalizing args with
  | nil =>
    rw [List.zip_nil_right]
    exact .pure nofun
  | cons x rest ih =>
    obtain ⟨hx, hrest⟩ := List.forall_mem_cons.1 h
    cases args with
    | nil => exact .pure nofun
    | cons arg args =>
      simp only [List.zip_cons_cons, Node.evaluateArguments]
      split
      · refine .bind hx fun r hr => .bind (ih args hrest) fun others hothers => .pure ?_
        split
        · exact hothers
        · exact List.forall_mem_cons.2 ⟨⟨r, hr, rfl⟩, hothers⟩
      · exact .fail _

/-- A call, in the scope of its arguments.  What the arguments are expected to be need not be what
is expected of the call. -/
lemma callNamed {info : Info} {name : String} {args : List Node} {asCalc : Bool}
    (hxs : ∀ x ∈ xs, W.Keeps s Post x)
    (hlength : xs.length = args.length)
    (hcustom : ∀ table key, s.functionTable = .ok table → table.find? name = some (.custom key) →
      s.custom key = none)
    (hcall : ∀ (b : Builtin) values r, (∀ v ∈ values, ∃ a, Post a ∧ v = a.stripComments) →
      b.call values = .ok r → Post' r)
    (hcond : ∀ table, s.functionTable = .ok table → table.find? name = some (.builtin .cond) →
      Post (.anonymous {} "" false false) ∧ ∀ r, Post r → Post' r)
    (hkept : ∀ table values, s.functionTable = .ok table → table.find? name = none →
      (∀ v ∈ values, Post v) → Post' (.call info.snapshot name values asCalc)) :
    W.Keeps s Post' (Node.callNamed info name args asCalc xs) := by
  refine .bind_scope (.bind (P := fun table => s.functionTable = .ok table)
    (.ofExcept fun _ htable => htable) fun table htable => ?_)
  cases hfind : table.find? name with
  | none =>
    refine .bind (.runEach hxs) fun values hvalues => .pure ?_
    exact hkept table values htable hfind hvalues.2
  | some function =>
    cases function with
    | custom key =>
      dsimp only [Scope.callFunction, Scope.callCustom]
      rw [hcustom table key htable hfind]
      exact .fail _
    | builtin b =>
      dsimp only [Scope.callFunction]
      split
      · refine .bind (.evaluateArguments _ args hxs) fun values hvalues => .ofExcept fun r hr => ?_
        exact hcall b values r hvalues hr
      next hraw =>
      obtain rfl : b = .cond := by cases b <;> simp_all [Builtin.evaluatesArguments]
      obtain ⟨hnothing, hpost⟩ := hcond table htable hfind
      simp only [Builtin.callRaw, List.map_snd_zip (Nat.le_of_eq hlength)]
      exact (choose hxs hnothing).imp hpost

end Functions

/-! ### Lists and names -/

section Items

variable {xs : List (Observed Node)} {Post : Node → Prop} {info : Info}

/-- The items of an expression: one that stands for itself, or none or several in a new
expression. -/
lemma expressionOf {form : ExpressionForm} (h : ∀ x ∈ xs, W.Keeps s Post x)
    (hnone : xs = [] → Post (.expression info.snapshot [] form))
    (hseveral : ∀ values : List Node, 2 ≤ values.length → (∀ v ∈ values, Post v) →
      Post (.expression info.snapshot values { noSpacing := form.noSpacing })) :
    W.Keeps s Post (Node.expressionOf info form xs) := by
  match xs with
  | [] => exact .pure (hnone rfl)
  | [single] => exact h single List.mem_cons_self
  | first :: second :: rest =>
    refine .bind (.runEach h) fun values hvalues => .pure (hseveral values ?_ hvalues.2)
    simp [hvalues.1]

/-- The items of a list: one that stands for itself, or none or several in a new list. -/
lemma valueOf (h : ∀ x ∈ xs, W.Keeps s Post x)
    (hitems : ∀ values : List Node, values.length ≠ 1 → (∀ v ∈ values, Post v) →
      Post (.value info.snapshot values)) :
    W.Keeps s Post (Node.valueOf info xs) := by
  match xs with
  | [single] => exact h single List.mem_cons_self
  | [] =>
    refine .bind (.runEach h) fun values hvalues => .pure (hitems values ?_ hvalues.2)
    simp [hvalues.1]
  | first :: second :: rest =>
    refine .bind (.runEach h) fun values hvalues => .pure (hitems values ?_ hvalues.2)
    simp [hvalues.1]

/-- The parts of a name put together. -/
lemma nameParts (parts : List Node) (h : ∀ x ∈ xs, W.Keeps s Post x) :
    W.Keeps s (fun _ => True) (Node.nameParts parts xs) := by
  induction xs generalizing parts with
  | nil => cases parts <;> exact .pure trivial
  | cons x rest ih =>
    obtain ⟨hx, hrest⟩ := List.forall_mem_cons.1 h
    cases parts with
    | nil => exact .pure trivial
    | cons part parts =>
      refine .bind (P := fun _ => True) ?_ fun text _ =>
        .bind (ih parts hrest) fun rest _ => .pure trivial
      unfold Node.namePart
      split
      · exact .pure trivial
      · exact .pure trivial
      · exact .bind hx fun value _ => .textOf value

/-- The evaluations of some nodes. -/
lemma evalEach {resolve : Resolver Observed} {nodes : List Node}
    (h : ∀ n ∈ nodes, W.Keeps s Post (Node.evalWith resolve n)) :
    ∀ x ∈ Node.evalEach resolve nodes, W.Keeps s Post x := by
  intro x hx
  rw [Node.evalEach_eq_map] at hx
  obtain ⟨n, hn, rfl⟩ := List.mem_map.1 hx
  exact h n hn

/-- The name of a declaration. -/
lemma propertyName {resolve : Resolver Observed} {name : PropertyName}
    (h : ∀ part ∈ name.parts, W.Keeps s Post (Node.evalWith resolve part)) :
    W.Keeps s (fun _ => True) (PropertyName.evalWith resolve name) := by
  cases name with
  | literal text =>
    rw [PropertyName.evalWith]
    exact .pure trivial
  | interpolated parts =>
    rw [PropertyName.evalWith]
    exact .nameParts parts (.evalEach h)

end Items

end Keeps

end Watch

end Cascade
