import Mathlib.Data.List.Forall2
import Cascade.Proofs.Evaluation.Correspondence

/-!
# Two evaluations in step

Two evaluations can be compared step by step even where their nodes, their scopes and their
results differ.  A `Simulation` says which tasks correspond to each other (a task is a node and the
scope it is evaluated in), and which results do.  `Simulation.Meets` relates two evaluations:
unless the first one stopped in a way that the comparison does not cover, the two go through the
same states of the query conditions, hand on the same marker, and end alike.

The rules of this module say how the relation passes through the operations of evaluation.
-/

namespace Cascade

/-- Two computations that end alike: with values that correspond to each other, or with the same
error, which is one that may occur. -/
inductive Alike {ε α β : Type} (Halts : ε → Prop) (Post : α → β → Prop) :
    Except ε α → Except ε β → Prop where
  | ok {a : α} {b : β} (h : Post a b) : Alike Halts Post (.ok a) (.ok b)
  | error {e : ε} (h : Halts e) : Alike Halts Post (.error e) (.error e)

namespace Alike

variable {ε α β γ δ : Type} {Halts : ε → Prop} {P : α → β → Prop} {Q : γ → δ → Prop}

/-- The same computation. -/
lemma self {P : α → α → Prop} {x : Except ε α} (hok : ∀ a, x = .ok a → P a a)
    (herror : ∀ e, x = .error e → Halts e) : Alike Halts P x x := by
  cases x with
  | ok a => exact .ok (hok a rfl)
  | error e => exact .error (herror e rfl)

/-- A change of the values at both ends. -/
lemma map {x : Except ε α} {y : Except ε β} {f : α → γ} {g : β → δ}
    (h : Alike Halts P x y) (hfg : ∀ a b, P a b → Q (f a) (g b)) :
    Alike Halts Q (x.map f) (y.map g) := by
  cases h with
  | ok h => exact .ok (hfg _ _ h)
  | error h => exact .error h

/-- A weaker expectation of the values. -/
lemma imp {P' : α → β → Prop} {x : Except ε α} {y : Except ε β} (h : Alike Halts P x y)
    (himp : ∀ a b, P a b → P' a b) : Alike Halts P' x y := by
  cases h with
  | ok h => exact .ok (himp _ _ h)
  | error h => exact .error h

/-- One computation after the other. -/
lemma bind {x : Except ε α} {y : Except ε β} {f : α → Except ε γ} {g : β → Except ε δ}
    (h : Alike Halts P x y) (hfg : ∀ a b, P a b → Alike Halts Q (f a) (g b)) :
    Alike Halts Q (x >>= f) (y >>= g) := by
  cases h with
  | ok h => exact hfg _ _ h
  | error h => exact .error h

end Alike

/-- What the comparison of two evaluations is about. -/
structure Simulation where
  /-- How the first evaluation may stop without anything being said about the second one. -/
  Lax : Halt → Prop
  /-- How both evaluations may stop otherwise. -/
  Halts : Halt → Prop
  /-- The nodes evaluated as parts of a tree, in their scopes. -/
  Task : Scope → Node → Scope → Node → Prop
  /-- The values of variables, in their scopes. -/
  Value : Scope → Node → Scope → Node → Prop
  /-- The nodes handed to a resolver for any other reason, in their scopes. -/
  Body : Scope → Node → Scope → Node → Prop
  /-- The results, given the states of the query conditions. -/
  Result : Queries → Node → Node → Prop
  /-- The states of the query conditions between two steps. -/
  States : Queries → Prop
  /-- How the states of the query conditions develop. -/
  Grows : Queries → Queries → Prop
  lax_of_failed : ∀ {error halt}, Lax (.failed error) → Lax halt
  halts_failed : ∀ {error}, (∀ name, error ≠ .recursiveVariable name) → Halts (.failed error)
  grows_refl : ∀ q, Grows q q
  grows_trans : ∀ {q₁ q₂ q₃}, Grows q₁ q₂ → Grows q₂ q₃ → Grows q₁ q₃
  result_mono : ∀ {q q' n n'}, Grows q q' → Result q n n' → Result q' n n'

namespace Simulation

variable (K : Simulation) {α β γ δ : Type} {s s' : Scope} {q : Queries}

/-- Two computations that end alike, as steps of an evaluation. -/
abbrev Ends (Post : α → β → Prop) : Except Error α → Except Error β → Prop :=
  Alike (fun error => K.Halts (.failed error)) Post

/-- Two outcomes that are alike. -/
structure Agree (Post : Queries → α → β → Prop) (q : Queries) (first : Outcome α)
    (second : Outcome β) : Prop where
  queries : second.queries = first.queries
  marker : second.marker = first.marker
  result : Alike K.Halts (Post first.queries) first.result second.result
  grows : K.Grows q first.queries
  states : K.States first.queries

/-- Two evaluations that start in the given scopes from the same states have outcomes that are
alike, unless the first one stopped in a way that is not covered. -/
def Meets (s s' : Scope) (Post : Queries → α → β → Prop) (x : Scoped α) (y : Scoped β)
    (q : Queries) : Prop :=
  K.States q → (∃ halt, (x s q).result = .error halt ∧ K.Lax halt) ∨
    K.Agree Post q (x s q) (y s' q)

variable {K} {P : Queries → α → β → Prop} {Q : Queries → γ → δ → Prop}

/-! ### Sequences of steps -/

/-- Two values. -/
lemma Meets.pure {a : α} {b : β} (h : P q a b) : K.Meets s s' P (pure a) (pure b) q :=
  fun hq => .inr ⟨rfl, rfl, .ok h, K.grows_refl q, hq⟩

/-- A stop. -/
lemma Meets.stop {halt : Halt} (h : K.Halts halt) :
    K.Meets s s' P (Evaluation.stop halt) (Evaluation.stop halt) q :=
  fun hq => .inr ⟨rfl, rfl, .error h, K.grows_refl q, hq⟩

/-- A failure that is not for recursion. -/
lemma Meets.fail {error : Error} (h : ∀ name, error ≠ .recursiveVariable name) :
    K.Meets s s' P (Evaluation.fail error) (Evaluation.fail error) q :=
  .stop (K.halts_failed h)

/-- Two computations. -/
lemma Meets.ofExcept {x : Except Error α} {y : Except Error β}
    (h : K.Ends (P q) x y) : K.Meets s s' P (Evaluation.ofExcept x) (Evaluation.ofExcept y) q := by
  cases h with
  | ok h => exact .pure h
  | error h => exact .stop h

/-- The first evaluation stops in a way that is not covered. -/
lemma Meets.of_lax {x : Scoped α} {y : Scoped β} {halt : Halt}
    (hx : (x s q).result = .error halt) (h : K.Lax halt) : K.Meets s s' P x y q :=
  fun _ => .inl ⟨halt, hx, h⟩

/-- The states at the start may be taken to be as expected. -/
lemma Meets.assuming {x : Scoped α} {y : Scoped β} (h : K.States q → K.Meets s s' P x y q) :
    K.Meets s s' P x y q :=
  fun hq => h hq hq

/-- A weaker expectation. -/
lemma Meets.imp {P' : Queries → α → β → Prop} {x : Scoped α} {y : Scoped β}
    (h : K.Meets s s' P x y q) (himp : ∀ q' a b, P q' a b → P' q' a b) :
    K.Meets s s' P' x y q := by
  intro hq
  rcases h hq with hlax | hagree
  · exact .inl hlax
  · exact .inr { hagree with result := hagree.result.imp (himp _) }

/-- One step after the other. -/
lemma Meets.bind {x : Scoped α} {y : Scoped β} {f : α → Scoped γ} {g : β → Scoped δ}
    (h : K.Meets s s' P x y q)
    (hf : ∀ a b q', K.Grows q q' → K.States q' → P q' a b → K.Meets s s' Q (f a) (g b) q') :
    K.Meets s s' Q (x >>= f) (y >>= g) q := by
  intro hq
  rw [Correspondence.bind_apply x f, Correspondence.bind_apply y g]
  rcases h hq with ⟨halt, hx, hlax⟩ | hagree
  · exact .inl ⟨halt, by simp [hx], hlax⟩
  have hresult := hagree.result
  rw [hagree.queries, hagree.marker]
  generalize hx : (x s q).result = first at hresult
  generalize (y s' q).result = second at hresult
  cases hresult with
  | error hhalts => exact .inr ⟨rfl, rfl, .error hhalts, hagree.grows, hagree.states⟩
  | ok hpost =>
    rcases hf _ _ _ hagree.grows hagree.states hpost hagree.states with ⟨halt, hfx, hlax⟩ | hnext
    · exact .inl ⟨halt, hfx, hlax⟩
    · refine .inr ⟨hnext.queries, ?_, hnext.result, K.grows_trans hagree.grows hnext.grows,
        hnext.states⟩
      simp only [hnext.marker]

/-- A step that looks at the scope. -/
lemma Meets.bind_scope {f : Scope → Scoped γ} {g : Scope → Scoped δ}
    (h : K.Meets s s' Q (f s) (g s') q) :
    K.Meets s s' Q (Evaluation.scope >>= f) (Evaluation.scope >>= g) q := by
  intro hq
  rw [Correspondence.scope_bind_apply, Correspondence.scope_bind_apply]
  exact h hq

/-- A look at the states of the query conditions. -/
lemma Meets.queries :
    K.Meets s s' (fun q' states states' => states = q' ∧ states' = q') Evaluation.queries
      Evaluation.queries q :=
  fun hq => .inr ⟨rfl, rfl, .ok ⟨rfl, rfl⟩, K.grows_refl q, hq⟩

/-- A change of the states of the query conditions. -/
lemma Meets.update {f g : Queries → Queries} {P : Queries → PUnit → PUnit → Prop}
    (h : K.States q → g q = f q ∧ K.Grows q (f q) ∧ K.States (f q) ∧ P (f q) ⟨⟩ ⟨⟩) :
    K.Meets s s' P (Evaluation.update f) (Evaluation.update g) q := by
  intro hq
  obtain ⟨hsame, hgrows, hstates, hpost⟩ := h hq
  exact .inr ⟨hsame, rfl, .ok hpost, hgrows, hstates⟩

/-- A marker handed on. -/
lemma Meets.announce (marker : String) :
    K.Meets s s' (fun _ _ _ => True) (Evaluation.announce marker) (Evaluation.announce marker)
      q := by
  unfold Evaluation.announce
  split
  · exact .pure trivial
  · exact fun hq => .inr ⟨rfl, rfl, .ok trivial, K.grows_refl q, hq⟩

/-- Markers kept from the declaration around. -/
lemma Meets.capture {x : Scoped α} {y : Scoped β} (h : K.Meets s s' P x y q) :
    K.Meets s s' (fun q' r r' => P q' r.1 r'.1 ∧ r'.2 = r.2) (Evaluation.capture x)
      (Evaluation.capture y) q := by
  intro hq
  have hx : ∀ {ε : Type} (z : Scoped ε) (s : Scope),
      Evaluation.capture z s q = Eval.capture (z s) q := fun _ _ => rfl
  simp only [hx, Eval.capture]
  rcases h hq with ⟨halt, hresult, hlax⟩ | hagree
  · exact .inl ⟨halt, by simp [hresult], hlax⟩
  have hresult := hagree.result
  rw [hagree.queries, hagree.marker]
  generalize (x s q).result = first at hresult
  generalize (y s' q).result = second at hresult
  cases hresult with
  | error hhalts => exact .inr ⟨rfl, rfl, .error hhalts, hagree.grows, hagree.states⟩
  | ok hpost => exact .inr ⟨rfl, rfl, .ok ⟨hpost, rfl⟩, hagree.grows, hagree.states⟩

/-! ### Parts in other scopes -/

section Scopes

variable {x : Scoped α} {y : Scoped β}

/-- In parentheses. -/
lemma Meets.inParens (h : K.Meets s.enterParens s'.enterParens P x y q) :
    K.Meets s s' P (Evaluation.inParens x) (Evaluation.inParens y) q :=
  h

/-- In the arguments of a call. -/
lemma Meets.inCall {asCalc : Bool}
    (h : K.Meets (s.enterCall asCalc) (s'.enterCall asCalc) P x y q) :
    K.Meets s s' P (Evaluation.inCall asCalc x) (Evaluation.inCall asCalc y) q :=
  h

/-- Under rules for arithmetic. -/
lemma Meets.inMath {math math' : MathMode}
    (h : K.Meets (s.setMath math) (s'.setMath math') P x y q) :
    K.Meets s s' P (Evaluation.inMath math x) (Evaluation.inMath math' y) q :=
  h

/-- Inside selectors. -/
lemma Meets.inSelectors {selectors selectors' : List String}
    (h : K.Meets (s.setSelectors selectors) (s'.setSelectors selectors') P x y q) :
    K.Meets s s' P (Evaluation.inSelectors selectors x) (Evaluation.inSelectors selectors' y) q :=
  h

/-- With one more frame. -/
lemma Meets.inFrame {frame frame' : Frame}
    (h : K.Meets (s.pushFrame frame) (s'.pushFrame frame') P x y q) :
    K.Meets s s' P (Evaluation.inFrame frame x) (Evaluation.inFrame frame' y) q :=
  h

/-- In other frames. -/
lemma Meets.inFrames {frames frames' : List Frame}
    (h : K.Meets (s.setFrames frames) (s'.setFrames frames') P x y q) :
    K.Meets s s' P (Evaluation.inFrames frames x) (Evaluation.inFrames frames' y) q :=
  h

/-- While a variable is being resolved. -/
lemma Meets.inVariable {name : String}
    (h : K.Meets (s.enterVariable name) (s'.enterVariable name) P x y q) :
    K.Meets s s' P (Evaluation.inVariable name x) (Evaluation.inVariable name y) q :=
  h

/-- In changed surroundings. -/
lemma Meets.inSurroundings {change change' : Surroundings → Surroundings}
    (h : K.Meets (s.changeSurroundings change) (s'.changeSurroundings change') P x y q) :
    K.Meets s s' P (Evaluation.inSurroundings change x) (Evaluation.inSurroundings change' y) q :=
  h

end Scopes

/-! ### Lists of evaluations -/

/-- Evaluations one after the other. -/
lemma Meets.runEach {xs : List (Scoped α)} {ys : List (Scoped β)}
    (hmono : ∀ q q' a b, K.Grows q q' → P q a b → P q' a b)
    (h : List.Forall₂ (fun x y => ∀ q, K.Meets s s' P x y q) xs ys) (q : Queries) :
    K.Meets s s' (fun q' => List.Forall₂ (P q')) (Evaluation.runEach xs) (Evaluation.runEach ys)
      q := by
  induction h generalizing q with
  | nil => exact .pure .nil
  | cons hxy _ ih =>
    refine .bind (hxy q) fun a b q₁ _ _ hab => .bind (ih q₁) fun as bs q₂ hgrows _ hrest => .pure ?_
    exact .cons (hmono _ _ a b hgrows hab) hrest

/-! ### Evaluations whose errors are kept until all have run

When one of several evaluations fails in a way that is not covered, the others still run, but
the whole fails in the end. -/

/-- The error of an evaluation as a value: the evaluation stopped or failed in a way that is not
covered, or both agree. -/
lemma Meets.attempt {x : Scoped α} {y : Scoped β} (h : K.Meets s s' P x y q) (hq : K.States q) :
    (∃ halt, (Evaluation.attempt x s q).result = .error halt ∧ K.Lax halt) ∨
      (∃ error, (Evaluation.attempt x s q).result = .ok (.error error) ∧ K.Lax (.failed error)) ∨
      K.Agree (fun q' => K.Ends (P q')) q (Evaluation.attempt x s q)
        (Evaluation.attempt y s' q) := by
  have happly : ∀ {ε : Type} (z : Scoped ε) (s : Scope),
      Evaluation.attempt z s q = Eval.attempt (z s) q := fun _ _ => rfl
  simp only [happly, Eval.attempt]
  rcases h hq with ⟨halt, hx, hlax⟩ | hagree
  · rw [hx]
    cases halt with
    | failed error => exact .inr (.inl ⟨error, rfl, hlax⟩)
    | exhausted => exact .inl ⟨.exhausted, rfl, hlax⟩
  have hresult := hagree.result
  rw [hagree.queries, hagree.marker]
  generalize (x s q).result = first at hresult
  generalize (y s' q).result = second at hresult
  refine .inr (.inr ?_)
  cases hresult with
  | ok hpost => exact ⟨rfl, rfl, .ok (.ok hpost), hagree.grows, hagree.states⟩
  | @error halt hhalts =>
    cases halt with
    | failed error => exact ⟨rfl, rfl, .ok (.error hhalts), hagree.grows, hagree.states⟩
    | exhausted => exact ⟨rfl, rfl, .error hhalts, hagree.grows, hagree.states⟩

/-- A step that goes on with what an evaluation gives, also with its error.  After an error that is
not covered it ends with one. -/
lemma Meets.bind_attempt {x : Scoped α} {y : Scoped β} {f : Except Error α → Scoped γ}
    {g : Except Error β → Scoped δ} (h : K.Meets s s' P x y q)
    (hf : ∀ a b q', K.Grows q q' → K.States q' → K.Ends (P q') a b → K.Meets s s' Q (f a) (g b) q')
    (hfails : ∀ error q', K.Lax (.failed error) →
      ∃ halt, (f (.error error) s q').result = .error halt) :
    K.Meets s s' Q (Evaluation.attempt x >>= f) (Evaluation.attempt y >>= g) q := by
  intro hq
  rcases h.attempt hq with ⟨halt, hx, hlax⟩ | ⟨error, hx, hlax⟩ | hagree
  · exact .inl ⟨halt, by simp [Correspondence.bind_apply, hx], hlax⟩
  · obtain ⟨halt, hhalt⟩ := hfails error (Evaluation.attempt x s q).queries hlax
    exact .inl ⟨halt, by simpa [Correspondence.bind_apply, hx] using hhalt, K.lax_of_failed hlax⟩
  · have hattempt : K.Meets s s' (fun q' => K.Ends (P q')) (Evaluation.attempt x)
        (Evaluation.attempt y) q := fun _ => .inr hagree
    exact hattempt.bind hf hq

/-- The results of evaluations whose errors are kept: one stopped or failed in a way that is not
covered, or all agree. -/
lemma Meets.attemptAll {xs : List (Scoped α)} {ys : List (Scoped β)}
    (hmono : ∀ q q' a b, K.Grows q q' → P q a b → P q' a b)
    (h : List.Forall₂ (fun x y => ∀ q, K.Meets s s' P x y q) xs ys) (hq : K.States q) :
    (∃ halt, (Evaluation.runEach (xs.map Evaluation.attempt) s q).result = .error halt ∧
        K.Lax halt) ∨
      (∃ results error, (Evaluation.runEach (xs.map Evaluation.attempt) s q).result =
        .ok results ∧ .error error ∈ results ∧ K.Lax (.failed error)) ∨
      K.Agree (fun q' => List.Forall₂ (K.Ends (P q'))) q
        (Evaluation.runEach (xs.map Evaluation.attempt) s q)
        (Evaluation.runEach (ys.map Evaluation.attempt) s' q) := by
  induction h generalizing q with
  | nil => exact .inr (.inr ⟨rfl, rfl, .ok .nil, K.grows_refl q, hq⟩)
  | @cons x y xs ys hxy _ ih =>
    simp only [List.map_cons, Correspondence.runEach_cons_apply]
    rcases (hxy q).attempt hq with ⟨halt, hx, hlax⟩ | ⟨error, hx, hlax⟩ | hagree
    · exact .inl ⟨halt, by simp [hx], hlax⟩
    · rw [hx]
      -- the rest still runs, but however it ends, this error is not covered
      cases hrest : (Evaluation.runEach (xs.map Evaluation.attempt) s
          (Evaluation.attempt x s q).queries).result with
      | error halt => exact .inl ⟨halt, by simp [Except.map], K.lax_of_failed hlax⟩
      | ok results =>
        exact .inr (.inl ⟨.error error :: results, error, rfl, List.mem_cons_self, hlax⟩)
    · have hresult := hagree.result
      rw [hagree.queries, hagree.marker]
      generalize hx : (Evaluation.attempt x s q).result = first at hresult
      generalize (Evaluation.attempt y s' q).result = second at hresult
      cases hresult with
      | error hhalts => exact .inr (.inr ⟨rfl, rfl, .error hhalts, hagree.grows, hagree.states⟩)
      | @ok r r' hkept =>
        rcases ih hagree.states with ⟨halt, hrest, hlax⟩ | ⟨results, error, hrest, hmem, hlax⟩ |
          hrest
        · exact .inl ⟨halt, by simp [hrest, Except.map], hlax⟩
        · exact .inr (.inl ⟨r :: results, error, by simp [hrest, Except.map],
            List.mem_cons_of_mem r hmem, hlax⟩)
        · refine .inr (.inr ⟨hrest.queries, by simp only [hrest.marker], hrest.result.map ?_,
            K.grows_trans hagree.grows hrest.grows, hrest.states⟩)
          exact fun _ _ hothers => .cons (hkept.imp fun a b => hmono _ _ a b hrest.grows) hothers

/-- The first error among kept results, if there is one, is the same. -/
lemma ends_mapM {R : α → β → Prop} {results : List (Except Error α)}
    {results' : List (Except Error β)} (h : List.Forall₂ (K.Ends R) results results') :
    K.Ends (List.Forall₂ R) (results.mapM id) (results'.mapM id) := by
  induction h with
  | nil => exact .ok .nil
  | cons hkept _ ih =>
    rw [List.mapM_cons, List.mapM_cons]
    exact hkept.bind fun _ _ hab => ih.bind fun _ _ hrest => .ok (.cons hab hrest)

/-- Several evaluations all of which run; the first error, if there is one, counts. -/
lemma Meets.runAll {xs : List (Scoped α)} {ys : List (Scoped β)}
    (hmono : ∀ q q' a b, K.Grows q q' → P q a b → P q' a b)
    (h : List.Forall₂ (fun x y => ∀ q, K.Meets s s' P x y q) xs ys) :
    K.Meets s s' (fun q' => List.Forall₂ (P q')) (Evaluation.runAll xs) (Evaluation.runAll ys)
      q := by
  intro hq
  unfold Evaluation.runAll
  rcases Meets.attemptAll hmono h hq with ⟨halt, hx, hlax⟩ | ⟨results, error, hx, hmem, hlax⟩ |
    hagree
  · exact .inl ⟨halt, by simp [Correspondence.bind_apply, hx], hlax⟩
  · -- an error among the results makes the whole fail
    rw [Correspondence.bind_apply, hx]
    cases hresults : results.mapM id with
    | error error' =>
      refine .inl ⟨.failed error', ?_, K.lax_of_failed hlax⟩
      simp only [hresults]
      rfl
    | ok as =>
      rw [except_mapM_id_eq_ok_iff.1 hresults] at hmem
      simp at hmem
  · have hall : K.Meets s s' (fun q' => List.Forall₂ (K.Ends (P q')))
        (Evaluation.runEach (xs.map Evaluation.attempt))
        (Evaluation.runEach (ys.map Evaluation.attempt)) q := fun _ => .inr hagree
    exact hall.bind (fun _ _ _ _ _ hkept => .ofExcept (ends_mapM hkept)) hq

end Simulation

end Cascade
