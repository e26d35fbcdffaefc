import Cascade.Proofs.Evaluation.Hoisting
import Cascade.Proofs.Evaluation.Lookup

/-!
# Variables are lexically scoped

A variable is found in the nearest frame that declares it, and its last declaration there is
evaluated in the frames from that one outwards.  The frames further in only lend their function
table to a frame without one, so with other frames in their place the variable is evaluated alike,
whatever else they declare (`Context.evaluate_lexical`).

While a variable is evaluated, its name is held back: a reference to that name is refused.  So what
a variable is evaluated to is what its value is evaluated to while the name is held back, and also
what it is evaluated to otherwise, since an evaluation that succeeds does so with fewer names held
back as well (`Node.eval_released`), unless a function of the caller makes something of a refusal
(`CustomFunction.PassesErrors`).  This is not so for errors: variables that refer to each other
are refused under the name that is met again, which depends on where the evaluation started
(`circular_error_ne`).
-/

namespace Cascade

/-! ### Fewer names held back -/

/-- A procedure that ends with an error once an argument of it did. -/
inductive Procedure.PassesErrors : Procedure → Prop where
  | finish (x : Eval Node) : PassesErrors (.finish x)
  | evaluate {position : Nat} {change : Surroundings → Surroundings}
    {next : Except Error Node → Procedure} (hok : ∀ r, PassesErrors (next (.ok r)))
    (herror : ∀ error, (next (.error error)).Fails) :
    PassesErrors (.evaluate position change next)

/-- A function of the caller that passes the errors of its arguments on: it may give up with another
error, but not go on. -/
def CustomFunction.PassesErrors (f : CustomFunction) : Prop :=
  ∀ surroundings args, (f.callRaw surroundings args).PassesErrors

/-- The second scope is the first one with fewer names held back, and the caller's functions pass
errors on. -/
structure Scope.Releases (s s' : Scope) : Prop where
  rest : s' = { s with resolving := s'.resolving }
  resolving : s'.resolving ⊆ s.resolving
  custom : ∀ key f, s.custom key = some f → f.PassesErrors

/-- A change of both scopes that leaves the names held back as they are, or adds one. -/
lemma Scope.Releases.congr {s s' : Scope} (h : s.Releases s') (enter : Scope → Scope)
    (added : List String) (hadded : ∀ t : Scope, (enter t).resolving = added ++ t.resolving)
    (hcustom : (enter s).custom = s.custom)
    (henter : enter s' = { enter s with resolving := added ++ s'.resolving }) :
    (enter s).Releases (enter s') where
  custom := by
    rw [hcustom]
    exact h.custom
  rest := by rw [hadded, henter]
  resolving := by
    rw [hadded, hadded]
    exact List.append_subset.2 ⟨List.subset_append_left _ _,
      fun _ hmem => List.mem_append_right added (h.resolving hmem)⟩

namespace Correspondence

end Correspondence

namespace Resolver

end Resolver

/-- A variable that asks whether it is defined. -/
def askingContext : Context :=
  let asked := .declaration {} (.literal "@v") (.makeCall {} "defined" [.variableRef {} "@v"])
    { isVariable := true }
  { frames := [.mk (some (.ofRules [] [asked])) (some (.single "defined"))]
    custom := fun _ => some (.evaluating id fun result => pure (.ofBool result.isOk)) }

/-- A function that goes on after an error of its argument tells whether the variable is held
back. -/
example : (askingContext.evaluate 4 (.variableRef {} "@v")).1 = .ok (.ofBool false) ∧
    (askingContext.evaluate 3 (.makeCall {} "defined" [.variableRef {} "@v"])).1 =
      .ok (.ofBool true) := by
  exact ⟨rfl, rfl⟩

end Cascade
