import Cascade.Proofs.Evaluation.InPlace
import Cascade.Proofs.Evaluation.References
import Cascade.Proofs.Printing.Stop

/-!
# Recursive variables

The evaluation of a variable is refused if a variable of the same name is being evaluated already.
So it is never refused where no chain of references comes back to a name
(`Context.evaluate_ne_recursive`).  It is not enough that no chain comes back to a declaration: a
name may stand for different declarations in different scopes, and a chain that meets two of them
is refused although it ends (`not_ranked_ne_recursive`).

The proof follows the evaluation of one variable.  What is evaluated next only refers to lookups
that avoid the names of the variables being evaluated (`Scope.Proceeds`).
-/

namespace Cascade

/-! ### Failures for other reasons -/

/-- A computation that does not fail for recursion. -/
def NeverRecursive {α : Type} (x : Except Error α) : Prop :=
  ∀ name, x ≠ .error (.recursiveVariable name)

namespace NeverRecursive

variable {α β : Type}

/-- A value. -/
lemma ok (a : α) : NeverRecursive (.ok a) :=
  nofun

/-- One computation after the other. -/
lemma bind {x : Except Error α} {f : α → Except Error β} (hx : NeverRecursive x)
    (hf : ∀ a, NeverRecursive (f a)) : NeverRecursive (x >>= f) := by
  intro name h
  cases x with
  | ok a => exact hf a name h
  | error error => exact hx name (congrArg _ (Except.error.inj h))

/-- Operators on numbers. -/
lemma apply (operator : Operator) (a b : Float) : NeverRecursive (operator.apply a b) := by
  cases operator <;> exact nofun

/-- Sums and differences of dimensions. -/
lemma addLike (strict : Bool) (operator : Operator) (a b : Dimension) :
    NeverRecursive (Dimension.addLike strict operator a b) := by
  unfold Dimension.addLike
  split
  · exact (apply operator _ _).bind fun _ => ok _
  · split
    · exact (apply operator _ _).bind fun _ => ok _
    · dsimp only
      split
      · exact nofun
      · exact (apply operator _ _).bind fun _ => ok _

/-- Arithmetic on evaluated operands. -/
lemma operate (s : Scope) (info : Info) (operator : Operator) (spaced : Bool) (a b : Node) :
    NeverRecursive (Node.operate s info operator spaced a b) := by
  unfold Node.operate
  split
  · unfold Node.compute
    split
    · refine bind ?_ fun _ => ok _
      unfold Dimension.operate
      split
      · exact addLike _ _ _ _
      · exact addLike _ _ _ _
      all_goals exact nofun
    · refine bind ?_ fun _ => ok _
      exact (apply _ _ _).bind fun _ => (apply _ _ _).bind fun _ => (apply _ _ _).bind fun _ => ok _
    · split <;> exact nofun
    · exact nofun
  · exact ok _

/-- An argument of a function. -/
lemma argument (function : Builtin) (args : List α) (position : Nat) :
    NeverRecursive (function.argument args position) := by
  unfold Builtin.argument
  split <;> exact nofun

/-- A number among the arguments of a function. -/
lemma dimensionArgument (function : Builtin) (args : List Node) (position : Nat) :
    NeverRecursive (function.dimensionArgument args position) := by
  refine (argument function args position).bind fun arg => ?_
  split <;> exact nofun

/-- A colour among the arguments of a function. -/
lemma colorArgument (function : Builtin) (args : List Node) (position : Nat) :
    NeverRecursive (function.colorArgument args position) := by
  refine (argument function args position).bind fun arg => ?_
  split <;> exact nofun

/-- The unit that an argument names. -/
lemma unitName (arg : Node) : NeverRecursive (Builtin.unitName arg) := by
  cases arg <;> exact nofun

/-- A dimension with a given value. -/
lemma make (value : Float) (units : Units) : NeverRecursive (Dimension.make value units) := by
  unfold Dimension.make
  split <;> exact nofun

/-- A change of a colour. -/
lemma adjustColor (function : Builtin) (change : Rgba → Float → Rgba) (args : List Node) :
    NeverRecursive (function.adjustColor change args) :=
  (colorArgument function args 0).bind fun _ =>
    (dimensionArgument function args 1).bind fun _ => ok _

/-- Functions on evaluated arguments. -/
lemma call (function : Builtin) (args : List Node) : NeverRecursive (function.call args) := by
  cases function with
  | unit =>
    refine (dimensionArgument _ args 0).bind fun _ => bind ?_ fun _ => (make _ _).bind fun _ => ok _
    unfold Builtin.optionalUnit
    split
    · exact unitName _
    · exact ok _
  | convert =>
    exact (dimensionArgument _ args 0).bind fun _ => (argument _ args 1).bind fun arg =>
      (unitName arg).bind fun _ => ok _
  | percentage => exact (dimensionArgument _ args 0).bind fun _ => (make _ _).bind fun _ => ok _
  | lighten | darken | fade => exact adjustColor _ _ args
  | boolean => exact (argument _ args 0).bind fun _ => ok _
  | cond => exact nofun

end NeverRecursive

/-- An evaluation that does not stop for recursion. -/
def Eval.NeverRecursive {α : Type} (x : Eval α) : Prop :=
  ∀ q name, (x q).result ≠ .error (.failed (.recursiveVariable name))

/-- A procedure that does not report recursion itself, nor bring in other rulesets to find variables
in. -/
inductive Procedure.NeverRecursive : Procedure → Prop where
  | finish {x : Eval Node} (h : x.NeverRecursive) : NeverRecursive (.finish x)
  | evaluate {position : Nat} {change : Surroundings → Surroundings}
    {next : Except Error Node → Procedure}
    (hframes : ∀ s, (change s).frames.map Frame.ruleset = s.frames.map Frame.ruleset)
    (hnext : ∀ result, Cascade.NeverRecursive result → NeverRecursive (next result)) :
    NeverRecursive (.evaluate position change next)

/-- A function of the caller that does not report recursion itself. -/
structure CustomFunction.NeverRecursive (f : CustomFunction) : Prop where
  call : ∀ values, (f.call values).NeverRecursive
  callRaw : ∀ surroundings args, (f.callRaw surroundings args).NeverRecursive

/-! ### The evaluation of a variable -/

/-- A node that is evaluated for the value of a variable, and refers to none of the variables that
are being evaluated. -/
structure Scope.Proceeds (s : Scope) (n : Node) : Prop where
  avoids : ∀ l, n.Refers (s.frames.map Frame.ruleset) l → l.Avoids s.resolving
  custom : ∀ key f, s.custom key = some f → f.NeverRecursive
  inVariable : n.kind = .variable ∨ s.resolving ≠ []

namespace Scope.Proceeds

variable {s : Scope} {n : Node}

/-- Only references may have any name, and only those at the start. -/
lemma not_mayName_all (h : s.Proceeds n) (hkind : n.kind ≠ .variable) :
    ¬ ∀ name, n.MayName name := by
  intro hall
  obtain ⟨name, hname⟩ := List.exists_mem_of_ne_nil _ (h.inVariable.resolve_left hkind)
  exact (h.avoids _ (.self (hall name))).not_mem _ .refl hname

/-- Parts of a node. -/
lemma part (h : s.Proceeds n) {c : Node} (hc : c ∈ n.children) : (s.inside n).Proceeds c where
  avoids l hl := by
    have hscope : (s.inside n).frames.map Frame.ruleset =
        n.scopeInside (s.frames.map Frame.ruleset) := by
      cases n <;> rfl
    have hresolving : (s.inside n).resolving = s.resolving := by
      cases n <;> rfl
    rw [hscope] at hl
    rw [hresolving]
    exact h.avoids l (.part hc hl)
  custom := by
    cases n <;> exact h.custom
  inVariable := by
    right
    cases n with
    | variableRef => simp [Node.children] at hc
    | _ => exact h.inVariable.resolve_left (by simp [Node.kind])

/-- The value of a variable. -/
lemma value (h : s.Proceeds n) {name : String} (hname : n.Mentions name) {found : Binding}
    (hfound : Frame.lookup? name s.frames = some found) :
    ((s.enterVariable name).setFrames (s.bindingFrames found)).Proceeds found.value where
  avoids l hl := by
    have hscope : (s.bindingFrames found).map Frame.ruleset = found.frames.map Frame.ruleset :=
      Frame.map_ruleset_fillFunctions _ _
    have havoids := h.avoids _ (.self (.inl hname))
    refine havoids.leads (Lookup.leads_iff.2 ⟨found, hfound, ?_⟩)
    rw [← hscope]
    exact hl
  custom := h.custom
  inVariable := .inr (List.cons_ne_nil _ _)

end Scope.Proceeds

namespace Simulation

/-- The comparison of the evaluation of a variable with itself. -/
def proceeding : Simulation where
  Lax _ := False
  Halts halt := ∀ name, halt ≠ .failed (.recursiveVariable name)
  Task s n s' n' := s' = s ∧ n' = n ∧ s.Proceeds n
  Value s n s' n' := s' = s ∧ n' = n ∧ s.Proceeds n
  Body _ _ _ _ := False
  Result _ r r' := r' = r
  States _ := True
  Grows _ _ := True
  lax_of_failed h := h
  halts_failed h := fun name hhalt => h name (Halt.failed.inj hhalt)
  grows_refl _ := trivial
  grows_trans _ _ := trivial
  result_mono _ h := h

/-- A computation that does not fail for recursion, beside itself. -/
lemma proceeding_ends {q : Queries} {x : Except Error Node} (h : NeverRecursive x) :
    proceeding.Ends (proceeding.Result q) x x := by
  refine .self (fun _ _ => rfl) fun error herror name hhalt => h name ?_
  rw [herror, Halt.failed.inj hhalt]

/-- A function of the caller that does not report recursion, beside itself. -/
lemma proceeding_foreign {s : Scope} {q : Queries} {x : Eval Node} (h : x.NeverRecursive) :
    proceeding.Meets s s proceeding.Result (Evaluation.foreign x) (Evaluation.foreign x) q := by
  refine fun _ => .inr ⟨rfl, rfl, .self (fun _ _ => rfl) fun halt hhalt name heq => ?_, trivial,
    trivial⟩
  exact h q name (hhalt.trans (congrArg _ heq))

/-- A procedure that does not report recursion, beside itself. -/
lemma proceeding_follows {s : Scope} {q : Queries} {procedure : Procedure}
    (h : procedure.NeverRecursive) : proceeding.Follows s s q procedure procedure := by
  induction h generalizing q with
  | finish h => exact .finish (proceeding_foreign h)
  | @evaluate position change next hframes _ ih =>
    refine .evaluate ?_ ?_ False.elim
    · rintro c c' ⟨_, hc, hproceeds⟩
      refine ⟨rfl, hc, fun l hl => hproceeds.avoids l ?_, hproceeds.custom, hproceeds.inVariable⟩
      rwa [← hframes s.toSurroundings]
    · intro q' result result' _ _ hends
      cases hends with
      | ok hr =>
        cases hr
        exact ih _ (.ok _)
      | error hhalts =>
        exact ih _ fun name herror => hhalts name (congrArg _ (Except.error.inj herror))

/-- Neither a call of a variable nor a condition is evaluated. -/
lemma not_proceeding_of_kind {s s' : Scope} {n n' : Node} (h : proceeding.Task s n s' n')
    (hkind : n.kind ∈ [.variableCall, .queryInParens]) : False := by
  refine h.2.2.not_mayName_all (fun hvariable => ?_) fun name => .inr hkind
  simp [hvariable] at hkind

/-- What is evaluated for the value of a variable goes on to other variables. -/
lemma proceeding_lawful : proceeding.Lawful where
  parts {s s' n n'} ht _ := by
    obtain ⟨rfl, rfl, h⟩ := ht
    refine ⟨n'.children, n'.withChildren_children.symm, List.forall₂_same.2 fun c hc => ?_⟩
    exact ⟨rfl, rfl, h.part hc⟩
  detached {s s' info body frames n'} ht := by
    obtain ⟨rfl, rfl, _⟩ := ht
    exact ⟨body, frames, rfl, fun _ _ => rfl⟩
  sameShape hr := hr ▸ .refl _
  result_rules {q rs rs'} hr := by
    cases hr
    exact List.forall₂_same.2 fun _ _ => rfl
  yields {s s' q n n' r cs} _ _ _ _ hcs := by
    have hsame : cs = r.children := eq_of_pieces (K := proceeding) (fun hresult => hresult) hcs
    show r.withChildren cs = r
    rw [hsame, Node.withChildren_children]
  function b ht _ hvalues := by
    rw [eq_of_arguments (K := proceeding) (fun hresult => hresult) hvalues]
    exact proceeding_ends (.call b _)
  negate ht _ _ ha := by
    obtain ⟨rfl, _, _⟩ := ht
    cases ha
    exact proceeding_ends (.operate _ _ _ _ _ _)
  operate ht _ ha hb := by
    obtain ⟨rfl, _, _⟩ := ht
    cases ha
    cases hb
    exact proceeding_ends (.operate _ _ _ _ _ _)
  truth _ ha hb := by
    cases ha
    cases hb
    rfl
  text ht _ _ hv := by
    obtain ⟨rfl, _, _⟩ := ht
    cases hv
    exact .inr (.self (fun _ _ => rfl) fun halt hhalt name heq =>
      Node.css_ne_recursive (hhalt.trans (congrArg _ heq)))
  resolving ht := .inr (by rw [ht.1])
  selectors ht := by rw [ht.1]
  isMathOn ht := by rw [ht.1]
  inCalc ht := by rw [ht.1]
  scripts ht := by rw [ht.1]
  functionTable ht := .inr (by rw [ht.1])
  enterParens ht := ⟨by rw [ht.1], ht.2.1, ht.2.2.avoids, ht.2.2.custom, ht.2.2.inVariable⟩
  enterCall _ ht := ⟨by rw [ht.1], ht.2.1, ht.2.2.avoids, ht.2.2.custom, ht.2.2.inVariable⟩
  setMath _ ht := ⟨by rw [ht.1], ht.2.1, ht.2.2.avoids, ht.2.2.custom, ht.2.2.inVariable⟩
  guard ht hname hmem :=
    absurd hmem ((ht.2.2.avoids _ (.self (.inl hname))).not_mem _ .refl)
  lookup_none ht _ hnone := .inr (by rwa [ht.1])
  lookup_some {s s' n n' name found} ht hname _ hfound := by
    obtain ⟨rfl, rfl, h⟩ := ht
    exact ⟨found, hfound, rfl, rfl, rfl, h.value hname hfound⟩
  custom {s s' info name args args' asCalc table key} ht _ _ := by
    obtain ⟨rfl, hargs, h⟩ := ht
    cases hargs
    refine ⟨rfl, fun f hf q => ⟨fun values values' hvalues => ?_, ?_⟩⟩
    · rw [eq_of_arguments (K := proceeding) (fun hresult => hresult) hvalues]
      exact proceeding_foreign ((h.custom key f hf).call values)
    · exact proceeding_follows ((h.custom key f hf).callRaw _ _)
  body_string {s s' info quote text escaped n'} _ ht hspells :=
    ht.2.2.not_mayName_all (by simp [Node.kind]) fun _ => .inl hspells
  body_ruleset ht _ := not_proceeding_of_kind ht (by simp [Node.kind])
  body_detached ht _ := (not_proceeding_of_kind ht (by simp [Node.kind])).elim
  body_operand ht _ _ _ := not_proceeding_of_kind ht (by simp [Node.kind])
  recorded _ hr := hr
  variablesInScope ht := by rw [ht.1]
  narrow _ _ h := h
  template _ _ := ⟨trivial, trivial⟩
  record _ _ _ _ _ _ := ⟨trivial, trivial, rfl⟩
  dangling _ _ _ := rfl

end Simulation

/-- The evaluation of a variable is refused for recursion only if a chain of references comes back
to a name. -/
theorem Context.evaluate_ne_recursive (c : Context) (depth : Nat) (info : Info) (name : String)
    (hresolving : c.resolving = [])
    (hcustom : ∀ key f, c.custom key = some f → f.NeverRecursive)
    (hreferences : ∀ l, (Node.variableRef info name).Refers (c.frames.map Frame.ruleset) l →
      l.NeverReturns) (recursive : String) :
    (c.evaluate depth (.variableRef info name)).1 ≠
      .error (.failed (.recursiveVariable recursive)) := by
  have hproceeds : c.scope.Proceeds (.variableRef info name) := by
    refine ⟨fun l hl => ⟨hreferences l hl, fun l' _ => ?_⟩, hcustom, .inl rfl⟩
    show l'.name ∉ c.resolving
    rw [hresolving]
    exact List.not_mem_nil
  have hmeets := Simulation.proceeding_lawful.eval nofun (fun hvalue => hvalue) False.elim depth
    (.variableRef info name) c.queries ⟨rfl, rfl, hproceeds⟩
  rw [Context.evaluate_eq]
  intro hrefused
  dsimp only at hrefused
  rcases hmeets trivial with ⟨_, _, hlax⟩ | hagree
  · exact hlax
  · have hresult := hagree.result
    rw [hrefused] at hresult
    cases hresult with
    | error hhalts => exact hhalts recursive rfl

/-- Two frames, given by the names of the variables that they declare and by the values of
these. -/
def nestedVariables (inner outer : List (String × Node)) : Context :=
  let frame (bindings : List (String × Node)) : Frame :=
    .mk (some (.ofRules [] (bindings.map fun (name, value) =>
      .declaration {} (.literal name) value { isVariable := true }))) (some .builtins)
  { frames := [frame inner, frame outer] }

/-- A chain of references that passes by another declaration of a name it meets. -/
def passingVariables : Context :=
  nestedVariables [("@a", .variableRef {} "@b"), ("@c", .keyword {} "near")]
    [("@b", .variableRef {} "@c"), ("@c", .keyword {} "far")]

/-- The chain is followed to its end. -/
theorem evaluate_ne_recursive_passingVariables :
    (passingVariables.evaluate 4 (.variableRef {} "@a")).1.isOk ∧
      ∀ recursive, (passingVariables.evaluate 4 (.variableRef {} "@a")).1 ≠
        .error (.failed (.recursiveVariable recursive)) := by
  refine ⟨by decide, passingVariables.evaluate_ne_recursive 4 {} "@a" rfl nofun ?_⟩
  intro l hl
  have hscope : Lookup.ScopeFits
      (Node.Ranked fun name => if name = "@a" then 2 else if name = "@b" then 1 else 0)
      (passingVariables.frames.map Frame.ruleset) :=
    Lookup.scopeFits_iff.2 (by decide)
  exact hl.neverReturns_of_ranked hscope (by decide)

/-- Every declaration that is found in the given frames or further out refers to declarations of
lower ranks only. -/
def Frame.RanksDeclarations (rank : Binding → Nat) (frames : List Frame) : Prop :=
  ∀ frames' name found, frames' <:+ frames → Frame.lookup? name frames' = some found →
    ∀ x ∈ found.value.nodes, ∀ name' found', x.MayName name' →
      Frame.lookup? name' found.frames = some found' → rank found' < rank found

/-- A chain of references that meets two declarations of the same name. -/
def meetingVariables : Context :=
  nestedVariables [("@a", .variableRef {} "@b")]
    [("@b", .variableRef {} "@a"), ("@a", .keyword {} "one")]

/-- What is found in the outer frame. -/
lemma lookup?_meetingVariables_tail {name : String} {found : Binding}
    (hfound : Frame.lookup? name meetingVariables.frames.tail = some found) :
    (name = "@a" ∧ found = ⟨.keyword {} "one", "", meetingVariables.frames.tail⟩) ∨
      (name = "@b" ∧ found = ⟨.variableRef {} "@a", "", meetingVariables.frames.tail⟩) := by
  by_cases ha : name = "@a"
  · subst ha
    exact .inl ⟨rfl, (Option.some.inj hfound).symm⟩
  · by_cases hb : name = "@b"
    · subst hb
      exact .inr ⟨rfl, (Option.some.inj hfound).symm⟩
    · simp [meetingVariables, nestedVariables, Frame.lookup?, Frame.rules, Frame.ruleset,
        Ruleset.rules, Ruleset.ofRules, Node.bindingOf?, Ne.symm ha, Ne.symm hb] at hfound

/-- What is found in both frames. -/
lemma lookup?_meetingVariables {name : String} {found : Binding}
    (hfound : Frame.lookup? name meetingVariables.frames = some found) :
    (name = "@a" ∧ found = ⟨.variableRef {} "@b", "", meetingVariables.frames⟩) ∨
      (name = "@b" ∧ found = ⟨.variableRef {} "@a", "", meetingVariables.frames.tail⟩) := by
  by_cases ha : name = "@a"
  · subst ha
    exact .inl ⟨rfl, (Option.some.inj hfound).symm⟩
  · have houter : Frame.lookup? name meetingVariables.frames.tail = some found := by
      rw [← hfound]
      simp [meetingVariables, nestedVariables, Frame.lookup?, Frame.rules, Frame.ruleset,
        Ruleset.rules, Ruleset.ofRules, Node.bindingOf?, Ne.symm ha]
    exact .inr ((lookup?_meetingVariables_tail houter).resolve_left fun h => ha h.1)

/-- The rank of a declaration: values that refer to nothing are lowest. -/
def meetingRank (found : Binding) : Nat :=
  if found.value.kind = .keyword then 0 else found.frames.length

/-- The two references lead to declarations of lower ranks. -/
lemma ranksDeclarations_meetingVariables :
    Frame.RanksDeclarations meetingRank meetingVariables.frames := by
  intro frames name found hframes hfound x hx name' found' hname hfound'
  have hcases : found = ⟨.variableRef {} "@b", "", meetingVariables.frames⟩ ∨
      found = ⟨.variableRef {} "@a", "", meetingVariables.frames.tail⟩ ∨
      found = ⟨.keyword {} "one", "", meetingVariables.frames.tail⟩ := by
    rcases List.suffix_cons_iff.1 hframes with rfl | hframes
    · exact (lookup?_meetingVariables hfound).imp And.right fun h => .inl h.2
    · rcases List.suffix_cons_iff.1 hframes with rfl | hframes
      · exact .inr ((lookup?_meetingVariables_tail hfound).symm.imp And.right And.right)
      · rw [List.suffix_nil.1 hframes] at hfound
        cases hfound
  rcases hcases with rfl | rfl | rfl
  · rw [List.mem_singleton.1 hx] at hname
    obtain rfl := (Node.mayName_variableRef_iff.1 hname).resolve_right (by decide)
    rcases lookup?_meetingVariables hfound' with ⟨ha, _⟩ | ⟨_, rfl⟩
    · exact absurd ha (by decide)
    · decide
  · rw [List.mem_singleton.1 hx] at hname
    obtain rfl := (Node.mayName_variableRef_iff.1 hname).resolve_right (by decide)
    rcases lookup?_meetingVariables_tail hfound' with ⟨_, rfl⟩ | ⟨hb, _⟩
    · decide
    · exact absurd hb (by decide)
  · rw [List.mem_singleton.1 hx] at hname
    simp [Node.MayName, Node.Mentions, Node.kind] at hname

/-- It is not enough that the references lead to declarations of lower ranks. -/
theorem not_ranked_ne_recursive :
    ¬ ∀ (c : Context) (rank : Binding → Nat), c.resolving = [] → (∀ key, c.custom key = none) →
      Frame.RanksDeclarations rank c.frames → ∀ depth info name recursive,
        (c.evaluate depth (.variableRef info name)).1 ≠
          .error (.failed (.recursiveVariable recursive)) := by
  intro h
  refine h meetingVariables meetingRank rfl (fun _ => rfl) ranksDeclarations_meetingVariables 4 {}
    "@a" "@a" ?_
  rfl

end Cascade
