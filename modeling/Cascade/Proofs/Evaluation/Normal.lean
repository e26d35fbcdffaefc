import Cascade.Proofs.Evaluation.Core
import Cascade.Proofs.Evaluation.Provision

/-!
# Values that are evaluated already

What a value is evaluated to is in normal form for the scope: no reference is left in it, and an
operation, a minus sign or a call is left only if the scope does not carry it out
(`Node.IsNormal`).  Since a scope in parentheses, or among the arguments of a function, carries out
at least as much as the one around (`Scope.Covers`), what is normal inside is normal outside.  A
node in normal form is evaluated to itself, so evaluating a value twice is the same as evaluating it
once (`Context.evaluate_evaluated`).  A conditional that is marked as a call of `calc` is the
exception: it gives a branch as it is without arithmetic (`evaluate_evaluated_ne_marked`).
-/

namespace Cascade

/-! ### Names of functions -/

namespace Text

/-- Characters that an ASCII letter or another ASCII character is the lower case of are ASCII
characters. -/
lemma toNat_lt_of_toLower {c : Char} (h : c.toLower.toNat < 128) : c.toNat < 128 := by
  unfold Char.toLower at h
  split at h
  next hupper =>
    have hle : c.toNat ≤ 90 := hupper.2
    omega
  · exact h

/-- Among ASCII characters, the lower case of a text is found character by character. -/
lemma lowerAfter_of_ascii (before : List Char) {cs : List Char} (h : ∀ c ∈ cs, c.toNat < 128) :
    lowerAfter before cs = cs.map Char.toLower := by
  induction cs generalizing before with
  | nil => rfl
  | cons c rest ih =>
    obtain ⟨hc, hrest⟩ := List.forall_mem_cons.1 h
    have hsigma : c ≠ 'Σ' := by
      rintro rfl
      exact absurd hc (by decide)
    rw [lowerAfter, if_neg hsigma, lowerChar, if_pos hc, ih (c :: before) hrest]
    rfl

/-- A text whose lower case among ASCII letters is an ASCII text has no other lower case. -/
lemma lower_of_lowerAscii {s t : String} (h : lowerAscii s = t)
    (ht : ∀ c ∈ t.toList, c.toNat < 128) : lower s = t := by
  subst h
  have hascii : ∀ c ∈ s.toList, c.toNat < 128 := by
    intro c hc
    refine toNat_lt_of_toLower (ht _ ?_)
    simpa [lowerAscii] using ⟨c, hc, rfl⟩
  rw [lower, lowerAfter_of_ascii [] hascii, lowerAscii]

end Text

/-- No built-in function has the name under which nothing is computed. -/
lemma Node.isCalc_eq_false_of_find? {name : String} {function : FunctionRef}
    (h : FunctionTable.builtins.find? name = some function) : Node.isCalc name = false := by
  by_contra hcalc
  have hcase : Text.lowerAscii "calc" = "calc" := by decide
  have hlower : Text.lowerAscii name = "calc" := by
    simpa [Node.isCalc, Text.eqIgnoringAsciiCase, hcase] using hcalc
  have hname : Text.lower name = "calc" := Text.lower_of_lowerAscii hlower (by simp)
  rw [FunctionTable.find?, hname] at h
  cases h

/-! ### Scopes that carry out more -/

/-- A call is evaluated in the frames around. -/
lemma Scope.frames_enterCall (s : Scope) (asCalc : Bool) :
    (s.enterCall asCalc).frames = s.frames := by
  simp only [Scope.enterCall]

/-- The function table for a call depends on the frames only. -/
lemma Scope.functionTable_congr {s s' : Scope} (h : s'.frames = s.frames) :
    s'.functionTable = s.functionTable := by
  unfold Scope.functionTable
  rw [h]

/-- What the outer scope carries out, the inner one carries out, too. -/
structure Scope.Covers (inner outer : Scope) : Prop where
  math : inner.math = outer.math
  mathOn : outer.mathOn → inner.mathOn
  inParens : outer.inParens → inner.inParens
  frames : inner.frames ≠ [] → outer.frames ≠ []

namespace Scope.Covers

variable {inner outer : Scope}

lemma isMathOn (h : inner.Covers outer) (hmath : outer.isMathOn) : inner.isMathOn := by
  simp only [Scope.isMathOn, Bool.and_eq_true, Bool.or_eq_true, h.math] at hmath ⊢
  exact ⟨h.mathOn hmath.1, hmath.2.imp_right h.inParens⟩

lemma computes (h : inner.Covers outer) {operator : Operator}
    (hcomputes : outer.computes operator) : inner.computes operator := by
  simp only [Scope.computes, Bool.and_eq_true, Bool.or_eq_true, h.math] at hcomputes ⊢
  exact ⟨h.isMathOn hcomputes.1, hcomputes.2.imp_right h.inParens⟩

/-- Parentheses. -/
lemma enterParens (s : Scope) : s.enterParens.Covers s where
  math := rfl
  mathOn h := h
  inParens _ := by simp [Scope.inParens, Scope.enterParens]
  frames h := h

/-- The arguments of a function other than `calc`. -/
lemma enterCall (s : Scope) : (s.enterCall false).Covers s where
  math := by simp only [Scope.enterCall]
  mathOn _ := by simp [Scope.enterCall]
  inParens hparens := by simpa only [Scope.inParens, Scope.enterCall] using hparens
  frames hne := by rwa [Scope.frames_enterCall] at hne

/-- The arguments of one call in two scopes. -/
lemma enterCall_enterCall (h : inner.Covers outer) (asCalc : Bool) :
    (inner.enterCall asCalc).Covers (outer.enterCall asCalc) where
  math := by simpa only [Scope.enterCall] using h.math
  mathOn hmath := by simpa only [Scope.enterCall] using hmath
  inParens hparens := by
    simp only [Scope.inParens, Scope.enterCall] at hparens ⊢
    exact h.inParens hparens
  frames hne := by
    rw [Scope.frames_enterCall] at hne ⊢
    exact h.frames hne

/-- The value of a variable. -/
lemma enterBinding {s : Scope} {name : String} {found : Binding}
    (hfound : Frame.lookup? name s.frames = some found) :
    ((s.enterVariable name).setFrames (s.bindingFrames found)).Covers s where
  math := rfl
  mathOn h := h
  inParens h := h
  frames _ hnil := by
    rw [hnil] at hfound
    cases hfound

end Scope.Covers

/-! ### Normal forms -/

/-- Nodes without parts that evaluation leaves as they are. -/
def Node.IsConstant : Node → Prop
  | .anonymous info _ _ _ | .color info _ | .comment info _ _ _ | .dimension info _
  | .keyword info _ | .unicodeDescriptor info _ => info.snapshot = info
  | .detached info _ frames => info.snapshot = info ∧ frames.isSome
  | _ => False

/-- Whether an operation is kept on evaluated operands: it is not carried out, or it is one on a
division that was held back for want of parentheses. -/
def Scope.Holds (s : Scope) (operator : Operator) (left : Node) : Prop :=
  s.computes operator = false ∨ s.math = .parensDivision ∧ left.isDivision

/-- The values in which a scope leaves nothing to evaluate but strings, the texts of which are of
some kind. -/
inductive Node.IsNormal (T : String → Prop) : Scope → Node → Prop where
  | constant {s : Scope} {n : Node} (h : n.IsConstant) : Node.IsNormal T s n
  | assignment {s : Scope} {info : Info} {key : String} {v : Node} (hv : Node.IsNormal T s v) :
    Node.IsNormal T s (.assignment info.snapshot key v)
  | selector {s : Scope} {info : Info} {key : String} {operator flag : Option String}
    {v : Option Node} (hv : ∀ r ∈ v, Node.IsNormal T s r) :
    Node.IsNormal T s (.attribute info.snapshot key operator v flag)
  /-- A call of a function that is not in the table. -/
  | call {s : Scope} {info : Info} {name : String} {args : List Node} {asCalc : Bool}
    (hframes : s.frames ≠ []) (hname : FunctionTable.builtins.find? name = none)
    (hargs : ∀ a ∈ args, Node.IsNormal T (s.enterCall asCalc) a) :
    Node.IsNormal T s (.call info.snapshot name args asCalc)
  | expression {s : Scope} {info : Info} {items : List Node} {noSpacing : Bool}
    (hlength : 2 ≤ items.length) (hitems : ∀ i ∈ items, Node.IsNormal T s i) :
    Node.IsNormal T s (.expression info.snapshot items { noSpacing })
  | negative {s : Scope} {info : Info} {v : Node} (hmath : s.isMathOn = false)
    (hv : Node.IsNormal T s v) : Node.IsNormal T s (.negative info.snapshot v)
  | operation {s : Scope} {info : Info} {operator : Operator} {a b : Node} {spaced : Bool}
    (hkept : s.Holds operator a) (ha : Node.IsNormal T s a) (hb : Node.IsNormal T s b) :
    Node.IsNormal T s (.operation info.snapshot operator a b spaced)
  | paren {s : Scope} {info : Info} {v : Node} (hv : Node.IsNormal T s v) :
    Node.IsNormal T s (.paren info.snapshot v)
  | string {s : Scope} {info : Info} {quote : Char} {text : String} {escaped : Bool}
    (htext : T text) :
    Node.IsNormal T s (.quoted info.snapshot quote text escaped)
  | value {s : Scope} {info : Info} {items : List Node} (hlength : items.length ≠ 1)
    (hitems : ∀ i ∈ items, Node.IsNormal T s i) : Node.IsNormal T s (.value info.snapshot items)

/-- An operation that is kept inside is kept outside. -/
lemma Scope.Holds.outward {inner outer : Scope} {operator : Operator} {left : Node}
    (h : inner.Holds operator left) (hcovers : inner.Covers outer) : outer.Holds operator left := by
  rcases h with hnot | ⟨hmath, hdivision⟩
  · exact .inl (Bool.eq_false_iff.2 fun hcomputes =>
      Bool.eq_false_iff.1 hnot (hcovers.computes hcomputes))
  · exact .inr ⟨hcovers.math ▸ hmath, hdivision⟩

/-- What is normal inside is normal outside. -/
lemma Node.IsNormal.outward {T : String → Prop} {inner : Scope} {n : Node}
    (h : n.IsNormal T inner) : ∀ {outer : Scope}, inner.Covers outer → n.IsNormal T outer := by
  induction h with
  | constant h => exact fun _ => .constant h
  | assignment _ ih => exact fun hcovers => .assignment (ih hcovers)
  | selector _ ih => exact fun hcovers => .selector fun r hr => ih r hr hcovers
  | call hframes hname _ ih =>
    -- whether arithmetic is on among the arguments depends on the call alone
    intro outer hcovers
    refine .call (hcovers.frames hframes) hname fun a ha => ?_
    exact ih a ha (hcovers.enterCall_enterCall _)
  | expression hlength _ ih =>
    exact fun hcovers => .expression hlength fun i hi => ih i hi hcovers
  | negative hmath _ ih =>
    intro outer hcovers
    refine .negative (Bool.eq_false_iff.2 fun hon => ?_) (ih hcovers)
    exact Bool.eq_false_iff.1 hmath (hcovers.isMathOn hon)
  | operation hkept _ _ iha ihb =>
    exact fun hcovers => .operation (hkept.outward hcovers) (iha hcovers) (ihb hcovers)
  | paren _ ih => exact fun hcovers => .paren (ih hcovers)
  | string htext => exact fun _ => .string htext
  | value hlength _ ih => exact fun hcovers => .value hlength fun i hi => ih i hi hcovers

/-! ### Normal forms are evaluated to themselves -/

section Fixed

variable {α β : Type} {s : Scope}

/-- After a step without effects. -/
lemma Scoped.bind_of_pure {x : Scoped α} {a : α} (h : x s = Eval.pure a) (f : α → Scoped β) :
    (x >>= f) s = f a s := by
  funext q
  rw [Correspondence.bind_apply, h]
  simp [Eval.pure]

/-- After a look at the scope. -/
lemma Scoped.bind_scope (f : Scope → Scoped β) : (Evaluation.scope >>= f) s = f s s :=
  Scoped.bind_of_pure (x := Evaluation.scope) (a := s) rfl f

/-- After a computation that succeeded. -/
lemma Scoped.bind_ofExcept (a : α) (f : α → Scoped β) :
    (Evaluation.ofExcept (.ok a) >>= f) s = f a s :=
  Scoped.bind_of_pure (x := Evaluation.ofExcept (.ok a)) (a := a) rfl f

/-- Evaluations without effects one after the other. -/
lemma Scoped.runEach_of_pure {nodes : List Node} (eval : Node → Scoped Node)
    (h : ∀ n ∈ nodes, eval n s = Eval.pure n) :
    Evaluation.runEach (nodes.map eval) s = Eval.pure nodes := by
  induction nodes with
  | nil => rfl
  | cons n rest ih =>
    obtain ⟨hn, hrest⟩ := List.forall_mem_cons.1 h
    rw [List.map_cons, Evaluation.runEach, Scoped.bind_of_pure hn,
      Scoped.bind_of_pure (ih hrest)]
    rfl

/-- An operation that is kept. -/
lemma Node.operate_of_holds {info : Info} {operator : Operator} {spaced : Bool} {a b : Node}
    (h : s.Holds operator a) :
    Node.operate s info operator spaced a b =
      .ok (.operation info.snapshot operator a b spaced) := by
  unfold Node.operate
  split
  next hcomputes =>
    rcases h with hnot | ⟨hmath, hdivision⟩
    · exact absurd hcomputes (Bool.eq_false_iff.1 hnot)
    · unfold Node.isDivision at hdivision
      split at hdivision
      · obtain rfl := beq_iff_eq.1 hdivision
        simp [Node.compute, Node.promote, hmath]
      · cases hdivision
  · rfl

/-- Constants are evaluated to themselves. -/
lemma Node.IsConstant.evalWith {n : Node} (h : n.IsConstant) (resolve : Resolver Scoped) :
    Node.evalWith resolve n s = Eval.pure n := by
  cases n with
  | anonymous | color | comment | dimension | keyword | unicodeDescriptor =>
    rw [Node.evalWith, show Info.snapshot _ = _ from h]
    rfl
  | detached info body frames =>
    obtain ⟨hinfo, hframes⟩ := h
    obtain ⟨frames, rfl⟩ := Option.isSome_iff_exists.1 hframes
    rw [Node.evalWith, hinfo]
    rfl
  | _ => exact h.elim

/-- A string without placeholders is evaluated to itself. -/
lemma Resolver.string_of_isFilled {text : String} (h : Text.IsFilled text)
    (resolve : Resolver Scoped) (info : Info) (quote : Char) (escaped : Bool) :
    resolve.string info quote text escaped s =
      Eval.pure (.quoted info.snapshot quote text escaped) := by
  have hnames : Text.Piece.names (Text.pieces text) = [] := h
  unfold Resolver.string
  dsimp only
  rw [hnames, List.map_nil, Scoped.bind_of_pure (a := []) rfl,
    if_pos (Text.fill_pieces_of_names_eq_nil hnames)]
  rfl

/-- A normal form whose strings have no placeholders is evaluated to itself, without effects. -/
theorem Node.IsNormal.evalWith {T : String → Prop} (hT : ∀ text, T text → Text.IsFilled text)
    {n : Node} (h : n.IsNormal T s) (hs : s.frames ≠ [] → s.functionTable = .ok .builtins)
    (resolve : Resolver Scoped) : Node.evalWith resolve n s = Eval.pure n := by
  induction h with
  | constant h => exact h.evalWith resolve
  | assignment _ ih | paren _ ih =>
    rw [Node.evalWith, Scoped.bind_of_pure (ih hs)]
    rfl
  | @selector s info key operator flag v _ ih =>
    cases v with
    | none =>
      rw [Node.evalWith]
      rfl
    | some v =>
      rw [Node.evalWith, Scoped.bind_of_pure (ih v rfl hs)]
      rfl
  | @call s info name args asCalc hframes hname _ ih =>
    have htable : (s.enterCall asCalc).functionTable = .ok .builtins := by
      rw [Scope.functionTable_congr (s.frames_enterCall asCalc)]
      exact hs hframes
    have hvalues := Scoped.runEach_of_pure (Node.evalWith resolve)
      fun a ha => ih a ha fun _ => htable
    rw [Node.evalWith, Node.evalEach_eq_map]
    show Node.callNamed info.snapshot name args asCalc (args.map (Node.evalWith resolve))
      (s.enterCall asCalc) = Eval.pure _
    rw [Node.callNamed, Scoped.bind_scope, htable, Scoped.bind_ofExcept, hname]
    exact Scoped.bind_of_pure hvalues _
  | @expression s info items noSpacing hlength _ ih =>
    have hvalues := Scoped.runEach_of_pure (Node.evalWith resolve) fun i hi => ih i hi hs
    obtain ⟨first, items, rfl⟩ := List.exists_cons_of_length_pos (Nat.zero_lt_of_lt hlength)
    obtain ⟨second, rest, rfl⟩ := List.exists_cons_of_length_pos (Nat.lt_of_succ_lt_succ hlength)
    rw [Node.evalWith, Node.evalEach_eq_map, Scoped.bind_scope]
    refine (Scoped.bind_of_pure (Scoped.bind_of_pure hvalues _) _).trans ?_
    rfl
  | negative hmath _ ih =>
    rw [Node.evalWith, Scoped.bind_scope, Scoped.bind_of_pure (ih hs), hmath]
    rfl
  | @operation s info operator a b spaced hkept _ _ iha ihb =>
    rw [Node.evalWith, Scoped.bind_of_pure (iha hs), Scoped.bind_of_pure (ihb hs),
      Scoped.bind_scope, Node.operate_of_holds hkept]
    rfl
  | string htext =>
    rw [Node.evalWith]
    exact Resolver.string_of_isFilled (hT _ htext) resolve _ _ _
  | @value s info items hlength _ ih =>
    have hvalues := Scoped.runEach_of_pure (Node.evalWith resolve) fun i hi => ih i hi hs
    rw [Node.evalWith, Node.evalEach_eq_map]
    cases items with
    | nil => exact Scoped.bind_of_pure hvalues _
    | cons first rest =>
      cases rest with
      | nil => exact absurd rfl hlength
      | cons second rest => exact Scoped.bind_of_pure hvalues _

end Fixed

/-! ### Values -/

/-- The kinds of nodes that values are put together from.  A call marked as one of `calc` does not
have the name of a built-in function, which is so for all calls that are marked by their names
(`Node.isValueKind_makeCall`). -/
def Node.IsValueKind : Node → Prop
  | .declaration .. | .query .. | .quoted .. | .ruleset .. | .variableCall .. => False
  | .expression _ items _ => !items.isEmpty
  | .call _ name _ asCalc => asCalc → (FunctionTable.builtins.find? name).isNone
  | _ => True

instance (n : Node) : Decidable n.IsValueKind :=
  match n with
  | .declaration .. | .query .. | .quoted .. | .ruleset .. | .variableCall .. => .isFalse id
  | .expression _ items _ => inferInstanceAs (Decidable (!items.isEmpty))
  | .call _ name _ asCalc =>
    inferInstanceAs (Decidable (asCalc → (FunctionTable.builtins.find? name).isNone))
  | .anonymous .. | .assignment .. | .attribute .. | .color .. | .comment .. | .condition ..
  | .detached .. | .dimension .. | .javaScript .. | .keyword .. | .negative .. | .operation ..
  | .paren .. | .unicodeDescriptor .. | .value .. | .variableRef .. =>
    .isTrue trivial

/-- A call that is marked by its name is of such a kind. -/
lemma Node.isValueKind_makeCall (info : Info) (name : String) (args : List Node) :
    (Node.makeCall info name args).IsValueKind := by
  intro hcalc
  rw [Option.isNone_iff_eq_none]
  by_contra hfound
  obtain ⟨function, hfind⟩ := Option.ne_none_iff_exists'.1 hfound
  rw [Node.isCalc_eq_false_of_find? hfind] at hcalc
  cases hcalc

/-- The values: all nodes that they are put together from are of such kinds.  What a detached
ruleset keeps for later may be anything. -/
inductive Node.IsValue : Node → Prop where
  | intro {n : Node} (kind : n.IsValueKind) (parts : ∀ c ∈ n.children, c.IsValue) : n.IsValue

namespace Node.IsValue

lemma kind {n : Node} (h : n.IsValue) : n.IsValueKind := by
  cases h with
  | intro kind _ => exact kind

lemma part {n c : Node} (h : n.IsValue) (hc : c ∈ n.children) : c.IsValue := by
  cases h with
  | intro _ parts => exact parts c hc

/-- A tree of such kinds throughout is a value. -/
lemma of_throughout {n : Node} (h : n.Throughout Node.IsValueKind) : n.IsValue := by
  induction n using Node.inductionOnChildren with
  | step n ih => exact .intro h.self fun c hc => ih c hc (h.child hc)

end Node.IsValue

/-- A frame with the built-in functions whose variables are declared with values. -/
structure Frame.HoldsValues (frame : Frame) : Prop where
  functions : frame.functions = some .builtins
  values : ∀ rule ∈ frame.rules, ∀ name v marker,
    rule.bindingOf? name = some (v, marker) → v.IsValue

/-- A frame with the built-in functions in which some variables have values of some kind. -/
structure Frame.Holds (Looks : String → Prop) (Value : Node → Prop) (frame : Frame) : Prop where
  functions : frame.functions = some .builtins
  values : ∀ name v marker, Looks name → frame.declared? name = some (v, marker) → Value v

/-- A frame with values of some kind has values of a wider kind. -/
lemma Frame.Holds.imp {Looks : String → Prop} {Value Value' : Node → Prop} {frame : Frame}
    (h : frame.Holds Looks Value) (hvalue : ∀ v, Value v → Value' v) :
    frame.Holds Looks Value' where
  functions := h.functions
  values name v marker hname hdeclared := hvalue v (h.values name v marker hname hdeclared)

/-- All variables of a frame with values have values. -/
lemma Frame.HoldsValues.holds {frame : Frame} (h : frame.HoldsValues) (Looks : String → Prop) :
    frame.Holds Looks Node.IsValue where
  functions := h.functions
  values name v marker _ hdeclared := by
    obtain ⟨rule, hrule, hbinding⟩ := Frame.exists_of_declared? hdeclared
    exact h.values rule hrule name v marker hbinding

/-- A scope with the built-in functions in which all variables have values of some kind, but for
those in `held`, which are being resolved, so that looking at them is refused. -/
structure Scope.Offers (held : List String) (Value : Node → Prop) (s : Scope) : Prop where
  frames : ∀ f ∈ s.frames, f.Holds (· ∉ held) Value
  refused : ∀ name ∈ held, name ∈ s.resolving

namespace Scope

variable {s : Scope} {Looks : String → Prop} {Value : Node → Prop}

/-- The function table for a call. -/
lemma functionTable_of_holds (h : ∀ f ∈ s.frames, f.Holds Looks Value) (hne : s.frames ≠ []) :
    s.functionTable = .ok .builtins := by
  obtain ⟨frame, outer, hframes⟩ := List.exists_cons_of_ne_nil hne
  have hfunctions := (h frame (by simp [hframes])).functions
  rw [Scope.functionTable_eq_ok_iff, Scope.functions?, hframes]
  exact hfunctions

/-- Where a function table is found, it is the one of the built-in functions. -/
lemma eq_builtins_of_functionTable (h : ∀ f ∈ s.frames, f.Holds Looks Value) {table : FunctionTable}
    (htable : s.functionTable = .ok table) : s.frames ≠ [] ∧ table = .builtins := by
  have hne : s.frames ≠ [] := by
    intro hnil
    simp [Scope.functionTable, hnil] at htable
  rw [functionTable_of_holds h hne] at htable
  exact ⟨hne, (Except.ok.inj htable).symm⟩

/-- The value of a variable, and the frames it is evaluated in. -/
lemma holds_of_lookup? (h : ∀ f ∈ s.frames, f.Holds Looks Value) {name : String}
    {found : Binding} (hname : Looks name) (hfound : Frame.lookup? name s.frames = some found) :
    Value found.value ∧ ∀ f ∈ s.bindingFrames found, f.Holds Looks Value := by
  obtain ⟨inner, frame, outer, hframes, _, hdeclared, hrest⟩ :=
    Frame.lookup?_eq_some_iff.1 hfound
  rw [hframes, List.forall_mem_append, List.forall_mem_cons] at h
  obtain ⟨_, hframe, houter⟩ := h
  refine ⟨hframe.values name _ _ hname hdeclared, ?_⟩
  unfold Scope.bindingFrames
  rw [hrest]
  obtain ⟨ruleset, own⟩ := frame
  obtain rfl : own = some .builtins := hframe.functions
  exact List.forall_mem_cons.2 ⟨hframe, houter⟩

end Scope

/-! ### Values are evaluated to normal forms -/

/-- The watch for evaluations of which only the results matter. -/
def Watch.lenient : Watch where
  States _ := True
  Admits _ := True

/-- What an operation gives is a constant, or the operation is kept. -/
lemma Node.isNormal_of_operate {T : String → Prop} {s : Scope} {info : Info} {operator : Operator}
    {spaced : Bool} {a b r : Node} (ha : a.IsNormal T s) (hb : b.IsNormal T s)
    (h : Node.operate s info operator spaced a b = .ok r) : r.IsNormal T s := by
  unfold Node.operate at h
  split at h
  · rcases Node.compute_cases h with ⟨i, d, rfl⟩ | ⟨i, c, rfl⟩ | ⟨⟨i, x, y, sp, rfl⟩, hmath, rfl⟩
    · exact .constant rfl
    · exact .constant rfl
    · exact .operation (.inr ⟨hmath, rfl⟩) ha hb
  next hnot =>
    rw [← Except.ok.inj h]
    exact .operation (.inl (Bool.eq_false_iff.2 hnot)) ha hb

/-- Nodes that are evaluated to normal forms in some scopes: they are put together from values and
strings, and the variables that can be looked up hold such nodes. -/
structure Node.Normalizes (T : String → Prop) (Good : Scope → Prop) (Value : Node → Prop) :
    Prop where
  kind : ∀ {n}, Value n → n.IsValueKind ∨ n.kind = .quoted
  part : ∀ {n c}, Value n → c ∈ n.children → Value c
  string : ∀ {info quote text escaped}, Value (.quoted info quote text escaped) →
    ∀ filled, T filled ∧ Value (.quoted info quote filled escaped)
  enterParens : ∀ {s}, Good s → Good s.enterParens
  enterCall : ∀ {s} asCalc, Good s → Good (s.enterCall asCalc)
  table : ∀ {s table}, Good s → s.functionTable = .ok table → s.frames ≠ [] ∧ table = .builtins
  value : ∀ {s name found}, Good s → name ∉ s.resolving →
    Frame.lookup? name s.frames = some found →
    Value found.value ∧ Good ((s.enterVariable name).setFrames (s.bindingFrames found))

namespace Node.Normalizes

variable {T : String → Prop} {Good : Scope → Prop} {Value : Node → Prop}
  {resolve : Resolver Observed} {s : Scope}

/-- A call is evaluated to a constant, to one of its arguments, or to itself. -/
lemma call (h : Node.Normalizes T Good Value) (hs : Good s) {info : Info} {name : String}
    {args : List Node} {asCalc : Bool} (hn : Value (.call info name args asCalc))
    (hargs : ∀ {t}, Good t →
      ∀ x ∈ Node.evalEach resolve args, Watch.lenient.Keeps t (Node.IsNormal T t) x) :
    Watch.lenient.Keeps s (Node.IsNormal T s)
      (Node.evalWith resolve (.call info name args asCalc)) := by
  have hinside : Good (s.enterCall asCalc) := h.enterCall asCalc hs
  rw [Node.evalWith]
  refine .inCall trivial (.callNamed (hargs hinside) (by simp [Node.evalEach_eq_map]) ?_ ?_ ?_ ?_)
  · intro table key htable hfind
    obtain ⟨_, rfl⟩ := h.table hinside htable
    cases FunctionTable.isNative_builtins.isBuiltin_of_find? hfind
  · intro b values r _ hr
    rcases Builtin.call_cases hr with ⟨i, d, rfl⟩ | ⟨i, c, rfl⟩ | ⟨i, t, rfl⟩ <;>
      exact .constant rfl
  · -- the conditional gives an argument, which was evaluated where at least as much is computed
    intro table htable hfind
    obtain ⟨_, rfl⟩ := h.table hinside htable
    have hcalc : asCalc = false := by
      have hkind : asCalc → (FunctionTable.builtins.find? name).isNone :=
        (h.kind hn).resolve_right (by simp [Node.kind])
      simpa [hfind] using hkind
    subst hcalc
    exact ⟨.constant rfl, fun r hr => hr.outward (.enterCall s)⟩
  · intro table values htable hfind hvalues
    obtain ⟨hne, rfl⟩ := h.table hinside htable
    rw [Scope.frames_enterCall] at hne
    exact .call hne hfind hvalues

/-- An expression is evaluated to its only item or to itself, perhaps in parentheses. -/
lemma expression (h : Node.Normalizes T Good Value) (hs : Good s) {info : Info}
    {items : List Node} {form : ExpressionForm} (hn : Value (.expression info items form))
    (hitems : ∀ {t}, Good t →
      ∀ x ∈ Node.evalEach resolve items, Watch.lenient.Keeps t (Node.IsNormal T t) x) :
    Watch.lenient.Keeps s (Node.IsNormal T s)
      (Node.evalWith resolve (.expression info items form)) := by
  have hne : items ≠ [] := by simpa [Node.IsValueKind, Node.kind] using h.kind hn
  have hresult : ∀ {t : Scope}, Good t → Watch.lenient.Keeps t (Node.IsNormal T t)
      (Node.expressionOf info form (Node.evalEach resolve items)) := by
    intro t ht
    refine .expressionOf (hitems ht) (fun hnil => ?_) fun values hlength hvalues => ?_
    · exact absurd (by simpa [Node.evalEach_eq_map] using hnil) hne
    · exact .expression hlength hvalues
  -- the items are evaluated in parentheses, if there are any, but the result stands outside
  have hinside : Watch.lenient.Keeps s.enterParens (Node.IsNormal T s)
      (Node.expressionOf info form (Node.evalEach resolve items)) :=
    (hresult (h.enterParens hs)).imp fun r hr => hr.outward (.enterParens s)
  rw [Node.evalWith]
  refine .bind_scope (.bind (.parenthesized trivial hinside (hresult hs)) fun r hr => .pure ?_)
  unfold Node.keepParens
  split
  · exact @Node.IsNormal.paren T s {} r hr
  · exact hr

/-- A value is evaluated to a normal form, if evaluation goes on in this way with the values of
variables. -/
theorem evalWith (h : Node.Normalizes T Good Value)
    (hvalue : ∀ {s n}, Good s → Value n →
      Watch.lenient.Keeps s (Node.IsNormal T s) (resolve.value n))
    (hbody : ∀ {s n}, Good s → Value n →
      Watch.lenient.Keeps s (Node.IsNormal T s) (resolve.body n)) (node : Node) :
    ∀ {s : Scope}, Good s → Value node →
      Watch.lenient.Keeps s (Node.IsNormal T s) (Node.evalWith resolve node) := by
  induction node using Node.inductionOnChildren with
  | step n ih =>
  intro s hs hn
  have heach : ∀ {t : Scope}, Good t →
      ∀ x ∈ Node.evalEach resolve n.children, Watch.lenient.Keeps t (Node.IsNormal T t) x :=
    fun ht => .evalEach fun c hc => ih c hc ht (h.part hn hc)
  have hpart : ∀ c ∈ n.children, Watch.lenient.Keeps s (Node.IsNormal T s)
      (Node.evalWith resolve c) := fun c hc => ih c hc hs (h.part hn hc)
  have hbinding : ∀ name, Watch.lenient.Keeps s (Node.IsNormal T s) (resolve.binding name) := by
    refine fun name => .binding trivial fun hfresh found hfound => ⟨trivial, trivial, ?_⟩
    obtain ⟨hfoundValue, hinner⟩ := h.value hs hfresh hfound
    exact (hvalue hinner hfoundValue).imp fun r hr => hr.outward (.enterBinding hfound)
  have hkind := h.kind hn
  cases n with
  | declaration | query | ruleset | variableCall => exact hkind.elim False.elim nofun
  | quoted =>
    rw [Node.evalWith]
    exact .string hbinding (.string (h.string hn _).1) fun filled => hbody hs (h.string hn filled).2
  | anonymous | color | comment | dimension | keyword | unicodeDescriptor =>
    rw [Node.evalWith]
    exact .pure (.constant rfl)
  | detached =>
    rw [Node.evalWith]
    exact .bind_scope (.pure (.constant ⟨rfl, rfl⟩))
  | assignment =>
    rw [Node.evalWith]
    exact .bind (hpart _ (by simp [Node.children])) fun v hv => .pure (.assignment hv)
  | paren =>
    rw [Node.evalWith]
    exact .bind (hpart _ (by simp [Node.children])) fun v hv => .pure (.paren hv)
  | «attribute» _ _ _ v _ =>
    cases v with
    | none =>
      rw [Node.evalWith]
      exact .pure (.selector (by simp))
    | some v =>
      rw [Node.evalWith]
      refine .bind (hpart _ (by simp [Node.children])) fun r hr => .pure (.selector ?_)
      rintro _ ⟨⟩
      exact hr
  | call => exact h.call hs hn heach
  | condition =>
    rw [Node.evalWith]
    refine .bind (hpart _ (by simp [Node.children])) fun a _ => ?_
    refine .bind (hpart _ (by simp [Node.children])) fun b _ => .bind .queries fun _ _ => .pure ?_
    exact .constant rfl
  | expression => exact h.expression hs hn heach
  | javaScript =>
    rw [Node.evalWith]
    exact .bind_scope (.fail _)
  | negative =>
    rw [Node.evalWith]
    refine .bind_scope (.bind (hpart _ (by simp [Node.children])) fun v hv => ?_)
    split
    · have hminus : Node.minusOne.IsConstant := rfl
      exact .bind_scope (.ofExcept fun r hr => Node.isNormal_of_operate (.constant hminus) hv hr)
    next hmath => exact .pure (.negative (Bool.eq_false_iff.2 hmath) hv)
  | operation =>
    rw [Node.evalWith]
    refine .bind (hpart _ (by simp [Node.children])) fun a ha => ?_
    refine .bind (hpart _ (by simp [Node.children])) fun b hb => .bind_scope (.ofExcept ?_)
    exact fun r hr => Node.isNormal_of_operate ha hb hr
  | value info items =>
    rw [Node.evalWith]
    exact .valueOf (heach hs) fun values hlength hvalues => .value hlength hvalues
  | variableRef =>
    rw [Node.evalWith]
    exact .reference hbinding _

/-- A value is evaluated to a normal form at any depth. -/
theorem eval (h : Node.Normalizes T Good Value) {s : Scope} (hs : Good s) (depth : Nat)
    {node : Node} (hn : Value node) :
    Watch.lenient.Keeps s (Node.IsNormal T s) (Node.eval depth node) := by
  induction depth generalizing s node with
  | zero => exact .stop _
  | succ depth ih => exact h.evalWith (fun hs hn => ih hs hn) (fun hs hn => ih hs hn) node hs hn

end Node.Normalizes

/-- Nodes are evaluated to normal forms in scopes whose variables hold such nodes. -/
lemma Node.normalizes_of_offers {T : String → Prop} {held : List String} {Value : Node → Prop}
    (hkind : ∀ {n}, Value n → n.IsValueKind ∨ n.kind = .quoted)
    (hpart : ∀ {n c}, Value n → c ∈ n.children → Value c)
    (hstring : ∀ {info quote text escaped}, Value (.quoted info quote text escaped) →
      ∀ filled, T filled ∧ Value (.quoted info quote filled escaped)) :
    Node.Normalizes T (Scope.Offers held Value) Value where
  kind := hkind
  part := hpart
  string := hstring
  enterParens hs := ⟨hs.frames, hs.refused⟩
  enterCall asCalc hs := by
    refine ⟨?_, hs.refused⟩
    rw [Scope.frames_enterCall]
    exact hs.frames
  table hs htable := Scope.eq_builtins_of_functionTable hs.frames htable
  value {s name found} hs hfresh hfound := by
    have hname : name ∉ held := fun hmem => hfresh (hs.refused name hmem)
    obtain ⟨hvalue, hframes⟩ := Scope.holds_of_lookup? hs.frames hname hfound
    exact ⟨hvalue, hframes, fun held hheld => List.mem_cons_of_mem name (hs.refused held hheld)⟩

/-- A normal form is evaluated to itself in a context, and the context stays as it is. -/
lemma Node.IsNormal.evaluate {T : String → Prop} (hT : ∀ text, T text → Text.IsFilled text)
    {c : Context} {n : Node} (h : n.IsNormal T c.scope) (hframes : ∀ f ∈ c.frames, f.HoldsValues)
    (depth : Nat) : c.evaluate (depth + 1) n = (.ok n, c) := by
  have hfixed := h.evalWith hT
    (Scope.functionTable_of_holds (s := c.scope) fun f hf => (hframes f hf).holds fun _ => True)
    ⟨Node.eval depth, Node.eval depth⟩
  rw [Context.evaluate_eq, Node.eval, hfixed]
  show (Except.ok n, c.afterwards (Eval.pure n c.queries)) = _
  simp [Context.afterwards, Eval.pure]

/-- Evaluating what a value was evaluated to changes nothing: neither the value nor the context,
whether in the context at the start or in the one that the first evaluation left. -/
theorem Context.evaluate_evaluated (c : Context) (depth : Nat) (x y : Node) (hx : x.IsValue)
    (hframes : ∀ f ∈ c.frames, f.HoldsValues) (hy : (c.evaluate depth x).1 = .ok y) :
    c.evaluate depth y = (.ok y, c) ∧
      (c.evaluate depth x).2.evaluate depth y = (.ok y, (c.evaluate depth x).2) := by
  cases depth with
  | zero => cases hy
  | succ depth =>
    rw [Context.evaluate_eq_course c (depth + 1) x] at hy ⊢
    -- there are no strings among values
    have hvalues : Node.Normalizes (fun _ => False) (Scope.Offers [] Node.IsValue) Node.IsValue :=
      Node.normalizes_of_offers (fun hn => .inl hn.kind) (fun hn hc => hn.part hc)
        fun hn => hn.kind.elim
    have hscope : c.scope.Offers [] Node.IsValue := ⟨fun f hf => (hframes f hf).holds _, nofun⟩
    have hnormal : y.IsNormal (fun _ => False) c.scope :=
      (hvalues.eval hscope (depth + 1) hx c.queries trivial).post y hy
    refine ⟨hnormal.evaluate (fun _ => False.elim) hframes depth, ?_⟩
    exact Node.IsNormal.evaluate (fun _ => False.elim) (c := c.afterwards _) hnormal hframes depth

/-- The value of the variable in `gutterContext`. -/
def gutterWidth : Node :=
  .dimension {} ⟨4.0, .none⟩

/-- A number in a variable, where division needs parentheses. -/
def gutterContext : Context :=
  let gutter := .declaration {} (.literal "@gutter") gutterWidth { isVariable := true }
  { frames := [.mk (some (.ofRules [] [gutter])) (some .builtins)] }

/-- The variable holds a value. -/
lemma holdsValues_gutterContext : ∀ f ∈ gutterContext.frames, f.HoldsValues := by
  intro f hf
  rw [List.mem_singleton.1 hf]
  refine ⟨rfl, fun rule hrule name v marker hbinding => ?_⟩
  rw [List.mem_singleton.1 hrule] at hbinding
  obtain ⟨_, _, ⟨⟩, _⟩ := Node.eq_declaration_of_bindingOf? hbinding
  exact .of_throughout (by decide)

/-- A division that is held back and an operation on it, arithmetic inside `calc`, and an item in
parentheses: as they are written with a reference, and as they are evaluated. -/
def gutterItems (reference : Node) (held item : Node → Node) : Node :=
  let half := .operation {} .div reference (.dimension {} ⟨2.0, .none⟩) false
  let product := .operation {} .mul (held (.operation {} .add reference gutterWidth true))
    (.negative {} reference) true
  .expression {} [.operation {} .add half reference true, .makeCall {} "Calc" [product],
    item (.keyword {} "auto")] {}

/-- What `calc` and missing parentheses keep from being carried out is evaluated to itself. -/
theorem evaluate_evaluated_gutterItems :
    let written := gutterItems (.variableRef {} "@gutter")
      (fun sum => .expression {} [sum] { parens := true, parensInOp := true })
      (fun item => .expression {} [item] { parens := true })
    let evaluated := gutterItems gutterWidth (fun sum => .paren {} sum) id
    (gutterContext.evaluate 2 written).1 = .ok evaluated ∧
      gutterContext.evaluate 2 evaluated = (.ok evaluated, gutterContext) ∧
      (gutterContext.evaluate 2 written).2.evaluate 2 evaluated =
        (.ok evaluated, (gutterContext.evaluate 2 written).2) := by
  intro written evaluated
  have hevaluated : (gutterContext.evaluate 2 written).1 = .ok evaluated := by rfl
  exact ⟨hevaluated, gutterContext.evaluate_evaluated 2 written evaluated
    (.of_throughout (by decide)) holdsValues_gutterContext hevaluated⟩

/-- The kinds of nodes alone are not enough: a conditional that is marked as a call of `calc` gives
a sum, which is carried out when it is evaluated again. -/
theorem evaluate_evaluated_ne_marked :
    ¬ ∀ (c : Context) (depth : Nat) (x y : Node),
      x.Throughout (fun n => n.kind ∉
        [.declaration, .expression, .queryInParens, .quoted, .ruleset, .variableCall]) →
      (∀ f ∈ c.frames, f.HoldsValues) → (c.evaluate depth x).1 = .ok y →
      (c.evaluate depth y).1 = .ok y := by
  intro h
  let sum : Node := .operation {} .add gutterWidth gutterWidth true
  have hagain := h gutterContext 2 (.call {} "if" [.keyword {} "true", sum] true) sum
    (by decide) holdsValues_gutterContext rfl
  exact absurd (congrArg (fun r => r.toOption.map Node.kind) hagain) (by decide +kernel)

end Cascade
