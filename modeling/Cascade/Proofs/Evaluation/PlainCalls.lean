import Cascade.Proofs.Evaluation.Flat

/-!
# Calls of plain rulesets

A variable that is called may hold a detached ruleset or a plain one.  The rules of a detached
ruleset are evaluated when it is called, in the frames in which it was written.  The rules of a
plain ruleset are evaluated when the variable is looked up, and what they are evaluated to is
evaluated again when it is called.  If the rules are flat, the second evaluation changes nothing,
and the two calls mean the same (`Context.evaluate_plain_call`).  If there are rulesets among them,
their selectors are combined with the ones around a second time
(`nested_selectors_combined_again`).

The ruleset around is an `Enclosure`, in which the value of the variable is left open.  Nothing but
the calls may look at the variable, since the value itself is not the same.  This is said by an
evaluation in which the variable is held back: the other rules, and the called ruleset among them,
are evaluated while the variable is being resolved (`Enclosure.guarded`).
-/

namespace Cascade

/-! ### Calls -/

section Calls

variable {t : Scope} {q : Queries} {depth : Nat} {name : String} {body : Ruleset} {r : Node}

/-- A call of a variable that holds something that can be called. -/
lemma Node.becomes_variableCall (info : Info) {found : Binding} {held : Node}
    (hname : Resolver.atSigns name ≤ 1) (hfresh : name ∉ t.resolving)
    (hfound : Frame.lookup? name t.frames = some found)
    (hheld : found.value.Becomes depth
      ((t.enterVariable name).setFrames (t.bindingFrames found)) q held)
    (hcalled : ((Resolver.callHeld ⟨Node.eval depth, Node.eval depth⟩ held : Scoped _) t q).result =
        .ok (some r) ∧
      ((Resolver.callHeld ⟨Node.eval depth, Node.eval depth⟩ held : Scoped _) t q).queries = q) :
    (Node.variableCall info name).Becomes (depth + 1) t q r := by
  obtain ⟨hresult, hqueries⟩ := Resolver.reference_apply (q := q)
    ⟨Node.eval depth, Node.eval depth⟩ hname hfresh hfound
  rw [hheld.1] at hresult
  rw [hheld.2] at hqueries
  unfold Node.Becomes
  rw [Node.eval, Node.evalWith, Resolver.variableCall, Correspondence.bind_apply, hresult, hqueries]
  dsimp only
  rw [Correspondence.bind_apply, hcalled.1, hcalled.2]
  exact ⟨rfl, rfl⟩

/-- The body of a detached ruleset is evaluated where it is called. -/
lemma Resolver.callHeld_detached (own : Info) (frames : Option (List Frame))
    (h : (Node.ruleset body).Becomes depth (t.captured frames) q r) :
    ((Resolver.callHeld ⟨Node.eval depth, Node.eval depth⟩ (.detached own (some body) frames) :
        Scoped _) t q).result = .ok (some r) ∧
      ((Resolver.callHeld ⟨Node.eval depth, Node.eval depth⟩ (.detached own (some body) frames) :
        Scoped _) t q).queries = q := by
  have hcaptured : (Resolver.inCaptured frames (Node.eval depth (.ruleset body)) : Scoped Node) t
      q = (Node.eval depth (.ruleset body) : Scoped Node) (t.captured frames) q := by
    cases frames with
    | none => rfl
    | some frames => exact Correspondence.scope_bind_apply _
  unfold Resolver.callHeld Resolver.callDetached
  dsimp only
  rw [Correspondence.bind_apply, hcaptured, h.1, h.2]
  exact ⟨rfl, rfl⟩

/-- A plain ruleset is called like a detached one that keeps no frames. -/
lemma Resolver.callHeld_ruleset (h : (Node.ruleset body).Becomes depth t q r) :
    ((Resolver.callHeld ⟨Node.eval depth, Node.eval depth⟩ (.ruleset body) : Scoped _) t q).result =
        .ok (some r) ∧
      ((Resolver.callHeld ⟨Node.eval depth, Node.eval depth⟩ (.ruleset body) : Scoped _) t
        q).queries = q :=
  Resolver.callHeld_detached {} none h

/-- The frames of a variable that the innermost frame declares. -/
lemma Scope.bindingFrames_eq {found : Binding} (h : found.frames = t.frames) :
    t.bindingFrames found = t.frames := by
  unfold Scope.bindingFrames Scope.functions?
  rw [h]
  cases t.frames with
  | nil => rfl
  | cons frame outer =>
    obtain ⟨ruleset, own⟩ := frame
    show Frame.mk ruleset (own.or own) :: outer = _
    cases own <;> rfl

variable (info : Info) {marker : String} (hname : Resolver.atSigns name ≤ 1)
  (hfresh : name ∉ t.resolving)

include hname hfresh

/-- A call of a variable that holds a plain ruleset evaluates it twice. -/
lemma Node.becomes_plain_call {first : Ruleset}
    (hfound : Frame.lookup? name t.frames = some ⟨.ruleset body, marker, t.frames⟩)
    (hfirst : (Node.ruleset body).Becomes depth (t.enterVariable name) q (.ruleset first))
    (hagain : (Node.ruleset first).Becomes depth t q r) :
    (Node.variableCall info name).Becomes (depth + 1) t q r := by
  have hframes : t.bindingFrames ⟨.ruleset body, marker, t.frames⟩ = t.frames :=
    t.bindingFrames_eq rfl
  refine Node.becomes_variableCall info hname hfresh hfound ?_ (Resolver.callHeld_ruleset hagain)
  rw [hframes]
  exact hfirst

/-- A call of a variable that holds a detached ruleset evaluates its body once, in the frames of the
variable. -/
lemma Node.becomes_detached_call {kept : Info}
    (hfound : Frame.lookup? name t.frames =
      some ⟨.detached kept (some body) none, marker, t.frames⟩)
    (hbody : (Node.ruleset body).Becomes (depth + 1) (t.captured (some t.frames)) q r) :
    (Node.variableCall info name).Becomes (depth + 2) t q r := by
  have hframes : t.bindingFrames ⟨.detached kept (some body) none, marker, t.frames⟩ = t.frames :=
    t.bindingFrames_eq rfl
  have hheld : (Node.detached kept (some body) none).Becomes (depth + 1) (t.enterVariable name) q
      (.detached kept.snapshot (some body) (some t.frames)) := ⟨rfl, rfl⟩
  refine Node.becomes_variableCall info hname hfresh hfound ?_
    (Resolver.callHeld_detached kept.snapshot (some t.frames) hbody)
  rw [hframes]
  exact hheld

end Calls

/-- A declaration of a variable is evaluated if its value is. -/
lemma Node.exists_becomes_declaration {s : Scope} {q : Queries} {depth : Nat} {text : String}
    {value v : Node} {traits : DeclarationTraits} (info : Info) (htraits : traits.isVariable = true)
    (hvalue : value.Becomes (depth + 1) (s.setMath (s.mathOf text)) q v) :
    ∃ r, (Node.declaration info (.literal text) value traits).Becomes (depth + 1) s q r := by
  let marker := ((Node.eval (depth + 1) value : Scoped Node) (s.setMath (s.mathOf text)) q).marker
  have hcapture : (Evaluation.inMath (s.mathOf text) (Evaluation.capture
      (Node.evalWith ⟨Node.eval depth, Node.eval depth⟩ value)) : Scoped _) s q =
        ⟨.ok (v, marker), q, none⟩ := by
    show Eval.capture ((Node.eval (depth + 1) value : Scoped Node)
      (s.setMath (s.mathOf text))) q = _
    unfold Eval.capture
    dsimp only
    rw [hvalue.1, hvalue.2]
  have hfinish : ∃ r, Node.finishDeclaration info text traits v marker = .ok r := by
    unfold Node.finishDeclaration
    rw [if_neg (by simp [htraits])]
    exact ⟨_, rfl⟩
  obtain ⟨r, hfinish⟩ := hfinish
  refine ⟨r, ?_⟩
  unfold Node.Becomes
  rw [Node.eval, Node.evalWith, PropertyName.evalWith, Scoped.bind_of_pure (a := text) rfl,
    Scoped.bind_scope, Correspondence.bind_apply, hcapture]
  dsimp only [PropertyName.traits]
  rw [hfinish]
  exact ⟨rfl, rfl⟩

/-! ### Rulesets that hold another one in a variable -/

/-- A ruleset that declares a variable, whose value is left open. -/
structure Enclosure where
  info : Info
  selectors : List String
  root : Bool
  /-- The rules before the declaration. -/
  before : List Node
  /-- The infos of the declaration. -/
  declared : Info
  name : String
  traits : DeclarationTraits
  /-- The rules after the declaration. -/
  after : List Node
  named : Resolver.atSigns name = 1
  isVariable : traits.isVariable = true
  /-- There is no later declaration, which would be the one that counts. -/
  last : ∀ rule ∈ after, rule.bindingOf? name = none

namespace Enclosure

variable (e : Enclosure)

/-- The declaration of the variable. -/
def binding (value : Node) : Node :=
  .declaration e.declared (.literal e.name) value e.traits

/-- It is the declaration of a variable. -/
lemma isBinding_binding (value : Node) : (e.binding value).isBinding :=
  e.isVariable

/-- The ruleset with a value for the variable. -/
def ruleset (value : Node) : Ruleset :=
  .mk e.info e.selectors (e.before ++ [e.binding value] ++ e.after) e.root

/-- Whether a rule calls the variable. -/
def isCall : Node → Bool
  | .variableCall _ name => name == e.name
  | _ => false

/-- The rules that do not call the variable. -/
def others : List Node :=
  (e.before ++ e.after).filter fun rule => !e.isCall rule

/-- The ruleset without the variable and without its calls, with another ruleset in it. -/
def rest (body : Ruleset) : Ruleset :=
  .mk e.info e.selectors (e.others ++ [.ruleset body]) e.root

/-- The scope inside this ruleset while some variables are being resolved. -/
def guarded (held : List String) (body : Ruleset) (s : Scope) : Scope :=
  Scope.inside { s with resolving := held ++ s.resolving } (.ruleset (e.rest body))

/-- The frame declares the variable. -/
lemma declared?_name (value : Node) (s : Scope) :
    (s.frameOf (e.ruleset value)).declared? e.name = some (value, e.traits.important) := by
  have hlast : e.after.filterMap (Node.bindingOf? e.name) = [] :=
    List.filterMap_eq_nil_iff.2 e.last
  have hbinding : (e.binding value).bindingOf? e.name = some (value, e.traits.important) := by
    simp [binding, Node.bindingOf?, e.isVariable]
  rw [Frame.declared?_eq_getLast?]
  show ((e.before ++ [e.binding value] ++ e.after).filterMap _).getLast? = _
  rw [List.filterMap_append, hlast, List.append_nil, List.filterMap_append, List.filterMap_cons,
    hbinding]
  exact List.getLast?_concat

/-- A call declares nothing. -/
lemma bindingOf?_of_isCall {rule : Node} (h : e.isCall rule) (name : String) :
    rule.bindingOf? name = none := by
  cases rule with
  | variableCall => rfl
  | _ => cases h

/-- The frame declares all other variables as if this one and its calls were not there. -/
lemma declared?_of_ne {name : String} (hname : name ≠ e.name) (value : Node) (body : Ruleset)
    (s : Scope) :
    (s.frameOf (e.ruleset value)).declared? name = (s.frameOf (e.rest body)).declared? name := by
  have hbinding : (e.binding value).bindingOf? name = none := by
    simp [binding, Node.bindingOf?, hname.symm]
  have hothers : e.others.filterMap (Node.bindingOf? name) =
      (e.before ++ e.after).filterMap (Node.bindingOf? name) := by
    rw [others, List.filterMap_filter]
    refine List.filterMap_congr fun rule _ => ?_
    cases hcall : e.isCall rule with
    | true => simp [e.bindingOf?_of_isCall hcall]
    | false => simp
  rw [Frame.declared?_eq_getLast?, Frame.declared?_eq_getLast?]
  show ((e.before ++ [e.binding value] ++ e.after).filterMap _).getLast? =
    ((e.others ++ [Node.ruleset body]).filterMap _).getLast?
  rw [List.filterMap_append, List.filterMap_append, List.filterMap_cons, hbinding,
    List.filterMap_append, hothers, List.filterMap_append]
  simp [Node.bindingOf?]

/-- The variable is found in the innermost frame. -/
lemma lookup?_name (value : Node) (s : Scope) :
    Frame.lookup? e.name (s.inside (.ruleset (e.ruleset value))).frames =
      some ⟨value, e.traits.important, (s.inside (.ruleset (e.ruleset value))).frames⟩ := by
  show Frame.lookup? e.name (s.frameOf (e.ruleset value) :: s.frames) = _
  rw [Frame.lookup?_cons, e.declared?_name]
  rfl

/-- The declaration of the variable is evaluated if the value is. -/
lemma exists_becomes_binding {s : Scope} {q : Queries} {depth : Nat} {value v : Node}
    (h : value.Becomes (depth + 1) s q v) : ∃ r, (e.binding value).Becomes (depth + 1) s q r := by
  have hmath : s.mathOf e.name = s.math := by
    refine if_neg fun hfont => ?_
    have hnamed := e.named
    rw [hfont.1] at hnamed
    exact absurd hnamed (by decide)
  refine Node.exists_becomes_declaration e.declared e.isVariable (v := v) ?_
  rw [hmath]
  exact h

/-- A ruleset and a scope in which the variable may hold a plain ruleset or a detached one.  The
variables in `held`, among which is this one, may have any values, but the others have flat ones.
The other rules keep no frames. -/
structure Fits (held : List String) (s : Scope) : Prop where
  nonempty : s.frames ≠ []
  frames : ∀ f ∈ s.frames, f.Holds (· ∉ held) (Node.Throughout Node.IsFlat)
  name_mem : e.name ∈ held
  fresh : e.name ∉ s.resolving
  others : ∀ rule ∈ e.others, rule.Throughout Node.IsTransparent
  values : ∀ rule ∈ e.others, ∀ name v marker, name ∉ held →
    rule.bindingOf? name = some (v, marker) → v.Throughout Node.IsFlat

end Enclosure

namespace Enclosure.Fits

variable {e : Enclosure} {held : List String} {s : Scope} {body : Ruleset}

/-- The innermost frame has the built-in functions. -/
lemma functions? (h : e.Fits held s) : s.functions? = some .builtins :=
  Scope.functionTable_eq_ok_iff.1 (Scope.functionTable_of_holds h.frames h.nonempty)

/-- The variables that are not held back have flat values. -/
lemma offers (h : e.Fits held s) (body : Ruleset) :
    (e.guarded held body s).Offers held (Node.Throughout Node.IsFlat) := by
  have houter : Scope.Offers held (Node.Throughout Node.IsFlat)
      { s with resolving := held ++ s.resolving } :=
    ⟨h.frames, fun _ hname => List.mem_append_left _ hname⟩
  refine houter.inside h.nonempty fun rule hrule name v marker hname hbinding => ?_
  rcases List.mem_append.1 hrule with hother | hbody
  · exact h.values rule hother name v marker hname hbinding
  · rw [List.mem_singleton.1 hbody] at hbinding
    cases hbinding

/-- The scopes inside the ruleset share them with it, whatever the value of the variable is. -/
lemma shares (h : e.Fits held s) (body : Ruleset) (value : Node) {t : Scope}
    (hrest : t = { e.guarded held body s with frames := t.frames, resolving := t.resolving })
    (hframes : ∃ outer, t.frames = s.frameOf (e.ruleset value) :: (s.frames ++ outer))
    (hresolving : t.resolving ⊆ held ++ s.resolving) : (e.guarded held body s).Shares held t where
  rest := hrest
  nonempty := List.cons_ne_nil _ _
  frames := by
    have hholds : ∀ f ∈ (e.guarded held body s).frames,
        f.Holds (· ∉ held) (Node.Throughout Node.IsTransparent) := fun f hf =>
      ((h.offers body).frames f hf).imp fun _ hv => hv.imp fun _ hn => hn.isTransparent
    obtain ⟨hframe, houter⟩ := List.forall_mem_cons.1 hholds
    obtain ⟨outer, hframes⟩ := hframes
    rw [hframes]
    refine .cons ⟨hframe, rfl, fun name hname => ?_⟩ (.append houter outer)
    exact e.declared?_of_ne (ne_of_mem_of_not_mem h.name_mem hname).symm value body s
  resolving := hresolving
  refused := (h.offers body).refused

section Rules

variable {q : Queries} {depth : Nat} {value n v : Node} (h : e.Fits held s)
  (hn : n.Throughout Node.IsTransparent)
  (hv : n.Becomes depth (e.guarded held body s) q v)

include h hn hv

/-- What is evaluated while variables are held back is evaluated to the same in the ruleset. -/
lemma becomes_inside : n.Becomes depth (s.inside (.ruleset (e.ruleset value))) q v := by
  refine hv.of_shares (h.shares body value rfl ⟨[], ?_⟩ ?_) hn
  · rw [List.append_nil]
    rfl
  · exact List.subset_append_right held s.resolving

/-- So it is where the variable is looked up. -/
lemma becomes_lookup :
    n.Becomes depth ((s.inside (.ruleset (e.ruleset value))).enterVariable e.name) q v := by
  refine hv.of_shares (h.shares body value rfl ⟨[], ?_⟩ ?_) hn
  · rw [List.append_nil]
    rfl
  · exact List.cons_subset.2 ⟨List.mem_append_left _ h.name_mem,
      List.subset_append_right held s.resolving⟩

/-- So it is where a detached ruleset in the variable is called. -/
lemma becomes_captured : n.Becomes depth ((s.inside (.ruleset (e.ruleset value))).captured
    (some (s.inside (.ruleset (e.ruleset value))).frames)) q v := by
  refine hv.of_shares (h.shares body value rfl ⟨_, rfl⟩ ?_) hn
  exact List.subset_append_right held s.resolving

end Rules

section Comparison

variable {q : Queries} {depth : Nat}

/-- If the ruleset is evaluated while variables are held back, so are the other rules, and the
ruleset among them is evaluated to one of settled rules. -/
lemma exists_of_guard (h : e.Fits held s) (hbody : ∀ rule ∈ body.rules, rule.IsFlatRule)
    {rest : Node} (hrest : ((Node.eval (depth + 1) (.ruleset (e.rest body)) : Scoped Node)
      { s with resolving := held ++ s.resolving } q).result = .ok rest)
    (hfilled : rest.Throughout Node.IsFilled) :
    (∀ rule ∈ e.others, ∃ v, rule.Becomes (depth + 1) (e.guarded held body s) q v) ∧
      ∃ first : Ruleset,
        (Node.ruleset body).Becomes (depth + 1) (e.guarded held body s) q (.ruleset first) ∧
        ∀ rule ∈ first.rules, rule.IsSettled ((e.guarded held body s).inside (.ruleset body)) := by
  have hoffers := h.offers body
  have hne : (e.guarded held body s).frames ≠ [] := List.cons_ne_nil _ _
  have htransparent : ∀ rule ∈ e.others ++ [.ruleset body], rule.Throughout Node.IsTransparent := by
    refine List.forall_mem_append.2 ⟨h.others, List.forall_mem_singleton.2 ?_⟩
    exact Ruleset.isTransparent_of_flat hbody
  obtain ⟨value, hvalue, rfl⟩ := Node.exists_becomes_of_eval_ruleset (fun rule hrule v hv =>
    Node.becomes_of_shares (hoffers.shares hne) (htransparent rule hrule) hv) hrest
  refine ⟨fun rule hrule => ⟨_, hvalue rule (List.mem_append_left _ hrule)⟩, ?_⟩
  have hmem : Node.ruleset body ∈ e.others ++ [.ruleset body] := by simp
  have hfirst := hvalue _ hmem
  have hchild : (value (.ruleset body)).Throughout Node.IsFilled :=
    hfilled.child (List.mem_flatMap.2 ⟨_, hmem, List.mem_singleton_self _⟩)
  obtain ⟨info, selectors, rules, root⟩ := body
  obtain ⟨settled, heq, hsettled⟩ := hoffers.exists_settled hne hbody hfirst.1 hchild
  rw [heq] at hfirst
  exact ⟨_, hfirst, hsettled⟩

/-- A call of the variable contributes the same rules, whether the variable holds a plain ruleset or
a detached one. -/
lemma exists_of_call (h : e.Fits held s) (hbody : ∀ rule ∈ body.rules, rule.IsFlatRule)
    (kept : Info) {first : Ruleset}
    (hfirst : (Node.ruleset body).Becomes (depth + 1) (e.guarded held body s) q (.ruleset first))
    (hsettled : ∀ rule ∈ first.rules,
      rule.IsSettled ((e.guarded held body s).inside (.ruleset body)))
    {rule : Node} (hcall : e.isCall rule) :
    ∃ v v', rule.Becomes (depth + 2) (s.inside (.ruleset (e.ruleset (.ruleset body)))) q v ∧
      rule.Becomes (depth + 2)
        (s.inside (.ruleset (e.ruleset (.detached kept (some body) none)))) q v' ∧
      rule.splice v' = rule.splice v := by
  cases rule with
  | variableCall info name =>
    obtain rfl : name = e.name := eq_of_beq hcall
    obtain ⟨own, selectors, rules, root⟩ := first
    have htable : Scope.functionTable ((s.inside (.ruleset (e.ruleset (.ruleset body)))).inside
        (.ruleset (.mk own selectors rules root))) = .ok .builtins :=
      Scope.functionTable_eq_ok_iff.2 h.functions?
    have hflat := Ruleset.isTransparent_of_flat hbody
    -- what the variable holds is called, so its rules are evaluated once more
    have hagain : (Node.ruleset (.mk own selectors rules root)).Becomes (depth + 1)
        (s.inside (.ruleset (e.ruleset (.ruleset body)))) q _ :=
      Ruleset.becomes_of_isSettled htable (fun rule hrule => (hsettled rule hrule).outward
        ⟨rfl, id, id, fun _ => List.cons_ne_nil _ _⟩) depth q
    have hfresh : ∀ value, e.name ∉ (s.inside (.ruleset (e.ruleset value))).resolving :=
      fun _ => h.fresh
    have hplain := Node.becomes_plain_call info (Nat.le_of_eq e.named) (hfresh (.ruleset body))
      (e.lookup?_name (.ruleset body) s) (h.becomes_lookup hflat hfirst) hagain
    have hdetached := Node.becomes_detached_call info (Nat.le_of_eq e.named)
      (hfresh (.detached kept (some body) none))
      (e.lookup?_name (.detached kept (some body) none) s) (h.becomes_captured hflat hfirst)
    exact ⟨_, _, hplain, hdetached, rfl⟩
  | _ => cases hcall

/-- What a rule before or after the declaration contributes does not depend on the kind of the
ruleset in the variable. -/
lemma exists_of_around (h : e.Fits held s) (hbody : ∀ rule ∈ body.rules, rule.IsFlatRule)
    (kept : Info) {first : Ruleset}
    (hothers : ∀ rule ∈ e.others, ∃ v, rule.Becomes (depth + 1) (e.guarded held body s) q v)
    (hfirst : (Node.ruleset body).Becomes (depth + 1) (e.guarded held body s) q (.ruleset first))
    (hsettled : ∀ rule ∈ first.rules,
      rule.IsSettled ((e.guarded held body s).inside (.ruleset body)))
    {rule : Node} (hrule : rule ∈ e.before ∨ rule ∈ e.after) :
    ∃ v v', rule.Becomes (depth + 2) (s.inside (.ruleset (e.ruleset (.ruleset body)))) q v ∧
      rule.Becomes (depth + 2)
        (s.inside (.ruleset (e.ruleset (.detached kept (some body) none)))) q v' ∧
      rule.splice v' = rule.splice v := by
  cases hcall : e.isCall rule with
  | true => exact h.exists_of_call hbody kept hfirst hsettled hcall
  | false =>
    have hother : rule ∈ e.others := by simpa [Enclosure.others, hcall] using hrule
    obtain ⟨v, hv⟩ := hothers rule hother
    have htransparent := h.others rule hother
    exact ⟨v, v, (h.becomes_inside htransparent hv).succ, (h.becomes_inside htransparent hv).succ,
      rfl⟩

/-- If the ruleset is evaluated while variables are held back, it is evaluated with a plain ruleset
in the variable and with a detached one, and prints the same. -/
lemma exists_printsAs (h : e.Fits held s) (hbody : ∀ rule ∈ body.rules, rule.IsFlatRule)
    (kept : Info) (style : Style) {rest : Node}
    (hrest : ((Node.eval (depth + 1) (.ruleset (e.rest body)) : Scoped Node)
      { s with resolving := held ++ s.resolving } q).result = .ok rest)
    (hfilled : rest.Throughout Node.IsFilled) :
    ∃ plain detached : Ruleset,
      (Node.ruleset (e.ruleset (.ruleset body))).Becomes (depth + 2) s q (.ruleset plain) ∧
      (Node.ruleset (e.ruleset (.detached kept (some body) none))).Becomes (depth + 2) s q
        (.ruleset detached) ∧ plain.PrintsAs style detached := by
  obtain ⟨hothers, first, hfirst, hsettled⟩ := h.exists_of_guard hbody hrest hfilled
  have haround := fun rule (hrule : rule ∈ e.before ∨ rule ∈ e.after) =>
    h.exists_of_around hbody kept hothers hfirst hsettled hrule
  have hmem : ∀ rule, rule ∈ e.before ∨ rule ∈ e.after →
      rule ∈ e.before ++ [e.binding (.ruleset body)] ++ e.after := by
    intro rule hrule
    rw [List.mem_append, List.mem_append]
    exact hrule.imp_left .inl
  -- the declarations of the variable are evaluated, but not printed
  obtain ⟨bound, hbound⟩ := e.exists_becomes_binding (h.becomes_inside
    (Ruleset.isTransparent_of_flat hbody) hfirst).succ
  have hdetached : (Node.detached kept (some body) none).Becomes (depth + 2)
      (s.inside (.ruleset (e.ruleset (.detached kept (some body) none)))) q _ := ⟨rfl, rfl⟩
  obtain ⟨bound', hbound'⟩ := e.exists_becomes_binding hdetached
  have hplain : ∀ rule ∈ e.before ++ [e.binding (.ruleset body)] ++ e.after, ∃ v,
      rule.Becomes (depth + 2) (s.inside (.ruleset (e.ruleset (.ruleset body)))) q v := by
    intro rule hrule
    rw [List.mem_append, List.mem_append, List.mem_singleton] at hrule
    rcases hrule with (hbefore | rfl) | hafter
    · exact (haround rule (.inl hbefore)).imp fun v ⟨_, hv, _⟩ => hv
    · exact ⟨bound, hbound⟩
    · exact (haround rule (.inr hafter)).imp fun v ⟨_, hv, _⟩ => hv
  choose! value hvalue using hplain
  have hcontributes : ∀ rule, rule ∈ e.before ∨ rule ∈ e.after → ∃ v, rule.Becomes (depth + 2)
      (s.inside (.ruleset (e.ruleset (.detached kept (some body) none)))) q v ∧
        Node.PrintAlike style (rule.splice (value rule)) (rule.splice v) := by
    intro rule hrule
    obtain ⟨v, v', hv, hv', hsplice⟩ := haround rule hrule
    rw [(hvalue rule (hmem rule hrule)).unique hv, ← hsplice]
    exact ⟨v', hv', .of_core_eq rfl⟩
  have hbindings : Node.PrintAlike style (Node.contributions [e.binding (.ruleset body)] value)
      (Node.contributions [e.binding (.detached kept (some body) none)] fun _ => bound') :=
    .bindings (Node.isBinding_of_eval (e.isBinding_binding _) (hvalue _ (by simp)).1)
      (Node.isBinding_of_eval (e.isBinding_binding _) hbound'.1)
  obtain ⟨value', hvalue', hprint⟩ := Node.exists_becomes_of_replaced hcontributes
    (List.forall_mem_singleton.2 hbound') hbindings
  exact ⟨_, _, Node.becomes_ruleset hvalue, Node.becomes_ruleset hvalue', hprint.printsAs _ _ _⟩

end Comparison

end Enclosure.Fits

/-- A call of a variable means the same whether the variable holds a plain ruleset or a detached
one, if the rules in it are flat.  Suppose that the other rules of the ruleset around, and the
called ruleset as one of them, are evaluated while the variable is held back, so that none of them
looks at it, and that no string is left with placeholders.  Then the ruleset around is evaluated
with a plain ruleset in the variable and with a detached one, and prints the same. -/
theorem Context.evaluate_plain_call (c : Context) (depth : Nat) (e : Enclosure) (body : Ruleset)
    (kept : Info) {held : List String} {rest : Node} (he : e.Fits held c.scope)
    (hbody : ∀ rule ∈ body.rules, rule.IsFlatRule)
    (hrest : (Context.evaluate { c with resolving := held ++ c.resolving } depth
      (.ruleset (e.rest body))).1 = .ok rest)
    (hfilled : rest.Throughout Node.IsFilled) :
    ∃ r r', (c.evaluate (depth + 1) (.ruleset (e.ruleset (.ruleset body)))).1 = .ok r ∧
      (c.evaluate (depth + 1) (.ruleset (e.ruleset (.detached kept (some body) none)))).1 = .ok r' ∧
      (c.evaluate (depth + 1) (.ruleset (e.ruleset (.detached kept (some body) none)))).2.render
          r' =
        (c.evaluate (depth + 1) (.ruleset (e.ruleset (.ruleset body)))).2.render r := by
  rw [Context.evaluate_eq] at hrest
  cases depth with
  | zero => cases hrest
  | succ depth =>
    obtain ⟨plain, detached, hplain, hdetached, hprints⟩ :=
      he.exists_printsAs hbody kept c.style hrest hfilled
    obtain ⟨r', hr', hrender⟩ := Context.exists_evaluate_of_becomes hplain hdetached hprints
    refine ⟨.ruleset plain, r', ?_, hr', hrender⟩
    rw [Context.evaluate_eq]
    exact hplain.1

/-- A ruleset with a color and a variable that is called. -/
def callingEnclosure : Enclosure where
  info := {}
  selectors := [".a"]
  root := false
  before := [.declaration {} (.literal "@c") (.keyword {} "red") { isVariable := true }]
  declared := {}
  name := "@r"
  traits := { isVariable := true }
  after := [.variableCall {} "@r", .declaration {} (.literal "border") (.variableRef {} "@c") {}]
  named := by decide
  isVariable := rfl
  last := by decide

/-- A property that has the color. -/
def coloredRule : Node :=
  .declaration {} (.literal "color") (.variableRef {} "@c") {}

/-- A property that has a string with the color. -/
def labelRule : Node :=
  .declaration {} (.literal "content") (.quoted {} '"' "is @\x7bc\x7d" false) {}

/-- The variable is held back. -/
lemma callingEnclosure_fits : callingEnclosure.Fits ["@r"] bareContext.scope where
  nonempty := List.cons_ne_nil _ _
  frames := List.forall_mem_singleton.2 ⟨rfl, nofun⟩
  name_mem := by decide
  fresh := by decide
  others := by decide
  values rule hrule name v marker _ hbinding := by
    have hrules : ∀ rule ∈ callingEnclosure.others, rule.IsFlatRule := by decide
    exact (hrules rule hrule).of_bindingOf? hbinding

/-- The rules are called alike in a plain ruleset and in a detached one. -/
theorem evaluate_plain_call_coloredRule :
    ∃ r r', (bareContext.evaluate 4 (.ruleset (callingEnclosure.ruleset
        (.ruleset (.ofRules [] [coloredRule, labelRule]))))).1 = .ok r ∧
      (bareContext.evaluate 4 (.ruleset (callingEnclosure.ruleset
        (.detached {} (some (.ofRules [] [coloredRule, labelRule])) none)))).1 = .ok r' ∧
      (bareContext.evaluate 4 (.ruleset (callingEnclosure.ruleset
        (.detached {} (some (.ofRules [] [coloredRule, labelRule])) none)))).2.render r' =
      (bareContext.evaluate 4 (.ruleset (callingEnclosure.ruleset
        (.ruleset (.ofRules [] [coloredRule, labelRule]))))).2.render r := by
  have hguarded : (Context.evaluate { bareContext with resolving := ["@r"] } 3
      (.ruleset (callingEnclosure.rest (.ofRules [] [coloredRule, labelRule])))).1.toOption.any
        (fun rest => decide (rest.Throughout Node.IsFilled)) = true := by
    decide +kernel
  cases hrest : (Context.evaluate { bareContext with resolving := ["@r"] } 3
      (.ruleset (callingEnclosure.rest (.ofRules [] [coloredRule, labelRule])))).1 with
  | error halt => simp [hrest, Except.toOption] at hguarded
  | ok rest =>
    have hfilled : rest.Throughout Node.IsFilled := by
      simpa [hrest, Except.toOption] using hguarded
    exact bareContext.evaluate_plain_call 3 callingEnclosure (.ofRules [] [coloredRule, labelRule])
      {} callingEnclosure_fits (by decide) hrest hfilled

/-- The selectors in a plain ruleset are combined with those around it when the variable is looked
up and again when its value is called. -/
theorem nested_selectors_combined_again :
    ¬ ∀ (c : Context) (depth : Nat) (e : Enclosure) (body : Ruleset) (kept : Info),
      (∀ f ∈ c.frames, f.Fits FunctionTable.IsNative Node.IsStateless) →
      (Node.ruleset body).Throughout Node.IsStateless → body.selectors = [] →
      ∀ r r', (c.evaluate depth (.ruleset (e.ruleset (.ruleset body)))).1 = .ok r →
        (c.evaluate depth (.ruleset (e.ruleset (.detached kept (some body) none)))).1 = .ok r' →
        ((c.evaluate depth (.ruleset (e.ruleset (.detached kept (some body) none)))).2.render
            r').text =
          ((c.evaluate depth (.ruleset (e.ruleset (.ruleset body)))).2.render r).text := by
  intro h
  let body : Ruleset := .ofRules [] [.ruleset (.ofRules [".b"] [coloredRule])]
  have hplain : ((bareContext.evaluate 5 (.ruleset (callingEnclosure.ruleset
      (.ruleset body)))).1.toOption.bind fun r => ((bareContext.evaluate 5 (.ruleset
        (callingEnclosure.ruleset (.ruleset body)))).2.render r).text.toOption) =
          some ".a \x7b\n  border: red;\n\x7d\n\n.a .a .a .b \x7b\n  color: red;\n\x7d" := by
    decide +kernel
  have hdetached : ((bareContext.evaluate 5 (.ruleset (callingEnclosure.ruleset
      (.detached {} (some body) none)))).1.toOption.bind fun r => ((bareContext.evaluate 5 (.ruleset
        (callingEnclosure.ruleset (.detached {} (some body) none)))).2.render r).text.toOption) =
          some ".a \x7b\n  border: red;\n\x7d\n\n.a .b \x7b\n  color: red;\n\x7d" := by
    decide +kernel
  obtain ⟨r, hr, htext⟩ := Context.exists_of_printed hplain
  obtain ⟨r', hr', htext'⟩ := Context.exists_of_printed hdetached
  have hsame := h bareContext 5 callingEnclosure body {} bareContext_fits (by decide) rfl r r' hr
    hr'
  rw [hsame, htext] at htext'
  exact absurd htext' (by decide)

end Cascade
