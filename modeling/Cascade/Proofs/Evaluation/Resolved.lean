import Mathlib.Logic.Relation
import Cascade.Proofs.Evaluation.Inheritance
import Cascade.Proofs.Evaluation.InPlace
import Cascade.Proofs.Evaluation.Invariant

/-!
# Results are resolved

A reference to a variable, a call of a variable, a comparison, a script and a name with parts to
be filled in only make sense before evaluation: most of them are printed as nothing at all.  A
result contains none of them (`Context.resolved_of_evaluate`), apart from the detached rulesets,
whose bodies are evaluated when they are called.

The condition of a query contains what its state holds, and its state is shared and changes while
other nodes are evaluated.  So what a node contains depends on the states, and what is resolved
has to stay so when a condition is evaluated again.  Only the candidates that a condition collected
before the evaluation are left alone by it; the first of them is its middle, though, so this one
is expected to be resolved.  Each evaluation with built-in functions leaves the states in this way,
but one with a function of the caller need not (`unresolved_of_earlier_run`).
-/

namespace Cascade

/-! ### What a node contains -/

/-- A node that can be part of a result. -/
def Node.IsResolved : Node → Prop
  | .variableRef .. | .variableCall .. | .condition .. | .javaScript .. => False
  | .declaration _ (.interpolated _) _ _ => False
  | _ => True

namespace Queries

/-- The number of candidates that a condition has collected. -/
def collected (q : Queries) (id : QueryId) : Nat :=
  (q[id]?.map fun state => state.candidates.length).getD 0

section Inside

variable (q : Queries) (old : QueryId → Nat)

/-- What a condition contains: its sides, and the candidates that came after the old ones. -/
def contents (id : QueryId) : List Node :=
  (q[id]?.map fun state => state.sides ++ state.candidates.drop (old id)).getD []

/-- The nodes directly inside a node. -/
def inside (n : Node) : List Node :=
  n.children ++ n.queryOf.flatMap (q.contents old)

/-- A node contains another one, at any depth. -/
def Contains : Node → Node → Prop :=
  Relation.ReflTransGen fun a b => b ∈ q.inside old a

/-- All that a node contains is resolved. -/
def Settles (n : Node) : Prop :=
  ∀ x, q.Contains old n x → x.IsResolved

end Inside

variable {q : Queries} {old : QueryId → Nat} {n : Node}

/-- A node is resolved together with what is directly inside it. -/
lemma settles_iff :
    q.Settles old n ↔ n.IsResolved ∧ ∀ c ∈ q.inside old n, q.Settles old c := by
  constructor
  · intro h
    exact ⟨h n .refl, fun c hc x hx => h x (.head hc hx)⟩
  · rintro ⟨hn, hinside⟩ x hx
    rcases Relation.ReflTransGen.cases_head hx with rfl | ⟨c, hc, hx⟩
    · exact hn
    · exact hinside c hc x hx

/-- Conditions may contain themselves, so that a node is resolved is shown by a property that
passes to what is inside a node. -/
lemma settles_of_forall {S : Node → Prop} (hresolved : ∀ n, S n → n.IsResolved)
    (hinside : ∀ n, S n → ∀ c ∈ q.inside old n, S c) (hn : S n) : q.Settles old n := by
  intro x hx
  refine hresolved x ?_
  induction hx with
  | refl => exact hn
  | tail _ hstep ih => exact hinside _ ih _ hstep

/-- A node that is no condition is resolved together with its parts. -/
lemma settles_of_children (hquery : n.queryOf = []) (hn : n.IsResolved)
    (hchildren : ∀ c ∈ n.children, q.Settles old c) : q.Settles old n :=
  settles_iff.2 ⟨hn, by simpa [inside, hquery] using hchildren⟩

/-- It is enough to look at fewer candidates. -/
lemma settles_of_le {old' : QueryId → Nat} (hn : q.Settles old n)
    (h : ∀ {id : QueryId} {state : Query}, q[id]? = some state → old id ≤ old' id) :
    q.Settles old' n := by
  refine settles_of_forall (S := q.Settles old) (fun n hn => (settles_iff.1 hn).1) ?_ hn
  intro n hn c hc
  refine (settles_iff.1 hn).2 c ?_
  simp only [inside, List.mem_append, List.mem_flatMap] at hc ⊢
  refine hc.imp_right fun ⟨id, hid, hc⟩ => ⟨id, hid, ?_⟩
  cases hstate : q[id]? with
  | none => simp [contents, hstate] at hc
  | some state =>
    simp only [contents, hstate, Option.map_some, Option.getD_some, List.mem_append] at hc ⊢
    exact hc.imp_right fun hc => List.drop_subset_drop_left _ (h hstate) hc

/-- A list around a value. -/
lemma settles_asValue (hn : q.Settles old n) : q.Settles old n.asValue := by
  rcases Node.asValue_cases n with heq | heq
  · rwa [heq]
  · rw [heq]
    exact settles_of_children rfl trivial (by simpa [Node.children] using hn)

/-- A condition without a state contains nothing. -/
lemma settles_dangling {id : QueryId} (h : q[id]? = none) (info : Info) :
    q.Settles old (.query info id) :=
  settles_iff.2 ⟨trivial, by simp [inside, contents, Node.children, Node.queryOf, h]⟩

end Queries

/-- What is put together is resolved at the top, and it is no condition. -/
lemma Node.Yields.isResolved {Result : Node → Prop} {s : Scope} {n r : Node}
    (h : Node.Yields Result s n r) : r.IsResolved ∧ r.queryOf = [] := by
  cases h with
  | calculated h => cases h.calculated <;> exact ⟨trivial, rfl⟩
  | _ => exact ⟨trivial, rfl⟩

/-! ### What changes in the states -/

namespace Query

variable {state : Query} {left n : Node} {middle right : Option Node} {found : List Node} {k : Nat}

/-- The first candidate, and the candidates that came after the old ones. -/
def current (state : Query) (k : Nat) : List Node :=
  state.candidates.head?.toList ++ state.candidates.drop k

/-- The recorded candidates. -/
lemma mem_current_record (hk : k ≤ state.candidates.length)
    (hn : n ∈ (state.record left middle right found).current k) :
    n ∈ state.current k ∨ n ∈ found := by
  simp only [current, record, List.head?_append, List.drop_append_of_le_length hk,
    List.mem_append, Option.mem_toList, Option.or_eq_some_iff] at hn ⊢
  rcases hn with (hn | ⟨_, hn⟩) | hn | hn
  · exact .inl (.inl hn)
  · exact .inr (List.mem_of_mem_head? hn)
  · exact .inl (.inr hn)
  · exact .inr hn

end Query

namespace Queries

/-- The states of conditions while a node is evaluated: they carry built-in functions only, no
candidate is lost, and the first candidates and the new ones are resolved. -/
structure Sound (old : QueryId → Nat) (q : Queries) : Prop where
  native : ∀ state ∈ q, state.Throughout Node.IsNative
  old_le : ∀ {id : QueryId} {state : Query}, q[id]? = some state →
    old id ≤ state.candidates.length
  current : ∀ {id : QueryId} {state : Query}, q[id]? = some state →
    ∀ n ∈ state.current (old id), q.Settles old n

variable {q : Queries} {old : QueryId → Nat} {id : QueryId} {f : Query → Query}

/-- A changed state comes from the state before. -/
lemma getElem?_modify_cases {j : QueryId} {state : Query}
    (h : (q.modify id f)[j]? = some state) :
    ∃ before, q[j]? = some before ∧ (j = id ∧ state = f before ∨ state = before) := by
  rw [List.getElem?_modify] at h
  obtain ⟨before, hbefore, rfl⟩ := Option.map_eq_some_iff.1 h
  refine ⟨before, hbefore, ?_⟩
  split
  · next heq => exact .inl ⟨heq.symm, rfl⟩
  · exact .inr rfl

/-- A change that puts only resolved nodes into a condition. -/
structure Refines (old : QueryId → Nat) (q : Queries) (id : QueryId) (f : Query → Query) :
    Prop where
  native : ∀ state, state.Throughout Node.IsNative → (f state).Throughout Node.IsNative
  length_le : ∀ state : Query, state.candidates.length ≤ (f state).candidates.length
  sides : ∀ {state : Query}, q[id]? = some state →
    ∀ n ∈ (f state).sides, n ∈ state.sides ∨ q.Settles old n
  candidates : ∀ {state : Query}, q[id]? = some state →
    ∀ n ∈ (f state).current (old id), n ∈ state.current (old id) ∨ q.Settles old n

/-- All that was resolved stays so. -/
lemma Sound.settles_modify (h : Sound old q) (hf : Refines old q id f) {n : Node}
    (hn : q.Settles old n) : Queries.Settles (q.modify id f) old n := by
  refine settles_of_forall (S := q.Settles old) (fun n hn => (settles_iff.1 hn).1) ?_ hn
  intro n hn c hc
  have hinside := (settles_iff.1 hn).2
  rcases List.mem_append.1 hc with hchild | hc
  · exact hinside c (List.mem_append_left _ hchild)
  obtain ⟨j, hj, hc⟩ := List.mem_flatMap.1 hc
  have hcontents (hc : c ∈ q.contents old j) : q.Settles old c :=
    hinside c (List.mem_append_right _ (List.mem_flatMap.2 ⟨j, hj, hc⟩))
  cases hstate : (q.modify id f)[j]? with
  | none => simp [contents, hstate] at hc
  | some state =>
    obtain ⟨before, hbefore, hchange⟩ := getElem?_modify_cases hstate
    simp only [contents, hstate, hbefore, Option.map_some, Option.getD_some,
      List.mem_append] at hc hcontents
    rcases hchange with ⟨rfl, rfl⟩ | rfl
    · rcases hc with hc | hc
      · exact (hf.sides hbefore c hc).elim (fun hc => hcontents (.inl hc)) id
      · exact (hf.candidates hbefore c (List.mem_append_right _ hc)).elim (h.current hbefore c) id
    · exact hcontents hc

/-- The states are sound after the change. -/
lemma Sound.modify (h : Sound old q) (hf : Refines old q id f) : Sound old (q.modify id f) where
  native := forall_modify h.native hf.native
  old_le hstate := by
    obtain ⟨before, hbefore, ⟨rfl, rfl⟩ | rfl⟩ := getElem?_modify_cases hstate
    · exact Nat.le_trans (h.old_le hbefore) (hf.length_le before)
    · exact h.old_le hbefore
  current hstate n hn := by
    refine h.settles_modify hf ?_
    obtain ⟨before, hbefore, ⟨rfl, rfl⟩ | rfl⟩ := getElem?_modify_cases hstate
    · exact (hf.candidates hbefore n hn).elim (h.current hbefore n) id
    · exact h.current hbefore n hn

/-- Fixing the template of a condition. -/
lemma refines_withTemplate : Refines old q id Query.withTemplate where
  native _ hstate := hstate.withTemplate
  length_le _ := Nat.le_refl _
  sides _ _ hn := .inl hn
  candidates _ _ hn := .inl hn

section Record

variable {left : Node} {middle right : Option Node} {found : List Node} (h : Sound old q)
  (hleft : left.Throughout Node.IsNative ∧ q.Settles old left)
  (hmiddle : ∀ r ∈ middle, r.Throughout Node.IsNative ∧ q.Settles old r)
  (hright : ∀ r ∈ right, r.Throughout Node.IsNative ∧ q.Settles old r)
  (hfound : ∀ r ∈ found, r.Throughout Node.IsNative ∧ q.Settles old r)

include h hleft hmiddle hright hfound

/-- All that a condition contains once results were recorded in it. -/
lemma Sound.settles_recorded {state : Query} (hstate : q[id]? = some state) {n : Node}
    (hn : n ∈ (state.record left middle right found).sides ∨
      n ∈ (state.record left middle right found).current (old id)) : q.Settles old n := by
  have hcurrent (hn : n ∈ (state.record left middle right found).current (old id)) :
      q.Settles old n :=
    (Query.mem_current_record (h.old_le hstate) hn).elim (h.current hstate n)
      fun hn => (hfound n hn).2
  rcases hn with hn | hn
  · rcases Query.mem_sides_record hn with rfl | hn | hn | hn
    · exact hleft.2
    · exact (hmiddle n hn).2
    · exact (hright n hn).2
    · exact hcurrent (List.mem_append_left _ (Option.mem_toList.2 hn))
  · exact hcurrent hn

/-- Recording results in a condition. -/
lemma Sound.refines_record :
    Refines old q id fun state => state.record left middle right found where
  native state hstate := hstate.record hleft.1 (fun r hr => (hmiddle r hr).1)
    (fun r hr => (hright r hr).1) (fun r hr => (hfound r hr).1)
  length_le state := by simp [Query.record]
  sides hstate _ hn :=
    .inr (h.settles_recorded hleft hmiddle hright hfound hstate (.inl hn))
  candidates hstate _ hn :=
    .inr (h.settles_recorded hleft hmiddle hright hfound hstate (.inr hn))

/-- A condition is resolved once results were recorded in it. -/
lemma Sound.settles_query (info : Info) :
    Queries.Settles (q.modify id fun state => state.record left middle right found) old
      (.query info id) := by
  refine settles_iff.2 ⟨trivial, fun c hc => ?_⟩
  refine h.settles_modify (h.refines_record hleft hmiddle hright hfound) ?_
  simp only [inside, Node.children, Node.queryOf, List.nil_append, List.flatMap_singleton, contents,
    List.getElem?_modify] at hc
  cases hstate : q[id]? with
  | none => simp [hstate] at hc
  | some state =>
    simp only [hstate, Option.map_eq_map, Option.map_some, if_true, Option.getD_some] at hc
    refine h.settles_recorded hleft hmiddle hright hfound hstate ?_
    exact (List.mem_append.1 hc).imp_right fun hc => List.mem_append_right _ hc

end Record

end Queries

/-! ### The invariant -/

namespace Correspondence

/-- What evaluation gives is resolved. -/
def resolution (old : QueryId → Nat) : Correspondence where
  Lax _ := False
  Halts _ := True
  Scopes s s' := s' = s ∧ s.Fits FunctionTable.IsNative Node.IsNative
  Inner s s' := s' = s ∧ s.Fits FunctionTable.IsNative Node.IsNative
  Source n := n.Throughout Node.IsNative
  Body n := n.Throughout Node.IsNative
  Result q n := n.Throughout Node.IsNative ∧ q.Settles old n
  States q := q.Sound old
  Grows q q' := ∀ n, q.Settles old n → q'.Settles old n
  lax_of_failed h := h.elim
  halts_failed _ := trivial
  grows_refl _ _ h := h
  grows_trans h₁ h₂ n hn := h₂ n (h₁ n hn)
  result_mono h hn := ⟨hn.1, h _ hn.2⟩

/-- Built-in functions are handed on to results, and what results contain is resolved. -/
lemma resolution_invariant (old : QueryId → Nat) :
    (resolution old).Invariant (Scope.Fits FunctionTable.IsNative Node.IsNative)
      (Scope.Fits FunctionTable.IsNative Node.IsNative) where
  scopes_iff := Iff.rfl
  inner_iff := Iff.rfl
  source_child hn hc := hn.child hc
  yields hs _ hn hr := by
    refine ⟨(Node.heritable_carries _).throughout_of_yields hs.frames hn (fun _ hv => hv.1) hr, ?_⟩
    obtain ⟨hresolved, hquery⟩ := hr.isResolved
    refine Queries.settles_of_children hquery hresolved fun c hc => ?_
    rcases hr.mem_children hc with hc | ⟨v, hv, rfl⟩
    · exact hc.2
    · exact Queries.settles_asValue hv.2
  result_rule hrs hc :=
    ⟨hrs.1.child hc, (Queries.settles_iff.1 hrs.2).2 _ (List.mem_append_left _ hc)⟩
  text _ _ _ _ _ _ := trivial
  enterParens hs := ⟨hs.frames, hs.custom⟩
  enterCall _ hs := ⟨hs.frames, hs.custom⟩
  setMath _ hs := ⟨hs.frames, hs.custom⟩
  ruleset hs hrs := ⟨(hs.pushRuleset hrs).frames, hs.custom⟩
  lookup hs _ hfound := ⟨hs.source_of_lookup? hfound, hs.enterBinding hfound⟩
  custom hs _ htable hfind hcustom := by
    rw [hs.custom_eq_none htable hfind] at hcustom
    cases hcustom
  body_string filled hn hspells := (Node.heritable_carries _).throughout_string filled hn hspells
  body_ruleset _ hrs := hrs.1
  body_detached _ hn := Node.Throughout.body hn.1
  captured hs _ hn := hs.pushCaptured (fun _ hn => hn) hn.1
  body_operand hq _ hstate hn :=
    hq.native _ (List.mem_of_getElem? hstate) _ (List.mem_append_left _ hn)
  narrow hs _ hd := hs.pushNarrow (Node.heritable_carries _) hd
  template hq _ :=
    ⟨fun _ hn => hq.settles_modify Queries.refines_withTemplate hn,
      hq.modify Queries.refines_withTemplate⟩
  record {q info id left middle right found} hq hn hleft hmiddle hright hfound := by
    have hrefines : q.Refines old id fun state => state.record left middle right found :=
      hq.refines_record hleft hmiddle hright hfound
    exact ⟨fun _ hn => hq.settles_modify hrefines hn, hq.modify hrefines,
      (Node.heritable_carries _).throughout_condition hn,
      hq.settles_query hleft hmiddle hright hfound _⟩
  dangling _ hn hnone :=
    ⟨(Node.heritable_carries _).throughout_condition hn, Queries.settles_dangling hnone _⟩

end Correspondence

namespace Queries

/-- The states of conditions between two evaluations: they carry built-in functions only, and the
first candidates are resolved. -/
structure Settled (q : Queries) : Prop where
  native : ∀ state ∈ q, state.Throughout Node.IsNative
  first : ∀ state ∈ q, ∀ n ∈ state.candidates.head?, q.Settles q.collected n

variable {q : Queries}

/-- The number of candidates of a condition that has a state. -/
lemma collected_eq {id : QueryId} {state : Query} (h : q[id]? = some state) :
    q.collected id = state.candidates.length := by
  simp [collected, h]

/-- When an evaluation begins, there are no new candidates. -/
lemma Settled.sound (h : q.Settled) : q.Sound q.collected where
  native := h.native
  old_le hstate := Nat.le_of_eq (collected_eq hstate)
  current hstate n hn := by
    refine h.first _ (List.mem_of_getElem? hstate) n ?_
    simpa [Query.current, collected_eq hstate] using hn

/-- When an evaluation ends, the new candidates become old ones. -/
lemma Sound.settled {old : QueryId → Nat} (h : q.Sound old) : q.Settled where
  native := h.native
  first state hstate n hn := by
    obtain ⟨id, hid⟩ := List.mem_iff_getElem?.1 hstate
    have hsettles := h.current hid n (List.mem_append_left _ (Option.mem_toList.2 hn))
    refine settles_of_le hsettles fun hstate => ?_
    rw [collected_eq hstate]
    exact h.old_le hstate

/-- Conditions that were never evaluated. -/
lemma settled_of_fresh (hnative : ∀ state ∈ q, state.Throughout Node.IsNative)
    (hfresh : ∀ state ∈ q, state.candidates = []) : q.Settled where
  native := hnative
  first state hstate n hn := by
    rw [hfresh state hstate] at hn
    cases hn

end Queries

/-- Where functions are built-in ones, a result contains no reference to a variable, no call of
one, no comparison, no script and no name to be filled in, and the states of the conditions are
left as they are expected to be. -/
theorem Context.resolved_of_evaluate (c : Context) (depth : Nat) (node : Node)
    (hframes : ∀ f ∈ c.frames, f.Fits FunctionTable.IsNative Node.IsNative)
    (hnode : node.Throughout Node.IsNative) (hqueries : c.queries.Settled) :
    (∀ r, (c.evaluate depth node).1 = .ok r →
      ∀ x, (c.evaluate depth node).2.queries.Contains c.queries.collected r x → x.IsResolved) ∧
      (c.evaluate depth node).2.queries.Settled := by
  have hscope : c.scope.Fits FunctionTable.IsNative Node.IsNative := .ofNative hframes
  have hmeets := (Correspondence.resolution_invariant c.queries.collected).lawful.eval trivial
    (fun hs => hs) (fun hn => hn) depth node c.queries hnode ⟨rfl, hscope⟩
  rw [Context.evaluate_eq]
  rcases hmeets hqueries.sound with ⟨_, _, hlax⟩ | hagree
  · exact hlax.elim
  · exact ⟨fun r hr => (hagree.post r hr).2, hagree.states.settled⟩

/-- A variable, a detached ruleset that refers to it, and a condition that compares with it. -/
def conditionContext : Context :=
  let traits : DeclarationTraits := { isVariable := true }
  let wide := .declaration {} (.literal "@w") (.keyword {} "wide") traits
  let body := .ofRules [] [.declaration {} (.literal "width") (.variableRef {} "@w") {}]
  let block := .declaration {} (.literal "@b") (.detached {} (some body) none) traits
  { frames := [.mk (some (.ofRules [] [wide, block])) (some .builtins)]
    queries := [.make ">=" (.keyword {} "width") (some (.variableRef {} "@w")) none] }

/-- A name to be filled in, a condition, and a call of a variable. -/
def conditionRules : Node :=
  let name := .interpolated [.keyword {} "max-", .keyword {} "width"]
  .ruleset (.ofRules ["a"]
    [.declaration {} name (.variableRef {} "@w") {}, .query {} 0, .variableCall {} "@b"])

/-- The rules are evaluated, and the result is resolved. -/
theorem resolved_conditionRules :
    ∃ r, (conditionContext.evaluate 3 conditionRules).1 = .ok r ∧
      ∀ x, (conditionContext.evaluate 3 conditionRules).2.queries.Contains
        conditionContext.queries.collected r x → x.IsResolved := by
  have hframes : ∀ f ∈ conditionContext.frames,
      f.Fits FunctionTable.IsNative Node.IsNative := by
    intro f hf
    rw [List.mem_singleton.1 hf]
    constructor <;> decide
  have hqueries : conditionContext.queries.Settled := by
    refine Queries.settled_of_fresh ?_ ?_ <;> intro state hstate <;>
      rw [List.mem_singleton.1 hstate]
    · decide
    · rfl
  have hresolved := conditionContext.resolved_of_evaluate 3 conditionRules hframes (by decide)
    hqueries
  have hok : (conditionContext.evaluate 3 conditionRules).1.isOk = true := by decide +kernel
  cases hr : (conditionContext.evaluate 3 conditionRules).1 with
  | error halt => simp [hr, Except.isOk, Except.toBool] at hok
  | ok r => exact ⟨r, rfl, hresolved.1 r hr⟩

/-- A variable, functions of some table, and a condition whose middle calls one of them.  What the
caller's function gives is the variable. -/
def laterContext (table : FunctionTable) : Context :=
  let wide := .declaration {} (.literal "@w") (.keyword {} "wide") { isVariable := true }
  { frames := [.mk (some (.ofRules [] [wide])) (some table)]
    queries := [.make ">=" (.keyword {} "width") (some (.makeCall {} "later" [])) none]
    custom := fun _ => some ⟨true, fun _ => pure (.variableRef {} "@w"),
      fun _ _ => .finish (pure (.variableRef {} "@w"))⟩ }

/-- The context with the built-in functions, after the condition was evaluated with the function of
the caller. -/
def laterRun : Context :=
  { laterContext .builtins with
    queries := ((laterContext (.single "later")).evaluate 2 (.query {} 0)).2.queries }

/-- Built-in functions are not enough: a first candidate that an earlier evaluation left unresolved
becomes the middle again. -/
theorem unresolved_of_earlier_run :
    ¬ ∀ (c : Context) (depth : Nat) (node : Node),
      (∀ f ∈ c.frames, f.Fits FunctionTable.IsNative Node.IsNative) →
      node.Throughout Node.IsNative → (∀ state ∈ c.queries, state.Throughout Node.IsNative) →
      ∀ r, (c.evaluate depth node).1 = .ok r →
        ∀ x, (c.evaluate depth node).2.queries.Contains c.queries.collected r x →
          x.IsResolved := by
  intro h
  have hframes : ∀ f ∈ laterRun.frames, f.Fits FunctionTable.IsNative Node.IsNative := by
    intro f hf
    rw [List.mem_singleton.1 hf]
    constructor <;> decide
  have hinside : .variableRef {} "@w" ∈
      (laterRun.evaluate 3 (.query {} 0)).2.queries.inside laterRun.queries.collected
        (.query {} 0) := by
    exact .tail _ (.head _)
  exact h laterRun 3 (.query {} 0) hframes (by decide) (by decide) (.query {} 0) rfl _
    (.single hinside)

end Cascade
