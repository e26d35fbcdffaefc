import Cascade.Proofs.Evaluation.Lockstep

/-!
# Evaluation respects correspondences

`Correspondence.Lawful` collects what a comparison of two evaluations has to satisfy: its sources
and results are closed under what evaluation does, its scopes agree on what nodes look at and stay
related where a part is evaluated in another scope, and the states of the query conditions develop
as it says.  Then corresponding resolvers give corresponding evaluations
(`Correspondence.Lawful.evalWith`).  Each law mentions the kind of node that needs it, so that it
is void for a comparison without such nodes.
-/

namespace Cascade

namespace Correspondence

/-- The comparison, with the node and the result of the second evaluation written out. -/
def simulation (K : Correspondence) : Simulation where
  Lax := K.Lax
  Halts := K.Halts
  Task s n s' n' := n' = n ∧ K.Scopes s s' ∧ K.Source n
  Value s n s' n' := n' = n ∧ K.Inner s s' ∧ K.Source n
  Body s n s' n' := n' = n ∧ K.Scopes s s' ∧ K.Body n
  Result q r r' := r' = r ∧ K.Result q r
  States := K.States
  Grows := K.Grows
  lax_of_failed := K.lax_of_failed
  halts_failed _ := K.halts_failed _
  grows_refl := K.grows_refl
  grows_trans := K.grows_trans
  result_mono hgrows hr := ⟨hr.1, K.result_mono hgrows hr.2⟩

/-- What a comparison of two evaluations has to satisfy. -/
structure Lawful (K : Correspondence) : Prop where
  source_child : ∀ {n c}, K.Source n → c ∈ n.children → K.Source c
  yields : ∀ {s s' q n r}, K.Scopes s s' → K.States q → K.Source n →
    Node.Yields (K.Result q) s n r → K.Result q r
  result_rule : ∀ {q rs c}, K.Result q (.ruleset rs) → c ∈ rs.rules → K.Result q c
  -- what nodes look at in their scope
  resolving : ∀ {s s'}, K.Scopes s s' →
    ((∀ name, K.Lax (.failed (.recursiveVariable name))) ∧ s'.resolving ⊆ s.resolving) ∨
      s'.resolving = s.resolving
  selectors : ∀ {s s'}, K.Scopes s s' → s'.selectors = s.selectors
  isMathOn : ∀ {s s'}, K.Scopes s s' → s'.isMathOn = s.isMathOn
  inCalc : ∀ {s s'}, K.Scopes s s' → s'.inCalc = s.inCalc
  scripts : ∀ {s s'}, K.Scopes s s' → s'.style.scripts = s.style.scripts
  frames : ∀ {s s' info body}, K.Scopes s s' → K.Source (.detached info body none) →
    s'.frames = s.frames
  functionTable : ∀ {s s'}, K.Scopes s s' →
    (∃ error, s.functionTable = .error error ∧ K.Lax (.failed error)) ∨
      s'.functionTable = s.functionTable
  negate : ∀ {s s' q info v a}, K.Scopes s s' → K.Source (.negative info v) → K.Result q a →
    Node.operate s' {} .mul false Node.minusOne a = Node.operate s {} .mul false Node.minusOne a
  operate : ∀ {s s' q info operator l r spaced a b}, K.Scopes s s' →
    K.Source (.operation info operator l r spaced) → K.Result q a → K.Result q b →
    Node.operate s' info operator spaced a b = Node.operate s info operator spaced a b
  text : ∀ {s s' q n v}, K.Scopes s s' → K.States q → K.Source n → n.Spells → K.Result q v →
    (∃ halt, v.css q s.style = .error halt ∧ K.Lax halt) ∨
      v.css q s'.style = v.css q s.style ∧ ∀ halt, v.css q s.style = .error halt → K.Halts halt
  -- the scopes of parts
  enterParens : ∀ {s s'}, K.Scopes s s' → K.Scopes s.enterParens s'.enterParens
  enterCall : ∀ {s s'} asCalc, K.Scopes s s' → K.Scopes (s.enterCall asCalc) (s'.enterCall asCalc)
  setMath : ∀ {s s'} property, K.Scopes s s' →
    K.Scopes (s.setMath (s.mathOf property)) (s'.setMath (s'.mathOf property))
  ruleset : ∀ {s s' rs}, K.Scopes s s' → K.Source (.ruleset rs) →
    K.Scopes
      ((s.pushFrame (s.frameOf rs)).setSelectors
        (Ruleset.combineSelectors s.selectors rs.selectors))
      ((s'.pushFrame (s'.frameOf rs)).setSelectors
        (Ruleset.combineSelectors s.selectors rs.selectors))
  -- variables
  lookup_none : ∀ {s s' name}, K.Scopes s s' → Frame.lookup? name s.frames = none →
    K.Lax (.failed (.undefinedVariable name)) ∨ Frame.lookup? name s'.frames = none
  lookup_some : ∀ {s s' name found}, K.Scopes s s' → name ∉ s.resolving →
    Frame.lookup? name s.frames = some found →
    ∃ found', Frame.lookup? name s'.frames = some found' ∧ found'.value = found.value ∧
      found'.important = found.important ∧ K.Source found.value ∧
      K.Inner ((s.enterVariable name).setFrames (s.bindingFrames found))
        ((s'.enterVariable name).setFrames (s'.bindingFrames found'))
  -- functions of the caller
  custom : ∀ {s s' info name args asCalc table key}, K.Scopes s s' →
    K.Source (.call info name args asCalc) →
    s.functionTable = .ok table → table.find? name = some (.custom key) →
    s'.custom key = s.custom key ∧ ∀ f, s.custom key = some f → ∀ q,
      (∀ values, (∀ v ∈ values, ∃ a, K.Result q a ∧ v = a.stripComments) →
        K.Meets s s' K.Result (Evaluation.foreign (f.call values))
          (Evaluation.foreign (f.call values)) q) ∧
      K.simulation.Follows s s' q (f.callRaw s.toSurroundings args)
        (f.callRaw s'.toSurroundings args)
  -- nodes that evaluation goes on with
  body_string : ∀ {info quote text escaped} filled, K.Source (.quoted info quote text escaped) →
    (Node.quoted info quote text escaped).Spells → K.Body (.quoted info quote filled escaped)
  body_ruleset : ∀ {q info name rs}, K.Source (.variableCall info name) →
    K.Result q (.ruleset rs) → K.Body (.ruleset rs)
  body_detached : ∀ {q info name i rs frames}, K.Source (.variableCall info name) →
    K.Result q (.detached i (some rs) frames) → K.Body (.ruleset rs)
  captured : ∀ {s s' q info name i body frames}, K.Scopes s s' →
    K.Source (.variableCall info name) → K.Result q (.detached i body (some frames)) →
    K.Scopes (s.setFrames (frames ++ s.frames)) (s'.setFrames (frames ++ s'.frames))
  -- query conditions
  body_operand : ∀ {q info id state n}, K.States q → K.Source (.query info id) →
    q[id]? = some state → n ∈ state.operands → K.Body n
  variablesInScope : ∀ {s s' info id}, K.Scopes s s' → K.Source (.query info id) →
    Resolver.variablesInScope s' = Resolver.variablesInScope s
  narrow : ∀ {s s' info id d}, K.Scopes s s' → K.Source (.query info id) →
    d ∈ Resolver.variablesInScope s →
    K.Scopes (s.pushFrame (Resolver.narrowFrame s d)) (s'.pushFrame (Resolver.narrowFrame s' d))
  template : ∀ {q info id}, K.States q → K.Source (.query info id) →
    K.Grows q (q.modify id Query.withTemplate) ∧ K.States (q.modify id Query.withTemplate)
  record : ∀ {q info id left middle right found}, K.States q → K.Source (.query info id) →
    K.Result q left → (∀ r, middle = some r → K.Result q r) →
    (∀ r, right = some r → K.Result q r) → (∀ r ∈ found, K.Result q r) →
    K.Grows q (q.modify id fun state => state.record left middle right found) ∧
      K.States (q.modify id fun state => state.record left middle right found) ∧
      K.Result (q.modify id fun state => state.record left middle right found)
        (.query info.snapshot id)
  dangling : ∀ {q info id}, K.States q → K.Source (.query info id) → q[id]? = none →
    K.Result q (.query info.snapshot id)

/-- Corresponding resolvers. -/
structure Resolves (K : Correspondence) (resolve resolve' : Resolver Scoped) : Prop where
  value : ∀ {n s s'} q, K.Source n → K.Inner s s' →
    K.Meets s s' K.Result (resolve.value n) (resolve'.value n) q
  body : ∀ {n s s'} q, K.Body n → K.Scopes s s' →
    K.Meets s s' K.Result (resolve.body n) (resolve'.body n) q

/-! ### The laws as those of a simulation -/

variable {K : Correspondence} {s s' : Scope} {q : Queries}

/-- Two evaluations have the same outcome if they end alike with equal values. -/
lemma simulation_meets_iff {α : Type} {P : Queries → α → Prop} {x y : Scoped α} :
    K.simulation.Meets s s' (fun q a b => b = a ∧ P q a) x y q ↔ K.Meets s s' P x y q := by
  refine forall_congr' fun _ => or_congr_right ⟨fun h => ?_, fun h => ?_⟩
  · have hresult := h.result
    refine ⟨?_, h.grows, h.states, fun a ha => ?_, fun halt hhalt => ?_⟩
    · have hsame : (y s' q).result = (x s q).result := by
        generalize (x s q).result = first at hresult ⊢
        generalize (y s' q).result = second at hresult ⊢
        cases hresult with
        | ok h => rw [h.1]
        | error => rfl
      show Outcome.mk (y s' q).result (y s' q).queries (y s' q).marker = x s q
      rw [hsame, h.queries, h.marker]
    · rw [ha] at hresult
      generalize (y s' q).result = second at hresult
      cases hresult with
      | ok h => exact h.2
    · rw [hhalt] at hresult
      generalize (y s' q).result = second at hresult
      cases hresult with
      | error h => exact h
  · rw [h.same]
    refine ⟨rfl, rfl, ?_, h.grows, h.states⟩
    cases hx : (x s q).result with
    | ok a => exact .ok ⟨rfl, h.post a hx⟩
    | error halt => exact .error (h.halts halt hx)

/-- The same computation ends alike with itself. -/
lemma simulation_ends {x : Except Error Node} (h : ∀ r, x = .ok r → K.Result q r) :
    K.simulation.Ends (K.simulation.Result q) x x :=
  .self (fun r hr => ⟨rfl, h r hr⟩) fun error _ => K.halts_failed error

/-- Procedures that finish with the same. -/
lemma simulation_finish {x : Eval Node}
    (h : K.Meets s s' K.Result (Evaluation.foreign x) (Evaluation.foreign x) q) :
    K.simulation.Follows s s' q (.finish x) (.finish x) :=
  .finish (simulation_meets_iff.2 h)

/-- Procedures that have the same argument evaluated and then go on alike. -/
lemma simulation_evaluate {position : Nat} {change change' : Surroundings → Surroundings}
    {next next' : Except Error Node → Procedure}
    (hscopes : K.Scopes s s' → K.Scopes (s.changeSurroundings change)
      (s'.changeSurroundings change'))
    (hnext : ∀ q' result, (∀ r, result = .ok r → K.Result q' r) →
      K.simulation.Follows s s' q' (next result) (next' result))
    (hfails : ∀ error, K.Lax (.failed error) → (next (.error error)).Fails) :
    K.simulation.Follows s s' q (.evaluate position change next)
      (.evaluate position change' next') := by
  refine .evaluate ?_ ?_ (hfails _)
  · exact fun ht => ⟨ht.1, hscopes ht.2.1, ht.2.2⟩
  · intro q' result result' _ _ hends
    cases hends with
    | @ok r r' hr =>
      obtain ⟨rfl, hr⟩ := hr
      refine hnext q' _ ?_
      rintro _ ⟨⟩
      exact hr
    | error _ => exact hnext q' _ nofun

/-- The same arguments of a function. -/
lemma simulation_argument {values values' : List Node}
    (h : List.Forall₂ (K.simulation.Argument q) values values') :
    List.Forall₂ (fun v v' => v' = v ∧ ∃ a, K.Result q a ∧ v = a.stripComments) values values' := by
  refine h.imp fun v v' hv => ?_
  obtain ⟨a, a', ⟨rfl, ha⟩, rfl, rfl⟩ := hv
  exact ⟨rfl, _, ha, rfl⟩

namespace Lawful

/-- The laws of a comparison of the same node are those of a simulation. -/
theorem simulation (h : K.Lawful) : K.simulation.Lawful where
  parts {s s' n n'} ht hdetached := by
    obtain ⟨rfl, hs, hn⟩ := ht
    refine ⟨n'.children, n'.withChildren_children.symm, List.forall₂_same.2 fun c hc => ?_⟩
    refine ⟨rfl, ?_, h.source_child hn hc⟩
    cases n' with
    | ruleset rs =>
      have hinside := h.ruleset hs hn
      unfold Scope.inside
      dsimp only
      rwa [h.selectors hs]
    | _ => exact hs
  detached {s s' info body frames n'} ht := by
    obtain ⟨rfl, hs, hn⟩ := ht
    refine ⟨body, frames, rfl, fun q hq => ⟨?_, h.yields hs hq hn .detached⟩⟩
    cases frames with
    | none => rw [Option.getD_none, Option.getD_none, h.frames hs hn]
    | some frames => rfl
  sameShape hr := hr.1 ▸ .refl _
  result_rules {q rs rs'} hr := by
    obtain ⟨hrs, hr⟩ := hr
    cases hrs
    exact List.forall₂_same.2 fun c hc => ⟨rfl, h.result_rule hr hc⟩
  yields {s s' q n n' r cs} ht hq hr _ hcs := by
    have hsame : cs = r.children :=
      Simulation.eq_of_pieces (K := K.simulation) (fun hresult => hresult.1) hcs
    refine ⟨by rw [hsame, Node.withChildren_children], h.yields ht.2.1 hq ht.2.2 (hr.imp ?_)⟩
    exact fun _ ⟨_, ha⟩ => ha.2
  function b ht hq hvalues := by
    obtain ⟨rfl, hvalues⟩ := eq_and_forall_of_forall₂ (simulation_argument hvalues)
    exact simulation_ends fun r hr =>
      h.yields ht.2.1 hq ht.2.2 (.calculated (.function b hvalues hr))
  negate ht hq hmath ha := by
    obtain ⟨rfl, ha⟩ := ha
    rw [h.negate ht.2.1 ht.2.2 ha]
    exact simulation_ends fun r hr => h.yields ht.2.1 hq ht.2.2 (.calculated (.negated hmath ha hr))
  operate ht hq ha hb := by
    obtain ⟨rfl, ha⟩ := ha
    obtain ⟨rfl, hb⟩ := hb
    rw [h.operate ht.2.1 ht.2.2 ha hb]
    exact simulation_ends fun r hr => h.yields ht.2.1 hq ht.2.2 (.calculated (.operation ha hb hr))
  truth _ ha hb := by rw [ha.1, hb.1]
  text ht hq hspells hv := by
    obtain ⟨rfl, hv⟩ := hv
    refine (h.text ht.2.1 hq ht.2.2 hspells hv).imp_right fun ⟨hsame, hhalts⟩ => ?_
    rw [hsame]
    exact .self (fun _ _ => rfl) hhalts
  resolving ht := h.resolving ht.2.1
  selectors ht := h.selectors ht.2.1
  isMathOn ht := h.isMathOn ht.2.1
  inCalc ht := h.inCalc ht.2.1
  scripts ht := h.scripts ht.2.1
  functionTable ht := h.functionTable ht.2.1
  enterParens ht := ⟨ht.1, h.enterParens ht.2.1, ht.2.2⟩
  enterCall asCalc ht := ⟨ht.1, h.enterCall asCalc ht.2.1, ht.2.2⟩
  setMath property ht := ⟨ht.1, h.setMath property ht.2.1, ht.2.2⟩
  guard _ _ _ := K.halts_failed _
  lookup_none ht _ hnone := h.lookup_none ht.2.1 hnone
  lookup_some ht _ hfresh hfound := by
    obtain ⟨found', hfound', hvalue, himportant, hsource, hinner⟩ :=
      h.lookup_some ht.2.1 hfresh hfound
    exact ⟨found', hfound', himportant, hvalue, hinner, hsource⟩
  custom {s s' info name args args' asCalc table key} ht htable hfind := by
    obtain ⟨hargs, hs, hn⟩ := ht
    cases hargs
    obtain ⟨hcustom, hforeign⟩ := h.custom hs hn htable hfind
    refine ⟨hcustom, fun f hf q => ⟨fun values values' hvalues => ?_, (hforeign f hf q).2⟩⟩
    obtain ⟨rfl, hvalues⟩ := eq_and_forall_of_forall₂ (simulation_argument hvalues)
    exact simulation_meets_iff.2 ((hforeign f hf q).1 _ hvalues)
  body_string filled ht hspells := ⟨rfl, ht.2.1, h.body_string filled ht.2.2 hspells⟩
  body_ruleset ht hr := ⟨hr.1, ht.2.1, h.body_ruleset ht.2.2 hr.2⟩
  body_detached {s s' q info name n' i body body' frames frames'} ht hr := by
    obtain ⟨heq, hr⟩ := hr
    cases heq
    cases body with
    | none => exact .none
    | some rs =>
      refine .some ⟨rfl, ?_, h.body_detached ht.2.2 hr⟩
      cases frames with
      | none => exact ht.2.1
      | some frames => exact h.captured ht.2.1 ht.2.2 hr
  body_operand ht hq hstate hn := ⟨rfl, ht.2.1, h.body_operand hq ht.2.2 hstate hn⟩
  recorded _ hr := hr.1
  variablesInScope ht := h.variablesInScope ht.2.1 ht.2.2
  narrow ht hd hbody := ⟨rfl, h.narrow ht.2.1 ht.2.2 hd, hbody.2.2⟩
  template ht hq := h.template hq ht.2.2
  record ht hq hleft hmiddle hright hfound := by
    obtain ⟨hgrows, hstates, hresult⟩ := h.record hq ht.2.2 hleft.2 (fun r hr => (hmiddle r hr).2)
      (fun r hr => (hright r hr).2) fun r hr => (hfound r hr).2
    exact ⟨hgrows, hstates, rfl, hresult⟩
  dangling ht hq hnone := ⟨rfl, h.dangling hq ht.2.2 hnone⟩

/-- Corresponding resolvers give corresponding evaluations. -/
theorem evalWith (h : K.Lawful) {resolve resolve' : Resolver Scoped}
    (hr : K.Resolves resolve resolve') (node : Node) :
    ∀ {s s'} q, K.Source node → K.Scopes s s' →
      K.Meets s s' K.Result (Node.evalWith resolve node) (Node.evalWith resolve' node) q := by
  intro s s' q hn hs
  have hresolves : K.simulation.Resolves resolve resolve' :=
    { value := fun {s s' n n'} q hn => by
        obtain ⟨rfl, hs, hn⟩ := hn
        exact simulation_meets_iff.2 (hr.value q hn hs)
      body := fun {s s' n n'} q hn => by
        obtain ⟨rfl, hs, hn⟩ := hn
        exact simulation_meets_iff.2 (hr.body q hn hs) }
  exact simulation_meets_iff.1 (h.simulation.evalWith hresolves node q ⟨rfl, hs, hn⟩)

/-- Evaluation at any depth, if running out of it is covered and nothing is asked of the scopes of
variables and of the nodes that evaluation goes on with. -/
theorem eval (h : K.Lawful) (hexhausted : K.Halts .exhausted)
    (hinner : ∀ {s s'}, K.Inner s s' → K.Scopes s s') (hbody : ∀ {n}, K.Body n → K.Source n)
    (depth : Nat) (node : Node) : ∀ {s s'} q, K.Source node → K.Scopes s s' →
      K.Meets s s' K.Result (Node.eval depth node) (Node.eval depth node) q := by
  intro s s' q hn hs
  refine simulation_meets_iff.1 (h.simulation.eval hexhausted ?_ ?_ depth node q ⟨rfl, hs, hn⟩)
  · exact fun hv => ⟨hv.1, hinner hv.2.1, hv.2.2⟩
  · exact fun hb => ⟨hb.1, hb.2.1, hbody hb.2.2⟩

end Lawful

end Correspondence

end Cascade
