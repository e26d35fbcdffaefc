import Cascade.Proofs.Evaluation.Laws

/-!
# Invariants of evaluation

A comparison of evaluations that start in the same scope says what such an evaluation gives and
what it depends on.  Then only the laws remain that concern one evaluation: what its scopes, its
sources, its results and the states of the query conditions are like.
-/

namespace Cascade

namespace Correspondence

/-- What a comparison of evaluations in the same scope has to satisfy.  The scopes in which nodes
are evaluated are good ones, those in which the values of variables are evaluated are inner
ones. -/
structure Invariant (K : Correspondence) (Good Inner : Scope → Prop) : Prop where
  scopes_iff : ∀ {s s'}, K.Scopes s s' ↔ s' = s ∧ Good s
  inner_iff : ∀ {s s'}, K.Inner s s' ↔ s' = s ∧ Inner s
  source_child : ∀ {n c}, K.Source n → c ∈ n.children → K.Source c
  yields : ∀ {s q n r}, Good s → K.States q → K.Source n → Node.Yields (K.Result q) s n r →
    K.Result q r
  result_rule : ∀ {q rs c}, K.Result q (.ruleset rs) → c ∈ rs.rules → K.Result q c
  text : ∀ {s q n v halt}, Good s → K.States q → K.Source n → n.Spells → K.Result q v →
    v.css q s.style = .error halt → K.Halts halt
  enterParens : ∀ {s}, Good s → Good s.enterParens
  enterCall : ∀ {s} asCalc, Good s → Good (s.enterCall asCalc)
  setMath : ∀ {s} math, Good s → Good (s.setMath math)
  ruleset : ∀ {s rs}, Good s → K.Source (.ruleset rs) →
    Good ((s.pushFrame (s.frameOf rs)).setSelectors
      (Ruleset.combineSelectors s.selectors rs.selectors))
  lookup : ∀ {s name found}, Good s → name ∉ s.resolving →
    Frame.lookup? name s.frames = some found →
    K.Source found.value ∧ Inner ((s.enterVariable name).setFrames (s.bindingFrames found))
  custom : ∀ {s info name args asCalc table key f}, Good s →
    K.Source (.call info name args asCalc) →
    s.functionTable = .ok table → table.find? name = some (.custom key) →
    s.custom key = some f → ∀ q,
      (∀ values, (∀ v ∈ values, ∃ a, K.Result q a ∧ v = a.stripComments) →
        K.Meets s s K.Result (Evaluation.foreign (f.call values))
          (Evaluation.foreign (f.call values)) q) ∧
      K.simulation.Follows s s q (f.callRaw s.toSurroundings args)
        (f.callRaw s.toSurroundings args)
  body_string : ∀ {info quote text escaped} filled, K.Source (.quoted info quote text escaped) →
    (Node.quoted info quote text escaped).Spells → K.Body (.quoted info quote filled escaped)
  body_ruleset : ∀ {q info name rs}, K.Source (.variableCall info name) →
    K.Result q (.ruleset rs) → K.Body (.ruleset rs)
  body_detached : ∀ {q info name i rs frames}, K.Source (.variableCall info name) →
    K.Result q (.detached i (some rs) frames) → K.Body (.ruleset rs)
  captured : ∀ {s q info name i body frames}, Good s → K.Source (.variableCall info name) →
    K.Result q (.detached i body (some frames)) → Good (s.setFrames (frames ++ s.frames))
  body_operand : ∀ {q info id state n}, K.States q → K.Source (.query info id) →
    q[id]? = some state → n ∈ state.operands → K.Body n
  narrow : ∀ {s info id d}, Good s → K.Source (.query info id) →
    d ∈ Resolver.variablesInScope s → Good (s.pushFrame (Resolver.narrowFrame s d))
  template : ∀ {q info id}, K.States q → K.Source (.query info id) →
    K.Grows q (q.modify id Query.withTemplate) ∧ K.States (q.modify id Query.withTemplate)
  record : ∀ {q info id left middle right found}, K.States q → K.Source (.query info id) →
    K.Result q left → (∀ r, middle = some r → K.Result q r) →
    (∀ r, right = some r → K.Result q r) → (∀ r ∈ found, K.Result q r) →
    K.Grows q (q.modify id fun state => state.record left middle right found) ∧
      K.States (q.modify id fun state => state.record left middle right found) ∧
      K.Result (q.modify id fun state => state.record left middle right found)
        (.query info.snapshot id)
  dangling : ∀ {q info id}, K.States q → K.Source (.query info id) → q[id]? = none →
    K.Result q (.query info.snapshot id)

/-- An invariant satisfies the laws of a comparison. -/
theorem Invariant.lawful {K : Correspondence} {Good Inner : Scope → Prop}
    (h : K.Invariant Good Inner) : K.Lawful where
  source_child := h.source_child
  yields hs := h.yields (h.scopes_iff.1 hs).2
  result_rule := h.result_rule
  resolving hs := .inr (by rw [(h.scopes_iff.1 hs).1])
  selectors hs := by rw [(h.scopes_iff.1 hs).1]
  isMathOn hs := by rw [(h.scopes_iff.1 hs).1]
  inCalc hs := by rw [(h.scopes_iff.1 hs).1]
  scripts hs := by rw [(h.scopes_iff.1 hs).1]
  frames hs _ := by rw [(h.scopes_iff.1 hs).1]
  functionTable hs := .inr (by rw [(h.scopes_iff.1 hs).1])
  negate hs _ _ := by rw [(h.scopes_iff.1 hs).1]
  operate hs _ _ _ := by rw [(h.scopes_iff.1 hs).1]
  text hs hq hn hspells hv := by
    obtain ⟨rfl, hgood⟩ := h.scopes_iff.1 hs
    exact .inr ⟨rfl, fun _ => h.text hgood hq hn hspells hv⟩
  enterParens hs := by
    obtain ⟨rfl, hgood⟩ := h.scopes_iff.1 hs
    exact h.scopes_iff.2 ⟨rfl, h.enterParens hgood⟩
  enterCall asCalc hs := by
    obtain ⟨rfl, hgood⟩ := h.scopes_iff.1 hs
    exact h.scopes_iff.2 ⟨rfl, h.enterCall asCalc hgood⟩
  setMath property hs := by
    obtain ⟨rfl, hgood⟩ := h.scopes_iff.1 hs
    exact h.scopes_iff.2 ⟨rfl, h.setMath _ hgood⟩
  ruleset hs hn := by
    obtain ⟨rfl, hgood⟩ := h.scopes_iff.1 hs
    exact h.scopes_iff.2 ⟨rfl, h.ruleset hgood hn⟩
  lookup_none hs hnone := .inr (by rwa [(h.scopes_iff.1 hs).1])
  lookup_some {s s' name found} hs hfresh hfound := by
    obtain ⟨rfl, hgood⟩ := h.scopes_iff.1 hs
    obtain ⟨hsource, hinner⟩ := h.lookup hgood hfresh hfound
    exact ⟨found, hfound, rfl, rfl, hsource, h.inner_iff.2 ⟨rfl, hinner⟩⟩
  custom hs hn htable hfind := by
    obtain ⟨rfl, hgood⟩ := h.scopes_iff.1 hs
    exact ⟨rfl, fun f hf => h.custom hgood hn htable hfind hf⟩
  body_string := h.body_string
  body_ruleset := h.body_ruleset
  body_detached := h.body_detached
  captured hs hn hheld := by
    obtain ⟨rfl, hgood⟩ := h.scopes_iff.1 hs
    exact h.scopes_iff.2 ⟨rfl, h.captured hgood hn hheld⟩
  body_operand := h.body_operand
  variablesInScope hs _ := by rw [(h.scopes_iff.1 hs).1]
  narrow hs hn hd := by
    obtain ⟨rfl, hgood⟩ := h.scopes_iff.1 hs
    exact h.scopes_iff.2 ⟨rfl, h.narrow hgood hn hd⟩
  template := h.template
  record := h.record
  dangling := h.dangling

end Correspondence

end Cascade
