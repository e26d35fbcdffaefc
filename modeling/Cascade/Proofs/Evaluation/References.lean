import Mathlib.Logic.Relation
import Cascade.Proofs.Evaluation.Inheritance
import Cascade.Proofs.Evaluation.Lookup

/-!
# References between variables

The value of a variable may refer to other variables, which are looked up where the variable was
declared.  A `Lookup` is a name together with the rulesets in which it is looked up, and one lookup
leads to another one if the value it finds refers to the other one (`Lookup.Leads`).  Where the name
of a variable is only known during the evaluation, it may be any name.

A lookup never returns if no chain of references that starts with it comes back to a name it has
met.  It is enough that there is a rank of names under which the value of every variable refers to
names of lower ranks only (`Lookup.neverReturns_of_ranked`).
-/

namespace Cascade

/-- A name, and the rulesets of the frames in which it is looked up, innermost first. -/
structure Lookup where
  scope : List (Option Ruleset)
  name : String

/-- The rulesets around the parts of a node. -/
def Node.scopeInside (scope : List (Option Ruleset)) : Node → List (Option Ruleset)
  | .ruleset rs => some rs :: scope
  | _ => scope

/-- Whether evaluating a node, apart from its parts, may look up a variable of the given name, in
this place or in another one. -/
def Node.MayName (name : String) (n : Node) : Prop :=
  n.Mentions name ∨ n.kind ∈ [.variableCall, .queryInParens]

/-- The lookups with which the evaluation of a node may begin. -/
inductive Node.Refers : List (Option Ruleset) → Node → Lookup → Prop where
  | self {scope : List (Option Ruleset)} {n : Node} {name : String} (h : n.MayName name) :
    Node.Refers scope n ⟨scope, name⟩
  | part {scope : List (Option Ruleset)} {n c : Node} {l : Lookup} (hc : c ∈ n.children)
    (h : Node.Refers (n.scopeInside scope) c l) : Node.Refers scope n l

namespace Lookup

/-- One lookup leads to another one if the value it finds refers to the other one. -/
def Leads (l l' : Lookup) : Prop :=
  ∃ frames found, frames.map Frame.ruleset = l.scope ∧
    Frame.lookup? l.name frames = some found ∧
    found.value.Refers (found.frames.map Frame.ruleset) l'

/-- No chain of references that starts with a lookup returns to a name. -/
def NeverReturns (l : Lookup) : Prop :=
  ∀ l', Relation.ReflTransGen Leads l l' →
    ∀ l'', Relation.TransGen Leads l' l'' → l''.name ≠ l'.name

/-- No chain of references that starts with a lookup returns to a name, or meets one of the given
names. -/
structure Avoids (names : List String) (l : Lookup) : Prop where
  neverReturns : l.NeverReturns
  not_mem : ∀ l', Relation.ReflTransGen Leads l l' → l'.name ∉ names

variable {l l' : Lookup} {names : List String}

/-- What a lookup leads to avoids the name of the lookup as well. -/
lemma Avoids.leads (h : l.Avoids names) (hleads : l.Leads l') : l'.Avoids (l.name :: names) where
  neverReturns l'' hchain := h.neverReturns l'' (.head hleads hchain)
  not_mem l'' hchain := by
    have hname : l''.name ≠ l.name :=
      h.neverReturns l .refl l'' (Relation.TransGen.head' hleads hchain)
    intro hmem
    rcases List.mem_cons.1 hmem with heq | hmem
    · exact hname heq
    · exact h.not_mem l'' (.head hleads hchain) hmem

/-- Only the rulesets of frames matter to where a lookup leads. -/
lemma leads_iff {frames : List Frame} {name : String} :
    Leads ⟨frames.map Frame.ruleset, name⟩ l' ↔
      ∃ found, Frame.lookup? name frames = some found ∧
        found.value.Refers (found.frames.map Frame.ruleset) l' := by
  constructor
  · rintro ⟨frames', found', hframes, hfound', hrefers⟩
    have hrulesets : frames.map Frame.ruleset = frames'.map Frame.ruleset ++ [] := by
      rw [List.append_nil]
      exact hframes.symm
    obtain ⟨found, hfound, hvalue, _, hscope⟩ := Frame.lookup?_of_rulesets hfound' hrulesets
    rw [List.append_nil] at hscope
    refine ⟨found, hfound, ?_⟩
    rw [hvalue, hscope]
    exact hrefers
  · rintro ⟨found, hfound, hrefers⟩
    exact ⟨frames, found, rfl, hfound, hrefers⟩

end Lookup

/-! ### Ranks of names -/

/-- Whether a node, apart from its parts, refers to names of ranks below the given one only. -/
def Node.RefersBelow (rank : String → Nat) (bound : Nat) : Node → Prop
  | .variableRef _ name => Resolver.atSigns name ≤ 1 ∧ rank name < bound
  | .quoted _ _ text _ => Text.Piece.names (Text.pieces text) = []
  | .variableCall .. | .query .. => False
  | _ => True

/-- The value of a variable refers to names of ranks below the rank of the variable only. -/
def Node.Ranked (rank : String → Nat) : Node → Prop
  | .declaration _ (.literal name) v traits =>
    traits.isVariable → v.Throughout (Node.RefersBelow rank (rank name))
  | _ => True

section Ranks

variable {rank : String → Nat}

instance (bound : Nat) (n : Node) : Decidable (n.RefersBelow rank bound) :=
  match n with
  | .variableRef _ name =>
    inferInstanceAs (Decidable (Resolver.atSigns name ≤ 1 ∧ rank name < bound))
  | .quoted _ _ text _ => inferInstanceAs (Decidable (Text.Piece.names (Text.pieces text) = []))
  | .variableCall .. | .query .. => .isFalse id
  | .anonymous .. | .assignment .. | .attribute .. | .call .. | .color .. | .comment ..
  | .condition .. | .declaration .. | .detached .. | .dimension .. | .expression ..
  | .javaScript .. | .keyword .. | .negative .. | .operation .. | .paren .. | .ruleset ..
  | .unicodeDescriptor .. | .value .. => .isTrue trivial

instance (n : Node) : Decidable (n.Ranked rank) :=
  match n with
  | .declaration _ (.literal name) v traits =>
    inferInstanceAs (Decidable
      (traits.isVariable → v.Throughout (Node.RefersBelow rank (rank name))))
  | .declaration _ (.interpolated _) _ _ => .isTrue trivial
  | .anonymous .. | .assignment .. | .attribute .. | .call .. | .color .. | .comment ..
  | .condition .. | .detached .. | .dimension .. | .expression .. | .javaScript .. | .keyword ..
  | .negative .. | .operation .. | .paren .. | .query .. | .quoted .. | .ruleset ..
  | .unicodeDescriptor .. | .value .. | .variableRef .. | .variableCall .. => .isTrue trivial

/-- The names that a reference may have. -/
lemma Node.mayName_variableRef_iff {info : Info} {own name : String} :
    (Node.variableRef info own).MayName name ↔ own = name ∨ 1 < Resolver.atSigns own := by
  simp [Node.MayName, Node.Mentions, Node.kind]

/-- The names that a node may refer to have lower ranks. -/
lemma Node.RefersBelow.rank_lt {bound : Nat} {n : Node} {name : String}
    (h : n.RefersBelow rank bound) (hname : n.MayName name) : rank name < bound := by
  cases n with
  | variableRef info own =>
    rcases Node.mayName_variableRef_iff.1 hname with rfl | hsigns
    · exact h.2
    · exact absurd h.1 (Nat.not_le.2 hsigns)
  | quoted info quote text escaped =>
    rcases hname with hspells | hkind
    · exact absurd h hspells
    · simp [Node.kind] at hkind
  | variableCall | query => exact h.elim
  | _ => simp [Node.MayName, Node.Mentions, Node.kind] at hname

/-- Rulesets all of whose nodes have a property. -/
def Lookup.ScopeFits (P : Node → Prop) (scope : List (Option Ruleset)) : Prop :=
  ∀ rs, some rs ∈ scope → (Node.ruleset rs).Throughout P

/-- The rulesets of frames. -/
lemma Lookup.scopeFits_iff {P : Node → Prop} {frames : List Frame} :
    Lookup.ScopeFits P (frames.map Frame.ruleset) ↔ ∀ f ∈ frames, f.Throughout P := by
  constructor
  · intro h f hf
    refine Frame.throughout_iff.2 fun rs hrs => h rs ?_
    rw [← hrs]
    exact List.mem_map_of_mem hf
  · intro h rs hrs
    obtain ⟨f, hf, hruleset⟩ := List.mem_map.1 hrs
    exact Frame.throughout_iff.1 (h f hf) rs hruleset

/-- What a tree refers to is named by one of its nodes, and looked up in rulesets around it and in
it. -/
lemma Node.Refers.exists_node {P : Node → Prop} {scope : List (Option Ruleset)} {n : Node}
    {l : Lookup} (h : n.Refers scope l) (hscope : Lookup.ScopeFits P scope)
    (hn : n.Throughout P) :
    Lookup.ScopeFits P l.scope ∧ ∃ x ∈ n.nodes, x.MayName l.name := by
  induction h with
  | @self scope n name hname =>
    exact ⟨hscope, n, (Node.mem_gather _).2 (.inl (List.mem_singleton_self n)), hname⟩
  | @part scope n c l hc _ ih =>
    have hinside : Lookup.ScopeFits P (n.scopeInside scope) := by
      cases n with
      | ruleset rs =>
        intro rs' hrs'
        rcases List.mem_cons.1 hrs' with heq | hrs'
        · rw [Option.some.inj heq]
          exact hn
        · exact hscope rs' hrs'
      | _ => exact hscope
    obtain ⟨hfits, x, hx, hname⟩ := ih hinside (hn.child hc)
    exact ⟨hfits, x, (Node.mem_gather _).2 (.inr (.inl ⟨c, hc, hx⟩)), hname⟩

namespace Lookup

variable {l l' : Lookup}

/-- References lead to names of lower ranks. -/
lemma rank_lt_of_leads (hl : ScopeFits (Node.Ranked rank) l.scope) (h : l.Leads l') :
    ScopeFits (Node.Ranked rank) l'.scope ∧ rank l'.name < rank l.name := by
  obtain ⟨frames, found, hframes, hfound, hrefers⟩ := h
  rw [← hframes, scopeFits_iff] at hl
  have hfits : ∀ f ∈ frames, f.Fits (fun _ => True) (Node.Ranked rank) :=
    fun f hf => ⟨fun _ _ => trivial, hl f hf⟩
  obtain ⟨⟨info, traits, hdeclaration, hvariable⟩, hframes'⟩ := Frame.fits_of_lookup? hfits hfound
  have hscope : ScopeFits (Node.Ranked rank) (found.frames.map Frame.ruleset) :=
    scopeFits_iff.2 fun f hf => (hframes' f hf).throughout
  have hvalue : found.value.Throughout (Node.Ranked rank) :=
    hdeclaration.child (by simp [Node.children])
  obtain ⟨hscope', x, hx, hname⟩ := hrefers.exists_node hscope hvalue
  exact ⟨hscope', (hdeclaration.self hvariable x hx).rank_lt hname⟩

/-- Along a chain of references the ranks of names go down, so no name is met twice. -/
theorem neverReturns_of_ranked (hl : ScopeFits (Node.Ranked rank) l.scope) : l.NeverReturns := by
  have hchain : ∀ l', Relation.ReflTransGen Leads l l' →
      ScopeFits (Node.Ranked rank) l'.scope := by
    intro l' h
    induction h with
    | refl => exact hl
    | tail _ hleads ih => exact (rank_lt_of_leads ih hleads).1
  intro l' hl' l'' h
  have hlower : rank l''.name < rank l'.name := by
    induction h with
    | single hleads => exact (rank_lt_of_leads (hchain _ hl') hleads).2
    | tail hbefore hleads ih =>
      have hreached := hl'.trans hbefore.to_reflTransGen
      exact Nat.lt_trans (rank_lt_of_leads (hchain _ hreached) hleads).2 ih
  intro hname
  rw [hname] at hlower
  exact Nat.lt_irrefl _ hlower

end Lookup

/-- What a tree of ranked declarations refers to in rulesets of ranked declarations never
returns. -/
theorem Node.Refers.neverReturns_of_ranked {scope : List (Option Ruleset)} {n : Node} {l : Lookup}
    (h : n.Refers scope l) (hscope : Lookup.ScopeFits (Node.Ranked rank) scope)
    (hn : n.Throughout (Node.Ranked rank)) : l.NeverReturns :=
  Lookup.neverReturns_of_ranked (h.exists_node hscope hn).1

end Ranks

end Cascade
