import Cascade.Node.Traverse

/-!
# Shared rulesets

Copies of a tree share its rulesets, and so do scope frames with the tree they belong to.
A ruleset has one holder for every place that it occurs in, places inside a shared ruleset
counting once.  `Holders` counts them by the number of the place of the ruleset; a ruleset
without a number has one holder only.
-/

namespace Cascade

/-- The numbers of holders of rulesets, by the numbers of their places. -/
abbrev Holders := List (Nat × Nat)

namespace Holders

/-- The number of holders of a ruleset. -/
def count (h : Holders) (id : Nat) : Nat :=
  (h.lookup id).getD 0

/-- Sets the number of holders of a ruleset. -/
def set (h : Holders) (id n : Nat) : Holders :=
  (id, n) :: h.filter (·.1 != id)

end Holders

mutual

/-- One more holder for the rulesets that a node holds. -/
def Node.retain : Node → Holders → Holders
  | .assignment _ _ v, h => Node.retain v h
  | .attribute _ _ _ (some v) _, h => Node.retain v h
  | .call _ _ args _, h => Node.retainEach args h
  | .condition _ _ l r _, h => Node.retain r (Node.retain l h)
  | .declaration _ name v _, h => Node.retain v (PropertyName.retain name h)
  | .detached _ body frames, h =>
    let h := match body with
      | some rs => Ruleset.retain rs h
      | none => h
    match frames with
    | some frames => Frame.retainEach frames h
    | none => h
  | .expression _ items _, h => Node.retainEach items h
  | .negative _ v, h => Node.retain v h
  | .operation _ _ l r _, h => Node.retain r (Node.retain l h)
  | .paren _ v, h => Node.retain v h
  | .ruleset rs, h => Ruleset.retain rs h
  | .value _ items, h => Node.retainEach items h
  | _, h => h

/-- One more holder for the rulesets that some nodes hold. -/
def Node.retainEach : List Node → Holders → Holders
  | [], h => h
  | node :: rest, h => Node.retainEach rest (Node.retain node h)

/-- One more holder for the rulesets that a name holds. -/
def PropertyName.retain : PropertyName → Holders → Holders
  | .literal _, h => h
  | .interpolated parts, h => Node.retainEach parts h

/-- One more holder for a ruleset.  The first holder makes the ruleset hold its rules. -/
def Ruleset.retain : Ruleset → Holders → Holders
  | .mk info _ rules _, h =>
    match info.origin with
    | none => Node.retainEach rules h
    | some id =>
      let n := h.count id
      let h := h.set id (n + 1)
      if n = 0 then Node.retainEach rules h else h

/-- One more holder for the rulesets that a frame holds. -/
def Frame.retain : Frame → Holders → Holders
  | .mk (some rs) _, h => Ruleset.retain rs h
  | .mk none _, h => h

/-- One more holder for the rulesets that some frames hold. -/
def Frame.retainEach : List Frame → Holders → Holders
  | [], h => h
  | frame :: rest, h => Frame.retainEach rest (Frame.retain frame h)

end

mutual

/-- One holder less for the rulesets that a node holds. -/
def Node.release : Node → Holders → Holders
  | .assignment _ _ v, h => Node.release v h
  | .attribute _ _ _ (some v) _, h => Node.release v h
  | .call _ _ args _, h => Node.releaseEach args h
  | .condition _ _ l r _, h => Node.release r (Node.release l h)
  | .declaration _ name v _, h => Node.release v (PropertyName.release name h)
  | .detached _ body frames, h =>
    let h := match body with
      | some rs => Ruleset.release rs h
      | none => h
    match frames with
    | some frames => Frame.releaseEach frames h
    | none => h
  | .expression _ items _, h => Node.releaseEach items h
  | .negative _ v, h => Node.release v h
  | .operation _ _ l r _, h => Node.release r (Node.release l h)
  | .paren _ v, h => Node.release v h
  | .ruleset rs, h => Ruleset.release rs h
  | .value _ items, h => Node.releaseEach items h
  | _, h => h

/-- One holder less for the rulesets that some nodes hold. -/
def Node.releaseEach : List Node → Holders → Holders
  | [], h => h
  | node :: rest, h => Node.releaseEach rest (Node.release node h)

/-- One holder less for the rulesets that a name holds. -/
def PropertyName.release : PropertyName → Holders → Holders
  | .literal _, h => h
  | .interpolated parts, h => Node.releaseEach parts h

/-- One holder less for a ruleset.  With its last holder the ruleset lets go of its rules. -/
def Ruleset.release : Ruleset → Holders → Holders
  | .mk info _ rules _, h =>
    match info.origin with
    | none => Node.releaseEach rules h
    | some id =>
      let n := h.count id
      let h := h.set id (n - 1)
      if n ≤ 1 then Node.releaseEach rules h else h

/-- One holder less for the rulesets that a frame holds. -/
def Frame.release : Frame → Holders → Holders
  | .mk (some rs) _, h => Ruleset.release rs h
  | .mk none _, h => h

/-- One holder less for the rulesets that some frames hold. -/
def Frame.releaseEach : List Frame → Holders → Holders
  | [], h => h
  | frame :: rest, h => Frame.releaseEach rest (Frame.release frame h)

end

/-- Readies a ruleset for a change in place: the only holder changes the ruleset itself,
another one a copy, which shares the rulesets inside. -/
def Ruleset.unshare (rs : Ruleset) (h : Holders) : Ruleset × Holders :=
  match rs.info.origin with
  | none => (rs, h)
  | some id =>
    let n := h.count id
    if n ≤ 1 then (rs, h) else (rs.copy, Node.retainEach rs.rules (h.set id (n - 1)))

end Cascade
