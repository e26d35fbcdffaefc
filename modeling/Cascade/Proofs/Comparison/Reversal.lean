import Mathlib.Data.List.Zip
import Cascade.Proofs.Printing.Core

/-!
# Comparing in the other direction

Exchanging the sides of a comparison reverses its outcome: for numbers, for dimensions (whose units
are brought to a common form first), for colours and for texts.  For nodes the same holds unless a
text meets a number or a colour (`Node.compareSimple_swap`), as the node with a comparison of its
own decides how the two are compared, and a list only asks whether its items are equal.  Hence two
texts, and two nodes that come down to no text (`Node.IsTextFree`), compare in either direction
(`Node.compareWith_reversed`).
-/

namespace Cascade

/-! ### Numbers, dimensions and colours -/

section Floats

open Float.Model

/-- Doubles are ordered as the numbers they stand for. -/
lemma float_lt_iff (a b : Float) :
    a < b ↔ a.toModel.unpack.compare b.toModel.unpack = some .lt := by
  change decide (a.toModel < b.toModel) = true ↔ _
  rw [decide_eq_true_eq]
  change (a.toModel.unpack.compare b.toModel.unpack == some .lt) = true ↔ _
  exact beq_iff_eq

/-- Doubles are equal if the numbers they stand for are. -/
lemma float_beq_iff (a b : Float) :
    (a == b) = true ↔ a.toModel.unpack.compare b.toModel.unpack = some .eq := by
  change (a.toModel.unpack.compare b.toModel.unpack == some .eq) = true ↔ _
  exact beq_iff_eq

/-- The order of the numbers that doubles stand for, in the other direction. -/
lemma unpackedFloat_compare_swap (x y : UnpackedFloat) :
    y.compare x = (x.compare y).map Ordering.swap := by
  cases x with
  | notANumber => cases y <;> rfl
  | infinity s =>
    cases y with
    | infinity s' => cases s <;> cases s' <;> rfl
    | _ => cases s <;> rfl
  | zero s =>
    cases y with
    | infinity s' | finite s' => cases s' <;> rfl
    | _ => rfl
  | finite s m e _ =>
    cases y with
    | infinity s' => cases s' <;> rfl
    | notANumber => rfl
    | zero => cases s <;> rfl
    | finite s' m' e' _ =>
      -- of two numbers of one sign, the exponents decide before the significands
      have hmagnitude : (compare e' e).then (compare m' m) =
          ((compare e e').then (compare m m')).swap := by
        rw [Ordering.swap_then, ← Std.OrientedOrd.eq_swap, ← Std.OrientedOrd.eq_swap]
      cases s with
      | positive =>
        cases s' with
        | positive => exact congrArg some hmagnitude
        | negative => rfl
      | negative =>
        cases s' with
        | positive => rfl
        | negative => exact congrArg (some ∘ Ordering.swap) hmagnitude

/-- The order of two doubles, in the other direction. -/
theorem compareFloats_swap (a b : Float) :
    compareFloats b a = (compareFloats a b).map Ordering.swap := by
  have hmodel : ∀ x y : Float,
      compareFloats x y = x.toModel.unpack.compare y.toModel.unpack := by
    intro x y
    unfold compareFloats
    simp only [float_lt_iff, float_beq_iff]
    rw [unpackedFloat_compare_swap x.toModel.unpack y.toModel.unpack]
    rcases x.toModel.unpack.compare y.toModel.unpack with _ | (_ | _ | _) <;> rfl
  rw [hmodel, hmodel, unpackedFloat_compare_swap]

/-- Equality of doubles is symmetric. -/
lemma float_beq_comm (a b : Float) : (b == a) = (a == b) := by
  rw [Bool.eq_iff_iff, float_beq_iff, float_beq_iff, unpackedFloat_compare_swap a.toModel.unpack]
  rcases a.toModel.unpack.compare b.toModel.unpack with _ | (_ | _ | _) <;> decide

end Floats

/-- Units agree in both directions. -/
lemma Units.compare_comm (u v : Units) : v.compare u = u.compare v := by
  simp only [Units.compare, Units.isNamed, beq_iff_eq, eq_comm (a := Text.upper v.text)]

/-- The order of two dimensions, in the other direction. -/
theorem Dimension.compare_swap (a b : Dimension) :
    b.compare a = (a.compare b).map Ordering.swap := by
  simp only [Dimension.compare]
  rw [Bool.or_comm, Units.compare_comm a.unify.units]
  split
  · exact compareFloats_swap a.value b.value
  · cases a.unify.units.compare b.unify.units with
    | none => rfl
    | some _ => exact compareFloats_swap a.unify.value b.unify.value

/-- The comparison of two colours, in the other direction. -/
lemma Color.compare_swap (a b : Color) : b.compare a = (a.compare b).map Ordering.swap := by
  unfold Color.compare
  rw [float_beq_comm a.red, float_beq_comm a.green, float_beq_comm a.blue, float_beq_comm a.alpha]
  split <;> rfl

/-! ### Nodes -/

namespace Node

variable {queries : Queries} {a b : Node}

/-- Texts have comparisons of their own. -/
lemma isComparable_of_isTextual (h : a.isTextual) : a.isComparable := by
  cases a with
  | anonymous | quoted => rfl
  | _ => cases h

/-- The order of two texts, in the other direction. -/
lemma compareTexts_swap (a b : Node) :
    compareTexts queries b a = (compareTexts queries a b).map Ordering.swap := by
  unfold compareTexts
  cases a.comparisonText queries with
  | none => cases b.comparisonText queries <;> rfl
  | some s =>
    cases b.comparisonText queries with
    | none => rfl
    | some t => exact congrArg some Std.OrientedOrd.eq_swap

/-- Numbers and colours compare in both directions. -/
lemma compareOwn_swap (ha : a.isComparable) (hb : b.isComparable) (ha' : a.isTextual = false)
    (hb' : b.isTextual = false) :
    compareOwn queries b a = (compareOwn queries a b).map Ordering.swap := by
  cases a with
  | dimension _ x =>
    cases b with
    | dimension _ y => exact x.compare_swap y
    | color => rfl
    | anonymous | quoted => cases hb'
    | _ => cases hb
  | color _ x =>
    cases b with
    | color _ y => exact x.compare_swap y
    | dimension => rfl
    | anonymous | quoted => cases hb'
    | _ => cases hb
  | anonymous | quoted => cases ha'
  | _ => cases ha

/-- Nodes that are not lists compare in both directions, unless a text meets a number or a
colour. -/
theorem compareSimple_swap
    (h : a.isComparable → b.isComparable → a.isTextual = b.isTextual) :
    compareSimple queries b a = (compareSimple queries a b).map Ordering.swap := by
  have hplain : ∀ {n : Node}, n.isComparable = false → n.isTextual = false := by
    intro n hn
    rw [← Bool.not_eq_true] at hn ⊢
    exact fun htextual => hn (isComparable_of_isTextual htextual)
  cases ha : a.isComparable with
  | true =>
    cases hb : b.isComparable with
    | true =>
      have hsame := h ha hb
      unfold compareSimple
      rw [if_pos ha, if_pos hb, hsame]
      split
      · exact compareTexts_swap a b
      · rename_i htextual
        rw [Bool.not_eq_true] at htextual
        exact compareOwn_swap ha hb (hsame.trans htextual) htextual
    | false =>
      unfold compareSimple
      simp [ha, hb, hplain hb]
  | false =>
    cases hb : b.isComparable with
    | true =>
      have htwice : Ordering.swap ∘ Ordering.swap = id := funext fun _ => Ordering.swap_swap
      unfold compareSimple
      simp [ha, hb, hplain ha, htwice]
    | false =>
      rw [compareSimple_of_not_comparable ha hb, compareSimple_of_not_comparable hb ha]
      cases a.label? with
      | none => cases b.label? <;> rfl
      | some x =>
        cases b.label? with
        | none => rfl
        | some y =>
          by_cases hkind : x.1 = y.1
          · simp [hkind, Std.OrientedOrd.eq_swap (a := y.2) (b := x.2)]
          · simp [hkind, Ne.symm hkind]

/-- Two lists of one kind. -/
def AreLists (a b : Node) : Prop :=
  a.kind = b.kind ∧ a.kind ∈ [.value, .expression]

lemma AreLists.symm (h : AreLists a b) : AreLists b a :=
  ⟨h.1.symm, h.1 ▸ h.2⟩

/-- Nodes with comparisons of their own are no lists. -/
lemma not_areLists_of_isComparable (h : a.isComparable) : ¬ AreLists a b := by
  rintro ⟨-, hlist⟩
  cases a with
  | anonymous | quoted | dimension | color => simp [kind] at hlist
  | _ => cases h

/-- Lists of one kind are equal when their items are, and do not compare otherwise. -/
lemma compareWith_of_areLists (h : AreLists a b) :
    compareWith queries a b =
      if itemsEqual queries a.children b.children then some .eq else none := by
  obtain ⟨hsame, hlist⟩ := h
  cases a with
  | value =>
    cases b with
    | value => rw [compareWith]; rfl
    | _ => simp [kind] at hsame
  | expression =>
    cases b with
    | expression => rw [compareWith]; rfl
    | _ => simp [kind] at hsame
  | _ => simp [kind] at hlist

/-- Lists have equal items if there are as many of them and they are equal in pairs. -/
lemma itemsEqual_iff {xs ys : List Node} :
    itemsEqual queries xs ys ↔
      xs.length = ys.length ∧ ∀ p ∈ xs.zip ys, compareWith queries p.1 p.2 = some .eq := by
  induction xs generalizing ys with
  | nil => cases ys <;> simp [itemsEqual]
  | cons x xs ih =>
    cases ys with
    | nil => simp [itemsEqual]
    | cons y ys =>
      simp only [itemsEqual, Bool.and_eq_true, beq_iff_eq, ih, List.length_cons,
        Nat.add_right_cancel_iff, List.zip_cons_cons, List.forall_mem_cons]
      exact and_left_comm

/-- The items of two lists, compared in the other direction. -/
lemma itemsEqual_swap_iff {xs ys : List Node} :
    itemsEqual queries ys xs ↔
      xs.length = ys.length ∧ ∀ p ∈ xs.zip ys, compareWith queries p.2 p.1 = some .eq := by
  rw [itemsEqual_iff, ← List.zip_swap, List.forall_mem_map, eq_comm]
  rfl

/-! ### Nodes without texts -/

mutual

/-- What a node comes down to: the nodes in it that are not lists, through lists at any depth. -/
def leaves : Node → List Node
  | .value _ items | .expression _ items _ => leavesEach items
  | node => [node]

/-- What some nodes come down to. -/
def leavesEach : List Node → List Node
  | [] => []
  | node :: rest => leaves node ++ leavesEach rest

end

/-- A node that comes down to neither strings nor anonymous texts. -/
def IsTextFree (n : Node) : Prop :=
  ∀ x ∈ n.leaves, x.isTextual = false

instance (n : Node) : Decidable n.IsTextFree :=
  inferInstanceAs (Decidable (∀ x ∈ n.leaves, x.isTextual = false))

lemma mem_leavesEach {x : Node} {items : List Node} :
    x ∈ leavesEach items ↔ ∃ item ∈ items, x ∈ item.leaves := by
  induction items with
  | nil => simp [leavesEach]
  | cons item rest ih => simp [leavesEach, ih]

namespace IsTextFree

/-- A node without texts is none. -/
lemma isTextual_eq (h : a.IsTextFree) : a.isTextual = false := by
  cases a with
  | anonymous | quoted => exact h _ (by simp [leaves])
  | _ => rfl

/-- The items of a list without texts have none. -/
lemma item {c : Node} (h : a.IsTextFree) (hlist : a.kind ∈ [.value, .expression])
    (hc : c ∈ a.children) : c.IsTextFree := by
  intro x hx
  refine h x ?_
  cases a with
  | value | expression =>
    rw [leaves, mem_leavesEach]
    exact ⟨c, hc, hx⟩
  | _ => simp [kind] at hlist

end IsTextFree

/-- Nodes without texts compare in both directions. -/
lemma compareWith_swap_of_isTextFree (ha : a.IsTextFree) (hb : b.IsTextFree) :
    compareWith queries b a = (compareWith queries a b).map Ordering.swap := by
  -- the induction is on the first node; of its items only the equality with those of the other
  -- list matters, which is the same in both directions
  induction a using inductionOnChildren generalizing b with
  | step a ih =>
    by_cases hlists : AreLists a b
    · have hitems : itemsEqual queries b.children a.children =
          itemsEqual queries a.children b.children := by
        rw [Bool.eq_iff_iff, itemsEqual_swap_iff, itemsEqual_iff]
        refine and_congr_right fun _ => forall₂_congr fun p hp => ?_
        obtain ⟨hx, hy⟩ := List.of_mem_zip hp
        rw [ih p.1 hx (ha.item hlists.2 hx) (hb.item hlists.symm.2 hy)]
        rcases compareWith queries p.1 p.2 with _ | (_ | _ | _) <;> decide
      rw [compareWith_of_areLists hlists, compareWith_of_areLists hlists.symm, hitems]
      split <;> rfl
    · rw [compareWith_eq_compareSimple hlists,
        compareWith_eq_compareSimple fun h => hlists (AreLists.symm h)]
      exact compareSimple_swap fun _ _ => ha.isTextual_eq.trans hb.isTextual_eq.symm

/-- Exchanging the sides of a comparison reverses its outcome, for any two texts and for any two
nodes that come down to no text: they compare in both directions or in none. -/
theorem compareWith_reversed (queries : Queries) (a b : Node)
    (h : (a.isTextual ∧ b.isTextual) ∨ (a.IsTextFree ∧ b.IsTextFree)) :
    compareWith queries b a = (compareWith queries a b).map Ordering.swap := by
  rcases h with ⟨ha, hb⟩ | ⟨ha, hb⟩
  · have hlists : ∀ {x y : Node}, x.isTextual → ¬ AreLists x y :=
      fun hx => not_areLists_of_isComparable (isComparable_of_isTextual hx)
    rw [compareWith_eq_compareSimple (hlists ha), compareWith_eq_compareSimple (hlists hb)]
    exact compareSimple_swap fun _ _ => ha.trans hb.symm
  · exact compareWith_swap_of_isTextFree ha hb

/-- A number with a unit, as a node. -/
def amount (x : Float) (unit : String) : Node :=
  .dimension {} ⟨x, .ofName unit⟩

/-- A number and a keyword in a list in a list. -/
def nestedAmount (x : Float) (unit : String) : Node :=
  .value {} [.expression {} [amount x unit, .keyword {} "linear"] {}]

/-- An inch is more than two centimetres, texts are in alphabetical order whatever their quotes
are, and lists of equal items are equal, in both directions. -/
theorem compareWith_reversed_amounts :
    ((amount 1.0 "in").IsTextFree ∧ (nestedAmount 1.0 "s").IsTextFree) ∧
      compareWith [] (amount 1.0 "in") (amount 2.0 "cm") = some .gt ∧
      compareWith [] (amount 2.0 "cm") (amount 1.0 "in") = some .lt ∧
      compareWith [] (.anonymous {} "b" false false) (.quoted {} '"' "a" false) = some .gt ∧
      compareWith [] (.quoted {} '"' "a" false) (.anonymous {} "b" false false) = some .lt ∧
      compareWith [] (nestedAmount 1.0 "s") (nestedAmount 1000.0 "ms") = some .eq ∧
      compareWith [] (nestedAmount 1000.0 "ms") (nestedAmount 1.0 "s") = some .eq := by
  have hlength : compareWith [] (amount 1.0 "in") (amount 2.0 "cm") = some .gt := by
    decide +kernel
  have htext : compareWith [] (.anonymous {} "b" false false) (.quoted {} '"' "a" false) =
      some .gt := by
    decide +kernel
  have hlist : compareWith [] (nestedAmount 1.0 "s") (nestedAmount 1000.0 "ms") = some .eq := by
    decide +kernel
  refine ⟨⟨by decide, by decide⟩, hlength, ?_, htext, ?_, hlist, ?_⟩
  · rw [compareWith_reversed _ _ _ (.inr ⟨by decide, by decide⟩), hlength]
    rfl
  · rw [compareWith_reversed _ _ _ (.inl ⟨rfl, rfl⟩), htext]
    rfl
  · rw [compareWith_reversed _ _ _ (.inr ⟨by decide, by decide⟩), hlist]
    rfl

end Node

end Cascade
