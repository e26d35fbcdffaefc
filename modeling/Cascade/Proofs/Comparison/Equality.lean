import Cascade.Proofs.Comparison.Reversal

/-!
# Equality in one direction

Two nodes that are equal are equal in the other direction as well, with one exception.  A number or
a colour is compared with a string by the content of the string, while a string is compared with a
number or a colour by its printed form, which has quotes unless the string is escaped.  So an
unescaped string and a number are equal in one direction at most.  Lists inherit this from their
items: `Node.OneSided` says where an equality holds in one direction only, and
`Node.equal_and_not_equal_iff` that these are all the places.
-/

namespace Cascade

namespace Node

variable {queries : Queries} {a b v : Node}

/-! ### Texts beside numbers and colours -/

/-- Whether a node is a number or a colour. -/
def isQuantity : Node → Bool
  | .dimension .. | .color .. => true
  | _ => false

/-- Numbers and colours have comparisons of their own. -/
lemma isComparable_of_isQuantity (h : a.isQuantity) : a.isComparable := by
  cases a with
  | dimension | color => rfl
  | _ => cases h

/-- A node with a comparison of its own is a text, a number or a colour. -/
lemma isQuantity_of_isComparable (h : a.isComparable) (htext : a.isTextual = false) :
    a.isQuantity := by
  cases a with
  | dimension | color => rfl
  | anonymous | quoted => cases htext
  | _ => cases h

/-- A string is printed with its quotes, unless it is escaped. -/
lemma css_quoted (info : Info) (quote : Char) (text : String) (escaped : Bool) (style : Style) :
    (Node.quoted info quote text escaped).css queries style =
      .ok (if escaped then text else String.ofList [quote] ++ text ++ String.ofList [quote]) := by
  cases escaped with
  | true =>
    change Except.ok (String.join [text]) = _
    simp [String.join]
  | false =>
    change Except.ok (String.join [String.ofList [quote], text, String.ofList [quote]]) = _
    simp [String.join]

/-- Quotes change a text. -/
lemma css_unescaped_ne (info : Info) (quote : Char) (text : String) (style : Style) :
    (Node.quoted info quote text false).css queries style ≠ .ok text := by
  rw [css_quoted]
  intro h
  have hlength := congrArg String.length (Except.ok.inj h)
  simp at hlength
  omega

/-- A text that is not a string with quotes is compared by its printed form. -/
lemma comparisonText_eq_css (ha : a.isTextual) (hquotes : a.unescaped? = none) :
    a.comparisonText queries = (a.css queries {}).toOption := by
  cases a with
  | anonymous => rfl
  | quoted info quote text escaped =>
    cases escaped with
    | true => rw [css_quoted]; rfl
    | false => cases hquotes
  | _ => cases ha

/-- A number or a colour equals a text if it is printed as the text by which that is compared. -/
lemma compareSimple_quantity_text (hv : v.isQuantity) (ha : a.isTextual) :
    compareSimple queries v a = some .eq ↔
      ∃ s, v.css queries {} = .ok s ∧ a.comparisonText queries = some s := by
  have htexts : compareSimple queries v a = compareTexts queries v a := by
    cases v with
    | dimension | color => simp [compareSimple, isComparable, ha]
    | _ => cases hv
  have hprinted : v.comparisonText queries = (v.css queries {}).toOption := by
    cases v with
    | dimension | color => rfl
    | _ => cases hv
  rw [htexts, compareTexts, hprinted]
  cases v.css queries {} with
  | error => simp [Except.toOption]
  | ok s =>
    cases a.comparisonText queries with
    | none => simp [Except.toOption]
    | some t => simp [Except.toOption, eq_comm (a := t)]

/-- A text equals a number or a colour if they are printed the same. -/
lemma compareSimple_text_quantity (ha : a.isTextual) (hv : v.isQuantity) :
    compareSimple queries a v = some .eq ↔
      ∃ s, v.css queries {} = .ok s ∧ (a.css queries {}).toOption = some s := by
  have hprinted : compareSimple queries a v = comparePrinted queries a v := by
    cases v with
    | dimension | color =>
      cases a with
      | anonymous => rfl
      | quoted _ _ _ escaped => cases escaped <;> rfl
      | _ => cases ha
    | _ => cases hv
  rw [hprinted, comparePrinted]
  cases v.css queries {} with
  | error => cases a.css queries {} <;> simp [Except.toOption]
  | ok s => cases a.css queries {} <;> simp [Except.toOption]

/-- A number or a colour and an unescaped string, in the direction of the number. -/
lemma compareSimple_quantity_unescaped (hv : v.isQuantity) (info : Info) (quote : Char)
    (text : String) :
    compareSimple queries v (.quoted info quote text false) = some .eq ↔
      v.css queries {} = .ok text := by
  rw [compareSimple_quantity_text hv rfl]
  simp [comparisonText]

/-- A number or a colour and an unescaped string, in the direction of the string. -/
lemma compareSimple_unescaped_quantity (hv : v.isQuantity) (info : Info) (quote : Char)
    (text : String) :
    compareSimple queries (.quoted info quote text false) v = some .eq ↔
      v.css queries {} = (Node.quoted info quote text false).css queries {} := by
  rw [compareSimple_text_quantity rfl hv, css_quoted]
  simp [Except.toOption]

/-- The strings that are printed with quotes. -/
lemma exists_quoted_of_unescaped? {text : String} (h : a.unescaped? = some text) :
    ∃ info quote, a = .quoted info quote text false := by
  cases a with
  | quoted info quote _ escaped =>
    cases escaped with
    | true => cases h
    | false => exact ⟨info, quote, by cases h; rfl⟩
  | _ => cases h

/-! ### Where equality has a direction -/

/-- Nodes that are equal in one direction only: a number or a colour and an unescaped string of
the same content; an unescaped string and a number or a colour that is printed like it; and lists
of equal items among which there are such nodes. -/
inductive OneSided (queries : Queries) : Node → Node → Prop
  | content {v : Node} {info : Info} {quote : Char} {text : String} (hv : v.isQuantity)
      (h : v.css queries {} = .ok text) :
      OneSided queries v (.quoted info quote text false)
  | printed {v : Node} {info : Info} {quote : Char} {text : String} (hv : v.isQuantity)
      (h : v.css queries {} = (Node.quoted info quote text false).css queries {}) :
      OneSided queries (.quoted info quote text false) v
  | items {a b x y : Node} (hlists : AreLists a b)
      (hall : itemsEqual queries a.children b.children)
      (hxy : (x, y) ∈ a.children.zip b.children) (h : OneSided queries x y) :
      OneSided queries a b

/-- Lists of one kind are equal if their items are. -/
lemma equal_lists_iff (h : AreLists a b) :
    compareWith queries a b = some .eq ↔ itemsEqual queries a.children b.children := by
  rw [compareWith_of_areLists h]
  split <;> simp [*]

/-- An equality of lists that holds in one direction only is one of items. -/
lemma exists_of_itemsEqual {xs ys : List Node} (h : itemsEqual queries xs ys)
    (hne : ¬ itemsEqual queries ys xs) :
    ∃ p ∈ xs.zip ys, compareWith queries p.1 p.2 = some .eq ∧
      compareWith queries p.2 p.1 ≠ some .eq := by
  obtain ⟨hlength, hall⟩ := itemsEqual_iff.1 h
  by_contra hnone
  refine hne (itemsEqual_swap_iff.2 ⟨hlength, fun p hp => ?_⟩)
  by_contra hp'
  exact hnone ⟨p, hp, hall p hp, hp'⟩

/-- A number or a colour and a text that is not a string with quotes are equal in both directions
or in none. -/
lemma compareSimple_quantity_text_comm (hv : v.isQuantity) (ha : a.isTextual)
    (hquotes : a.unescaped? = none) :
    compareSimple queries v a = some .eq ↔ compareSimple queries a v = some .eq := by
  rw [compareSimple_quantity_text hv ha, compareSimple_text_quantity ha hv,
    comparisonText_eq_css ha hquotes]

/-- Nodes that are not lists of one kind are equal in both directions or in none, unless one is a
number or a colour and the other an unescaped string. -/
lemma oneSided_of_compareSimple (heq : compareSimple queries a b = some .eq)
    (hne : compareSimple queries b a ≠ some .eq) : OneSided queries a b := by
  by_cases hsame : a.isComparable → b.isComparable → a.isTextual = b.isTextual
  · rw [compareSimple_swap hsame, heq] at hne
    exact absurd rfl hne
  · obtain ⟨ha, hb, hdiffer⟩ : a.isComparable ∧ b.isComparable ∧ a.isTextual ≠ b.isTextual := by
      simpa using hsame
    cases htext : a.isTextual with
    | false =>
      have hva := isQuantity_of_isComparable ha htext
      have htb : b.isTextual := by simpa [htext] using hdiffer
      cases hquotes : b.unescaped? with
      | none => exact absurd ((compareSimple_quantity_text_comm hva htb hquotes).1 heq) hne
      | some text =>
        obtain ⟨info, quote, rfl⟩ := exists_quoted_of_unescaped? hquotes
        exact .content hva ((compareSimple_quantity_unescaped hva info quote text).1 heq)
    | true =>
      have hvb := isQuantity_of_isComparable hb (by simpa [htext] using hdiffer)
      cases hquotes : a.unescaped? with
      | none => exact absurd ((compareSimple_quantity_text_comm hvb htext hquotes).2 heq) hne
      | some text =>
        obtain ⟨info, quote, rfl⟩ := exists_quoted_of_unescaped? hquotes
        exact .printed hvb ((compareSimple_unescaped_quantity hvb info quote text).1 heq)

/-- A number or a colour equals an unescaped string if it is printed as its content, and the string
equals it if they are printed the same. -/
lemma equal_quantity_unescaped (hv : v.isQuantity) (info : Info) (quote : Char) (text : String) :
    (compareWith queries v (.quoted info quote text false) = some .eq ↔
      v.css queries {} = .ok text) ∧
    (compareWith queries (.quoted info quote text false) v = some .eq ↔
      v.css queries {} = (Node.quoted info quote text false).css queries {}) := by
  rw [compareWith_eq_compareSimple
      (not_areLists_of_isComparable (isComparable_of_isQuantity hv)),
    compareWith_eq_compareSimple
      (not_areLists_of_isComparable (isComparable_of_isTextual rfl))]
  exact ⟨compareSimple_quantity_unescaped hv info quote text,
    compareSimple_unescaped_quantity hv info quote text⟩

/-- The places where an equality holds in one direction only. -/
theorem equal_and_not_equal_iff :
    compareWith queries a b = some .eq ∧ compareWith queries b a ≠ some .eq ↔
      OneSided queries a b := by
  constructor
  · -- the induction is on the first node, through lists down to the items that differ
    induction a using inductionOnChildren generalizing b with
    | step a ih =>
      rintro ⟨heq, hne⟩
      by_cases hlists : AreLists a b
      · rw [equal_lists_iff hlists] at heq
        rw [Ne, equal_lists_iff hlists.symm] at hne
        obtain ⟨⟨x, y⟩, hxy, hitem⟩ := exists_of_itemsEqual heq hne
        exact .items hlists heq hxy (ih x (List.of_mem_zip hxy).1 hitem)
      · rw [compareWith_eq_compareSimple hlists] at heq
        rw [compareWith_eq_compareSimple fun h => hlists (AreLists.symm h)] at hne
        exact oneSided_of_compareSimple heq hne
  · intro h
    induction h with
    | @content v info quote text hv h =>
      obtain ⟨hcontent, hprinted⟩ := equal_quantity_unescaped hv info quote text
      rw [Ne, hcontent, hprinted, h]
      exact ⟨rfl, (css_unescaped_ne info quote text {}).symm⟩
    | @printed v info quote text hv h =>
      obtain ⟨hcontent, hprinted⟩ := equal_quantity_unescaped hv info quote text
      rw [Ne, hcontent, hprinted, h]
      exact ⟨rfl, css_unescaped_ne info quote text {}⟩
    | items hlists hall hxy _ ih =>
      rw [Ne, equal_lists_iff hlists, equal_lists_iff hlists.symm]
      exact ⟨hall, fun hswap => ih.2 ((itemsEqual_swap_iff.1 hswap).2 _ hxy)⟩

/-- A guard that asks for equality holds of equal nodes. -/
lemma relationHolds_equal_iff :
    relationHolds queries .equal a b ↔ compareWith queries a b = some .eq := by
  simp only [relationHolds]
  rcases compareWith queries a b with _ | (_ | _ | _) <;> decide

/-- Equality of nodes, and the guard that asks for it, are the same in both directions exactly if
the nodes are not equal in one direction only: unless a number or a colour meets, as one of the
nodes or as an item at the same place of two lists that are equal otherwise, an unescaped string
whose content or printed form is its text. -/
theorem equal_comm_iff (queries : Queries) (a b : Node) :
    ((compareWith queries a b = some .eq ↔ compareWith queries b a = some .eq) ↔
      ¬ OneSided queries a b ∧ ¬ OneSided queries b a) ∧
    (relationHolds queries .equal a b = relationHolds queries .equal b a ↔
      ¬ OneSided queries a b ∧ ¬ OneSided queries b a) := by
  have hcompare : (compareWith queries a b = some .eq ↔ compareWith queries b a = some .eq) ↔
      ¬ OneSided queries a b ∧ ¬ OneSided queries b a := by
    rw [← equal_and_not_equal_iff, ← equal_and_not_equal_iff]
    tauto
  refine ⟨hcompare, ?_⟩
  rw [Bool.eq_iff_iff, relationHolds_equal_iff, relationHolds_equal_iff, hcompare]

/-- Ten pixels equal the string of that content, but the string does not equal ten pixels. -/
theorem equal_tenPixels_oneWay :
    compareWith [] (amount 10.0 "px") (.quoted {} '"' "10px" false) = some .eq ∧
      compareWith [] (.quoted {} '"' "10px" false) (amount 10.0 "px") = none ∧
      relationHolds [] .equal (amount 10.0 "px") (.quoted {} '"' "10px" false) = true ∧
      relationHolds [] .equal (.quoted {} '"' "10px" false) (amount 10.0 "px") = false := by
  decide +kernel

end Node

end Cascade
