import Cascade.Proofs.Evaluation.Yield
import Cascade.Proofs.Printing.Blocks

/-!
# Compressed output

Compressed output has no blanks or line breaks between rules, so what keeps a declaration apart
from what follows it is a sign: the semicolon after it, or the brace that closes its block.  The
last rule of a block does without its semicolon, and a bare rule counts as the last one.

The output is the text of a list of pieces (`Ruleset.css_eq_map_join`): the rules, each without its
semicolon, and the signs between them.  In a block with selectors every declaration is followed by
one of the two signs, so it depends on the bare declarations alone whether all declarations are
kept apart (`Block.keptApart_piecesOfAll`).
-/

namespace Cascade

/-! ### Texts of renderings -/

namespace Rendering

/-- The text of one rendering after another. -/
lemma text_append (a b : Rendering) :
    (a ++ b).text = a.text.bind fun x => b.text.map (x ++ ·) := by
  obtain ⟨chunks, halt⟩ := a
  obtain ⟨chunks', halt'⟩ := b
  cases halt with
  | some halt => rfl
  | none =>
    cases halt' with
    | some halt' => rfl
    | none =>
      show Except.ok (String.join ((chunks ++ chunks').map Chunk.text)) =
        Except.ok (String.join (chunks.map Chunk.text) ++ String.join (chunks'.map Chunk.text))
      rw [List.map_append, String.join_append]

/-- The text of a chunk. -/
lemma text_chunk (text : String) (file : Option FileInfo) (index : Option Nat) :
    (chunk text file index).text = .ok text := by
  show Except.ok (String.join [text]) = Except.ok text
  rw [String.join_cons, String.join_nil, String.append_empty]

/-- Nothing comes before the other rendering. -/
lemma empty_append (a : Rendering) : empty ++ a = a :=
  rfl

/-- What ends the text of a rendering ends that of a longer one. -/
lemma text_append_of_text {a b b' : Rendering} {ending : String}
    (h : b.text = b'.text.map (· ++ ending)) :
    (a ++ b).text = (a ++ b').text.map (· ++ ending) := by
  rw [text_append, text_append, h]
  cases a.text with
  | error halt => rfl
  | ok x =>
    cases b'.text with
    | error halt => rfl
    | ok y => exact congrArg Except.ok String.append_assoc.symm

end Rendering

/-! ### Rules and their semicolons -/

namespace Node

/-- Whether a rule is a declaration that is not inline. -/
def isTerminated : Node → Bool
  | .declaration _ _ _ traits => !traits.isInline
  | _ => false

/-- A rule without the semicolon at its end. -/
def unterminated : Node → Node
  | .declaration info name v traits => .declaration info name v { traits with isInline := true }
  | node => node

/-- The semicolon of a declaration stands at the end of it. -/
lemma text_declarationPart {style : Style} (h : style.compress) (info : Info)
    (traits : DeclarationTraits) (v : Style → Rendering) (name : String) :
    (declarationPart info traits v name style).text =
      (declarationPart info { traits with isInline := true } v name style).text.map
        (· ++ if !traits.isInline && !style.lastRule then ";" else "") := by
  refine Rendering.text_append_of_text (Rendering.text_append_of_text ?_)
  show (Rendering.chunk (traits.important ++ _) _ _).text =
    (Rendering.chunk (traits.important ++ "") _ _).text.map _
  rw [Rendering.text_chunk, Rendering.text_chunk, String.append_empty, h]
  cases traits.isInline <;> cases style.lastRule <;> rfl

/-- In compressed output a rule is printed with a semicolon if it is a declaration and not the last
rule. -/
lemma css_eq_map_unterminated {style : Style} (h : style.compress) (queries : Queries)
    (node : Node) :
    node.css queries style = (node.unterminated.css queries style).map
      (· ++ if node.isTerminated && !style.lastRule then ";" else "") := by
  have hnothing : ∀ x : Except Halt String, x = x.map (· ++ "") := by
    intro x
    cases x with
    | error halt => rfl
    | ok text => exact congrArg Except.ok String.append_empty.symm
  cases node with
  | declaration info name v traits =>
    unfold css render print unterminated
    rw [write, write]
    refine Rendering.text_append_of_text ?_
    cases name with
    | literal name =>
      rw [PropertyName.write, PropertyName.write]
      exact text_declarationPart h info traits _ name
    | interpolated parts =>
      rw [PropertyName.write, PropertyName.write]
      show (Rendering.aside _ _).text = (Rendering.aside _ _).text.map _
      unfold Rendering.aside
      split
      next => rfl
      next name _ => exact text_declarationPart h info traits _ name
  | _ => exact hnothing _

end Node

/-! ### Pieces of the output -/

/-- A piece of the output: a rule without its semicolon, or a sign between rules. -/
structure Piece where
  rule : Option Node
  text : String

namespace Piece

/-- A sign. -/
def sign (text : String) : Piece :=
  ⟨none, text⟩

@[simp] lemma text_sign (text : String) : (sign text).text = text :=
  rfl

/-- The text of some pieces. -/
def join (pieces : List Piece) : String :=
  String.join (pieces.map text)

@[simp] lemma join_nil : join [] = "" :=
  String.join_nil

@[simp] lemma join_cons (piece : Piece) (rest : List Piece) :
    join (piece :: rest) = piece.text ++ join rest :=
  String.join_cons

@[simp] lemma join_append (pieces pieces' : List Piece) :
    join (pieces ++ pieces') = join pieces ++ join pieces' := by
  rw [join, List.map_append, String.join_append, join, join]

/-- A text that keeps a declaration before it apart: it is empty, or begins with a semicolon or a
closing brace. -/
def EndsRule (text : String) : Prop :=
  ∀ c ∈ text.toList.head?, c = ';' ∨ c = '\x7d'

/-- Every declaration that is not inline is followed by a semicolon, by a closing brace or by
nothing. -/
def KeptApart : List Piece → Prop
  | [] => True
  | piece :: rest => (piece.rule.any Node.isTerminated → EndsRule (join rest)) ∧ KeptApart rest

end Piece

namespace Block

/-- The pieces of some rules, which are followed by semicolons up to the last one, or not at all if
they are bare. -/
def itemPieces (queries : Queries) (style : Style) (bare : Bool) :
    List Node → Except Halt (List Piece)
  | [] => .ok []
  | rule :: rest => do
    let last := bare || rest.isEmpty
    let text ← rule.unterminated.css queries { style with lastRule := last }
    let others ← itemPieces queries style bare rest
    let semicolon := if rule.isTerminated && !last then [.sign ";"] else []
    .ok (⟨some rule, text⟩ :: (semicolon ++ others))

/-- The pieces of a block. -/
def pieces (queries : Queries) (style : Style) (block : Block Node) : Except Halt (List Piece) :=
  if block.isBare then itemPieces queries style true block.items
  else do
    let items ← itemPieces queries { style with level := style.level + 1 } false block.items
    .ok (.sign (String.intercalate "," block.selectors ++ "\x7b") :: (items ++ [.sign "\x7d"]))

/-- The pieces of some blocks. -/
def piecesOfAll (queries : Queries) (style : Style) : List (Block Node) → Except Halt (List Piece)
  | [] => .ok []
  | block :: rest => do
    let own ← block.pieces queries style
    let others ← piecesOfAll queries style rest
    .ok (own ++ others)

end Block

/-! ### The output as pieces -/

section Output

variable {style : Style} {queries : Queries}

/-- The text of a rule and of the rules after it. -/
lemma Block.map_join_itemPieces_cons (h : style.compress) (bare : Bool) (rule : Node)
    (rest : List Node) :
    (itemPieces queries style bare (rule :: rest)).map Piece.join =
      (rule.css queries { style with lastRule := bare || rest.isEmpty }).bind fun x =>
        ((itemPieces queries style bare rest).map Piece.join).map (x ++ ·) := by
  rw [Node.css_eq_map_unterminated (by exact h), itemPieces]
  dsimp only
  cases rule.unterminated.css queries { style with lastRule := bare || rest.isEmpty } with
  | error halt => rfl
  | ok text =>
    cases itemPieces queries style bare rest with
    | error halt => rfl
    | ok others =>
      refine congrArg Except.ok ?_
      rw [Piece.join_cons, Piece.join_append]
      cases rule.isTerminated && !(bare || rest.isEmpty) with
      | true => simp [String.append_assoc]
      | false => simp

/-- Nothing is printed where something depends on the output not being compressed. -/
lemma Printer.styled_of_compress (h : style.compress) (r : Style → Style → Rendering) :
    (Printer.styled fun style => if style.compress then Printer.empty else r style :
      Style → Rendering) style = .empty := by
  show (if style.compress then (Printer.empty : Style → Rendering) else r style) style = _
  rw [if_pos h]
  rfl

namespace Block

/-- The selectors of a block and its brace. -/
lemma text_opening (h : style.compress) (selectors : List String) :
    ((opening selectors : Style → Rendering) style).text =
      .ok (String.intercalate "," selectors ++ "\x7b") := by
  have hopening : (opening selectors : Style → Rendering) style =
      .chunk (String.intercalate "," selectors) none none ++ .chunk "\x7b" none none := by
    show (if style.compress then _ else (_ : Style → Rendering)) style = _
    rw [if_pos h]
    rfl
  rw [hopening, Rendering.text_append, Rendering.text_chunk, Rendering.text_chunk]
  rfl

/-- The items of a block in braces, as pieces. -/
lemma text_writeItems (h : style.compress) {printed : List (Style → Rendering)}
    {rules : List Node}
    (hprinted : List.Forall₂ (fun r rule => r = Node.print queries rule) printed rules) :
    (writeItems printed style).text =
      (itemPieces queries style false rules).map Piece.join := by
  induction hprinted with
  | nil => rfl
  | @cons r rule printed rules hr hrest ih =>
    have hlast : printed.isEmpty = rules.isEmpty := isEmpty_eq_of_forall₂ hrest
    show ((lineStart : Style → Rendering) style ++ (r { style with lastRule := printed.isEmpty } ++
      ((lineEnd : Style → Rendering) style ++ writeItems printed style))).text = _
    rw [map_join_itemPieces_cons h, ← ih, lineStart, lineEnd, Printer.styled_of_compress h,
      Printer.styled_of_compress h, Rendering.empty_append, Rendering.empty_append,
      Rendering.text_append, hr, hlast]
    rfl

/-- The items of a bare block, as pieces. -/
lemma text_writeBare (h : style.compress) {printed : List (Style → Rendering)}
    {rules : List Node}
    (hprinted : List.Forall₂ (fun r rule => r = Node.print queries rule) printed rules) :
    (writeBare printed style).text = (itemPieces queries style true rules).map Piece.join := by
  induction hprinted with
  | nil => rfl
  | @cons r rule printed rules hr hrest ih =>
    show (((lineStart : Style → Rendering) style ++ r { style with lastRule := true }) ++
      writeBare printed style).text = _
    rw [map_join_itemPieces_cons h, ← ih, lineStart, Printer.styled_of_compress h,
      Rendering.empty_append, Rendering.text_append, hr]
    rfl

/-- A block, as pieces. -/
lemma text_write (h : style.compress) {printed : Block (Style → Rendering)} {block : Block Node}
    (hprinted : printed.Related (fun r rule => r = Node.print queries rule) block) :
    (printed.write style).text = (block.pieces queries style).map Piece.join := by
  have hbare : printed.isBare = block.isBare := by rw [isBare, hprinted.selectors, isBare]
  rw [write, pieces, hbare]
  cases block.isBare with
  | true => exact text_writeBare h hprinted.items
  | false =>
    have hinside : ({ style with level := style.level + 1 } : Style).compress := h
    have hitems := text_writeItems hinside hprinted.items
    have hclosing : ((lineStart : Style → Rendering) style ++
        (Printer.ofText "\x7d" : Style → Rendering) style).text = .ok "\x7d" := by
      rw [lineStart, Printer.styled_of_compress h, Rendering.empty_append]
      exact Rendering.text_chunk _ _ _
    show ((opening printed.selectors : Style → Rendering) style ++
      (writeItems printed.items { style with level := style.level + 1 } ++
        ((lineStart : Style → Rendering) style ++
          (Printer.ofText "\x7d" : Style → Rendering) style))).text = _
    rw [Rendering.text_append, Rendering.text_append, text_opening h, hitems, hclosing,
      hprinted.selectors]
    cases itemPieces queries { style with level := style.level + 1 } false block.items with
    | error halt => rfl
    | ok items =>
      refine congrArg Except.ok ?_
      simp

/-- Blocks one after the other, as pieces. -/
lemma text_writeAfter (h : style.compress) (previous : Option Bool)
    {printed : List (Block (Style → Rendering))} {blocks : List (Block Node)}
    (hprinted : List.Forall₂ (Block.Related fun r rule => r = Node.print queries rule)
      printed blocks) :
    (writeAfter previous printed style).text =
      (piecesOfAll queries style blocks).map Piece.join := by
  induction hprinted generalizing previous with
  | nil => rfl
  | @cons r block printed blocks hr hrest ih =>
    have hgap : (gap previous r.isBare : Style → Rendering) style = .empty := by
      cases previous with
      | none => rfl
      | some previousBare => exact Printer.styled_of_compress h _
    show ((gap previous r.isBare : Style → Rendering) style ++
      (r.write style ++ writeAfter (some r.isBare) printed style)).text = _
    rw [hgap, Rendering.empty_append, Rendering.text_append, text_write h hr, ih, piecesOfAll]
    cases block.pieces queries style with
    | error halt => rfl
    | ok own =>
      cases piecesOfAll queries style blocks with
      | error halt => rfl
      | ok others => exact congrArg Except.ok (Piece.join_append own others).symm

end Block

/-- The compressed text of a ruleset is that of its pieces. -/
theorem Ruleset.css_eq_map_join (h : style.compress) (rs : Ruleset) :
    (Node.ruleset rs).css queries style =
      (Block.piecesOfAll queries style (rs.blocks style)).map Piece.join := by
  unfold Node.css Node.render Node.print
  rw [Node.write]
  exact Block.text_writeAfter h none (Ruleset.related_itemBlocks _ style rs)

end Output

/-! ### Which declarations are kept apart -/

namespace Piece

/-- What a text begins with does not depend on what comes after it. -/
lemma endsRule_append {text rest : String} (hne : text ≠ "") :
    EndsRule (text ++ rest) ↔ EndsRule text := by
  have hhead : (text ++ rest).toList.head? = text.toList.head? := by
    rw [String.toList_append, List.head?_append_of_ne_nil]
    exact fun hnil => hne (String.toList_eq_nil_iff.1 hnil)
  rw [EndsRule, EndsRule, hhead]

/-- Nothing keeps a declaration apart as well. -/
lemma endsRule_empty : EndsRule "" :=
  fun c hc => absurd hc (Option.not_mem_none c)

/-- The two signs keep a declaration apart. -/
lemma endsRule_semicolon (rest : String) : EndsRule (";" ++ rest) :=
  (endsRule_append (by decide)).2 fun _ hc => .inl (Option.some.inj hc).symm

lemma endsRule_brace (rest : String) : EndsRule ("\x7d" ++ rest) :=
  (endsRule_append (by decide)).2 fun _ hc => .inr (Option.some.inj hc).symm

/-- A sign comes before everything else. -/
@[simp] lemma keptApart_sign (text : String) (rest : List Piece) :
    KeptApart (.sign text :: rest) ↔ KeptApart rest :=
  ⟨fun h => h.2, fun h => ⟨fun hrule => absurd hrule Bool.false_ne_true, h⟩⟩

end Piece

namespace Block

open Piece

variable {style : Style} {queries : Queries}

/-- The pieces of a rule and of the rules after it. -/
lemma exists_of_itemPieces_cons {bare : Bool} {rule : Node} {rest : List Node} {found : List Piece}
    (h : itemPieces queries style bare (rule :: rest) = .ok found) :
    ∃ text others, itemPieces queries style bare rest = .ok others ∧
      found = ⟨some rule, text⟩ ::
        ((if rule.isTerminated && !(bare || rest.isEmpty) then [.sign ";"] else []) ++ others) := by
  obtain ⟨text, -, h⟩ := except_bind_eq_ok_iff.1 h
  obtain ⟨others, hothers, h⟩ := except_bind_eq_ok_iff.1 h
  exact ⟨text, others, hothers, (Except.ok.inj h).symm⟩

/-- The declarations of a block in braces are kept apart, from each other by semicolons and from
what follows by the brace. -/
lemma keptApart_itemPieces {rules : List Node} {items : List Piece}
    (h : itemPieces queries style false rules = .ok items) (rest : List Piece) :
    KeptApart (items ++ .sign "\x7d" :: rest) ↔ KeptApart rest := by
  induction rules generalizing items with
  | nil =>
    obtain rfl := Except.ok.inj h
    exact keptApart_sign _ rest
  | cons rule rules ih =>
    obtain ⟨text, others, hothers, rfl⟩ := exists_of_itemPieces_cons h
    rw [List.cons_append, KeptApart, List.append_assoc]
    cases hrules : rules.isEmpty with
    | true =>
      -- the brace follows the last rule
      rw [List.isEmpty_iff.1 hrules] at hothers
      obtain rfl := Except.ok.inj hothers
      simp [endsRule_brace]
    | false =>
      cases hrule : rule.isTerminated with
      | true => simp [endsRule_semicolon, ih hothers]
      | false => simp [hrule, ih hothers]

/-- The rules among the pieces of a block are its items. -/
lemma filterMap_itemPieces {bare : Bool} {rules : List Node} {items : List Piece}
    (h : itemPieces queries style bare rules = .ok items) : items.filterMap Piece.rule = rules := by
  induction rules generalizing items with
  | nil =>
    obtain rfl := Except.ok.inj h
    rfl
  | cons rule rules ih =>
    obtain ⟨text, others, hothers, rfl⟩ := exists_of_itemPieces_cons h
    have hsign : (if rule.isTerminated && !(bare || rules.isEmpty) then [sign ";"]
        else []).filterMap Piece.rule = [] := by
      split <;> rfl
    rw [List.filterMap_cons, List.filterMap_append, hsign, List.nil_append, ih hothers]

/-- The pieces of a block with selectors. -/
lemma exists_of_pieces {block : Block Node} (hbare : block.isBare = false) {own : List Piece}
    (h : block.pieces queries style = .ok own) :
    ∃ items, itemPieces queries { style with level := style.level + 1 } false block.items =
        .ok items ∧
      own = .sign (String.intercalate "," block.selectors ++ "\x7b") ::
        (items ++ [.sign "\x7d"]) := by
  rw [pieces, hbare, if_neg Bool.false_ne_true] at h
  obtain ⟨items, hitems, h⟩ := except_bind_eq_ok_iff.1 h
  exact ⟨items, hitems, (Except.ok.inj h).symm⟩

/-- The pieces of a bare rule. -/
lemma exists_of_pieces_bare {rule : Node} {own : List Piece}
    (h : (⟨[], [rule]⟩ : Block Node).pieces queries style = .ok own) :
    ∃ text, own = [⟨some rule, text⟩] := by
  have hitems : itemPieces queries style true [rule] = .ok own := h
  obtain ⟨text, others, hothers, rfl⟩ := exists_of_itemPieces_cons hitems
  obtain rfl := Except.ok.inj hothers
  refine ⟨text, ?_⟩
  simp

/-- The pieces of a block and of the blocks after it. -/
lemma exists_of_piecesOfAll_cons {block : Block Node} {rest : List (Block Node)}
    {found : List Piece} (h : piecesOfAll queries style (block :: rest) = .ok found) :
    ∃ own others, block.pieces queries style = .ok own ∧
      piecesOfAll queries style rest = .ok others ∧ found = own ++ others := by
  obtain ⟨own, hown, h⟩ := except_bind_eq_ok_iff.1 h
  obtain ⟨others, hothers, h⟩ := except_bind_eq_ok_iff.1 h
  exact ⟨own, others, hown, hothers, (Except.ok.inj h).symm⟩

/-- The last ones of some blocks that are printed are printed. -/
lemma exists_of_suffix {blocks after : List (Block Node)} (hsuffix : after <:+ blocks)
    {found : List Piece} (h : piecesOfAll queries style blocks = .ok found) :
    ∃ later, piecesOfAll queries style after = .ok later := by
  induction blocks generalizing found with
  | nil =>
    rw [List.suffix_nil.1 hsuffix]
    exact ⟨found, h⟩
  | cons block rest ih =>
    rcases List.suffix_cons_iff.1 hsuffix with rfl | hsuffix
    · exact ⟨found, h⟩
    · obtain ⟨own, others, -, hothers, -⟩ := exists_of_piecesOfAll_cons h
      exact ih hsuffix hothers

/-- The rules among the pieces of some blocks are the items of the blocks. -/
lemma filterMap_piecesOfAll {blocks : List (Block Node)} {found : List Piece}
    (h : piecesOfAll queries style blocks = .ok found) :
    found.filterMap Piece.rule = blocks.flatMap Block.items := by
  induction blocks generalizing found with
  | nil =>
    obtain rfl := Except.ok.inj h
    rfl
  | cons block rest ih =>
    obtain ⟨own, others, hown, hothers, rfl⟩ := exists_of_piecesOfAll_cons h
    have hitems : own.filterMap Piece.rule = block.items := by
      cases hbare : block.isBare with
      | true =>
        rw [pieces, hbare] at hown
        exact filterMap_itemPieces hown
      | false =>
        obtain ⟨items, hitems, rfl⟩ := exists_of_pieces hbare hown
        have hrules := filterMap_itemPieces hitems
        simp [sign, hrules]
    rw [List.filterMap_append, List.flatMap_cons, hitems, ih hothers]

/-- The declarations of some blocks are kept apart if what is printed after each bare declaration
ends it. -/
lemma keptApart_piecesOfAll {blocks : List (Block Node)}
    (hbare : ∀ block ∈ blocks, block.isBare → ∃ rule, block = ⟨[], [rule]⟩) {found : List Piece}
    (h : piecesOfAll queries style blocks = .ok found) :
    KeptApart found ↔ ∀ rule after later, (⟨[], [rule]⟩ :: after) <:+ blocks →
      rule.isTerminated → piecesOfAll queries style after = .ok later → EndsRule (join later) := by
  induction blocks generalizing found with
  | nil =>
    obtain rfl := Except.ok.inj h
    refine iff_of_true trivial fun rule after later hsuffix => ?_
    exact absurd (List.suffix_nil.1 hsuffix) (List.cons_ne_nil _ _)
  | cons block rest ih =>
    obtain ⟨own, others, hown, hothers, rfl⟩ := exists_of_piecesOfAll_cons h
    obtain ⟨hblock, hrest⟩ := List.forall_mem_cons.1 hbare
    simp only [List.suffix_cons_iff]
    cases hisBare : block.isBare with
    | true =>
      obtain ⟨rule, rfl⟩ := hblock hisBare
      obtain ⟨text, rfl⟩ := exists_of_pieces_bare hown
      rw [List.singleton_append, KeptApart, ih hrest hothers]
      constructor
      · rintro ⟨hends, hkept⟩ rule' after later (heq | hsuffix) hrule hlater
        · cases heq
          rw [hothers] at hlater
          obtain rfl := Except.ok.inj hlater
          exact hends hrule
        · exact hkept rule' after later hsuffix hrule hlater
      · intro hkept
        exact ⟨fun hrule => hkept rule rest others (.inl rfl) hrule hothers,
          fun rule' after later hsuffix => hkept rule' after later (.inr hsuffix)⟩
    | false =>
      obtain ⟨items, hitems, rfl⟩ := exists_of_pieces hisBare hown
      rw [List.cons_append, keptApart_sign, List.append_assoc, List.singleton_append,
        keptApart_itemPieces hitems, ih hrest hothers]
      constructor
      · rintro hkept rule after later (heq | hsuffix)
        · cases heq
          exact absurd hisBare.symm Bool.false_ne_true
        · exact hkept rule after later hsuffix
      · exact fun hkept rule after later hsuffix => hkept rule after later (.inr hsuffix)

end Block

/-- A bare block of a ruleset is a single rule. -/
lemma Ruleset.exists_of_isBare {style : Style} {rs : Ruleset} {block : Block Node}
    (hblock : block ∈ rs.blocks style) (h : block.isBare) : ∃ rule, block = ⟨[], [rule]⟩ := by
  obtain ⟨placed, hplaced, -, hgives⟩ := inOrder_blocks style rs
  rw [← hplaced] at hblock
  obtain ⟨⟨place, _⟩, hmem, rfl⟩ := List.mem_map.1 hblock
  cases (hgives _ _).1 hmem with
  | braced _ hselectors _ => exact absurd (List.isEmpty_iff.1 h) hselectors
  | bare => exact ⟨_, rfl⟩

namespace Ruleset

open Piece

/-- Compressed output is the text of its pieces: the rules that are printed somewhere in the tree,
and the signs between them.  In blocks with selectors every declaration is kept apart, so all
declarations are exactly if each bare one is followed by a text that is empty or begins with a
semicolon or a closing brace.  If no block is printed as such a text, this means that nothing comes
after a bare declaration. -/
theorem compressed_keptApart_iff (queries : Queries) (style : Style) (h : style.compress)
    (rs : Ruleset) :
    (Node.ruleset rs).css queries style =
      (Block.piecesOfAll queries style (rs.blocks style)).map join ∧
    ∀ pieces, Block.piecesOfAll queries style (rs.blocks style) = .ok pieces →
      (pieces.filterMap Piece.rule).Perm (rs.renderedRules style) ∧
      (KeptApart pieces ↔ ∀ rule after later, (⟨[], [rule]⟩ :: after) <:+ rs.blocks style →
        rule.isTerminated → Block.piecesOfAll queries style after = .ok later →
        EndsRule (join later)) ∧
      ((∀ block ∈ rs.blocks style, ∀ own, block.pieces queries style = .ok own →
          ¬ EndsRule (join own)) →
        (KeptApart pieces ↔ ∀ rule after, (⟨[], [rule]⟩ :: after) <:+ rs.blocks style →
          rule.isTerminated → after = [])) := by
  refine ⟨css_eq_map_join h rs, fun pieces hpieces => ?_⟩
  have hkept := Block.keptApart_piecesOfAll (fun _ hblock => exists_of_isBare hblock) hpieces
  refine ⟨?_, hkept, fun hplain => ?_⟩
  · rw [Block.filterMap_piecesOfAll hpieces]
    exact perm_renderedRules style rs
  · rw [hkept]
    constructor
    · intro hends rule after hsuffix hrule
      cases after with
      | nil => rfl
      | cons block rest =>
        have hafter := (List.suffix_cons _ _).trans hsuffix
        obtain ⟨later, hlater⟩ := Block.exists_of_suffix hafter hpieces
        obtain ⟨own, others, hown, -, rfl⟩ := Block.exists_of_piecesOfAll_cons hlater
        have hown := hplain block (hafter.subset List.mem_cons_self) own hown
        have hne : join own ≠ "" := fun hempty => hown (hempty ▸ endsRule_empty)
        have hlater := hends rule _ _ hsuffix hrule hlater
        rw [join_append, endsRule_append hne] at hlater
        exact absurd hlater hown
    · intro hlast rule after later hsuffix hrule hlater
      rw [hlast rule after hsuffix hrule] at hlater
      obtain rfl := Except.ok.inj hlater
      exact endsRule_empty

/-- A declaration with a keyword. -/
def keywordRule (name keyword : String) : Node :=
  .declaration {} (.literal name) (.keyword {} keyword) {}

/-- A block with selectors before a bare declaration. -/
def blockFirst : Ruleset :=
  let inner := .ofRules ["a", "b"] [keywordRule "color" "red", keywordRule "width" "auto"]
  .ofRules [] [.ruleset inner, keywordRule "margin" "auto"]

/-- The blocks of these rules. -/
lemma blocks_blockFirst : blockFirst.blocks { compress := true } =
    [⟨["a", "b"], [keywordRule "color" "red", keywordRule "width" "auto"]⟩,
      ⟨[], [keywordRule "margin" "auto"]⟩] :=
  rfl

/-- A bare declaration at the end is kept apart from the block before it. -/
theorem compressed_keptApart_blockFirst :
    (Node.ruleset blockFirst).css {} { compress := true } =
      .ok "a,b\x7bcolor:red;width:auto\x7dmargin:auto" ∧
    ∃ pieces, Block.piecesOfAll {} { compress := true } (blockFirst.blocks { compress := true }) =
      .ok pieces ∧ KeptApart pieces := by
  obtain ⟨-, hpieces⟩ := compressed_keptApart_iff {} { compress := true } rfl blockFirst
  refine ⟨by decide +kernel, _, rfl, (hpieces _ rfl).2.1.2 ?_⟩
  intro rule after later hsuffix _ hlater
  rw [blocks_blockFirst, List.suffix_cons_iff, List.suffix_cons_iff, List.suffix_nil] at hsuffix
  rcases hsuffix with hfirst | hsecond | hnone
  · cases hfirst
  · cases hsecond
    obtain rfl := Except.ok.inj hlater
    exact endsRule_empty
  · cases hnone

/-- Two bare declarations. -/
def bareTwice : Ruleset :=
  .ofRules [] [keywordRule "color" "red", keywordRule "width" "auto"]

/-- Two bare declarations are run together: nothing stands between the value of the first one and
the name of the second. -/
theorem run_together_bareTwice :
    (Node.ruleset bareTwice).css {} { compress := true } = .ok "color:redwidth:auto" ∧
    ∃ pieces, Block.piecesOfAll {} { compress := true } (bareTwice.blocks { compress := true }) =
      .ok pieces ∧ ¬ KeptApart pieces := by
  refine ⟨by decide +kernel, [⟨some (keywordRule "color" "red"), "color:red"⟩,
    ⟨some (keywordRule "width" "auto"), "width:auto"⟩], rfl, ?_⟩
  rintro ⟨hends, -⟩
  have hfirst : 'w' = ';' ∨ 'w' = '\x7d' := hends rfl 'w' rfl
  exact absurd hfirst (by decide)

end Ruleset

end Cascade
