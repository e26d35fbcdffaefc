import Mathlib.Data.List.Infix
import Cascade.Proofs.Text.Numerals
import Cascade.Proofs.Text.Parts

/-!
# The forms of colours

A colour is written with hexadecimal digits behind `#`, or as a function with its arguments between
parentheses.  `ColorSyntax.documented` is the syntax as it is meant to be, and
`ColorSyntax.accepted` is the one that is read: a text is read as a colour exactly if it is of one
of the accepted forms (`Rgba.read_forms`).

All documented forms are accepted, and some more.  A plus sign may stand for the first of two
hexadecimal digits, and before a decimal channel; the name of the function may go on after `rgb` or
`rgba`, and the text after the last parenthesis; and the opacity may be a word for infinity or for
what is not a number.  A text with none of these (`ColorSyntax.IsPlain`) is read exactly if it is of
a documented form.
-/

namespace Cascade

/-! ### Syntax -/

/-- What a syntax of colours leaves open. -/
structure ColorSyntax where
  /-- What stands behind `#`. -/
  hex : List Char → Prop
  /-- What stands before the first parenthesis, for the function with an opacity and without. -/
  name : Bool → List Char → Prop
  /-- A channel. -/
  channel : List Char → Prop
  /-- The number in an opacity. -/
  number : List Char → Prop
  /-- What stands after the last parenthesis. -/
  tail : List Char → Prop

namespace ColorSyntax

/-- An opacity: a number or a percentage. -/
def Opacity (S : ColorSyntax) (cs : List Char) : Prop :=
  S.number cs ∨ ∃ number, cs = number ++ ['%'] ∧ S.number number

/-- The arguments of a function with an opacity, or without. -/
inductive Arguments (S : ColorSyntax) : Bool → List (List Char) → Prop where
  | rgb {r g b : List Char} : Text.Padded S.channel r → Text.Padded S.channel g →
    Text.Padded S.channel b → S.Arguments false [r, g, b]
  | rgba {r g b a : List Char} : Text.Padded S.channel r → Text.Padded S.channel g →
    Text.Padded S.channel b → Text.Padded S.Opacity a → S.Arguments true [r, g, b, a]

/-- The texts that are colours.  The case of letters does not matter for functions. -/
inductive Admits (S : ColorSyntax) : List Char → Prop where
  | hex {digits : List Char} : S.hex digits → S.Admits ('#' :: digits)
  | function {cs name tail : List Char} {parts : List (List Char)} {hasAlpha : Bool} :
    cs.map Char.toLower = name ++ '(' :: ([','].intercalate parts ++ ')' :: tail) →
    S.name hasAlpha name → S.Arguments hasAlpha parts → S.tail tail → S.Admits cs

/-- The documented forms: three, six or eight hexadecimal digits, or one of the functions, with
decimal numbers as arguments. -/
def documented : ColorSyntax where
  hex digits := digits.length ∈ [3, 6, 8] ∧ ∀ c ∈ digits, c.isHexDigit
  name hasAlpha name := name = if hasAlpha then "rgba".toList else "rgb".toList
  channel := IsByte
  number := Signed IsMagnitude
  tail rest := rest = []

/-- Pairs of hexadecimal digits, or of a plus sign and a digit. -/
def AreHexPairs : List Char → Prop
  | [] => True
  | [_] => False
  | a :: b :: rest => (a = '+' ∨ a.isHexDigit) ∧ b.isHexDigit ∧ AreHexPairs rest

/-- The accepted forms. -/
def accepted : ColorSyntax where
  hex digits := digits.length = 3 ∧ (∀ c ∈ digits, c.isHexDigit) ∨
    digits.length ∈ [6, 8] ∧ AreHexPairs digits
  name hasAlpha name := '(' ∉ name ∧
    if hasAlpha then "rgba".toList <+: name else "rgb".toList <+: name ∧ ¬ "rgba".toList <+: name
  channel cs := IsByte cs ∨ ∃ digits, cs = '+' :: digits ∧ IsByte digits
  number := Signed fun body => IsMagnitude body ∨ IsNumberWord body
  tail rest := ')' ∉ rest

end ColorSyntax

/-! ### The accepted forms are those that are read -/

/-- The characters of numbers, by code points. -/
lemma IsNumberChar.code {c : Char} (h : IsNumberChar c) :
    48 ≤ c.toNat ∧ c.toNat ≤ 90 ∨ c ∈ "+-.aefinty".toList := by
  obtain h | h := h
  · have hdigit : 48 ≤ c.toNat ∧ c.toNat ≤ 57 := Char.isDigit_iff_toNat.1 h
    exact .inl (by omega)
  · unfold Char.toLower at h
    split at h
    next hupper =>
      have hletter : 65 ≤ c.toNat ∧ c.toNat ≤ 90 := by
        simpa [UInt32.le_iff_toNat_le] using hupper
      exact .inl (by omega)
    next => exact .inr h

/-- The characters of numbers are no blanks, and do not end a number. -/
lemma IsNumberChar.plain {c : Char} (h : IsNumberChar c) :
    Text.isBlank c = false ∧ c ≠ ',' ∧ c ≠ '%' := by
  obtain hcode | hsign := h.code
  · refine ⟨?_, ?_, ?_⟩
    · simp [Text.isBlank, Text.inRanges, Text.blankRanges]
      omega
    · rintro rfl
      simp at hcode
    · rintro rfl
      simp at hcode
  · have hsigns : "+-.aefinty".toList.all
        fun c => Text.isBlank c = false ∧ c ≠ ',' ∧ c ≠ '%' := by decide
    exact of_decide_eq_true (List.all_eq_true.1 hsigns c hsign)

namespace ColorSyntax

lemma isNumberChar_of_channel {cs : List Char} (h : accepted.channel cs) :
    ∀ c ∈ cs, IsNumberChar c := by
  obtain h | ⟨digits, rfl, h⟩ := h
  · exact h.isNumberChar
  · exact List.forall_mem_cons.2 ⟨by decide, h.isNumberChar⟩

lemma isNumberChar_of_number {cs : List Char} (h : accepted.number cs) :
    ∀ c ∈ cs, IsNumberChar c :=
  Signed.isNumberChar h fun _ hbody =>
    hbody.elim IsMagnitude.isNumberChar IsNumberWord.isNumberChar

/-- There are no blanks and no commas in an argument. -/
lemma plain_of_isNumberChar {cs : List Char} (h : ∀ c ∈ cs, IsNumberChar c) :
    ∀ c ∈ cs, Text.isBlank c = false ∧ c ≠ ',' := by
  intro c hc
  obtain ⟨hblank, hcomma, -⟩ := (h c hc).plain
  exact ⟨hblank, hcomma⟩

lemma plain_of_channel {cs : List Char} (h : accepted.channel cs) :
    ∀ c ∈ cs, Text.isBlank c = false ∧ c ≠ ',' :=
  plain_of_isNumberChar (isNumberChar_of_channel h)

lemma plain_of_opacity {cs : List Char} (h : accepted.Opacity cs) :
    ∀ c ∈ cs, Text.isBlank c = false ∧ c ≠ ',' := by
  obtain h | ⟨number, rfl, h⟩ := h
  · exact plain_of_isNumberChar (isNumberChar_of_number h)
  · have hnumber := plain_of_isNumberChar (isNumberChar_of_number h)
    exact List.forall_mem_append.2 ⟨hnumber, List.forall_mem_singleton.2 (by decide)⟩

/-- The name of a function begins with `rgb` in any case. -/
lemma rgb_prefix_of_name {hasAlpha : Bool} {name : List Char} (h : accepted.name hasAlpha name) :
    "rgb".toList <+: name := by
  obtain ⟨-, h⟩ := h
  cases hasAlpha with
  | true => exact List.IsPrefix.trans (by decide) (show "rgba".toList <+: name from h)
  | false => exact h.1

/-- The parts between commas hold no comma. -/
lemma Arguments.notMem_comma {hasAlpha : Bool} {parts : List (List Char)}
    (h : accepted.Arguments hasAlpha parts) : ∀ part ∈ parts, ',' ∉ part := by
  have hpadded {P : List Char → Prop} (hP : ∀ cs, P cs → ∀ c ∈ cs, Text.isBlank c = false ∧ c ≠ ',')
      {part : List Char} (hpart : Text.Padded P part) : ',' ∉ part := by
    obtain ⟨before, core, after, rfl, hbefore, hafter, hcore⟩ := hpart
    have hblank : ¬ Text.isBlank ',' := by decide
    simp only [List.mem_append, not_or]
    exact ⟨⟨fun h => hblank (hbefore _ h), fun h => (hP core hcore _ h).2 rfl⟩,
      fun h => hblank (hafter _ h)⟩
  have hchannel {part : List Char} : Text.Padded accepted.channel part → ',' ∉ part :=
    hpadded fun _ => plain_of_channel
  cases h with
  | rgb hr hg hb => simpa using ⟨hchannel hr, hchannel hg, hchannel hb⟩
  | rgba hr hg hb ha =>
    simpa using ⟨hchannel hr, hchannel hg, hchannel hb, hpadded (fun _ => plain_of_opacity) ha⟩

end ColorSyntax

namespace Rgba

/-- Three values are there together. -/
lemma isSome_three {α β : Type} (x y z : Option α) (f : α → α → α → β) :
    (do
      let r ← x
      let g ← y
      let b ← z
      pure (f r g b)).isSome ↔ x.isSome ∧ y.isSome ∧ z.isSome := by
  cases x <;> cases y <;> cases z <;> simp

/-- Four values are there together. -/
lemma isSome_four {α β γ : Type} (x y z : Option α) (w : Option β) (f : α → α → α → β → γ) :
    (do
      let r ← x
      let g ← y
      let b ← z
      let a ← w
      pure (f r g b a)).isSome ↔ x.isSome ∧ y.isSome ∧ z.isSome ∧ w.isSome := by
  cases x <;> cases y <;> cases z <;> cases w <;> simp

/-- What is read behind `#`. -/
lemma isSome_readHex? :
    ∀ digits : List Char, (readHex? digits).isSome ↔ ColorSyntax.accepted.hex digits
  | [r, g, b] => by
    rw [readHex?, isSome_three]
    simp [isSome_readByte?_single, ColorSyntax.accepted]
  | [r, r', g, g', b, b'] => by
    rw [readHex?, isSome_three]
    simp [isSome_readByte?_pair, ColorSyntax.accepted, ColorSyntax.AreHexPairs, and_assoc]
  | [r, r', g, g', b, b', a, a'] => by
    rw [readHex?, isSome_four]
    simp [isSome_readByte?_pair, ColorSyntax.accepted, ColorSyntax.AreHexPairs, and_assoc]
  | [] | [_] | [_, _] | [_, _, _, _] | [_, _, _, _, _] | [_, _, _, _, _, _, _]
  | _ :: _ :: _ :: _ :: _ :: _ :: _ :: _ :: _ :: _ => by
    simp [readHex?, ColorSyntax.accepted]

/-- What is read as an opacity. -/
lemma isSome_readAlpha? (cs : List Char) :
    (readAlpha? cs).isSome ↔ ColorSyntax.accepted.Opacity cs := by
  have hread (number : List Char) :
      (readFloat? number).isSome ↔ ColorSyntax.accepted.number number :=
    isSome_readFloat? number
  unfold readAlpha? ColorSyntax.Opacity
  split
  next hlast =>
    obtain ⟨number, rfl⟩ := List.getLast?_eq_some_iff.1 hlast
    have hpercent : ¬ ColorSyntax.accepted.number (number ++ ['%']) := fun h =>
      (ColorSyntax.isNumberChar_of_number h '%' (by simp)).plain.2.2 rfl
    rw [Option.isSome_map, List.dropLast_concat, hread]
    simp [hpercent]
  next hlast =>
    have hpercent : ¬ ∃ number, cs = number ++ ['%'] ∧ ColorSyntax.accepted.number number :=
      fun ⟨number, hcs, _⟩ => hlast (List.getLast?_eq_some_iff.2 ⟨number, hcs⟩)
    rw [Option.isSome_map, hread]
    simp [hpercent]

lemma isSome_readByte?_trimChars (cs : List Char) :
    (readByte? 10 (Text.trimChars cs)).isSome ↔ Text.Padded ColorSyntax.accepted.channel cs := by
  rw [isSome_readByte?_ten, Text.padded_iff fun _ h c hc => (ColorSyntax.plain_of_channel h c hc).1]
  rfl

lemma isSome_readAlpha?_trimChars (cs : List Char) :
    (readAlpha? (Text.trimChars cs)).isSome ↔ Text.Padded ColorSyntax.accepted.Opacity cs := by
  rw [isSome_readAlpha?, Text.padded_iff fun _ h c hc => (ColorSyntax.plain_of_opacity h c hc).1]

/-- What is read as arguments, once the blanks around them are stripped. -/
lemma isSome_readArguments? (hasAlpha : Bool) : ∀ parts : List (List Char),
    (readArguments? hasAlpha (parts.map Text.trimChars)).isSome ↔
      ColorSyntax.accepted.Arguments hasAlpha parts
  | [r, g, b] => by
    cases hasAlpha with
    | true => exact iff_of_false Bool.false_ne_true nofun
    | false =>
      refine (isSome_three _ _ _ _).trans ?_
      rw [isSome_readByte?_trimChars, isSome_readByte?_trimChars, isSome_readByte?_trimChars]
      exact ⟨fun ⟨hr, hg, hb⟩ => .rgb hr hg hb, fun | .rgb hr hg hb => ⟨hr, hg, hb⟩⟩
  | [r, g, b, a] => by
    cases hasAlpha with
    | false => exact iff_of_false Bool.false_ne_true nofun
    | true =>
      refine (isSome_four _ _ _ _ _).trans ?_
      rw [isSome_readByte?_trimChars, isSome_readByte?_trimChars, isSome_readByte?_trimChars,
        isSome_readAlpha?_trimChars]
      exact ⟨fun ⟨hr, hg, hb, ha⟩ => .rgba hr hg hb ha,
        fun | .rgba hr hg hb ha => ⟨hr, hg, hb, ha⟩⟩
  | [] | [_] | [_, _] | _ :: _ :: _ :: _ :: _ :: _ => iff_of_false Bool.false_ne_true nofun

/-- What is read as a function. -/
lemma isSome_readFunction? {hasAlpha : Bool} {cs : List Char} :
    (readFunction? hasAlpha cs).isSome ↔ ∃ name parts tail,
      cs = name ++ '(' :: ([','].intercalate parts ++ ')' :: tail) ∧ '(' ∉ name ∧
        ColorSyntax.accepted.Arguments hasAlpha parts ∧ ')' ∉ tail := by
  constructor
  · intro h
    obtain ⟨color, hcolor⟩ := Option.isSome_iff_exists.1 h
    obtain ⟨rest, hrest, hinner⟩ := Option.bind_eq_some_iff.1 hcolor
    obtain ⟨body, hbody, hargs⟩ := Option.bind_eq_some_iff.1 hinner
    obtain ⟨name, hname, rfl⟩ := Text.afterFirst?_eq_some_iff.1 hrest
    obtain ⟨tail, htail, rfl⟩ := Text.beforeLast?_eq_some_iff.1 hbody
    refine ⟨name, Text.splitOnChar ',' body, tail, ?_, hname, ?_, htail⟩
    · rw [Text.intercalate_splitOnChar]
    · rw [← isSome_readArguments?, hargs]
      rfl
  · rintro ⟨name, parts, tail, rfl, hname, hparts, htail⟩
    have hne : parts ≠ [] := by
      rintro rfl
      cases hparts
    simp only [readFunction?, Text.afterFirst?_append hname, Text.beforeLast?_append htail,
      Text.splitOnChar_intercalate hne hparts.notMem_comma, Option.bind_eq_bind, Option.bind_some]
    exact (isSome_readArguments? hasAlpha parts).2 hparts

/-- What a text begins with is decided before a character that does not occur in it. -/
lemma prefix_append_cons_iff {p name rest : List Char} {c : Char} (hc : c ∉ p) :
    p <+: name ++ c :: rest ↔ p <+: name := by
  refine ⟨fun h => ?_, fun h => h.trans (List.prefix_append _ _)⟩
  obtain h' | ⟨more, rfl⟩ := List.prefix_or_prefix_of_prefix h (List.prefix_append name (c :: rest))
  · exact h'
  · rw [List.prefix_append_right_inj] at h
    cases more with
    | nil => simp
    | cons d more =>
      obtain ⟨rfl, -⟩ := List.cons_prefix_cons.1 h
      simp at hc

/-- What is read as a function, whatever its name. -/
lemma isSome_readNamed? (lowered : List Char) :
    (if "rgba".toList.isPrefixOf lowered then readFunction? true lowered
      else if "rgb".toList.isPrefixOf lowered then readFunction? false lowered
      else none).isSome ↔
      ∃ hasAlpha name parts tail,
        lowered = name ++ '(' :: ([','].intercalate parts ++ ')' :: tail) ∧
        ColorSyntax.accepted.name hasAlpha name ∧ ColorSyntax.accepted.Arguments hasAlpha parts ∧
        ColorSyntax.accepted.tail tail := by
  simp only [List.isPrefixOf_iff_prefix]
  constructor
  · intro h
    split at h
    next hrgba =>
      obtain ⟨name, parts, tail, rfl, hname, hparts, htail⟩ := isSome_readFunction?.1 h
      rw [prefix_append_cons_iff (by decide)] at hrgba
      exact ⟨true, name, parts, tail, rfl, ⟨hname, hrgba⟩, hparts, htail⟩
    next hrgba =>
      split at h
      next hrgb =>
        obtain ⟨name, parts, tail, rfl, hname, hparts, htail⟩ := isSome_readFunction?.1 h
        rw [prefix_append_cons_iff (by decide)] at hrgb hrgba
        exact ⟨false, name, parts, tail, rfl, ⟨hname, hrgb, hrgba⟩, hparts, htail⟩
      next => cases h
  · rintro ⟨hasAlpha, name, parts, tail, rfl, ⟨hname, hbegins⟩, hparts, htail⟩
    cases hasAlpha with
    | true =>
      have hrgba : "rgba".toList <+: name := hbegins
      rw [if_pos ((prefix_append_cons_iff (by decide)).2 hrgba)]
      exact isSome_readFunction?.2 ⟨name, parts, tail, rfl, hname, hparts, htail⟩
    | false =>
      obtain ⟨hrgb, hrgba⟩ : "rgb".toList <+: name ∧ ¬ "rgba".toList <+: name := hbegins
      rw [if_neg ((prefix_append_cons_iff (by decide)).not.2 hrgba),
        if_pos ((prefix_append_cons_iff (by decide)).2 hrgb)]
      exact isSome_readFunction?.2 ⟨name, parts, tail, rfl, hname, hparts, htail⟩

/-- The accepted forms are those that are read. -/
lemma isSome_read? (text : String) :
    (read? text).isSome ↔ ColorSyntax.accepted.Admits (Text.trimChars text.toList) := by
  unfold read?
  generalize Text.trimChars text.toList = cs
  split
  next digits =>
    rw [isSome_readHex?]
    refine ⟨.hex, fun h => ?_⟩
    cases h with
    | hex h => exact h
    | function hcs hname =>
      obtain ⟨rest, rfl⟩ := ColorSyntax.rgb_prefix_of_name hname
      cases hcs
  next hsharp =>
    rw [isSome_readNamed?]
    constructor
    · rintro ⟨hasAlpha, name, parts, tail, hcs, hname, hparts, htail⟩
      exact .function hcs hname hparts htail
    · intro h
      cases h with
      | hex => exact absurd rfl (hsharp _)
      | function hcs hname hparts htail => exact ⟨_, _, _, _, hcs, hname, hparts, htail⟩

end Rgba

/-! ### Documented forms -/

namespace ColorSyntax

/-- Arguments in one syntax are arguments in another one if their channels and numbers are. -/
lemma Arguments.imp {S T : ColorSyntax} {hasAlpha : Bool} {parts : List (List Char)}
    (h : S.Arguments hasAlpha parts)
    (hchannel : ∀ part ∈ parts, ∀ core ⊆ part, S.channel core → T.channel core)
    (hnumber : ∀ part ∈ parts, ∀ core ⊆ part, S.number core → T.number core) :
    T.Arguments hasAlpha parts := by
  cases h with
  | rgb hr hg hb =>
    exact .rgb (hr.imp (hchannel _ (by simp))) (hg.imp (hchannel _ (by simp)))
      (hb.imp (hchannel _ (by simp)))
  | @rgba r g b a hr hg hb ha =>
    refine .rgba (hr.imp (hchannel _ (by simp))) (hg.imp (hchannel _ (by simp)))
      (hb.imp (hchannel _ (by simp))) (ha.imp fun core hcore => ?_)
    have hmem : a ∈ [r, g, b, a] := by simp
    rintro (h | ⟨number, rfl, h⟩)
    · exact .inl (hnumber a hmem core hcore h)
    · have hsubset : number ⊆ a := List.Subset.trans (List.subset_append_left _ _) hcore
      exact .inr ⟨number, rfl, hnumber a hmem number hsubset h⟩

/-- Hexadecimal digits that are even in number are pairs. -/
lemma areHexPairs_of_isHexDigit {digits : List Char} (heven : digits.length % 2 = 0)
    (h : ∀ c ∈ digits, c.isHexDigit) : AreHexPairs digits := by
  fun_induction AreHexPairs digits with
  | case1 => trivial
  | case2 => simp at heven
  | case3 a b rest ih =>
    simp only [List.length_cons] at heven
    simp only [List.forall_mem_cons] at h
    exact ⟨.inr h.1, h.2.1, ih (by omega) h.2.2⟩

/-- Without plus signs, pairs are made of hexadecimal digits. -/
lemma AreHexPairs.isHexDigit {digits : List Char} (h : AreHexPairs digits) (hplus : '+' ∉ digits) :
    ∀ c ∈ digits, c.isHexDigit := by
  fun_induction AreHexPairs digits with
  | case1 => simp
  | case2 => cases h
  | case3 a b rest ih =>
    obtain ⟨ha, hb, hrest⟩ := h
    simp only [List.mem_cons, not_or] at hplus
    obtain ⟨hplusa, -, hplus⟩ := hplus
    exact List.forall_mem_cons.2 ⟨ha.resolve_left (Ne.symm hplusa),
      List.forall_mem_cons.2 ⟨hb, ih hrest hplus⟩⟩

lemma accepted_name {hasAlpha : Bool} {name : List Char} (h : documented.name hasAlpha name) :
    accepted.name hasAlpha name := by
  cases hasAlpha with
  | true =>
    obtain rfl : name = "rgba".toList := h
    exact ⟨by decide, List.prefix_rfl⟩
  | false =>
    obtain rfl : name = "rgb".toList := h
    exact ⟨by decide, List.prefix_rfl, by decide⟩

/-- Documented forms are accepted. -/
lemma Admits.accepted {cs : List Char} (h : documented.Admits cs) : accepted.Admits cs := by
  cases h with
  | @hex digits h =>
    obtain ⟨hlength, hdigits⟩ := h
    simp only [List.mem_cons, List.not_mem_nil, or_false] at hlength
    refine .hex ?_
    obtain hlength | hlength := hlength
    · exact .inl ⟨hlength, hdigits⟩
    · have hpairs := areHexPairs_of_isHexDigit (by omega) hdigits
      exact .inr ⟨by simpa using hlength, hpairs⟩
  | function hcs hname hparts htail =>
    refine .function hcs (accepted_name hname) (hparts.imp ?_ ?_) ?_
    · exact fun _ _ _ _ h => .inl h
    · exact fun _ _ _ _ ⟨sign, body, hcore, hsign, hbody⟩ =>
        ⟨sign, body, hcore, hsign, .inl hbody⟩
    · rw [show _ = [] from htail]
      exact List.not_mem_nil

/-- A text without plus signs and without the letter of the words for infinity and for what is not a
number, that begins and ends as a documented form does. -/
structure IsPlain (cs : List Char) : Prop where
  plus : '+' ∉ cs.map Char.toLower
  word : 'n' ∉ cs.map Char.toLower
  ends : cs.head? = some '#' ∨
    ("rgb(".toList <+: cs.map Char.toLower ∨ "rgba(".toList <+: cs.map Char.toLower) ∧
      cs.getLast? = some ')'

/-- Where `rgb` or `rgba` goes on with a parenthesis, it is the name. -/
lemma documented_name {hasAlpha : Bool} {name rest : List Char} (h : accepted.name hasAlpha name)
    (hopens : "rgb(".toList <+: name ++ '(' :: rest ∨ "rgba(".toList <+: name ++ '(' :: rest) :
    documented.name hasAlpha name := by
  obtain ⟨hparen, hbegins⟩ := h
  have hname : name = "rgb".toList ∨ name = "rgba".toList := by
    refine hopens.imp (fun ⟨more, hmore⟩ => ?_) fun ⟨more, hmore⟩ => ?_
    · have hcut : "rgb".toList ++ '(' :: more = name ++ '(' :: rest := hmore
      exact (Text.eq_of_append_cons_eq hcut (by decide) hparen).symm
    · have hcut : "rgba".toList ++ '(' :: more = name ++ '(' :: rest := hmore
      exact (Text.eq_of_append_cons_eq hcut (by decide) hparen).symm
  cases hasAlpha with
  | true =>
    have hrgba : "rgba".toList <+: name := hbegins
    exact hname.resolve_left fun h => absurd (h ▸ hrgba) (by decide)
  | false =>
    have hrgba : ¬ "rgba".toList <+: name := hbegins.2
    exact hname.resolve_right fun h => hrgba (h ▸ List.prefix_rfl)

/-- Nothing comes after a last parenthesis at the end. -/
lemma tail_eq_nil {front tail : List Char} (h : (front ++ ')' :: tail).getLast? = some ')')
    (htail : ')' ∉ tail) : tail = [] := by
  obtain rfl | ⟨more, last, rfl⟩ := tail.eq_nil_or_concat
  · rfl
  · rw [List.concat_eq_append, ← List.cons_append, ← List.append_assoc, List.getLast?_concat] at h
    cases h
    simp at htail

/-- A number in lower case without the letter of the words is decimal. -/
lemma documented_number {cs : List Char} (h : accepted.number cs) (hword : 'n' ∉ cs)
    (hlower : ∀ c ∈ cs, c.toLower = c) : documented.number cs := by
  obtain ⟨sign, body, rfl, hsign, hbody⟩ := h
  refine ⟨sign, body, rfl, hsign, hbody.resolve_right fun hnumber => hword ?_⟩
  have hmap : body.map Char.toLower = body :=
    (List.map_congr_left fun c hc => hlower c (List.mem_append_right _ hc)).trans (List.map_id _)
  have hn : ∀ word ∈ ["inf".toList, "infinity".toList, "nan".toList], 'n' ∈ word := by decide
  rw [IsNumberWord, hmap] at hnumber
  exact List.mem_append_right _ (hn body hnumber)

/-- Accepted forms that are plain are documented. -/
lemma IsPlain.documented {cs : List Char} (hplain : IsPlain cs) (h : accepted.Admits cs) :
    documented.Admits cs := by
  cases h with
  | @hex digits h =>
    refine .hex ?_
    have hplus : '+' ∉ digits := fun hmem =>
      hplain.plus (List.mem_map.2 ⟨'+', List.mem_cons_of_mem _ hmem, rfl⟩)
    obtain ⟨hlength, hdigits⟩ | ⟨hlength, hpairs⟩ := h
    · exact ⟨by simp [hlength], hdigits⟩
    · exact ⟨List.mem_cons_of_mem _ hlength, hpairs.isHexDigit hplus⟩
  | @function _ name tail parts hasAlpha hcs hname hparts htail =>
    have hsharp : cs.head? ≠ some '#' := by
      intro hhead
      obtain ⟨digits, rfl⟩ := List.head?_eq_some_iff.1 hhead
      obtain ⟨rest, rfl⟩ := rgb_prefix_of_name hname
      cases hcs
    obtain ⟨hopens, hlast⟩ := hplain.ends.resolve_left hsharp
    -- every part of an argument is a part of the text, in lower case
    have hbody : [','].intercalate parts ⊆ cs.map Char.toLower := by
      rw [hcs]
      refine List.Subset.trans ?_ (List.subset_append_right _ _)
      exact List.Subset.trans (List.subset_append_left _ _) (List.subset_cons_self _ _)
    have hpart {part core : List Char} (hmem : part ∈ parts) (hcore : core ⊆ part) :
        core ⊆ cs.map Char.toLower :=
      List.Subset.trans (List.Subset.trans hcore (Text.subset_intercalate hmem)) hbody
    refine .function hcs (documented_name hname (hcs ▸ hopens)) (hparts.imp ?_ ?_) ?_
    · intro part hmem core hcore h
      refine h.resolve_right ?_
      rintro ⟨digits, rfl, -⟩
      exact hplain.plus (hpart hmem hcore List.mem_cons_self)
    · intro part hmem core hcore h
      refine documented_number h (fun hn => hplain.word (hpart hmem hcore hn)) fun c hc => ?_
      obtain ⟨d, -, rfl⟩ := List.mem_map.1 (hpart hmem hcore hc)
      exact Text.toLower_toLower d
    · have hlowered : (cs.map Char.toLower).getLast? = some ')' := by
        rw [List.getLast?_map, hlast]
        rfl
      rw [hcs, ← List.cons_append, ← List.append_assoc] at hlowered
      exact tail_eq_nil hlowered htail

end ColorSyntax

/-- A text is read as a colour exactly if it is of one of the accepted forms, once the blanks around
it are stripped.  All documented forms are read, and of the plain texts no others. -/
theorem Rgba.read_forms (text : String) :
    ((read? text).isSome ↔ ColorSyntax.accepted.Admits (Text.trimChars text.toList)) ∧
      (ColorSyntax.documented.Admits (Text.trimChars text.toList) → (read? text).isSome) ∧
      (ColorSyntax.IsPlain (Text.trimChars text.toList) →
        ((read? text).isSome ↔ ColorSyntax.documented.Admits (Text.trimChars text.toList))) := by
  have hread := isSome_read? text
  have hdocumented (h : ColorSyntax.documented.Admits (Text.trimChars text.toList)) :
      (read? text).isSome := hread.2 h.accepted
  exact ⟨hread, hdocumented, fun hplain => ⟨fun h => hplain.documented (hread.1 h), hdocumented⟩⟩

-- a plus sign before a channel, a longer name and text after the parenthesis, a word as opacity
example : ∀ text ∈ ["rgb(+1, 2, 3)", "rgbx(1, 2, 3)y", "RGBA(1, 2, 3, -NaN%)"],
    (Rgba.read? text).isSome := by decide

/-- Texts that are of no documented form are read: a plus sign is taken for a digit. -/
theorem Rgba.plus_read_as_digit :
    ¬ ∀ text, (read? text).isSome → ColorSyntax.documented.Admits (Text.trimChars text.toList) := by
  intro h
  have hform : ColorSyntax.documented.Admits "#+1+2+3".toList := h "#+1+2+3" (by decide)
  cases hform with
  | hex h => exact absurd (h.2 '+' (by decide)) (by decide)
  | function hcs hname =>
    obtain ⟨rest, rfl⟩ := ColorSyntax.rgb_prefix_of_name (ColorSyntax.accepted_name hname)
    cases hcs

end Cascade
