import Mathlib.Algebra.Group.Nat.Defs
import Mathlib.Data.List.Basic
import Cascade.Decimal.Reader

/-!
# The grammar of numerals

Which texts are read as numbers.  A byte is read from decimal digits of value at most 255, and from
such digits after a plus sign (`isSome_readByte?_ten`); of two hexadecimal digits the first one may
be a plus sign (`isSome_readByte?_pair`).  A double is read from a decimal numeral, and from the
words for infinity and for what is not a number, in any case and after any sign
(`isSome_readFloat?`).
-/

namespace Cascade

/-! ### Digits and bytes -/

/-- The digits of the bases up to sixteen, by their code points. -/
lemma digitValue?_eq (c : Char) :
    digitValue? c =
      if 48 ≤ c.toNat ∧ c.toNat ≤ 57 then some (c.toNat - 48)
      else if 97 ≤ c.toNat ∧ c.toNat ≤ 102 then some (c.toNat - 97 + 10)
      else if 65 ≤ c.toNat ∧ c.toNat ≤ 70 then some (c.toNat - 65 + 10)
      else none := by
  simp [digitValue?, Char.le_def, UInt32.le_iff_toNat_le]

/-- The digits of base ten. -/
lemma digitIn?_ten (c : Char) :
    digitIn? 10 c = if c.isDigit then some (c.toNat - '0'.toNat) else none := by
  have hdigit : c.isDigit ↔ 48 ≤ c.toNat ∧ c.toNat ≤ 57 := Char.isDigit_iff_toNat
  simp only [digitIn?, digitValue?_eq, hdigit]
  grind

/-- The digits of base sixteen. -/
lemma isSome_digitIn?_sixteen (c : Char) : (digitIn? 16 c).isSome = c.isHexDigit := by
  have hdigit : c.isHexDigit ↔ 48 ≤ c.toNat ∧ c.toNat ≤ 57 ∨ 97 ≤ c.toNat ∧ c.toNat ≤ 102 ∨
      65 ≤ c.toNat ∧ c.toNat ≤ 70 := by
    simp [Char.isHexDigit, Char.isDigit, UInt32.le_iff_toNat_le, or_assoc]
  rw [Bool.eq_iff_iff, hdigit, digitIn?, digitValue?_eq]
  grind

/-- A number is read from nothing but digits of its base. -/
lemma isSome_readDigits? {base : Nat} {cs : List Char} {acc : Nat} :
    (readDigits? base cs acc).isSome ↔ ∀ c ∈ cs, (digitIn? base c).isSome := by
  induction cs generalizing acc with
  | nil => simp [readDigits?]
  | cons c rest ih =>
    rw [readDigits?, List.forall_mem_cons]
    cases digitIn? base c with
    | none => simp
    | some d => simp [ih]

/-- A number that is read from few digits is small. -/
lemma readDigits?_lt {base : Nat} {cs : List Char} {acc n : Nat}
    (h : readDigits? base cs acc = some n) : n < (acc + 1) * base ^ cs.length := by
  induction cs generalizing acc with
  | nil =>
    cases h
    simp
  | cons c rest ih =>
    rw [readDigits?] at h
    obtain ⟨d, hd, h⟩ := Option.bind_eq_some_iff.1 h
    have hlt : d < base := by simpa using (Option.filter_eq_some_iff.1 hd).2
    calc
      n < (acc * base + d + 1) * base ^ rest.length := ih h
      _ ≤ (acc + 1) * base * base ^ rest.length := by
        refine Nat.mul_le_mul_right _ ?_
        rw [Nat.add_mul, Nat.one_mul]
        omega
      _ = (acc + 1) * base ^ (c :: rest).length := by
        rw [List.length_cons, Nat.pow_succ', Nat.mul_assoc]

/-- What is read from decimal digits is their value. -/
lemma readDigits?_ten (cs : List Char) (acc : Nat) :
    readDigits? 10 cs acc =
      if cs.all Char.isDigit then some (Nat.ofDigitChars 10 cs acc) else none := by
  induction cs generalizing acc with
  | nil => rfl
  | cons c rest ih =>
    rw [readDigits?, digitIn?_ten]
    cases hc : c.isDigit with
    | false => simp [hc]
    | true =>
      rw [if_pos rfl, Option.bind_some, ih, List.all_cons, hc, Bool.true_and,
        Nat.ofDigitChars_cons, Nat.mul_comm]

lemma isSome_readDigits?_ten (cs : List Char) (acc : Nat) :
    (readDigits? 10 cs acc).isSome ↔ ∀ c ∈ cs, c.isDigit := by
  simp [isSome_readDigits?, digitIn?_ten]

/-- The decimal digits of a number from 0 to 255. -/
def IsByte (cs : List Char) : Prop :=
  cs ≠ [] ∧ (∀ c ∈ cs, c.isDigit) ∧ Nat.ofDigitChars 10 cs 0 ≤ 255

/-- A byte is read from its decimal digits, also after a plus sign. -/
theorem isSome_readByte?_ten (cs : List Char) :
    (readByte? 10 cs).isSome ↔ IsByte cs ∨ ∃ digits, cs = '+' :: digits ∧ IsByte digits := by
  have hbyte (digits : List Char) :
      ((if digits.isEmpty then none else readDigits? 10 digits 0).filter (· < 256)).isSome ↔
        IsByte digits := by
    rw [readDigits?_ten, IsByte, ← List.all_eq_true]
    cases digits with
    | nil => simp
    | cons c rest =>
      cases hall : (c :: rest).all Char.isDigit with
      | false => simp
      | true => simp [Option.filter_some, Nat.lt_succ_iff]
  unfold readByte? readNat?
  dsimp only
  rw [hbyte]
  split
  next rest =>
    have hplus : ¬ IsByte ('+' :: rest) := fun h => absurd (h.2.1 '+' (by simp)) (by decide)
    simp [hplus]
  next hne =>
    have hplus : ¬ ∃ digits, cs = '+' :: digits ∧ IsByte digits := by
      rintro ⟨digits, rfl, -⟩
      exact hne digits rfl
    simp [hplus]

/-- Up to two hexadecimal digits are a byte. -/
lemma isSome_filter_readDigits? {digits : List Char} (hlength : digits.length ≤ 2) :
    ((readDigits? 16 digits 0).filter (· < 256)).isSome ↔ ∀ c ∈ digits, c.isHexDigit := by
  have hread : (readDigits? 16 digits 0).isSome ↔ ∀ c ∈ digits, c.isHexDigit := by
    simp [isSome_readDigits?, isSome_digitIn?_sixteen]
  rw [← hread]
  cases hn : readDigits? 16 digits 0 with
  | none => simp
  | some n =>
    have hlt : n < 256 := calc
      n < (0 + 1) * 16 ^ digits.length := readDigits?_lt hn
      _ ≤ 16 ^ 2 := by
        rw [Nat.zero_add, Nat.one_mul]
        exact Nat.pow_le_pow_right (by decide) hlength
    simp [Option.filter_some, hlt]

/-- A single character is read in base sixteen if it is a digit. -/
lemma isSome_readByte?_single (a : Char) : (readByte? 16 [a]).isSome ↔ a.isHexDigit := by
  by_cases hplus : a = '+'
  · subst hplus
    decide
  · have hread : readNat? 16 [a] = readDigits? 16 [a] 0 := by simp [readNat?, hplus]
    rw [readByte?, hread, isSome_filter_readDigits? (by simp), List.forall_mem_singleton]

/-- Two characters are read in base sixteen if they are digits, or a plus sign and a digit. -/
lemma isSome_readByte?_pair (a b : Char) :
    (readByte? 16 [a, b]).isSome ↔ (a = '+' ∨ a.isHexDigit) ∧ b.isHexDigit := by
  by_cases hplus : a = '+'
  · subst hplus
    have hread : readNat? 16 ['+', b] = readDigits? 16 [b] 0 := rfl
    rw [readByte?, hread, isSome_filter_readDigits? (by simp)]
    simp
  · have hread : readNat? 16 [a, b] = readDigits? 16 [a, b] 0 := by simp [readNat?, hplus]
    rw [readByte?, hread, isSome_filter_readDigits? (by simp)]
    simp [hplus]

/-! ### Decimal numbers -/

/-- A sign, or none. -/
inductive IsSign : List Char → Prop where
  | none : IsSign []
  | plus : IsSign ['+']
  | minus : IsSign ['-']

/-- The exponent of a numeral, or none. -/
inductive IsExponent : List Char → Prop where
  | none : IsExponent []
  | marked {e : Char} {sign digits : List Char} : e = 'e' ∨ e = 'E' → IsSign sign →
    digits ≠ [] → (∀ c ∈ digits, c.isDigit) → IsExponent (e :: (sign ++ digits))

/-- A decimal number without a sign: digits with or without a point among them, and an exponent. -/
inductive IsMagnitude : List Char → Prop where
  | whole {digits exponent : List Char} : digits ≠ [] → (∀ c ∈ digits, c.isDigit) →
    IsExponent exponent → IsMagnitude (digits ++ exponent)
  | point {whole fraction exponent : List Char} : whole ++ fraction ≠ [] →
    (∀ c ∈ whole, c.isDigit) → (∀ c ∈ fraction, c.isDigit) → IsExponent exponent →
    IsMagnitude (whole ++ '.' :: (fraction ++ exponent))

/-- A word for infinity or for what is not a number, in any case. -/
def IsNumberWord (cs : List Char) : Prop :=
  cs.map Char.toLower ∈ ["inf".toList, "infinity".toList, "nan".toList]

/-- A text of the given kind after a sign, or without one. -/
def Signed (P : List Char → Prop) (cs : List Char) : Prop :=
  ∃ sign body, cs = sign ++ body ∧ IsSign sign ∧ P body

/-- The sign that is split off is a sign or nothing. -/
lemma exists_sign (cs : List Char) : ∃ sign, IsSign sign ∧ cs = sign ++ (splitSign cs).2 := by
  unfold splitSign
  split
  · exact ⟨_, .minus, rfl⟩
  · exact ⟨_, .plus, rfl⟩
  · exact ⟨_, .none, rfl⟩

/-- A sign is split off from what does not begin with one. -/
lemma splitSign_append {sign body : List Char} (hsign : IsSign sign)
    (hplus : body.head? ≠ some '+') (hminus : body.head? ≠ some '-') :
    (splitSign (sign ++ body)).2 = body := by
  cases hsign with
  | none =>
    rw [List.nil_append, splitSign.eq_def]
    split <;> simp_all
  | plus => rfl
  | minus => rfl

/-- No digit is a sign. -/
lemma head?_ne_of_isDigit {digits : List Char} (h : ∀ c ∈ digits, c.isDigit) {c : Char}
    (hc : c.isDigit = false) : digits.head? ≠ some c := by
  intro hhead
  have := h c (List.mem_of_mem_head? hhead)
  simp [hc] at this

/-- After its marker, an exponent is read from digits behind a sign. -/
lemma isSome_readExponent?_cons {e : Char} (he : e = 'e' ∨ e = 'E') (rest : List Char) :
    (readExponent? (e :: rest)).isSome ↔
      (splitSign rest).2 ≠ [] ∧ ∀ c ∈ (splitSign rest).2, c.isDigit := by
  rw [readExponent?, if_pos he, ← isSome_readDigits?_ten _ 0]
  dsimp only
  cases readDigits? 10 (splitSign rest).2 0 <;> cases (splitSign rest).2 <;> simp

/-- Exponents are read, and nothing else is read as one. -/
lemma isSome_readExponent? (cs : List Char) : (readExponent? cs).isSome ↔ IsExponent cs := by
  constructor
  · intro h
    cases cs with
    | nil => exact .none
    | cons e rest =>
      have he : e = 'e' ∨ e = 'E' := by
        by_contra he
        rw [readExponent?, if_neg he] at h
        cases h
      obtain ⟨sign, hsign, hrest⟩ := exists_sign rest
      obtain ⟨hne, hdigits⟩ := (isSome_readExponent?_cons he rest).1 h
      rw [hrest]
      exact .marked he hsign hne hdigits
  · intro h
    cases h with
    | none => rfl
    | @marked e sign digits he hsign hne hdigits =>
      have hsplit : (splitSign (sign ++ digits)).2 = digits :=
        splitSign_append hsign (head?_ne_of_isDigit hdigits rfl) (head?_ne_of_isDigit hdigits rfl)
      rw [isSome_readExponent?_cons he, hsplit]
      exact ⟨hne, hdigits⟩

/-- An exponent begins with its marker. -/
lemma IsExponent.head?_eq {cs : List Char} (h : IsExponent cs) {c : Char} (hc : cs.head? = some c) :
    c = 'e' ∨ c = 'E' := by
  cases h with
  | none => cases hc
  | marked he =>
    cases hc
    exact he

lemma isDecimalDigit_eq : isDecimalDigit = Char.isDigit :=
  rfl

/-- Digits end where no digit follows. -/
lemma span_digits {digits rest : List Char} (hdigits : ∀ c ∈ digits, c.isDigit)
    (hrest : ∀ c, rest.head? = some c → c.isDigit = false) :
    (digits ++ rest).takeWhile isDecimalDigit = digits ∧
      (digits ++ rest).dropWhile isDecimalDigit = rest := by
  rw [isDecimalDigit_eq, List.takeWhile_append_of_pos hdigits, List.dropWhile_append_of_pos hdigits]
  cases rest with
  | nil => simp
  | cons c rest => simp [hrest c rfl]

/-- Every text has its digits in front. -/
lemma exists_digits (cs : List Char) : ∃ digits rest, cs = digits ++ rest ∧
    (∀ c ∈ digits, c.isDigit) ∧ ∀ c, rest.head? = some c → c.isDigit = false := by
  refine ⟨cs.takeWhile Char.isDigit, cs.dropWhile Char.isDigit,
    List.takeWhile_append_dropWhile.symm, List.all_eq_true.1 List.all_takeWhile, fun c hc => ?_⟩
  have hnot := List.head?_dropWhile_not Char.isDigit cs
  simpa [hc] using hnot

/-- Digits and an exponent are read together. -/
lemma isSome_readDigits?_bind {digits tail : List Char} {f : Nat → Int → Float} :
    (do
      let n ← readDigits? 10 digits 0
      let e ← readExponent? tail
      pure (f n e)).isSome ↔ (∀ c ∈ digits, c.isDigit) ∧ IsExponent tail := by
  rw [← isSome_readDigits?_ten _ 0, ← isSome_readExponent?]
  cases readDigits? 10 digits 0 <;> cases readExponent? tail <;> simp

/-- Digits without a point are a number if an exponent follows, or nothing. -/
lemma isSome_readMagnitude?_whole {digits rest : List Char} (hdigits : ∀ c ∈ digits, c.isDigit)
    (hrest : ∀ c, rest.head? = some c → c.isDigit = false) (hpoint : rest.head? ≠ some '.') :
    (readMagnitude? (digits ++ rest)).isSome ↔ digits ≠ [] ∧ IsExponent rest := by
  obtain ⟨htake, hdrop⟩ := span_digits hdigits hrest
  unfold readMagnitude?
  rw [htake, hdrop]
  dsimp only
  split
  next => exact absurd rfl hpoint
  next =>
    cases digits with
    | nil => simp
    | cons d digits =>
      simp only [List.isEmpty_cons, Bool.false_and, Bool.false_eq_true, if_false,
        isSome_readDigits?_bind, List.append_nil]
      simpa using fun _ => hdigits

/-- Digits around a point are a number if there is a digit, and an exponent follows, or nothing. -/
lemma isSome_readMagnitude?_point {whole fraction tail : List Char}
    (hwhole : ∀ c ∈ whole, c.isDigit) (hfraction : ∀ c ∈ fraction, c.isDigit)
    (htail : ∀ c, tail.head? = some c → c.isDigit = false) :
    (readMagnitude? (whole ++ '.' :: (fraction ++ tail))).isSome ↔
      whole ++ fraction ≠ [] ∧ IsExponent tail := by
  have hpoint : ∀ c, ('.' :: (fraction ++ tail)).head? = some c → c.isDigit = false := by
    rintro c ⟨⟩
    rfl
  obtain ⟨htake, hdrop⟩ := span_digits hwhole hpoint
  obtain ⟨htake', hdrop'⟩ := span_digits hfraction htail
  have hdigits : ∀ c ∈ whole ++ fraction, c.isDigit := List.forall_mem_append.2 ⟨hwhole, hfraction⟩
  unfold readMagnitude?
  rw [htake, hdrop]
  dsimp only
  split
  next more hmore =>
    cases hmore
    rw [htake', hdrop']
    split
    next hempty =>
      obtain ⟨rfl, rfl⟩ : whole = [] ∧ fraction = [] := by simpa using hempty
      simp
    next hempty =>
      have hne : whole ++ fraction ≠ [] := by simpa using hempty
      rw [isSome_readDigits?_bind]
      exact and_congr_left' ⟨fun _ => hne, fun _ => hdigits⟩
  next hnone => exact absurd rfl (hnone _)

/-- Numbers without a sign are read, and nothing but these. -/
lemma isSome_readMagnitude? (cs : List Char) : (readMagnitude? cs).isSome ↔ IsMagnitude cs := by
  constructor
  · intro h
    obtain ⟨whole, rest, rfl, hwhole, hrest⟩ := exists_digits cs
    by_cases hpoint : rest.head? = some '.'
    · obtain ⟨more, rfl⟩ := List.head?_eq_some_iff.1 hpoint
      obtain ⟨fraction, tail, rfl, hfraction, htail⟩ := exists_digits more
      obtain ⟨hne, hexponent⟩ := (isSome_readMagnitude?_point hwhole hfraction htail).1 h
      exact .point hne hwhole hfraction hexponent
    · obtain ⟨hne, hexponent⟩ := (isSome_readMagnitude?_whole hwhole hrest hpoint).1 h
      exact .whole hne hwhole hexponent
  · intro h
    have hmarker {exponent : List Char} (hexponent : IsExponent exponent) :
        ∀ c, exponent.head? = some c → c.isDigit = false := by
      intro c hc
      obtain rfl | rfl := hexponent.head?_eq hc <;> rfl
    cases h with
    | @whole digits exponent hne hdigits hexponent =>
      have hpoint : exponent.head? ≠ some '.' := by
        intro hc
        simpa using hexponent.head?_eq hc
      exact (isSome_readMagnitude?_whole hdigits (hmarker hexponent) hpoint).2 ⟨hne, hexponent⟩
    | @point whole fraction exponent hne hwhole hfraction hexponent =>
      exact (isSome_readMagnitude?_point hwhole hfraction (hmarker hexponent)).2 ⟨hne, hexponent⟩

/-- Neither a number nor a word for one begins with a sign. -/
lemma head?_ne_of_isMagnitude {body : List Char} (h : IsMagnitude body ∨ IsNumberWord body) :
    body.head? ≠ some '+' ∧ body.head? ≠ some '-' := by
  rw [← isSome_readMagnitude?] at h
  constructor <;>
  · intro hhead
    obtain ⟨rest, rfl⟩ := List.head?_eq_some_iff.1 hhead
    obtain h | h := h
    · simp [readMagnitude?, isDecimalDigit] at h
    · simp [IsNumberWord] at h

/-- Behind its sign, what is read as a double is a number or a word for one. -/
lemma isSome_readFloat?_splitSign (cs : List Char) :
    (readFloat? cs).isSome ↔ IsMagnitude (splitSign cs).2 ∨ IsNumberWord (splitSign cs).2 := by
  unfold readFloat?
  dsimp only
  rw [Option.isSome_map, ← isSome_readMagnitude?, IsNumberWord]
  split
  next hword => simpa using Or.inr (hword.imp_right Or.inl)
  next hword =>
    split
    next hnan => simp [hnan]
    next hnan =>
      have hother : (splitSign cs).2.map Char.toLower ∉
          ["inf".toList, "infinity".toList, "nan".toList] := by
        simpa [and_assoc] using And.intro hword hnan
      exact ⟨.inl, fun h => h.resolve_right hother⟩

/-- A double is read from a decimal number, or from a word for infinity or for what is not a number,
behind a sign or without one. -/
theorem isSome_readFloat? (cs : List Char) :
    (readFloat? cs).isSome ↔ Signed (fun body => IsMagnitude body ∨ IsNumberWord body) cs := by
  rw [isSome_readFloat?_splitSign]
  constructor
  · intro h
    obtain ⟨sign, hsign, hcs⟩ := exists_sign cs
    exact ⟨sign, _, hcs, hsign, h⟩
  · rintro ⟨sign, body, rfl, hsign, hbody⟩
    obtain ⟨hplus, hminus⟩ := head?_ne_of_isMagnitude hbody
    rwa [splitSign_append hsign hplus hminus]

/-! ### The characters of numerals -/

/-- A character that occurs in numbers, or in words for them. -/
def IsNumberChar (c : Char) : Prop :=
  c.isDigit ∨ c.toLower ∈ "+-.aefinty".toList

instance (c : Char) : Decidable (IsNumberChar c) :=
  inferInstanceAs (Decidable (_ ∨ _))

lemma IsByte.isNumberChar {cs : List Char} (h : IsByte cs) : ∀ c ∈ cs, IsNumberChar c :=
  fun c hc => .inl (h.2.1 c hc)

lemma IsSign.isNumberChar {cs : List Char} (h : IsSign cs) : ∀ c ∈ cs, IsNumberChar c := by
  cases h with
  | none => exact List.forall_mem_nil _
  | plus => exact List.forall_mem_singleton.2 (by decide)
  | minus => exact List.forall_mem_singleton.2 (by decide)

lemma IsExponent.isNumberChar {cs : List Char} (h : IsExponent cs) :
    ∀ c ∈ cs, IsNumberChar c := by
  cases h with
  | none => simp
  | marked he hsign hne hdigits =>
    rw [List.forall_mem_cons, List.forall_mem_append]
    refine ⟨?_, hsign.isNumberChar, fun c hc => .inl (hdigits c hc)⟩
    obtain rfl | rfl := he <;> decide

lemma IsMagnitude.isNumberChar {cs : List Char} (h : IsMagnitude cs) :
    ∀ c ∈ cs, IsNumberChar c := by
  cases h with
  | whole hne hdigits hexponent =>
    rw [List.forall_mem_append]
    exact ⟨fun c hc => .inl (hdigits c hc), hexponent.isNumberChar⟩
  | point hne hwhole hfraction hexponent =>
    rw [List.forall_mem_append, List.forall_mem_cons, List.forall_mem_append]
    exact ⟨fun c hc => .inl (hwhole c hc), by decide, fun c hc => .inl (hfraction c hc),
      hexponent.isNumberChar⟩

lemma IsNumberWord.isNumberChar {cs : List Char} (h : IsNumberWord cs) :
    ∀ c ∈ cs, IsNumberChar c := by
  intro c hc
  have hwords : ["inf".toList, "infinity".toList, "nan".toList].all (· ⊆ "+-.aefinty".toList) := by
    decide
  have hword := of_decide_eq_true (List.all_eq_true.1 hwords _ h)
  exact .inr (hword (List.mem_map_of_mem hc))

lemma Signed.isNumberChar {P : List Char → Prop} {cs : List Char} (h : Signed P cs)
    (hP : ∀ body, P body → ∀ c ∈ body, IsNumberChar c) : ∀ c ∈ cs, IsNumberChar c := by
  obtain ⟨sign, body, rfl, hsign, hbody⟩ := h
  exact List.forall_mem_append.2 ⟨hsign.isNumberChar, hP body hbody⟩

end Cascade
