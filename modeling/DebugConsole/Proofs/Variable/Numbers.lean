import DebugConsole.Proofs.Text.Blanks
import DebugConsole.Proofs.Variable.Passage
import DebugConsole.Proofs.Variable.Printed
import DebugConsole.Variable.Literal
import Mathlib.Data.Bool.AllAny

set_option autoImplicit false

/-!
# Printed numbers

Numbers are bare: none of their characters is blank or has a meaning for the structure of a value.  An
integer is recognised by the digits at its start and by what follows them; a floating-point number by what
follows its first digits, or by its word if it has no digits.
-/

namespace DebugConsole.Printed

open Text (isBlank isDecimal isHex isName run?)

variable {p : Char → Bool} {mark c : Char} {s t rest : List Char}

/-! ## Bare texts -/

/-- The characters that have a meaning for the structure of a value. -/
def marks : List Char := [',', '{', '}', '"', '\'', '=', '<', '>', '[', ']']

/-- No character of the text is blank or a mark. -/
def Bare (s : List Char) : Prop := ∀ c ∈ s, isBlank c = false ∧ c ∉ marks

instance : DecidablePred Bare := List.decidableBAll _

theorem Bare.append (hs : Bare s) (ht : Bare t) : Bare (s ++ t) := fun c hc =>
  (List.mem_append.1 hc).elim (hs c) (ht c)

theorem Bare.cons (hc : Bare [c]) (hs : Bare s) : Bare (c :: s) := hc.append hs

/-- A class of characters without blanks and marks. -/
theorem Run.bare (r : Run p) (hblank : ∀ {c}, p c = true → isBlank c = false)
    (hmarks : marks.any p = false) : Bare r.chars := fun c hc =>
  ⟨hblank (r.all c hc), fun hmark => List.any_eq_false.1 hmarks c hmark (r.all c hc)⟩

theorem bare_digits (digits : Digits) : Bare digits.chars :=
  digits.bare Text.isBlank_of_isDecimal (by decide)

theorem bare_hexDigits (digits : HexDigits) : Bare digits.chars :=
  digits.bare Text.isBlank_of_isHex (by decide)

theorem bare_name (name : Name) : Bare name.chars :=
  name.bare Text.isBlank_of_isName (by decide)

theorem bare_signText (isNegative : Bool) : Bare (signText isNegative) := by
  cases isNegative <;> decide

theorem Magnitude.bare (m : Magnitude) : Bare m.text := by
  cases m with
  | decimal digits => exact bare_digits digits
  | hexadecimal digits => exact Bare.append (s := ['0', 'x']) (by decide) (bare_hexDigits digits)

theorem Integer.bare (n : Integer) : Bare n.text :=
  (bare_signText n.isNegative).append n.magnitude.bare

theorem Power.bare (power : Power) : Bare power.text := by
  have hmark : Bare [if power.isUpper then 'E' else 'e'] := by cases power.isUpper <;> decide
  have hsign : Bare power.sign.text := by cases power.sign <;> decide
  exact hmark.cons (hsign.append (bare_digits power.digits))

theorem bare_letter (letter : Option TypeLetter) : Bare (letter.toList.map (·.val)) := by
  have hall : ∀ l ∈ typeLetters, Bare [l] := List.all_iff_forall_prop.1 (by decide)
  cases letter with
  | none => decide
  | some letter => exact hall letter.val letter.property

theorem Scale.bare (scale : Scale) : Bare scale.text := by
  cases scale with
  | fractional whole fraction power letter =>
    have hpower : Bare (power.elim [] Power.text) := by
      cases power with
      | none => decide
      | some power => exact power.bare
    exact (bare_digits whole).append
      (Bare.cons (by decide) ((bare_digits fraction).append (hpower.append (bare_letter letter))))
  | scaled whole power letter => exact (bare_digits whole).append (power.bare.append (bare_letter letter))
  | infinite => decide
  | nan payload =>
    cases payload with
    | none => decide
    | some digits =>
      exact Bare.append (s := ['n', 'a', 'n', '(', '0', 'x']) (by decide)
        ((bare_hexDigits digits).append (by decide))

theorem Real.bare (x : Real) : Bare x.text := (bare_signText x.isNegative).append x.scale.bare

/-! ## Integers -/

theorem dropMinus_signText (isNegative : Bool) (h : ∀ c ∈ s.head?, c ≠ '-') :
    Literal.dropMinus (signText isNegative ++ s) = s := by
  cases isNegative with
  | true => rfl
  | false =>
    unfold Literal.dropMinus
    split
    · next hs => exact absurd rfl (h '-' (by rw [show s = _ from hs]; rfl))
    · rfl

theorem Digits.head (digits : Digits) (rest : List Char) :
    ∀ c ∈ (digits.chars ++ rest).head?, isDecimal c = true := by
  obtain ⟨d, ds, hd⟩ := List.exists_cons_of_ne_nil digits.nonempty
  rw [hd]
  rintro c ⟨⟩
  exact digits.all d (by rw [hd]; exact List.mem_cons_self)

/-- Decimal digits are no hexadecimal number, unless the mark of one follows. -/
theorem hexRun?_decimal (digits : Digits) (h : ∀ c ∈ rest.head?, c ≠ 'x') :
    Literal.hexRun? (digits.chars ++ rest) = none := by
  have hx : isDecimal 'x' = false := by decide
  have hnone : Text.after? ['0', 'x'] (digits.chars ++ rest) = none := by
    rw [Option.eq_none_iff_forall_ne_some]
    intro tail htail
    rw [Text.after?_eq_some_iff] at htail
    obtain ⟨d, ds, hd⟩ := List.exists_cons_of_ne_nil digits.nonempty
    cases ds with
    | nil =>
      rw [hd] at htail
      obtain ⟨-, hrest⟩ := List.cons.inj htail
      exact h 'x' (by rw [show rest = _ from hrest]; rfl) rfl
    | cons e ds =>
      have he : isDecimal e = true := digits.all e (by simp [hd])
      rw [hd] at htail
      simp only [List.cons_append, List.cons.injEq] at htail
      rw [htail.2.1, hx] at he
      cases he
  rw [Literal.hexRun?, hnone]
  rfl

theorem hexRun?_hexadecimal (digits : HexDigits) (h : ∀ c ∈ rest.head?, isHex c = false) :
    Literal.hexRun? ('0' :: 'x' :: (digits.chars ++ rest)) = some (digits.chars, rest) :=
  Text.run?_append_of_all digits.nonempty digits.all h

theorem run?_digits (digits : Digits) (h : ∀ c ∈ rest.head?, isDecimal c = false) :
    run? isDecimal (digits.chars ++ rest) = some (digits.chars, rest) :=
  Text.run?_append_of_all digits.nonempty digits.all h

theorem integer?_of_digits {text digits : List Char}
    (h : ((Literal.hexRun? (Literal.dropMinus text)).orElse fun _ =>
      run? isDecimal (Literal.dropMinus text)) = some (digits, rest)) :
    Literal.integer? text =
      if Literal.isIntegerTail rest then some (text.take (text.length - rest.length)) else none := by
  unfold Literal.integer?
  simp only [h]
  rfl

theorem Magnitude.head (m : Magnitude) (rest : List Char) :
    ∀ c ∈ (m.text ++ rest).head?, isDecimal c = true := by
  cases m with
  | decimal digits => exact digits.head rest
  | hexadecimal digits =>
    rintro c ⟨⟩
    decide

/-- The digits of an integer end where it ends. -/
theorem Magnitude.exists_digits (m : Magnitude)
    (h : ∀ c ∈ rest.head?, c ≠ 'x' ∧ isHex c = false ∧ isDecimal c = false) :
    ∃ digits, ((Literal.hexRun? (m.text ++ rest)).orElse fun _ =>
      run? isDecimal (m.text ++ rest)) = some (digits, rest) := by
  cases m with
  | decimal digits =>
    refine ⟨digits.chars, ?_⟩
    rw [Magnitude.text, hexRun?_decimal digits fun c hc => (h c hc).1,
      run?_digits digits fun c hc => (h c hc).2.2]
    rfl
  | hexadecimal digits =>
    refine ⟨digits.chars, ?_⟩
    rw [show (Magnitude.hexadecimal digits).text ++ rest = '0' :: 'x' :: (digits.chars ++ rest) from rfl,
      hexRun?_hexadecimal digits fun c hc => (h c hc).2.1]
    rfl

theorem isCharLiteralTail_stroke (stroke : Stroke) (rest : List Char) :
    Literal.isCharLiteralTail (stroke.text ++ rest) = Literal.isCharLiteralTail rest := by
  cases stroke with
  | plain c h => simp [Stroke.text, Literal.isCharLiteralTail, h.1, h.2]
  | escape c h => simp [Stroke.text, Literal.isCharLiteralTail, h]

theorem isCharLiteralTail_inside (glyph : Glyph) :
    Literal.isCharLiteralTail (glyph.inside ++ ['\'']) = true := by
  unfold Glyph.inside
  induction glyph.strokes with
  | nil => rfl
  | cons stroke strokes ih => rw [List.flatMap_cons, List.append_assoc, isCharLiteralTail_stroke, ih]

theorem isIntegerTail_glyph (glyph : Option Glyph) :
    Literal.isIntegerTail (glyph.elim [] Glyph.text) = true := by
  cases glyph with
  | none => rfl
  | some glyph => exact isCharLiteralTail_inside glyph

theorem ne_minus_of_isDecimal (h : isDecimal c = true) : c ≠ '-' := by
  rintro rfl
  cases h

/-- An integer is recognised, and its character literal is left out. -/
theorem integer?_text (n : Integer) (glyph : Option Glyph) :
    Literal.integer? (n.text ++ glyph.elim [] Glyph.text) = some n.text := by
  have hhead : ∀ c ∈ (glyph.elim [] Glyph.text).head?,
      c ≠ 'x' ∧ isHex c = false ∧ isDecimal c = false := by
    cases glyph with
    | none => rintro c ⟨⟩
    | some glyph =>
      rintro c ⟨⟩
      decide
  obtain ⟨digits, hdigits⟩ := n.magnitude.exists_digits hhead
  have hdrop : Literal.dropMinus (n.text ++ glyph.elim [] Glyph.text) =
      n.magnitude.text ++ glyph.elim [] Glyph.text := by
    rw [Integer.text, List.append_assoc,
      dropMinus_signText _ fun c hc => ne_minus_of_isDecimal (n.magnitude.head _ c hc)]
  rw [← hdrop] at hdigits
  rw [integer?_of_digits hdigits, isIntegerTail_glyph, if_pos rfl, List.length_append,
    Nat.add_sub_cancel, List.take_left' rfl]

theorem integer?_eq_none_of_head {text : List Char} (h : Literal.dropMinus text = c :: rest)
    (hc : isDecimal c = false) : Literal.integer? text = none := by
  have hzero : ('0' == c) = false := by
    rw [beq_eq_false_iff_ne]
    rintro rfl
    cases hc
  have hnone : ((Literal.hexRun? (c :: rest)).orElse fun _ => run? isDecimal (c :: rest)) = none := by
    rw [Text.run?_eq_none (s := c :: rest) (by simpa using hc)]
    simp [Literal.hexRun?, Text.after?, hzero]
  unfold Literal.integer?
  simp only [h, hnone]
  rfl

/-! ## Floating-point numbers -/

theorem isFloatTail_letter (letter : Option TypeLetter) :
    Literal.isFloatTail (letter.toList.map (·.val)) = true := by
  have hall : ∀ l ∈ typeLetters, Literal.isTypeLetter l = true := List.all_eq_true.1 (by decide)
  cases letter with
  | none => rfl
  | some letter => exact hall letter.val letter.property

theorem head_letter (letter : Option TypeLetter) : ∀ c ∈ (letter.toList.map (·.val)).head?,
    isDecimal c = false ∧ c ≠ 'e' ∧ c ≠ 'E' := by
  have hall : ∀ l ∈ typeLetters, isDecimal l = false ∧ l ≠ 'e' ∧ l ≠ 'E' :=
    List.all_iff_forall_prop.1 (by decide)
  cases letter with
  | none => rintro c ⟨⟩
  | some letter =>
    rintro c ⟨⟩
    exact hall letter.val letter.property

theorem Power.head (power : Power) (rest : List Char) :
    ∀ c ∈ (power.text ++ rest).head?, isDecimal c = false ∧ c ≠ 'x' ∧ c ≠ '.' ∧ c ≠ ' ' := by
  rintro c ⟨⟩
  cases power.isUpper <;> decide

theorem powerRun?_text (power : Power) (h : ∀ c ∈ rest.head?, isDecimal c = false) :
    Literal.powerRun? (power.text ++ rest) = some rest := by
  have hdigits := run?_digits power.digits h
  have hmark : ((if power.isUpper then 'E' else 'e') == 'e' ||
      (if power.isUpper then 'E' else 'e') == 'E') = true := by cases power.isUpper <;> rfl
  rw [Power.text, List.cons_append]
  unfold Literal.powerRun?
  simp only [hmark, if_true]
  cases power.sign with
  | absent =>
    obtain ⟨d, ds, hd⟩ := List.exists_cons_of_ne_nil power.digits.nonempty
    have hdecimal : isDecimal d = true := power.digits.all d (by simp [hd])
    have hplus : d ≠ '+' := by
      rintro rfl
      cases hdecimal
    rw [hd] at hdigits ⊢
    simp only [Sign.text, List.nil_append, List.cons_append] at hdigits ⊢
    split
    · next hs => exact absurd (List.cons.inj hs).1 (ne_minus_of_isDecimal hdecimal)
    · next hs => exact absurd (List.cons.inj hs).1 hplus
    · rw [hdigits]
      rfl
  | minus => simp [Sign.text, hdigits]
  | plus => simp [Sign.text, hdigits]

theorem powerRun?_letter (letter : Option TypeLetter) :
    Literal.powerRun? (letter.toList.map (·.val)) = none := by
  have hall : ∀ l ∈ typeLetters, Literal.powerRun? [l] = none :=
    List.all_iff_forall_prop.1 (by decide)
  cases letter with
  | none => rfl
  | some letter => exact hall letter.val letter.property

theorem isReal_fractional (whole fraction : Digits) (power : Option Power) (letter : Option TypeLetter) :
    Literal.isReal (Scale.fractional whole fraction power letter).text = true := by
  have hletter := head_letter letter
  have htail : ∀ c ∈ (power.elim [] Power.text ++ letter.toList.map (·.val)).head?,
      isDecimal c = false := by
    cases power with
    | none => exact fun c hc => (hletter c hc).1
    | some power => exact fun c hc => (power.head _ c hc).1
  rw [Scale.text, Literal.isReal, run?_digits whole (by rintro c ⟨⟩; decide)]
  simp only [run?_digits fraction htail, Option.any_some]
  cases power with
  | none =>
    rw [Option.elim_none, List.nil_append, powerRun?_letter, Option.getD_none, isFloatTail_letter]
  | some power =>
    rw [Option.elim_some, powerRun?_text power fun c hc => (hletter c hc).1, Option.getD_some,
      isFloatTail_letter]

theorem isReal_scaled (whole : Digits) (power : Power) (letter : Option TypeLetter) :
    Literal.isReal (Scale.scaled whole power letter).text = true := by
  have hpower := powerRun?_text power fun c hc => (head_letter letter c hc).1
  have hhead := power.head (letter.toList.map (·.val))
  rw [Scale.text, Literal.isReal, run?_digits whole fun c hc => (hhead c hc).1]
  split
  · next hnone => cases hnone
  · next hdot =>
    simp only [Option.some.injEq, Prod.mk.injEq] at hdot
    exact absurd rfl (hhead '.' (by rw [hdot.2]; rfl)).2.2.1
  · next hrun =>
    simp only [Option.some.injEq, Prod.mk.injEq] at hrun
    rw [← hrun.2, hpower, Option.any_some, isFloatTail_letter]

theorem isNan_payload (payload : Option HexDigits) :
    Literal.isNan (Scale.nan payload).text = true := by
  cases payload with
  | none => rfl
  | some digits =>
    have hdigits : Literal.hexRun? ('0' :: 'x' :: (digits.chars ++ [')'])) = some (digits.chars, [')']) :=
      hexRun?_hexadecimal digits (by rintro c ⟨⟩; decide)
    have hafter : Text.after? ['n', 'a', 'n'] (Scale.nan (some digits)).text =
        some ('(' :: '0' :: 'x' :: (digits.chars ++ [')'])) := rfl
    simp [Literal.isNan, hafter, hdigits]

theorem Scale.head (scale : Scale) : ∀ c ∈ scale.text.head?, c ≠ '-' := by
  cases scale with
  | fractional whole fraction power letter => exact fun c hc => ne_minus_of_isDecimal (whole.head _ c hc)
  | scaled whole power letter => exact fun c hc => ne_minus_of_isDecimal (whole.head _ c hc)
  | infinite =>
    rintro c ⟨⟩
    decide
  | nan payload =>
    rintro c ⟨⟩
    decide

theorem dropMinus_real (x : Real) : Literal.dropMinus x.text = x.scale.text :=
  dropMinus_signText x.isNegative x.scale.head

theorem isFloat_text (x : Real) : Literal.isFloat x.text = true := by
  rw [Literal.isFloat, dropMinus_real, Bool.or_eq_true, Bool.or_eq_true]
  cases x.scale with
  | fractional whole fraction power letter => exact .inl (.inl (isReal_fractional ..))
  | scaled whole power letter => exact .inl (.inl (isReal_scaled ..))
  | infinite => exact .inl (.inr rfl)
  | nan payload => exact .inr (isNan_payload payload)

/-- Digits followed by anything but a character literal are no integer. -/
theorem integer?_eq_none_of_digits {text : List Char} (digits : Digits)
    (h : Literal.dropMinus text = digits.chars ++ c :: rest) (hx : c ≠ 'x') (hdecimal : isDecimal c = false)
    (hspace : c ≠ ' ') : Literal.integer? text = none := by
  have hdigits : ((Literal.hexRun? (Literal.dropMinus text)).orElse fun _ =>
      run? isDecimal (Literal.dropMinus text)) = some (digits.chars, c :: rest) := by
    rw [h, hexRun?_decimal digits (by rintro d ⟨⟩; exact hx),
      run?_digits digits (by rintro d ⟨⟩; exact hdecimal)]
    rfl
  have htail : Literal.isIntegerTail (c :: rest) = false := by
    unfold Literal.isIntegerTail
    split
    · next hs => cases hs
    · next hs => exact absurd (List.cons.inj hs).1 hspace
    · rfl
  rw [integer?_of_digits hdigits, htail]
  rfl

theorem integer?_real (x : Real) : Literal.integer? x.text = none := by
  have hdrop := dropMinus_real x
  cases hscale : x.scale with
  | fractional whole fraction power letter =>
    rw [hscale, Scale.text] at hdrop
    exact integer?_eq_none_of_digits whole hdrop (by decide) (by decide) (by decide)
  | scaled whole power letter =>
    obtain ⟨hdecimal, hx, -, hspace⟩ := power.head [] _ rfl
    rw [hscale, Scale.text] at hdrop
    exact integer?_eq_none_of_digits whole hdrop hx hdecimal hspace
  | infinite =>
    rw [hscale] at hdrop
    exact integer?_eq_none_of_head hdrop (by decide)
  | nan payload =>
    rw [hscale] at hdrop
    exact integer?_eq_none_of_head hdrop (by decide)

end DebugConsole.Printed
