import DebugConsole.Proofs.Variable.Characters
import DebugConsole.Proofs.Variable.Numbers

set_option autoImplicit false

/-!
# What a printed value is recognised as

Quotations and braces are recognised by the marks at their two ends; neither is taken for a number, and
nothing that ends as a value does is taken for the note on how often a value repeats.  The inside of a
character array is decoded byte by byte.
-/

namespace DebugConsole.Printed

open Text (isBlank isDecimal)
open Segments (Inside)

variable {c first last : Char} {s inside body text rest : List Char}

/-! ## The ends of a text -/

/-- A text starts and ends as a value does. -/
structure Framed (s : List Char) : Prop where
  head : ∃ c ∈ s.head?, isBlank c = false ∧ c ≠ '[' ∧ c ≠ '<'
  last : ∃ c ∈ s.getLast?, isBlank c = false ∧ c ≠ '>'

theorem framed_of_ends (s : List Char) (hfirst : isBlank first = false ∧ first ≠ '[' ∧ first ≠ '<')
    (hlast : isBlank last = false ∧ last ≠ '>') : Framed (first :: (s ++ [last])) where
  head := ⟨first, rfl, hfirst⟩
  last := ⟨last, by rw [← List.cons_append, List.getLast?_concat]; rfl, hlast⟩

theorem ne_of_notMem_marks {m : Char} (hc : c ∉ marks) (hm : m ∈ marks) : c ≠ m := by
  rintro rfl
  exact hc hm

theorem Bare.framed (h : Bare s) (hne : s ≠ []) : Framed s where
  head := by
    obtain ⟨hblank, hmarks⟩ := h _ (List.head_mem hne)
    exact ⟨s.head hne, List.head?_eq_some_head hne, hblank, ne_of_notMem_marks hmarks (by decide),
      ne_of_notMem_marks hmarks (by decide)⟩
  last := by
    obtain ⟨hblank, hmarks⟩ := h _ (List.getLast_mem hne)
    exact ⟨s.getLast hne, List.getLast?_eq_some_getLast hne, hblank,
      ne_of_notMem_marks hmarks (by decide)⟩

/-! ## Repeats -/

theorem isRepeat_eq_false (h : ∀ c ∈ s.getLast?, c ≠ '>') : Literal.isRepeat s = false := by
  have hend : " times>".toList.getLast? = some '>' := by decide
  have hnone : Text.before? s " times>".toList = none := by
    rw [Option.eq_none_iff_forall_ne_some]
    intro counted hcounted
    rw [Text.before?_eq_some_iff] at hcounted
    refine h '>' ?_ rfl
    rw [hcounted, List.getLast?_append, hend]
    rfl
  rw [Literal.isRepeat, hnone]

theorem isRepeatBody_eq_false (h : ∀ c ∈ s.getLast?, c ≠ '>' ∧ c ≠ '\n') :
    Literal.isRepeatBody s = false := by
  have hnone : Text.before? s ['\n'] = none := by
    rw [Option.eq_none_iff_forall_ne_some]
    intro start hstart
    rw [Text.before?_eq_some_iff] at hstart
    exact (h '\n' (by rw [hstart, List.getLast?_concat]; rfl)).2 rfl
  rw [Literal.isRepeatBody, isRepeat_eq_false fun c hc => (h c hc).1, hnone]
  rfl

/-! ## Character arrays -/

theorem Byte.exists_octal (value : Fin 256) : ∃ a b c : Fin 8,
    (octal value).text = CharArray.octal a b c ∧ value.val = a * 64 + b * 8 + c := by
  have hvalue := value.isLt
  exact ⟨⟨value / 64, by omega⟩, ⟨value / 8 % 8, by omega⟩, ⟨value % 8, by omega⟩, rfl, by dsimp only; omega⟩

theorem Byte.reads (b : Byte) : CharArray.Reads b.text [b.value] := by
  cases b with
  | plain c h isByte => exact .plain h.2 .nil
  | letter e h => exact .letter h .nil
  | octal value =>
    obtain ⟨a, b, c, htext, hvalue⟩ := exists_octal value
    rw [htext, Byte.value, hvalue]
    exact .octal a b c .nil

/-- The bytes of an array are decoded one by one, whatever stands beside them. -/
theorem decodeFrom_byte (body : String) (b : Byte) (rest : List Char) :
    CharArray.decodeFrom body 0 (b.text ++ rest) =
      (CharArray.decodeFrom body 0 rest).map (b.value :: ·) := b.reads.decodeFrom_append body rest

theorem decode_bytes (body : String) (bytes : List Byte) :
    CharArray.decodeFrom body 0 (bytes.flatMap Byte.text) = .ok (bytes.map Byte.value) := by
  induction bytes with
  | nil => rfl
  | cons b bytes ih => rw [List.flatMap_cons, decodeFrom_byte, ih, List.map_cons]; rfl

theorem hasEscape_byte (b : Byte) (rest : List Char) :
    CharArray.hasEscape (b.text ++ rest) = (b.isEscaped || CharArray.hasEscape rest) := by
  cases b with
  | plain c h isByte => simp [Byte.text, Byte.isEscaped, CharArray.hasEscape, h.2]
  | letter e h => simp [Byte.text, Byte.isEscaped, CharArray.hasEscape, CharArray.letterValue?_letter h]
  | octal value =>
    obtain ⟨a, b, c, htext, -⟩ := Byte.exists_octal value
    rw [htext, CharArray.hasEscape_octal]
    rfl

theorem hasEscape_bytes (bytes : List Byte) :
    CharArray.hasEscape (bytes.flatMap Byte.text) = bytes.any Byte.isEscaped := by
  induction bytes with
  | nil => rfl
  | cons b bytes ih => rw [List.flatMap_cons, hasEscape_byte, ih, List.any_cons]

theorem hasEscape_eq_false (h : ∀ c ∈ s, c ≠ '\\') : CharArray.hasEscape s = false := by
  induction s with
  | nil => rfl
  | cons c s ih =>
    have hc : c ≠ '\\' := h c List.mem_cons_self
    simp [CharArray.hasEscape, hc, ih fun d hd => h d (List.mem_cons_of_mem _ hd)]

theorem inside_byte (b : Byte) : Inside '"' b.text := by
  have hdigit : ∀ d < 8, Nat.digitChar d ≠ '"' ∧ Nat.digitChar d ≠ '\\' := by decide
  cases b with
  | plain c h isByte => exact .plain h .nil
  | letter e h => exact .escape e.1 .nil
  | octal value =>
    have hvalue := value.isLt
    exact .escape _ (.plain (hdigit _ (by omega)) (.plain (hdigit _ (by omega)) .nil))

theorem Bytes.isInside (b : Bytes) : Inside '"' b.inside := .flatMap fun byte _ => inside_byte byte

theorem ofQuotation_plain (string : PlainText) :
    Literal.ofQuotation string.chars = .ok (.scalar .string string.chars) := by
  rw [Literal.ofQuotation, hasEscape_eq_false fun c hc => (string.all c hc).2]
  rfl

theorem ofQuotation_bytes (b : Bytes) :
    Literal.ofQuotation b.inside = .ok (.bytes (b.bytes.map Byte.value)) := by
  have hescape : CharArray.hasEscape b.inside = true := by
    rw [Bytes.inside, hasEscape_bytes, List.any_eq_true]
    exact b.escaped
  rw [Literal.ofQuotation, hescape, if_pos rfl, CharArray.decode, String.toList_ofList, Bytes.inside,
    decode_bytes]
  rfl

/-! ## Quotations and braces -/

/-- What does not start as a number is none. -/
theorem isFloat_eq_false (h : Literal.dropMinus text = c :: rest) (hdecimal : isDecimal c = false)
    (hi : c ≠ 'i') (hn : c ≠ 'n') : Literal.isFloat text = false := by
  have hreal : Literal.isReal (c :: rest) = false := by
    rw [Literal.isReal, Text.run?_eq_none (by rintro d ⟨⟩; exact hdecimal)]
  have hnan : Literal.isNan (c :: rest) = false := by
    have hafter : Text.after? ['n', 'a', 'n'] (c :: rest) = none := if_neg (by simpa using hn.symm)
    rw [Literal.isNan, hafter]
  have hinf : (c :: rest == ['i', 'n', 'f']) = false := by
    rw [beq_eq_false_iff_ne]
    exact fun hs => hi (List.cons.inj hs).1
  rw [Literal.isFloat]
  simp only [h, hreal, hnan, hinf, Bool.or_self]

theorem quotedTail?_inside (h : Inside '"' inside) : Literal.quotedTail? (inside ++ ['"']) = some inside := by
  induction h with
  | nil => rfl
  | plain hc _ ih => simp [Literal.quotedTail?, hc.1, hc.2, ih]
  | escape c _ ih => simp [Literal.quotedTail?, ih]

/-- A text that is no number and no repeat is a quotation, braces or neither. -/
theorem classify_eq (hinteger : Literal.integer? text = none) (hfloat : Literal.isFloat text = false)
    (hrepeat : Literal.isRepeat text = false) (hsingle : Literal.isRepeatedAggregate text = .ok false) :
    Literal.classify text =
      match Literal.quotation? text with
      | some inside => Literal.ofQuotation inside
      | none =>
        match Literal.braces? text with
        | some body => .ok (.braces body)
        | none => .ok (.scalar .raw text) := by
  rw [Literal.classify, hinteger, hfloat, hrepeat, hsingle]
  rfl

theorem classify_quotation (h : Inside '"' inside) :
    Literal.classify ('"' :: (inside ++ ['"'])) = Literal.ofQuotation inside := by
  have hlast : ∀ c ∈ ('"' :: (inside ++ ['"'])).getLast?, c ≠ '>' := by
    rw [← List.cons_append, List.getLast?_concat]
    rintro c ⟨⟩
    decide
  rw [classify_eq (integer?_eq_none_of_head rfl (by decide))
    (isFloat_eq_false rfl (by decide) (by decide) (by decide)) (isRepeat_eq_false hlast) rfl]
  rw [Literal.quotation?, quotedTail?_inside h]

theorem classify_braces (h : ∀ c ∈ body.getLast?, c ≠ '>' ∧ c ≠ '\n') :
    Literal.classify ('{' :: (body ++ ['}'])) = .ok (.braces body) := by
  have hlast : ∀ c ∈ ('{' :: (body ++ ['}'])).getLast?, c ≠ '>' := by
    rw [← List.cons_append, List.getLast?_concat]
    rintro c ⟨⟩
    decide
  have hbraces : Literal.braces? ('{' :: (body ++ ['}'])) = some body := Text.before?_eq_some_iff.2 rfl
  have hsingle : Literal.isRepeatedAggregate ('{' :: (body ++ ['}'])) = .ok false := by
    rw [Literal.isRepeatedAggregate, hbraces]
    simp [isRepeatBody_eq_false h]
  rw [classify_eq (integer?_eq_none_of_head rfl (by decide))
    (isFloat_eq_false rfl (by decide) (by decide) (by decide)) (isRepeat_eq_false hlast) hsingle, hbraces]
  rfl

end DebugConsole.Printed
