import DebugConsole.Proofs.Variable.Balance
import DebugConsole.Proofs.Variable.Expansion
import DebugConsole.Proofs.Variable.RoundTrip
import Mathlib.Data.List.Basic

set_option autoImplicit false

/-!
# Values that are printed in pieces

A character array that repeats a character often is compressed: it is printed as quotations and repeated
characters, with commas between them.  So a printed value is one piece or several, or an aggregate of members
with or without names (`Compressed.Value`).  A piece is decoded by itself, whatever name it is given, and is
not taken for a member that has a name (`Compressed.Stands`).
-/

namespace DebugConsole.Compressed

open Printed (Digits Glyph Name)
open Segments (Inside IsPart joined)
open Text (isBlank)

/-! ## What is printed -/

/-- The text of a scalar: no quotation, no aggregate, and nothing that has a name. -/
structure Word where
  text : List Char
  isPart : IsPart text
  unquoted : Literal.quotation? text = none
  unbraced : Literal.braces? text = none
  unnamed : Draft.member? text = none

/-- What stands before the number in the note on how often a value repeats. -/
def noteStart : List Char := " <repeats ".toList

/-- What stands behind the number in the note. -/
def noteEnd : List Char := " times>".toList

def note (count : Digits) : List Char := noteStart ++ (count.chars ++ noteEnd)

/-- The inside of a quotation in which every backslash starts one of the known escapes. -/
inductive Readable : List Char → Prop
  | nil : Readable []
  | plain {c : Char} {rest : List Char} (h : c ≠ '"' ∧ c ≠ '\\') (hrest : Readable rest) :
      Readable (c :: rest)
  | letter {e : Char × Nat} {rest : List Char} (h : e ∈ Printed.letterEscapes) (hrest : Readable rest) :
      Readable ('\\' :: e.1 :: rest)
  | octal {a b c : Char} {rest : List Char} (h : ∀ d ∈ [a, b, c], d ∈ "01234567".toList)
      (hrest : Readable rest) : Readable ('\\' :: a :: b :: c :: rest)

/-- What is printed without a comma of its own. -/
inductive Piece where
  | word (w : Word)
  | quoted (inside : List Char) (h : Readable inside)

def Piece.text : Piece → List Char
  | word w => w.text
  | quoted inside _ => '"' :: (inside ++ ['"'])

/-- A value behind its name. -/
def labelled (name : Name) (text : List Char) : List Char := name.chars ++ ' ' :: '=' :: ' ' :: text

mutual

/-- A printed value. -/
inductive Value : Type where
  /-- a scalar, a string or a character array: one piece, or several if it is compressed -/
  | pieces (first : Piece) (more : List Piece)
  | aggregate (members : Members)

/-- The members of an aggregate, with or without names. -/
inductive Members : Type where
  | nil
  | named (name : Name) (value : Value) (rest : Members)
  | placed (value : Value) (rest : Members)

end

mutual

def Value.text : Value → List Char
  | .pieces first more => joined ((first :: more).map Piece.text)
  | .aggregate members => '{' :: (joined members.texts ++ ['}'])

def Members.texts : Members → List (List Char)
  | .nil => []
  | .named name value rest => labelled name value.text :: rest.texts
  | .placed value rest => value.text :: rest.texts

end

/-- The members of a structure. -/
def Members.ofList : List (Name × Value) → Members
  | [] => .nil
  | (name, value) :: members => .named name value (ofList members)

/-- Is the value printed in one piece? -/
def Value.isWhole : Value → Bool
  | .pieces _ more => more.isEmpty
  | .aggregate _ => true

/-- Does a member's value end in the note on how often it repeats? The note stands behind a blank, which may
be the one before the value. -/
def EndsRepeated (text : List Char) : Prop :=
  ∃ (start : List Char) (count : Digits), ' ' :: text = start ++ note count

/-! ## Repeats -/

theorem isRepeat_iff {text : List Char} : Literal.isRepeat text = true ↔
    ∃ (value : List Char) (count : Digits), value ≠ [] ∧ text = value ++ note count := by
  constructor
  · intro h
    unfold Literal.isRepeat at h
    split at h
    · cases h
    · next counted hcounted =>
      have happend := Text.run_append Text.isDecimal counted.reverse
      have hall : ∀ c ∈ (Text.run Text.isDecimal counted.reverse).1.reverse, Text.isDecimal c = true :=
        fun c hc => Text.mem_run (List.mem_reverse.1 hc)
      simp only [Bool.and_eq_true, Bool.not_eq_true', List.isEmpty_eq_false_iff, Option.any_eq_true] at h
      obtain ⟨hdigits, value, hvalue, hne⟩ := h
      obtain rfl : text = counted ++ noteEnd := Text.before?_eq_some_iff.1 hcounted
      have hstart := Text.before?_eq_some_iff.1 hvalue
      generalize Text.run Text.isDecimal counted.reverse = digits at happend hall hdigits hstart
      refine ⟨value, ⟨digits.1.reverse, mt List.reverse_eq_nil_iff.1 hdigits, hall⟩, hne, ?_⟩
      have hcounted := congrArg List.reverse happend
      rw [List.reverse_append, List.reverse_reverse, hstart] at hcounted
      rw [← hcounted, note, List.append_assoc, List.append_assoc]
      rfl
  · rintro ⟨value, count, hne, rfl⟩
    have hcounted : Text.before? (value ++ note count) noteEnd = some (value ++ (noteStart ++ count.chars)) :=
      Text.before?_eq_some_iff.2 (by simp only [note, List.append_assoc])
    have hvalue : Text.before? (value ++ noteStart) noteStart = some value := Text.before?_eq_some_iff.2 rfl
    have hreverse : (value ++ (noteStart ++ count.chars)).reverse =
        count.chars.reverse ++ (value ++ noteStart).reverse := by
      rw [← List.append_assoc, List.reverse_append]
    have hall : ∀ c ∈ count.chars.reverse, Text.isDecimal c = true := fun c hc =>
      count.all c (List.mem_reverse.1 hc)
    have hdigits : Text.run Text.isDecimal (value ++ (noteStart ++ count.chars)).reverse =
        (count.chars.reverse, (value ++ noteStart).reverse) := by
      rw [hreverse, Text.run_append_of_all hall]
      rw [List.reverse_append]
      rintro c ⟨⟩
      decide
    unfold Literal.isRepeat
    rw [show Text.before? _ " times>".toList = _ from hcounted]
    simp only [hdigits, List.reverse_reverse]
    rw [show Text.before? _ " <repeats ".toList = _ from hvalue]
    simp [count.nonempty, hne]

theorem equals_notMem_note (count : Digits) : '=' ∉ note count := by
  have hdecimal : Text.isDecimal '=' = false := by decide
  rw [note, List.mem_append, List.mem_append]
  rintro (h | h | h)
  · revert h
    decide
  · cases hdecimal.symm.trans (count.all '=' h)
  · revert h
    decide

/-! ## Words -/

/-- What is bare means nothing to the scanner. -/
theorem not_special_of_bare {text : List Char} (h : Printed.Bare text) :
    ∀ c ∈ text, c ∉ Segments.special := by
  have hmarks : ∀ c ∈ Segments.special, c ∈ Printed.marks := List.all_iff_forall_prop.1 (by decide)
  exact fun c hc hspecial => (h c hc).2 (hmarks c hspecial)

theorem note_not_special (count : Digits) : ∀ c ∈ note count, c ∉ Segments.special := by
  have hstart : ∀ c ∈ noteStart, c ∉ Segments.special := List.all_iff_forall_prop.1 (by decide)
  have hend : ∀ c ∈ noteEnd, c ∉ Segments.special := List.all_iff_forall_prop.1 (by decide)
  rw [note, List.forall_mem_append, List.forall_mem_append]
  exact ⟨hstart, not_special_of_bare (Printed.bare_digits count), hend⟩

/-- A text has no name if it starts with a character that no name starts with. -/
theorem member?_cons_eq_none {c : Char} (hname : Text.isName c = false ∧ isBlank c = false ∧ c ≠ '=')
    (hlabel : c ≠ '[' ∧ c ≠ '<') (rest : List Char) : Draft.member? (c :: rest) = none := by
  rw [← List.nil_append (c :: rest)]
  refine Printed.member?_eq_none (List.forall_mem_nil _) ?_ ?_
  · rintro d ⟨⟩
    exact hlabel
  · rintro d ⟨⟩
    exact hname

/-- A character that repeats, in a compressed array. -/
def Word.repeated (glyph : Glyph) (count : Digits) : Word where
  text := '\'' :: (glyph.inside ++ '\'' :: note count)
  isPart := by
    refine ⟨.quotation (.inr rfl) glyph.isInside (.of_not_special (note_not_special count)),
      List.cons_ne_nil _ _, by rintro c ⟨⟩; decide, ?_⟩
    have hend : '\'' :: (glyph.inside ++ '\'' :: note count) =
        '\'' :: (glyph.inside ++ '\'' :: (noteStart ++ count.chars)) ++ noteEnd := by simp [note]
    rw [hend, List.getLast?_append_of_ne_nil _ (by decide)]
    rintro c ⟨⟩
    decide
  unquoted := rfl
  unbraced := rfl
  unnamed := member?_cons_eq_none (by decide) (by decide) _

/-- A number, or the name of a value. -/
def Word.bare (text : List Char) (h : Printed.Bare text) (hne : text ≠ []) : Word where
  text := text
  isPart := by
    exact ⟨.of_not_special (not_special_of_bare h), hne, fun c hc => (h c (List.mem_of_head? hc)).1,
      fun c hc => (h c (List.mem_of_getLast? hc)).1⟩
  unquoted := by
    unfold Literal.quotation?
    split
    · exact absurd (by decide) (h '"' List.mem_cons_self).2
    · rfl
  unbraced := by
    unfold Literal.braces?
    split
    · exact absurd (by decide) (h '{' List.mem_cons_self).2
    · rfl
  unnamed := by
    obtain ⟨first, hfirst, -, hhead⟩ := (h.framed hne).head
    rw [← List.append_nil text]
    refine Printed.member?_eq_none h.ne_equals ?_ (by rintro c ⟨⟩)
    rw [List.append_nil]
    intro c hc
    rwa [Option.mem_unique hc hfirst]

/-! ## Pieces -/

/-- A piece is decoded, whatever name it is given, and has none of its own. -/
structure Stands (text : List Char) : Prop where
  isPart : IsPart text
  unnamed : Draft.member? text = none
  decodes : ∀ name, ∃ v, Variable.build name text = .ok v

theorem classify_word (w : Word) : ∃ kind text, Literal.classify w.text = .ok (.scalar kind text) := by
  have hrepeated : Literal.isRepeatedAggregate w.text = .ok false := by
    rw [Literal.isRepeatedAggregate, w.unbraced]
  unfold Literal.classify
  split
  · exact ⟨_, _, rfl⟩
  · split
    · exact ⟨_, _, rfl⟩
    · split
      · exact ⟨_, _, rfl⟩
      · rw [hrepeated, w.unquoted, w.unbraced]
        exact ⟨_, _, rfl⟩

theorem Word.stands (w : Word) : Stands w.text where
  isPart := w.isPart
  unnamed := w.unnamed
  decodes := by
    intro name
    obtain ⟨kind, text, hword⟩ := classify_word w
    rw [Variable.build_eq, w.isPart.trim_self, hword]
    exact ⟨_, rfl⟩

namespace Readable

variable {inside : List Char}

theorem isInside (h : Readable inside) : Inside '"' inside := by
  have hoctal : ∀ d ∈ "01234567".toList, d ≠ '"' ∧ d ≠ '\\' := List.all_iff_forall_prop.1 (by decide)
  induction h with
  | nil => exact .nil
  | plain hc _ ih => exact .plain hc ih
  | letter _ _ ih => exact .escape _ ih
  | octal hdigits _ ih =>
    simp only [List.forall_mem_cons] at hdigits
    exact .escape _ (.plain (hoctal _ hdigits.2.1) (.plain (hoctal _ hdigits.2.2.1) ih))

theorem exists_reads (h : Readable inside) : ∃ values, CharArray.Reads inside values := by
  have hoctal : ∀ d ∈ "01234567".toList, ∃ digit : Fin 8, d = Nat.digitChar digit := fun d hd => by
    have hall : ∀ d ∈ "01234567".toList, (Text.octalValue? d).isSome = true := List.all_eq_true.1 (by decide)
    obtain ⟨value, hvalue⟩ := Option.isSome_iff_exists.1 (hall d hd)
    obtain ⟨digit, hdigit, -⟩ := CharArray.digitChar_of_octalValue? hvalue
    exact ⟨digit, hdigit⟩
  induction h with
  | nil => exact ⟨_, .nil⟩
  | plain hc _ ih =>
    obtain ⟨_, hreads⟩ := ih
    exact ⟨_, .plain hc.2 hreads⟩
  | letter he _ ih =>
    obtain ⟨_, hreads⟩ := ih
    exact ⟨_, .letter he hreads⟩
  | octal hdigits _ ih =>
    obtain ⟨_, hreads⟩ := ih
    simp only [List.forall_mem_cons] at hdigits
    obtain ⟨a, rfl⟩ := hoctal _ hdigits.1
    obtain ⟨b, rfl⟩ := hoctal _ hdigits.2.1
    obtain ⟨c, rfl⟩ := hoctal _ hdigits.2.2.1
    exact ⟨_, .octal a b c hreads⟩

/-- What stands between quotes is a string or a character array. -/
theorem ofQuotation (h : Readable inside) :
    (∃ text, Literal.ofQuotation inside = .ok (.scalar .string text)) ∨
      ∃ values, Literal.ofQuotation inside = .ok (.bytes values) := by
  unfold Literal.ofQuotation
  split
  · obtain ⟨values, hvalues⟩ := h.exists_reads
    rw [CharArray.decode_eq_ok_iff.2 (by rwa [String.toList_ofList])]
    exact .inr ⟨values, rfl⟩
  · exact .inl ⟨inside, rfl⟩

/-- A quotation. -/
theorem stands (h : Readable inside) : Stands ('"' :: (inside ++ ['"'])) := by
  have hpart : IsPart ('"' :: (inside ++ ['"'])) :=
    .of_ends (.quoted (.inl rfl) h.isInside) (by decide) (by decide)
  refine ⟨hpart, member?_cons_eq_none (by decide) (by decide) _, fun name => ?_⟩
  rw [Variable.build_eq, hpart.trim_self, Printed.classify_quotation h.isInside]
  obtain ⟨text, htext⟩ | ⟨values, hvalues⟩ := h.ofQuotation
  · rw [htext]
    exact ⟨_, rfl⟩
  · rw [hvalues]
    exact ⟨_, rfl⟩

end Readable

theorem Piece.stands (p : Piece) : Stands p.text := by
  cases p with
  | word w => exact w.stands
  | quoted inside h => exact h.stands

end DebugConsole.Compressed
