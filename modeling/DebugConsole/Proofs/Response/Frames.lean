import DebugConsole.Proofs.Numeral.Spelling
import DebugConsole.Proofs.Response.Places
import DebugConsole.Proofs.Variable.Members

set_option autoImplicit false

/-!
# Frames of the call stack

A frame is printed with its level, its address if that is not where a source line starts, the function with
its parameters, and the source place if it is known (`Grammar.FrameLine`).  Neither parameters nor paths are
quoted, so what looks like the mark of a place may stand in the parameters of a frame that has one.  Since
the last mark counts, and a path holds none, every frame is read as it was printed (`read_frameLine`).

What a frame must be like is in the fields of `FrameLine`, so that nothing has to be assumed of one: a path
without the mark, and no such mark where there is no place.
-/

namespace DebugConsole

namespace Text

variable {β : Type} {accept : List Char → Option β} {b : β} {c : Char} {mark s start rest : List Char}

/-! ## Marks -/

/-- A mark is not put together of what stands around a character that it does not hold. -/
theorem infix_append_cons (hmark : c ∉ mark) (h : mark <:+: s ++ c :: rest) :
    mark <:+: s ∨ mark <:+: rest := by
  rcases List.infix_append_iff.1 h with hs | hrest | ⟨front, back, rfl, hfront, hback⟩
  · exact .inl hs
  · rcases List.infix_cons_iff.1 hrest with hprefix | hrest
    · cases mark with
      | nil => exact .inl (List.nil_infix)
      | cons m mark =>
        exact absurd (by rw [(List.cons_prefix_cons.1 hprefix).1]; exact List.mem_cons_self) hmark
    · exact .inr hrest
  · cases back with
    | nil => exact .inl (by simpa using hfront.isInfix)
    | cons m back =>
      exact absurd (by rw [(List.cons_prefix_cons.1 hback).1]; simp) hmark

theorem lastCut?_eq_none (h : ¬ mark <:+: s) : lastCut? mark accept s = none := by
  rw [Option.eq_none_iff_forall_ne_some]
  rintro ⟨start, b⟩ hcut
  obtain ⟨rest, rfl, -⟩ := lastCut?_sound hcut
  exact h (List.infix_append start mark rest)

theorem lastCut?_append (lead : List Char) (h : lastCut? mark accept s = some (start, b)) :
    lastCut? mark accept (lead ++ s) = some (lead ++ start, b) := by
  induction lead with
  | nil => exact h
  | cons c lead ih =>
    rw [List.cons_append, lastCut?, ih]
    rfl

/-- A cut is made at a mark whose remainder is accepted, if no other mark begins behind its first character. -/
theorem lastCut?_of_last (lead : List Char) (haccept : accept rest = some b)
    (hlast : ¬ (c :: mark) <:+: mark ++ rest) :
    lastCut? (c :: mark) accept (lead ++ c :: (mark ++ rest)) = some (lead, b) := by
  have hhere : lastCut? (c :: mark) accept (c :: (mark ++ rest)) = some ([], b) := by
    have hafter : after? (c :: mark) (c :: (mark ++ rest)) = some rest := after?_eq_some_iff.2 rfl
    rw [lastCut?, lastCut?_eq_none hlast, hafter, Option.bind_some, haccept]
    rfl
  simpa using lastCut?_append lead hhere

end Text

namespace Grammar

open Printed (Count HexDigits Run)
open Text (after? isBlank isDecimal run run?)

variable {params word : List Char}

/-- What stands between the parameters of a frame and its place. -/
def placeMark : List Char := ") at ".toList

/-! ## Printed frames -/

/-- The source place of a frame. -/
structure FramePlace where
  path : List Char
  nonempty : path ≠ []
  oneLine : isOneLine path = true
  unmarked : ¬ placeMark <:+: path
  line : Count

/-- A frame of the call stack as it is printed. -/
structure FrameLine where
  level : Count
  /-- what stands between the level and the rest -/
  gap : Run isBlank
  address : Option HexDigits
  name : List Char
  nonempty : name ≠ []
  unbroken : ∀ c ∈ name, isBlank c = false
  params : List Char
  oneLine : isOneLine params = true
  place : Option FramePlace
  /-- without a place, nothing in the parameters looks like the mark of one -/
  unmarked : place = none → ¬ placeMark <:+: params

def FramePlace.text (place : FramePlace) : List Char := place.path ++ ':' :: place.line.chars

namespace FrameLine

def addressChars (f : FrameLine) : Option (List Char) :=
  f.address.map fun digits => '0' :: 'x' :: digits.chars

/-- What stands behind the parenthesis that opens the parameters. -/
def ending (f : FrameLine) : List Char :=
  f.params ++ f.place.elim [')'] fun place => placeMark ++ place.text

/-- What stands behind the level. -/
def call (f : FrameLine) : List Char :=
  f.addressChars.elim [] (· ++ " in ".toList) ++ (f.name ++ (" (".toList ++ f.ending))

def text (f : FrameLine) : List Char := '#' :: (f.level.chars ++ (f.gap.chars ++ f.call))

/-- The frame that is printed. -/
def frame (f : FrameLine) : StackFrame where
  level := f.level.value
  function := signature f.name f.params
  address := f.addressChars.map String.ofList
  file := f.place.map fun place => String.ofList place.path
  fileName := f.place.map fun place => Text.fileName (String.ofList place.path)
  line := f.place.map fun place => place.line.value
  params := Variable.decodeParameters f.params

end FrameLine

/-! ## Up to the parameters -/

theorem run?_word (hne : word ≠ []) (h : ∀ c ∈ word, isBlank c = false) (rest : List Char) :
    run? (!isBlank ·) (word ++ ' ' :: rest) = some (word, ' ' :: rest) := by
  refine Text.run?_append_of_all hne (fun c hc => by rw [h c hc]; rfl) ?_
  rintro c ⟨⟩
  decide

/-- A function whose parameters follow is not taken for an address. -/
theorem frameAddress_name (hne : word ≠ []) (h : ∀ c ∈ word, isBlank c = false) (rest : List Char) :
    frameAddress (word ++ (" (".toList ++ rest)) = (none, word ++ (" (".toList ++ rest)) := by
  unfold frameAddress
  split
  · next digits behind hhex =>
    split
    · next behind' hin =>
      -- the name and the address would both end at the first blank
      obtain ⟨marked, hmark, hdigits⟩ := Option.bind_eq_some_iff.1 hhex
      have htext : word ++ ' ' :: ('(' :: rest) =
          ('0' :: 'x' :: digits) ++ ' ' :: ("in ".toList ++ behind') := by
        refine (Text.after?_eq_some_iff.1 hmark).trans ?_
        rw [Text.run?_append hdigits, Text.after?_eq_some_iff.1 hin]
        rfl
      have hhexadecimal : ∀ c ∈ '0' :: 'x' :: digits, isBlank c = false := by
        rw [List.forall_mem_cons, List.forall_mem_cons]
        exact ⟨by decide, by decide, fun c hc => Text.isBlank_of_isHex (Text.mem_of_run? hdigits hc)⟩
      have hname := run?_word hne h ('(' :: rest)
      rw [htext, run?_word (List.cons_ne_nil _ _) hhexadecimal] at hname
      simp at hname
    · rfl
  · rfl

theorem frameAddress_text (digits : HexDigits) (rest : List Char) :
    frameAddress ('0' :: 'x' :: (digits.chars ++ (" in ".toList ++ rest))) =
      (some ('0' :: 'x' :: digits.chars), rest) := by
  have hhex : Literal.hexRun? ('0' :: 'x' :: (digits.chars ++ (" in ".toList ++ rest))) =
      some (digits.chars, " in ".toList ++ rest) := by
    refine Printed.hexRun?_hexadecimal digits ?_
    rintro c ⟨⟩
    decide
  have hin : after? " in ".toList (" in ".toList ++ rest) = some rest := Text.after?_eq_some_iff.2 rfl
  rw [frameAddress, hhex]
  dsimp only
  rw [hin]

namespace FrameLine

theorem frameAddress_call (f : FrameLine) :
    frameAddress f.call = (f.addressChars, f.name ++ (" (".toList ++ f.ending)) := by
  unfold call addressChars
  cases f.address with
  | none => exact frameAddress_name f.nonempty f.unbroken f.ending
  | some digits =>
    rw [Option.map_some, Option.elim_some, List.append_assoc]
    exact frameAddress_text digits _

/-- What stands behind the level does not start with a blank. -/
theorem isBlank_head_call (f : FrameLine) : ∀ c ∈ f.call.head?, isBlank c = false := by
  unfold call addressChars
  cases f.address with
  | none =>
    obtain ⟨c, name, hname⟩ := List.exists_cons_of_ne_nil f.nonempty
    rw [Option.map_none, Option.elim_none, List.nil_append, hname]
    rintro c ⟨⟩
    exact f.unbroken c (by rw [hname]; exact List.mem_cons_self)
  | some digits =>
    rintro c ⟨⟩
    decide

theorem frameHead?_text (f : FrameLine) :
    frameHead? f.text = some {
      level := f.level.chars
      address := f.addressChars
      name := f.name
      tail := f.ending } := by
  have hmark : after? ['#'] f.text = some (f.level.chars ++ (f.gap.chars ++ f.call)) :=
    Text.after?_eq_some_iff.2 rfl
  have hlevel : run? isDecimal (f.level.chars ++ (f.gap.chars ++ f.call)) =
      some (f.level.chars, f.gap.chars ++ f.call) := by
    refine Printed.run?_digits f.level.digits ?_
    obtain ⟨c, gap, hgap⟩ := List.exists_cons_of_ne_nil f.gap.nonempty
    have hc : isBlank c = true := f.gap.all c (by rw [hgap]; exact List.mem_cons_self)
    rw [hgap]
    rintro d ⟨⟩
    rw [← Bool.not_eq_true]
    exact fun hdecimal => by cases hc.symm.trans (Text.isBlank_of_isDecimal hdecimal)
  have hgap : run? isBlank (f.gap.chars ++ f.call) = some (f.gap.chars, f.call) :=
    Text.run?_append_of_all f.gap.nonempty f.gap.all f.isBlank_head_call
  have hname : run? (!isBlank ·) (f.name ++ (" (".toList ++ f.ending)) =
      some (f.name, " (".toList ++ f.ending) := run?_word f.nonempty f.unbroken _
  have hopen : after? " (".toList (" (".toList ++ f.ending) = some f.ending := Text.after?_eq_some_iff.2 rfl
  unfold frameHead?
  simp only [hmark, hlevel, hgap, f.frameAddress_call, hname, hopen, Option.bind_eq_bind, Option.bind_some]
  rfl

end FrameLine

/-! ## From the parameters on -/

theorem isOneLine_count (count : Count) : isOneLine count.chars = true :=
  isOneLine_of_not_blank fun c hc => Text.isBlank_of_isDecimal (count.digits.all c hc)

theorem number_count (count : Count) : number count.chars = .ok count.value := by
  rw [number, count.readDecimal_chars]
  rfl

/-- The mark of a frame's place is the last one. -/
theorem FramePlace.unmarked_text (place : FramePlace) : ¬ placeMark <:+: " at ".toList ++ place.text := by
  intro h
  have htext : placeMark <:+: place.path ++ ':' :: place.line.chars := by
    -- the parenthesis is none of the four characters
    simpa [placeMark, List.infix_cons_iff, List.cons_prefix_cons, FramePlace.text] using h
  have hcolon : ':' ∉ placeMark := by decide
  rcases Text.infix_append_cons hcolon htext with hpath | hline
  · exact place.unmarked hpath
  · have hclose : isDecimal ')' = true := place.line.digits.all ')' (hline.subset (by decide))
    revert hclose
    decide

theorem placedTail?_text (hone : isOneLine params = true) (place : FramePlace) :
    placedTail? (params ++ (placeMark ++ place.text)) = some (params, place.path, place.line.chars) := by
  have hline : isOneLine (params ++ (placeMark ++ place.text)) = true := by
    have hmark : isOneLine placeMark = true := by decide
    have hcolon : isOneLine [':'] = true := by decide
    rw [isOneLine_append, isOneLine_append, FramePlace.text, isOneLine_append, ← List.singleton_append,
      isOneLine_append, hone, hmark, place.oneLine, hcolon, isOneLine_count]
    rfl
  have hplace := pathAndLine?_append place.line.digits place.nonempty place.oneLine
  rw [placedTail?, if_pos hline]
  exact Text.lastCut?_of_last params hplace place.unmarked_text

theorem placedTail?_unplaced (h : ¬ placeMark <:+: params) : placedTail? (params ++ [')']) = none := by
  have hmark : ¬ placeMark <:+: params ++ [')'] := by
    rw [List.infix_concat_iff, not_or]
    refine ⟨?_, h⟩
    rintro ⟨front, hfront⟩
    have hlast := congrArg List.getLast? hfront
    rw [List.getLast?_concat, List.getLast?_append] at hlast
    cases hlast
  unfold placedTail?
  split
  · exact Text.lastCut?_eq_none hmark
  · rfl

theorem unplacedTail?_text (hone : isOneLine params = true) :
    unplacedTail? (params ++ [')']) = some params := by
  have hcut : Text.lastCut? [')'] (fun rest => if isFrameEnd rest then some () else none) (params ++ [')']) =
      some (params, ()) := Text.lastCut?_of_last params rfl (by decide)
  rw [unplacedTail?, hcut]
  exact if_pos hone

/-! ## The frame -/

theorem readFrame_text (f : FrameLine) : readFrame f.text = .ok (some f.frame) := by
  have hlevel := number_count f.level
  unfold readFrame
  rw [f.frameHead?_text]
  dsimp only
  unfold FrameLine.ending FrameLine.frame
  cases hplace : f.place with
  | some place =>
    have hline := number_count place.line
    simp only [Option.elim_some, placedTail?_text f.oneLine place, hlevel, hline]
    rfl
  | none =>
    simp only [Option.elim_none, placedTail?_unplaced (f.unmarked hplace), unplacedTail?_text f.oneLine,
      hlevel]
    rfl

/-- Every frame is read as it was printed.  If its parameters are malformed, it is without these. -/
theorem read_frameLine (f : FrameLine) :
    stack.read (String.ofList f.text) = .ok (some (.frame f.frame)) ∧
      (f.frame.params = none ↔ ∃ m, Variable.decode "params" ('{' :: (f.params ++ ['}'])) = .error m) := by
  constructor
  · rw [read, String.toList_ofList, readFrame_text]
    rfl
  · change Variable.decodeParameters f.params = none ↔ _
    rw [Variable.decodeParameters_eq]
    cases Variable.decode "params" ('{' :: (f.params ++ ['}'])) with
    | error m => simp [Except.toOption]
    | ok v => simp [Except.toOption]

/-- A frame with the mark of a place in one of its parameters. -/
def marked : FrameLine where
  level := .ofNat 0 (by decide)
  gap := ⟨[' ', ' '], by decide, List.all_eq_true.1 rfl⟩
  address := none
  name := "log".toList
  nonempty := by decide
  unbroken := List.all_iff_forall_prop.1 (by decide)
  params := "s=0x81 \"(x) at y\"".toList
  oneLine := rfl
  place := some {
    path := "main.c".toList
    nonempty := by decide
    oneLine := rfl
    unmarked := by decide
    line := .ofNat 12 (by decide) }
  unmarked := nofun

/-- The place is the last one, and the mark stays with the parameters. -/
theorem read_frameLine_marked :
    stack.read "#0  log (s=0x81 \"(x) at y\") at main.c:12" = .ok (some (.frame marked.frame)) ∧
      marked.frame.function = "log (s=0x81 \"(x) at y\")" ∧ marked.frame.file = some "main.c" ∧
      marked.frame.line = some 12 := by
  have htext : String.ofList marked.text = "#0  log (s=0x81 \"(x) at y\") at main.c:12" := rfl
  exact ⟨htext ▸ (read_frameLine marked).1, rfl, rfl, rfl⟩

end Grammar

end DebugConsole
