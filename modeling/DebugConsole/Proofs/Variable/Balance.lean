import DebugConsole.Proofs.Text.Blanks
import DebugConsole.Proofs.Variable.Passage

set_option autoImplicit false

/-!
# Texts that may stand between commas

A text may stand between commas if its quotes and braces come in pairs, no comma stands in it outside of
them, and no blank stands at its ends (`Segments.IsPart`).  However many of these are joined by commas, they
are the segments that the whole is cut into.
-/

namespace DebugConsole.Segments

open Text (isBlank)

variable {inBraces : Bool} {c mark : Char} {text text' inside lead : List Char} {parts : List (List Char)}

/-- The scanner takes no notice of blanks. -/
theorem not_special_of_isBlank (h : isBlank c = true) : c ∉ special := by
  have hspecial : ∀ d ∈ special, (!isBlank d) = true := List.all_eq_true.1 (by decide)
  intro hmem
  simpa [h] using hspecial c hmem

/-! ## Balanced texts -/

/-- A text in which quotes and braces come in pairs; in one that stands in braces there may be commas. -/
inductive Balanced : Bool → List Char → Prop
  | nil {inBraces : Bool} : Balanced inBraces []
  | plain {inBraces : Bool} {c : Char} {rest : List Char} (h : c ∉ special) (hrest : Balanced inBraces rest) :
      Balanced inBraces (c :: rest)
  | comma {rest : List Char} (hrest : Balanced true rest) : Balanced true (',' :: rest)
  | quotation {inBraces : Bool} {mark : Char} {inside rest : List Char} (hmark : mark = '"' ∨ mark = '\'')
      (h : Inside mark inside) (hrest : Balanced inBraces rest) :
      Balanced inBraces (mark :: (inside ++ mark :: rest))
  | braces {inBraces : Bool} {inside rest : List Char} (h : Balanced true inside)
      (hrest : Balanced inBraces rest) : Balanced inBraces ('{' :: (inside ++ '}' :: rest))

namespace Balanced

theorem append (h : Balanced inBraces text) (h' : Balanced inBraces text') :
    Balanced inBraces (text ++ text') := by
  induction h with
  | nil => exact h'
  | plain hc _ ih => exact .plain hc (ih h')
  | comma _ ih => exact .comma (ih h')
  | quotation hmark hinside _ ih =>
    rw [List.cons_append, List.append_assoc]
    exact .quotation hmark hinside (ih h')
  | braces hinside _ _ ih =>
    rw [List.cons_append, List.append_assoc]
    exact .braces hinside (ih h')

/-- What is balanced may stand in braces. -/
theorem inner (h : Balanced inBraces text) : Balanced true text := by
  induction h with
  | nil => exact .nil
  | plain hc _ ih => exact .plain hc ih
  | comma _ ih => exact .comma ih
  | quotation hmark hinside _ ih => exact .quotation hmark hinside ih
  | braces hinside _ _ ih => exact .braces hinside ih

theorem of_not_special (h : ∀ c ∈ text, c ∉ special) : Balanced inBraces text := by
  induction text with
  | nil => exact .nil
  | cons c text ih =>
    exact .plain (h c List.mem_cons_self) (ih fun d hd => h d (List.mem_cons_of_mem _ hd))

theorem quoted (hmark : mark = '"' ∨ mark = '\'') (h : Inside mark inside) :
    Balanced inBraces (mark :: (inside ++ [mark])) := .quotation hmark h .nil

theorem braced (h : Balanced true inside) : Balanced inBraces ('{' :: (inside ++ ['}'])) := .braces h .nil

/-- A balanced text passes the scanner; one with commas does so in braces. -/
theorem passes (h : Balanced inBraces text) :
    ∀ depth, (inBraces = true → 0 < depth) → Passes depth text := by
  induction h with
  | nil => exact fun depth _ => passes_nil depth
  | @plain _ c rest hc _ ih =>
    intro depth hdepth
    have hpasses : Passes depth [c] := passes_of_not_special depth (List.forall_mem_singleton.2 hc)
    exact hpasses.append (ih depth hdepth)
  | comma _ ih =>
    intro depth hdepth
    obtain ⟨outer, rfl⟩ := Nat.exists_eq_succ_of_ne_zero (Nat.ne_of_gt (hdepth rfl))
    exact (passes_comma outer).append (ih _ hdepth)
  | @quotation _ mark inside rest hmark hinside _ ih =>
    intro depth hdepth
    have hpasses := (passes_quotation depth hmark hinside).append (ih depth hdepth)
    rwa [List.cons_append, List.append_assoc] at hpasses
  | @braces _ inside rest _ _ ihinside ih =>
    intro depth hdepth
    have hpasses := (ihinside (depth + 1) fun _ => Nat.succ_pos depth).braces.append (ih depth hdepth)
    rwa [List.cons_append, List.append_assoc] at hpasses

end Balanced

/-! ## Joined texts -/

/-- A text that may stand between commas. -/
structure IsPart (text : List Char) : Prop where
  balanced : Balanced false text
  ne_nil : text ≠ []
  head : ∀ c ∈ text.head?, isBlank c = false
  last : ∀ c ∈ text.getLast?, isBlank c = false

theorem IsPart.trim (h : IsPart text) (hlead : ∀ c ∈ lead, isBlank c = true) :
    Text.trim (lead ++ text) = text := by
  simpa using Text.trim_append hlead (List.forall_mem_nil _) h.head h.last

theorem IsPart.trim_self (h : IsPart text) : Text.trim text = text :=
  h.trim (List.forall_mem_nil _)

/-- What stands between two marks may stand between commas, if it is balanced with them. -/
theorem IsPart.of_ends {first last : Char} (hbalanced : Balanced false (first :: (inside ++ [last])))
    (hfirst : isBlank first = false) (hlast : isBlank last = false) :
    IsPart (first :: (inside ++ [last])) where
  balanced := hbalanced
  ne_nil := List.cons_ne_nil _ _
  head := by
    rintro c ⟨⟩
    exact hfirst
  last := by
    rw [← List.cons_append, List.getLast?_concat]
    rintro c ⟨⟩
    exact hlast

/-- Texts joined by commas, as a debugger joins them. -/
def joined (parts : List (List Char)) : List Char := [',', ' '].intercalate parts

/-- A text behind the comma that joins it to what stands before it. -/
def separated (part : List Char) : List Char := ',' :: ' ' :: part

theorem joined_cons (p : List Char) (parts : List (List Char)) :
    joined (p :: parts) = p ++ parts.flatMap separated := by
  induction parts generalizing p with
  | nil => rw [joined, List.intercalate_singleton, List.flatMap_nil, List.append_nil]
  | cons q parts ih =>
    have hrest : [',', ' '].intercalate (q :: parts) = q ++ parts.flatMap separated := ih q
    rw [joined, List.intercalate_cons_cons, hrest, List.append_assoc, List.flatMap_cons]
    rfl

theorem joined_eq_drop (parts : List (List Char)) : joined parts = (parts.flatMap separated).drop 2 := by
  cases parts with
  | nil => rfl
  | cons p parts =>
    rw [joined_cons, List.flatMap_cons]
    rfl

theorem Balanced.joined (h : ∀ p ∈ parts, Balanced true p) : Balanced true (joined parts) := by
  have hspace : ' ' ∉ special := by decide
  have hseparated : ∀ {parts : List (List Char)}, (∀ p ∈ parts, Balanced true p) →
      Balanced true (parts.flatMap separated) := by
    intro parts h
    induction parts with
    | nil => exact .nil
    | cons p parts ih =>
      obtain ⟨hp, hparts⟩ := List.forall_mem_cons.1 h
      rw [List.flatMap_cons]
      exact (Balanced.comma (.plain hspace hp)).append (ih hparts)
  cases parts with
  | nil => exact .nil
  | cons p parts =>
    obtain ⟨hp, hparts⟩ := List.forall_mem_cons.1 h
    rw [joined_cons]
    exact hp.append (hseparated hparts)

/-- The blank behind a comma belongs to the text that is cut. -/
theorem joined_eq_intercalate (p : List Char) (parts : List (List Char)) :
    joined (p :: parts) = [','].intercalate (p :: parts.map (' ' :: ·)) := by
  induction parts generalizing p with
  | nil => rw [joined_cons, List.flatMap_nil, List.append_nil, List.map_nil, List.intercalate_singleton]
  | cons q parts ih =>
    have hrest := ih (' ' :: q)
    rw [joined_cons] at hrest ⊢
    rw [List.map_cons, List.intercalate_cons_cons, ← hrest, List.flatMap_cons, List.append_assoc]
    rfl

/-- Texts that may stand between commas, joined by commas, are the segments that the whole is cut into. -/
theorem split_joined (h : ∀ p ∈ parts, IsPart p) : split (joined parts) = .ok parts := by
  cases parts with
  | nil => rfl
  | cons p parts =>
    obtain ⟨hp, hparts⟩ := List.forall_mem_cons.1 h
    have hblank : ∀ q, IsPart q → Passes 0 (' ' :: q) := fun q hq =>
      (Balanced.plain (by decide) hq.balanced).passes 0 Bool.noConfusion
    have hpasses : ∀ q ∈ p :: parts.map (' ' :: ·), Passes 0 q := by
      rw [List.forall_mem_cons, List.forall_mem_map]
      exact ⟨hp.balanced.passes 0 Bool.noConfusion, fun q hq => hblank q (hparts q hq)⟩
    have htrim : (p :: parts.map (' ' :: ·)).map Text.trim = p :: parts := by
      have hspace : ∀ c ∈ [' '], isBlank c = true := List.forall_mem_singleton.2 rfl
      have hmap : parts.map (Text.trim ∘ (' ' :: ·)) = parts.map id :=
        List.map_congr_left fun q hq => (hparts q hq).trim hspace
      rw [List.map_cons, List.map_map, hmap, List.map_id, hp.trim_self]
    rw [joined_eq_intercalate, split_intercalate (List.cons_ne_nil _ _) hpasses, htrim,
      List.filter_eq_self.2]
    intro q hq
    rw [Bool.not_eq_true', List.isEmpty_eq_false_iff]
    exact (h q hq).ne_nil

end DebugConsole.Segments
