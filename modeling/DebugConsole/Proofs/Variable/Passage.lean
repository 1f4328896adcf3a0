import DebugConsole.Variable.Segments

set_option autoImplicit false

/-!
# Texts that are not cut

A text passes the scanner at a depth if it is read without being cut and the scanner stands afterwards
where it stood before (`Segments.Passes`).  What stands between quotes passes, and so does what stands
between braces if it passes one level deeper.  Texts that pass at the top level, joined by commas, are cut
into just these texts.
-/

namespace DebugConsole.Segments

variable {depth : Nat} {mark c : Char} {text text' inside inside' : List Char}

/-! ## Quotations -/

/-- A text that may stand between quotes: every backslash stands before another character, and the mark
only behind a backslash. -/
inductive Inside (mark : Char) : List Char → Prop
  | nil : Inside mark []
  | plain {c : Char} {rest : List Char} (h : c ≠ mark ∧ c ≠ '\\') (hrest : Inside mark rest) :
      Inside mark (c :: rest)
  | escape (c : Char) {rest : List Char} (hrest : Inside mark rest) : Inside mark ('\\' :: c :: rest)

theorem Inside.append (h : Inside mark inside) (h' : Inside mark inside') :
    Inside mark (inside ++ inside') := by
  induction h with
  | nil => exact h'
  | plain hc _ ih => exact .plain hc ih
  | escape c _ ih => exact .escape c ih

/-- What is put together of pieces that may stand between quotes may stand there. -/
theorem Inside.flatMap {α : Type} {f : α → List Char} {as : List α} (h : ∀ a ∈ as, Inside mark (f a)) :
    Inside mark (as.flatMap f) := by
  induction as with
  | nil => exact .nil
  | cons a as ih =>
    rw [List.flatMap_cons]
    exact (h a List.mem_cons_self).append (ih fun b hb => h b (List.mem_cons_of_mem _ hb))

theorem Inside.of_forall (h : ∀ c ∈ inside, c ≠ mark ∧ c ≠ '\\') : Inside mark inside := by
  induction inside with
  | nil => exact .nil
  | cons c inside ih =>
    exact .plain (h c List.mem_cons_self) (ih fun d hd => h d (List.mem_cons_of_mem _ hd))

/-! ## Steps of the scanner -/

theorem cutFrom_step {s s' : Scanner} (body : String) (segment rest : List Char)
    (hcut : s.cutsAt c = false) (hnext : s.next? c = some s') :
    cutFrom body s segment (c :: rest) = cutFrom body s' (c :: segment) rest := by
  rw [cutFrom, hcut, hnext]
  rfl

theorem cutsAt_of_mode {s : Scanner} (h : s.mode ≠ .plain) (c : Char) : s.cutsAt c = false := by
  have hopen : s.isClosed = false := by
    unfold Scanner.isClosed
    rw [beq_eq_false_iff_ne]
    rintro rfl
    exact h rfl
  rw [Scanner.cutsAt, hopen, Bool.false_and]

theorem cutsAt_of_depth (depth : Nat) (mode : Mode) (c : Char) :
    Scanner.cutsAt ⟨depth + 1, mode⟩ c = false := by
  have hopen : Scanner.isClosed ⟨depth + 1, mode⟩ = false := by
    unfold Scanner.isClosed
    rw [beq_eq_false_iff_ne]
    rintro ⟨⟩
  rw [Scanner.cutsAt, hopen, Bool.false_and]

theorem cutsAt_of_ne (s : Scanner) (h : c ≠ ',') : s.cutsAt c = false := by
  rw [Scanner.cutsAt, beq_eq_false_iff_ne.2 h, Bool.and_false]

/-- Between quotes nothing is cut, and the mark ends the quotation. -/
theorem cutFrom_inside (h : Inside mark inside) (body : String) (depth : Nat)
    (segment rest : List Char) (hmark : mark ≠ '\\') :
    cutFrom body ⟨depth, .quoted mark⟩ segment (inside ++ mark :: rest) =
      cutFrom body ⟨depth, .plain⟩ (mark :: (inside.reverse ++ segment)) rest := by
  induction h generalizing segment with
  | nil =>
    refine cutFrom_step body segment rest (cutsAt_of_mode Mode.noConfusion mark) ?_
    simp [Scanner.next?, hmark]
  | @plain c inside hc _ ih =>
    have hnext : Scanner.next? ⟨depth, .quoted mark⟩ c = some ⟨depth, .quoted mark⟩ := by
      simp [Scanner.next?, hc.1, hc.2]
    rw [List.cons_append, cutFrom_step body segment _ (cutsAt_of_mode Mode.noConfusion c) hnext, ih,
      List.reverse_cons, List.append_assoc, List.singleton_append]
  | @escape c inside _ ih =>
    have hfirst : Scanner.next? ⟨depth, .quoted mark⟩ '\\' = some ⟨depth, .escaped mark⟩ := by
      simp [Scanner.next?]
    have hsecond : Scanner.next? ⟨depth, .escaped mark⟩ c = some ⟨depth, .quoted mark⟩ := rfl
    rw [List.cons_append, List.cons_append,
      cutFrom_step body segment _ (cutsAt_of_mode Mode.noConfusion _) hfirst,
      cutFrom_step body _ _ (cutsAt_of_mode Mode.noConfusion c) hsecond, ih]
    simp

/-! ## Texts that pass -/

/-- Read at a depth, a text is not cut, and the scanner stands afterwards where it stood before. -/
def Passes (depth : Nat) (text : List Char) : Prop :=
  ∀ (body : String) (segment rest : List Char),
    cutFrom body ⟨depth, .plain⟩ segment (text ++ rest) =
      cutFrom body ⟨depth, .plain⟩ (text.reverse ++ segment) rest

/-- The characters that mean something to the scanner. -/
def special : List Char := [',', '{', '}', '"', '\'']

theorem passes_nil (depth : Nat) : Passes depth [] := fun _ _ _ => rfl

theorem Passes.append (h : Passes depth text) (h' : Passes depth text') :
    Passes depth (text ++ text') := by
  intro body segment rest
  rw [List.append_assoc, h, h', List.reverse_append, List.append_assoc]

theorem passes_of_step (hcut : Scanner.cutsAt ⟨depth, .plain⟩ c = false)
    (hnext : Scanner.next? ⟨depth, .plain⟩ c = some ⟨depth, .plain⟩) : Passes depth [c] :=
  fun body segment rest => cutFrom_step body segment rest hcut hnext

theorem passes_of_not_special (depth : Nat) (h : ∀ c ∈ text, c ∉ special) : Passes depth text := by
  induction text with
  | nil => exact passes_nil depth
  | cons c text ih =>
    have hc : c ∉ special := h c List.mem_cons_self
    simp only [special, List.mem_cons, List.not_mem_nil, or_false, not_or] at hc
    obtain ⟨hcomma, hopen, hclose, hdouble, hsingle⟩ := hc
    have hpasses : Passes depth [c] :=
      passes_of_step (cutsAt_of_ne _ hcomma) (by simp [Scanner.next?, hopen, hclose, hdouble, hsingle])
    exact hpasses.append (ih fun d hd => h d (List.mem_cons_of_mem _ hd))

/-- A comma that stands between braces does not cut. -/
theorem passes_comma (depth : Nat) : Passes (depth + 1) [','] :=
  passes_of_step (cutsAt_of_depth depth .plain ',') (by simp [Scanner.next?])

/-- A quotation passes. -/
theorem passes_quotation (depth : Nat) (hmark : mark = '"' ∨ mark = '\'') (h : Inside mark inside) :
    Passes depth (mark :: (inside ++ [mark])) := by
  intro body segment rest
  have hopens : Scanner.next? ⟨depth, .plain⟩ mark = some ⟨depth, .quoted mark⟩ := by
    rcases hmark with rfl | rfl <;> rfl
  have hcut : Scanner.cutsAt ⟨depth, .plain⟩ mark = false :=
    cutsAt_of_ne _ (by rcases hmark with rfl | rfl <;> decide)
  have hbackslash : mark ≠ '\\' := by rcases hmark with rfl | rfl <;> decide
  rw [List.cons_append, cutFrom_step body segment _ hcut hopens, List.append_assoc,
    List.singleton_append, cutFrom_inside h body depth _ rest hbackslash]
  simp

/-- What stands between braces passes if it passes one level deeper. -/
theorem Passes.braces (h : Passes (depth + 1) inside) : Passes depth ('{' :: (inside ++ ['}'])) := by
  intro body segment rest
  have hopens : Scanner.next? ⟨depth, .plain⟩ '{' = some ⟨depth + 1, .plain⟩ := rfl
  have hcloses : Scanner.next? ⟨depth + 1, .plain⟩ '}' = some ⟨depth, .plain⟩ := rfl
  rw [List.cons_append, cutFrom_step body segment _ (cutsAt_of_ne _ (by decide)) hopens,
    List.append_assoc, h, List.singleton_append,
    cutFrom_step body _ rest (cutsAt_of_ne _ (by decide)) hcloses]
  simp

/-- Between braces, texts that pass may be joined by commas. -/
theorem passes_intercalate {parts : List (List Char)} (h : ∀ p ∈ parts, Passes (depth + 1) p) :
    Passes (depth + 1) ([','].intercalate parts) := by
  induction parts with
  | nil => exact passes_nil _
  | cons p parts ih =>
    have hp : Passes (depth + 1) p := h p List.mem_cons_self
    have hrest := ih fun q hq => h q (List.mem_cons_of_mem _ hq)
    cases parts with
    | nil => simpa [List.intercalate] using hp
    | cons q parts =>
      rw [List.intercalate_cons_cons]
      exact (hp.append (passes_comma depth)).append hrest

/-! ## Splitting -/

/-- Texts that pass at the top level, joined by commas, are cut into these texts. -/
theorem cutFrom_intercalate (body : String) {parts : List (List Char)} (hne : parts ≠ [])
    (h : ∀ p ∈ parts, Passes 0 p) :
    cutFrom body .start [] ([','].intercalate parts) = .ok parts := by
  have hend : ∀ p, Passes 0 p → cutFrom body .start [] p = .ok [p] := by
    intro p hp
    have hlast := hp body [] []
    rw [List.append_nil, List.append_nil] at hlast
    refine hlast.trans ?_
    rw [cutFrom, List.reverse_reverse]
    rfl
  induction parts with
  | nil => exact absurd rfl hne
  | cons p parts ih =>
    have hp : Passes 0 p := h p List.mem_cons_self
    have hrest : ∀ q ∈ parts, Passes 0 q := fun q hq => h q (List.mem_cons_of_mem _ hq)
    cases parts with
    | nil => simpa [List.intercalate] using hend p hp
    | cons q parts =>
      have hcuts : ∀ segment rest, cutFrom body ⟨0, .plain⟩ segment (',' :: rest) =
          (cutFrom body .start [] rest).map (segment.reverse :: ·) := by
        intro segment rest
        rw [cutFrom]
        rfl
      have hpasses : cutFrom body .start [] (p ++ ',' :: [','].intercalate (q :: parts)) =
          cutFrom body ⟨0, .plain⟩ (p.reverse ++ []) (',' :: [','].intercalate (q :: parts)) := hp body [] _
      rw [List.intercalate_cons_cons, List.append_assoc, List.singleton_append, hpasses, hcuts,
        ih (List.cons_ne_nil q parts) hrest, List.append_nil, List.reverse_reverse]
      rfl

/-- Splitting inverts joining, but for blanks. -/
theorem split_intercalate {parts : List (List Char)} (hne : parts ≠ []) (h : ∀ p ∈ parts, Passes 0 p) :
    split ([','].intercalate parts) =
      .ok ((parts.map Text.trim).filter fun part => !part.isEmpty) := by
  rw [split, cutFrom_intercalate _ hne h]
  rfl

end DebugConsole.Segments
