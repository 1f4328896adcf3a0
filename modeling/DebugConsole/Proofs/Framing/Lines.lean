import DebugConsole.Channel.Framing
import Mathlib.Data.List.TakeWhile

set_option autoImplicit false

/-!
# The lines of a text

How the lines of a text grow when more text follows (`linesOf_append`), and what becomes of them
when they are joined with line feeds and read again (`linesOf_joinLines`).  Only a line that ends in
a carriage return before its line end changes: the carriage return is taken for a part of the line
end.  Lines that were joined again and again are worn (`Worn`).
-/

namespace DebugConsole.FrameBuffer

/-! ## One character after another -/

/-- Puts a text before the first line. -/
def attach (x : List Char) : List (List Char) → List (List Char)
  | [] => [x]
  | line :: lines => (x ++ line) :: lines

@[simp] theorem attach_cons (x line : List Char) (lines : List (List Char)) :
    attach x (line :: lines) = (x ++ line) :: lines := rfl

theorem attach_ne_nil (x : List Char) (lines : List (List Char)) : attach x lines ≠ [] := by
  cases lines <;> simp [attach]

theorem attach_attach (x y : List Char) {lines : List (List Char)} (h : lines ≠ []) :
    attach x (attach y lines) = attach (x ++ y) lines := by
  cases lines with
  | nil => exact absurd rfl h
  | cons line lines => simp

/-- What has been read of a line stands before the rest of it. -/
theorem linesFrom_append (line extra s : List Char) :
    linesFrom (line ++ extra) s = attach extra.reverse (linesFrom line s) := by
  fun_induction linesFrom line s with
  | case1 line => simp [linesFrom]
  | case2 line rest ih => simp [linesFrom]
  | case3 line rest ih => simp [linesFrom]
  | case4 line c rest hnewline hreturn ih =>
    rw [← ih]
    rw [linesFrom]
    · rfl
    · exact hnewline
    · exact hreturn

theorem linesFrom_eq_attach (line s : List Char) :
    linesFrom line s = attach line.reverse (linesOf s) :=
  linesFrom_append [] line s

@[simp] theorem linesOf_nil : linesOf [] = [[]] := rfl

@[simp] theorem linesOf_newline (s : List Char) : linesOf ('\n' :: s) = [] :: linesOf s := rfl

@[simp] theorem linesOf_crlf (s : List Char) : linesOf ('\r' :: '\n' :: s) = [] :: linesOf s := rfl

/-- Any other character belongs to the first line. -/
theorem linesOf_cons {c : Char} {s : List Char} (hc : c ≠ '\n')
    (hr : c = '\r' → s.head? ≠ some '\n') : linesOf (c :: s) = attach [c] (linesOf s) := by
  have heq : linesOf (c :: s) = linesFrom [c] s := by
    rw [linesOf, linesFrom]
    · exact hc
    · rintro rest rfl rfl
      exact hr rfl rfl
  rw [heq, linesFrom_eq_attach]
  rfl

/-- Induction on a text by what its lines are made of. -/
@[elab_as_elim]
theorem lines_induction {motive : List Char → Prop} (nil : motive [])
    (newline : ∀ s, motive s → motive ('\n' :: s))
    (crlf : ∀ s, motive s → motive ('\r' :: '\n' :: s))
    (cons : ∀ c s, c ≠ '\n' → (c = '\r' → s.head? ≠ some '\n') → motive s → motive (c :: s))
    (s : List Char) : motive s := by
  fun_induction linesFrom [] s with
  | case1 => exact nil
  | case2 _ rest ih => exact newline rest ih
  | case3 _ rest ih => exact crlf rest ih
  | case4 _ c rest hnewline hreturn ih =>
    refine cons c rest hnewline ?_ ih
    intro hc hhead
    cases rest with
    | nil => cases hhead
    | cons d rest =>
      cases hhead
      exact hreturn rest hc rfl

/-- Lines hold no line feed. -/
theorem notMem_linesOf (s : List Char) : ∀ line ∈ linesOf s, '\n' ∉ line := by
  induction s using lines_induction with
  | nil => simp
  | newline s ih => simpa using ih
  | crlf s ih => simpa using ih
  | cons c s hc hr ih =>
    obtain ⟨line, lines, hlines⟩ := List.exists_cons_of_ne_nil (linesOf_ne_nil s)
    rw [hlines] at ih
    rw [linesOf_cons hc hr, hlines]
    simpa [hc.symm] using ih

theorem head?_linesOf {t line : List Char} {lines : List (List Char)}
    (h : linesOf t = line :: lines) (hne : line ≠ []) : t.head? = line.head? := by
  induction t using lines_induction with
  | nil => exact absurd (List.cons.inj h).1.symm hne
  | newline s _ => exact absurd (List.cons.inj h).1.symm hne
  | crlf s _ => exact absurd (List.cons.inj h).1.symm hne
  | cons c s hc hr _ =>
    obtain ⟨l, ls, hlines⟩ := List.exists_cons_of_ne_nil (linesOf_ne_nil s)
    rw [linesOf_cons hc hr, hlines] at h
    rw [← (List.cons.inj h).1]
    rfl

/-- A text without a line feed is one line. -/
theorem linesOf_of_notMem {s : List Char} (h : '\n' ∉ s) : linesOf s = [s] := by
  induction s using lines_induction with
  | nil => rfl
  | newline s ih => simp at h
  | crlf s ih => simp at h
  | cons c s hc hr ih =>
    rw [List.mem_cons, not_or] at h
    rw [linesOf_cons hc hr, ih h.2]
    rfl

/-- A text with a line feed is more than one line. -/
theorem exists_linesOf_of_mem {s : List Char} (h : '\n' ∈ s) :
    ∃ line lines, linesOf s = line :: lines ∧ lines ≠ [] := by
  induction s using lines_induction with
  | nil => cases h
  | newline s ih => exact ⟨[], linesOf s, rfl, linesOf_ne_nil s⟩
  | crlf s ih => exact ⟨[], linesOf s, rfl, linesOf_ne_nil s⟩
  | cons c s hc hr ih =>
    obtain ⟨line, lines, heq, hne⟩ := ih ((List.mem_cons.1 h).resolve_left (Ne.symm hc))
    refine ⟨c :: line, lines, ?_, hne⟩
    rw [linesOf_cons hc hr, heq]
    rfl

/-! ## Text that follows -/

/-- A text without a line feed stands before the first line of what follows, unless the two make a
line end between them. -/
theorem linesOf_append_of_notMem {x : List Char} (w : List Char) (h : '\n' ∉ x)
    (hr : x.getLast? = some '\r' → w.head? ≠ some '\n') :
    linesOf (x ++ w) = attach x (linesOf w) := by
  induction x with
  | nil =>
    cases hlines : linesOf w with
    | nil => exact absurd hlines (linesOf_ne_nil w)
    | cons line lines => simp [hlines]
  | cons c x ih =>
    rw [List.mem_cons, not_or] at h
    have hhead : c = '\r' → (x ++ w).head? ≠ some '\n' := by
      intro hc
      cases x with
      | nil => exact hr (by simp [hc])
      | cons d x =>
        intro heq
        apply h.2
        rw [← Option.some.inj heq]
        exact List.mem_cons_self
    have hlast : x.getLast? = some '\r' → w.head? ≠ some '\n' := by
      intro heq
      apply hr
      rw [List.getLast?_cons, heq]
      rfl
    rw [List.cons_append, linesOf_cons (Ne.symm h.1) hhead, ih h.2 hlast,
      attach_attach _ _ (linesOf_ne_nil w)]
    rfl

/-- The lines of a text once more text follows: the last one goes on. -/
def extend (lines : List (List Char)) (w : List Char) : List (List Char) :=
  lines.dropLast ++ linesOf (lines.getLastD [] ++ w)

@[simp] theorem extend_singleton (line w : List Char) : extend [line] w = linesOf (line ++ w) := rfl

theorem extend_cons (line : List Char) {lines : List (List Char)} (h : lines ≠ []) (w : List Char) :
    extend (line :: lines) w = line :: extend lines w := by
  cases lines with
  | nil => exact absurd rfl h
  | cons l lines => simp [extend]

theorem extend_append (front : List (List Char)) {lines : List (List Char)} (h : lines ≠ [])
    (w : List Char) : extend (front ++ lines) w = front ++ extend lines w := by
  induction front with
  | nil => rfl
  | cons line front ih =>
    rw [List.cons_append, extend_cons line (by simp [h]), ih, List.cons_append]

theorem extend_concat (front : List (List Char)) (line w : List Char) :
    extend (front ++ [line]) w = front ++ linesOf (line ++ w) := by
  rw [extend_append front (List.cons_ne_nil _ _), extend_singleton]

theorem extend_ne_nil (lines : List (List Char)) (w : List Char) : extend lines w ≠ [] := by
  simp [extend, linesOf_ne_nil]

/-- Reading on from the lines read so far. -/
theorem linesOf_append (s w : List Char) : linesOf (s ++ w) = extend (linesOf s) w := by
  induction s using lines_induction with
  | nil => rfl
  | newline s ih =>
    rw [List.cons_append, linesOf_newline, linesOf_newline, extend_cons _ (linesOf_ne_nil s), ih]
  | crlf s ih =>
    rw [List.cons_append, List.cons_append, linesOf_crlf, linesOf_crlf,
      extend_cons _ (linesOf_ne_nil s), ih]
  | cons c s hc hr ih =>
    by_cases hs : '\n' ∈ s
    · obtain ⟨line, lines, heq, hne⟩ := exists_linesOf_of_mem hs
      have hhead : c = '\r' → (s ++ w).head? ≠ some '\n' := by
        intro hc
        cases s with
        | nil => cases hs
        | cons d s => exact hr hc
      rw [List.cons_append, linesOf_cons hc hhead, linesOf_cons hc hr, ih, heq,
        extend_cons _ hne, attach_cons, attach_cons, extend_cons _ hne]
    · have hone : '\n' ∉ c :: s := by simp [hs, hc.symm]
      rw [linesOf_of_notMem hone, extend_singleton]

/-! ## The last line -/

theorem getLastD_cons_of_ne_nil (line : List Char) {lines : List (List Char)} (h : lines ≠ []) :
    (line :: lines).getLastD [] = lines.getLastD [] := by
  cases lines with
  | nil => exact absurd rfl h
  | cons l lines => simp

theorem eq_concat {lines : List (List Char)} (h : lines ≠ []) :
    lines = lines.dropLast ++ [lines.getLastD []] := by
  rw [List.getLastD_eq_getLast?, List.getLast?_eq_some_getLast h, Option.getD_some,
    List.dropLast_concat_getLast h]

theorem last_mem_linesOf (s : List Char) : (linesOf s).getLastD [] ∈ linesOf s := by
  rw [List.getLastD_eq_getLast?, List.getLast?_eq_some_getLast (linesOf_ne_nil s)]
  exact List.getLast_mem _

/-- A text ends with its last line, at its start or behind a line feed. -/
theorem eq_last_or_exists (s : List Char) :
    s = (linesOf s).getLastD [] ∨ ∃ x, s = x ++ '\n' :: (linesOf s).getLastD [] := by
  induction s using lines_induction with
  | nil => exact Or.inl rfl
  | newline s ih =>
    rw [linesOf_newline, getLastD_cons_of_ne_nil _ (linesOf_ne_nil s)]
    right
    rcases ih with heq | ⟨x, heq⟩
    · exact ⟨[], congrArg ('\n' :: ·) heq⟩
    · exact ⟨'\n' :: x, congrArg ('\n' :: ·) heq⟩
  | crlf s ih =>
    rw [linesOf_crlf, getLastD_cons_of_ne_nil _ (linesOf_ne_nil s)]
    right
    rcases ih with heq | ⟨x, heq⟩
    · exact ⟨['\r'], congrArg ('\r' :: '\n' :: ·) heq⟩
    · exact ⟨'\r' :: '\n' :: x, congrArg ('\r' :: '\n' :: ·) heq⟩
  | cons c s hc hr ih =>
    by_cases hs : '\n' ∈ s
    · right
      obtain ⟨line, lines, hlines, hne⟩ := exists_linesOf_of_mem hs
      have hlast : (linesOf (c :: s)).getLastD [] = (linesOf s).getLastD [] := by
        rw [linesOf_cons hc hr, hlines, attach_cons, getLastD_cons_of_ne_nil _ hne,
          getLastD_cons_of_ne_nil _ hne]
      rw [hlast]
      rcases ih with heq | ⟨x, heq⟩
      · -- the last line would hold a line feed
        have hlast := notMem_linesOf s _ (last_mem_linesOf s)
        rw [← heq] at hlast
        exact absurd hs hlast
      · exact ⟨c :: x, congrArg (c :: ·) heq⟩
    · left
      rw [linesOf_of_notMem (by simp [hs, hc.symm])]
      rfl

/-- What has been printed since the last line feed is the last line. -/
theorem lastLine_eq_getLastD (s : List Char) : lastLine ⟨s⟩ = (linesOf s).getLastD [] := by
  have hline := notMem_linesOf s _ (last_mem_linesOf s)
  have hsplit := eq_last_or_exists s
  generalize (linesOf s).getLastD [] = line at hline hsplit
  have hall : ∀ c ∈ line.reverse, (c != '\n') = true := by
    intro c hc
    have hne : c ≠ '\n' := by
      rintro rfl
      exact hline (List.mem_reverse.1 hc)
    simpa using hne
  rcases hsplit with rfl | ⟨x, rfl⟩
  · rw [lastLine, List.takeWhile_eq_self_iff.2 hall, List.reverse_reverse]
  · rw [lastLine]
    dsimp only
    rw [List.reverse_append, List.reverse_cons, List.append_assoc,
      List.takeWhile_append_of_pos hall]
    simp

/-! ## Joining lines again -/

/-- A line without a carriage return at its end. -/
def dropReturn (line : List Char) : List Char :=
  if line.getLast? = some '\r' then line.dropLast else line

/-- The lines of the text that some lines are joined to. -/
def rejoined : List (List Char) → List (List Char)
  | [] => [[]]
  | [line] => [line]
  | line :: lines => dropReturn line :: rejoined lines

theorem rejoined_cons (line : List Char) {lines : List (List Char)} (h : lines ≠ []) :
    rejoined (line :: lines) = dropReturn line :: rejoined lines := by
  cases lines with
  | nil => exact absurd rfl h
  | cons l lines => rw [rejoined]; simp

theorem rejoined_append (front : List (List Char)) {lines : List (List Char)} (h : lines ≠ []) :
    rejoined (front ++ lines) = front.map dropReturn ++ rejoined lines := by
  induction front with
  | nil => rfl
  | cons line front ih =>
    rw [List.cons_append, rejoined_cons _ (by simp [h]), ih, List.map_cons, List.cons_append]

theorem exists_eq_dropReturn (line : List Char) :
    ∃ n, line = dropReturn line ++ List.replicate n '\r' := by
  by_cases h : line.getLast? = some '\r'
  · obtain ⟨x, rfl⟩ := List.getLast?_eq_some_iff.1 h
    exact ⟨1, by simp [dropReturn]⟩
  · exact ⟨0, by simp [dropReturn, h]⟩

theorem dropReturn_concat (line : List Char) : dropReturn (line ++ ['\r']) = line := by
  simp [dropReturn]

/-- No line before the last ends in a carriage return. -/
def Tidy (lines : List (List Char)) : Prop := ∀ line ∈ lines.dropLast, line.getLast? ≠ some '\r'

theorem tidy_singleton (line : List Char) : Tidy [line] := by simp [Tidy]

theorem tidy_cons (line : List Char) {lines : List (List Char)} (h : lines ≠ []) :
    Tidy (line :: lines) ↔ line.getLast? ≠ some '\r' ∧ Tidy lines := by
  rw [Tidy, List.dropLast_cons_of_ne_nil h, List.forall_mem_cons]
  rfl

/-- Lines are tidy if they are with a text before the first. -/
theorem Tidy.of_attach {x : List Char} {lines : List (List Char)} (h : Tidy (attach x lines)) :
    Tidy lines := by
  cases lines with
  | nil => simp [Tidy]
  | cons line lines =>
    by_cases hne : lines = []
    · rw [hne]
      exact tidy_singleton line
    · rw [attach_cons, tidy_cons _ hne] at h
      rw [tidy_cons _ hne]
      refine ⟨?_, h.2⟩
      intro hlast
      apply h.1
      rw [List.getLast?_append, hlast]
      rfl

/-- A line that is ended by a line feed, without a carriage return at its end. -/
theorem linesOf_append_newline {line : List Char} (s : List Char) (h : '\n' ∉ line) :
    linesOf (line ++ '\n' :: s) = dropReturn line :: linesOf s := by
  by_cases hr : line.getLast? = some '\r'
  · obtain ⟨x, rfl⟩ := List.getLast?_eq_some_iff.1 hr
    have hx : '\n' ∉ x := fun hmem => h (List.mem_append_left _ hmem)
    rw [List.append_assoc, List.singleton_append, linesOf_append_of_notMem _ hx (by simp)]
    simp [dropReturn]
  · rw [linesOf_append_of_notMem _ h fun heq => absurd heq hr]
    simp [dropReturn, hr]

theorem linesOf_joinLines {lines : List (List Char)} (h : ∀ line ∈ lines, '\n' ∉ line) :
    linesOf (joinLines lines) = rejoined lines := by
  fun_induction joinLines lines with
  | case1 => rfl
  | case2 line => exact linesOf_of_notMem (h line (List.mem_singleton.2 rfl))
  | case3 line lines hlines ih =>
    rw [List.forall_mem_cons] at h
    rw [linesOf_append_newline _ h.1, ih h.2, rejoined]
    exact hlines

/-- An empty first line is a line end. -/
theorem begins_of_linesOf_eq {s : List Char} {lines : List (List Char)}
    (h : linesOf s = [] :: lines) (hne : lines ≠ []) :
    s.head? = some '\n' ∨ ['\r', '\n'] <+: s := by
  induction s using lines_induction with
  | nil => exact absurd (List.cons.inj h).2.symm hne
  | newline s ih => exact Or.inl rfl
  | crlf s ih => exact Or.inr ⟨s, rfl⟩
  | cons c s hc hr ih =>
    obtain ⟨line, more, hlines⟩ := List.exists_cons_of_ne_nil (linesOf_ne_nil s)
    rw [linesOf_cons hc hr, hlines] at h
    cases h

/-- A text has tidy lines if it holds no carriage return before the line end `\r\n`. -/
theorem tidy_linesOf {s : List Char} (h : ¬['\r', '\r', '\n'] <:+: s) : Tidy (linesOf s) := by
  induction s using lines_induction with
  | nil => exact tidy_singleton []
  | newline s ih =>
    rw [linesOf_newline, tidy_cons _ (linesOf_ne_nil s)]
    exact ⟨by simp, ih fun hs => h (hs.trans (List.suffix_cons _ _).isInfix)⟩
  | crlf s ih =>
    rw [linesOf_crlf, tidy_cons _ (linesOf_ne_nil s)]
    exact ⟨by simp, ih fun hs => h (hs.trans (List.suffix_append ['\r', '\n'] s).isInfix)⟩
  | cons c s hc hr ih =>
    have hs := ih fun hs => h (hs.trans (List.suffix_cons _ _).isInfix)
    obtain ⟨line, lines, hlines⟩ := List.exists_cons_of_ne_nil (linesOf_ne_nil s)
    rw [hlines] at hs
    rw [linesOf_cons hc hr, hlines, attach_cons]
    by_cases hne : lines = []
    · rw [hne]
      exact tidy_singleton _
    · rw [tidy_cons _ hne] at hs ⊢
      refine ⟨?_, hs.2⟩
      cases line with
      | nil =>
        -- a carriage return before an empty line would be one before its line end
        intro hlast
        have hreturn : c = '\r' := by simpa using hlast
        rcases begins_of_linesOf_eq hlines hne with hbegins | ⟨more, rfl⟩
        · exact hr hreturn hbegins
        · exact h ⟨[], more, by simp [hreturn]⟩
      | cons d line => simpa using hs.1

/-! ## Lines that were joined -/

/-- Lines that were joined and read again some times: they may have lost carriage returns before
their line ends, but not the last one. -/
inductive Worn : List (List Char) → List (List Char) → Prop
  | last (line : List Char) : Worn [line] [line]
  | cons (line : List Char) (n : Nat) {lines lines' : List (List Char)} (rest : Worn lines lines') :
      Worn ((line ++ List.replicate n '\r') :: lines) (line :: lines')

namespace Worn

variable {lines lines' : List (List Char)}

theorem ne_nil (h : Worn lines lines') : lines ≠ [] ∧ lines' ≠ [] := by
  cases h <;> simp

theorem refl (h : lines ≠ []) : Worn lines lines := by
  induction lines with
  | nil => exact absurd rfl h
  | cons line lines ih =>
    by_cases hne : lines = []
    · rw [hne]
      exact .last line
    · simpa using Worn.cons line 0 (ih hne)

theorem rejoined (h : Worn lines lines') : Worn lines (FrameBuffer.rejoined lines') := by
  induction h with
  | last line => exact .last line
  | cons line n rest ih =>
    obtain ⟨m, hm⟩ := exists_eq_dropReturn line
    rw [rejoined_cons _ rest.ne_nil.2]
    have hworn := Worn.cons (dropReturn line) (m + n) ih
    rwa [← List.replicate_append_replicate, ← List.append_assoc, ← hm] at hworn

theorem append (front : List (List Char)) (h : Worn lines lines') :
    Worn (front ++ lines) (front ++ lines') := by
  induction front with
  | nil => exact h
  | cons line front ih => simpa using Worn.cons line 0 ih

theorem extend (h : Worn lines lines') (w : List Char) :
    Worn (FrameBuffer.extend lines w) (FrameBuffer.extend lines' w) := by
  induction h with
  | last line => exact refl (extend_ne_nil _ _)
  | cons line n rest ih =>
    rw [extend_cons _ rest.ne_nil.1, extend_cons _ rest.ne_nil.2]
    exact .cons line n ih

theorem eq_of_tidy (h : Worn lines lines') (ht : Tidy lines) : lines' = lines := by
  induction h with
  | last line => rfl
  | cons line n rest ih =>
    rw [tidy_cons _ rest.ne_nil.1] at ht
    cases n with
    | zero => rw [ih ht.2, List.replicate_zero, List.append_nil]
    | succ n => exact absurd (by simp [List.getLast?_append, List.getLast?_replicate]) ht.1

/-- What stands before the first line is as it was. -/
theorem of_attach {x : List Char} (hne : lines ≠ []) (hx : '\r' ∉ x)
    (h : Worn (attach x lines) lines') : ∃ more, lines' = attach x more ∧ Worn lines more := by
  obtain ⟨line, lines, rfl⟩ := List.exists_cons_of_ne_nil hne
  rw [attach_cons] at h
  generalize hline : x ++ line = whole at h
  cases h with
  | last => exact ⟨[line], by rw [← hline]; rfl, .last line⟩
  | @cons kept n _ lines' rest =>
    rcases List.append_eq_append_iff.1 hline with ⟨more, rfl, rfl⟩ | ⟨more, rfl, hmore⟩
    · exact ⟨more :: lines', rfl, .cons more n rest⟩
    · have hnil : more = [] := by
        refine List.eq_nil_iff_forall_not_mem.2 fun c hc => hx ?_
        have hreturn : c ∈ List.replicate n '\r' := hmore ▸ List.mem_append_left line hc
        rw [← List.eq_of_mem_replicate hreturn]
        exact List.mem_append_right kept hc
      subst hnil
      rw [List.nil_append] at hmore
      subst hmore
      exact ⟨[] :: lines', by simp, by simpa using Worn.cons [] n rest⟩

theorem exists_cons {line : List Char} {whole : List (List Char)}
    (h : Worn (line :: lines) whole) (hne : lines ≠ []) :
    ∃ line' n lines', line = line' ++ List.replicate n '\r' ∧ whole = line' :: lines' ∧
      Worn lines lines' := by
  cases h with
  | last => exact absurd rfl hne
  | cons line' n rest => exact ⟨line', n, _, rfl, rfl, rest⟩

end Worn

end DebugConsole.FrameBuffer
