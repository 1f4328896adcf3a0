set_option autoImplicit false

/-!
# Cutting texts at marks

A line of console output is read by cutting it at fixed marks such as ` at ` or `: file `.  Where a
mark may stand more than once, the reader of the remainder decides which one counts: the first or
the last whose remainder is accepted.
-/

namespace DebugConsole.Text

/-- The text after a mark that it starts with. -/
def after? : List Char → List Char → Option (List Char)
  | [], s => some s
  | _ :: _, [] => none
  | m :: mark, c :: s => if m == c then after? mark s else none

/-- A text starts with a mark exactly when it is the mark followed by the remainder. -/
theorem after?_eq_some_iff {mark s rest : List Char} :
    after? mark s = some rest ↔ s = mark ++ rest := by
  induction mark generalizing s with
  | nil => simp [after?, eq_comm]
  | cons m mark ih =>
    cases s with
    | nil => simp [after?]
    | cons c s =>
      simp only [after?, beq_iff_eq, List.cons_append, List.cons.injEq]
      split
      · rename_i h; subst h; simp [ih]
      · rename_i h; simp [Ne.symm h]

/-- Does the text start with the mark? -/
def startsWith (mark s : List Char) : Bool := (after? mark s).isSome

/-- The text before a mark that it ends with. -/
def before? (s mark : List Char) : Option (List Char) :=
  (after? mark.reverse s.reverse).map List.reverse

/-- A text ends with a mark exactly when it is the remainder followed by the mark. -/
theorem before?_eq_some_iff {mark s rest : List Char} :
    before? s mark = some rest ↔ s = rest ++ mark := by
  simp only [before?, Option.map_eq_some_iff, after?_eq_some_iff]
  constructor
  · rintro ⟨r, h, rfl⟩
    simpa using congrArg List.reverse h
  · rintro rfl
    exact ⟨rest.reverse, by simp, by simp⟩

/-- The longest start of a text whose characters are all in a class, and the rest. -/
def run (p : Char → Bool) (s : List Char) : List Char × List Char := (s.takeWhile p, s.dropWhile p)

/-- The longest start of a text whose characters are all in a class, if it is not empty. -/
def run? (p : Char → Bool) (s : List Char) : Option (List Char × List Char) :=
  match run p s with
  | ([], _) => none
  | r => some r

theorem run_append (p : Char → Bool) (s : List Char) : (run p s).1 ++ (run p s).2 = s :=
  List.takeWhile_append_dropWhile

theorem run?_append {p : Char → Bool} {s start rest : List Char}
    (h : run? p s = some (start, rest)) : s = start ++ rest := by
  have hs := run_append p s
  unfold run? at h
  split at h
  · simp at h
  · simp only [Option.some.injEq] at h
    rw [h] at hs
    exact hs.symm

/-- Cuts at the first mark whose remainder is accepted: the text before the mark, and what the
remainder was read as. -/
def firstCut? {β : Type} (mark : List Char) (accept : List Char → Option β) :
    List Char → Option (List Char × β)
  | [] => none
  | c :: s =>
    match (after? mark (c :: s)).bind accept with
    | some b => some ([], b)
    | none => (firstCut? mark accept s).map fun (start, b) => (c :: start, b)

/-- Cuts at the last mark whose remainder is accepted. -/
def lastCut? {β : Type} (mark : List Char) (accept : List Char → Option β) :
    List Char → Option (List Char × β)
  | [] => none
  | c :: s =>
    match lastCut? mark accept s with
    | some (start, b) => some (c :: start, b)
    | none => ((after? mark (c :: s)).bind accept).map fun b => ([], b)

/-- A cut takes the text apart at the mark. -/
theorem lastCut?_sound {β : Type} {mark : List Char} {accept : List Char → Option β}
    {s start : List Char} {b : β} (h : lastCut? mark accept s = some (start, b)) :
    ∃ rest, s = start ++ mark ++ rest ∧ accept rest = some b := by
  induction s generalizing start with
  | nil => simp [lastCut?] at h
  | cons c s ih =>
    simp only [lastCut?] at h
    split at h
    · rename_i t _ ht
      simp only [Option.some.injEq, Prod.mk.injEq] at h
      obtain ⟨rfl, rfl⟩ := h
      obtain ⟨rest, hs, hr⟩ := ih ht
      exact ⟨rest, by simp [hs], hr⟩
    · simp only [Option.map_eq_some_iff, Prod.mk.injEq] at h
      obtain ⟨_, hb, rfl, rfl⟩ := h
      obtain ⟨rest, hr, ha⟩ := Option.bind_eq_some_iff.1 hb
      exact ⟨rest, by simpa using after?_eq_some_iff.1 hr, ha⟩

end DebugConsole.Text
