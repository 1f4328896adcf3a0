import DebugConsole.Proofs.Framing.Runs

set_option autoImplicit false

/-!
# Text that follows a cut

What taking frames does when the rest of a text arrives later.  Behind a prompt spaces are dropped,
and the line if nothing else is on it, but only as far as it has arrived: a cut may sever the prompt
from a space or from its line end (`SeversPrompt`).  And whenever a frame is taken the lines behind
it are joined and read again, which wears their line ends (`Worn`).

The frames that are complete before a cut stay as they are when text follows (`Run.join`).  What is
left then differs from what the text makes of what was left before (`Joined`), but for cuts that
sever no prompt and bring no stray carriage return (`Joined.eq_extend`).
-/

namespace DebugConsole.FrameBuffer

variable {p : List Char}

/-- A prompt is not empty and stands on one line. -/
structure Plain (p : List Char) : Prop where
  ne_nil : p ≠ []
  newline : '\n' ∉ p
  carriage : '\r' ∉ p

theorem Plain.not_starts_nil (hp : Plain p) : ¬p <+: [] := by
  intro h
  exact hp.ne_nil (List.prefix_nil.1 h)

/-! ## Spaces -/

theorem head?_dropWhile_space (s : List Char) : (s.dropWhile (· == ' ')).head? ≠ some ' ' := by
  intro h
  have hnot := List.head?_dropWhile_not (· == ' ') s
  rw [h] at hnot
  simp at hnot

theorem dropWhile_space_eq {s : List Char} (h : s.head? ≠ some ' ') :
    s.dropWhile (· == ' ') = s := by
  cases s with
  | nil => rfl
  | cons c s =>
    have hc : c ≠ ' ' := by
      intro heq
      apply h
      rw [heq, List.head?_cons]
    simp [hc]

theorem dropWhile_space_append {x : List Char} (line : List Char) (h : ∀ c ∈ x, c = ' ') :
    (x ++ line).dropWhile (· == ' ') = line.dropWhile (· == ' ') := by
  apply List.dropWhile_append_of_pos
  intro c hc
  simpa using h c hc

theorem eq_of_mem_spaces (s : List Char) : ∀ c ∈ s.takeWhile (· == ' '), c = ' ' := by
  intro c hc
  simpa using List.mem_takeWhile_imp hc

theorem notMem_spaces (s : List Char) : '\r' ∉ s.takeWhile (· == ' ') := by
  intro hmem
  cases eq_of_mem_spaces s _ hmem

/-! ## Behind a prompt -/

/-- A text that changes behind a prompt: it starts with a space or a line end. -/
def Breaks (t : List Char) : Prop :=
  t.head? = some ' ' ∨ t.head? = some '\n' ∨ ['\r', '\n'] <+: t

/-- What may be left of a line once the prompts at its start are taken off, one after another. -/
inductive Behind (p : List Char) : List Char → List Char → Prop
  | prompt (tail : List Char) : Behind p (p ++ tail) (tail.dropWhile (· == ' '))
  | further {tail rest : List Char} (h : Behind p (tail.dropWhile (· == ' ')) rest) :
      Behind p (p ++ tail) rest

/-- A prompt at the end of a text has a space or the line end behind it that comes with the text
that follows. -/
def SeversPrompt (p u w : List Char) : Prop :=
  ∃ rest, Behind p (lastLine ⟨u⟩) rest ∧ Breaks (rest ++ w)

namespace Behind

variable {line rest rest' : List Char}

theorem starts (h : Behind p line rest) : p <+: line := by
  cases h with
  | prompt tail => exact List.prefix_append p tail
  | further => exact List.prefix_append p _

theorem head? (h : Behind p line rest) : rest.head? ≠ some ' ' := by
  induction h with
  | prompt tail => exact head?_dropWhile_space tail
  | further _ ih => exact ih

theorem suffix (h : Behind p line rest) : rest <:+ line := by
  induction h with
  | prompt tail => exact (List.dropWhile_suffix _).trans (List.suffix_append p tail)
  | @further tail rest _ ih =>
    exact (ih.trans (List.dropWhile_suffix _)).trans (List.suffix_append p tail)

theorem append_iff {tail : List Char} :
    Behind p (p ++ tail) rest ↔
      rest = tail.dropWhile (· == ' ') ∨ Behind p (tail.dropWhile (· == ' ')) rest := by
  constructor
  · intro h
    generalize hline : p ++ tail = line at h
    cases h with
    | prompt tail' =>
      left
      rw [List.append_cancel_left hline]
    | further h =>
      right
      rwa [List.append_cancel_left hline]
  · rintro (rfl | h)
    · exact .prompt tail
    · exact .further h

/-- What is left of a line once no prompt is at its start is one text only. -/
theorem unique (h : Behind p line rest) (h' : Behind p line rest') (hrest : ¬p <+: rest)
    (hrest' : ¬p <+: rest') : rest = rest' := by
  induction h with
  | prompt tail =>
    rcases append_iff.1 h' with heq | h'
    · exact heq.symm
    · exact absurd h'.starts hrest
  | further h ih =>
    rcases append_iff.1 h' with rfl | h'
    · exact absurd h.starts hrest'
    · exact ih h' hrest

end Behind

/-- A further prompt does not change behind a prompt. -/
theorem not_breaks_of_starts (hp : Plain p) {opening : List Char} (w : List Char)
    (hopening : opening.head? ≠ some ' ') (h : p <+: opening) : ¬Breaks (opening ++ w) := by
  obtain ⟨rest, rfl⟩ := h
  obtain ⟨c, p', rfl⟩ := List.exists_cons_of_ne_nil hp.ne_nil
  have hnewline := hp.newline
  have hcarriage := hp.carriage
  rintro (hc | hc | hc)
  · apply hopening
    simpa using hc
  · simp_all
  · simp_all

/-! ## Lines behind a prompt -/

/-- Spaces before the first line do not count. -/
theorem reopen_attach {x : List Char} (lines : List (List Char)) (hne : lines ≠ [])
    (h : ∀ c ∈ x, c = ' ') : reopen (attach x lines) = reopen lines := by
  cases lines with
  | nil => exact absurd rfl hne
  | cons line lines => rw [attach_cons, reopen, reopen, dropWhile_space_append line h]

/-- A text that does not change behind a prompt. -/
theorem reopen_linesOf {t : List Char} (h : ¬Breaks t) : reopen (linesOf t) = linesOf t := by
  induction t using lines_induction with
  | nil => rfl
  | newline s _ => exact absurd (Or.inr (Or.inl rfl)) h
  | crlf s _ => exact absurd (Or.inr (Or.inr ⟨s, rfl⟩)) h
  | cons c s hc hr _ =>
    have hspace : c ≠ ' ' := by
      rintro rfl
      exact h (Or.inl rfl)
    obtain ⟨line, lines, hlines⟩ := List.exists_cons_of_ne_nil (linesOf_ne_nil s)
    rw [linesOf_cons hc hr, hlines]
    simp [reopen, hspace]

theorem reopen_singleton (tail : List Char) : reopen [tail] = [tail.dropWhile (· == ' ')] := by
  cases hopening : tail.dropWhile (· == ' ') <;> simp [reopen, hopening]

theorem reopen_of_eq_nil {line : List Char} {lines : List (List Char)}
    (h : line.dropWhile (· == ' ') = []) (hne : lines ≠ []) : reopen (line :: lines) = lines := by
  simp [reopen, h, hne]

theorem reopen_of_ne_nil {line : List Char} (lines : List (List Char))
    (h : line.dropWhile (· == ' ') ≠ []) :
    reopen (line :: lines) = line.dropWhile (· == ' ') :: lines := by
  simp only [reopen, List.isEmpty_iff, if_neg h]

/-- What follows a prompt begins behind the spaces. -/
theorem linesOf_tail_append (tail w : List Char) :
    linesOf (tail ++ w) =
      attach (tail.takeWhile (· == ' ')) (linesOf (tail.dropWhile (· == ' ') ++ w)) := by
  rw [← linesOf_append_of_notMem, ← List.append_assoc, List.takeWhile_append_dropWhile]
  · intro hmem
    cases eq_of_mem_spaces tail _ hmem
  · intro hlast
    cases eq_of_mem_spaces tail _ (List.mem_of_getLast? hlast)

/-! ## Frames before a cut -/

/-- A prompt does not reach into the carriage returns at the end of a line. -/
theorem Plain.starts_append_iff (hp : Plain p) (line : List Char) (n : Nat) :
    p <+: line ++ List.replicate n '\r' ↔ p <+: line := by
  induction n with
  | zero => simp
  | succ n ih =>
    rw [List.replicate_succ', ← List.append_assoc, List.prefix_concat_iff, ih]
    apply or_iff_right
    intro heq
    apply hp.carriage
    rw [heq]
    simp

/-- Joining makes no prompt and loses none. -/
theorem Worn.takeLines?_eq_none_iff (hp : Plain p) {lines lines' : List (List Char)}
    (h : Worn lines lines') :
    takeLines? p lines = none ↔ takeLines? p lines' = none := by
  rw [FrameBuffer.takeLines?_eq_none_iff, FrameBuffer.takeLines?_eq_none_iff]
  induction h with
  | last line => exact Iff.rfl
  | cons line n rest ih =>
    rw [List.forall_mem_cons, List.forall_mem_cons, hp.starts_append_iff, ih]

/-- Only the first line behind a prompt changes if there is another. -/
theorem exists_reopen_append (tail : List Char) (after : List (List Char)) :
    ∃ front, ∀ lines, lines ≠ [] → reopen (tail :: (after ++ lines)) = front ++ lines := by
  by_cases hopening : tail.dropWhile (· == ' ') = []
  · exact ⟨after, fun lines hne => reopen_of_eq_nil hopening (by simp [hne])⟩
  · exact ⟨tail.dropWhile (· == ' ') :: after, fun lines _ => reopen_of_ne_nil _ hopening⟩

theorem Plain.linesOf_append (hp : Plain p) (tail w : List Char) :
    linesOf (p ++ tail ++ w) = attach p (linesOf (tail ++ w)) := by
  rw [List.append_assoc]
  exact linesOf_append_of_notMem _ hp.newline fun hlast =>
    absurd (List.mem_of_getLast? hlast) hp.carriage

/-- Taking a frame from lines whose last goes on: the cut stays on the last line, or it is behind
the prompt. -/
theorem takeLines?_append (hp : Plain p) {front frame next lines : List (List Char)}
    {line w : List Char} (h : takeLines? p (front ++ [line]) = some (frame, next))
    (hworn : Worn (linesOf (line ++ w)) lines) :
    (∃ front', next = front' ++ [line] ∧
      takeLines? p (front ++ lines) = some (frame, front' ++ rejoined lines)) ∨
    ∃ tail lines', line = p ++ tail ∧ next = [tail.dropWhile (· == ' ')] ∧
      Worn (linesOf (tail.dropWhile (· == ' ') ++ w)) lines' ∧
      takeLines? p (front ++ lines) = some (frame, rejoined (reopen lines')) := by
  obtain ⟨tail, after, heq, hframe, rfl⟩ := takeLines?_eq_some_iff.1 h
  by_cases hafter : after = []
  · right
    subst hafter
    obtain ⟨rfl, rfl⟩ := List.append_singleton_inj.1 heq
    rw [hp.linesOf_append, linesOf_tail_append] at hworn
    obtain ⟨more, rfl, hmore⟩ := hworn.of_attach (attach_ne_nil _ _) hp.carriage
    obtain ⟨lines', rfl, hlines⟩ := hmore.of_attach (linesOf_ne_nil _) (notMem_spaces tail)
    refine ⟨tail, lines', rfl, by rw [reopen_singleton, rejoined], hlines, ?_⟩
    obtain ⟨l, ls, rfl⟩ := List.exists_cons_of_ne_nil hlines.ne_nil.2
    rw [takeLines?_eq_some_iff]
    refine ⟨_, ls, rfl, hframe, ?_⟩
    rw [← reopen_attach (l :: ls) (List.cons_ne_nil _ _) (eq_of_mem_spaces tail), attach_cons]
  · left
    obtain ⟨rfl, hlast⟩ : front = frame ++ (p ++ tail) :: after.dropLast ∧
        line = after.getLastD [] := by
      rw [eq_concat hafter, ← List.cons_append, ← List.append_assoc] at heq
      exact List.append_singleton_inj.1 heq
    obtain ⟨front', hfront⟩ := exists_reopen_append tail after.dropLast
    refine ⟨front'.map dropReturn, ?_, ?_⟩
    · rw [eq_concat hafter, hfront _ (List.cons_ne_nil _ _), ← hlast,
        rejoined_append _ (List.cons_ne_nil _ _), rejoined]
    · rw [takeLines?_eq_some_iff, ← rejoined_append _ hworn.ne_nil.2, ← hfront _ hworn.ne_nil.2]
      exact ⟨tail, after.dropLast ++ lines, by simp, hframe, rfl⟩

/-- What is left where a text had followed before its frames were taken, beside what is left where
it has not: the text goes on from a line, before any prompt on it or behind some. -/
inductive Joined (p w line : List Char) : List (List Char) → List (List Char) → Prop
  | before (front : List (List Char)) {lines : List (List Char)}
      (h : Worn (linesOf (line ++ w)) lines) :
      Joined p w line (front ++ [line]) (front ++ rejoined lines)
  | behind {rest : List Char} {lines : List (List Char)} (hrest : Behind p line rest)
      (h : Worn (linesOf (rest ++ w)) lines) : Joined p w line [rest] (rejoined (reopen lines))

/-- A further prompt is found in the lines that go on behind a prompt. -/
theorem reopen_of_starts (hp : Plain p) {opening w : List Char} {lines : List (List Char)}
    (hopening : opening.head? ≠ some ' ') (h : p <+: opening)
    (hworn : Worn (linesOf (opening ++ w)) lines) : reopen lines = lines := by
  obtain ⟨tail, rfl⟩ := h
  rw [hp.linesOf_append] at hworn
  obtain ⟨more, rfl, hmore⟩ := hworn.of_attach (linesOf_ne_nil _) hp.carriage
  obtain ⟨line, lines, rfl⟩ := List.exists_cons_of_ne_nil hmore.ne_nil.2
  obtain ⟨c, p', rfl⟩ := List.exists_cons_of_ne_nil hp.ne_nil
  have hc : c ≠ ' ' := by
    intro heq
    apply hopening
    rw [heq]
    rfl
  simp [reopen, hc]

/-- Frames that are complete before a cut stay as they are when text follows. -/
theorem Run.join (hp : Plain p) {front lines last : List (List Char)} {line w : List Char}
    {frames : List (List (List Char))} (h : Run p (front ++ [line]) frames last)
    (hlast : takeLines? p last = none) (hne : frames ≠ [])
    (hworn : Worn (linesOf (line ++ w)) lines) :
    ∃ joined, Run p (front ++ lines) frames joined ∧ Joined p w line last joined := by
  generalize hstart : front ++ [line] = start at h
  induction h generalizing front line lines with
  | done => exact absurd rfl hne
  | @take start frame next last frames first rest ih =>
    subst hstart
    rcases takeLines?_append hp first hworn with
      ⟨front', rfl, htake⟩ | ⟨tail, lines', rfl, rfl, hworn', htake⟩
    · by_cases hmore : frames = []
      · subst hmore
        cases rest
        exact ⟨_, .take htake (.done _), .before front' hworn⟩
      · obtain ⟨joined, hrun, hjoined⟩ := ih hlast hmore hworn.rejoined rfl
        exact ⟨joined, .take htake hrun, hjoined⟩
    · by_cases hstarts : p <+: tail.dropWhile (· == ' ')
      · have hopening := reopen_of_starts hp (head?_dropWhile_space tail) hstarts hworn'
        rw [hopening] at htake
        have hmore : frames ≠ [] := by
          rintro rfl
          cases rest
          rw [takeLines?_eq_none_iff, List.forall_mem_singleton] at hlast
          exact hlast hstarts
        obtain ⟨joined, hrun, hjoined⟩ := ih hlast hmore hworn'.rejoined
          (show [] ++ [tail.dropWhile (· == ' ')] = [tail.dropWhile (· == ' ')] from rfl)
        refine ⟨joined, .take htake hrun, ?_⟩
        cases hjoined with
        | before front' h =>
          -- the further prompt would have been taken
          exact absurd hstarts (takeLines?_eq_none_iff.1 hlast _ (by simp))
        | behind hrest h => exact .behind (.further hrest) h
      · -- what is left of the line is not taken any further
        have hnone : takeLines? p [tail.dropWhile (· == ' ')] = none :=
          takeLines?_eq_none_iff.2 (List.forall_mem_singleton.2 hstarts)
        obtain ⟨rfl, rfl⟩ := rest.of_eq_none hnone
        exact ⟨_, .take htake (.done _), .behind (.prompt tail) hworn'⟩

/-! ## Cuts that change nothing -/

theorem Behind.tidy (hp : Plain p) {line rest w : List Char} (h : Behind p line rest)
    (htidy : Tidy (linesOf (line ++ w))) : Tidy (linesOf (rest ++ w)) := by
  induction h with
  | prompt tail =>
    rw [hp.linesOf_append, linesOf_tail_append] at htidy
    exact htidy.of_attach.of_attach
  | @further tail rest _ ih =>
    rw [hp.linesOf_append, linesOf_tail_append] at htidy
    exact ih htidy.of_attach.of_attach

/-- Text behind a cut leaves the lines that it makes if it severs no prompt and brings no stray
carriage return. -/
theorem Joined.eq_extend (hp : Plain p) {line w : List Char} {last joined : List (List Char)}
    (h : Joined p w line last joined) (htidy : Tidy (linesOf (line ++ w)))
    (hwhole : ∀ rest, Behind p line rest → ¬Breaks (rest ++ w)) : joined = extend last w := by
  cases h with
  | before front h =>
    obtain rfl := h.eq_of_tidy htidy
    rw [extend_concat, h.rejoined.eq_of_tidy htidy]
  | behind hrest h =>
    obtain rfl := h.eq_of_tidy (hrest.tidy hp htidy)
    rw [reopen_linesOf (hwhole _ hrest), h.rejoined.eq_of_tidy (hrest.tidy hp htidy),
      extend_singleton]

/-- Text behind a cut that opens with no space leaves the lines that it makes, worn, but for an empty
first one perhaps. -/
theorem Joined.worn {line w : List Char} {last joined : List (List Char)}
    (h : Joined p w line last joined)
    (hspace : ∀ rest, Behind p line rest → (rest ++ w).head? ≠ some ' ') :
    Worn (extend last w) joined ∨
      ∃ first lines, extend last w = first :: lines ∧ Worn lines joined := by
  cases h with
  | before front h =>
    left
    rw [extend_concat]
    exact h.rejoined.append front
  | @behind rest lines hrest h =>
    have hhead := hspace rest hrest
    rw [extend_singleton]
    generalize hlines : linesOf (rest ++ w) = whole at h
    cases h with
    | last first =>
      left
      have hfirst : first.head? ≠ some ' ' := by
        intro heq
        rw [head?_linesOf hlines (by rintro rfl; cases heq)] at hhead
        exact hhead heq
      rw [reopen_singleton, dropWhile_space_eq hfirst, rejoined]
      exact .last first
    | @cons first n ls ls' more =>
      by_cases hfirst : first = []
      · right
        rw [hfirst, reopen_of_eq_nil rfl more.ne_nil.2]
        exact ⟨_, ls, rfl, more.rejoined⟩
      · left
        have hopening : first.head? ≠ some ' ' := by
          obtain ⟨c, first, rfl⟩ := List.exists_cons_of_ne_nil hfirst
          rwa [head?_linesOf hlines (List.cons_ne_nil _ _)] at hhead
        rw [reopen_of_ne_nil _ (by rwa [dropWhile_space_eq hopening]),
          dropWhile_space_eq hopening]
        exact (Worn.cons first n more).rejoined

end DebugConsole.FrameBuffer
