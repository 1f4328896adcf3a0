import DebugConsole.Proofs.Framing.Cuts

set_option autoImplicit false

/-!
# Cuts that change frames

What comes of a space or a line end that is severed from its prompt, and of a stray carriage return
before a line end.  Where the text arrives later, it opens the next frame with the space, with an
empty line, with the carriage return; where it had arrived before, joining and reopening have taken
these away.  So the next frame is another one, if there is a next frame at all.
-/

namespace DebugConsole.FrameBuffer

variable {p : List Char}

/-! ## The first frame -/

/-- The first complete frame of lines. -/
def firstFrame? (p : List Char) (lines : List (List Char)) : Option (List (List Char)) :=
  (takeLines? p lines).map Prod.fst

theorem firstFrame?_of_starts {line : List Char} (lines : List (List Char)) (h : p <+: line) :
    firstFrame? p (line :: lines) = some [] := by
  obtain ⟨tail, rfl⟩ := h
  have htake : takeLines? p ((p ++ tail) :: lines) =
      some ([], rejoined (reopen (tail :: lines))) :=
    takeLines?_eq_some_iff.2 ⟨tail, lines, rfl, by simp, rfl⟩
  rw [firstFrame?, htake]
  rfl

theorem firstFrame?_of_not {line : List Char} (lines : List (List Char)) (h : ¬p <+: line) :
    firstFrame? p (line :: lines) = (firstFrame? p lines).map (line :: ·) := by
  rw [firstFrame?, firstFrame?, takeLines?, takeLines?, cutAtPrompt?, after?_eq_none_iff.2 h]
  simp only [Option.map_map]
  rfl

theorem firstFrame?_append {front : List (List Char)} (h : ∀ line ∈ front, ¬p <+: line)
    (lines : List (List Char)) :
    firstFrame? p (front ++ lines) = (firstFrame? p lines).map (front ++ ·) := by
  induction front with
  | nil => simp
  | cons line front ih =>
    rw [List.forall_mem_cons] at h
    rw [List.cons_append, firstFrame?_of_not _ h.1, ih h.2, Option.map_map]
    rfl

theorem firstFrame?_eq_none_iff {lines : List (List Char)} :
    firstFrame? p lines = none ↔ takeLines? p lines = none :=
  Option.map_eq_none_iff

/-- A run that takes all it can begins with the first complete frame. -/
theorem Run.head? {lines last : List (List Char)} {frames : List (List (List Char))}
    (h : Run p lines frames last) (hlast : takeLines? p last = none) :
    frames.head? = firstFrame? p lines := by
  cases h with
  | done => exact (firstFrame?_eq_none_iff.2 hlast).symm
  | take first => rw [firstFrame?, first]; rfl

/-- Frames that come from two runs are none if they would begin differently. -/
theorem Run.frames_eq_nil {lines lines' last last' : List (List Char)}
    {frames : List (List (List Char))} (h : Run p lines frames last)
    (hlast : takeLines? p last = none) (h' : Run p lines' frames last')
    (hlast' : takeLines? p last' = none)
    (hfirst : firstFrame? p lines = firstFrame? p lines' → firstFrame? p lines = none) :
    frames = [] := by
  have hnone := hfirst ((h.head? hlast).symm.trans (h'.head? hlast'))
  exact (h.of_eq_none (firstFrame?_eq_none_iff.1 hnone)).1

/-- Joining keeps the number of lines of a frame. -/
theorem Worn.length_firstFrame? (hp : Plain p) {lines lines' : List (List Char)}
    (h : Worn lines lines') :
    (firstFrame? p lines).map List.length = (firstFrame? p lines').map List.length := by
  induction h with
  | last line => rfl
  | @cons line n lines lines' rest ih =>
    by_cases hline : p <+: line
    · rw [firstFrame?_of_starts _ hline,
        firstFrame?_of_starts _ ((hp.starts_append_iff line n).2 hline)]
    · rw [firstFrame?_of_not _ hline,
        firstFrame?_of_not _ (mt (hp.starts_append_iff line n).1 hline), Option.map_map,
        Option.map_map]
      cases hfirst : firstFrame? p lines <;> cases hfirst' : firstFrame? p lines' <;>
        simp_all

/-- A line more makes another frame. -/
theorem firstFrame?_eq_none_of_longer (hp : Plain p) {line : List Char}
    {lines lines' : List (List Char)} (hline : ¬p <+: line) (hworn : Worn lines lines')
    (h : firstFrame? p (line :: lines) = firstFrame? p lines') :
    firstFrame? p (line :: lines) = none := by
  have hlength := hworn.length_firstFrame? hp
  rw [← h, firstFrame?_of_not _ hline] at hlength
  rw [firstFrame?_of_not _ hline]
  cases hfirst : firstFrame? p lines with
  | none => rfl
  | some frame =>
    rw [hfirst] at hlength
    simp at hlength

/-- Another first line makes another frame. -/
theorem firstFrame?_eq_none_of_ne {line line' : List Char} {lines lines' : List (List Char)}
    (hline : ¬p <+: line) (hne : line ≠ line')
    (h : firstFrame? p (line :: lines) = firstFrame? p (line' :: lines')) :
    firstFrame? p (line :: lines) = none := by
  rw [firstFrame?_of_not _ hline] at h ⊢
  cases hfirst : firstFrame? p lines with
  | none => rfl
  | some frame =>
    exfalso
    rw [hfirst] at h
    by_cases hline' : p <+: line'
    · rw [firstFrame?_of_starts _ hline'] at h
      cases h
    · rw [firstFrame?_of_not _ hline'] at h
      obtain ⟨frame', -, heq⟩ := Option.map_eq_some_iff.1 h.symm
      exact hne (List.cons.inj heq).1.symm

/-! ## A space or a line end that is severed -/

theorem Worn.starts_iff (hp : Plain p) {line line' : List Char} {lines lines' : List (List Char)}
    (h : Worn (line :: lines) (line' :: lines')) : p <+: line ↔ p <+: line' := by
  cases h with
  | last => exact Iff.rfl
  | cons _ n => exact hp.starts_append_iff line' n

/-- A text that changes behind a prompt, by its lines. -/
theorem Breaks.lines {t : List Char} (h : Breaks t) :
    (∃ lines, lines ≠ [] ∧ linesOf t = [] :: lines) ∨
      ∃ line lines, linesOf t = (' ' :: line) :: lines := by
  induction t using lines_induction with
  | nil => simp [Breaks] at h
  | newline s _ => exact Or.inl ⟨linesOf s, linesOf_ne_nil s, rfl⟩
  | crlf s _ => exact Or.inl ⟨linesOf s, linesOf_ne_nil s, rfl⟩
  | cons c s hc hr _ =>
    have hspace : c = ' ' := by
      rcases h with h | h | h
      · simpa using h
      · exact absurd (by simpa using h) hc
      · obtain ⟨rfl, ⟨rest, rfl⟩⟩ := by simpa using h
        exact absurd rfl (hr rfl)
    subst hspace
    obtain ⟨line, lines, hlines⟩ := List.exists_cons_of_ne_nil (linesOf_ne_nil s)
    exact Or.inr ⟨line, lines, by rw [linesOf_cons hc hr, hlines]; rfl⟩

/-- The number of lines that start with the prompt. -/
def prompts (p : List Char) (lines : List (List Char)) : Nat :=
  lines.countP fun line => p.isPrefixOf line

theorem Worn.prompts_eq (hp : Plain p) {lines lines' : List (List Char)} (h : Worn lines lines') :
    prompts p lines = prompts p lines' := by
  induction h with
  | last line => rfl
  | cons line n rest ih =>
    have hline : p.isPrefixOf (line ++ List.replicate n '\r') = p.isPrefixOf line := by
      rw [Bool.eq_iff_iff, List.isPrefixOf_iff_prefix, List.isPrefixOf_iff_prefix,
        hp.starts_append_iff]
    rw [prompts, prompts, List.countP_cons, List.countP_cons, hline]
    exact congrArg (· + _) ih

/-- A prompt that starts with a space is not found where the spaces have been dropped. -/
theorem prompts_reopen (hp : p.head? = some ' ') (line : List Char) (lines : List (List Char)) :
    prompts p (reopen (line :: lines)) = prompts p lines := by
  obtain ⟨p', rfl⟩ := List.head?_eq_some_iff.1 hp
  by_cases hopening : line.dropWhile (· == ' ') = []
  · by_cases hne : lines = []
    · rw [hne, reopen_singleton, hopening]
      rfl
    · rw [reopen_of_eq_nil hopening hne]
  · have hnot : ¬(' ' :: p').isPrefixOf (line.dropWhile (· == ' ')) = true := by
      rw [List.isPrefixOf_iff_prefix]
      rintro ⟨rest, hrest⟩
      exact head?_dropWhile_space line (by rw [← hrest]; rfl)
    rw [reopen_of_ne_nil lines hopening, prompts, List.countP_cons_of_neg hnot]
    rfl

/-- With a prompt that starts with a space, there are as many frames as lines that start with it. -/
theorem Run.length_eq_prompts (hp : Plain p) (hspace : p.head? = some ' ')
    {lines last : List (List Char)} {frames : List (List (List Char))}
    (h : Run p lines frames last) (hlast : takeLines? p last = none) :
    frames.length = prompts p lines := by
  induction h with
  | done lines =>
    rw [takeLines?_eq_none_iff] at hlast
    rw [prompts, List.countP_eq_zero.2]
    · rfl
    · simpa using hlast
  | take first _ ih =>
    obtain ⟨tail, after, rfl, hframe, rfl⟩ := takeLines?_eq_some_iff.1 first
    have hworn : Worn (reopen (tail :: after)) (rejoined (reopen (tail :: after))) :=
      (Worn.refl (reopen_ne_nil (List.cons_ne_nil _ _))).rejoined
    have hzero : prompts p _ = 0 := List.countP_eq_zero.2 (by simpa using hframe)
    rw [List.length_cons, ih hlast, ← hworn.prompts_eq hp, prompts_reopen hspace, prompts, prompts,
      List.countP_append, List.countP_cons_of_pos (by simp)]
    rw [prompts] at hzero
    omega

theorem head?_dropReturn {line : List Char} (h : line.head? ≠ some ' ') :
    (dropReturn line).head? ≠ some ' ' := by
  obtain ⟨n, hn⟩ := exists_eq_dropReturn line
  intro heq
  rw [hn, List.head?_append, heq] at h
  exact h rfl

/-- A severed space makes another first line, or a line more. -/
theorem firstFrame?_eq_none_of_space (hp : Plain p) {line : List Char}
    {lines whole : List (List Char)} (hline : ¬p <+: ' ' :: line)
    (hworn : Worn ((' ' :: line) :: lines) whole)
    (h : firstFrame? p ((' ' :: line) :: lines) = firstFrame? p (rejoined (reopen whole))) :
    firstFrame? p ((' ' :: line) :: lines) = none := by
  by_cases hne : lines = []
  · rw [hne, firstFrame?_of_not _ hline]
    rfl
  · obtain ⟨line', n, lines', -, rfl, hrest⟩ := hworn.exists_cons hne
    by_cases hopening : line'.dropWhile (· == ' ') = []
    · rw [reopen_of_eq_nil hopening hrest.ne_nil.2] at h
      exact firstFrame?_eq_none_of_longer hp hline hrest.rejoined h
    · rw [reopen_of_ne_nil _ hopening, rejoined_cons _ hrest.ne_nil.2] at h
      have hfirst : ' ' :: line ≠ dropReturn (line'.dropWhile (· == ' ')) := by
        intro heq
        apply head?_dropReturn (head?_dropWhile_space line')
        rw [← heq]
        rfl
      exact firstFrame?_eq_none_of_ne hline hfirst h

/-- If the same frames come from a text that changes behind a prompt and from what it changes to,
there are none. -/
theorem frames_eq_nil_of_breaks (hp : Plain p) {t : List Char} (ht : Breaks t)
    {whole last last' : List (List Char)} {frames : List (List (List Char))}
    (hworn : Worn (linesOf t) whole) (h : Run p (linesOf t) frames last)
    (hlast : takeLines? p last = none) (h' : Run p (rejoined (reopen whole)) frames last')
    (hlast' : takeLines? p last' = none) : frames = [] := by
  rcases ht.lines with ⟨lines, hne, hlines⟩ | ⟨line, lines, hlines⟩
  · rw [hlines] at hworn h
    obtain ⟨line', n, lines', hnil, rfl, hrest⟩ := hworn.exists_cons hne
    obtain ⟨rfl, -⟩ := List.append_eq_nil_iff.1 hnil.symm
    rw [reopen_of_eq_nil rfl hrest.ne_nil.2] at h'
    exact h.frames_eq_nil hlast h' hlast' fun heq =>
      firstFrame?_eq_none_of_longer hp hp.not_starts_nil hrest.rejoined heq
  · rw [hlines] at hworn h
    by_cases hline : p <+: ' ' :: line
    · -- the prompt starts with a space, and the frames can be counted
      exfalso
      have hspace : p.head? = some ' ' := by
        obtain ⟨c, p', rfl⟩ := List.exists_cons_of_ne_nil hp.ne_nil
        rw [(List.cons_prefix_cons.1 hline).1]
        rfl
      have hreopen : Worn (reopen whole) (rejoined (reopen whole)) :=
        (Worn.refl (reopen_ne_nil hworn.ne_nil.2)).rejoined
      have hcount := h.length_eq_prompts hp hspace hlast
      have hcount' := h'.length_eq_prompts hp hspace hlast'
      obtain ⟨line', lines', rfl⟩ := List.exists_cons_of_ne_nil hworn.ne_nil.2
      rw [← hreopen.prompts_eq hp, prompts_reopen hspace] at hcount'
      have hmore : prompts p (line' :: lines') = prompts p lines' + 1 :=
        List.countP_cons_of_pos (List.isPrefixOf_iff_prefix.2 ((hworn.starts_iff hp).1 hline))
      rw [hworn.prompts_eq hp, hcount', hmore] at hcount
      omega
    · exact h.frames_eq_nil hlast h' hlast' fun heq =>
        firstFrame?_eq_none_of_space hp hline hworn heq

/-- If the same frames come from lines behind a severed prompt and from lines that were taken as one
with it, there are none. -/
theorem frames_eq_nil_of_severed (hp : Plain p) {line rest w : List Char}
    {last joined end₁ end₂ : List (List Char)} {frames : List (List (List Char))}
    (hjoined : Joined p w line last joined) (hbehind : Behind p line rest)
    (hbreaks : Breaks (rest ++ w)) (hlast : takeLines? p last = none)
    (h : Run p (extend last w) frames end₁) (h₁ : takeLines? p end₁ = none)
    (h' : Run p joined frames end₂) (h₂ : takeLines? p end₂ = none) : frames = [] := by
  rw [takeLines?_eq_none_iff] at hlast
  cases hjoined with
  | before front hworn => exact absurd hbehind.starts (hlast line (by simp))
  | @behind rest' lines hrest' hworn =>
    have hrest : ¬p <+: rest := fun hstarts =>
      not_breaks_of_starts hp w hbehind.head? hstarts hbreaks
    obtain rfl := hbehind.unique hrest' hrest (hlast rest' (by simp))
    rw [extend_singleton] at h
    exact frames_eq_nil_of_breaks hp hbreaks hworn h h₁ h' h₂

/-! ## A stray carriage return -/

/-- A line with two carriage returns at its end keeps one before a line feed, and joining takes that
away. -/
theorem dropReturn_ne {line kept opening : List Char} {n : Nat} (hends : ['\r', '\r'] <:+ line)
    (hline : dropReturn line = kept ++ List.replicate n '\r') (hopening : opening <:+ kept) :
    dropReturn line ≠ dropReturn opening := by
  obtain ⟨front, rfl⟩ := hends
  have hdrop : dropReturn (front ++ ['\r', '\r']) = front ++ ['\r'] := by
    simpa using dropReturn_concat (front ++ ['\r'])
  obtain ⟨m, hm⟩ := exists_eq_dropReturn opening
  intro heq
  have hlength := congrArg List.length hline
  have hlength' := congrArg List.length hm
  rw [heq, List.length_append, List.length_replicate] at hlength
  rw [List.length_append, List.length_replicate] at hlength'
  have hle := hopening.length_le
  obtain rfl : m = 0 := by omega
  rw [List.replicate_zero, List.append_nil, ← heq, hdrop] at hm
  rw [hdrop, hm, dropReturn_concat] at heq
  exact absurd (congrArg List.length heq) (by simp)

theorem suffix_of_suffix_append {x y : List Char} (hx : '\r' ∉ x)
    (h : ['\r', '\r'] <:+ x ++ y) : ['\r', '\r'] <:+ y := by
  obtain ⟨front, hfront⟩ := h
  rcases List.append_eq_append_iff.1 hfront with ⟨more, rfl, heq⟩ | ⟨more, -, rfl⟩
  · cases more with
    | nil => exact ⟨[], heq⟩
    | cons c more =>
      obtain ⟨rfl, -⟩ := List.cons.inj heq
      exact absurd (List.mem_append_right _ List.mem_cons_self) hx
  · exact ⟨more, rfl⟩

/-- Prompts are taken off the start of a line. -/
theorem Behind.ends (hp : Plain p) {line rest : List Char} (h : Behind p line rest)
    (hends : ['\r', '\r'] <:+ line) : ['\r', '\r'] <:+ rest := by
  have hopening : ∀ tail, ['\r', '\r'] <:+ p ++ tail →
      ['\r', '\r'] <:+ tail.dropWhile (· == ' ') := by
    intro tail htail
    have htail := suffix_of_suffix_append hp.carriage htail
    rw [← List.takeWhile_append_dropWhile (p := (· == ' ')) (l := tail)] at htail
    exact suffix_of_suffix_append (notMem_spaces tail) htail
  induction h with
  | prompt tail => exact hopening tail hends
  | @further tail rest _ ih => exact ih (hopening tail hends)

/-- If the same frames come from lines that keep a stray carriage return and from lines that have
lost it, there are none. -/
theorem frames_eq_nil_of_return (hp : Plain p) {line w : List Char}
    {last joined end₁ end₂ : List (List Char)} {frames : List (List (List Char))}
    (hjoined : Joined p ('\n' :: w) line last joined) (hline : '\n' ∉ line)
    (hends : ['\r', '\r'] <:+ line) (hlast : takeLines? p last = none)
    (h : Run p (extend last ('\n' :: w)) frames end₁) (h₁ : takeLines? p end₁ = none)
    (h' : Run p joined frames end₂) (h₂ : takeLines? p end₂ = none) : frames = [] := by
  apply h.frames_eq_nil h₁ h' h₂
  intro heq
  rw [takeLines?_eq_none_iff] at hlast
  have hnot : ∀ l ∈ last, ¬p <+: dropReturn l := by
    intro l hl hstarts
    obtain ⟨n, hn⟩ := exists_eq_dropReturn l
    have hstarts := (hp.starts_append_iff _ n).2 hstarts
    rw [← hn] at hstarts
    exact hlast l hl hstarts
  cases hjoined with
  | before front hworn =>
    have hfront : ∀ l ∈ front, ¬p <+: l := fun l hl => hlast l (List.mem_append_left _ hl)
    rw [linesOf_append_newline w hline] at hworn
    obtain ⟨kept, n, lines', hkept, rfl, hmore⟩ := hworn.exists_cons (linesOf_ne_nil w)
    rw [extend_concat, linesOf_append_newline w hline, rejoined_cons _ hmore.ne_nil.2,
      firstFrame?_append hfront, firstFrame?_append hfront] at heq
    rw [extend_concat, linesOf_append_newline w hline, firstFrame?_append hfront,
      Option.map_eq_none_iff]
    exact firstFrame?_eq_none_of_ne (hnot line (by simp))
      (dropReturn_ne hends hkept List.suffix_rfl)
      (Option.map_injective (fun _ _ => List.append_cancel_left) heq)
  | @behind rest lines hrest hworn =>
    have hends := hrest.ends hp hends
    have hrest := fun hmem => hline (hrest.suffix.subset hmem)
    rw [extend_singleton, linesOf_append_newline w hrest] at heq ⊢
    rw [linesOf_append_newline w hrest] at hworn
    obtain ⟨kept, n, lines', hkept, rfl, hmore⟩ := hworn.exists_cons (linesOf_ne_nil w)
    by_cases hopening : kept.dropWhile (· == ' ') = []
    · rw [reopen_of_eq_nil hopening hmore.ne_nil.2] at heq
      exact firstFrame?_eq_none_of_longer hp (hnot rest (by simp)) hmore.rejoined heq
    · rw [reopen_of_ne_nil _ hopening, rejoined_cons _ hmore.ne_nil.2] at heq
      exact firstFrame?_eq_none_of_ne (hnot rest (by simp))
        (dropReturn_ne hends hkept (List.dropWhile_suffix _)) heq

end DebugConsole.FrameBuffer
