import DebugConsole.Proofs.Framing.Severed

set_option autoImplicit false

/-!
# Output in chunks

What a buffer takes from output that arrives chunk after chunk, set against what it takes when all
of it arrives as one.  Only delicate cuts make a difference: those that sever a prompt, and those
before a line feed with a stray carriage return.  A text may be cut freely exactly when no frame
follows a delicate cut (`cutFreely_iff_settled`).
-/

namespace DebugConsole.FrameBuffer

variable {p : List Char}

/-- The frames that are taken while chunks arrive one after another. -/
def feedAll (p : List Char) (b : FrameBuffer) : List String → List (List (List Char))
  | [] => []
  | chunk :: chunks => (b.feed p chunk).1 ++ feedAll p (b.feed p chunk).2 chunks

@[simp] theorem text_append (b : FrameBuffer) (chunk : String) :
    (b.append chunk).text = b.text ++ chunk.toList := rfl

theorem linesOf_append_text (b : FrameBuffer) (chunk : String) :
    linesOf (b.append chunk).text = extend (linesOf b.text) chunk.toList :=
  linesOf_append b.text chunk.toList

/-! ## The lines decide -/

theorem takeAll_congr (hp : p ≠ []) {b b' : FrameBuffer} (h : linesOf b.text = linesOf b'.text) :
    (takeAll p b).1 = (takeAll p b').1 ∧
      linesOf (takeAll p b).2.text = linesOf (takeAll p b').2.text := by
  obtain ⟨hrun, hlast⟩ := takeAll_run hp b'
  exact takeAll_of_run hp (h ▸ hrun) hlast

theorem feed_congr (hp : p ≠ []) {b b' : FrameBuffer} (h : linesOf b.text = linesOf b'.text)
    (chunk : String) :
    (b.feed p chunk).1 = (b'.feed p chunk).1 ∧
      linesOf (b.feed p chunk).2.text = linesOf (b'.feed p chunk).2.text :=
  takeAll_congr hp (by rw [linesOf_append_text, linesOf_append_text, h])

/-- Buffers with the same lines take the same frames. -/
theorem feedAll_congr (hp : p ≠ []) {b b' : FrameBuffer} (h : linesOf b.text = linesOf b'.text)
    (chunks : List String) : feedAll p b chunks = feedAll p b' chunks := by
  induction chunks generalizing b b' with
  | nil => rfl
  | cons chunk chunks ih =>
    obtain ⟨hframes, hlines⟩ := feed_congr hp h chunk
    rw [feedAll, feedAll, hframes, ih hlines]

/-! ## No more frames -/

theorem takeLines?_of_takeAll_eq_nil (hp : p ≠ []) {b : FrameBuffer} (h : (takeAll p b).1 = []) :
    takeLines? p (linesOf b.text) = none ∧
      linesOf (takeAll p b).2.text = linesOf b.text := by
  obtain ⟨hrun, hlast⟩ := takeAll_run hp b
  generalize linesOf (takeAll p b).2.text = last at hrun hlast ⊢
  rw [h] at hrun
  cases hrun
  exact ⟨hlast, rfl⟩

/-- A text completes a frame exactly when one of its lines starts with the prompt. -/
theorem takeAll_ne_nil_iff (hp : p ≠ []) {b : FrameBuffer} :
    (takeAll p b).1 ≠ [] ↔ ∃ line ∈ linesOf b.text, p <+: line := by
  constructor
  · intro h
    by_contra hsome
    have hnone : ∀ line ∈ linesOf b.text, ¬p <+: line :=
      fun line hline hstarts => hsome ⟨line, hline, hstarts⟩
    exact h (takeAll_of_run hp (.done _) (takeLines?_eq_none_iff.2 hnone)).1
  · rintro ⟨line, hline, hstarts⟩ hnil
    have hnone := (takeLines?_of_takeAll_eq_nil hp hnil).1
    exact takeLines?_eq_none_iff.1 hnone line hline hstarts

/-- A line that starts with a prompt still does once it goes on. -/
theorem takeLines?_eq_none_of_extend (hp : Plain p) {lines : List (List Char)} (hne : lines ≠ [])
    {w : List Char} (h : takeLines? p (extend lines w) = none) : takeLines? p lines = none := by
  rw [takeLines?_eq_none_iff] at h ⊢
  rw [eq_concat hne, extend_concat] at h
  rw [eq_concat hne]
  intro line hline hstarts
  rcases List.mem_append.1 hline with hfront | hlast
  · exact h line (List.mem_append_left _ hfront) hstarts
  · rw [List.mem_singleton] at hlast
    obtain ⟨tail, htail⟩ := hlast ▸ hstarts
    obtain ⟨l, ls, hlines⟩ := List.exists_cons_of_ne_nil (linesOf_ne_nil (tail ++ w))
    rw [← htail, hp.linesOf_append, hlines] at h
    exact h (p ++ l) (by simp) (List.prefix_append p l)

theorem append_append (b : FrameBuffer) (u w : String) :
    (b.append u).append w = b.append (u ++ w) := by
  simp [append]

/-- A text that completes no frame completes none in chunks. -/
theorem feedAll_eq_nil (hp : Plain p) {b : FrameBuffer} {chunks : List String}
    (h : takeLines? p (linesOf (b.append (String.join chunks)).text) = none) :
    feedAll p b chunks = [] := by
  induction chunks generalizing b with
  | nil => rfl
  | cons chunk chunks ih =>
    rw [String.join_cons, ← append_append, linesOf_append_text] at h
    obtain ⟨hframes, hlast⟩ :=
      takeAll_of_run hp.ne_nil (.done _) (takeLines?_eq_none_of_extend hp (linesOf_ne_nil _) h)
    rw [feedAll, feed, hframes, List.nil_append]
    apply ih
    rw [linesOf_append_text, hlast]
    exact h

/-! ## One cut -/

/-- What stays buffered of a text whose frames were taken with more text behind it. -/
theorem takeAll_join (hp : Plain p) (b : FrameBuffer) (chunk : String)
    (hne : (takeAll p b).1 ≠ []) :
    ∃ joined, Run p (linesOf (b.append chunk).text) (takeAll p b).1 joined ∧
      Joined p chunk.toList (lastLine b) (linesOf (takeAll p b).2.text) joined := by
  obtain ⟨hrun, hlast⟩ := takeAll_run hp.ne_nil b
  have hlines := eq_concat (linesOf_ne_nil b.text)
  rw [← lastLine_eq_getLastD] at hlines
  rw [hlines] at hrun
  rw [linesOf_append_text, hlines, extend_concat]
  exact hrun.join hp hlast hne (Worn.refl (linesOf_ne_nil _))

/-- Two chunks give what they give as one if the cut between them severs no prompt, and no stray
carriage return comes with the second once a frame has been taken. -/
theorem takeAll_append (hp : Plain p) {b : FrameBuffer} {chunk : String}
    (htidy : (takeAll p b).1 ≠ [] → Tidy (linesOf (lastLine b ++ chunk.toList)))
    (h : ¬SeversPrompt p b.text chunk.toList) :
    (takeAll p (b.append chunk)).1 = (takeAll p b).1 ++ ((takeAll p b).2.feed p chunk).1 ∧
      linesOf (takeAll p (b.append chunk)).2.text =
        linesOf ((takeAll p b).2.feed p chunk).2.text := by
  by_cases hnil : (takeAll p b).1 = []
  · rw [hnil, List.nil_append]
    exact feed_congr hp.ne_nil (takeLines?_of_takeAll_eq_nil hp.ne_nil hnil).2.symm chunk
  · obtain ⟨joined, hrun, hjoined⟩ := takeAll_join hp b chunk hnil
    obtain ⟨hmore, hlast⟩ := takeAll_run hp.ne_nil ((takeAll p b).2.append chunk)
    rw [hjoined.eq_extend hp (htidy hnil) fun rest hrest hbreaks => h ⟨rest, hrest, hbreaks⟩,
      ← linesOf_append_text] at hrun
    exact takeAll_of_run hp.ne_nil (hrun.append hmore) hlast

/-! ## Delicate cuts -/

/-- A cut that may change frames: behind a prompt whose spaces or line end come later, or, once a
frame has been taken, before a line feed with a stray carriage return before its line end. -/
inductive Delicate (p u w : List Char) : Prop
  | prompt (severs : SeversPrompt p u w)
  | carriage (taken : (takeAll p ⟨u⟩).1 ≠ []) (ends : ['\r', '\r'] <:+ u)
      (begins : w.head? = some '\n')

/-- A text that ends in carriage returns has them on its last line. -/
theorem suffix_lastLine {u : List Char} (h : ['\r', '\r'] <:+ u) :
    ['\r', '\r'] <:+ lastLine ⟨u⟩ := by
  obtain ⟨front, rfl⟩ := h
  rw [lastLine]
  simp

theorem SeversPrompt.taken (hp : Plain p) {b : FrameBuffer} {w : List Char}
    (h : SeversPrompt p b.text w) : (takeAll p b).1 ≠ [] := by
  obtain ⟨rest, hbehind, -⟩ := h
  rw [lastLine_eq_getLastD] at hbehind
  rw [takeAll_ne_nil_iff hp.ne_nil]
  exact ⟨_, last_mem_linesOf b.text, hbehind.starts⟩

/-- Two chunks with a delicate cut between them give what they give as one only if the second
completes no frame. -/
theorem feed_eq_nil_of_delicate (hp : Plain p) {b : FrameBuffer} {chunk : String}
    (h : Delicate p b.text chunk.toList)
    (heq : (takeAll p (b.append chunk)).1 =
      (takeAll p b).1 ++ ((takeAll p b).2.feed p chunk).1) :
    ((takeAll p b).2.feed p chunk).1 = [] := by
  have hne : (takeAll p b).1 ≠ [] := by
    cases h with
    | prompt severs => exact severs.taken hp
    | carriage taken => exact taken
  have hlast := (takeAll_run hp.ne_nil b).2
  obtain ⟨joined, hjoin, hjoined⟩ := takeAll_join hp b chunk hne
  obtain ⟨hmore, h₁⟩ := takeAll_run hp.ne_nil ((takeAll p b).2.append chunk)
  obtain ⟨hwhole, h₂⟩ := takeAll_run hp.ne_nil (b.append chunk)
  obtain ⟨more, hframes, hrest⟩ := hjoin.rest hwhole h₂
  obtain rfl : more = ((takeAll p b).2.feed p chunk).1 :=
    List.append_cancel_left (hframes.symm.trans heq)
  rw [linesOf_append_text] at hmore
  cases h with
  | prompt severs =>
    obtain ⟨rest, hbehind, hbreaks⟩ := severs
    exact frames_eq_nil_of_severed hp hjoined hbehind hbreaks hlast hmore h₁ hrest h₂
  | carriage taken ends begins =>
    obtain ⟨w, hw⟩ := List.head?_eq_some_iff.1 begins
    rw [hw] at hmore hjoined
    have hline : '\n' ∉ lastLine b := by
      rw [lastLine_eq_getLastD]
      exact notMem_linesOf b.text _ (last_mem_linesOf b.text)
    exact frames_eq_nil_of_return hp hjoined hline (suffix_lastLine ends) hlast hmore h₁ hrest h₂

/-! ## Cuts where no frame follows -/

/-- The first stray carriage return of a text that goes on. -/
theorem exists_stray_return {x c : List Char} (h : ['\r', '\r', '\n'] <:+: x ++ c)
    (hx : ¬['\r', '\r', '\n'] <:+: x) :
    ∃ before after, c = before ++ '\n' :: after ∧ ['\r', '\r'] <:+ x ++ before ∧
      ¬['\r', '\r', '\n'] <:+: x ++ before := by
  induction c generalizing x with
  | nil =>
    rw [List.append_nil] at h
    exact absurd h hx
  | cons d c ih =>
    by_cases hd : ['\r', '\r', '\n'] <:+: x ++ [d]
    · obtain ⟨front, hfront⟩ := (List.infix_concat_iff.1 hd).resolve_right hx
      have hfront : front ++ ['\r', '\r'] ++ ['\n'] = x ++ [d] := by simpa using hfront
      obtain ⟨rfl, rfl⟩ := List.append_singleton_inj.1 hfront
      exact ⟨[], c, rfl, by simp, by simpa using hx⟩
    · rw [List.append_cons] at h
      obtain ⟨before, after, rfl, hends, hno⟩ := ih h hd
      exact ⟨d :: before, after, rfl, by simpa using hends, by simpa using hno⟩

/-- A line feed and what follows it complete no frame in chunks if they complete none behind the
frames that have been taken. -/
theorem takeAll_append_newline (hp : Plain p) {b : FrameBuffer} {chunk : String}
    {chunks : List String} (hchunk : chunk.toList.head? = some '\n')
    (h : takeLines? p
      (linesOf ((takeAll p b).2.append (chunk ++ String.join chunks)).text) = none) :
    (takeAll p (b.append chunk)).1 = (takeAll p b).1 ∧
      feedAll p (takeAll p (b.append chunk)).2 chunks = [] := by
  by_cases hnil : (takeAll p b).1 = []
  · have hlines := (takeLines?_of_takeAll_eq_nil hp.ne_nil hnil).2
    rw [linesOf_append_text, hlines, ← linesOf_append_text, ← String.join_cons] at h
    obtain ⟨hfirst, hrest⟩ := List.append_eq_nil_iff.1 (feedAll_eq_nil hp h)
    exact ⟨hfirst.trans hnil.symm, hrest⟩
  · obtain ⟨joined, hrun, hjoined⟩ := takeAll_join hp b chunk hnil
    have hspace : ∀ rest, Behind p (lastLine b) rest → (rest ++ chunk.toList).head? ≠ some ' ' := by
      intro rest hrest
      cases rest with
      | nil => simp [hchunk]
      | cons c rest => exact hrest.head?
    rw [← append_append, linesOf_append_text, linesOf_append_text] at h
    have hquiet : takeLines? p (extend joined (String.join chunks).toList) = none := by
      rcases hjoined.worn hspace with hworn | ⟨first, lines, heq, hworn⟩
      · exact ((hworn.extend _).takeLines?_eq_none_iff hp).1 h
      · rw [heq, extend_cons _ hworn.ne_nil.1] at h
        have hlines := (takeLines?_eq_none_iff.1 h)
        rw [List.forall_mem_cons] at hlines
        exact ((hworn.extend _).takeLines?_eq_none_iff hp).1 (takeLines?_eq_none_iff.2 hlines.2)
    have hne : joined ≠ [] := by
      rcases hjoined.worn hspace with hworn | ⟨_, _, -, hworn⟩ <;> exact hworn.ne_nil.2
    obtain ⟨hframes, hlines⟩ :=
      takeAll_of_run hp.ne_nil hrun (takeLines?_eq_none_of_extend hp hne hquiet)
    refine ⟨hframes, feedAll_eq_nil hp ?_⟩
    rw [linesOf_append_text, hlines]
    exact hquiet

/-! ## Any cuts -/

theorem feedAll_cons (b : FrameBuffer) (u : String) (chunks : List String) :
    feedAll p b (u :: chunks) =
      (takeAll p (b.append u)).1 ++ feedAll p (takeAll p (b.append u)).2 chunks := rfl

theorem feedAll_singleton (b : FrameBuffer) (u : String) :
    feedAll p b [u] = (takeAll p (b.append u)).1 := by
  rw [feedAll_cons, feedAll, List.append_nil]

theorem feedAll_pair (b : FrameBuffer) (u w : String) :
    feedAll p b [u, w] =
      (takeAll p (b.append u)).1 ++ ((takeAll p (b.append u)).2.feed p w).1 := by
  rw [feedAll_cons, feedAll_singleton, feed]

/-- The same frames come from a text however it is cut into chunks. -/
def CutFreely (p : List Char) (s : String) : Prop :=
  ∀ chunks chunks' : List String, String.join chunks = s → String.join chunks' = s →
    feedAll p .empty chunks = feedAll p .empty chunks'

/-- No frame follows a delicate cut of a text, whether the text arrives as one or cut there. -/
def Settled (p : List Char) (s : String) : Prop :=
  ∀ u w : String, u ++ w = s → Delicate p u.toList w.toList →
    feedAll p .empty [u, w] = feedAll p .empty [u] ∧
      feedAll p .empty [u ++ w] = feedAll p .empty [u]

theorem SeversPrompt.append {u w : List Char} (h : SeversPrompt p u w) (x : List Char) :
    SeversPrompt p u (w ++ x) := by
  obtain ⟨rest, hbehind, hbreaks⟩ := h
  refine ⟨rest, hbehind, ?_⟩
  rw [← List.append_assoc]
  rcases hbreaks with h | h | h
  · exact Or.inl (by rw [List.head?_append, h]; rfl)
  · exact Or.inr (Or.inl (by rw [List.head?_append, h]; rfl))
  · exact Or.inr (Or.inr (h.trans (List.prefix_append _ _)))

/-- Behind a delicate cut of a settled text, neither more text nor chunks complete a frame. -/
theorem Settled.quiet (hp : Plain p) {s u w : String} (h : Settled p s) (hs : u ++ w = s)
    (hcut : Delicate p u.toList w.toList) :
    takeLines? p (linesOf ((takeAll p (empty.append u)).2.append w).text) = none ∧
      (takeAll p (empty.append s)).1 = (takeAll p (empty.append u)).1 := by
  obtain ⟨hpair, hwhole⟩ := h u w hs hcut
  rw [feedAll_pair, feedAll_singleton, List.append_right_eq_self, feed] at hpair
  rw [hs, feedAll_singleton, feedAll_singleton] at hwhole
  exact ⟨(takeLines?_of_takeAll_eq_nil hp.ne_nil hpair).1, hwhole⟩

theorem lastLine_suffix (s : List Char) : lastLine ⟨s⟩ <:+ s := by
  rw [lastLine, ← List.reverse_prefix, List.reverse_reverse]
  exact List.takeWhile_prefix _

/-- A chunk with a stray carriage return is the last of a settled text to complete a frame, and what
it completes comes before the carriage return. -/
theorem Settled.feedAll_eq_of_stray (hp : Plain p) {s u chunk : String} {chunks : List String}
    (h : Settled p s) (hs : u ++ (chunk ++ String.join chunks) = s)
    (hsevers : ¬SeversPrompt p u.toList chunk.toList)
    (htaken : (takeAll p (empty.append u)).1 ≠ [])
    (hstray : ['\r', '\r', '\n'] <:+: lastLine (empty.append u) ++ chunk.toList) :
    (takeAll p (empty.append u)).1 ++ feedAll p (takeAll p (empty.append u)).2 (chunk :: chunks) =
      (takeAll p (empty.append s)).1 := by
  have hline : ¬['\r', '\r', '\n'] <:+: lastLine (empty.append u) := by
    intro hinfix
    rw [lastLine_eq_getLastD] at hinfix
    exact notMem_linesOf _ _ (last_mem_linesOf _) (List.IsInfix.subset hinfix (by simp))
  obtain ⟨before, after, hchunk, hends, hno⟩ := exists_stray_return hstray hline
  obtain rfl : chunk = String.ofList before ++ String.ofList ('\n' :: after) := by
    rw [← String.toList_inj, hchunk]
    simp
  rw [String.append_assoc, ← String.append_assoc] at hs
  -- the chunk up to the carriage return is as good as one with what came before
  have hbefore : ¬SeversPrompt p u.toList (String.ofList before).toList := by
    intro h
    apply hsevers
    rw [String.toList_append]
    exact h.append _
  have htidy : Tidy (linesOf (lastLine (empty.append u) ++ (String.ofList before).toList)) := by
    rw [String.toList_ofList]
    exact tidy_linesOf hno
  obtain ⟨hframes, hlines⟩ := takeAll_append hp (fun _ => htidy) hbefore
  rw [append_append] at hframes hlines
  have hcut : Delicate p (u ++ String.ofList before).toList
      (String.ofList ('\n' :: after) ++ String.join chunks).toList := by
    refine .carriage ?_ ?_ (by simp)
    · have hne : (takeAll p (empty.append (u ++ String.ofList before))).1 ≠ [] := by
        rw [hframes]
        simp [htaken]
      exact hne
    · obtain ⟨front, hfront⟩ := lastLine_suffix u.toList
      have hsuffix : lastLine (empty.append u) ++ before <:+ u.toList ++ before :=
        ⟨front, by rw [← List.append_assoc]; exact congrArg (· ++ before) hfront⟩
      rw [String.toList_append, String.toList_ofList]
      exact hends.trans hsuffix
  obtain ⟨hnone, hwhole⟩ := h.quiet hp hs hcut
  rw [linesOf_append_text, hlines, ← linesOf_append_text, feed] at hnone
  obtain ⟨hmore, hrest⟩ := takeAll_append_newline hp (by simp) hnone
  rw [hwhole, hframes, feedAll_cons, ← append_append, hmore, hrest, List.append_nil, feed]

/-- Behind any start of a settled text, chunks give what the rest of it gives. -/
theorem Settled.feedAll_eq (hp : Plain p) {s : String} (h : Settled p s) (chunks : List String)
    {u : String} (hs : u ++ String.join chunks = s) :
    (takeAll p (empty.append u)).1 ++ feedAll p (takeAll p (empty.append u)).2 chunks =
      (takeAll p (empty.append s)).1 := by
  induction chunks generalizing u with
  | nil =>
    rw [String.join_nil, String.append_empty] at hs
    rw [hs, feedAll, List.append_nil]
  | cons chunk chunks ih =>
    rw [String.join_cons] at hs
    by_cases hsevers : SeversPrompt p u.toList chunk.toList
    · have hcut : Delicate p u.toList (chunk ++ String.join chunks).toList := by
        rw [String.toList_append]
        exact .prompt (hsevers.append _)
      obtain ⟨hnone, hwhole⟩ := h.quiet hp hs hcut
      rw [← String.join_cons] at hnone
      rw [feedAll_eq_nil hp hnone, hwhole, List.append_nil]
    · by_cases hstray : (takeAll p (empty.append u)).1 ≠ [] ∧
          ['\r', '\r', '\n'] <:+: lastLine (empty.append u) ++ chunk.toList
      · exact h.feedAll_eq_of_stray hp hs hsevers hstray.1 hstray.2
      · have htidy : (takeAll p (empty.append u)).1 ≠ [] →
            Tidy (linesOf (lastLine (empty.append u) ++ chunk.toList)) := fun htaken =>
          tidy_linesOf fun hinfix => hstray ⟨htaken, hinfix⟩
        obtain ⟨hframes, hlines⟩ := takeAll_append hp htidy hsevers
        rw [append_append] at hframes hlines
        rw [← ih (by rw [← hs, String.append_assoc]), hframes, feedAll, List.append_assoc,
          feedAll_congr hp.ne_nil hlines]

theorem takeAll_empty (hp : Plain p) :
    (takeAll p (empty.append "")).1 = [] ∧
      linesOf (takeAll p (empty.append "")).2.text = linesOf empty.text := by
  refine takeAll_of_run hp.ne_nil (.done _) (takeLines?_eq_none_iff.2 ?_)
  exact List.forall_mem_singleton.2 hp.not_starts_nil

/-- A text may be cut freely exactly when no frame follows a delicate cut of it. -/
theorem cutFreely_iff_settled (hp : Plain p) (s : String) : CutFreely p s ↔ Settled p s := by
  constructor
  · intro h u w hs hcut
    have heq := h [u, w] [u ++ w] (by simpa using hs) (by simpa using hs)
    rw [feedAll_pair, feedAll_singleton, ← append_append] at heq
    have hnil := feed_eq_nil_of_delicate hp hcut heq.symm
    rw [hnil, List.append_nil] at heq
    rw [feedAll_pair, feedAll_singleton, feedAll_singleton, hnil, List.append_nil,
      ← append_append]
    exact ⟨rfl, heq.symm⟩
  · intro h chunks chunks' hs hs'
    have hwhole : ∀ chunks, String.join chunks = s →
        feedAll p .empty chunks = (takeAll p (empty.append s)).1 := by
      intro chunks hs
      obtain ⟨hframes, hlines⟩ := takeAll_empty hp
      have hall := h.feedAll_eq hp chunks (show "" ++ String.join chunks = s by simpa using hs)
      rw [← hall, hframes, List.nil_append, feedAll_congr hp.ne_nil hlines]
    rw [hwhole chunks hs, hwhole chunks' hs']

end DebugConsole.FrameBuffer
