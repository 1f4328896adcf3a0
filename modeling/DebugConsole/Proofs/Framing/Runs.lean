import DebugConsole.Proofs.Framing.Lines

set_option autoImplicit false

/-!
# Taking frame after frame

Taking a frame looks at the lines of the buffered text only.  `Run` takes frames from lines, and
`takeAll_run` says that it does what the buffer does.  Every frame shortens the text by its prompt
at least, so all complete frames are taken, however long the text is.
-/

namespace DebugConsole.FrameBuffer

variable {p : List Char}

/-! ## The first prompt -/

theorem after?_eq_none_iff {line : List Char} : Text.after? p line = none ↔ ¬p <+: line := by
  rw [Option.eq_none_iff_forall_ne_some]
  constructor
  · rintro h ⟨rest, rfl⟩
    exact h rest (Text.after?_eq_some_iff.2 rfl)
  · intro h rest hafter
    exact h ⟨rest, (Text.after?_eq_some_iff.1 hafter).symm⟩

theorem cutAtPrompt?_eq_none_iff {lines : List (List Char)} :
    cutAtPrompt? p lines = none ↔ ∀ line ∈ lines, ¬p <+: line := by
  induction lines with
  | nil => simp [cutAtPrompt?]
  | cons line lines ih =>
    rw [cutAtPrompt?, List.forall_mem_cons, ← after?_eq_none_iff, ← ih]
    cases Text.after? p line with
    | none => simp
    | some rest => simp

/-- Lines are cut at the first that starts with the prompt. -/
theorem cutAtPrompt?_eq_some_iff {lines frame after : List (List Char)} {tail : List Char} :
    cutAtPrompt? p lines = some (frame, tail, after) ↔
      lines = frame ++ (p ++ tail) :: after ∧ ∀ line ∈ frame, ¬p <+: line := by
  induction lines generalizing frame with
  | nil => simp [cutAtPrompt?]
  | cons line lines ih =>
    rw [cutAtPrompt?]
    cases hafter : Text.after? p line with
    | some rest =>
      rw [Text.after?_eq_some_iff] at hafter
      subst hafter
      constructor
      · rintro ⟨⟩
        simp
      · rintro ⟨heq, hframe⟩
        cases frame with
        | nil => simp_all
        | cons l frame =>
          obtain ⟨rfl, -⟩ := List.cons.inj heq
          exact absurd (List.prefix_append p rest) (hframe _ List.mem_cons_self)
    | none =>
      have hline := after?_eq_none_iff.1 hafter
      simp only [Option.map_eq_some_iff, Prod.mk.injEq, Prod.exists]
      constructor
      · rintro ⟨front, rest, more, hcut, rfl, rfl, rfl⟩
        obtain ⟨rfl, hfront⟩ := ih.1 hcut
        exact ⟨rfl, List.forall_mem_cons.2 ⟨hline, hfront⟩⟩
      · rintro ⟨heq, hframe⟩
        cases frame with
        | nil =>
          obtain ⟨rfl, -⟩ := List.cons.inj heq
          exact absurd (List.prefix_append p tail) hline
        | cons l frame =>
          obtain ⟨rfl, rfl⟩ := List.cons.inj heq
          exact ⟨frame, tail, after, ih.2 ⟨rfl, (List.forall_mem_cons.1 hframe).2⟩, rfl, rfl, rfl⟩

/-! ## Taking from lines -/

/-- The lines behind a prompt, the first without the spaces that it starts with; it is dropped if
nothing else is on it. -/
def reopen : List (List Char) → List (List Char)
  | [] => []
  | line :: lines =>
    let opening := line.dropWhile (· == ' ')
    if opening.isEmpty then if lines.isEmpty then [[]] else lines else opening :: lines

/-- Takes the first complete frame from lines; the lines behind it are joined and read again. -/
def takeLines? (p : List Char) (lines : List (List Char)) :
    Option (List (List Char) × List (List Char)) :=
  (cutAtPrompt? p lines).map fun (frame, tail, after) => (frame, rejoined (reopen (tail :: after)))

/-- Some frames are taken from lines, one after another. -/
inductive Run (p : List Char) :
    List (List Char) → List (List (List Char)) → List (List Char) → Prop
  | done (lines : List (List Char)) : Run p lines [] lines
  | take {lines frame next last : List (List Char)} {frames : List (List (List Char))}
      (first : takeLines? p lines = some (frame, next)) (rest : Run p next frames last) :
      Run p lines (frame :: frames) last

theorem takeLines?_eq_none_iff {lines : List (List Char)} :
    takeLines? p lines = none ↔ ∀ line ∈ lines, ¬p <+: line := by
  rw [takeLines?, Option.map_eq_none_iff, cutAtPrompt?_eq_none_iff]

theorem takeLines?_eq_some_iff {lines frame next : List (List Char)} :
    takeLines? p lines = some (frame, next) ↔
      ∃ tail after, lines = frame ++ (p ++ tail) :: after ∧ (∀ line ∈ frame, ¬p <+: line) ∧
        next = rejoined (reopen (tail :: after)) := by
  simp only [takeLines?, Option.map_eq_some_iff, Prod.mk.injEq, Prod.exists]
  constructor
  · rintro ⟨front, tail, after, hcut, rfl, rfl⟩
    obtain ⟨heq, hfront⟩ := cutAtPrompt?_eq_some_iff.1 hcut
    exact ⟨tail, after, heq, hfront, rfl⟩
  · rintro ⟨tail, after, heq, hframe, rfl⟩
    exact ⟨frame, tail, after, cutAtPrompt?_eq_some_iff.2 ⟨heq, hframe⟩, rfl, rfl⟩

namespace Run

variable {lines last last' : List (List Char)} {frames frames' : List (List (List Char))}

theorem append (h : Run p lines frames last) (h' : Run p last frames' last') :
    Run p lines (frames ++ frames') last' := by
  induction h with
  | done => exact h'
  | take first _ ih => exact .take first (ih h')

/-- A run that takes all it can goes on from where another stops. -/
theorem rest (h : Run p lines frames last) (h' : Run p lines frames' last')
    (hlast' : takeLines? p last' = none) :
    ∃ more, frames' = frames ++ more ∧ Run p last more last' := by
  induction h generalizing frames' with
  | done => exact ⟨frames', rfl, h'⟩
  | take first _ ih =>
    cases h' with
    | done =>
      rw [hlast'] at first
      cases first
    | take first' rest' =>
      rw [first] at first'
      cases first'
      obtain ⟨more, rfl, hmore⟩ := ih rest'
      exact ⟨more, rfl, hmore⟩

theorem of_eq_none (h : Run p lines frames last) (hnone : takeLines? p lines = none) :
    frames = [] ∧ last = lines := by
  cases h with
  | done => exact ⟨rfl, rfl⟩
  | take first =>
    rw [hnone] at first
    cases first

/-- Runs that take all they can take the same. -/
theorem unique (h : Run p lines frames last) (h' : Run p lines frames' last')
    (hlast : takeLines? p last = none) (hlast' : takeLines? p last' = none) :
    frames = frames' ∧ last = last' := by
  obtain ⟨more, rfl, hmore⟩ := h.rest h' hlast'
  obtain ⟨rfl, rfl⟩ := hmore.of_eq_none hlast
  exact ⟨(List.append_nil frames).symm, rfl⟩

end Run

theorem reopen_ne_nil {lines : List (List Char)} (h : lines ≠ []) : reopen lines ≠ [] := by
  cases lines with
  | nil => exact absurd rfl h
  | cons line lines =>
    rw [reopen]
    split
    · split
      · simp
      · simpa using ‹¬lines.isEmpty = true›
    · simp

/-! ## What the buffer takes -/

/-- What stays buffered is read as the lines behind the prompt. -/
theorem linesOf_remainder {tail : List Char} {after : List (List Char)}
    (h : ∀ line ∈ tail :: after, '\n' ∉ line) :
    linesOf (remainder tail after) = rejoined (reopen (tail :: after)) := by
  rw [List.forall_mem_cons] at h
  have hopening : '\n' ∉ tail.dropWhile (· == ' ') :=
    fun hmem => h.1 ((List.dropWhile_sublist _).mem hmem)
  rw [remainder, reopen]
  split
  · cases after with
    | nil => rfl
    | cons line lines => exact linesOf_joinLines h.2
  · exact linesOf_joinLines (List.forall_mem_cons.2 ⟨hopening, h.2⟩)

/-- Taking a frame looks at the lines only. -/
theorem take?_linesOf (p : List Char) (b : FrameBuffer) :
    (b.take? p).map (fun (frame, next) => (frame, linesOf next.text)) =
      takeLines? p (linesOf b.text) := by
  rw [take?, takeLines?, Option.map_map]
  cases hcut : cutAtPrompt? p (linesOf b.text) with
  | none => rfl
  | some cut =>
    obtain ⟨frame, tail, after⟩ := cut
    have hlines := (cutAtPrompt?_eq_some_iff.1 hcut).1
    have hline := notMem_linesOf b.text
    rw [hlines] at hline
    have hnone : ∀ line ∈ tail :: after, '\n' ∉ line := by
      rw [List.forall_mem_cons]
      refine ⟨fun hmem => hline (p ++ tail) (by simp) (List.mem_append_right _ hmem), ?_⟩
      exact fun line hmem => hline line (by simp [hmem])
    simp [linesOf_remainder hnone]

/-! ## Every complete frame is taken -/

theorem joinLines_cons (line : List Char) {lines : List (List Char)} (h : lines ≠ []) :
    joinLines (line :: lines) = line ++ '\n' :: joinLines lines := by
  cases lines with
  | nil => exact absurd rfl h
  | cons l lines => rfl

theorem joinLines_attach (x : List Char) {lines : List (List Char)} (h : lines ≠ []) :
    joinLines (attach x lines) = x ++ joinLines lines := by
  cases lines with
  | nil => exact absurd rfl h
  | cons line lines =>
    cases lines with
    | nil => rfl
    | cons l lines => simp [joinLines]

theorem length_joinLines_linesOf_le (s : List Char) :
    (joinLines (linesOf s)).length ≤ s.length := by
  induction s using lines_induction with
  | nil => simp [joinLines]
  | newline s ih =>
    rw [linesOf_newline, joinLines_cons _ (linesOf_ne_nil s)]
    simpa using ih
  | crlf s ih =>
    rw [linesOf_crlf, joinLines_cons _ (linesOf_ne_nil s)]
    simp only [List.nil_append, List.length_cons]
    omega
  | cons c s hc hr ih =>
    rw [linesOf_cons hc hr, joinLines_attach _ (linesOf_ne_nil s)]
    simpa using ih

theorem length_joinLines_le_append (front lines : List (List Char)) :
    (joinLines lines).length ≤ (joinLines (front ++ lines)).length := by
  induction front with
  | nil => exact le_rfl
  | cons line front ih =>
    by_cases hne : front ++ lines = []
    · have hlines : lines = [] := (List.append_eq_nil_iff.1 hne).2
      simp [hlines, joinLines]
    · rw [List.cons_append, joinLines_cons _ hne, List.length_append, List.length_cons]
      omega

theorem length_remainder_le (tail : List Char) (after : List (List Char)) :
    (remainder tail after).length ≤ (joinLines (tail :: after)).length := by
  have hopening : (tail.dropWhile (· == ' ')).length ≤ tail.length :=
    (List.dropWhile_sublist _).length_le
  rw [remainder]
  split
  · exact length_joinLines_le_append [tail] after
  · by_cases hne : after = []
    · simpa [hne, joinLines] using hopening
    · rw [joinLines_cons _ hne, joinLines_cons _ hne, List.length_append, List.length_append]
      omega

/-- A frame shortens the text by its prompt. -/
theorem length_take? {b next : FrameBuffer} {frame : List (List Char)}
    (h : b.take? p = some (frame, next)) : next.text.length + p.length ≤ b.text.length := by
  rw [take?, Option.map_eq_some_iff] at h
  obtain ⟨⟨front, tail, after⟩, hcut, heq⟩ := h
  cases heq
  calc (remainder tail after).length + p.length
      ≤ (joinLines (tail :: after)).length + p.length :=
        Nat.add_le_add_right (length_remainder_le tail after) _
    _ = (joinLines ((p ++ tail) :: after)).length := by
        rw [← attach_cons p tail after, joinLines_attach _ (by simp), List.length_append,
          Nat.add_comm]
    _ ≤ (joinLines (linesOf b.text)).length := by
        rw [(cutAtPrompt?_eq_some_iff.1 hcut).1]
        exact length_joinLines_le_append _ _
    _ ≤ b.text.length := length_joinLines_linesOf_le _

/-- Enough rounds take every complete frame. -/
theorem takeUpTo_run (hp : p ≠ []) (b : FrameBuffer) {bound : Nat} (hbound : b.text.length < bound) :
    Run p (linesOf b.text) (takeUpTo p b bound).1 (linesOf (takeUpTo p b bound).2.text) ∧
      takeLines? p (linesOf (takeUpTo p b bound).2.text) = none := by
  induction bound generalizing b with
  | zero => exact absurd hbound (Nat.not_lt_zero _)
  | succ bound ih =>
    have htake := take?_linesOf p b
    rw [takeUpTo]
    cases hb : b.take? p with
    | none =>
      rw [hb] at htake
      exact ⟨.done _, htake.symm⟩
    | some taken =>
      obtain ⟨frame, next⟩ := taken
      rw [hb] at htake
      have hshort := length_take? hb
      have hpos : 0 < p.length := List.length_pos_iff.2 hp
      obtain ⟨hrun, hnone⟩ := ih next (by omega)
      exact ⟨.take htake.symm hrun, hnone⟩

/-- The buffer takes frames as long as there are any. -/
theorem takeAll_run (hp : p ≠ []) (b : FrameBuffer) :
    Run p (linesOf b.text) (takeAll p b).1 (linesOf (takeAll p b).2.text) ∧
      takeLines? p (linesOf (takeAll p b).2.text) = none :=
  takeUpTo_run hp b (Nat.lt_succ_self _)

/-- A run that takes all it can is what the buffer takes. -/
theorem takeAll_of_run (hp : p ≠ []) {b : FrameBuffer} {frames : List (List (List Char))}
    {last : List (List Char)} (h : Run p (linesOf b.text) frames last)
    (hlast : takeLines? p last = none) :
    (takeAll p b).1 = frames ∧ linesOf (takeAll p b).2.text = last :=
  (takeAll_run hp b).1.unique h (takeAll_run hp b).2 hlast

end DebugConsole.FrameBuffer
