import DebugConsole.Proofs.Framing.Independence

set_option autoImplicit false

/-!
# Draining the buffer

When output arrives, a channel takes the first complete frame from its buffer and deals with it, then the
next one, until there is none.  `Drains` says just that and puts no bound on the rounds.  Every round
shortens the text by its prompt at least (`round?_shortens`), so the rounds come to an end, and they end
where `feed` does: with no line in the buffer that starts with the prompt (`feed_drains`).

The bound that `feed` puts on its rounds, the length of the text, is therefore never what ends them.
-/

namespace DebugConsole.Channel

open FrameBuffer (linesOf linesOf_ne_nil takeUpTo)

variable {ch next last last' : Channel} {lines : List String} {frames frames' : List (List String)}
  {now : Float}

/-! ## One round -/

/-- Takes the first complete frame from the buffer and deals with it. -/
def round? (ch : Channel) (now : Float) : Option (List String × Channel) :=
  (ch.buffer.take? ch.prompt.toList).map fun (frame, buffer) =>
    let lines := frame.map String.ofList
    (lines, (ch.withBuffer buffer).emit lines now)

theorem take?_eq_none_iff {p : List Char} {b : FrameBuffer} :
    b.take? p = none ↔ ∀ line ∈ linesOf b.text, ¬p <+: line := by
  rw [FrameBuffer.take?, Option.map_eq_none_iff, FrameBuffer.cutAtPrompt?_eq_none_iff]

/-- There is no further round when no line starts with the prompt. -/
theorem round?_eq_none_iff :
    ch.round? now = none ↔ ∀ line ∈ linesOf ch.buffer.text, ¬ch.prompt.toList <+: line := by
  rw [round?, Option.map_eq_none_iff, take?_eq_none_iff]

/-- A round keeps the prompt and shortens the buffer by it. -/
theorem round?_shortens (h : ch.round? now = some (lines, next)) :
    next.prompt = ch.prompt ∧
      next.buffer.text.length + ch.prompt.length ≤ ch.buffer.text.length := by
  obtain ⟨⟨frame, buffer⟩, htake, heq⟩ := Option.map_eq_some_iff.1 h
  obtain ⟨rfl, rfl⟩ := Prod.mk.inj heq
  have hshort := FrameBuffer.length_take? htake
  rw [String.length_toList] at hshort
  refine ⟨prompt_emit .., ?_⟩
  rw [emit_withBuffer]
  exact hshort

/-! ## Rounds -/

/-- Frames are taken and dealt with one after another, until there is none left. -/
inductive Drains (now : Float) : Channel → List (List String) → Channel → Prop
  | done {ch : Channel} (empty : ch.round? now = none) : Drains now ch [] ch
  | take {ch next last : Channel} {lines : List String} {frames : List (List String)}
      (first : ch.round? now = some (lines, next)) (rest : Drains now next frames last) :
      Drains now ch (lines :: frames) last

namespace Drains

/-- Where the rounds end, no line starts with the prompt. -/
theorem round?_last (h : Drains now ch frames last) : last.round? now = none := by
  induction h with
  | done empty => exact empty
  | take _ _ ih => exact ih

theorem unique (h : Drains now ch frames last) (h' : Drains now ch frames' last') :
    frames = frames' ∧ last = last' := by
  induction h generalizing frames' with
  | done empty =>
    cases h' with
    | done => exact ⟨rfl, rfl⟩
    | take first' => cases empty.symm.trans first'
  | take first _ ih =>
    cases h' with
    | done empty' => cases empty'.symm.trans first
    | take first' rest' =>
      cases first.symm.trans first'
      obtain ⟨rfl, rfl⟩ := ih rest'
      exact ⟨rfl, rfl⟩

/-- The text holds a prompt for each frame that is taken from it. -/
theorem length_le (h : Drains now ch frames last) :
    frames.length * ch.prompt.length + last.buffer.text.length ≤ ch.buffer.text.length := by
  induction h with
  | done => simp
  | take first _ ih =>
    obtain ⟨hprompt, hshort⟩ := round?_shortens first
    rw [hprompt] at ih
    rw [List.length_cons, Nat.succ_mul]
    omega

end Drains

/-! ## The rounds of a chunk -/

/-- Enough rounds are all rounds there are: the induction is on the bound, which stays above the length of
the text. -/
theorem drains_takeUpTo (hprompt : ch.prompt ≠ "") {bound : Nat}
    (hbound : ch.buffer.text.length < bound) :
    Drains now ch ((takeUpTo ch.prompt.toList ch.buffer bound).1.map (List.map String.ofList))
      ((ch.emitAll ((takeUpTo ch.prompt.toList ch.buffer bound).1.map (List.map String.ofList)) now).withBuffer
        (takeUpTo ch.prompt.toList ch.buffer bound).2) := by
  induction bound generalizing ch with
  | zero => exact absurd hbound (Nat.not_lt_zero _)
  | succ bound ih =>
    rw [takeUpTo]
    cases htake : ch.buffer.take? ch.prompt.toList with
    | none => exact .done (by rw [round?, htake]; rfl)
    | some taken =>
      obtain ⟨frame, buffer⟩ := taken
      have hround : ch.round? now = some (frame.map String.ofList,
          (ch.emit (frame.map String.ofList) now).withBuffer buffer) := by
        rw [round?, htake, ← emit_withBuffer]
        rfl
      obtain ⟨hsame, hshort⟩ := round?_shortens hround
      have hpos : 0 < ch.prompt.length := by
        rw [Nat.pos_iff_ne_zero, ne_eq, String.length_eq_zero_iff]
        exact hprompt
      have hrest := @ih ((ch.emit (frame.map String.ofList) now).withBuffer buffer) (hsame ▸ hprompt)
        (by omega)
      rw [hsame, emitAll_withBuffer] at hrest
      exact .take hround hrest

/-- The rounds that the arrival of a chunk sets off are those of `feed`. -/
theorem drains_takeFrames (hprompt : ch.prompt ≠ "") (chunk : String) (now : Float) :
    Drains now (ch.withBuffer (ch.buffer.append chunk)) (ch.takeFrames chunk).1 (ch.feed chunk now) := by
  have hsame : (ch.withBuffer (ch.buffer.append chunk)).prompt ≠ "" := hprompt
  have hall : Drains now _ _ _ := drains_takeUpTo hsame (Nat.lt_succ_self _)
  rw [emitAll_withBuffer] at hall
  rw [feed_eq_emitAll]
  exact hall

/-- Output that arrives is taken apart in finitely many rounds, whose frames and whose end `feed` gives: each
shortens the buffer by the prompt at least, and in the end no line of the buffer starts with the prompt. -/
theorem feed_drains (hprompt : ch.prompt ≠ "") (chunk : String) (now : Float) :
    (∀ frames last, Drains now (ch.withBuffer (ch.buffer.append chunk)) frames last ↔
        frames = (ch.takeFrames chunk).1 ∧ last = ch.feed chunk now) ∧
      (∀ b frame next, FrameBuffer.take? b ch.prompt.toList = some (frame, next) →
        next.text.length + ch.prompt.length ≤ b.text.length) ∧
      (ch.takeFrames chunk).1.length * ch.prompt.length + (ch.feed chunk now).buffer.text.length ≤
        ch.buffer.text.length + chunk.length ∧
      ∀ line ∈ linesOf (ch.feed chunk now).buffer.text, ¬ch.prompt.toList <+: line := by
  have hall := drains_takeFrames hprompt chunk now
  refine ⟨fun frames last => ⟨fun h => h.unique hall, ?_⟩, ?_, ?_, ?_⟩
  · rintro ⟨rfl, rfl⟩
    exact hall
  · intro b frame next htake
    have hshort := FrameBuffer.length_take? htake
    rwa [String.length_toList] at hshort
  · have hlength := hall.length_le
    have hbuffer : (ch.withBuffer (ch.buffer.append chunk)).buffer.text.length =
        ch.buffer.text.length + chunk.length := by
      rw [withBuffer, FrameBuffer.text_append, List.length_append, String.length_toList]
    rw [hbuffer] at hlength
    exact hlength
  · have hend := round?_eq_none_iff.1 hall.round?_last
    rwa [prompt_feed] at hend

/-- A space for a prompt: what stands behind it opens the next frame, and may hold another one. -/
theorem feed_drains_spaces :
    let ch := (create " ").withBuffer ⟨"ready".toList⟩
    let chunk := "\r\n   x\n \n y"
    ch.prompt ≠ "" ∧
      Drains 0 (ch.withBuffer (ch.buffer.append chunk)) [["ready"], ["x"], []] (ch.feed chunk 0) ∧
      (ch.feed chunk 0).buffer.text = ['y'] ∧
      ∀ line ∈ linesOf (ch.feed chunk 0).buffer.text, ¬ch.prompt.toList <+: line := by
  intro ch chunk
  have hprompt : ch.prompt ≠ "" := by decide
  have hframes : [["ready"], ["x"], []] = (ch.takeFrames chunk).1 := by decide
  have hbuffer : (ch.feed chunk 0).buffer.text = ['y'] := by
    rw [buffer_feed]
    decide
  obtain ⟨hrounds, -, -, hend⟩ := feed_drains hprompt chunk 0
  exact ⟨hprompt, (hrounds _ _).2 ⟨hframes, rfl⟩, hbuffer, hend⟩

end DebugConsole.Channel
