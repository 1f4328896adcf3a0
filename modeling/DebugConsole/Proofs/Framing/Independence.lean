import DebugConsole.Proofs.Channel.Operations
import DebugConsole.Proofs.Framing.Chunks

set_option autoImplicit false

/-!
# Cutting the output of a channel

A frame is dealt with as it comes, and nothing else in the channel looks at the buffer (`emit_withBuffer`).
So what a channel does with its output is said by the frames that its buffer gives away
(`framesOf_eq_feedAll`).

These depend on where the output is cut into chunks, but only if a frame follows a delicate cut
(`cutFreely_iff`): one behind a prompt whose spaces or line end come with a later chunk, or, once a frame is
complete, one before a line feed that follows a stray carriage return.
-/

namespace DebugConsole.Channel

open FrameBuffer (Plain Delicate feedAll)

/-! ## Frames and the buffer -/

/-- A channel with another buffer. -/
def withBuffer (ch : Channel) (b : FrameBuffer) : Channel := { ch with buffer := b }

theorem flushNext_withBuffer (ch : Channel) (b : FrameBuffer) :
    (ch.withBuffer b).flushNext = ch.flushNext.withBuffer b := by
  unfold flushNext withBuffer
  dsimp only
  cases ch.backlog with
  | nil => rfl
  | cons c rest => cases ch.isClosed <;> rfl

theorem retire_withBuffer (ch : Channel) (b : FrameBuffer) (id : CommandId) (o : Outcome) :
    (ch.withBuffer b).retire id o = (ch.retire id o).withBuffer b := by
  have hflight : ∀ c : Channel,
      (if c.inFlight == some id then (c.withBuffer b).flushNext else c.withBuffer b) =
        (if c.inFlight == some id then c.flushNext else c).withBuffer b := by
    intro c
    rw [flushNext_withBuffer]
    exact (apply_ite (fun c : Channel => c.withBuffer b) _ _ _).symm
  exact hflight { ch.forget id with outcomes := ch.outcomesAfter id o }

/-- Dealing with a frame neither looks at the buffer nor changes it. -/
theorem emit_withBuffer (ch : Channel) (b : FrameBuffer) (lines : List String) (now : Float) :
    (ch.withBuffer b).emit lines now = (ch.emit lines now).withBuffer b := by
  cases hp : ch.pending with
  | nil =>
    rw [emit_of_pending_nil lines now hp]
    exact emit_of_pending_nil lines now hp
  | cons id rest =>
    have hp' : (ch.withBuffer b).pending = id :: rest := hp
    rw [emit_of_pending_cons lines now hp, emit_of_pending_cons lines now hp',
      ← retire_withBuffer]
    rfl

@[simp] theorem prompt_flushNext (ch : Channel) : ch.flushNext.prompt = ch.prompt := by
  unfold flushNext
  dsimp only
  cases ch.backlog with
  | nil => rfl
  | cons c rest => cases ch.isClosed <;> rfl

@[simp] theorem prompt_emit (ch : Channel) (lines : List String) (now : Float) :
    (ch.emit lines now).prompt = ch.prompt := by
  cases hp : ch.pending with
  | nil => rw [emit_of_pending_nil lines now hp]
  | cons id rest =>
    rw [emit_of_pending_cons lines now hp, retire]
    split
    · exact prompt_flushNext _
    · rfl

/-- Deals with frames one after another. -/
def emitAll (ch : Channel) (frames : List (List String)) (now : Float) : Channel :=
  frames.foldl (fun ch lines => ch.emit lines now) ch

@[simp] theorem prompt_emitAll (ch : Channel) (frames : List (List String)) (now : Float) :
    (ch.emitAll frames now).prompt = ch.prompt := by
  induction frames generalizing ch with
  | nil => rfl
  | cons lines frames ih => exact (ih (ch.emit lines now)).trans (prompt_emit ch lines now)

theorem emitAll_withBuffer (ch : Channel) (b : FrameBuffer) (frames : List (List String))
    (now : Float) : (ch.withBuffer b).emitAll frames now = (ch.emitAll frames now).withBuffer b := by
  induction frames generalizing ch with
  | nil => rfl
  | cons lines frames ih =>
    rw [emitAll, List.foldl_cons, emit_withBuffer]
    exact ih (ch.emit lines now)

/-! ## Output in chunks -/

/-- Output arrives: its frames are dealt with, and the rest is kept. -/
theorem feed_eq_emitAll (ch : Channel) (chunk : String) (now : Float) :
    ch.feed chunk now =
      (ch.emitAll (ch.takeFrames chunk).1 now).withBuffer
        (ch.buffer.feed ch.prompt.toList chunk).2 :=
  emitAll_withBuffer ch _ (ch.takeFrames chunk).1 now

@[simp] theorem buffer_feed (ch : Channel) (chunk : String) (now : Float) :
    (ch.feed chunk now).buffer = (ch.buffer.feed ch.prompt.toList chunk).2 := by
  rw [feed_eq_emitAll]
  rfl

@[simp] theorem prompt_feed (ch : Channel) (chunk : String) (now : Float) :
    (ch.feed chunk now).prompt = ch.prompt := by
  rw [feed_eq_emitAll]
  exact prompt_emitAll ch (ch.takeFrames chunk).1 now

/-- The frames that a channel deals with while chunks are fed to it one after another. -/
def framesOf (ch : Channel) (now : Float) : List String → List (List String)
  | [] => []
  | chunk :: chunks => (ch.takeFrames chunk).1 ++ (ch.feed chunk now).framesOf now chunks

/-- The frames are those that the buffer gives away. -/
theorem framesOf_eq_feedAll (ch : Channel) (now : Float) (chunks : List String) :
    ch.framesOf now chunks =
      (feedAll ch.prompt.toList ch.buffer chunks).map (List.map String.ofList) := by
  induction chunks generalizing ch with
  | nil => rfl
  | cons chunk chunks ih =>
    rw [framesOf, ih, buffer_feed, prompt_feed, feedAll, List.map_append]
    rfl

/-- The same frames come from a text however it is cut into chunks. -/
def CutFreely (ch : Channel) (now : Float) (s : String) : Prop :=
  ∀ chunks chunks' : List String, String.join chunks = s → String.join chunks' = s →
    ch.framesOf now chunks = ch.framesOf now chunks'

theorem framesOf_inj {ch : Channel} {now : Float} {chunks chunks' : List String} :
    ch.framesOf now chunks = ch.framesOf now chunks' ↔
      feedAll ch.prompt.toList ch.buffer chunks = feedAll ch.prompt.toList ch.buffer chunks' := by
  have hinj : Function.Injective (List.map (List.map String.ofList)) :=
    List.map_injective_iff.2 (List.map_injective_iff.2 fun _ _ => String.ofList_injective)
  rw [framesOf_eq_feedAll, framesOf_eq_feedAll]
  exact hinj.eq_iff

/-- A text completes a frame exactly when one of its lines starts with the prompt. -/
theorem framesOf_ne_nil_iff {ch : Channel} (hprompt : Plain ch.prompt.toList)
    (hempty : ch.buffer = .empty) (now : Float) (s : String) :
    ch.framesOf now [s] ≠ [] ↔
      ∃ line ∈ FrameBuffer.linesOf s.toList, ch.prompt.toList <+: line := by
  rw [framesOf_eq_feedAll, hempty, FrameBuffer.feedAll_singleton, Ne, List.map_eq_nil_iff]
  exact FrameBuffer.takeAll_ne_nil_iff hprompt.ne_nil

/-- A text may be cut freely exactly when no frame follows a delicate cut of it: behind a prompt
whose spaces or line end come later, or, once a frame is complete, before a line feed with a stray
carriage return before its line end.  A frame is complete once a line starts with the prompt. -/
theorem cutFreely_iff {ch : Channel} (hprompt : Plain ch.prompt.toList)
    (hempty : ch.buffer = .empty) (now : Float) (s : String) :
    (ch.CutFreely now s ↔
      ∀ u w : String, u ++ w = s → Delicate ch.prompt.toList u.toList w.toList →
        ch.framesOf now [u, w] = ch.framesOf now [u] ∧
          ch.framesOf now [u ++ w] = ch.framesOf now [u]) ∧
      (ch.framesOf now [s] ≠ [] ↔
        ∃ line ∈ FrameBuffer.linesOf s.toList, ch.prompt.toList <+: line) := by
  refine ⟨?_, framesOf_ne_nil_iff hprompt hempty now s⟩
  have h := FrameBuffer.cutFreely_iff_settled hprompt s
  unfold FrameBuffer.CutFreely FrameBuffer.Settled at h
  unfold CutFreely
  simp only [framesOf_inj, hempty]
  exact h

/-- The console's own prompt is plain, and a new channel has nothing buffered. -/
theorem cutFreely_iff_banner :
    Plain (create "(gdb)").prompt.toList ∧ (create "(gdb)").buffer = .empty ∧
      ((create "(gdb)").CutFreely 0 "ready\n(gdb) " ↔
        ∀ u w : String, u ++ w = "ready\n(gdb) " →
          Delicate (create "(gdb)").prompt.toList u.toList w.toList →
            (create "(gdb)").framesOf 0 [u, w] = (create "(gdb)").framesOf 0 [u] ∧
              (create "(gdb)").framesOf 0 [u ++ w] = (create "(gdb)").framesOf 0 [u]) ∧
      (create "(gdb)").framesOf 0 ["ready\n(gdb) "] ≠ [] := by
  have hprompt : Plain (create "(gdb)").prompt.toList := ⟨by decide, by decide, by decide⟩
  obtain ⟨hfreely, hframes⟩ := cutFreely_iff hprompt rfl 0 "ready\n(gdb) "
  exact ⟨hprompt, rfl, hfreely, hframes.2 (by decide)⟩

/-- The space behind a prompt comes with the next chunk: it opens the next frame. -/
theorem late_space_opens_frame :
    (create "(gdb)").framesOf 0 ["(gdb)", " a\n(gdb) "] = [[], [" a"]] ∧
      (create "(gdb)").framesOf 0 ["(gdb) a\n(gdb) "] = [[], ["a"]] ∧
        ¬(create "(gdb)").CutFreely 0 "(gdb) a\n(gdb) " := by
  have hcut : (create "(gdb)").framesOf 0 ["(gdb)", " a\n(gdb) "] = [[], [" a"]] := by
    rw [framesOf_eq_feedAll]
    decide
  have hwhole : (create "(gdb)").framesOf 0 ["(gdb) a\n(gdb) "] = [[], ["a"]] := by
    rw [framesOf_eq_feedAll]
    decide
  refine ⟨hcut, hwhole, ?_⟩
  intro h
  have heq := h ["(gdb)", " a\n(gdb) "] ["(gdb) a\n(gdb) "] (by decide) (by decide)
  rw [hcut, hwhole] at heq
  revert heq
  decide

end DebugConsole.Channel
