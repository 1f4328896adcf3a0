import DebugConsole.Proofs.Framing.Independence
import Mathlib.Data.List.Infix

set_option autoImplicit false

/-!
# Frames that are printed and read again

A debugger prints the lines of a frame, each with its line end, and then its prompt and a space.
However the text of each frame is cut into chunks, a channel deals with exactly the frames that were
printed, in their order, and nothing stays buffered (`feedTimed_of_transmissions`).  Only a cut
between a prompt and its space is excepted: it is one of the delicate cuts.

A start of a printed frame has no line that starts with the prompt, unless it is the whole frame or
lacks nothing but the space (`not_starts_of_partial`); so all chunks but one complete nothing, and
that one completes the frame.
-/

namespace DebugConsole

/-- A line as a debugger prints it: it holds no line end and does not look like a prompt. -/
structure PrintedLine (prompt : String) where
  text : String
  /-- the line ends in a carriage return and a line feed, and not in a line feed alone -/
  hasReturn : Bool
  newline : '\n' ∉ text.toList
  carriage : text.toList.getLast? ≠ some '\r'
  unprompted : ¬prompt.toList <+: text.toList

namespace PrintedLine

variable {prompt : String}

/-- What ends a printed line. -/
def lineEnd (line : PrintedLine prompt) : String := if line.hasReturn then "\r\n" else "\n"

/-- A line with its line end. -/
def printed (line : PrintedLine prompt) : String := line.text ++ line.lineEnd

/-- A printed frame, up to the end of its prompt. -/
def printedAll (lines : List (PrintedLine prompt)) : String :=
  String.join (lines.map printed) ++ prompt

theorem toList_printed (line : PrintedLine prompt) :
    line.printed.toList =
      line.text.toList ++ List.replicate line.hasReturn.toNat '\r' ++ ['\n'] := by
  unfold printed lineEnd
  cases line.hasReturn <;> simp

theorem toList_printedAll_cons (line : PrintedLine prompt) (lines : List (PrintedLine prompt)) :
    (printedAll (line :: lines)).toList = line.printed.toList ++ (printedAll lines).toList := by
  simp [printedAll]

/-- A printed line is read as its text. -/
theorem linesOf_printed_append (line : PrintedLine prompt) (s : List Char) :
    FrameBuffer.linesOf (line.printed.toList ++ s) = line.text.toList :: FrameBuffer.linesOf s := by
  have hnewline : '\n' ∉ line.text.toList ++ List.replicate line.hasReturn.toNat '\r' := by
    rw [List.mem_append, List.mem_replicate]
    rintro (hmem | ⟨-, heq⟩)
    · exact line.newline hmem
    · cases heq
  have hdrop : FrameBuffer.dropReturn
      (line.text.toList ++ List.replicate line.hasReturn.toNat '\r') = line.text.toList := by
    cases line.hasReturn with
    | true => exact FrameBuffer.dropReturn_concat _
    | false => simp [FrameBuffer.dropReturn, line.carriage]
  rw [toList_printed, List.append_assoc, List.singleton_append,
    FrameBuffer.linesOf_append_newline s hnewline, hdrop]

end PrintedLine

/-- A frame as it is printed and as it is read: in chunks, each with the time of its arrival. -/
structure Transmission (prompt : String) where
  lines : List (PrintedLine prompt)
  chunks : List (String × Float)
  whole : String.join (chunks.map Prod.fst) = PrintedLine.printedAll lines ++ " "
  /-- no chunk ends between the prompt and its space -/
  uncut : ∀ front ∈ (chunks.map Prod.fst).inits, String.join front ≠ PrintedLine.printedAll lines

/-- The frame that is printed. -/
def Transmission.frame {prompt : String} (t : Transmission prompt) : List String :=
  t.lines.map PrintedLine.text

namespace FrameBuffer

open PrintedLine (printedAll)

variable {p : List Char} {prompt : String}

/-! ## Buffers without a complete frame -/

/-- Without a line that starts with the prompt nothing is taken. -/
theorem takeUpTo_of_quiet {b : FrameBuffer} (h : ∀ line ∈ linesOf b.text, ¬p <+: line)
    (bound : Nat) : takeUpTo p b bound = ([], b) := by
  cases bound with
  | zero => rfl
  | succ bound => simp [takeUpTo, take?, cutAtPrompt?_eq_none_iff.2 h]

/-- A frame is taken and no other follows it. -/
theorem takeAll_of_take? {b next : FrameBuffer} {frame : List (List Char)}
    (h : b.take? p = some (frame, next)) (hnext : ∀ line ∈ linesOf next.text, ¬p <+: line) :
    takeAll p b = ([frame], next) := by
  simp [takeAll, takeUpTo, h, takeUpTo_of_quiet hnext]

/-! ## Printed frames -/

/-- A start of a printed frame completes nothing, unless nothing more than the space behind the
prompt is left. -/
theorem not_starts_of_partial (hp : Plain prompt.toList) {lines : List (PrintedLine prompt)}
    {u w : List Char} (h : u ++ w = (printedAll lines).toList ++ [' ']) (hw : w ≠ [])
    (hspace : w ≠ [' ']) : ∀ line ∈ linesOf u, ¬prompt.toList <+: line := by
  induction lines generalizing u with
  | nil =>
    -- `u` is shorter than the prompt
    have hshort : u <+: prompt.toList ∧ u ≠ prompt.toList := by
      have hprompt : u ++ w = prompt.toList ++ [' '] := by simpa [printedAll] using h
      rcases List.append_eq_append_iff.1 hprompt with ⟨rest, heq, hrest⟩ | ⟨rest, -, hrest⟩
      · refine ⟨⟨rest, heq.symm⟩, ?_⟩
        rintro rfl
        exact hspace (by simpa [List.self_eq_append_right.1 heq] using hrest)
      · rcases List.singleton_eq_append_iff.1 hrest with ⟨-, heq⟩ | ⟨-, heq⟩
        · exact absurd heq hspace
        · exact absurd heq hw
    rw [linesOf_of_notMem fun hmem => hp.newline (hshort.1.subset hmem),
      List.forall_mem_singleton]
    intro hstarts
    exact hshort.2 (hshort.1.eq_of_length_le hstarts.length_le)
  | cons line lines ih =>
    rw [PrintedLine.toList_printedAll_cons, List.append_assoc] at h
    rcases List.append_eq_append_iff.1 h with ⟨rest, heq, -⟩ | ⟨rest, rfl, hrest⟩
    · rcases List.eq_nil_or_concat rest with rfl | ⟨rest, c, rfl⟩
      · -- the cut is behind the line end
        rw [List.append_nil] at heq
        rw [← heq, ← List.append_nil line.printed.toList, line.linesOf_printed_append,
          linesOf_nil]
        exact List.forall_mem_cons.2
          ⟨line.unprompted, List.forall_mem_singleton.2 hp.not_starts_nil⟩
      · -- the cut is before or inside the line end, so `u` is on one line
        rw [PrintedLine.toList_printed, List.concat_eq_append, ← List.append_assoc] at heq
        have hstart : u <+: line.text.toList ++ List.replicate line.hasReturn.toNat '\r' :=
          ⟨rest, (List.append_inj_left' heq rfl).symm⟩
        have hnewline : '\n' ∉ u := by
          intro hmem
          have hmem := hstart.subset hmem
          simp [line.newline] at hmem
        rw [linesOf_of_notMem hnewline, List.forall_mem_singleton]
        exact fun hstarts =>
          line.unprompted ((hp.starts_append_iff _ _).1 (hstarts.trans hstart))
    · rw [line.linesOf_printed_append, List.forall_mem_cons]
      exact ⟨line.unprompted, ih hrest.symm⟩

/-- A printed frame is read as its lines and the prompt. -/
theorem linesOf_printedAll (hp : Plain prompt.toList) (lines : List (PrintedLine prompt)) :
    linesOf ((printedAll lines).toList ++ [' ']) =
      lines.map (fun line => line.text.toList) ++ [prompt.toList ++ [' ']] := by
  induction lines with
  | nil =>
    have hnewline : '\n' ∉ prompt.toList ++ [' '] := by simp [hp.newline]
    simpa [printedAll] using linesOf_of_notMem hnewline
  | cons line lines ih =>
    rw [PrintedLine.toList_printedAll_cons, List.append_assoc, line.linesOf_printed_append, ih]
    rfl

/-- A printed frame is taken, and nothing stays buffered. -/
theorem takeAll_printedAll (hp : Plain prompt.toList) (lines : List (PrintedLine prompt)) :
    takeAll prompt.toList ⟨(printedAll lines).toList ++ [' ']⟩ =
      ([lines.map fun line => line.text.toList], .empty) := by
  refine takeAll_of_take? ?_ ?_
  · have hcut : cutAtPrompt? prompt.toList (linesOf ((printedAll lines).toList ++ [' '])) =
        some (lines.map fun line => line.text.toList, [' '], []) := by
      refine cutAtPrompt?_eq_some_iff.2 ⟨linesOf_printedAll hp lines, fun line hline => ?_⟩
      obtain ⟨l, -, rfl⟩ := List.mem_map.1 hline
      exact l.unprompted
    rw [take?, hcut]
    rfl
  · exact List.forall_mem_singleton.2 hp.not_starts_nil

end FrameBuffer

namespace Channel

open FrameBuffer (Plain)
open PrintedLine (printedAll)

variable {prompt : String} {ch : Channel}

/-! ## Chunks of a channel's output -/

/-- Output arrives in chunks, each at its time. -/
def feedTimed (ch : Channel) (chunks : List (String × Float)) : Channel :=
  chunks.foldl (fun ch chunk => ch.feed chunk.1 chunk.2) ch

theorem feedTimed_append (ch : Channel) (chunks chunks' : List (String × Float)) :
    ch.feedTimed (chunks ++ chunks') = (ch.feedTimed chunks).feedTimed chunks' :=
  List.foldl_append

/-- Deals with frames, each at its time. -/
def emitTimed (ch : Channel) (frames : List (List String × Float)) : Channel :=
  frames.foldl (fun ch frame => ch.emit frame.1 frame.2) ch

@[simp] theorem buffer_emit (ch : Channel) (lines : List String) (now : Float) :
    (ch.emit lines now).buffer = ch.buffer := by
  change ((ch.withBuffer ch.buffer).emit lines now).buffer = ch.buffer
  rw [emit_withBuffer]
  rfl

@[simp] theorem buffer_emitTimed (ch : Channel) (frames : List (List String × Float)) :
    (ch.emitTimed frames).buffer = ch.buffer := by
  induction frames generalizing ch with
  | nil => rfl
  | cons frame frames ih => exact (ih (ch.emit frame.1 frame.2)).trans (buffer_emit _ _ _)

/-- A chunk that completes nothing is kept. -/
theorem feed_of_quiet {chunk : String}
    (h : ∀ line ∈ FrameBuffer.linesOf (ch.buffer.append chunk).text,
      ¬ch.prompt.toList <+: line) (now : Float) :
    ch.feed chunk now = ch.withBuffer (ch.buffer.append chunk) := by
  have htake : ch.buffer.feed ch.prompt.toList chunk = ([], ch.buffer.append chunk) :=
    FrameBuffer.takeUpTo_of_quiet h _
  simp [feed, takeFrames, htake, withBuffer]

/-- A chunk that completes one frame and nothing else. -/
theorem feed_of_complete {chunk : String} {frame : List (List Char)}
    (h : ch.buffer.feed ch.prompt.toList chunk = ([frame], .empty)) (now : Float) :
    ch.feed chunk now = (ch.withBuffer .empty).emit (frame.map String.ofList) now := by
  simp [feed, takeFrames, h, withBuffer]

/-- Chunks without text change nothing. -/
theorem feedTimed_of_join_eq_empty (hp : Plain ch.prompt.toList) (hempty : ch.buffer = .empty)
    {chunks : List (String × Float)} (h : String.join (chunks.map Prod.fst) = "") :
    ch.feedTimed chunks = ch := by
  induction chunks with
  | nil => rfl
  | cons chunk chunks ih =>
    rw [List.map_cons, String.join_cons, String.append_eq_empty_iff] at h
    have hquiet : ∀ line ∈ FrameBuffer.linesOf (ch.buffer.append chunk.1).text,
        ¬ch.prompt.toList <+: line := by
      rw [h.1, hempty]
      exact List.forall_mem_singleton.2 hp.not_starts_nil
    have hsame : ch.feed chunk.1 chunk.2 = ch := by
      rw [feed_of_quiet hquiet, h.1, hempty]
      exact congrArg (withBuffer ch) hempty.symm
    rw [feedTimed, List.foldl_cons, hsame]
    exact ih h.2

/-- The rest of a printed frame arrives, of which a part is buffered: the frame is dealt with when
one of the chunks arrives, and nothing stays buffered. -/
theorem feedTimed_of_rest (hp : Plain prompt.toList) {lines : List (PrintedLine prompt)}
    {chunks : List (String × Float)} {u : String} (hprompt : ch.prompt = prompt)
    (hbuffer : ch.buffer = ⟨u.toList⟩)
    (hwhole : u ++ String.join (chunks.map Prod.fst) = printedAll lines ++ " ")
    (hmore : u ≠ printedAll lines ++ " ")
    (huncut : ∀ front ∈ (chunks.map Prod.fst).inits, u ++ String.join front ≠ printedAll lines) :
    ∃ now ∈ chunks.map Prod.snd,
      ch.feedTimed chunks = (ch.withBuffer .empty).emit (lines.map PrintedLine.text) now := by
  induction chunks generalizing ch u with
  | nil => exact absurd (by simpa using hwhole) hmore
  | cons chunk chunks ih =>
    obtain ⟨text, now⟩ := chunk
    rw [List.map_cons, String.join_cons, ← String.append_assoc] at hwhole
    have happend : ch.buffer.append text = ⟨(u ++ text).toList⟩ := by
      rw [hbuffer, FrameBuffer.append, String.toList_append]
    by_cases hdone : u ++ text = printedAll lines ++ " "
    · -- this chunk completes the frame, and those behind it have no text
      refine ⟨now, List.mem_cons_self, ?_⟩
      have hrest : String.join (chunks.map Prod.fst) = "" := by
        rw [hdone] at hwhole
        have htext := congrArg String.toList hwhole
        rw [String.toList_append, List.append_right_eq_self] at htext
        exact String.toList_inj.1 htext
      have htake : ch.buffer.feed ch.prompt.toList text =
          ([lines.map fun line => line.text.toList], .empty) := by
        rw [FrameBuffer.feed, happend, hdone, hprompt, String.toList_append]
        exact FrameBuffer.takeAll_printedAll hp lines
      have hfeed := feed_of_complete htake now
      have hframe : (lines.map fun line => line.text.toList).map String.ofList =
          lines.map PrintedLine.text := by
        simp
      rw [hframe] at hfeed
      rw [feedTimed, List.foldl_cons, hfeed]
      refine feedTimed_of_join_eq_empty ?_ (buffer_emit _ _ _) hrest
      rw [prompt_emit]
      exact hprompt ▸ hp
    · -- this chunk completes nothing
      have hquiet : ∀ line ∈ FrameBuffer.linesOf (ch.buffer.append text).text,
          ¬ch.prompt.toList <+: line := by
        rw [happend, hprompt]
        have htext : (u ++ text).toList ++ (String.join (chunks.map Prod.fst)).toList =
            (printedAll lines).toList ++ [' '] := by
          rw [← String.toList_append, hwhole, String.toList_append]
          rfl
        refine FrameBuffer.not_starts_of_partial hp htext ?_ ?_
        · intro hnil
          rw [hnil, List.append_nil] at htext
          exact hdone (String.toList_inj.1 (by simpa using htext))
        · intro hspace
          rw [hspace] at htext
          refine huncut [text] ?_ ?_
          · exact (List.mem_inits _ _).2 ⟨chunks.map Prod.fst, rfl⟩
          · exact String.toList_inj.1 (by simpa using List.append_cancel_right htext)
      have hfeed := feed_of_quiet hquiet now
      have hprompt' : (ch.withBuffer (ch.buffer.append text)).prompt = prompt := hprompt
      obtain ⟨time, htime, hrest⟩ :=
        ih (u := u ++ text) hprompt' happend hwhole hdone fun front hfront => by
          have hfront' : text :: front ∈ (((text, now) :: chunks).map Prod.fst).inits := by
            rw [List.mem_inits] at hfront ⊢
            exact List.cons_prefix_cons.2 ⟨rfl, hfront⟩
          have hne := huncut _ hfront'
          rwa [String.join_cons, ← String.append_assoc] at hne
      refine ⟨time, List.mem_cons_of_mem _ htime, ?_⟩
      rw [feedTimed, List.foldl_cons, hfeed]
      exact hrest

/-! ## One transmission after another -/

/-- A frame that arrives is dealt with when one of its chunks arrives. -/
theorem feedTimed_transmission (hp : Plain prompt.toList) (hprompt : ch.prompt = prompt)
    (hempty : ch.buffer = .empty) (t : Transmission prompt) :
    ∃ now ∈ t.chunks.map Prod.snd, ch.feedTimed t.chunks = ch.emit t.frame now := by
  have hmore : "" ≠ printedAll t.lines ++ " " := by
    intro heq
    have htext := congrArg String.toList heq
    simp at htext
  obtain ⟨now, hnow, hfeed⟩ := feedTimed_of_rest (u := "") hp hprompt hempty
    (by simpa using t.whole) hmore (by simpa using t.uncut)
  refine ⟨now, hnow, ?_⟩
  rw [hfeed, ← hempty]
  rfl

/-- Frames that answer nothing wait to be taken, in their order. -/
theorem emitTimed_of_pending_nil (h : ch.pending = []) (frames : List (List String × Float)) :
    ch.emitTimed frames =
      { ch with
        unsolicited :=
          ch.unsolicited ++
            (frames.map Prod.fst).map fun lines => ⟨lines, Frame.unsolicited, none⟩ } := by
  induction frames generalizing ch with
  | nil => simp [emitTimed]
  | cons frame frames ih =>
    rw [emitTimed, List.foldl_cons, emit_of_pending_nil _ _ h]
    refine (ih ?_).trans ?_
    · exact h
    · simp

/-- Frames that arrive are dealt with one after another. -/
theorem exists_feedTimed_eq_emitTimed (hp : Plain prompt.toList) (hprompt : ch.prompt = prompt)
    (hempty : ch.buffer = .empty) (sent : List (Transmission prompt)) :
    ∃ frames : List (List String × Float),
      List.Forall₂ (fun t f => f.1 = t.frame ∧ f.2 ∈ t.chunks.map Prod.snd) sent frames ∧
      ch.feedTimed (sent.flatMap Transmission.chunks) = ch.emitTimed frames := by
  induction sent generalizing ch with
  | nil => exact ⟨[], .nil, rfl⟩
  | cons t sent ih =>
    obtain ⟨now, hnow, hfeed⟩ := feedTimed_transmission hp hprompt hempty t
    have hprompt' : (ch.emit t.frame now).prompt = prompt := (prompt_emit _ _ _).trans hprompt
    obtain ⟨frames, hframes, hrest⟩ := ih hprompt' ((buffer_emit _ _ _).trans hempty)
    refine ⟨(t.frame, now) :: frames, .cons ⟨rfl, hnow⟩ hframes, ?_⟩
    rw [List.flatMap_cons, feedTimed_append, hfeed]
    exact hrest

/-- Frames that are printed and read in chunks are exactly the frames that a channel deals with, in
their order, each when one of its chunks arrives; and nothing stays buffered.  With nothing pending,
as in a new channel, that is all that happens. -/
theorem feedTimed_of_transmissions (hp : Plain prompt.toList) (hprompt : ch.prompt = prompt)
    (hempty : ch.buffer = .empty) (sent : List (Transmission prompt)) :
    (∃ frames : List (List String × Float),
      List.Forall₂ (fun t f => f.1 = t.frame ∧ f.2 ∈ t.chunks.map Prod.snd) sent frames ∧
      ch.feedTimed (sent.flatMap Transmission.chunks) = ch.emitTimed frames) ∧
      (ch.feedTimed (sent.flatMap Transmission.chunks)).buffer = .empty ∧
      (ch.pending = [] → ch.feedTimed (sent.flatMap Transmission.chunks) =
        { ch with
          unsolicited := ch.unsolicited ++
            (sent.map Transmission.frame).map fun lines => ⟨lines, Frame.unsolicited, none⟩ }) := by
  obtain ⟨frames, hframes, hfeed⟩ := exists_feedTimed_eq_emitTimed hp hprompt hempty sent
  refine ⟨⟨frames, hframes, hfeed⟩, ?_, fun hpending => ?_⟩
  · rw [hfeed, buffer_emitTimed]
    exact hempty
  · have hlines : frames.map Prod.fst = sent.map Transmission.frame := by
      clear hfeed
      induction hframes with
      | nil => rfl
      | cons h _ ih => rw [List.map_cons, List.map_cons, h.1, ih]
    rw [hfeed, emitTimed_of_pending_nil hpending, hlines]

/-- Two frames cut inside a line end and inside the prompt; the second starts with a blank line and
a line that looks almost like a prompt. -/
theorem feedTimed_of_transmissions_cut :
    ∃ sent : List (Transmission "(gdb)"),
      Plain "(gdb)".toList ∧ (create "(gdb)").buffer = .empty ∧ (create "(gdb)").pending = [] ∧
      sent.flatMap Transmission.chunks =
        [("ready\r", 0.0), ("\n(g", 0.5), ("db) ", 1.0), ("\n (gdb)\n(gdb", 2.0), (") ", 3.0)] ∧
      (create "(gdb)").feedTimed (sent.flatMap Transmission.chunks) =
        { create "(gdb)" with
          unsolicited := [⟨["ready"], Frame.unsolicited, none⟩,
            ⟨["", " (gdb)"], Frame.unsolicited, none⟩] } := by
  let ready : Transmission "(gdb)" := {
    lines := [⟨"ready", true, by decide, by decide, by decide⟩]
    chunks := [("ready\r", 0.0), ("\n(g", 0.5), ("db) ", 1.0)]
    whole := by decide
    uncut := by decide }
  let indented : Transmission "(gdb)" := {
    lines := [⟨"", false, by decide, by decide, by decide⟩,
      ⟨" (gdb)", false, by decide, by decide, by decide⟩]
    chunks := [("\n (gdb)\n(gdb", 2.0), (") ", 3.0)]
    whole := by decide
    uncut := by decide }
  have hprompt : Plain "(gdb)".toList := ⟨by decide, by decide, by decide⟩
  exact ⟨[ready, indented], hprompt, rfl, rfl, rfl,
    (feedTimed_of_transmissions hprompt rfl rfl [ready, indented]).2.2 rfl⟩

end Channel

end DebugConsole
