import DebugConsole.Process.Handle
import DebugConsole.Proofs.Process.Decoding
import Mathlib.Data.List.TakeDrop

set_option autoImplicit false

/-!
# Two streams, one output

The readers of a process leave what they decode in one queue, and its consumer takes the chunks out one by
one.  Whatever the order in which the two streams are read and the consumer asks, the chunks that stem from
a stream are its text, and the output ends when both streams have ended and every chunk is taken
(`output_lossless`).

`Merge` keeps beside the handle which chunk stems from which stream, which the queue itself does not say;
`Merges` ties it to what has been read, and every event keeps that.
-/

namespace DebugConsole

/-! ## The consumer -/

/-- What the consumer of an output meets when it asks for a chunk. -/
inductive Asked where
  | chunk (text : String)
  /-- nothing is there yet -/
  | waits
  | ends
  deriving DecidableEq, Repr

/-- The consumer passes over the marks of readers that ended, to the first chunk. -/
def nextFrom : List Mark → Nat → Asked × List Mark × Nat
  | queue, 0 => (.ends, queue, 0)
  | [], n + 1 => (.waits, [], n + 1)
  | .closed :: rest, n + 1 => nextFrom rest n
  | .chunk text :: rest, n + 1 => (.chunk text, rest, n + 1)

/-- The chunks of a queue. -/
def chunksOf (queue : List Mark) : List String :=
  queue.filterMap fun
    | .chunk text => some text
    | .closed => none

/-- The readers that ended, by their marks in a queue. -/
def closings (queue : List Mark) : Nat := queue.count .closed

@[simp] theorem chunksOf_nil : chunksOf [] = [] := rfl

@[simp] theorem chunksOf_closed (queue : List Mark) : chunksOf (.closed :: queue) = chunksOf queue :=
  rfl

@[simp] theorem chunksOf_chunk (text : String) (queue : List Mark) :
    chunksOf (.chunk text :: queue) = text :: chunksOf queue :=
  rfl

@[simp] theorem chunksOf_append (a b : List Mark) : chunksOf (a ++ b) = chunksOf a ++ chunksOf b :=
  List.filterMap_append

@[simp] theorem closings_nil : closings [] = 0 := rfl

@[simp] theorem closings_append (a b : List Mark) : closings (a ++ b) = closings a + closings b :=
  List.count_append

@[simp] theorem closings_closed (queue : List Mark) :
    closings (.closed :: queue) = closings queue + 1 := by
  simp [closings]

@[simp] theorem closings_chunk (text : String) (queue : List Mark) :
    closings (.chunk text :: queue) = closings queue := by
  simp [closings]

/-- Does nothing follow the last mark of a reader that ended? -/
def IsShut (queue : List Mark) : Prop := queue.getLastD .closed = .closed

theorem isShut_closed {queue : List Mark} : IsShut (.closed :: queue) ↔ IsShut queue := by
  simp only [IsShut, List.getLastD_cons]

theorem isShut_concat (queue : List Mark) : IsShut (queue ++ [.closed]) := by
  simp [IsShut]

theorem exists_of_isShut_chunk {text : String} {queue : List Mark}
    (h : IsShut (.chunk text :: queue)) : IsShut queue ∧ 0 < closings queue := by
  cases queue with
  | nil => simp [IsShut] at h
  | cons first queue =>
    rw [IsShut, List.getLastD_cons, List.getLastD_cons] at h
    refine ⟨by rw [IsShut, List.getLastD_cons, h], ?_⟩
    have hmem : Mark.closed ∈ first :: queue := by
      rw [← h]
      exact List.getLastD_mem_cons
    exact List.count_pos_iff.2 hmem

/-- The consumer finds the first chunk behind the marks: either a reader is still counted, or what
the last reader left ends with its mark. -/
theorem nextFrom_of_chunksOf_cons {text : String} {texts : List String} {k : Nat} {queue : List Mark}
    (h : chunksOf queue = text :: texts) (hshut : k = 0 → IsShut queue) :
    ∃ rest, nextFrom queue (closings queue + k) = (.chunk text, rest, closings rest + k) ∧
      chunksOf rest = texts ∧ (k = 0 → IsShut rest) := by
  induction queue with
  | nil => cases h
  | cons first queue ih =>
    cases first with
    | closed =>
      obtain ⟨rest, hnext, hrest⟩ := ih h
        fun hk => isShut_closed.1 (hshut hk)
      refine ⟨rest, ?_, hrest⟩
      rw [closings_closed, Nat.add_right_comm, nextFrom, hnext]
    | chunk first =>
      obtain ⟨rfl, htexts⟩ := List.cons.inj h
      -- Without a reader that goes on, the mark of the last one is still behind this chunk.
      have behind (hk : k = 0) := exists_of_isShut_chunk (hshut hk)
      refine ⟨queue, ?_, htexts, fun hk => (behind hk).1⟩
      obtain ⟨n, hn⟩ : ∃ n, closings queue + k = n + 1 :=
        Nat.exists_eq_succ_of_ne_zero fun hzero => by
          have hk : k = 0 := by omega
          have := (behind hk).2
          omega
      rw [closings_chunk, hn, nextFrom]

/-- Where there is no chunk the consumer waits for the readers that are left. -/
theorem nextFrom_of_chunksOf_nil {k : Nat} {queue : List Mark} (h : chunksOf queue = []) :
    nextFrom queue (closings queue + k) = (if k = 0 then .ends else .waits, [], k) := by
  induction queue with
  | nil => cases k <;> simp [nextFrom]
  | cons first queue ih =>
    cases first with
    | closed => rw [closings_closed, Nat.add_right_comm, nextFrom, ih h]
    | chunk first => cases h

namespace ProcessHandle

/-- The consumer asks for the next chunk. -/
def next (h : ProcessHandle) : Asked × ProcessHandle :=
  let (asked, queue, unclosed) := nextFrom h.queue h.unclosed
  (asked, { h with queue, unclosed })

/-- Data is read from a stream, none at its end. -/
def read (h : ProcessHandle) (source : Source) (data : List UInt8) : ProcessHandle :=
  if data.isEmpty then h.receiveEnd source else h.receive source data

end ProcessHandle

/-! ## What is read of a stream -/

/-- What happens to the output of a process. -/
inductive OutputEvent where
  | reads (source : Source) (data : List UInt8)
  | exits (code : Int)
  /-- the consumer asks for the next chunk -/
  | asks

/-- What has been read of a stream. -/
structure Stream where
  bytes : List UInt8
  /-- its end was read -/
  ended : Bool

namespace Stream

/-- The stream after an event: nothing is read behind its end. -/
def after (source : Source) (t : Stream) : OutputEvent → Stream
  | .reads source' data =>
    if source' = source ∧ t.ended = false then
      if data.isEmpty then { t with ended := true } else { t with bytes := t.bytes ++ data }
    else t
  | _ => t

/-- What has been read of a stream in all. -/
def of (source : Source) (events : List OutputEvent) : Stream :=
  events.foldl (after source) ⟨[], false⟩

/-- The text of a stream. -/
def text (t : Stream) : List Char := Utf8.text (t.bytes.map (·.toNat))

/-- The state of the stream's decoder. -/
def decoder (t : Stream) : Decoder :=
  if t.ended then .ground else (Decoder.run .utf8 .ground t.bytes).2

/-- What the stream's reader has decoded. -/
def decoded (t : Stream) : List Char :=
  if t.ended then Encoding.utf8.decode t.bytes else (Decoder.run .utf8 .ground t.bytes).1

/-- The reader of the stream. -/
def reader (t : Stream) (source : Source) : Reader :=
  ⟨source, t.decoder, if t.ended then .finished else .running⟩

/-- What the stream's reader leaves of what it reads next. -/
def leaves (t : Stream) (data : List UInt8) : List Mark :=
  if t.ended then []
  else if data.isEmpty then ProcessHandle.chunkOf t.decoder.finish ++ [.closed]
  else ProcessHandle.chunkOf (t.decoder.run .utf8 data).1

theorem decoded_finish (t : Stream) : t.decoded ++ t.decoder.finish = t.text := by
  rw [text, ← Encoding.decode_utf8, decoded, decoder]
  cases t.ended <;> simp [Encoding.decode, Decoder.finish]

/-- An event of another stream, or of none, leaves a stream as it is. -/
theorem after_of_ne {source other : Source} (h : other ≠ source) (t : Stream) (data : List UInt8) :
    t.after source (.reads other data) = t := by
  simp [after, h]

theorem after_of_ended {t : Stream} (h : t.ended = true) (source : Source) (e : OutputEvent) :
    t.after source e = t := by
  cases e <;> simp [after, h]

end Stream

/-! ## What a reader leaves -/

/-- The text of chunks. -/
def gathered (chunks : List String) : List Char := chunks.flatMap String.toList

@[simp] theorem gathered_nil : gathered [] = [] := rfl

@[simp] theorem gathered_append (a b : List String) : gathered (a ++ b) = gathered a ++ gathered b :=
  List.flatMap_append

theorem gathered_chunkOf (text : List Char) :
    gathered (chunksOf (ProcessHandle.chunkOf text)) = text := by
  rw [ProcessHandle.chunkOf]
  split
  · rename_i hempty
    simpa using hempty.symm
  · simp [gathered]

theorem closings_chunkOf (text : List Char) : closings (ProcessHandle.chunkOf text) = 0 := by
  rw [ProcessHandle.chunkOf]
  split <;> simp

theorem ne_empty_of_mem_chunkOf {text : List Char} {chunk : String}
    (h : chunk ∈ chunksOf (ProcessHandle.chunkOf text)) : chunk ≠ "" := by
  rw [ProcessHandle.chunkOf] at h
  split at h
  · simp at h
  · rename_i hne
    obtain rfl : chunk = String.ofList text := by simpa using h
    simpa [← String.toList_inj] using hne

namespace Stream

theorem ne_empty_of_mem_leaves {t : Stream} {data : List UInt8} {chunk : String}
    (h : chunk ∈ chunksOf (t.leaves data)) : chunk ≠ "" := by
  rw [leaves] at h
  split at h
  · simp at h
  split at h
  · refine @ne_empty_of_mem_chunkOf t.decoder.finish chunk ?_
    simpa using h
  · exact ne_empty_of_mem_chunkOf h

/-- What is decoded is what is left: cutting the stream makes no difference. -/
theorem decoded_after (t : Stream) (source : Source) (data : List UInt8) :
    (t.after source (.reads source data)).decoded =
      t.decoded ++ gathered (chunksOf (t.leaves data)) := by
  by_cases hended : t.ended = true
  · simp [after_of_ended hended, leaves, hended]
  by_cases hdata : data = []
  · simp [after, leaves, hended, hdata, decoded, decoder, Encoding.decode, gathered_chunkOf]
  · simp [after, leaves, hended, hdata, decoded, decoder, Decoder.run_append, gathered_chunkOf]

/-- The marks that the stream's reader has still to leave. -/
def owes (t : Stream) : Nat := if t.ended then 0 else 1

theorem closings_leaves (t : Stream) (source : Source) (data : List UInt8) :
    closings (t.leaves data) + (t.after source (.reads source data)).owes = t.owes := by
  by_cases hended : t.ended = true
  · simp [after_of_ended hended, leaves, hended]
  by_cases hdata : data = []
  · simp [after, leaves, owes, hended, hdata, closings_chunkOf]
  · simp [after, leaves, owes, hended, hdata, closings_chunkOf]

end Stream

/-! ## The handle of two streams -/

/-- The marks that are still to be left. -/
def owed (t : Source → Stream) : Nat := (t .stdout).owes + (t .stderr).owes

theorem owed_eq_zero_iff (t : Source → Stream) :
    owed t = 0 ↔ (t .stdout).ended = true ∧ (t .stderr).ended = true := by
  have none (s : Source) : (t s).owes = 0 ↔ (t s).ended = true := by simp [Stream.owes]
  rw [owed, Nat.add_eq_zero_iff, none, none]

/-- Two streams after an event. -/
def streamsAfter (t : Source → Stream) (e : OutputEvent) : Source → Stream :=
  fun s => (t s).after s e

/-- Nothing is read behind the end of a stream. -/
theorem streamsAfter_of_ended {t : Source → Stream} {source : Source}
    (h : (t source).ended = true) (data : List UInt8) :
    streamsAfter t (.reads source data) = t := by
  funext s
  by_cases hs : source = s
  · subst hs
    exact Stream.after_of_ended h _ _
  · exact Stream.after_of_ne hs _ _

theorem owed_streamsAfter (t : Source → Stream) (source : Source) (data : List UInt8) :
    closings ((t source).leaves data) + owed (streamsAfter t (.reads source data)) = owed t := by
  have own := (t source).closings_leaves source data
  cases source with
  | stdout =>
    simp only [owed, streamsAfter, Stream.after_of_ne (show Source.stdout ≠ .stderr by decide)]
    omega
  | stderr =>
    simp only [owed, streamsAfter, Stream.after_of_ne (show Source.stderr ≠ .stdout by decide)]
    omega

namespace ProcessHandle

/-- Updating the reader of one of two streams, unless it has ended. -/
theorem updateReader_eq {h : ProcessHandle} {t : Source → Stream}
    (hreaders : h.readers = [.stdout, .stderr].map fun s => (t s).reader s) (source : Source)
    (f : Reader → Reader × List Mark) :
    h.updateReader source f =
      if (t source).ended then h
      else
        { h with
          readers := [.stdout, .stderr].map fun s =>
            if s = source then (f ((t s).reader s)).1 else (t s).reader s
          queue := h.queue ++ (f ((t source).reader source)).2 } := by
  cases source with
  | stdout =>
    cases hended : (t .stdout).ended <;> simp [updateReader, hreaders, Stream.reader, hended]
  | stderr =>
    cases hended : (t .stderr).ended <;> simp [updateReader, hreaders, Stream.reader, hended]

/-- Have the readers read the streams? -/
def IsReading (h : ProcessHandle) (t : Source → Stream) : Prop :=
  h.encoding = .utf8 ∧ h.readers = [.stdout, .stderr].map fun s => (t s).reader s

/-- A read: its reader goes on, and the other one is as it was. -/
theorem IsReading.read_eq {h : ProcessHandle} {t : Source → Stream} (hr : h.IsReading t)
    (source : Source) (data : List UInt8) :
    h.read source data =
      { h with
        readers := [.stdout, .stderr].map fun s => (streamsAfter t (.reads source data) s).reader s
        queue := h.queue ++ (t source).leaves data } := by
  obtain ⟨hutf8, hreaders⟩ := hr
  have other (s : Source) (hs : s ≠ source) : streamsAfter t (.reads source data) s = t s :=
    Stream.after_of_ne (Ne.symm hs) _ _
  cases hended : (t source).ended with
  | true =>
    simp [read, receive, receiveEnd, updateReader_eq hreaders, streamsAfter_of_ended hended,
      Stream.leaves, hended, ← hreaders]
  | false =>
    have goesOn {f : Reader → Reader × List Mark}
        (hf : f ((t source).reader source) =
          ((streamsAfter t (.reads source data) source).reader source, (t source).leaves data)) :
        h.updateReader source f =
          { h with
            readers := [.stdout, .stderr].map fun s =>
              (streamsAfter t (.reads source data) s).reader s
            queue := h.queue ++ (t source).leaves data } := by
      rw [updateReader_eq hreaders, hended, if_neg (by simp), hf]
      congr
      funext s
      by_cases hs : s = source
      · subst hs; rw [if_pos rfl, hf]
      · rw [if_neg hs, other s hs]
    by_cases hdata : data = []
    · subst hdata
      rw [read, List.isEmpty_nil, if_pos rfl, receiveEnd]
      refine goesOn ?_
      simp [streamsAfter, Stream.after, Stream.leaves, Stream.reader, Stream.decoder, hended]
    · rw [read, if_neg (by simpa using hdata), receive]
      refine goesOn ?_
      simp [streamsAfter, Stream.after, Stream.leaves, Stream.reader, Stream.decoder,
        Decoder.run_append, hutf8, hended, hdata]

end ProcessHandle

/-! ## Runs -/

/-- A handle, and what has passed through it. -/
structure Merge where
  handle : ProcessHandle
  /-- the chunks that the readers left, each with its stream, in order -/
  left : List (Source × String)
  /-- the chunks that the consumer took -/
  yielded : List String

namespace Merge

/-- After an event: what a read adds to the queue stems from the stream that was read. -/
def after (m : Merge) : OutputEvent → Merge
  | .reads source data =>
    let handle := m.handle.read source data
    let new := chunksOf (handle.queue.drop m.handle.queue.length)
    { m with handle, left := m.left ++ new.map (source, ·) }
  | .exits code => { m with handle := m.handle.exit code }
  | .asks =>
    match m.handle.next with
    | (.chunk text, handle) => { m with handle, yielded := m.yielded ++ [text] }
    | (_, handle) => { m with handle }

/-- The merge of a process that has just been started. -/
def start (hasStdin : Bool) (exitCode : Option Int) : Merge :=
  ⟨.create .utf8 hasStdin [.stdout, .stderr] exitCode, [], []⟩

/-- The chunks that stem from a stream. -/
def textOf (chunks : List (Source × String)) (source : Source) : List Char :=
  gathered ((chunks.filter fun c => decide (c.1 = source)).map (·.2))

/-- What holds of a merge and the streams that were read. -/
structure Merges (t : Source → Stream) (m : Merge) : Prop where
  reading : m.handle.IsReading t
  left : ∀ s, textOf m.left s = (t s).decoded
  nonempty : ∀ c ∈ m.left, c.2 ≠ ""
  /-- chunks are yielded in the order in which they are left -/
  order : m.left.map (·.2) = m.yielded ++ chunksOf m.handle.queue
  unclosed : m.handle.unclosed = closings m.handle.queue + owed t
  shut : owed t = 0 → IsShut m.handle.queue

theorem merges_start (hasStdin : Bool) (exitCode : Option Int) :
    Merges (fun _ => ⟨[], false⟩) (start hasStdin exitCode) where
  reading := ⟨rfl, rfl⟩
  left _ := rfl
  nonempty := by simp [start]
  order := rfl
  unclosed := rfl
  shut := by simp [owed, Stream.owes]

theorem textOf_append (a b : List (Source × String)) (s : Source) :
    textOf (a ++ b) s = textOf a s ++ textOf b s := by
  simp [textOf]

theorem textOf_map_of_eq (source : Source) (chunks : List String) :
    textOf (chunks.map (source, ·)) source = gathered chunks := by
  rw [textOf, List.filter_eq_self.2 (by simp), List.map_map]
  simp [Function.comp_def]

theorem textOf_map_of_ne {source s : Source} (h : source ≠ s) (chunks : List String) :
    textOf (chunks.map (source, ·)) s = [] := by
  rw [textOf, List.filter_eq_nil_iff.2 (by simp [h])]
  rfl

/-- A read. -/
theorem Merges.reads {t : Source → Stream} {m : Merge} (h : Merges t m) (source : Source)
    (data : List UInt8) :
    Merges (streamsAfter t (.reads source data)) (m.after (.reads source data)) := by
  have hread := h.reading.read_eq source data
  have hnew : chunksOf ((m.handle.read source data).queue.drop m.handle.queue.length) =
      chunksOf ((t source).leaves data) := by
    rw [hread, List.drop_left]
  refine ⟨?_, fun s => ?_, fun c hc => ?_, ?_, ?_, fun hzero => ?_⟩
  · simp only [after, hread]
    exact ⟨h.reading.1, rfl⟩
  · simp only [after, hnew, textOf_append, h.left s, streamsAfter]
    by_cases hs : source = s
    · subst hs
      rw [textOf_map_of_eq, Stream.decoded_after]
    · rw [textOf_map_of_ne hs, Stream.after_of_ne hs, List.append_nil]
  · simp only [after, hnew, List.mem_append, List.mem_map] at hc
    obtain hc | ⟨chunk, hchunk, rfl⟩ := hc
    · exact h.nonempty c hc
    · exact Stream.ne_empty_of_mem_leaves hchunk
  · simp only [after, hnew, List.map_append, List.map_map, Function.comp_def, List.map_id']
    rw [hread, h.order, chunksOf_append, List.append_assoc]
  · simp only [after, hread, closings_append]
    rw [h.unclosed, ← owed_streamsAfter t source data]
    omega
  · simp only [after, hread]
    cases hended : (t source).ended with
    | true =>
      have hsame : streamsAfter t (.reads source data) = t := streamsAfter_of_ended hended data
      simpa [Stream.leaves, hended] using h.shut (hsame ▸ hzero)
    | false =>
      have hdata : data = [] := by
        have hends : (streamsAfter t (.reads source data) source).ended = true := by
          have := (owed_eq_zero_iff _).1 hzero
          cases source
          · exact this.1
          · exact this.2
        refine Decidable.byContradiction fun hne => ?_
        simp [streamsAfter, Stream.after, hended, hne] at hends
      simp only [Stream.leaves, hended, hdata, List.isEmpty_nil, if_true, Bool.false_eq_true,
        if_false, ← List.append_assoc]
      exact isShut_concat _

/-- The process exits: its streams are read on. -/
theorem Merges.exits {t : Source → Stream} {m : Merge} (h : Merges t m) (code : Int) :
    Merges t (m.after (.exits code)) := by
  obtain ⟨reading, left, nonempty, order, unclosed, shut⟩ := h
  simp only [after, ProcessHandle.exit]
  split <;> exact ⟨reading, left, nonempty, order, unclosed, shut⟩

/-- The consumer finds the chunk that was left first of those it has not taken. -/
theorem Merges.next_chunk {t : Source → Stream} {m : Merge} (h : Merges t m) {text : String}
    {texts : List String} (hchunks : chunksOf m.handle.queue = text :: texts) :
    ∃ queue, m.handle.next =
        (.chunk text, { m.handle with queue, unclosed := closings queue + owed t }) ∧
      chunksOf queue = texts ∧ (owed t = 0 → IsShut queue) := by
  obtain ⟨queue, hnext, hrest⟩ := nextFrom_of_chunksOf_cons hchunks h.shut
  refine ⟨queue, ?_, hrest⟩
  rw [ProcessHandle.next, h.unclosed, hnext]

/-- The consumer finds no chunk. -/
theorem Merges.next_nil {t : Source → Stream} {m : Merge} (h : Merges t m)
    (hchunks : chunksOf m.handle.queue = []) :
    m.handle.next =
      (if owed t = 0 then .ends else .waits, { m.handle with queue := [], unclosed := owed t }) := by
  rw [ProcessHandle.next, h.unclosed, nextFrom_of_chunksOf_nil hchunks]

/-- The consumer asks. -/
theorem Merges.asks {t : Source → Stream} {m : Merge} (h : Merges t m) :
    Merges t (m.after .asks) := by
  obtain ⟨reading, left, nonempty, order, unclosed, shut⟩ := id h
  cases hchunks : chunksOf m.handle.queue with
  | nil =>
    have hafter : m.after .asks =
        { m with handle := { m.handle with queue := [], unclosed := owed t } } := by
      rw [after, h.next_nil hchunks]
      by_cases hzero : owed t = 0 <;> simp [hzero]
    rw [hafter]
    exact ⟨reading, left, nonempty, by rw [order, hchunks]; rfl, by simp, fun _ => rfl⟩
  | cons text texts =>
    obtain ⟨queue, hnext, htexts, hshut⟩ := h.next_chunk hchunks
    rw [after, hnext]
    exact ⟨reading, left, nonempty, by simpa [hchunks, htexts] using order, rfl, hshut⟩

/-- What the consumer meets next. -/
theorem Merges.next_eq {t : Source → Stream} {m : Merge} (h : Merges t m) :
    m.handle.next.1 =
      match m.left[m.yielded.length]? with
      | some c => .chunk c.2
      | none => if (t .stdout).ended ∧ (t .stderr).ended then .ends else .waits := by
  have hfirst : (m.left[m.yielded.length]?).map (·.2) = (chunksOf m.handle.queue).head? := by
    rw [← List.getElem?_map, h.order, List.getElem?_append_right (Nat.le_refl _), Nat.sub_self,
      List.head?_eq_getElem?]
  cases hchunks : chunksOf m.handle.queue with
  | nil =>
    have hnone : m.left[m.yielded.length]? = none := by simpa [hchunks] using hfirst
    simp only [h.next_nil hchunks, hnone, owed_eq_zero_iff]
  | cons text texts =>
    obtain ⟨queue, hnext, -⟩ := h.next_chunk hchunks
    obtain ⟨c, hc, rfl⟩ : ∃ c, m.left[m.yielded.length]? = some c ∧ c.2 = text := by
      simpa [hchunks] using hfirst
    rw [hnext, hc]

/-! ## The output -/

/-- After events. -/
def afterAll (m : Merge) (events : List OutputEvent) : Merge := events.foldl after m

theorem Merges.after {t : Source → Stream} {m : Merge} (h : Merges t m) :
    ∀ e, Merges (streamsAfter t e) (m.after e)
  | .reads source data => h.reads source data
  | .exits code => h.exits code
  | .asks => h.asks

theorem Merges.afterAll {t : Source → Stream} {m : Merge} (h : Merges t m)
    (events : List OutputEvent) :
    Merges (fun s => events.foldl (Stream.after s) (t s)) (m.afterAll events) := by
  induction events generalizing t m with
  | nil => exact h
  | cons e events ih => exact ih (h.after e)

theorem merges_afterAll (hasStdin : Bool) (exitCode : Option Int) (events : List OutputEvent) :
    Merges (fun s => Stream.of s events) ((start hasStdin exitCode).afterAll events) :=
  (merges_start hasStdin exitCode).afterAll events

/-- The chunks taken so far, each with its stream. -/
def taken (m : Merge) : List (Source × String) := m.left.take m.yielded.length

theorem Merges.textOf_left {t : Source → Stream} {m : Merge} (h : Merges t m) (s : Source) :
    textOf m.left s ++ (t s).decoder.finish = (t s).text := by
  rw [h.left, Stream.decoded_finish]

theorem Merges.yielded_eq {t : Source → Stream} {m : Merge} (h : Merges t m) :
    m.yielded = m.taken.map (·.2) := by
  rw [taken, List.map_take, h.order, List.take_left]

theorem Merges.textOf_taken_prefix {t : Source → Stream} {m : Merge} (h : Merges t m)
    (s : Source) : textOf m.taken s <+: (t s).text := by
  refine ⟨textOf (m.left.drop m.yielded.length) s ++ (t s).decoder.finish, ?_⟩
  rw [← List.append_assoc, taken, ← textOf_append, List.take_append_drop, h.textOf_left]

theorem Merges.ends_iff {t : Source → Stream} {m : Merge} (h : Merges t m) :
    m.handle.next.1 = .ends ↔ (∀ s, (t s).ended = true) ∧ m.taken = m.left := by
  have both : (∀ s, (t s).ended = true) ↔ (t .stdout).ended = true ∧ (t .stderr).ended = true :=
    ⟨fun h => ⟨h _, h _⟩, fun h s => by
      cases s
      · exact h.1
      · exact h.2⟩
  rw [h.next_eq, both, taken, List.take_eq_self_iff]
  cases hnext : m.left[m.yielded.length]? with
  | none =>
    rw [List.getElem?_eq_none_iff] at hnext
    simp [hnext]
  | some c =>
    obtain ⟨hlt, -⟩ := List.getElem?_eq_some_iff.1 hnext
    simp
    omega

/-- The output of a process of two streams, however they are cut into reads, in whatever order the
reads and the consumer's steps come: the chunks are not empty, and are yielded in the order in which
the readers left them; those of a stream are the beginning of its text, of which at most an
unfinished character is not left yet, and nothing once the stream has ended.  The consumer meets the
next chunk that was left, if there is one, and otherwise the end if and only if both streams have
ended; then the chunks of each stream are its whole text. -/
theorem output_lossless (hasStdin : Bool) (exitCode : Option Int) (events : List OutputEvent) :
    let m := (start hasStdin exitCode).afterAll events
    let stream (s : Source) := Stream.of s events
    (∀ text ∈ m.yielded, text ≠ "") ∧
    m.yielded = m.taken.map (·.2) ∧
    (∀ s, textOf m.taken s <+: (stream s).text) ∧
    (∀ s, ∃ pending, textOf m.left s ++ pending = (stream s).text ∧ pending.length ≤ 2 ∧
      ((stream s).ended = true → pending = [])) ∧
    (∀ c, m.left[m.yielded.length]? = some c → m.handle.next.1 = .chunk c.2) ∧
    (m.handle.next.1 = .ends ↔ (∀ s, (stream s).ended = true) ∧ m.taken = m.left) ∧
    (m.handle.next.1 = .ends → ∀ s, textOf m.taken s = (stream s).text) := by
  intro m stream
  have h : Merges stream m := merges_afterAll hasStdin exitCode events
  have finished {s : Source} (hended : (stream s).ended = true) :
      (stream s).decoder.finish = [] := by
    rw [Stream.decoder, hended]
    rfl
  refine ⟨fun text htext => ?_, h.yielded_eq, h.textOf_taken_prefix,
    fun s => ⟨_, h.textOf_left s, ?_, finished⟩, fun c hc => ?_, h.ends_iff, fun hends s => ?_⟩
  · rw [h.yielded_eq] at htext
    obtain ⟨c, hc, rfl⟩ := List.mem_map.1 htext
    exact h.nonempty c (List.mem_of_mem_take hc)
  · cases (stream s).decoder <;> simp [Decoder.finish]
  · rw [h.next_eq, hc]
  · obtain ⟨hended, hall⟩ := h.ends_iff.1 hends
    rw [hall, ← h.textOf_left s, finished (hended s), List.append_nil]

/-- A character whose bytes are read apart, with output of the other stream between them. -/
example :
    ((start true none).afterAll [.reads .stdout [0xC3], .reads .stderr [0x21],
      .reads .stdout [0xA9], .asks, .asks]).yielded = ["!", "é"] := by
  decide +kernel

end Merge

end DebugConsole
