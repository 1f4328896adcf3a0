import DebugConsole.Proofs.Channel.Accounting
import Mathlib.Logic.Relation

set_option autoImplicit false

/-!
# A channel and any debugger

Nothing is known here of the debugger: it prints what it likes when it likes, takes texts as slowly
as it likes and refuses any, and ends whenever it wants.  `Chronicle.Step` says what can happen next
to a channel, and the history of a chronicle says what has happened, in order.  When a frame may be
complete is left to the predicate `mayPrint`.
-/

namespace DebugConsole

/-- What a chronicle records. -/
inductive Happening where
  /-- a command is submitted -/
  | submitted (c : Command)
  /-- a signal is submitted -/
  | signalled (id : CommandId)
  /-- the text of a command is handed to the process -/
  | handed (c : Command)
  /-- a frame is complete -/
  | emitted (f : Frame)

namespace Happening

/-- The numbers of the commands that have been submitted. -/
def commandIds (history : List Happening) : List CommandId :=
  history.filterMap fun
    | submitted c => some c.id
    | _ => none

/-- The numbers of the commands whose text has been handed to the process. -/
def handedIds (history : List Happening) : List CommandId :=
  history.filterMap fun
    | handed c => some c.id
    | _ => none

@[simp] theorem commandIds_append (before after : List Happening) :
    commandIds (before ++ after) = commandIds before ++ commandIds after :=
  List.filterMap_append

@[simp] theorem handedIds_append (before after : List Happening) :
    handedIds (before ++ after) = handedIds before ++ handedIds after :=
  List.filterMap_append

@[simp] theorem commandIds_submitted (c : Command) : commandIds [submitted c] = [c.id] := rfl

@[simp] theorem commandIds_signalled (id : CommandId) : commandIds [signalled id] = [] := rfl

@[simp] theorem commandIds_handed (c : Command) : commandIds [handed c] = [] := rfl

@[simp] theorem commandIds_emitted (f : Frame) : commandIds [emitted f] = [] := rfl

@[simp] theorem handedIds_submitted (c : Command) : handedIds [submitted c] = [] := rfl

@[simp] theorem handedIds_signalled (id : CommandId) : handedIds [signalled id] = [] := rfl

@[simp] theorem handedIds_handed (c : Command) : handedIds [handed c] = [c.id] := rfl

@[simp] theorem handedIds_emitted (f : Frame) : handedIds [emitted f] = [] := rfl

/-- Complete frames hand nothing over. -/
@[simp] theorem handedIds_map_emitted (frames : List Frame) :
    handedIds (frames.map .emitted) = [] := by
  induction frames with
  | nil => rfl
  | cons f frames ih => exact ih

end Happening

/-- A channel and what has happened to it. -/
structure Chronicle where
  channel : Channel
  /-- the numbers submitted so far; the place of each is its ticket -/
  submitted : List CommandId
  /-- what has happened, oldest first -/
  history : List Happening

namespace Chronicle

open Happening

/-- Nothing has happened yet. -/
def start (prompt : String) : Chronicle := ⟨.create prompt, [], []⟩

/-- What can happen next. -/
inductive Step (mayPrint : Chronicle → Prop) : Chronicle → Chronicle → Prop
  | submit {d : Chronicle} {c : Command} {t : Ticket} {ch : Channel} (new : c.id ∉ d.submitted)
      (submits : d.channel.submit c = .ok (t, ch)) :
      Step mayPrint d
        ⟨ch, d.submitted ++ [c.id], d.history ++ [.submitted c]⟩
  | signal {d : Chronicle} {id : CommandId} (name : String) (now : Float) (fault : Option Fault)
      (isOpen : d.channel.isClosed = false) (new : id ∉ d.submitted) :
      Step mayPrint d
        ⟨(d.channel.signal id name now fault).2, d.submitted ++ [id], d.history ++ [.signalled id]⟩
  | cancel {d : Chronicle} (t : Ticket) :
      Step mayPrint d { d with channel := d.channel.cancel t }
  | beginWrite {d : Chronicle} {w : Writer} (now : Float) (writing : w ∈ d.channel.writers)
      (unbegun : w.hasBegun = false) :
      Step mayPrint d
        ⟨d.channel.beginWrite w.serial now, d.submitted, d.history ++ [.handed w.command]⟩
  | endWrite {d : Chronicle} {w : Writer} (fault : Option Fault) (writing : w ∈ d.channel.writers)
      (begun : w.hasBegun = true) :
      Step mayPrint d { d with channel := d.channel.endWrite w.serial fault }
  | buffer {d : Chronicle} (b : FrameBuffer) :
      Step mayPrint d { d with channel := { d.channel with buffer := b } }
  | emit {d : Chronicle} (lines : List String) (now : Float) (may : mayPrint d) :
      Step mayPrint d
        ⟨d.channel.emit lines now, d.submitted,
          d.history ++ [.emitted (d.channel.nextFrame lines now)]⟩
  | close {d : Chronicle} (fault : ChannelFault) :
      Step mayPrint d { d with channel := d.channel.close fault }
  | endOutput {d : Chronicle} : Step mayPrint d { d with channel := d.channel.endOutput }
  | failOutput {d : Chronicle} (cause : String) :
      Step mayPrint d { d with channel := d.channel.failOutput cause }

/-- What can come about from the start. -/
def Reachable (mayPrint : Chronicle → Prop) (prompt : String) (d : Chronicle) : Prop :=
  Relation.ReflTransGen (Step mayPrint) (start prompt) d

variable {mayPrint : Chronicle → Prop} {prompt : String} {d d' : Chronicle}

theorem Reachable.start : Reachable mayPrint prompt (start prompt) :=
  Relation.ReflTransGen.refl

theorem Reachable.next (h : Reachable mayPrint prompt d) (s : Step mayPrint d d') :
    Reachable mayPrint prompt d' :=
  Relation.ReflTransGen.tail h s

theorem Reachable.emit (hmay : ∀ d, mayPrint d) (h : Reachable mayPrint prompt d)
    (frames : List (List String)) (now : Float) :
    ∃ emitted : List Frame, Reachable mayPrint prompt
      ⟨frames.foldl (fun ch lines => ch.emit lines now) d.channel, d.submitted,
        d.history ++ emitted.map .emitted⟩ := by
  induction frames generalizing d with
  | nil => exact ⟨[], by simpa using h⟩
  | cons lines frames ih =>
    obtain ⟨emitted, hr⟩ := ih (h.next (.emit lines now (hmay d)))
    refine ⟨d.channel.nextFrame lines now :: emitted, ?_⟩
    simpa using hr

theorem Reachable.feed (hmay : ∀ d, mayPrint d) (h : Reachable mayPrint prompt d) (chunk : String)
    (now : Float) :
    ∃ emitted : List Frame, Reachable mayPrint prompt
      ⟨d.channel.feed chunk now, d.submitted, d.history ++ emitted.map .emitted⟩ := by
  have hbuffer := h.next (.buffer (d.channel.buffer.feed d.channel.prompt.toList chunk).2)
  exact hbuffer.emit hmay (d.channel.takeFrames chunk).1 now

/-- The books of the channel fit together, and fit the history. -/
structure Faithful (d : Chronicle) : Prop where
  consistent : d.channel.Consistent d.submitted
  accounted : d.channel.Accounted d.submitted (commandIds d.history) (handedIds d.history)

namespace Faithful

theorem start (prompt : String) : (start prompt).Faithful :=
  ⟨.create prompt, .create prompt⟩

/-- A pending command whose write has not ended is in flight. -/
theorem inFlight_of_mem_writers {w : Writer} (h : d.Faithful)
    (hw : w ∈ d.channel.writers) (hp : w.command.id ∈ d.channel.pending) :
    d.channel.inFlight = some w.command.id := by
  have hline := h.accounted.lined _ hp (h.accounted.writing w hw).1
  rw [Channel.line, List.mem_append, Option.mem_toList] at hline
  exact hline.resolve_right (h.consistent.notMem_backlog_of_mem_writers hw)

/-- Every step keeps a chronicle faithful. -/
theorem step (h : d.Faithful) (s : Step mayPrint d d') : d'.Faithful := by
  have hc := h.consistent
  have ha := h.accounted
  cases s with
  | @submit c t ch new submits =>
    refine ⟨hc.submit new submits, ?_⟩
    simpa using ha.submit hc new submits
  | signal name now fault isOpen new =>
    refine ⟨hc.signalled isOpen new name now fault, ?_⟩
    simpa using ha.signalled isOpen new name now fault
  | cancel t =>
    refine ⟨hc.cancel t, ?_⟩
    rw [Channel.cancel, Channel.settle_eq]
    exact { ha with }
  | beginWrite now writing unbegun =>
    refine ⟨hc.beginWrite _ now, ?_⟩
    simpa using ha.beginWrite hc writing unbegun now
  | endWrite fault writing begun =>
    exact ⟨hc.endWrite _ fault, ha.endWrite hc writing begun fault⟩
  | buffer b => exact ⟨{ hc with }, { ha with }⟩
  | emit lines now may =>
    refine ⟨hc.emit lines now, ?_⟩
    simpa using ha.emit hc lines now
  | close fault => exact ⟨hc.close fault, ha.close fault⟩
  | endOutput =>
    have hcleared : { d.channel with buffer := .empty }.Consistent d.submitted := { hc with }
    have hcleared' : { d.channel with buffer := .empty }.Accounted d.submitted
      (commandIds d.history) (handedIds d.history) := { ha with }
    exact ⟨{ hcleared.close .exited with }, { hcleared'.close .exited with }⟩
  | failOutput cause =>
    exact ⟨{ hc.close (.unreadable cause) with }, { ha.close (.unreadable cause) with }⟩

end Faithful

/-- Every chronicle that can come about is faithful. -/
theorem Reachable.faithful (h : Reachable mayPrint prompt d) : d.Faithful := by
  induction h with
  | refl => exact .start prompt
  | tail _ s ih => exact ih.step s

end Chronicle

end DebugConsole
