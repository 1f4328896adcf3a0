import DebugConsole.Proofs.Channel.Completion

set_option autoImplicit false

/-!
# What the process takes

A write is in progress from the time when its text is handed to the process until the process
returns.  Somewhere in between the process takes the text; it may return at once or a long time
after, and it may fail without having taken anything.  A `Delivery` is a chronicle with the commands
whose texts have been taken so far.  When a frame may be complete is left to the predicate
`mayPrint`.
-/

namespace DebugConsole

namespace Happening

/-- The commands that have been submitted, oldest first. -/
def commands (history : List Happening) : List Command :=
  history.filterMap fun
    | submitted c => some c
    | _ => none

@[simp] theorem commands_append (before after : List Happening) :
    commands (before ++ after) = commands before ++ commands after :=
  List.filterMap_append

@[simp] theorem commands_submitted (c : Command) : commands [submitted c] = [c] := rfl

@[simp] theorem commands_signalled (id : CommandId) : commands [signalled id] = [] := rfl

@[simp] theorem commands_handed (c : Command) : commands [handed c] = [] := rfl

@[simp] theorem commands_emitted (f : Frame) : commands [emitted f] = [] := rfl

end Happening

namespace Channel

/-! ## What a step leaves alone -/

/-- Only commands that waited before wait after a frame. -/
theorem backlog_emit_subset (ch : Channel) (lines : List String) (now : Float) :
    (ch.emit lines now).backlog ⊆ ch.backlog := by
  cases hp : ch.pending with
  | nil =>
    rw [emit_of_pending_nil lines now hp]
    exact List.Subset.refl _
  | cons id rest =>
    rw [emit_of_pending_cons lines now hp]
    exact backlog_retire_subset _ _ _

/-- No write ends when a frame is complete. -/
theorem writers_emit_prefix (ch : Channel) (lines : List String) (now : Float) :
    ch.writers <+: (ch.emit lines now).writers := by
  cases hp : ch.pending with
  | nil => simp [emit_of_pending_nil lines now hp]
  | cons id rest =>
    rw [emit_of_pending_cons lines now hp]
    exact writers_retire_prefix ch id _

@[simp] theorem backlog_beginWrite (ch : Channel) (serial : Nat) (now : Float) :
    (ch.beginWrite serial now).backlog = ch.backlog := by
  unfold beginWrite
  split <;> rfl

end Channel

namespace Chronicle

open Happening

variable {mayPrint mayPrint' : Chronicle → Prop} {prompt : String} {d d' : Chronicle}

/-- What may happen under one discipline may happen under a laxer one. -/
theorem Step.mono (s : Step mayPrint d d') (h : mayPrint d → mayPrint' d) :
    Step mayPrint' d d' := by
  cases s with
  | submit new submits => exact .submit new submits
  | signal name now fault isOpen new => exact .signal name now fault isOpen new
  | cancel t => exact .cancel t
  | beginWrite now writing unbegun => exact .beginWrite now writing unbegun
  | endWrite fault writing begun => exact .endWrite fault writing begun
  | buffer b => exact .buffer b
  | emit lines now may => exact .emit lines now (h may)
  | close fault => exact .close fault
  | endOutput => exact .endOutput
  | failOutput cause => exact .failOutput cause

/-- What has been submitted stays so, and whatever waits is new or has waited before. -/
theorem Step.submitted_and_backlog (s : Step mayPrint d d') :
    d.submitted ⊆ d'.submitted ∧
      ∀ c ∈ d'.channel.backlog, c ∈ d.channel.backlog ∨ c.id ∉ d.submitted := by
  cases s with
  | submit new submits =>
    refine ⟨List.subset_append_left _ _, fun b hb => ?_⟩
    obtain ⟨-, -, rfl⟩ := Channel.submit_eq_ok_iff.1 submits
    split at hb
    · rcases List.mem_append.1 hb with hb | hb
      · exact Or.inl hb
      · rw [List.mem_singleton.1 hb]
        exact Or.inr new
    · exact Or.inl hb
  | @signal id name now fault isOpen new =>
    refine ⟨List.subset_append_left _ _, fun b hb => Or.inl ?_⟩
    rwa [(Channel.flight_signal isOpen id name now fault).2.2.1] at hb
  | cancel t =>
    refine ⟨List.Subset.refl _, fun b hb => Or.inl ?_⟩
    rwa [Channel.cancel, Channel.settle_eq] at hb
  | beginWrite now writing unbegun =>
    refine ⟨List.Subset.refl _, fun b hb => Or.inl ?_⟩
    rwa [Channel.backlog_beginWrite] at hb
  | endWrite fault writing begun =>
    exact ⟨List.Subset.refl _, fun _ hb => Or.inl (Channel.backlog_endWrite_subset _ _ _ hb)⟩
  | buffer b => exact ⟨List.Subset.refl _, fun _ hb => Or.inl hb⟩
  | emit lines now may =>
    exact ⟨List.Subset.refl _, fun _ hb => Or.inl (Channel.backlog_emit_subset _ _ _ hb)⟩
  | close fault => exact ⟨List.Subset.refl _, by simp [Channel.close_eq]⟩
  | endOutput => exact ⟨List.Subset.refl _, by simp [Channel.endOutput, Channel.close_eq]⟩
  | failOutput cause => exact ⟨List.Subset.refl _, by simp [Channel.failOutput, Channel.close_eq]⟩

/-- The commands submitted so far are among all numbers, in the same order. -/
theorem Reachable.commands_sublist (h : Reachable mayPrint prompt d) :
    ((commands d.history).map Command.id).Sublist d.submitted := by
  induction h with
  | refl => exact List.Sublist.refl _
  | @tail d d' _ s ih =>
    cases s with
    | submit new submits => simpa using ih
    | signal name now fault isOpen new => simpa using ih.trans (List.sublist_append_left _ _)
    | beginWrite now writing unbegun => simpa using ih
    | emit lines now may => simpa using ih
    | _ => exact ih

end Chronicle

/-- A chronicle, and the commands whose texts the process has taken so far, oldest first. -/
structure Delivery where
  chronicle : Chronicle
  taken : List Command

namespace Delivery

open Happening

/-- Nothing has happened yet. -/
def start (prompt : String) : Delivery := ⟨.start prompt, []⟩

/-- The channel of a delivery. -/
abbrev channel (d : Delivery) : Channel := d.chronicle.channel

/-- The writes in progress: the text has been handed to the process, which has not returned. -/
def inProgress (d : Delivery) : List Writer := d.channel.writers.filter Writer.hasBegun

theorem mem_inProgress {d : Delivery} {w : Writer} :
    w ∈ d.inProgress ↔ w ∈ d.channel.writers ∧ w.hasBegun = true :=
  List.mem_filter

/-- What can happen next. -/
inductive Step (mayPrint : Delivery → Prop) : Delivery → Delivery → Prop
  /-- no write ends -/
  | proceed {d : Delivery} {c : Chronicle}
      (s : Chronicle.Step (fun _ => mayPrint d) d.chronicle c)
      (ongoing : ∀ w ∈ d.channel.writers, w.serial ∈ c.channel.writers.map Writer.serial) :
      Step mayPrint d { d with chronicle := c }
  /-- the process takes the text of a write in progress -/
  | take {d : Delivery} {w : Writer} (writing : w ∈ d.inProgress) (new : w.command ∉ d.taken) :
      Step mayPrint d { d with taken := d.taken ++ [w.command] }
  /-- a write ends well, its text having been taken -/
  | endWrite {d : Delivery} {w : Writer} (writing : w ∈ d.inProgress)
      (known : w.command ∈ d.taken) :
      Step mayPrint d
        { d with chronicle := { d.chronicle with channel := d.channel.endWrite w.serial none } }
  /-- a write fails, whether its text has been taken or not -/
  | failWrite {d : Delivery} {w : Writer} (fault : Fault) (writing : w ∈ d.inProgress) :
      Step mayPrint d
        { d with
          chronicle := { d.chronicle with channel := d.channel.endWrite w.serial (some fault) } }

/-- What can come about from the start. -/
def Reachable (mayPrint : Delivery → Prop) (prompt : String) (d : Delivery) : Prop :=
  Relation.ReflTransGen (Step mayPrint) (start prompt) d

variable {mayPrint : Delivery → Prop} {prompt : String} {d d' : Delivery}

theorem Reachable.start : Reachable mayPrint prompt (start prompt) :=
  Relation.ReflTransGen.refl

theorem Reachable.next (h : Reachable mayPrint prompt d) (s : Step mayPrint d d') :
    Reachable mayPrint prompt d' :=
  Relation.ReflTransGen.tail h s

theorem Reachable.emit (h : Reachable mayPrint prompt d) (hmay : mayPrint d)
    (lines : List String) (now : Float) :
    Reachable mayPrint prompt { d with
      chronicle := ⟨d.channel.emit lines now, d.chronicle.submitted,
        d.chronicle.history ++ [.emitted (d.channel.nextFrame lines now)]⟩ } := by
  refine h.next (.proceed (.emit lines now hmay) fun w hw => List.mem_map_of_mem ?_)
  exact (d.channel.writers_emit_prefix lines now).subset hw

/-- Either something happens to the channel, or the process takes the text of a write in
progress. -/
theorem Step.cases (s : Step mayPrint d d') :
    (Chronicle.Step (fun _ => mayPrint d) d.chronicle d'.chronicle ∧ d'.taken = d.taken) ∨
      ∃ w ∈ d.inProgress, w.command ∉ d.taken ∧
        d' = { d with taken := d.taken ++ [w.command] } := by
  cases s with
  | proceed s ongoing => exact Or.inl ⟨s, rfl⟩
  | take writing new => exact Or.inr ⟨_, writing, new, rfl⟩
  | endWrite writing known =>
    have hw := mem_inProgress.1 writing
    exact Or.inl ⟨.endWrite none hw.1 hw.2, rfl⟩
  | failWrite fault writing =>
    have hw := mem_inProgress.1 writing
    exact Or.inl ⟨.endWrite (some fault) hw.1 hw.2, rfl⟩

/-- What happens to the channel is a chronicle. -/
theorem Reachable.chronicle (h : Reachable mayPrint prompt d) :
    Chronicle.Reachable (fun _ => True) prompt d.chronicle := by
  induction h with
  | refl => exact .start
  | tail _ s ih =>
    rcases s.cases with ⟨s, -⟩ | ⟨w, -, -, rfl⟩
    · exact ih.next (s.mono fun _ => trivial)
    · exact ih

/-- Only what has been submitted is taken, and nothing that waits has been. -/
structure Traced (d : Delivery) : Prop where
  known : ∀ c ∈ d.taken, c.id ∈ d.chronicle.submitted
  untaken : ∀ c ∈ d.channel.backlog, c ∉ d.taken

theorem Traced.step (h : d.Traced) (hs : d.chronicle.Faithful) (s : Step mayPrint d d') :
    d'.Traced := by
  rcases s.cases with ⟨s, htaken⟩ | ⟨w, writing, -, rfl⟩
  · obtain ⟨hsubmitted, hbacklog⟩ := s.submitted_and_backlog
    refine ⟨fun c hc => ?_, fun c hc => ?_⟩
    · rw [htaken] at hc
      exact hsubmitted (h.known c hc)
    · rw [htaken]
      rcases hbacklog c hc with hold | hnew
      · exact h.untaken c hold
      · exact fun hc => hnew (h.known c hc)
  · have hw := (mem_inProgress.1 writing).1
    refine ⟨fun c hc => ?_, fun c hc => ?_⟩
    · rcases List.mem_append.1 hc with hc | hc
      · exact h.known c hc
      · rw [List.mem_singleton.1 hc]
        exact hs.consistent.writing w hw
    · rw [List.mem_append, List.mem_singleton, not_or]
      refine ⟨h.untaken c hc, ?_⟩
      rintro rfl
      exact hs.consistent.notMem_backlog_of_mem_writers hw (List.mem_map_of_mem hc)

theorem Reachable.traced (h : Reachable mayPrint prompt d) : d.Traced := by
  induction h with
  | refl => constructor <;> simp [Delivery.start, Chronicle.start, Channel.create]
  | tail hr s ih => exact ih.step (Reachable.chronicle hr).faithful s

end Delivery

end DebugConsole
