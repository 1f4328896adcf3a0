import DebugConsole.Proofs.Channel.Operations

set_option autoImplicit false

/-!
# The commands of a channel

A command that is submitted is on its way to the debugger or waits for the one in flight.  Which commands
a channel holds changes by submitting only: what the process and its transport do moves a command from
those that wait to those that are on their way, or lets it go.
-/

namespace DebugConsole.Channel

variable {ch ch' : Channel} {c : Command} {id : CommandId} {t : Ticket}

/-- The commands that are on their way to the debugger, and behind them those that wait. -/
def commands (ch : Channel) : List Command := ch.writers.map Writer.command ++ ch.backlog

theorem mem_commands_of_mem_writers {w : Writer} (hw : w ∈ ch.writers) : w.command ∈ ch.commands :=
  List.mem_append_left _ (List.mem_map_of_mem hw)

@[simp] theorem commands_create (prompt : String) :
    (Channel.create prompt).startReader.commands = [] := rfl

/-! ## Submitting -/

/-- A command that is submitted stands behind those on their way, or last. -/
theorem commands_submit (h : ch.submit c = .ok (t, ch')) :
    ∃ pre post, ch.commands = pre ++ post ∧ ch'.commands = pre ++ c :: post := by
  obtain ⟨-, -, rfl⟩ := submit_eq_ok_iff.1 h
  split
  · exact ⟨ch.commands, [], (List.append_nil _).symm, (List.append_assoc ..).symm⟩
  · refine ⟨ch.writers.map Writer.command, ch.backlog, rfl, ?_⟩
    simp [commands, startWrite, reserving]

/-! ## What a channel does with its commands -/

/-- The next command takes the flight up; that makes no difference to the commands. -/
@[simp] theorem commands_flushNext (ch : Channel) : ch.flushNext.commands = ch.commands := by
  unfold flushNext
  cases hb : ch.backlog with
  | nil => simp [commands, hb]
  | cons c rest =>
    dsimp only
    split
    · rw [commands, commands, hb]
    · simp [commands, startWrite, hb]

@[simp] theorem commands_retire (ch : Channel) (id : CommandId) (o : Outcome) :
    (ch.retire id o).commands = ch.commands := by
  unfold retire
  dsimp only
  split
  · rw [commands_flushNext]
    rfl
  · rfl

@[simp] theorem commands_cancel (ch : Channel) (t : Ticket) : (ch.cancel t).commands = ch.commands := by
  rw [cancel, settle_eq]
  rfl

theorem commands_close_subset (ch : Channel) (fault : ChannelFault) :
    (ch.close fault).commands ⊆ ch.commands := by
  rw [close_eq]
  exact List.append_subset.2 ⟨List.subset_append_left _ _, List.nil_subset _⟩

/-- A signal is no command. -/
@[simp] theorem commands_signal (ch : Channel) (id : CommandId) (name : String) (now : Float)
    (fault : Option Fault) : (ch.signal id name now fault).2.commands = ch.commands := by
  cases hc : ch.isClosed with
  | true =>
    unfold signal reserve
    rw [hc]
    rfl
  | false =>
    unfold signal reserve
    rw [hc, if_neg (by decide)]
    cases fault with
    | none => rfl
    | some f =>
      dsimp only
      split
      · rw [settle_eq]
        rfl
      · rfl

/-! ## What the process does -/

@[simp] theorem commands_beginWrite (ch : Channel) (serial : Nat) (now : Float) :
    (ch.beginWrite serial now).commands = ch.commands := by
  cases hw : ch.writers.find? fun v => v.serial == serial && !v.hasBegun with
  | none => rw [beginWrite_of_find?_eq_none now hw]
  | some w =>
    have hcommand : Writer.command ∘ Writer.marked serial = Writer.command :=
      funext (Writer.command_marked serial)
    rw [beginWrite_of_find? now hw, commands, commands, List.map_map, hcommand]

theorem commands_without_subset (ch : Channel) (serial : Nat) :
    (ch.without serial).commands ⊆ ch.commands :=
  List.append_subset.2 ⟨List.subset_append_of_subset_left _ (List.map_subset _ (List.filter_subset_self _)),
    List.subset_append_right _ _⟩

theorem commands_endWrite_subset (ch : Channel) (serial : Nat) (fault : Option Fault) :
    (ch.endWrite serial fault).commands ⊆ ch.commands := by
  rcases ch.endWrite_cases serial fault with heq | ⟨w, -, -, f, -, heq⟩
  · rw [heq]
    exact ch.commands_without_subset serial
  · rw [heq, commands_retire]
    exact ch.commands_without_subset serial

@[simp] theorem commands_emit (ch : Channel) (lines : List String) (now : Float) :
    (ch.emit lines now).commands = ch.commands := by
  cases hp : ch.pending with
  | nil =>
    rw [emit_of_pending_nil lines now hp]
    rfl
  | cons id rest => rw [emit_of_pending_cons lines now hp, commands_retire]

@[simp] theorem commands_feed (ch : Channel) (chunk : String) (now : Float) :
    (ch.feed chunk now).commands = ch.commands := by
  have hframes : ∀ (frames : List (List String)) (ch : Channel),
      (frames.foldl (fun ch lines => ch.emit lines now) ch).commands = ch.commands := by
    intro frames
    induction frames with
    | nil => exact fun _ => rfl
    | cons lines frames ih => exact fun ch => (ih _).trans (ch.commands_emit lines now)
  exact hframes (ch.takeFrames chunk).1 (ch.takeFrames chunk).2

/-- Whatever a process and its transport do, a channel holds no other commands than before. -/
theorem commands_react_subset (ch : Channel) (now : Float) (event : Event) :
    (ch.react now event).commands ⊆ ch.commands := by
  cases event with
  | writeBegins serial =>
    rw [react, commands_beginWrite]
    exact List.Subset.refl _
  | writeEnds serial fault => exact ch.commands_endWrite_subset serial fault
  | prints chunk =>
    rw [react, commands_feed]
    exact List.Subset.refl _
  | outputEnds => exact commands_close_subset { ch with buffer := .empty } .exited
  | outputFails cause => exact ch.commands_close_subset (.unreadable cause)

end DebugConsole.Channel
