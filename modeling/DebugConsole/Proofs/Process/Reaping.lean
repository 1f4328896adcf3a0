import DebugConsole.Rehearsal.Child

set_option autoImplicit false

/-!
# What killing leaves of the readers

Killing a process ends with cancelling its readers one after another, and waiting for each.  A reader that
is cancelled passes nothing on, but one that had ended by a fault does: then killing ends with that fault,
every time it is tried, and the readers behind it are not cancelled (`cancelledUpToFault`).  So killing
leaves no reader running exactly if none had failed before (`kill_completes_iff`); whether the process
itself has ended plays no part in this.
-/

namespace DebugConsole

namespace Reader

/-- The fault that a reader ended by. -/
def fault? (r : Reader) : Option Fault :=
  match r.status with
  | .failed fault => some fault
  | _ => none

/-- A reader that was cancelled; one that had ended stays as it is. -/
def cancelled (r : Reader) : Reader :=
  match r.status with
  | .running => { r with status := .finished }
  | _ => r

theorem fault?_cancelled (r : Reader) : r.cancelled.fault? = r.fault? := by
  cases h : r.status <;> simp [cancelled, fault?, h]

theorem status_cancelled (r : Reader) : r.cancelled.status ≠ .running := by
  cases h : r.status <;> simp [cancelled, h]

/-- Readers that were cancelled one after another, up to the first that had failed. -/
def cancelledUpToFault (readers : List Reader) : List Reader :=
  (readers.takeWhile fun r => r.fault?.isNone).map cancelled ++
    readers.dropWhile fun r => r.fault?.isNone

theorem cancelledUpToFault_of_none {readers : List Reader}
    (h : ∀ r ∈ readers, r.fault? = none) : cancelledUpToFault readers = readers.map cancelled := by
  induction readers with
  | nil => rfl
  | cons r readers ih =>
    have hr := h r (by simp)
    have hrest := ih fun s hs => h s (by simp [hs])
    simp only [cancelledUpToFault] at hrest
    simp [cancelledUpToFault, hr, hrest]

theorem cancelledUpToFault_of_fault {before behind : List Reader} {r : Reader} {fault : Fault}
    (hbefore : ∀ s ∈ before, s.fault? = none) (hr : r.fault? = some fault) :
    cancelledUpToFault (before ++ r :: behind) = before.map cancelled ++ r :: behind := by
  induction before with
  | nil => simp [cancelledUpToFault, hr]
  | cons s before ih =>
    have hs := hbefore s (by simp)
    have hrest := ih fun s hs => hbefore s (by simp [hs])
    simp only [cancelledUpToFault] at hrest
    simp [cancelledUpToFault, hs, hrest]

/-- Cancelling does not change what the first failed reader had failed with. -/
theorem findSome?_cancelledUpToFault (readers : List Reader) :
    (cancelledUpToFault readers).findSome? fault? = readers.findSome? fault? := by
  induction readers with
  | nil => rfl
  | cons r readers ih =>
    cases hr : r.fault? with
    | none =>
      simp only [cancelledUpToFault] at ih
      simp [cancelledUpToFault, hr, fault?_cancelled, ih]
    | some fault => simp [cancelledUpToFault, hr]

end Reader

namespace ProcessHandle

theorem cancel_eq (readers : List Reader) :
    (cancelReaders.cancel readers).1 =
        (match readers.findSome? Reader.fault? with
        | none => .ok ()
        | some fault => .error fault) ∧
      (cancelReaders.cancel readers).2.1 = Reader.cancelledUpToFault readers := by
  induction readers with
  | nil => exact ⟨rfl, rfl⟩
  | cons r readers ih =>
    simp only [Reader.cancelledUpToFault] at ih
    cases h : r.status <;>
      simp [cancelReaders.cancel, Reader.cancelledUpToFault, Reader.fault?, Reader.cancelled, h, ih]

end ProcessHandle

namespace Rehearsal.Child

/-- Killing a child, by what becomes of its readers; waiting for it does nothing to them. -/
theorem kill_eq (c : Child) :
    c.kill.1 = c.handle.readers.findSome? Reader.fault? ∧
      c.kill.2.handle.readers = Reader.cancelledUpToFault c.handle.readers := by
  have hexit : (c.handle.exit ProcessHandle.killedCode).readers = c.handle.readers := by
    unfold ProcessHandle.exit
    split <;> rfl
  obtain ⟨hfault, hreaders⟩ := ProcessHandle.cancel_eq c.handle.readers
  cases hfirst : c.handle.readers.findSome? Reader.fault? <;> rw [hfirst] at hfault
  case none | some =>
    cases halive : c.handle.isAlive <;> cases hheeds : c.ignoresKill <;>
      simp [kill, ProcessHandle.cancelReaders, halive, hheeds, hexit, hfault, hreaders]

/-- Killing a process, whatever has become of it and its readers.  It passes no fault on and leaves
no reader running if no reader had failed; and only then does it pass no fault on.  Otherwise it ends
with what the first of them had failed with: the readers before that one are cancelled, those behind
it are as they were, and killing again ends in the same way. -/
theorem kill_completes_iff (c : Child) :
    ((c.kill.1 = none ∧ ∀ r ∈ c.kill.2.handle.readers, r.status ≠ .running) ↔
      ∀ r ∈ c.handle.readers, r.fault? = none) ∧
    (c.kill.1 = none ↔ ∀ r ∈ c.handle.readers, r.fault? = none) ∧
    (∀ before r behind fault, c.handle.readers = before ++ r :: behind →
      (∀ s ∈ before, s.fault? = none) → r.fault? = some fault →
      c.kill.1 = some fault ∧
        c.kill.2.handle.readers = before.map Reader.cancelled ++ r :: behind) ∧
    c.kill.2.kill.1 = c.kill.1 := by
  obtain ⟨hfault, hreaders⟩ := c.kill_eq
  have hnone : c.kill.1 = none ↔ ∀ r ∈ c.handle.readers, r.fault? = none := by
    rw [hfault, List.findSome?_eq_none_iff]
  refine ⟨⟨fun h => hnone.1 h.1, fun h => ⟨hnone.2 h, fun r hr => ?_⟩⟩, hnone, ?_, ?_⟩
  · rw [hreaders, Reader.cancelledUpToFault_of_none h] at hr
    obtain ⟨s, -, rfl⟩ := List.mem_map.1 hr
    exact s.status_cancelled
  · intro before r behind fault hsplit hbefore hr
    have hpast : before.findSome? Reader.fault? = none := List.findSome?_eq_none_iff.2 hbefore
    refine ⟨?_, ?_⟩
    · rw [hfault, hsplit, List.findSome?_append, hpast, Option.none_or, List.findSome?_cons, hr]
    · rw [hreaders, hsplit, Reader.cancelledUpToFault_of_fault hbefore hr]
  · rw [c.kill.2.kill_eq.1, hreaders, Reader.findSome?_cancelledUpToFault, hfault]

/-- Reading the first stream of a process fails, and the process is killed: that fails too, and the
reader of the second stream goes on. -/
theorem failed_reader_outlives_kill :
    let fault : Fault := ⟨.system, "read failed"⟩
    let started := ProcessHandle.create .utf8 true [.stdout, .stderr] none
    let c : Child := ⟨started.receiveFault .stdout fault, false, none, 0, 0.0⟩
    c.kill.1 = some fault ∧ ∃ r ∈ c.kill.2.handle.readers, r.status = .running :=
  ⟨rfl, ⟨.stderr, .ground, .running⟩, by decide, rfl⟩

end Rehearsal.Child

end DebugConsole
