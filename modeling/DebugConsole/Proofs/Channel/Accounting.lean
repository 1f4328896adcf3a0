import DebugConsole.Proofs.Channel.Consistency

set_option autoImplicit false

/-!
# What has been handed over

Among the numbers of a channel are those of commands, and among these the ones whose text has been
handed to the process.  `Channel.Accounted` says where each kind stands: what waits has not been
handed over, what is in flight has been or is about to be, and the time of a pending command tells
the two apart.  Every operation keeps it, whatever the process prints.
-/

namespace DebugConsole

section Entries

variable {α β : Type} [BEq α] [LawfulBEq α]

theorem mem_keys_assign {entries : List (α × β)} {key a : α} {value : β} :
    a ∈ (assign entries key value).map Prod.fst ↔ a = key ∨ a ∈ entries.map Prod.fst := by
  unfold assign
  split
  · rename_i hany
    obtain ⟨e, he, hkey⟩ := List.any_eq_true.1 hany
    have hsame : (entries.map fun e => if e.1 == key then (key, value) else e).map Prod.fst =
        entries.map Prod.fst := by
      rw [List.map_map]
      apply List.map_congr_left
      intro e _
      by_cases h : e.1 = key <;> simp [h]
    have hmem : key ∈ entries.map Prod.fst := List.mem_map.2 ⟨e, he, by simpa using hkey⟩
    rw [hsame]
    constructor
    · exact Or.inr
    · rintro (rfl | h)
      · exact hmem
      · exact h
  · simp [or_comm]

end Entries

namespace Channel

/-- Where the numbers of commands stand, and among them those whose text has been handed over. -/
structure Accounted (ch : Channel) (numbers commands handed : List CommandId) : Prop where
  known : commands ⊆ numbers
  asked : handed ⊆ commands
  dated : ch.startedAt.map Prod.fst ⊆ numbers
  waiting : ∀ c ∈ ch.backlog, c.id ∈ commands ∧ c.id ∉ handed
  writing : ∀ w ∈ ch.writers, w.command.id ∈ commands ∧
    (w.hasBegun = false → w.command.id ∉ handed)
  flying : ∀ id, ch.inFlight = some id → id ∈ commands ∧
    (id ∉ handed → ∃ w ∈ ch.writers, w.command.id = id ∧ w.hasBegun = false)
  /-- a pending command is in flight or waits -/
  lined : ∀ id ∈ ch.pending, id ∈ commands → id ∈ ch.line
  /-- a pending command has a time if its text has been handed over -/
  started : ∀ id ∈ ch.pending, id ∈ commands → (id ∈ ch.startedAt.map Prod.fst ↔ id ∈ handed)

namespace Accounted

variable {ch ch' : Channel} {numbers commands handed : List CommandId} {id : CommandId}

theorem create (prompt : String) : (Channel.create prompt).Accounted [] [] [] := by
  constructor <;> simp [Channel.create]

theorem submit {c : Command} {t : Ticket} (h : ch.Accounted numbers commands handed)
    (hc : ch.Consistent numbers) (hnew : c.id ∉ numbers) (hs : ch.submit c = .ok (t, ch')) :
    ch'.Accounted (numbers ++ [c.id]) (commands ++ [c.id]) handed := by
  have hunasked : c.id ∉ handed := fun hmem => hnew (h.known (h.asked hmem))
  have hundated : c.id ∉ ch.startedAt.map Prod.fst := fun hmem => hnew (h.dated hmem)
  have hpending := pending_submit hs
  have hline := line_submit hc.idle hs
  have hcommand : ∀ a ∈ commands, a ∈ commands ++ [c.id] := fun a => List.mem_append_left _
  have hself : c.id ∈ commands ++ [c.id] := List.mem_append_right _ (List.mem_singleton.2 rfl)
  obtain ⟨-, -, hch⟩ := submit_eq_ok_iff.1 hs
  have hstartedAt : ch'.startedAt = ch.startedAt := by
    rw [hch]
    split <;> rfl
  refine ⟨?_, fun a ha => hcommand a (h.asked ha), ?_, ?_, ?_, ?_, ?_, ?_⟩
  · exact List.append_subset.2
      ⟨fun a ha => List.mem_append_left _ (h.known ha), List.subset_append_right _ _⟩
  · rw [hstartedAt]
    exact fun a ha => List.mem_append_left _ (h.dated ha)
  · intro b hb
    have hold : b ∈ ch.backlog → b.id ∈ commands ++ [c.id] ∧ b.id ∉ handed := fun hmem =>
      ⟨hcommand _ (h.waiting b hmem).1, (h.waiting b hmem).2⟩
    rw [hch] at hb
    split at hb
    · rcases List.mem_append.1 hb with hb | hb
      · exact hold hb
      · rw [List.mem_singleton.1 hb]
        exact ⟨hself, hunasked⟩
    · exact hold hb
  · intro w hw
    have hold : w ∈ ch.writers → w.command.id ∈ commands ++ [c.id] ∧
        (w.hasBegun = false → w.command.id ∉ handed) := fun hmem =>
      ⟨hcommand _ (h.writing w hmem).1, (h.writing w hmem).2⟩
    rw [hch] at hw
    split at hw
    · exact hold hw
    · rcases List.mem_append.1 hw with hw | hw
      · exact hold hw
      · rw [List.mem_singleton.1 hw]
        exact ⟨hself, fun _ => hunasked⟩
  · intro a ha
    rw [hch] at ha ⊢
    split at ha
    · rename_i hf
      rw [if_pos hf]
      exact ⟨hcommand a (h.flying a ha).1, (h.flying a ha).2⟩
    · rename_i hf
      rw [if_neg hf]
      cases ha
      refine ⟨hself, fun _ => ⟨⟨ch.writes, c, false⟩, ?_, rfl, rfl⟩⟩
      exact List.mem_append_right _ (List.mem_singleton.2 rfl)
  · intro a ha hmem
    rw [hpending, List.mem_append, List.mem_singleton] at ha
    rw [hline, List.mem_append, List.mem_singleton]
    by_cases heq : a = c.id
    · exact Or.inr heq
    · left
      apply h.lined a (ha.resolve_right heq)
      simpa [heq] using hmem
  · intro a ha hmem
    rw [hpending, List.mem_append, List.mem_singleton] at ha
    rw [hstartedAt]
    by_cases heq : a = c.id
    · rw [heq]
      exact iff_of_false hundated hunasked
    · apply h.started a (ha.resolve_right heq)
      simpa [heq] using hmem

theorem signal (h : ch.Accounted numbers commands handed) (hnew : id ∉ numbers) (now : Float) :
    { ch.reserving id with startedAt := assign ch.startedAt id now }.Accounted
      (numbers ++ [id]) commands handed := by
  have hold : ∀ a ∈ commands, a ≠ id := by
    rintro a ha rfl
    exact hnew (h.known ha)
  refine { h with known := ?_, dated := ?_, lined := ?_, started := ?_ }
  · exact fun a ha => List.mem_append_left _ (h.known ha)
  · intro a ha
    rcases mem_keys_assign.1 ha with rfl | ha
    · exact List.mem_append_right _ (List.mem_singleton.2 rfl)
    · exact List.mem_append_left _ (h.dated ha)
  · intro a ha hcommand
    rcases List.mem_append.1 ha with ha | ha
    · exact h.lined a ha hcommand
    · exact absurd (List.mem_singleton.1 ha) (hold a hcommand)
  · intro a ha hcommand
    rw [mem_keys_assign]
    rcases List.mem_append.1 ha with ha | ha
    · rw [← h.started a ha hcommand]
      simp [hold a hcommand]
    · exact absurd (List.mem_singleton.1 ha) (hold a hcommand)

theorem signalFailed {name : String} {now : Float} {t : Ticket} {fault : Fault}
    (h : ch.Accounted numbers commands handed) (hnew : id ∉ numbers)
    (hs : ch.signal id name now (some fault) = (.submitted t, ch')) :
    ch'.Accounted (numbers ++ [id]) commands handed := by
  obtain ⟨-, -, -, rfl⟩ := signal_some_eq_submitted_iff.1 hs
  have hsignal := h.signal hnew now
  have hold : ∀ a ∈ commands, a ≠ id := by
    rintro a ha rfl
    exact hnew (h.known ha)
  refine { hsignal with dated := ?_, lined := ?_, started := ?_ }
  · intro a ha
    rw [forget, keys_unassign] at ha
    exact hsignal.dated (List.mem_of_mem_filter ha)
  · exact fun a ha => hsignal.lined a (List.mem_of_mem_erase ha)
  · intro a ha hcommand
    rw [← hsignal.started a (List.mem_of_mem_erase ha) hcommand]
    simp [forget, keys_unassign, hold a hcommand]

theorem signalled (h : ch.Accounted numbers commands handed) (hopen : ch.isClosed = false)
    (hnew : id ∉ numbers) (name : String) (now : Float) (fault : Option Fault) :
    (ch.signal id name now fault).2.Accounted (numbers ++ [id]) commands handed := by
  rcases signal_cases hopen id name now fault with heq | ⟨t, f, rfl, heq⟩
  · rw [heq]
    exact h.signal hnew now
  · exact h.signalFailed hnew heq

theorem retire (h : ch.Accounted numbers commands handed) (hc : ch.Consistent numbers)
    (o : Outcome) : (ch.retire id o).Accounted numbers commands handed := by
  have hkeys : (ch.retire id o).startedAt.map Prod.fst =
      (ch.startedAt.map Prod.fst).filter fun k => !(k == id) := by
    rw [startedAt_retire, keys_unassign]
  refine ⟨h.known, h.asked, ?_, ?_, ?_, ?_, ?_, ?_⟩
  · rw [hkeys]
    exact fun a ha => h.dated (List.mem_of_mem_filter ha)
  · exact fun c hmem => h.waiting c (backlog_retire_subset ch id o hmem)
  · intro w hw
    rcases mem_writers_retire hw with hold | ⟨hwaits, -⟩
    · exact h.writing w hold
    · exact ⟨(h.waiting _ hwaits).1, fun _ => (h.waiting _ hwaits).2⟩
  · intro a ha
    by_cases hf : ch.inFlight = some id
    · have hopen := hc.isClosed_of_inFlight hf
      have hwrites := exists_writer_of_inFlight_retire hopen hf ha
      refine ⟨?_, fun _ => hwrites⟩
      obtain ⟨w, hw, rfl, -⟩ := hwrites
      rcases mem_writers_retire hw with hold | ⟨hwaits, -⟩
      · exact (h.writing w hold).1
      · exact (h.waiting _ hwaits).1
    · rw [inFlight_retire_of_not_inFlight o hf] at ha
      rw [writers_retire_of_not_inFlight o hf]
      exact h.flying a ha
  · intro a ha hcommand
    rw [pending_retire, hc.unique.mem_erase_iff] at ha
    have hline := h.lined a ha.2 hcommand
    by_cases hf : ch.inFlight = some id
    · rw [line_retire_of_inFlight o (hc.isClosed_of_inFlight hf) hf]
      rw [line, hf] at hline
      rcases List.mem_cons.1 hline with rfl | hwaits
      · exact absurd rfl ha.1
      · exact hwaits
    · rw [line_retire_of_not_inFlight o hf]
      exact hline
  · intro a ha hcommand
    rw [pending_retire, hc.unique.mem_erase_iff] at ha
    rw [hkeys, List.mem_filter, ← h.started a ha.2 hcommand]
    simp [ha.1]

theorem emit (h : ch.Accounted numbers commands handed) (hc : ch.Consistent numbers)
    (lines : List String) (now : Float) :
    (ch.emit lines now).Accounted numbers commands handed := by
  cases hp : ch.pending with
  | nil =>
    rw [emit_of_pending_nil lines now hp]
    exact { h with }
  | cons id rest =>
    rw [emit_of_pending_cons lines now hp]
    exact h.retire hc _

theorem beginWrite {w : Writer} (h : ch.Accounted numbers commands handed)
    (hc : ch.Consistent numbers) (hw : w ∈ ch.writers) (hb : w.hasBegun = false) (now : Float) :
    (ch.beginWrite w.serial now).Accounted numbers commands (handed ++ [w.command.id]) := by
  have hother : ∀ v ∈ ch.writers, v.command.id = w.command.id → v = w := fun v hv heq =>
    List.inj_on_of_nodup_map (List.nodup_append.1 hc.once).1 hv hw heq
  rw [beginWrite_of_find? now (hc.find?_unbegun hw hb)]
  refine { h with
    asked := ?_, dated := ?_, waiting := ?_, writing := ?_, flying := ?_, started := ?_ }
  · refine List.append_subset.2 ⟨h.asked, ?_⟩
    simpa using (h.writing w hw).1
  · intro a ha
    rcases mem_keys_assign.1 ha with rfl | ha
    · exact h.known (h.writing w hw).1
    · exact h.dated ha
  · intro c hmem
    refine ⟨(h.waiting c hmem).1, ?_⟩
    rw [List.mem_append, List.mem_singleton, not_or]
    refine ⟨(h.waiting c hmem).2, ?_⟩
    intro heq
    apply hc.notMem_backlog_of_mem_writers hw
    rw [← heq]
    exact List.mem_map_of_mem hmem
  · intro v hv
    obtain ⟨u, hu, rfl⟩ := List.mem_map.1 hv
    rw [Writer.command_marked]
    refine ⟨(h.writing u hu).1, ?_⟩
    intro hunbegun
    rw [List.mem_append, List.mem_singleton, not_or]
    by_cases hserial : u.serial = w.serial
    · simp [Writer.marked, hserial] at hunbegun
    · rw [Writer.marked, if_neg (by simpa using hserial)] at hunbegun
      refine ⟨(h.writing u hu).2 hunbegun, fun heq => hserial ?_⟩
      rw [hother u hu heq]
  · intro a ha
    refine ⟨(h.flying a ha).1, ?_⟩
    intro hnew
    rw [List.mem_append, List.mem_singleton, not_or] at hnew
    obtain ⟨v, hv, rfl, hunbegun⟩ := (h.flying a ha).2 hnew.1
    refine ⟨v, List.mem_map.2 ⟨v, hv, ?_⟩, rfl, hunbegun⟩
    rw [Writer.marked, if_neg]
    intro hserial
    have hsame := List.inj_on_of_nodup_map hc.serials hv hw (by simpa using hserial)
    exact hnew.2 (by rw [hsame])
  · intro a ha hcommand
    rw [mem_keys_assign, List.mem_append, List.mem_singleton, h.started a ha hcommand, or_comm]

theorem without {w : Writer} (h : ch.Accounted numbers commands handed)
    (hc : ch.Consistent numbers) (hw : w ∈ ch.writers) (hb : w.hasBegun = true) :
    (ch.without w.serial).Accounted numbers commands handed := by
  refine { h with
    writing := fun v hv => h.writing v (List.mem_of_mem_filter hv)
    flying := fun a ha => ⟨(h.flying a ha).1, fun hnew => ?_⟩ }
  obtain ⟨v, hv, rfl, hunbegun⟩ := (h.flying a ha).2 hnew
  refine ⟨v, List.mem_filter.2 ⟨hv, ?_⟩, rfl, hunbegun⟩
  simp only [Bool.not_eq_true', beq_eq_false_iff_ne, ne_eq]
  intro hserial
  rw [List.inj_on_of_nodup_map hc.serials hv hw hserial, hb] at hunbegun
  cases hunbegun

theorem endWrite {w : Writer} (h : ch.Accounted numbers commands handed)
    (hc : ch.Consistent numbers) (hw : w ∈ ch.writers) (hb : w.hasBegun = true)
    (fault : Option Fault) :
    (ch.endWrite w.serial fault).Accounted numbers commands handed := by
  have hended := h.without hc hw hb
  rcases hc.endWrite_cases hw fault with heq | ⟨f, -, heq⟩
  · rwa [heq]
  · rw [heq]
    exact hended.retire (hc.without _) _

theorem close (h : ch.Accounted numbers commands handed) (fault : ChannelFault) :
    (ch.close fault).Accounted numbers commands handed := by
  rw [close_eq]
  exact { h with
    dated := List.nil_subset _
    waiting := by simp
    flying := by simp
    lined := by simp
    started := by simp }

end Accounted

end Channel

end DebugConsole
