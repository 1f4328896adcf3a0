import DebugConsole.Proofs.Response.Failure
import DebugConsole.Proofs.Variable.Expansion
import Mathlib.Data.List.Chain

set_option autoImplicit false

/-!
# Rows of memory

Memory is printed in rows, each with the address of its first byte.  A block keeps the address of the first
row that is read, and behind it the bytes of all rows that are read, one row behind the other.  So it shows
every row at the address that the row was printed with if these rows follow each other without a gap
(`Contiguous`), and, as rows are printed in ascending order, only then (`shows_rows_iff`).  Where a row is
missing because it was not recognised, all that is printed behind it is shown too early.
-/

namespace DebugConsole

namespace MemoryBlock

variable {a b block first row : MemoryBlock} {more rows : List MemoryBlock} {data data' : List UInt8}
  {address : Nat}

/-! ## What a block shows -/

/-- The byte that a block shows at an address. -/
def byteAt? (m : MemoryBlock) (address : Nat) : Option UInt8 :=
  if m.address ≤ address then m.data[address - m.address]? else none

/-- The address behind the last byte. -/
def finish (m : MemoryBlock) : Nat := m.address + m.data.length

/-- Does a block show what a row shows, at the same addresses? -/
def Shows (block row : MemoryBlock) : Prop :=
  ∀ address byte, row.byteAt? address = some byte → block.byteAt? address = some byte

/-- The bytes of rows, one row behind the other. -/
def bytes (rows : List MemoryBlock) : List UInt8 := rows.flatMap MemoryBlock.data

/-- Does every row start behind the one before it? -/
def Ascending (rows : List MemoryBlock) : Prop := rows.IsChain fun a b => a.finish ≤ b.address

/-- Does every row start where the one before it ends? -/
def Contiguous (rows : List MemoryBlock) : Prop := rows.IsChain fun a b => a.finish = b.address

theorem byteAt?_add (m : MemoryBlock) (i : Nat) : m.byteAt? (m.address + i) = m.data[i]? := by
  rw [byteAt?, if_pos (Nat.le_add_right ..), Nat.add_sub_cancel_left]

theorem byteAt?_eq_some_iff {m : MemoryBlock} {byte : UInt8} :
    m.byteAt? address = some byte ↔ ∃ i, address = m.address + i ∧ m.data[i]? = some byte := by
  constructor
  · intro h
    unfold byteAt? at h
    split at h
    · exact ⟨address - m.address, by omega, h⟩
    · cases h
  · rintro ⟨i, rfl, h⟩
    rw [byteAt?_add, h]

theorem Shows.trans (h : a.Shows b) (h' : b.Shows row) : a.Shows row :=
  fun address byte hbyte => h address byte (h' address byte hbyte)

theorem shows_append_left (address : Nat) (data data' : List UInt8) :
    Shows ⟨address, data ++ data'⟩ ⟨address, data⟩ := by
  intro place byte hbyte
  obtain ⟨i, rfl, hi⟩ := byteAt?_eq_some_iff.1 hbyte
  obtain ⟨hlt, -⟩ := List.getElem?_eq_some_iff.1 hi
  exact byteAt?_eq_some_iff.2 ⟨i, rfl, (List.getElem?_append_left hlt).trans hi⟩

theorem shows_append_right (address : Nat) (data data' : List UInt8) :
    Shows ⟨address, data ++ data'⟩ ⟨address + data.length, data'⟩ := by
  intro place byte hbyte
  obtain ⟨i, rfl, hi⟩ := byteAt?_eq_some_iff.1 hbyte
  refine byteAt?_eq_some_iff.2 ⟨data.length + i, Nat.add_assoc .., ?_⟩
  rw [List.getElem?_append_right (Nat.le_add_right ..), Nat.add_sub_cancel_left, hi]

/-- What a block shows is not printed behind its end. -/
theorem Shows.finish_le (h : block.Shows row) (hne : row.data ≠ []) : row.finish ≤ block.finish := by
  have hpos : 0 < row.data.length := List.length_pos_iff.2 hne
  have hlast : row.data[row.data.length - 1]? = some (row.data[row.data.length - 1]) :=
    List.getElem?_eq_getElem (by omega)
  obtain ⟨i, hplace, hi⟩ := byteAt?_eq_some_iff.1 (h _ _ (byteAt?_eq_some_iff.2 ⟨_, rfl, hlast⟩))
  obtain ⟨hlt, -⟩ := List.getElem?_eq_some_iff.1 hi
  unfold finish
  omega

/-! ## Rows without gaps -/

/-- Rows without a gap are shown where they were printed. -/
theorem Contiguous.shows (h : Contiguous (first :: more)) :
    ∀ row ∈ first :: more, Shows ⟨first.address, bytes (first :: more)⟩ row := by
  induction more generalizing first with
  | nil =>
    rw [List.forall_mem_singleton]
    exact shows_append_left first.address first.data []
  | cons second more ih =>
    obtain ⟨hsecond, hmore⟩ := List.isChain_cons_cons.1 h
    rw [List.forall_mem_cons]
    refine ⟨shows_append_left first.address first.data _, fun row hrow => ?_⟩
    have hrest := shows_append_right first.address first.data (bytes (second :: more))
    rw [show first.address + first.data.length = second.address from hsecond] at hrest
    exact hrest.trans (ih hmore row hrow)

/-- The last of rows without a gap ends where their bytes end. -/
theorem Contiguous.exists_finish (h : Contiguous (first :: more)) :
    ∃ row ∈ first :: more, row.finish = first.address + (bytes (first :: more)).length := by
  induction more generalizing first with
  | nil => exact ⟨first, List.mem_cons_self, by simp [finish, bytes]⟩
  | cons second more ih =>
    obtain ⟨hsecond, hmore⟩ := List.isChain_cons_cons.1 h
    obtain ⟨row, hrow, hfinish⟩ := ih hmore
    refine ⟨row, List.mem_cons_of_mem _ hrow, ?_⟩
    have hlength : (bytes (first :: second :: more)).length =
        first.data.length + (bytes (second :: more)).length := List.length_append
    rw [hfinish, ← hsecond, hlength, finish, Nat.add_assoc]

/-- Of ascending rows, the last would end behind their bytes if there was a gap. -/
theorem Ascending.contiguous (h : Ascending (first :: more))
    (hfinish : ∀ row ∈ first :: more, row.finish ≤ first.address + (bytes (first :: more)).length) :
    Contiguous (first :: more) := by
  induction more generalizing first with
  | nil => exact List.isChain_singleton _
  | cons second more ih =>
    obtain ⟨hsecond, hmore⟩ := List.isChain_cons_cons.1 h
    have hlength : (bytes (first :: second :: more)).length =
        first.data.length + (bytes (second :: more)).length := List.length_append
    have hrest : Contiguous (second :: more) := by
      refine ih hmore fun row hrow => ?_
      have hrow := hfinish row (List.mem_cons_of_mem _ hrow)
      unfold finish at hsecond hrow ⊢
      omega
    obtain ⟨row, hrow, hlast⟩ := hrest.exists_finish
    have hrow := hfinish row (List.mem_cons_of_mem _ hrow)
    refine List.isChain_cons_cons.2 ⟨?_, hrest⟩
    unfold finish at hsecond ⊢
    omega

end MemoryBlock

namespace Report

open MemoryBlock (Ascending Contiguous bytes)

variable {block first row : MemoryBlock} {line : String} {lines : List String} {more : List MemoryBlock}
  {r r' : Report}

/-! ## Reading rows -/

/-- The row that a line is read as. -/
def rowOf? (line : String) : Option MemoryBlock := (Grammar.readMemory line.toList).toOption.join

/-- The rows that are read in an answer. -/
def rowsOf (lines : List String) : List MemoryBlock :=
  (readableLines .readMemory lines).filterMap rowOf?

theorem rowOf?_eq_some_iff : rowOf? line = some row ↔ Grammar.readMemory line.toList = .ok (some row) := by
  unfold rowOf?
  cases Grammar.readMemory line.toList with
  | error m => simp [Except.toOption]
  | ok row => simp [Except.toOption]

/-- A row holds a byte at least. -/
theorem data_ne_nil_of_rowOf? (h : rowOf? line = some row) : row.data ≠ [] := by
  have hread := rowOf?_eq_some_iff.1 h
  unfold Grammar.readMemory at hread
  split at hread
  · cases hread
  · next address words hparts =>
    obtain ⟨data, hdata, hrow⟩ := Malformed.exists_of_bind hread
    cases hrow
    have hwords : words ≠ [] := by
      obtain ⟨_, -, hparts⟩ := Option.bind_eq_some_iff.1 hparts
      obtain ⟨_, -, hparts⟩ := Option.bind_eq_some_iff.1 hparts
      dsimp only at hparts
      split at hparts
      · cases hparts
      · next hnone =>
        cases hparts
        simp only [Bool.or_eq_true, not_or] at hnone
        simpa using hnone.1
    obtain ⟨word, words, rfl⟩ := List.exists_cons_of_ne_nil hwords
    rw [List.mapM_cons] at hdata
    obtain ⟨byte, -, hdata⟩ := Malformed.exists_of_bind hdata
    obtain ⟨bytes, -, hdata⟩ := Malformed.exists_of_bind hdata
    cases hdata
    exact List.cons_ne_nil byte bytes

/-- How a line is read that may be a row. -/
theorem readLine_memory_eq (hok : r.isOk = true) (hline : failureMessage? line = none) :
    readLine (some .memory) r line =
      (Grammar.readMemory line.toList).map (·.elim (r.log line) fun row => r.add (.memory row)) :=
  readLine_of_read hok hline rfl

/-- What a line adds to the memory that is known, if it does not fail the command. -/
theorem readLine_memory (h : readLine (some .memory) r line = .ok r') (hok : r'.isOk = true) :
    r.isOk = true ∧
      r'.memory = (rowOf? line).elim r.memory fun row => some (mergeMemory r.memory row) := by
  cases hr : r.isOk with
  | false =>
    rw [readLine_of_failed hr] at h
    cases h
    cases hr.symm.trans hok
  | true =>
    refine ⟨rfl, ?_⟩
    cases hline : failureMessage? line with
    | some message =>
      rw [readLine_of_failureMessage? hr hline] at h
      cases h
      cases hok
    | none =>
      rw [readLine_memory_eq hr hline] at h
      obtain ⟨row, hread, rfl⟩ := Malformed.exists_of_map h
      cases row with
      | none =>
        rw [rowOf?, hread]
        rfl
      | some row =>
        rw [rowOf?_eq_some_iff.2 hread]
        rfl

theorem memory_of_foldlM (h : lines.foldlM (readLine (some .memory)) r = .ok r') (hok : r'.isOk = true) :
    r.isOk = true ∧
      r'.memory = (lines.filterMap rowOf?).foldl (fun known row => some (mergeMemory known row)) r.memory := by
  induction lines generalizing r with
  | nil =>
    cases h
    exact ⟨hok, rfl⟩
  | cons line lines ih =>
    rw [List.foldlM_cons] at h
    obtain ⟨next, hline, hlines⟩ := Malformed.exists_of_bind h
    obtain ⟨hnext, hmemory⟩ := ih hlines
    obtain ⟨hr, hnextMemory⟩ := readLine_memory hline hnext
    refine ⟨hr, ?_⟩
    rw [hmemory, hnextMemory]
    rw [List.filterMap_cons]
    cases rowOf? line <;> rfl

theorem foldl_mergeMemory (block : MemoryBlock) (rows : List MemoryBlock) :
    rows.foldl (fun known row => some (mergeMemory known row)) (some block) =
      some ⟨block.address, block.data ++ bytes rows⟩ := by
  induction rows generalizing block with
  | nil => simp [bytes]
  | cons row rows ih =>
    rw [List.foldl_cons, mergeMemory, ih]
    simp [bytes]

/-- A block holds the bytes of the rows that are read, from the address of the first one on. -/
theorem memory_of_decode (h : decode .readMemory lines = .ok r) (hok : r.isOk = true)
    (hblock : r.memory = some block) :
    ∃ first more, rowsOf lines = first :: more ∧ block = ⟨first.address, bytes (first :: more)⟩ := by
  obtain ⟨-, hmemory⟩ := memory_of_foldlM h hok
  rw [hblock] at hmemory
  cases hrows : rowsOf lines with
  | nil =>
    rw [rowsOf] at hrows
    rw [hrows] at hmemory
    cases hmemory
  | cons first more =>
    refine ⟨first, more, rfl, ?_⟩
    rw [rowsOf] at hrows
    rw [hrows, List.foldl_cons] at hmemory
    exact Option.some.inj (hmemory.trans (foldl_mergeMemory first more))

/-- A block holds the bytes of the rows that are read, one row behind the other, from the address of the first
one on.  It shows them all where they were printed if they follow each other without a gap, and, as rows are
printed in ascending order, only then. -/
theorem shows_rows_iff (h : decode .readMemory lines = .ok r) (hok : r.isOk = true)
    (hblock : r.memory = some block) :
    (∃ first more, rowsOf lines = first :: more ∧ block = ⟨first.address, bytes (first :: more)⟩) ∧
      (Contiguous (rowsOf lines) → ∀ row ∈ rowsOf lines, block.Shows row) ∧
      (Ascending (rowsOf lines) → (∀ row ∈ rowsOf lines, block.Shows row) → Contiguous (rowsOf lines)) := by
  obtain ⟨first, more, hrows, rfl⟩ := memory_of_decode h hok hblock
  have hne : ∀ row ∈ rowsOf lines, row.data ≠ [] := by
    intro row hrow
    obtain ⟨line, -, hline⟩ := List.mem_filterMap.1 hrow
    exact data_ne_nil_of_rowOf? hline
  refine ⟨⟨first, more, hrows, rfl⟩, ?_, ?_⟩
  · rw [hrows]
    exact Contiguous.shows
  · rw [hrows] at hne ⊢
    exact fun hascending hshows =>
      hascending.contiguous fun row hrow => (hshows row hrow).finish_le (hne row hrow)

/-- Two rows behind the echo of the command. -/
theorem shows_rows_of_echo :
    let lines := ["x/3xb 0x8000", "0x8000 <main>:\t0x35\t0x00", "0x8002 <main+2>:\t0xc6"]
    let rows : List MemoryBlock := [⟨0x8000, [0x35, 0x00]⟩, ⟨0x8002, [0xc6]⟩]
    let block : MemoryBlock := ⟨0x8000, [0x35, 0x00, 0xc6]⟩
    decode .readMemory lines = .ok { empty with memory := some block, logs := ["x/3xb 0x8000"] } ∧
      rowsOf lines = rows ∧ Contiguous rows ∧ ∀ row ∈ rows, block.Shows row := by
  intro lines rows block
  have hdecode : decode .readMemory lines =
      .ok { empty with memory := some block, logs := ["x/3xb 0x8000"] } := rfl
  have hrows : rowsOf lines = rows := rfl
  have hcontiguous : Contiguous rows := List.isChain_cons_cons.2 ⟨by decide, List.isChain_singleton _⟩
  have hshows := (shows_rows_iff hdecode rfl rfl).2.1
  rw [hrows] at hshows
  exact ⟨hdecode, hrows, hcontiguous, hshows hcontiguous⟩

/-- A row whose symbol holds the mark that ends it is not recognised, and the row behind it is shown two bytes
too early. -/
theorem row_behind_lost_row_moves :
    let lost := "0x8002 <Ref::operator->() const>:\t0x03\t0x04"
    let lines := ["0x8000 <main>:\t0x01\t0x02", lost, "0x8004 <stop>:\t0x05"]
    let block : MemoryBlock := ⟨0x8000, [0x01, 0x02, 0x05]⟩
    let row : MemoryBlock := ⟨0x8004, [0x05]⟩
    decode .readMemory lines = .ok { empty with memory := some block, logs := [lost] } ∧
      rowsOf lines = [⟨0x8000, [0x01, 0x02]⟩, row] ∧
      row.byteAt? 0x8004 = some 0x05 ∧ block.byteAt? 0x8004 = none ∧ block.byteAt? 0x8002 = some 0x05 :=
  ⟨rfl, rfl, rfl, rfl, rfl⟩

end Report

end DebugConsole
