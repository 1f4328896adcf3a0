import DebugConsole.Proofs.Numeral.Spelling
import DebugConsole.Proofs.Response.Rows
import DebugConsole.Proofs.Variable.Numbers

set_option autoImplicit false

/-!
# Memory as a debugger prints it

A dump is printed in rows: the address of the first byte, perhaps the symbol that lies there, and the bytes,
with tabs between them.  Every row is printed at the address where its bytes lie.  However the memory is cut
into rows, and however each row spells its numbers, what is read of its dump is the memory (`decode_dump`).

What is chosen when a row is printed stands in its fields (`MemoryRow`).  A symbol is any text without the
mark that ends it; the row of one that holds the mark is not recognised.
-/

namespace DebugConsole.Printed

open Grammar (cellValue isHexChain memoryParts? readMemory skipSymbol wordsFrom)
open Text (after? isBlank isHex run run?)

variable {lead word : List Char} {words : List (List Char)}

/-! ## Printed rows -/

/-- The symbol that lies at an address. -/
structure Symbol where
  chars : List Char
  unclosed : ∀ c ∈ chars, c ≠ '>'

def Symbol.text (s : Symbol) : List Char := ' ' :: '<' :: (s.chars ++ ['>'])

/-- A row of memory: at least one byte, and what is chosen when it is printed. -/
structure MemoryRow where
  symbol : Option Symbol
  /-- the blanks behind the colon -/
  gap : Gap
  first : UInt8
  more : List UInt8

namespace MemoryRow

def bytes (row : MemoryRow) : List UInt8 := row.first :: row.more

/-- The bytes as they are printed. -/
def cells (spelling : Spelling) (row : MemoryRow) : List (List Char) :=
  row.bytes.map fun byte => spelling.text byte.toNat

/-- What stands behind the address. -/
def rest (spelling : Spelling) (row : MemoryRow) : List Char :=
  row.symbol.elim [] Symbol.text ++ ':' :: (row.gap.text ++ ['\t'].intercalate (row.cells spelling))

/-- The row as it is printed at an address. -/
def text (addresses cells : Spelling) (address : Nat) (row : MemoryRow) : List Char :=
  addresses.text address ++ row.rest cells

end MemoryRow

/-- The lines that are printed for rows of memory from an address on. -/
def dump (addresses cells : Spelling) (address : Nat) : List MemoryRow → List String
  | [] => []
  | row :: rows =>
    String.ofList (row.text addresses cells address) ::
      dump addresses cells (address + row.bytes.length) rows

/-! ## Words -/

/-- One or more characters without a blank. -/
def IsWord (word : List Char) : Prop := word ≠ [] ∧ ∀ c ∈ word, isBlank c = false

theorem wordsFrom_blanks (h : ∀ c ∈ lead, isBlank c = true) (s : List Char) :
    wordsFrom [] (lead ++ s) = wordsFrom [] s := by
  induction lead with
  | nil => rfl
  | cons c lead ih =>
    obtain ⟨hc, hlead⟩ := List.forall_mem_cons.1 h
    rw [List.cons_append, wordsFrom, if_pos hc]
    exact ih hlead

theorem wordsFrom_append (h : ∀ c ∈ word, isBlank c = false) (start s : List Char) :
    wordsFrom start (word ++ s) = wordsFrom (word.reverse ++ start) s := by
  induction word generalizing start with
  | nil => rfl
  | cons c word ih =>
    obtain ⟨hc, hword⟩ := List.forall_mem_cons.1 h
    rw [List.cons_append, wordsFrom, hc, if_neg Bool.false_ne_true, ih hword, List.reverse_cons,
      List.append_assoc, List.singleton_append]

/-- Words are told apart by the tabs between them. -/
theorem wordsFrom_intercalate (h : ∀ w ∈ words, IsWord w) :
    wordsFrom [] (['\t'].intercalate words) = words := by
  induction words with
  | nil => rfl
  | cons w words ih =>
    obtain ⟨hw, hwords⟩ := List.forall_mem_cons.1 h
    have hopen : (w.reverse ++ []).isEmpty = false := by simp [hw.1]
    cases words with
    | nil =>
      rw [List.intercalate_singleton, ← List.append_nil w, wordsFrom_append hw.2, List.append_nil, wordsFrom]
      simp [hw.1]
    | cons v words =>
      have htab : isBlank '\t' = true := by decide
      rw [List.intercalate_cons_cons, List.append_assoc, wordsFrom_append hw.2, List.singleton_append,
        wordsFrom, if_pos htab, hopen, if_neg Bool.false_ne_true, ih hwords, List.append_nil,
        List.reverse_reverse]

theorem intercalate_ne_nil {w : List Char} (hw : w ≠ []) (words : List (List Char)) :
    ['\t'].intercalate (w :: words) ≠ [] := by
  cases words with
  | nil => simpa using hw
  | cons v words =>
    rw [List.intercalate_cons_cons, List.append_assoc]
    exact List.append_ne_nil_of_left_ne_nil hw _

/-- Words with tabs between them do not end in a blank. -/
theorem isBlank_last_intercalate (h : ∀ w ∈ words, IsWord w) :
    ∀ c ∈ (['\t'].intercalate words).getLast?, isBlank c = false := by
  induction words with
  | nil => rintro c ⟨⟩
  | cons w words ih =>
    obtain ⟨hw, hwords⟩ := List.forall_mem_cons.1 h
    cases words with
    | nil =>
      rw [List.intercalate_singleton]
      exact fun c hc => hw.2 c (List.mem_of_getLast? hc)
    | cons v words =>
      have hne := intercalate_ne_nil (hwords v List.mem_cons_self).1 words
      rw [List.intercalate_cons_cons, List.getLast?_append_of_ne_nil _ hne]
      exact ih hwords

/-! ## Cells -/

theorem hexRun?_text (spelling : Spelling) (n : Nat) {s : List Char} (h : ∀ c ∈ s.head?, isHex c = false) :
    Literal.hexRun? (spelling.text n ++ s) = some ((spelling.digits n).chars, s) :=
  hexRun?_hexadecimal (spelling.digits n) h

theorem isWord_text (spelling : Spelling) (n : Nat) : IsWord (spelling.text n) := by
  refine ⟨List.cons_ne_nil _ _, ?_⟩
  rw [Spelling.text, List.forall_mem_cons, List.forall_mem_cons]
  exact ⟨by decide, by decide, fun c hc => Text.isBlank_of_isHex ((spelling.digits n).all c hc)⟩

/-- A cell holds nothing but its number. -/
theorem hexRun?_cell (spelling : Spelling) (n : Nat) :
    Literal.hexRun? (spelling.text n) = some ((spelling.digits n).chars, []) := by
  have hrun := hexRun?_text spelling n (s := []) (by rintro c ⟨⟩)
  rwa [List.append_nil] at hrun

theorem isHexChain_text (spelling : Spelling) (n bound : Nat) :
    isHexChain (bound + 1) (spelling.text n) = true := by
  rw [isHexChain, hexRun?_cell]

theorem cellValue_text (spelling : Spelling) (byte : UInt8) :
    cellValue (spelling.text byte.toNat) = .ok byte := by
  rw [cellValue, hexRun?_cell]
  dsimp only
  rw [spelling.value, if_pos byte.toNat_lt, Nat.toUInt8_eq, UInt8.ofNat_toNat]

theorem mapM_cellValue (spelling : Spelling) (bytes : List UInt8) :
    (bytes.map fun byte => spelling.text byte.toNat).mapM cellValue = .ok bytes := by
  induction bytes with
  | nil => rfl
  | cons byte bytes ih =>
    rw [List.map_cons, List.mapM_cons, cellValue_text, ih]
    rfl

/-! ## Reading a row -/

namespace MemoryRow

theorem isWord_cells (spelling : Spelling) (row : MemoryRow) : ∀ w ∈ row.cells spelling, IsWord w := by
  rw [cells, List.forall_mem_map]
  exact fun byte _ => isWord_text spelling byte.toNat

theorem skipSymbol_rest (spelling : Spelling) (row : MemoryRow) :
    skipSymbol (row.rest spelling) =
      ':' :: (row.gap.text ++ ['\t'].intercalate (row.cells spelling)) := by
  unfold rest
  generalize row.gap.text ++ ['\t'].intercalate (row.cells spelling) = behind
  cases row.symbol with
  | none =>
    have hcolon : run? isBlank (':' :: behind) = none := Text.run?_eq_none (by rintro c ⟨⟩; decide)
    rw [Option.elim_none, List.nil_append, skipSymbol, hcolon]
  | some symbol =>
    have hblank : run? isBlank (' ' :: '<' :: (symbol.chars ++ '>' :: ':' :: behind)) =
        some ([' '], '<' :: (symbol.chars ++ '>' :: ':' :: behind)) := rfl
    have hsymbol : run (· != '>') (symbol.chars ++ '>' :: ':' :: behind) =
        (symbol.chars, '>' :: ':' :: behind) := by
      refine Text.run_append_of_all (fun c hc => bne_iff_ne.2 (symbol.unclosed c hc)) ?_
      rintro c ⟨⟩
      rfl
    have htext : Symbol.text symbol ++ ':' :: behind =
        ' ' :: '<' :: (symbol.chars ++ '>' :: ':' :: behind) := by simp [Symbol.text]
    rw [Option.elim_some, htext]
    simp only [skipSymbol, hblank, hsymbol]

theorem isHex_head_rest (spelling : Spelling) (row : MemoryRow) :
    ∀ c ∈ (row.rest spelling).head?, isHex c = false := by
  unfold rest
  cases row.symbol with
  | none => rintro c ⟨⟩; decide
  | some symbol => rintro c ⟨⟩; decide

variable (addresses cells : Spelling) (address : Nat) (row : MemoryRow)

theorem memoryParts?_text :
    memoryParts? (row.text addresses cells address) =
      some ((addresses.digits address).chars, row.cells cells) := by
  have hcolon : after? [':'] (':' :: (row.gap.text ++ ['\t'].intercalate (row.cells cells))) =
      some (row.gap.text ++ ['\t'].intercalate (row.cells cells)) := Text.after?_eq_some_iff.2 rfl
  have hwords : wordsFrom [] (row.gap.text ++ ['\t'].intercalate (row.cells cells)) = row.cells cells := by
    rw [wordsFrom_blanks (isBlank_gap row.gap), wordsFrom_intercalate (row.isWord_cells cells)]
  have hchains : (row.cells cells).all (fun w => isHexChain w.length w) = true := by
    rw [List.all_eq_true, MemoryRow.cells, List.forall_mem_map]
    exact fun byte _ => isHexChain_text cells byte.toNat _
  have hnonempty : (row.cells cells).isEmpty = false := rfl
  unfold memoryParts? text
  simp only [hexRun?_text addresses address (row.isHex_head_rest cells), row.skipSymbol_rest, hcolon, hwords,
    hchains, hnonempty, Option.bind_eq_bind, Option.bind_some]
  rfl

theorem readMemory_text :
    readMemory (row.text addresses cells address) = .ok (some ⟨address, row.bytes⟩) := by
  rw [readMemory, memoryParts?_text]
  dsimp only
  rw [MemoryRow.cells, mapM_cellValue, addresses.value]
  rfl

/-- A row does not end in a blank. -/
theorem trimRight_text :
    Text.trimRight (row.text addresses cells address) = row.text addresses cells address := by
  have hlast := isBlank_last_intercalate (row.isWord_cells cells)
  have hne : ['\t'].intercalate (row.cells cells) ≠ [] :=
    intercalate_ne_nil (isWord_text cells row.first.toNat).1 _
  refine Text.trimRight_eq_self ?_
  have htext : row.text addresses cells address =
      (addresses.text address ++ (row.symbol.elim [] Symbol.text ++ ':' :: row.gap.text)) ++
        ['\t'].intercalate (row.cells cells) := by simp [text, rest]
  rw [htext, List.getLast?_append_of_ne_nil _ hne]
  exact hlast

end MemoryRow

/-! ## Reading a dump -/

open Report (mergeMemory readLine readableLines)

variable (addresses cells : Spelling)

theorem failureMessage?_row (address : Nat) (row : MemoryRow) :
    failureMessage? (String.ofList (row.text addresses cells address)) = none := by
  unfold failureMessage?
  rw [String.toList_ofList]
  rfl

theorem readLine_row {r : Report} (hok : r.isOk = true) (address : Nat) (row : MemoryRow) :
    readLine (some .memory) r (String.ofList (row.text addresses cells address)) =
      .ok { r with memory := some (mergeMemory r.memory ⟨address, row.bytes⟩) } := by
  rw [Report.readLine_memory_eq hok (failureMessage?_row addresses cells address row), String.toList_ofList,
    row.readMemory_text]
  rfl

theorem mergeMemory_append (known : Option MemoryBlock) (address address' : Nat) (data data' : List UInt8) :
    mergeMemory (some (mergeMemory known ⟨address, data⟩)) ⟨address', data'⟩ =
      mergeMemory known ⟨address, data ++ data'⟩ := by
  cases known with
  | none => rfl
  | some block => simp [mergeMemory]

/-- Further rows add their bytes to the memory that is known. -/
theorem foldlM_dump {r : Report} (hok : r.isOk = true) (address : Nat) (first : MemoryRow)
    (more : List MemoryRow) :
    (dump addresses cells address (first :: more)).foldlM (readLine (some .memory)) r =
      .ok { r with
        memory := some (mergeMemory r.memory ⟨address, (first :: more).flatMap MemoryRow.bytes⟩) } := by
  induction more generalizing r address first with
  | nil =>
    rw [dump, List.foldlM_cons, readLine_row addresses cells hok, List.flatMap_singleton]
    rfl
  | cons second more ih =>
    have hrest := ih (r := { r with memory := some (mergeMemory r.memory ⟨address, first.bytes⟩) }) hok
      (address + first.bytes.length) second
    rw [mergeMemory_append, ← List.flatMap_cons] at hrest
    rw [dump, List.foldlM_cons, readLine_row addresses cells hok]
    exact hrest

theorem readableLines_dump (address : Nat) (rows : List MemoryRow) :
    readableLines .readMemory (dump addresses cells address rows) = dump addresses cells address rows := by
  induction rows generalizing address with
  | nil => rfl
  | cons row rows ih =>
    have htrim : Text.trimmedRight (String.ofList (row.text addresses cells address)) =
        String.ofList (row.text addresses cells address) := by
      rw [Text.trimmedRight, String.toList_ofList, row.trimRight_text]
    have hne : String.ofList (row.text addresses cells address) ≠ "" := by
      intro hempty
      have hlist := congrArg String.toList hempty
      rw [String.toList_ofList] at hlist
      cases hlist
    rw [dump, ← List.singleton_append, Report.readableLines_append,
      Report.readableLines_of_ne_empty .readMemory (by rwa [htrim]), htrim, ih]

/-- What is read of a dump is the memory, from the address of its first row on, and nothing else. -/
theorem decode_dump (address : Nat) (first : MemoryRow) (more : List MemoryRow) :
    Report.decode .readMemory (dump addresses cells address (first :: more)) =
      .ok { Report.empty with memory := some ⟨address, (first :: more).flatMap MemoryRow.bytes⟩ } := by
  rw [Report.decode, Report.decodeWith, readableLines_dump]
  exact foldlM_dump addresses cells rfl address first more

/-- Three bytes in two rows, as they are printed at the start of a program. -/
example :
    let rows : List MemoryRow := [
      ⟨some ⟨"main".toList, List.all_iff_forall_prop.1 (by decide)⟩, ⟨[.tab]⟩, 0x35, [0x00]⟩,
      ⟨some ⟨"main+2".toList, List.all_iff_forall_prop.1 (by decide)⟩, ⟨[.tab]⟩, 0xc6, []⟩]
    dump (.lower 0) (.lower 2) 0x8000 rows = ["0x8000 <main>:\t0x35\t0x00", "0x8002 <main+2>:\t0xc6"] := by
  decide +kernel

end DebugConsole.Printed
