import DebugConsole.Response.Command
import DebugConsole.Response.Report
import DebugConsole.Text.FileName
import DebugConsole.Variable.Decode

set_option autoImplicit false

/-!
# Line grammars

How one line of an answer is read.  A line is given without the blanks at its end.  `Grammar.read`
returns nothing for a line that is not of the grammar's form, and an error for one that is but
holds a malformed value.  Where a form is ambiguous (parentheses and colons may stand in
parameters and paths) the comment at the form says which reading is taken.
-/

namespace DebugConsole

/-- The forms that lines are read by. -/
inductive Grammar where
  | stop
  | breakpoint
  | stack
  | expression
  | definition
  | register
  | memory
  | disassembly
  /-- every line is taken as it is -/
  | verbatim
  deriving DecidableEq, Repr

namespace Grammar

open Text

/-- A number of a line, as a value of the report. -/
def number (digits : List Char) : Except Malformed Nat :=
  (Numeral.readDecimal digits).mapError .number

/-- Has the text no line feed? -/
def isOneLine (s : List Char) : Bool := s.all (· != '\n')

/-- Takes a text of the form `PATH:DIGITS` apart at its last colon; the path is on one line. -/
def pathAndLine? (s : List Char) : Option (List Char × List Char) :=
  let (digits, start) := run isDecimal s.reverse
  match start with
  | ':' :: path =>
    if digits.isEmpty || path.isEmpty || !isOneLine path then none
    else some (path.reverse, digits.reverse)
  | _ => none

/-! ## Stops -/

/-- Finds the first ` at ` behind a word whose remainder is a path and a line number. -/
def stopPlace? : List Char → Option (List Char × List Char)
  | [] => none
  | c :: rest =>
    let here := if isBlank c then none else (after? " at ".toList rest).bind pathAndLine?
    here.orElse fun _ => stopPlace? rest

/-- The line number of an echoed source line: an address may stand before it, and a statement that
ends in a semicolon behind it. -/
def sourceLine? (s : List Char) : Option (List Char) :=
  let unaddressed := match Literal.hexRun? s with
    | some (_, b :: rest) => if isBlank b then trimLeft rest else s
    | _ => s
  match run? isDecimal unaddressed with
  | some (digits, b :: rest) =>
    let statement := trimLeft rest
    if isBlank b && isOneLine statement && 2 ≤ statement.length &&
        statement.getLast? == some ';' then
      some digits
    else none
  | _ => none

/-- Where a line says that the target halted. -/
def readStop (s : List Char) : Except Malformed (Option StopLocation) :=
  match stopPlace? s with
  | some (path, digits) => (number digits).map fun n => some ⟨some (String.ofList path), some n⟩
  | none =>
    match sourceLine? s with
    | some digits => (number digits).map fun n => some ⟨none, some n⟩
    | none => .ok none

/-! ## Breakpoints -/

/-- The number, file and line digits of `Breakpoint N at …: file F, line L`. -/
def breakpointParts? (s : List Char) : Option (List Char × List Char × List Char) := do
  let (number, rest) ← (after? "Breakpoint ".toList s).bind (run? isDecimal)
  let place ← after? [' '] rest
  let (_, rest) ← run? (· != ':') place
  let (file, rest) ← (after? ": file ".toList rest).bind (run? (· != ','))
  let (line, _) ← (after? ", line ".toList rest).bind (run? isDecimal)
  return (number, file, line)

/-- The breakpoint that a line confirms. -/
def readBreakpoint (s : List Char) : Except Malformed (Option Breakpoint) :=
  match breakpointParts? s with
  | none => .ok none
  | some (digits, file, line) => do
    return some ⟨← number digits, String.ofList file, ← number line, none⟩

/-! ## The call stack -/

/-- The parts of a frame's line: level, address, function name and what follows the opening
parenthesis. -/
structure FrameHead where
  level : List Char
  address : Option (List Char)
  name : List Char
  tail : List Char

/-- Takes the address off that may stand before a function's name. -/
def frameAddress (s : List Char) : Option (List Char) × List Char :=
  match Literal.hexRun? s with
  | some (digits, rest) =>
    match after? " in ".toList rest with
    | some rest => (some ('0' :: 'x' :: digits), rest)
    | none => (none, s)
  | none => (none, s)

/-- Reads a frame's line up to the opening parenthesis. -/
def frameHead? (s : List Char) : Option FrameHead := do
  let (level, rest) ← (after? ['#'] s).bind (run? isDecimal)
  let (_, rest) ← run? isBlank rest
  let (address, rest) := frameAddress rest
  let (name, rest) ← run? (!isBlank ·) rest
  let tail ← after? " (".toList rest
  return ⟨level, address, name, tail⟩

/-- The parameters of a frame with a source place: they end at the last `) at ` whose remainder is a
path and a line number. -/
def placedTail? (tail : List Char) : Option (List Char × List Char × List Char) :=
  if isOneLine tail then lastCut? ") at ".toList pathAndLine? tail else none

/-- Is there nothing left, or the library that a function comes from? -/
def isFrameEnd : List Char → Bool
  | [] => true
  | s =>
    match after? " from ".toList s with
    | some library => !library.isEmpty && library.all (!isBlank ·)
    | none => false

/-- The parameters of a frame without a source place: they end at the last parenthesis that nothing
but a library follows. -/
def unplacedTail? (tail : List Char) : Option (List Char) :=
  match lastCut? [')'] (fun rest => if isFrameEnd rest then some () else none) tail with
  | some (params, ()) => if isOneLine params then some params else none
  | none => none

/-- A function with its parameters, as it is shown. -/
def signature (name params : List Char) : String :=
  String.ofList (name ++ ' ' :: '(' :: params ++ [')'])

/-- The frame that a line of the call stack prints. -/
def readFrame (s : List Char) : Except Malformed (Option StackFrame) :=
  match frameHead? s with
  | none => .ok none
  | some head =>
    match placedTail? head.tail with
    | some (params, path, digits) => do
      let level ← number head.level
      let line ← number digits
      let file := String.ofList path
      return some {
        level
        function := signature head.name params
        address := head.address.map String.ofList
        file := some file
        fileName := some (fileName file)
        line := some line
        params := Variable.decodeParameters params }
    | none =>
      match unplacedTail? head.tail with
      | some params => do
        let level ← number head.level
        return some {
          level
          function := signature head.name params
          address := head.address.map String.ofList
          file := none
          fileName := none
          line := none
          params := Variable.decodeParameters params }
      | none => .ok none

/-! ## Values, declarations and registers -/

/-- The name and the value text of `NAME = VALUE`; the value is on one line. -/
def expressionParts? (s : List Char) : Option (List Char × List Char) :=
  match run? isName (trimLeft s) with
  | none => none
  | some (name, rest) =>
    match trimLeft rest with
    | '=' :: value =>
      let value := trimLeft value
      if value.isEmpty || !isOneLine value then none else some (name, value)
    | _ => none

/-- The variable that a line prints. -/
def readExpression (s : List Char) : Except Malformed (Option Variable) :=
  match expressionParts? s with
  | none => .ok none
  | some (name, value) => (Variable.decode (String.ofList name) value).map some

/-- Skips the dimensions of an array; the bound limits the number of dimensions. -/
def skipDimensions : Nat → List Char → List Char
  | 0, s => s
  | bound + 1, s =>
    match s with
    | '[' :: rest =>
      match run isWord rest with
      | (_, ']' :: rest) => skipDimensions bound rest
      | _ => s
    | _ => s

/-- Is the text the end of a declaration behind the declared name: dimensions, an initial value and
the only semicolon? -/
def isDeclarationTail (s : List Char) : Bool :=
  match skipDimensions s.length s with
  | [';'] => true
  | s =>
    match trimLeft s with
    | '=' :: initial =>
      let (value, rest) := run (· != ';') initial
      !value.isEmpty && rest == [';']
    | _ => false

/-- The first word of a line that the end of a declaration follows; `inWord` says that the text
continues a word already refused. -/
def declaredName? (inWord : Bool) : List Char → Option (List Char)
  | [] => none
  | c :: rest =>
    if isWord c then
      let (word, tail) := run isWord (c :: rest)
      if !inWord && isDeclarationTail tail then some word else declaredName? true rest
    else declaredName? false rest

/-- A source line without the line number that may stand before it. -/
def dropLineNumber (s : List Char) : List Char :=
  match run? isDecimal s with
  | some (_, ':' :: rest) => trimLeft rest
  | _ => s

/-- The declaration that a line prints. -/
def readDefinition (s : List Char) : Option Definition :=
  (declaredName? false s).map fun name =>
    ⟨String.ofList name, String.ofList (dropLineNumber (trim s))⟩

/-- The name and the hexadecimal value of a register's line; another form of the value follows. -/
def registerParts? (s : List Char) : Option (List Char × List Char) := do
  let (name, rest) ← run? (fun c => isName c || c == ':' || c == '?') s
  let (_, rest) ← run? isBlank rest
  let (digits, rest) ← Literal.hexRun? rest
  let (_, rest) ← run? isBlank rest
  if rest.isEmpty || !isOneLine rest then none else return (name, '0' :: 'x' :: digits)

/-- The register that a line prints. -/
def readRegister (s : List Char) : Option Variable :=
  (registerParts? s).map fun (name, value) =>
    .scalar (String.ofList name) .integer (String.ofList value)

/-! ## Memory -/

/-- The words of a text, which are separated by blanks; `word` is the one being read (reversed). -/
def wordsFrom (word : List Char) : List Char → List (List Char)
  | [] => if word.isEmpty then [] else [word.reverse]
  | c :: rest =>
    if isBlank c then
      if word.isEmpty then wordsFrom [] rest else word.reverse :: wordsFrom [] rest
    else wordsFrom (c :: word) rest

/-- Is the text one or more hexadecimal numbers, each behind its mark and with nothing between them?
The bound limits how many. -/
def isHexChain : Nat → List Char → Bool
  | 0, _ => false
  | bound + 1, s =>
    match Literal.hexRun? s with
    | none => false
    | some (_, []) => true
    | some (digits, rest) =>
      -- the zero of the next mark was read as a digit
      2 ≤ digits.length && digits.getLast? == some '0' && isHexChain bound ('0' :: rest)

/-- The value of one printed memory cell. -/
def cellValue (word : List Char) : Except Malformed UInt8 :=
  match Literal.hexRun? word with
  | some (digits, []) =>
    let n := Numeral.readHex digits
    if n < 256 then .ok n.toUInt8 else .error .wideByte
  | _ => .error (.number (.notHex (String.ofList word)))

/-- Skips the symbol that may stand between a row's address and its colon. -/
def skipSymbol (s : List Char) : List Char :=
  match run? isBlank s with
  | some (_, '<' :: rest) =>
    match run (· != '>') rest with
    | (_, '>' :: tail) => tail
    | _ => s
  | _ => s

/-- The address digits and the words of a row of memory cells. -/
def memoryParts? (s : List Char) : Option (List Char × List (List Char)) := do
  let (address, rest) ← Literal.hexRun? s
  let rest ← after? [':'] (skipSymbol rest)
  let words := wordsFrom [] rest
  if words.isEmpty || !words.all (fun w => isHexChain w.length w) then none
  else return (address, words)

/-- The memory that a line prints. -/
def readMemory (s : List Char) : Except Malformed (Option MemoryBlock) :=
  match memoryParts? s with
  | none => .ok none
  | some (address, words) => do
    let data ← words.mapM cellValue
    return some ⟨Numeral.readHex address, data⟩

/-! ## Disassembly -/

/-- Does the line only open or close the listing? -/
def framesListing (s : List Char) : Bool :=
  startsWith "Dump of assembler code".toList s || startsWith "End of assembler dump.".toList s

/-! ## All grammars -/

/-- Reads one line. -/
def read (g : Grammar) (line : String) : Except Malformed (Option Item) :=
  let s := line.toList
  match g with
  | stop => (readStop s).map (·.map .stop)
  | breakpoint => (readBreakpoint s).map (·.map .breakpoint)
  | stack => (readFrame s).map (·.map .frame)
  | expression => (readExpression s).map (·.map .value)
  | definition => .ok ((readDefinition s).map .definition)
  | register => .ok ((readRegister s).map .value)
  | memory => (readMemory s).map (·.map .memory)
  | disassembly => .ok (if framesListing s then none else some (.instruction line))
  | verbatim => .ok (some (.line line))

/-- The grammar of each kind of command; answers to the others are not read at all. -/
def ofKind? : CommandKind → Option Grammar
  | .interrupt | .continue | .continueBackground | .next | .step | .stepOut => some stop
  | .addBreakpoint => some breakpoint
  | .stackTrace => some stack
  | .localVariables | .variableValue => some expression
  | .globalVariables => some definition
  | .registers => some register
  | .readMemory => some memory
  | .disassemble => some disassembly
  | .custom => some verbatim
  | .connect | .disconnect | .startDebug | .removeBreakpoints => none

end Grammar

end DebugConsole
