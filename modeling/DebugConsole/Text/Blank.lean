set_option autoImplicit false

/-!
# Blank characters

What separates words, and what is cut from the ends of lines, settings and values.  The set holds
the ASCII blanks, the four ASCII information separators, the next-line control and every space and
separator of the other scripts; a zero-width space is not blank.
-/

namespace DebugConsole.Text

/-- Does the character separate words? -/
def isBlank (c : Char) : Bool :=
  let n := c.toNat
  (9 ≤ n && n ≤ 13) || (28 ≤ n && n ≤ 32) || n == 0x85 || n == 0xa0 || n == 0x1680 ||
    (0x2000 ≤ n && n ≤ 0x200a) || n == 0x2028 || n == 0x2029 || n == 0x202f || n == 0x205f ||
    n == 0x3000

/-- The text without the blanks at its start. -/
def trimLeft (s : List Char) : List Char := s.dropWhile isBlank

/-- The text without the blanks at its end. -/
def trimRight (s : List Char) : List Char := (s.reverse.dropWhile isBlank).reverse

/-- The text without the blanks at its two ends. -/
def trim (s : List Char) : List Char := trimRight (trimLeft s)

@[simp] theorem trimLeft_nil : trimLeft [] = [] := rfl

@[simp] theorem trimRight_nil : trimRight [] = [] := rfl

/-- What `trimLeft` cuts is blank, and what it leaves does not start with a blank. -/
theorem trimLeft_split (s : List Char) :
    ∃ blanks, s = blanks ++ trimLeft s ∧ ∀ c ∈ blanks, isBlank c = true :=
  ⟨s.takeWhile isBlank, (List.takeWhile_append_dropWhile).symm,
    fun _ h => by simpa using List.all_eq_true.1 (List.all_takeWhile) _ h⟩

/-- What `trimRight` cuts is blank. -/
theorem trimRight_split (s : List Char) :
    ∃ blanks, s = trimRight s ++ blanks ∧ ∀ c ∈ blanks, isBlank c = true := by
  obtain ⟨blanks, h, hb⟩ := trimLeft_split s.reverse
  refine ⟨blanks.reverse, ?_, fun c hc => hb c (List.mem_reverse.1 hc)⟩
  have := congrArg List.reverse h
  simpa [trimRight, trimLeft] using this

/-- Is there nothing but blanks? -/
def allBlank (s : List Char) : Bool := s.all isBlank

/-- The text without the blanks at its two ends. -/
def trimmed (s : String) : String := String.ofList (trim s.toList)

/-- The text without the blanks at its end. -/
def trimmedRight (s : String) : String := String.ofList (trimRight s.toList)

end DebugConsole.Text
