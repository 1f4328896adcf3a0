import DebugConsole.Text.Blank
import DebugConsole.Text.Cut
import DebugConsole.Text.Digit
import DebugConsole.Text.Word

set_option autoImplicit false
set_option maxRecDepth 4000

/-!
# Blanks, runs and the classes of characters

Trimming a text does not depend on the blanks at its ends, and leaves a text alone that has none.  Digits,
names and blanks are told apart: no character of a name is blank, and no blank is a digit.
-/

namespace DebugConsole.Text

variable {p : Char → Bool} {c : Char} {s start rest lead trail : List Char}

/-! ## Runs -/

theorem dropWhile_eq_self_of_head (h : ∀ c ∈ s.head?, p c = false) : s.dropWhile p = s := by
  cases s with
  | nil => rfl
  | cons c s => rw [List.dropWhile_cons_of_neg (by simp [h c rfl])]

/-- What is dropped from the start of a text does not depend on what follows a character that stays. -/
theorem dropWhile_append_of_head (h : ∀ c ∈ rest.head?, p c = false) :
    (s ++ rest).dropWhile p = s.dropWhile p ++ rest := by
  rw [List.dropWhile_append, dropWhile_eq_self_of_head h]
  split
  · next hs => rw [List.isEmpty_iff.1 hs, List.nil_append]
  · rfl

theorem mem_run (h : c ∈ (run p s).1) : p c = true := List.all_eq_true.1 List.all_takeWhile c h

theorem run_append_of_all (hall : ∀ c ∈ start, p c = true) (hrest : ∀ c ∈ rest.head?, p c = false) :
    run p (start ++ rest) = (start, rest) := by
  have htake : (start ++ rest).takeWhile p = start := by
    rw [List.takeWhile_append_of_pos hall]
    cases rest with
    | nil => simp
    | cons c rest => simp [hrest c rfl]
  have hdrop : (start ++ rest).dropWhile p = rest := by
    rw [List.dropWhile_append_of_pos hall, dropWhile_eq_self_of_head hrest]
  rw [run, htake, hdrop]

theorem run?_append_of_all (hne : start ≠ []) (hall : ∀ c ∈ start, p c = true)
    (hrest : ∀ c ∈ rest.head?, p c = false) : run? p (start ++ rest) = some (start, rest) := by
  rw [run?, run_append_of_all hall hrest]
  cases start with
  | nil => exact absurd rfl hne
  | cons c start => rfl

theorem mem_of_run? (h : run? p s = some (start, rest)) (hc : c ∈ start) : p c = true := by
  unfold run? at h
  split at h
  · cases h
  · have hstart : (run p s).1 = start := congrArg Prod.fst (Option.some.inj h)
    exact mem_run (by rwa [hstart])

theorem dropWhile_of_run? (h : run? p s = some (start, rest)) : s.dropWhile p = rest := by
  unfold run? run at h
  split at h
  · cases h
  · exact (Prod.mk.inj (Option.some.inj h)).2

theorem run?_eq_none (h : ∀ c ∈ s.head?, p c = false) : run? p s = none := by
  cases s with
  | nil => rfl
  | cons c s => simp [run?, run, h c rfl]

/-! ## Trimming -/

theorem trimLeft_append (h : ∀ c ∈ lead, isBlank c = true) : trimLeft (lead ++ s) = trimLeft s :=
  List.dropWhile_append_of_pos h

theorem trimRight_append (h : ∀ c ∈ trail, isBlank c = true) :
    trimRight (s ++ trail) = trimRight s := by
  unfold trimRight
  rw [List.reverse_append, List.dropWhile_append_of_pos fun c hc => h c (List.mem_reverse.1 hc)]

theorem trimLeft_eq_self (h : ∀ c ∈ s.head?, isBlank c = false) : trimLeft s = s :=
  dropWhile_eq_self_of_head h

theorem trimRight_eq_self (h : ∀ c ∈ s.getLast?, isBlank c = false) : trimRight s = s := by
  have hreverse := trimLeft_eq_self (s := s.reverse) (by rwa [List.head?_reverse])
  unfold trimRight
  rw [show s.reverse.dropWhile isBlank = s.reverse from hreverse, List.reverse_reverse]

/-- Behind a text that ends in no blank, the blanks at the end belong to what follows it. -/
theorem trimRight_append_of_last {s : List Char} (h : ∀ c ∈ s.getLast?, isBlank c = false)
    (rest : List Char) : trimRight (s ++ rest) = s ++ trimRight rest := by
  have hhead : ∀ c ∈ s.reverse.head?, isBlank c = false := by rwa [List.head?_reverse]
  unfold trimRight
  rw [List.reverse_append, dropWhile_append_of_head hhead, List.reverse_append, List.reverse_reverse]

/-- The blanks around a text that has none at its own ends are cut from it. -/
theorem trim_append (hlead : ∀ c ∈ lead, isBlank c = true) (htrail : ∀ c ∈ trail, isBlank c = true)
    (hhead : ∀ c ∈ s.head?, isBlank c = false) (hlast : ∀ c ∈ s.getLast?, isBlank c = false) :
    trim (lead ++ (s ++ trail)) = s := by
  unfold trim
  rw [trimLeft_append hlead]
  cases s with
  | nil =>
    rw [List.nil_append, ← List.append_nil trail, trimLeft_append htrail]
    rfl
  | cons c s =>
    rw [trimLeft_eq_self (by simpa using hhead), trimRight_append htrail, trimRight_eq_self hlast]

/-- What `trim` cuts is blank. -/
theorem trim_split (s : List Char) : ∃ lead trail, s = lead ++ (trim s ++ trail) ∧
    (∀ c ∈ lead, isBlank c = true) ∧ ∀ c ∈ trail, isBlank c = true := by
  obtain ⟨lead, hs, hlead⟩ := trimLeft_split s
  obtain ⟨trail, htrim, htrail⟩ := trimRight_split (trimLeft s)
  exact ⟨lead, trail, hs.trans (congrArg (lead ++ ·) htrim), hlead, htrail⟩

theorem trim_infix (s : List Char) : trim s <:+: s := by
  obtain ⟨lead, trail, hs, -⟩ := trim_split s
  exact ⟨lead, trail, by rw [List.append_assoc, ← hs]⟩

theorem isBlank_of_head?_trimLeft (h : c ∈ (trimLeft s).head?) : isBlank c = false := by
  have hhead := List.head?_dropWhile_not isBlank s
  rwa [show (s.dropWhile isBlank).head? = some c from h] at hhead

theorem isBlank_of_getLast?_trimRight (h : c ∈ (trimRight s).getLast?) : isBlank c = false := by
  rw [trimRight, List.getLast?_reverse] at h
  exact isBlank_of_head?_trimLeft h

theorem isBlank_of_head?_trim (h : c ∈ (trim s).head?) : isBlank c = false := by
  -- What is cut at the end leaves the start of a text alone, unless nothing is left.
  obtain ⟨blanks, hs, -⟩ := trimRight_split (trimLeft s)
  have hhead : (trimRight (trimLeft s)).head? = some c := h
  refine isBlank_of_head?_trimLeft (s := s) ?_
  rw [hs, List.head?_append, hhead]
  rfl

/-- A text is left alone by trimming exactly when neither of its ends is blank. -/
theorem trim_eq_self_iff :
    trim s = s ↔ (∀ c ∈ s.head?, isBlank c = false) ∧ ∀ c ∈ s.getLast?, isBlank c = false := by
  constructor
  · intro h
    rw [← h]
    exact ⟨fun _ => isBlank_of_head?_trim, fun _ => isBlank_of_getLast?_trimRight⟩
  · rintro ⟨hhead, hlast⟩
    rw [trim, trimLeft_eq_self hhead, trimRight_eq_self hlast]

theorem trim_trim : trim (trim s) = trim s :=
  trim_eq_self_iff.2 ⟨fun _ => isBlank_of_head?_trim, fun _ => isBlank_of_getLast?_trimRight⟩

theorem trimmed_trimmed (s : String) : trimmed (trimmed s) = trimmed s := by
  rw [trimmed, trimmed, String.toList_ofList, trim_trim]

theorem trim_eq_nil_iff : trim s = [] ↔ allBlank s = true := by
  constructor
  · intro h
    obtain ⟨lead, hs, hlead⟩ := trimLeft_split s
    obtain ⟨trail, htrim, htrail⟩ := trimRight_split (trimLeft s)
    have hnil : trimRight (trimLeft s) = [] := h
    rw [htrim, hnil, List.nil_append] at hs
    rw [allBlank, hs, List.all_append, List.all_eq_true.2 hlead, List.all_eq_true.2 htrail]
    rfl
  · intro h
    have hnil : trimLeft s = [] := by
      rw [← List.append_nil s, trimLeft_append (List.all_eq_true.1 h), trimLeft_nil]
    rw [trim, hnil, trimRight_nil]

/-! ## Classes of characters -/

/-- The code points of the blanks. -/
def blankRanges : List CodeRange :=
  [(9, 13), (28, 32), (0x85, 0x85), (0xa0, 0xa0), (0x1680, 0x1680), (0x2000, 0x200a), (0x2028, 0x2028),
    (0x2029, 0x2029), (0x202f, 0x202f), (0x205f, 0x205f), (0x3000, 0x3000)]

theorem isBlank_iff_inRanges : isBlank c = true ↔ inRanges blankRanges c = true := by
  simp only [isBlank, inRanges, blankRanges, List.any_cons, List.any_nil, Bool.or_eq_true,
    Bool.and_eq_true, decide_eq_true_eq, beq_iff_eq, Bool.or_false]
  omega

/-- No character lies both in the one and in the other ranges, if these have no code point in common. -/
theorem not_inRanges_of_disjoint {ranges ranges' : List CodeRange}
    (h : ∀ r ∈ ranges, ∀ r' ∈ ranges', r.2 < r'.1 ∨ r'.2 < r.1) (hc : inRanges ranges c = true) :
    ¬ inRanges ranges' c = true := by
  intro hc'
  obtain ⟨r, hr, hlow, hhigh⟩ := inRanges_iff.1 hc
  obtain ⟨r', hr', hlow', hhigh'⟩ := inRanges_iff.1 hc'
  have := h r hr r' hr'
  omega

/-- The code points of the characters of names. -/
def nameRanges : List CodeRange := [(36, 36), (48, 57), (65, 90), (95, 95), (97, 122)] ++ wordRanges

/-- What holds of the code points of ASCII holds of its characters. -/
theorem of_ascii {P : Char → Prop} (h : ∀ n < 128, P (Char.ofNat n)) (hc : c.toNat < 128) : P c := by
  have hcode := h c.toNat hc
  rwa [Char.ofNat_toNat] at hcode

theorem inRanges_of_isAlphanum (hc : c.toNat < 128) (h : c.isAlphanum = true) :
    inRanges nameRanges c = true :=
  of_ascii (P := fun c => c.isAlphanum = true → inRanges nameRanges c = true) (by decide +kernel) hc h

theorem inRanges_of_isName (h : isName c = true) : inRanges nameRanges c = true := by
  rw [isName, Bool.or_eq_true, beq_iff_eq] at h
  rcases h with h | rfl
  · unfold isWord at h
    split at h
    · next hc =>
      rw [Bool.or_eq_true, beq_iff_eq] at h
      rcases h with h | rfl
      · exact inRanges_of_isAlphanum hc h
      · decide +kernel
    · obtain ⟨r, hr, hc⟩ := inRanges_iff.1 h
      exact inRanges_iff.2 ⟨r, List.mem_append_right _ hr, hc⟩
  · decide +kernel

/-- The code points of the digits. -/
def decimalRanges : List CodeRange := (48, 57) :: digitZeros.map fun first => (first, first + 9)

theorem inRanges_of_isDecimal (h : isDecimal c = true) : inRanges decimalRanges c = true := by
  simp only [isDecimal, decimalValue?] at h
  split at h
  · split at h
    · next hc =>
      simp only [Bool.and_eq_true, decide_eq_true_eq] at hc
      exact inRanges_iff.2 ⟨(48, 57), List.mem_cons_self, hc.1, by omega⟩
    · cases h
  · rw [Option.isSome_map] at h
    obtain ⟨first, hfirst⟩ := Option.isSome_iff_exists.1 h
    have hmem := List.mem_of_find?_eq_some hfirst
    have hc := List.find?_some hfirst
    simp only [Bool.and_eq_true, decide_eq_true_eq] at hc
    exact inRanges_iff.2 ⟨(first, first + 9), List.mem_cons_of_mem _ (List.mem_map_of_mem hmem), hc.1,
      by omega⟩

theorem isBlank_of_isName (h : isName c = true) : isBlank c = false := by
  rw [← Bool.not_eq_true, isBlank_iff_inRanges]
  exact not_inRanges_of_disjoint (by decide +kernel) (inRanges_of_isName h)

theorem isBlank_of_isHex (h : isHex c = true) : isBlank c = false := by
  have hc : inRanges [(48, 57), (65, 70), (97, 102)] c = true := by
    simp only [isHex, hexValue?, Bool.and_eq_true, decide_eq_true_eq] at h
    simp only [inRanges, List.any_cons, List.any_nil, Bool.or_eq_true, Bool.and_eq_true,
      decide_eq_true_eq]
    grind
  rw [← Bool.not_eq_true, isBlank_iff_inRanges]
  exact not_inRanges_of_disjoint (by decide) hc

theorem isBlank_of_isDecimal (h : isDecimal c = true) : isBlank c = false := by
  rw [← Bool.not_eq_true, isBlank_iff_inRanges]
  exact not_inRanges_of_disjoint (by decide +kernel) (inRanges_of_isDecimal h)

end DebugConsole.Text
