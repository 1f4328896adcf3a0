import DebugConsole.Numeral.Real
import DebugConsole.Numeral.Whole
import DebugConsole.Proofs.Text.Blanks

set_option autoImplicit false

/-!
# Texts of real numbers

Which texts are read as real numbers, said by a grammar: an optional sign before a word for infinity
or not-a-number, or before a decimal with an optional fraction and power of ten.  Every run of digits
takes the digits of any script, and single underscores between them.
-/

namespace DebugConsole.Numeral

open Text (decimalValue? isDecimal)

variable {c d : Char} {s rest : List Char} {v : Nat} {vs : List Nat}

/-! ## The grammar -/

/-- A run of digits, and their values. -/
inductive Digits : List Char → List Nat → Prop where
  | single {c : Char} {v : Nat} (hc : decimalValue? c = some v) : Digits [c] [v]
  | cons {c : Char} {v : Nat} {s : List Char} {vs : List Nat} (hc : decimalValue? c = some v)
      (hs : Digits s vs) : Digits (c :: s) (v :: vs)
  | grouped {c : Char} {v : Nat} {s : List Char} {vs : List Nat} (hc : decimalValue? c = some v)
      (hs : Digits s vs) : Digits (c :: '_' :: s) (v :: vs)

/-- A run of digits, or nothing. -/
def MayDigits (s : List Char) (vs : List Nat) : Prop := s = [] ∧ vs = [] ∨ Digits s vs

/-- A sign, or nothing: is what follows it negative? -/
inductive Sign : List Char → Bool → Prop where
  | absent : Sign [] false
  | plus : Sign ['+'] false
  | minus : Sign ['-'] true

/-- The digits before and behind the point; without the point there are digits, with it there are some
on either side of it. -/
inductive Mantissa : List Char → List Nat → List Nat → Prop where
  | whole {w : List Char} {ws : List Nat} (hw : Digits w ws) : Mantissa w ws []
  | pointed {w f : List Char} {ws fs : List Nat} (hw : MayDigits w ws) (hf : MayDigits f fs)
      (hne : ws ++ fs ≠ []) : Mantissa (w ++ '.' :: f) ws fs

/-- The power of ten, zero if it is not written. -/
inductive Power : List Char → Int → Prop where
  | absent : Power [] 0
  | written {e : Char} {signed s : List Char} {isNegative : Bool} {vs : List Nat} (he : e = 'e' ∨ e = 'E')
      (hsign : Sign signed isNegative) (hs : Digits s vs) :
      Power (e :: (signed ++ s)) (if isNegative then -(ofDigits 10 vs : Int) else ofDigits 10 vs)

/-- The text spells an unsigned decimal. -/
inductive Spells : List Char → RealText → Prop where
  | mk {m p : List Char} {ws fs : List Nat} {n : Int} (hm : Mantissa m ws fs) (hp : Power p n) :
      Spells (m ++ p) ⟨ws, fs, n⟩

/-- The words for the numbers that have no digits, in lower case. -/
def specialWords : List String := ["inf", "infinity", "nan"]

/-- The text of a real number. -/
inductive IsReal : List Char → Prop where
  | word {signed s : List Char} {isNegative : Bool} (hsign : Sign signed isNegative)
      (hs : String.ofList (s.map Char.toLower) ∈ specialWords) : IsReal (signed ++ s)
  | decimal {signed s : List Char} {isNegative : Bool} {t : RealText} (hsign : Sign signed isNegative)
      (hs : Spells s t) : IsReal (signed ++ s)

/-! ## Runs of digits -/

theorem isDecimal_of_decimalValue? (h : decimalValue? c = some v) : isDecimal c = true := by
  rw [isDecimal, h, Option.isSome_some]

theorem Digits.head (h : Digits s vs) : ∃ c rest, s = c :: rest ∧ isDecimal c = true := by
  cases h with
  | single hc => exact ⟨_, _, rfl, isDecimal_of_decimalValue? hc⟩
  | cons hc _ => exact ⟨_, _, rfl, isDecimal_of_decimalValue? hc⟩
  | grouped hc _ => exact ⟨_, _, rfl, isDecimal_of_decimalValue? hc⟩

theorem Digits.values_ne_nil (h : Digits s vs) : vs ≠ [] := by
  cases h <;> exact List.cons_ne_nil _ _

theorem MayDigits.digits (h : MayDigits s vs) (hne : vs ≠ []) : Digits s vs :=
  h.resolve_left fun hnil => hne hnil.2

/-- No run of digits goes on with the text. -/
def Ends (rest : List Char) : Prop := ∀ c ∈ rest.head?, isDecimal c = false ∧ c ≠ '_'

theorem ends_nil : Ends [] := fun _ hc => nomatch hc

theorem ends_cons (hdigit : isDecimal c = false) (hne : c ≠ '_') : Ends (c :: rest) := by
  intro d hd
  obtain rfl : c = d := Option.some.inj hd
  exact ⟨hdigit, hne⟩

theorem digitRun_of_ends (h : Ends rest) : digitRun rest = ([], rest) := by
  cases rest with
  | nil => rfl
  | cons c rest =>
    have hc : decimalValue? c = none := by simpa [isDecimal] using (h c rfl).1
    simp only [digitRun, hc]

theorem digitRun_cons (hc : decimalValue? c = some v) (hrest : ∀ d more, rest ≠ '_' :: d :: more) :
    digitRun (c :: rest) = (v :: (digitRun rest).1, (digitRun rest).2) := by
  rw [digitRun, hc]
  dsimp only
  split
  · exact absurd rfl (hrest _ _)
  · rfl

theorem digitRun_grouped (hc : decimalValue? c = some v) (hd : isDecimal d = true) :
    digitRun (c :: '_' :: d :: rest) = (v :: (digitRun (d :: rest)).1, (digitRun (d :: rest)).2) := by
  rw [digitRun, hc]
  simp only [hd, if_true, digitRun.underscored]

theorem digitRun_ne_nil (hc : isDecimal c = true) : (digitRun (c :: rest)).1 ≠ [] := by
  obtain ⟨v, hv⟩ := Option.isSome_iff_exists.1 hc
  rw [digitRun, hv]
  dsimp only
  split
  · split <;> exact List.cons_ne_nil _ _
  · exact List.cons_ne_nil _ _

/-- A run of digits is read as a whole, up to what does not go on with it. -/
theorem Digits.digitRun_append (h : Digits s vs) (hrest : Ends rest) :
    digitRun (s ++ rest) = (vs, rest) := by
  induction h with
  | single hc =>
    rw [List.singleton_append, digitRun_cons hc, digitRun_of_ends hrest]
    rintro d more rfl
    exact (hrest '_' rfl).2 rfl
  | cons hc hs ih =>
    rw [List.cons_append, digitRun_cons hc, ih]
    obtain ⟨d, behind, rfl, hd⟩ := hs.head
    intro d' more hmore
    obtain rfl : d = '_' := (List.cons.inj hmore).1
    exact absurd hd (by decide)
  | grouped hc hs ih =>
    obtain ⟨d, behind, rfl, hd⟩ := hs.head
    rw [List.cons_append] at ih
    rw [List.cons_append, List.cons_append, List.cons_append, digitRun_grouped hc hd, ih]

theorem MayDigits.digitRun_append (h : MayDigits s vs) (hrest : Ends rest) :
    digitRun (s ++ rest) = (vs, rest) := by
  obtain ⟨rfl, rfl⟩ | h := h
  · exact digitRun_of_ends hrest
  · exact h.digitRun_append hrest

/-- What is read as a run of digits is one. -/
theorem mayDigits_digitRun (s : List Char) :
    ∃ start, MayDigits start (digitRun s).1 ∧ s = start ++ (digitRun s).2 := by
  -- Along the recursion of the reader, which skips an underscore only in front of a digit: `case5`.
  induction s using digitRun.induct (fun s =>
    ∃ start, MayDigits start (digitRun s.tail).1 ∧ s.tail = start ++ (digitRun s.tail).2) with
  | case1 => exact ⟨[], .inl ⟨rfl, rfl⟩, rfl⟩
  | case2 _ rest ih => exact ih
  | case3 => exact ⟨[], .inl ⟨rfl, rfl⟩, rfl⟩
  | case4 c rest hc =>
    rw [digitRun, hc]
    exact ⟨[], .inl ⟨rfl, rfl⟩, rfl⟩
  | case5 c v hc d rest hd _ _ _ ih =>
    obtain ⟨start, hstart, hsplit⟩ := ih
    rw [digitRun_grouped hc hd]
    exact ⟨c :: '_' :: start, .inr (.grouped hc (hstart.digits (digitRun_ne_nil hd))),
      congrArg (c :: '_' :: ·) hsplit⟩
  | case6 c v hc d rest hd =>
    rw [digitRun, hc]
    simp only [hd]
    exact ⟨[c], .inr (.single hc), rfl⟩
  | case7 c rest v hc _ _ _ hrest ih =>
    obtain ⟨start, hstart, hsplit⟩ := ih
    rw [digitRun_cons hc hrest]
    obtain ⟨rfl, hnil⟩ | hstart := hstart
    · exact ⟨[c], .inr (hnil ▸ .single hc), congrArg (c :: ·) hsplit⟩
    · exact ⟨c :: start, .inr (.cons hc hstart), congrArg (c :: ·) hsplit⟩

/-! ## Signs and powers -/

/-- The text starts with no sign. -/
def Unsigned (s : List Char) : Prop := ∀ c ∈ s.head?, c ≠ '+' ∧ c ≠ '-'

theorem Sign.sign_append {signed : List Char} {isNegative : Bool} (h : Sign signed isNegative)
    (hs : Unsigned s) : sign (signed ++ s) = (isNegative, s) := by
  cases h with
  | absent =>
    rw [List.nil_append]
    unfold sign
    split
    · exact absurd rfl (hs _ rfl).2
    · exact absurd rfl (hs _ rfl).1
    · rfl
  | plus => rfl
  | minus => rfl

theorem sign_split (s : List Char) : ∃ signed, Sign signed (sign s).1 ∧ s = signed ++ (sign s).2 := by
  unfold sign
  split
  · exact ⟨_, .minus, rfl⟩
  · exact ⟨_, .plus, rfl⟩
  · exact ⟨_, .absent, rfl⟩

theorem Digits.unsigned_append (h : Digits s vs) (rest : List Char) : Unsigned (s ++ rest) := by
  obtain ⟨d, behind, rfl, hd⟩ := h.head
  intro c hc
  obtain rfl : d = c := Option.some.inj hc
  constructor <;> rintro rfl <;> exact absurd hd (by decide)

theorem power?_cons {e : Char} (he : e = 'e' ∨ e = 'E') {isNegative : Bool} {signed : List Char}
    (hsign : Sign signed isNegative) (hs : Digits s vs) :
    power? (e :: (signed ++ s)) =
      some (if isNegative then -(ofDigits 10 vs : Int) else ofDigits 10 vs) := by
  have hletter : (e == 'e' || e == 'E') = true := by simpa using he
  have hrun := hs.digitRun_append ends_nil
  have hunsigned := hs.unsigned_append []
  rw [List.append_nil] at hrun hunsigned
  rw [power?, if_pos hletter, hsign.sign_append hunsigned]
  dsimp only
  rw [hrun]
  obtain ⟨v, vs, rfl⟩ := List.exists_cons_of_ne_nil hs.values_ne_nil
  rfl

theorem power?_eq_some_iff {n : Int} : power? s = some n ↔ Power s n := by
  constructor
  · intro h
    cases s with
    | nil => exact Option.some.inj h ▸ .absent
    | cons e rest =>
      rw [power?] at h
      split at h
      · next he =>
        obtain ⟨signed, hsign, hsplit⟩ := sign_split rest
        obtain ⟨start, hstart, hdigits⟩ := mayDigits_digitRun (sign rest).2
        dsimp only at h
        split at h
        · next v vs hrun =>
          rw [hrun] at hstart hdigits
          dsimp only at hstart hdigits
          rw [List.append_nil] at hdigits
          subst hdigits
          rw [hsplit, ← Option.some.inj h]
          exact .written (by simpa using he) hsign (hstart.digits (List.cons_ne_nil _ _))
        · cases h
      · cases h
  · rintro (_ | ⟨he, hsign, hs⟩)
    · rfl
    · exact power?_cons he hsign hs

/-! ## Decimals -/

theorem Power.ends {n : Int} (h : Power s n) : Ends s ∧ ∀ more, s ≠ '.' :: more := by
  cases h with
  | absent => exact ⟨ends_nil, fun _ h => nomatch h⟩
  | written he _ _ =>
    obtain rfl | rfl := he
    · exact ⟨ends_cons (by decide) (by decide), fun _ h => absurd (List.cons.inj h).1 (by decide)⟩
    · exact ⟨ends_cons (by decide) (by decide), fun _ h => absurd (List.cons.inj h).1 (by decide)⟩

/-- A decimal without a point. -/
theorem realText?_of_whole {ws : List Nat} (h : digitRun s = (ws, rest))
    (hpoint : ∀ more, rest ≠ '.' :: more) :
    realText? s = if ws = [] then none else (power? rest).map (⟨ws, [], ·⟩) := by
  unfold realText?
  rw [h]
  dsimp only
  split
  · exact absurd rfl (hpoint _)
  · simp only [List.isEmpty_nil, Bool.and_true, List.isEmpty_iff]

/-- A decimal with a point. -/
theorem realText?_of_pointed {ws : List Nat} {more : List Char} (h : digitRun s = (ws, '.' :: more)) :
    realText? s = if ws ++ (digitRun more).1 = [] then none
      else (power? (digitRun more).2).map (⟨ws, (digitRun more).1, ·⟩) := by
  rw [realText?, h]
  simp only [Bool.and_eq_true, List.isEmpty_iff, List.append_eq_nil_iff]

theorem realText?_eq_some_iff {t : RealText} : realText? s = some t ↔ Spells s t := by
  constructor
  · intro h
    obtain ⟨w, hw, hsplit⟩ := mayDigits_digitRun s
    obtain ⟨ws, rest, hrun⟩ : ∃ ws rest, digitRun s = (ws, rest) := ⟨_, _, rfl⟩
    rw [hrun] at hw hsplit
    by_cases hpoint : ∃ more, rest = '.' :: more
    · obtain ⟨more, rfl⟩ := hpoint
      obtain ⟨f, hf, hmore⟩ := mayDigits_digitRun more
      rw [realText?_of_pointed hrun] at h
      split at h
      · cases h
      · next hne =>
        obtain ⟨n, hn, rfl⟩ := Option.map_eq_some_iff.1 h
        have hs : s = (w ++ '.' :: f) ++ (digitRun more).2 := by
          rw [hsplit, List.append_assoc, List.cons_append, ← hmore]
        rw [hs]
        exact .mk (.pointed hw hf hne) (power?_eq_some_iff.1 hn)
    · rw [realText?_of_whole hrun (fun more hmore => hpoint ⟨more, hmore⟩)] at h
      split at h
      · cases h
      · next hne =>
        obtain ⟨n, hn, rfl⟩ := Option.map_eq_some_iff.1 h
        rw [hsplit]
        exact .mk (.whole (hw.digits hne)) (power?_eq_some_iff.1 hn)
  · rintro @⟨m, p, ws, fs, n, hm, hp⟩
    obtain ⟨hends, hpoint⟩ := hp.ends
    cases hm with
    | whole hw =>
      rw [realText?_of_whole (hw.digitRun_append hends) hpoint, if_neg hw.values_ne_nil,
        power?_eq_some_iff.2 hp, Option.map_some]
    | @pointed w f _ _ hw hf hne =>
      have hwhole : digitRun (w ++ '.' :: f ++ p) = (ws, '.' :: (f ++ p)) := by
        rw [List.append_assoc]
        exact hw.digitRun_append (ends_cons (by decide) (by decide))
      rw [realText?_of_pointed hwhole, hf.digitRun_append hends, if_neg hne, power?_eq_some_iff.2 hp,
        Option.map_some]

/-! ## Real numbers -/

theorem isSome_specialWord?_iff :
    (specialWord? s).isSome = true ↔ String.ofList (s.map Char.toLower) ∈ specialWords := by
  unfold specialWord?
  split
  · next h => simp [specialWords, h]
  · next h => simp [specialWords, h]
  · next h => simp [specialWords, h]
  · next hinf hinfinity hnan => simpa [specialWords] using ⟨hinf, hinfinity, hnan⟩

theorem unsigned_of_mem_specialWords (h : String.ofList (s.map Char.toLower) ∈ specialWords) :
    Unsigned s := by
  have hwords : ∀ w ∈ specialWords, w.toList.head? ≠ some '+' ∧ w.toList.head? ≠ some '-' := by decide
  obtain ⟨hplus, hminus⟩ := hwords _ h
  intro c hc
  have hlower : (String.ofList (s.map Char.toLower)).toList.head? = some c.toLower := by
    rw [String.toList_ofList, List.head?_map, show s.head? = some c from hc]
    rfl
  constructor
  · rintro rfl
    exact hplus (hlower.trans (by decide))
  · rintro rfl
    exact hminus (hlower.trans (by decide))

theorem Spells.unsigned {t : RealText} (h : Spells s t) : Unsigned s := by
  obtain ⟨hm, -⟩ := h
  cases hm with
  | whole hw => exact hw.unsigned_append _
  | pointed hw _ _ =>
    rw [List.append_assoc]
    obtain ⟨rfl, -⟩ | hw := hw
    · rintro c hc
      obtain rfl := Option.some.inj hc
      decide
    · exact hw.unsigned_append _

theorem isReal_iff : IsReal s ↔
    (specialWord? (sign s).2).isSome = true ∨ (realText? (sign s).2).isSome = true := by
  rw [isSome_specialWord?_iff, Option.isSome_iff_exists]
  constructor
  · rintro (⟨hsign, hword⟩ | ⟨hsign, hdecimal⟩)
    · rw [hsign.sign_append (unsigned_of_mem_specialWords hword)]
      exact .inl hword
    · rw [hsign.sign_append hdecimal.unsigned]
      exact .inr ⟨_, realText?_eq_some_iff.2 hdecimal⟩
  · obtain ⟨signed, hsign, hsplit⟩ := sign_split s
    rintro (hword | ⟨t, ht⟩) <;> rw [hsplit]
    · exact .word hsign hword
    · exact .decimal hsign (realText?_eq_some_iff.1 ht)

instance : DecidablePred IsReal := fun _ => decidable_of_iff' _ isReal_iff

/-- A text is read as a real number exactly when, without the blanks at its ends, it is one of the
grammar. -/
theorem isSome_readReal?_iff {s : String} :
    (readReal? s).isSome = true ↔ IsReal (Text.trim s.toList) := by
  rw [isReal_iff, ← Bool.or_eq_true]
  simp only [readReal?, Option.isSome_map, Option.orElse_eq_or, Option.isSome_or]

example : IsReal "-1_0.5e+3".toList ∧ IsReal "٣.".toList ∧ ¬ IsReal "1__0".toList ∧ ¬ IsReal ".e5".toList := by
  decide +kernel

end DebugConsole.Numeral
