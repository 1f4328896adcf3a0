import DebugConsole.Proofs.Text.Blanks
import DebugConsole.Text.Upper

set_option autoImplicit false
set_option maxRecDepth 4000

/-!
# Capitals and blanks

Upper-casing neither drops a character nor makes a blank of one that was none, although a letter may
become several characters.  A text that has no blank at its ends has none there in capitals, either.
-/

namespace DebugConsole.Text

variable {c d : Char} {s : List Char}

/-! ## The capital form of a character -/

/-- Where the capital form of a character comes from: ASCII, either table, or the character itself. -/
theorem capital_cases (c : Char) :
    (c.toNat < 128 ∧ capital c = [c.toUpper]) ∨
    (∃ w ∈ wideCapitals, capital c = w.2.map Char.ofNat) ∨
    (∃ r ∈ capitalRuns, r.first ≤ c.toNat ∧ c.toNat ≤ r.last ∧
      capital c = [Char.ofNat (c.toNat + r.shift).toNat]) ∨
    capital c = [c] := by
  simp only [capital]
  split
  · next hascii => exact .inl ⟨hascii, rfl⟩
  · split
    · next wide hwide =>
      obtain ⟨before, behind, htable, -⟩ := List.lookup_eq_some_iff.1 hwide
      exact .inr (.inl ⟨_, htable ▸ List.mem_append_right _ List.mem_cons_self, rfl⟩)
    · split
      · next r hr =>
        have hbounds := List.find?_some hr
        simp only [Bool.and_eq_true, decide_eq_true_eq] at hbounds
        exact .inr (.inr (.inl ⟨r, List.mem_of_find?_eq_some hr, hbounds.1.1, hbounds.1.2, rfl⟩))
      · exact .inr (.inr (.inr rfl))

/-- No blank lies between the capitals of the first and the last letter of the run. -/
def CaseRun.IsClear (r : CaseRun) : Prop :=
  ∀ b ∈ blankRanges, r.last + r.shift < b.1 ∨ (b.2 : Int) < r.first + r.shift

instance (r : CaseRun) : Decidable r.IsClear :=
  inferInstanceAs (Decidable (∀ b ∈ blankRanges, _))

theorem isClear_of_mem_capitalRuns : ∀ r ∈ capitalRuns, r.IsClear := by decide +kernel

theorem CaseRun.IsClear.isBlank_ofNat {r : CaseRun} (hr : r.IsClear) {n : Nat} (hfirst : r.first ≤ n)
    (hlast : n ≤ r.last) : isBlank (Char.ofNat (n + r.shift).toNat) = false := by
  -- A code point that no character has gives the character zero, which is not blank.
  have hcode : ∀ k, (Char.ofNat k).toNat = k ∨ (Char.ofNat k).toNat = 0 := by
    intro k
    by_cases hk : k.isValidChar
    · rw [Char.ofNat, dif_pos hk]
      exact .inl rfl
    · rw [Char.ofNat, dif_neg hk]
      exact .inr rfl
  have hpos : ∀ b ∈ blankRanges, 0 < b.1 := by decide
  rw [← Bool.not_eq_true, isBlank_iff_inRanges, inRanges_iff]
  rintro ⟨b, hb, hlow, hhigh⟩
  have := hr b hb
  have := hpos b hb
  have := hcode (n + r.shift).toNat
  omega

theorem capital_ne_nil (c : Char) : capital c ≠ [] := by
  have hwide : ∀ w ∈ wideCapitals, w.2 ≠ [] := by decide +kernel
  obtain ⟨-, h⟩ | ⟨w, hw, h⟩ | ⟨r, -, -, -, h⟩ | h := capital_cases c <;> rw [h]
  · exact List.cons_ne_nil _ _
  · exact fun hnil => hwide w hw (List.map_eq_nil_iff.1 hnil)
  · exact List.cons_ne_nil _ _
  · exact List.cons_ne_nil _ _

theorem isBlank_of_mem_capital (hc : isBlank c = false) (hd : d ∈ capital c) : isBlank d = false := by
  obtain ⟨hascii, h⟩ | ⟨w, hw, h⟩ | ⟨r, hr, hfirst, hlast, h⟩ | h := capital_cases c <;> rw [h] at hd
  · rw [List.mem_singleton.1 hd]
    exact of_ascii (P := fun c => isBlank c = false → isBlank c.toUpper = false) (by decide +kernel) hascii hc
  · have hwide : ∀ w ∈ wideCapitals, ∀ n ∈ w.2, isBlank (Char.ofNat n) = false := by decide +kernel
    obtain ⟨n, hn, rfl⟩ := List.mem_map.1 hd
    exact hwide w hw n hn
  · rw [List.mem_singleton.1 hd]
    exact (isClear_of_mem_capitalRuns r hr).isBlank_ofNat hfirst hlast
  · rwa [List.mem_singleton.1 hd]

/-! ## Texts in capitals -/

theorem isBlank_of_head?_flatMap_capital (hs : ∀ c ∈ s.head?, isBlank c = false) :
    ∀ c ∈ (s.flatMap capital).head?, isBlank c = false := by
  cases s with
  | nil => exact hs
  | cons c s =>
    obtain ⟨first, rest, hcapital⟩ := List.exists_cons_of_ne_nil (capital_ne_nil c)
    intro d hd
    rw [List.flatMap_cons, hcapital, List.cons_append, List.head?_cons, Option.mem_some_iff] at hd
    exact isBlank_of_mem_capital (hs c rfl) (hcapital ▸ hd ▸ List.mem_cons_self)

theorem isBlank_of_getLast?_flatMap_capital (hs : ∀ c ∈ s.getLast?, isBlank c = false) :
    ∀ c ∈ (s.flatMap capital).getLast?, isBlank c = false := by
  obtain rfl | ⟨start, c, rfl⟩ := s.eq_nil_or_concat
  · exact hs
  · obtain ⟨last, hlast⟩ := Option.ne_none_iff_exists'.1 (mt List.getLast?_eq_none_iff.1 (capital_ne_nil c))
    intro d hd
    rw [List.concat_eq_append, List.flatMap_append, List.flatMap_singleton, List.getLast?_append, hlast]
      at hd
    obtain rfl : last = d := Option.some.inj hd
    exact isBlank_of_mem_capital (hs c (by simp)) (List.mem_of_mem_getLast? hlast)

theorem trimmed_toUpper {s : String} (h : trimmed s = s) : trimmed (toUpper s) = toUpper s := by
  have htrim : trim s.toList = s.toList := by rw [← h, trimmed, String.toList_ofList, trim_trim]
  obtain ⟨hhead, hlast⟩ := trim_eq_self_iff.1 htrim
  rw [trimmed, toUpper, String.toList_ofList, trim_eq_self_iff.2
    ⟨isBlank_of_head?_flatMap_capital hhead, isBlank_of_getLast?_flatMap_capital hlast⟩]

theorem toUpper_ne_empty {s : String} (h : s ≠ "") : toUpper s ≠ "" := by
  rw [toUpper, Ne, String.ofList_eq_empty_iff, List.flatMap_eq_nil_iff]
  intro hnil
  obtain ⟨c, hc⟩ := List.exists_mem_of_ne_nil s.toList (mt String.toList_eq_nil_iff.1 h)
  exact capital_ne_nil c (hnil c hc)

end DebugConsole.Text
