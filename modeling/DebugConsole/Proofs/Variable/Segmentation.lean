import DebugConsole.Proofs.Variable.Balance
import DebugConsole.Proofs.Variable.Expansion

set_option autoImplicit false

/-!
# Cutting undoes joining

All that cutting a text needs to know of what has been read is the state of the scanner (`Scanner.scan?`).
A text that leads from the start back to the start, and in which no comma is read there, is one segment
(`Segments.IsSegment`); these are just the texts that the grammar of pairs derives (`isSegment_iff_isPart`).

What is cut off is a segment always, since the blanks that are trimmed from it neither open nor close
anything.  So cutting undoes joining for the lists of segments and for no other lists, and what a text is
cut into is such a list (`split_joined_iff`).
-/

namespace DebugConsole.Segments

open Text (isBlank)

variable {inBraces : Bool} {depth : Nat} {c mark : Char} {s s' : Scanner} {body : String}
  {text inside segment rest blanks : List Char} {parts : List (List Char)}

/-! ## The state after a text -/

namespace Scanner

/-- The state after a text; a closing brace without its opening one leaves none. -/
def scan? (s : Scanner) : List Char → Option Scanner
  | [] => some s
  | c :: rest => (s.next? c).bind fun s' => s'.scan? rest

theorem scan?_append (s : Scanner) (text rest : List Char) :
    s.scan? (text ++ rest) = (s.scan? text).bind fun s' => s'.scan? rest := by
  induction text generalizing s with
  | nil => rfl
  | cons c text ih =>
    rw [List.cons_append, scan?, scan?, Option.bind_assoc]
    simp only [ih]

theorem scan?_concat (s : Scanner) (text : List Char) (c : Char) :
    s.scan? (text ++ [c]) = (s.scan? text).bind fun s' => s'.next? c := by
  rw [scan?_append]
  congr 1
  funext s'
  rw [scan?]
  cases s'.next? c <;> rfl

/-- What a text outside of quotations starts with, and the state behind it. -/
theorem scan?_plain_cases (h : scan? ⟨depth, .plain⟩ (c :: rest) = some s) :
    (c = '"' ∨ c = '\'') ∧ scan? ⟨depth, .quoted c⟩ rest = some s ∨
      c = '{' ∧ scan? ⟨depth + 1, .plain⟩ rest = some s ∨
      (∃ outer, depth = outer + 1 ∧ c = '}' ∧ scan? ⟨outer, .plain⟩ rest = some s) ∨
      c = ',' ∧ scan? ⟨depth, .plain⟩ rest = some s ∨
      c ∉ special ∧ scan? ⟨depth, .plain⟩ rest = some s := by
  by_cases hquote : c = '"' ∨ c = '\''
  · refine .inl ⟨hquote, ?_⟩
    rcases hquote with rfl | rfl <;> exact h
  · by_cases hopen : c = '{'
    · subst hopen
      exact .inr (.inl ⟨rfl, h⟩)
    · by_cases hclose : c = '}'
      · subst hclose
        cases depth with
        | zero => cases h
        | succ outer => exact .inr (.inr (.inl ⟨outer, rfl, rfl, h⟩))
      · have hplain : scan? ⟨depth, .plain⟩ rest = some s := by
          rw [not_or] at hquote
          simpa [scan?, next?, hquote.1, hquote.2, hopen, hclose] using h
        by_cases hcomma : c = ','
        · exact .inr (.inr (.inr (.inl ⟨hcomma, hplain⟩)))
        · rw [not_or] at hquote
          refine .inr (.inr (.inr (.inr ⟨?_, hplain⟩)))
          simp [special, hquote.1, hquote.2, hopen, hclose, hcomma]

end Scanner

open Scanner (scan? scan?_append scan?_concat scan?_plain_cases)

/-! ## Balanced texts -/

theorem Inside.scan? (h : Inside mark inside) (hmark : mark ≠ '\\') (depth : Nat) (rest : List Char) :
    Scanner.scan? ⟨depth, .quoted mark⟩ (inside ++ mark :: rest) = Scanner.scan? ⟨depth, .plain⟩ rest := by
  induction h with
  | nil => simp [Scanner.scan?, Scanner.next?, hmark]
  | plain hc _ ih => simpa [Scanner.scan?, Scanner.next?, hc.1, hc.2] using ih
  | escape c _ ih => simpa [Scanner.scan?, Scanner.next?] using ih

/-- After a balanced text the scanner stands where it stood before. -/
theorem Balanced.scan? (h : Balanced inBraces text) (depth : Nat) :
    Scanner.scan? ⟨depth, .plain⟩ text = some ⟨depth, .plain⟩ := by
  induction h generalizing depth with
  | nil => rfl
  | plain hc _ ih =>
    simp only [special, List.mem_cons, List.not_mem_nil, or_false, not_or] at hc
    obtain ⟨-, hopen, hclose, hdouble, hsingle⟩ := hc
    simpa [Scanner.scan?, Scanner.next?, hopen, hclose, hdouble, hsingle] using ih depth
  | comma _ ih => exact ih depth
  | @quotation _ mark inside rest hmark hinside _ ih =>
    have hopens : Scanner.next? ⟨depth, .plain⟩ mark = some ⟨depth, .quoted mark⟩ := by
      rcases hmark with rfl | rfl <;> rfl
    have hbackslash : mark ≠ '\\' := by rcases hmark with rfl | rfl <;> decide
    rw [Scanner.scan?, hopens, Option.bind_some, hinside.scan? hbackslash, ih]
  | @braces _ inside rest _ _ ihinside ih =>
    have hopens : Scanner.next? ⟨depth, .plain⟩ '{' = some ⟨depth + 1, .plain⟩ := rfl
    rw [Scanner.scan?, hopens, Option.bind_some, scan?_append, ihinside, Option.bind_some]
    exact ih depth

/-- A quotation that ends has a mark at its end. -/
theorem exists_inside (hs : s.mode = .plain) (text : List Char) :
    (scan? ⟨depth, .quoted mark⟩ text = some s → ∃ inside rest, text = inside ++ mark :: rest ∧
      Inside mark inside ∧ scan? ⟨depth, .plain⟩ rest = some s) ∧
    (scan? ⟨depth, .escaped mark⟩ text = some s → ∃ c inside rest, text = c :: (inside ++ mark :: rest) ∧
      Inside mark inside ∧ scan? ⟨depth, .plain⟩ rest = some s) := by
  induction text with
  | nil => refine ⟨?_, ?_⟩ <;> rintro ⟨⟩ <;> cases hs
  | cons c text ih =>
    refine ⟨fun h => ?_, fun h => ?_⟩
    · by_cases hbackslash : c = '\\'
      · subst hbackslash
        obtain ⟨d, inside, rest, rfl, hinside, hrest⟩ := ih.2 h
        exact ⟨'\\' :: d :: inside, rest, rfl, .escape d hinside, hrest⟩
      · by_cases hmark : c = mark
        · subst hmark
          have hrest : scan? ⟨depth, .plain⟩ text = some s := by
            simpa [Scanner.scan?, Scanner.next?, hbackslash] using h
          exact ⟨[], text, rfl, .nil, hrest⟩
        · have hquoted : scan? ⟨depth, .quoted mark⟩ text = some s := by
            simpa [Scanner.scan?, Scanner.next?, hbackslash, hmark] using h
          obtain ⟨inside, rest, rfl, hinside, hrest⟩ := ih.1 hquoted
          exact ⟨c :: inside, rest, rfl, .plain ⟨hmark, hbackslash⟩ hinside, hrest⟩
    · obtain ⟨inside, rest, rfl, hinside, hrest⟩ := ih.1 h
      exact ⟨c, inside, rest, rfl, hinside, hrest⟩

/-- A brace that is closed has what is balanced between it and the brace that closes it. -/
theorem exists_braced (h : scan? ⟨depth + 1, .plain⟩ text = some .start) :
    ∃ inside rest, text = inside ++ '}' :: rest ∧ Balanced true inside ∧
      scan? ⟨depth, .plain⟩ rest = some .start := by
  -- By induction on the length, since a nested aggregate takes a part of the text off.
  induction hlength : text.length using Nat.strongRecOn generalizing depth text with
  | ind n ih =>
    subst hlength
    cases text with
    | nil => cases h
    | cons c text =>
      rcases scan?_plain_cases h with
        ⟨hmark, hread⟩ | ⟨rfl, hread⟩ | ⟨outer, houter, rfl, hread⟩ | ⟨rfl, hread⟩ | ⟨hc, hread⟩
      · obtain ⟨inside, rest, rfl, hinside, hrest⟩ := (exists_inside rfl text).1 hread
        obtain ⟨inside', rest', rfl, hinside', hrest'⟩ := ih rest.length (by simp; omega) hrest rfl
        refine ⟨c :: (inside ++ c :: inside'), rest', by simp, .quotation hmark hinside hinside', hrest'⟩
      · obtain ⟨inside, rest, rfl, hinside, hrest⟩ := ih text.length (by simp) hread rfl
        obtain ⟨inside', rest', rfl, hinside', hrest'⟩ := ih rest.length (by simp; omega) hrest rfl
        refine ⟨'{' :: (inside ++ '}' :: inside'), rest', by simp, .braces hinside hinside', hrest'⟩
      · cases houter
        exact ⟨[], text, rfl, .nil, hread⟩
      · obtain ⟨inside, rest, rfl, hinside, hrest⟩ := ih text.length (by simp) hread rfl
        exact ⟨',' :: inside, rest, rfl, .comma hinside, hrest⟩
      · obtain ⟨inside, rest, rfl, hinside, hrest⟩ := ih text.length (by simp) hread rfl
        exact ⟨c :: inside, rest, rfl, .plain hc hinside, hrest⟩

/-! ## Texts that are one segment -/

/-- No comma of the text is read where the scanner stands at the start, neither in braces nor in quotes. -/
def IsUncut (text : List Char) : Prop :=
  ∀ before behind, text = before ++ ',' :: behind → Scanner.start.scan? before ≠ some .start

/-- A text that is one segment: it is balanced on its own, read from the start, has no comma outside of braces
and quotes, and no blanks at its ends. -/
structure IsSegment (text : List Char) : Prop where
  ne_nil : text ≠ []
  trimmed : Text.trim text = text
  balanced : Scanner.start.scan? text = some .start
  uncut : IsUncut text

theorem isUncut_nil : IsUncut [] := fun before behind heq => by simp at heq

theorem IsUncut.of_append {before : List Char} (h : IsUncut (before ++ (text ++ rest)))
    (hbefore : Scanner.start.scan? before = some .start) : IsUncut text := by
  rintro start behind rfl hstart
  refine h (before ++ start) (behind ++ rest) (by simp) ?_
  rw [scan?_append, hbefore]
  exact hstart

/-- A text that the scanner reads without cutting it is derived by the grammar. -/
theorem balanced_of_scan? (h : Scanner.start.scan? text = some .start) (huncut : IsUncut text) :
    Balanced false text := by
  induction hlength : text.length using Nat.strongRecOn generalizing text with
  | ind n ih =>
    subst hlength
    have hbehind : ∀ taken rest, text = taken ++ rest → Balanced false taken → taken ≠ [] →
        Balanced false rest := by
      rintro taken rest rfl htaken hne
      have hpos := List.length_pos_iff.2 hne
      have hscan := htaken.scan? 0
      have hrest : Scanner.start.scan? rest = some .start := by
        rw [scan?_append] at h
        rwa [show Scanner.start.scan? taken = _ from hscan] at h
      have huncut : IsUncut (taken ++ (rest ++ [])) := by rwa [List.append_nil]
      exact ih rest.length (by simp; omega) hrest (huncut.of_append hscan) rfl
    cases text with
    | nil => exact .nil
    | cons c text =>
      rcases scan?_plain_cases h with
        ⟨hmark, hread⟩ | ⟨rfl, hread⟩ | ⟨outer, houter, -, -⟩ | ⟨rfl, -⟩ | ⟨hc, -⟩
      · obtain ⟨inside, rest, rfl, hinside, -⟩ := (exists_inside rfl text).1 hread
        refine .quotation hmark hinside ?_
        exact hbehind _ _ (by simp) (.quoted hmark hinside) (List.cons_ne_nil _ _)
      · obtain ⟨inside, rest, rfl, hinside, -⟩ := exists_braced hread
        refine .braces hinside ?_
        exact hbehind _ _ (by simp) (.braced hinside) (List.cons_ne_nil _ _)
      · cases houter
      · exact absurd rfl (huncut [] text rfl)
      · exact .plain hc (hbehind [c] text rfl (.plain hc .nil) (List.cons_ne_nil _ _))

theorem IsSegment.isPart (h : IsSegment text) : IsPart text where
  balanced := balanced_of_scan? h.balanced h.uncut
  ne_nil := h.ne_nil
  head := (Text.trim_eq_self_iff.1 h.trimmed).1
  last := (Text.trim_eq_self_iff.1 h.trimmed).2

/-! ## What a text is cut into -/

/-- Only quotes open a quotation. -/
def Mode.IsMarked : Mode → Prop
  | .plain => True
  | .quoted mark | .escaped mark => mark = '"' ∨ mark = '\''

theorem Mode.IsMarked.next? (h : s.mode.IsMarked) (hnext : s.next? c = some s') : s'.mode.IsMarked := by
  obtain ⟨depth, mode⟩ := s
  cases mode with
  | plain =>
    simp only [Scanner.next?] at hnext
    split at hnext
    · next hquote =>
      cases hnext
      simpa [Mode.IsMarked] using hquote
    · repeat' split at hnext
      all_goals cases hnext
      all_goals trivial
  | quoted mark =>
    simp only [Scanner.next?] at hnext
    repeat' split at hnext
    all_goals cases hnext
    · exact h
    · trivial
    · exact h
  | escaped mark =>
    cases hnext
    exact h

theorem Mode.IsMarked.scan? (h : s.mode.IsMarked) (hscan : s.scan? text = some s') : s'.mode.IsMarked := by
  induction text generalizing s with
  | nil =>
    cases hscan
    exact h
  | cons c text ih =>
    obtain ⟨t, hnext, hscan⟩ := Option.bind_eq_some_iff.1 hscan
    exact ih (h.next? hnext) hscan

/-- A blank closes neither a brace nor a quotation. -/
theorem eq_start_of_blank (h : s.mode.IsMarked) (hc : isBlank c = true)
    (hnext : s.next? c = some .start) : s = .start := by
  have hne : ∀ d, isBlank d = false → c ≠ d := by
    rintro d hd rfl
    cases hc.symm.trans hd
  have hdouble := hne '"' (by decide)
  have hsingle := hne '\'' (by decide)
  obtain ⟨depth, mode⟩ := s
  cases mode with
  | plain =>
    simpa [Scanner.next?, hdouble, hsingle, hne '{' (by decide), hne '}' (by decide)] using hnext
  | quoted mark =>
    have hmark : c ≠ mark := by rcases h with rfl | rfl <;> assumption
    simp [Scanner.next?, hne '\\' (by decide), hmark, Scanner.start] at hnext
  | escaped mark => cases hnext

theorem eq_start_of_blanks (h : s.mode.IsMarked) (hblanks : ∀ c ∈ blanks, isBlank c = true)
    (hscan : s.scan? blanks = some .start) : s = .start := by
  induction blanks generalizing s with
  | nil => exact Option.some.inj hscan
  | cons c blanks ih =>
    obtain ⟨hc, hblanks⟩ := List.forall_mem_cons.1 hblanks
    obtain ⟨t, hnext, hscan⟩ := Option.bind_eq_some_iff.1 hscan
    obtain rfl := ih (h.next? hnext) hblanks hscan
    exact eq_start_of_blank h hc hnext

theorem scan?_blanks (hblanks : ∀ c ∈ blanks, isBlank c = true) :
    Scanner.start.scan? blanks = some .start := by
  have hbalanced : Balanced false blanks := .of_not_special fun c hc => not_special_of_isBlank (hblanks c hc)
  exact hbalanced.scan? 0

/-- The blanks around a text do not count. -/
theorem isSegment_trim (h : Scanner.start.scan? text = some .start) (huncut : IsUncut text)
    (hne : Text.trim text ≠ []) : IsSegment (Text.trim text) := by
  obtain ⟨lead, trail, htext, hlead, htrail⟩ := Text.trim_split text
  have hstart := scan?_blanks hlead
  rw [htext] at h huncut
  refine ⟨hne, Text.trim_trim, ?_, huncut.of_append hstart⟩
  rw [scan?_append, hstart, Option.bind_some, scan?_append] at h
  obtain ⟨t, hscan, htrailing⟩ := Option.bind_eq_some_iff.1 h
  have hmarked : t.mode.IsMarked := Mode.IsMarked.scan? (s := .start) trivial hscan
  rwa [eq_start_of_blanks hmarked htrail htrailing] at hscan

theorem IsUncut.concat (h : IsUncut text) (hscan : Scanner.start.scan? text = some s)
    (hcut : s.cutsAt c = false) : IsUncut (text ++ [c]) := by
  intro before behind heq hbefore
  rcases List.eq_nil_or_concat behind with rfl | ⟨behind, d, rfl⟩
  · obtain ⟨rfl, hc⟩ := List.append_inj' heq rfl
    cases hc
    cases hscan.symm.trans hbefore
    cases hcut
  · rw [List.concat_eq_append, ← List.cons_append, ← List.append_assoc] at heq
    exact h before behind (List.append_inj' heq rfl).1 hbefore

/-- What is cut off is balanced and has no comma to be cut at.  The segment that is being read is at every
moment what the scanner has read from the start. -/
theorem balanced_of_cutFrom (h : cutFrom body s segment rest = .ok parts)
    (hscan : Scanner.start.scan? segment.reverse = some s) (huncut : IsUncut segment.reverse) :
    ∀ p ∈ parts, Scanner.start.scan? p = some .start ∧ IsUncut p := by
  induction rest generalizing s segment parts with
  | nil =>
    rw [cutFrom] at h
    split at h
    · next hclosed =>
      cases h
      rw [Scanner.isClosed, beq_iff_eq] at hclosed
      rw [List.forall_mem_singleton, hscan, hclosed]
      exact ⟨rfl, huncut⟩
    · cases h
  | cons c rest ih =>
    rw [cutFrom] at h
    split at h
    · next hcut =>
      obtain ⟨ps, hps, rfl⟩ := Malformed.exists_of_map h
      obtain rfl : s = .start := by
        rw [Scanner.cutsAt, Bool.and_eq_true] at hcut
        exact beq_iff_eq.1 hcut.1
      exact List.forall_mem_cons.2 ⟨⟨hscan, huncut⟩, ih hps rfl isUncut_nil⟩
    · next hcut =>
      split at h
      · cases h
      · next s' hnext =>
        refine ih h ?_ ?_
        · rw [List.reverse_cons, scan?_concat, hscan]
          exact hnext
        · rw [List.reverse_cons]
          exact huncut.concat hscan (Bool.eq_false_iff.2 hcut)

theorem isSegment_of_split {body : List Char} (h : split body = .ok parts) : ∀ p ∈ parts, IsSegment p := by
  obtain ⟨cut, hcut, rfl⟩ := Malformed.exists_of_map h
  have hbalanced := balanced_of_cutFrom hcut rfl isUncut_nil
  intro p hp
  obtain ⟨hmem, hne⟩ := List.mem_filter.1 hp
  obtain ⟨q, hq, rfl⟩ := List.mem_map.1 hmem
  obtain ⟨hscan, huncut⟩ := hbalanced q hq
  exact isSegment_trim hscan huncut (by simpa using hne)

/-- The segments of a text are the texts in which quotes and braces come in pairs. -/
theorem isSegment_iff_isPart : IsSegment text ↔ IsPart text := by
  refine ⟨IsSegment.isPart, fun h => ?_⟩
  have hsplit := split_joined (List.forall_mem_singleton.2 h)
  exact isSegment_of_split hsplit text (List.mem_singleton.2 rfl)

/-- A segment is a text that is left whole. -/
theorem split_eq_singleton_iff : split text = .ok [text] ↔ IsSegment text := by
  refine ⟨fun h => isSegment_of_split h text (List.mem_singleton.2 rfl), fun h => ?_⟩
  have hsplit := split_joined (List.forall_mem_singleton.2 h.isPart)
  rwa [joined, List.intercalate_singleton] at hsplit

/-- Cutting undoes joining for just the lists of segments, and what a text is cut into is such a list: each of
its segments is left whole, and joined they are cut into the same list again. -/
theorem split_joined_iff (parts : List (List Char)) :
    (split (joined parts) = .ok parts ↔ ∀ p ∈ parts, IsSegment p) ∧
      ∀ body, split body = .ok parts →
        (∀ p ∈ parts, split p = .ok [p]) ∧ split (joined parts) = .ok parts := by
  have hjoined : (∀ p ∈ parts, IsSegment p) → split (joined parts) = .ok parts :=
    fun h => split_joined fun p hp => (h p hp).isPart
  refine ⟨⟨isSegment_of_split, hjoined⟩, fun body hbody => ?_⟩
  have hsegments := isSegment_of_split hbody
  exact ⟨fun p hp => split_eq_singleton_iff.2 (hsegments p hp), hjoined hsegments⟩

/-- A quotation with a brace in it, an aggregate with an escaped quote, and nothing between two commas. -/
theorem split_joined_iff_nested :
    let body := " \"a, \x7d\",\x7b1, '\\''\x7d ,, x".toList
    let parts := ["\"a, \x7d\"".toList, "\x7b1, '\\''\x7d".toList, "x".toList]
    split body = .ok parts ∧ joined parts = "\"a, \x7d\", \x7b1, '\\''\x7d, x".toList ∧
      (∀ p ∈ parts, IsSegment p) ∧ (∀ p ∈ parts, split p = .ok [p]) ∧ split (joined parts) = .ok parts := by
  intro body parts
  have hsplit : split body = .ok parts := rfl
  obtain ⟨hwhole, hjoined⟩ := (split_joined_iff parts).2 body hsplit
  exact ⟨hsplit, rfl, (split_joined_iff parts).1.1 hjoined, hwhole, hjoined⟩

end DebugConsole.Segments
