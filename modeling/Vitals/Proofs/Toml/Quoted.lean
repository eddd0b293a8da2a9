/-
  A quoted string is read back.

  * `Spelled`: how a character that is not a quote is written.
  * `Led`: a text that starts with so few quotes that none of them but its own end closes a string.
  * `readChars?_write`: a string in the form that suits it is read back, up to the end of its line.
-/
import Mathlib.Tactic.SplitIfs
import Vitals.Toml.Quoted

namespace Vitals.Toml

variable {c d : Char} {s t rest : List Char} {q : Nat}

/-! ## Escapes -/

/-- Characters are told apart by what one of them is and the other is not. -/
theorem ne_of_pred (p : Char → Bool) (hc : p c = true) (hd : p d = false) : c ≠ d := by
  rintro rfl
  rw [hc] at hd
  cases hd

/-- How a character is written: as it is, behind a backslash, or by its number. -/
inductive Spelled (c : Char) : List Char → Prop where
  | plain : c ≠ '"' → c ≠ '\\' → isControl c = false → Spelled c [c]
  | escaped {e : Char} : e ∉ ['u', 'U', '\n', '\r', ' ', '\t'] → escaped? e = some c →
    Spelled c ['\\', e]
  | numbered {a b : Char} : numbered? ['0', '0', a, b] = some c →
    Spelled c ['\\', 'u', '0', '0', a, b]

theorem numbered?_upperHex : ∀ n < 128,
    numbered? ['0', '0', upperHex (n / 16), upperHex (n % 16)] = some (Char.ofNat n) := by
  decide +kernel

theorem toNat_lt_of_isControl (h : isControl c = true) : c.toNat < 128 := by
  simp only [isControl, Bool.or_eq_true, Bool.and_eq_true, decide_eq_true_eq, beq_iff_eq] at h
  omega

theorem spelled_escape (h : c ≠ '"') : Spelled c (escape c) := by
  unfold escape
  split
  · exact .escaped (by decide) rfl
  · exact .escaped (by decide) rfl
  · exact .escaped (by decide) rfl
  · exact .escaped (by decide) rfl
  · exact .escaped (by decide) rfl
  · next hslash =>
    split_ifs with hcontrol
    · refine .numbered ?_
      rw [numbered?_upperHex _ (toNat_lt_of_isControl hcontrol), Char.ofNat_toNat]
    · exact .plain h hslash (by simpa using hcontrol)

theorem spelled_escapeInLine (c : Char) : Spelled c (escapeInLine c) := by
  unfold escapeInLine
  split
  · exact .escaped (by decide) rfl
  · exact .escaped (by decide) rfl
  · next hquote _ => exact spelled_escape hquote

/-! ## On one line -/

theorem basic?_spelled {w : List Char} (h : Spelled c w) (t : List Char) :
    basic? (w ++ t) = consTo c (basic? t) := by
  cases h with
  | plain hquote hslash hcontrol => simp [basic?, hslash, hcontrol]
  | escaped he hc =>
    simp only [List.mem_cons, not_or] at he
    simp [basic?, he, hc]
  | numbered hc => simp [basic?, hc]

theorem basic?_flatMap_escapeInLine (s rest : List Char) :
    basic? (s.flatMap escapeInLine ++ '"' :: rest) = some (s, rest) := by
  induction s with
  | nil => rfl
  | cons c s ih =>
    rw [List.flatMap_cons, List.append_assoc, basic?_spelled (spelled_escapeInLine c), ih]
    rfl

theorem literal?_append (hs : ∀ c ∈ s, c ≠ '\'' ∧ isControl c = false) (rest : List Char) :
    literal? (s ++ '\'' :: rest) = some (s, rest) := by
  induction s with
  | nil => rfl
  | cons c s ih =>
    obtain ⟨⟨hquote, hcontrol⟩, hs⟩ := List.forall_mem_cons.1 hs
    simp [literal?, hcontrol, ih hs, consTo]

/-! ## Quotes in strings over several lines -/

/-- A text that starts with so few quotes, behind `q` others, that they stand for themselves: two in a
row, or what is left of two and the three that close the string. -/
def Led (quote : Char) (q : Nat) (t : List Char) : Prop :=
  ∃ k d u, t = List.replicate k quote ++ d :: u ∧ d ≠ quote ∧ (q + k ≤ 2 ∨ 3 ≤ k ∧ q + k ≤ 5)

namespace Led

variable {quote : Char}

theorem closing (hq : q ≤ 2) (h : d ≠ quote) (rest : List Char) :
    Led quote q (quote :: quote :: quote :: d :: rest) :=
  ⟨3, d, rest, rfl, h, by omega⟩

theorem other (hq : q ≤ 2) (h : d ≠ quote) (t : List Char) : Led quote q (d :: t) :=
  ⟨0, d, t, rfl, h, by omega⟩

theorem quote_cons (h : Led quote (q + 1) t) : Led quote q (quote :: t) := by
  obtain ⟨k, d, u, rfl, hd, hk⟩ := h
  exact ⟨k + 1, d, u, rfl, hd, by omega⟩

/-- How a text continues behind a quote that stands for itself. -/
theorem cases_succ (h : Led quote (q + 1) t) :
    ∃ d u, d ≠ quote ∧ (t = d :: u ∨ t = quote :: d :: u ∨ t = quote :: quote :: quote :: d :: u ∨
      t = quote :: quote :: quote :: quote :: d :: u) := by
  obtain ⟨k, d, u, rfl, hd, hk⟩ := h
  refine ⟨d, u, hd, ?_⟩
  obtain rfl | rfl | rfl | rfl : k = 0 ∨ k = 1 ∨ k = 3 ∨ k = 4 := by omega
  · exact .inl rfl
  · exact .inr (.inl rfl)
  · exact .inr (.inr (.inl rfl))
  · exact .inr (.inr (.inr rfl))

end Led

/-! ## With escapes, over several lines -/

theorem basicLines?_spelled {w : List Char} (h : Spelled c w) (t : List Char) :
    basicLines? .text (w ++ t) = consTo c (basicLines? .text t) := by
  cases h with
  | plain hquote hslash hcontrol =>
    have hfeed : '\n' ≠ c := ne_of_pred isControl rfl hcontrol
    have hreturn : '\r' ≠ c := ne_of_pred isControl rfl hcontrol
    simp [basicLines?, hquote, hslash, hcontrol, hfeed.symm, hreturn.symm]
  | escaped he hc =>
    simp only [List.mem_cons, not_or] at he
    simp [basicLines?, isSpace, he, hc]
  | numbered hc => simp [basicLines?, hc]

theorem basicLines?_quote (h : Led '"' (q + 1) t) :
    basicLines? .text ('"' :: t) = consTo '"' (basicLines? .text t) := by
  have hcontrol : isControl '"' = false := rfl
  obtain ⟨d, u, hd, rfl | rfl | rfl | rfl⟩ := h.cases_succ
  · simp [basicLines?, hd, hcontrol]
  · simp [basicLines?, hd, hcontrol]
  · simp [basicLines?, hd, consTo]
  · simp [basicLines?, hd, consTo]

/-- What is written starts neither with a quote nor with a line break. -/
theorem Spelled.head {w : List Char} (h : Spelled c w) :
    ∃ d u, w = d :: u ∧ d ≠ '"' ∧ d ≠ '\n' ∧ d ≠ '\r' := by
  cases h with
  | plain hquote hslash hcontrol =>
    have hfeed : '\n' ≠ c := ne_of_pred isControl rfl hcontrol
    have hreturn : '\r' ≠ c := ne_of_pred isControl rfl hcontrol
    exact ⟨c, [], rfl, hquote, hfeed.symm, hreturn.symm⟩
  | escaped => exact ⟨_, _, rfl, by decide⟩
  | numbered => exact ⟨_, _, rfl, by decide⟩

/-- The quotes of a string over several lines never close it: the third in a row is escaped. -/
theorem led_escapeLines (hq : q ≤ 2) (hd : d ≠ '"') (s rest : List Char) :
    Led '"' q (escapeLines q s ++ '"' :: '"' :: '"' :: d :: rest) := by
  induction s generalizing q with
  | nil => exact .closing hq hd rest
  | cons c s ih =>
    unfold escapeLines
    split_ifs with hquote htwo hbreak
    · exact .other hq (by decide) _
    · exact (ih (by omega)).quote_cons
    · exact .other hq (by decide) _
    · obtain ⟨e, u, hw, he, -⟩ := (spelled_escape hquote).head
      rw [hw]
      exact .other hq he _

theorem basicLines?_escapeLines (hq : q ≤ 2) (hd : d ≠ '"') (s rest : List Char) :
    basicLines? .text (escapeLines q s ++ '"' :: '"' :: '"' :: d :: rest) =
      some (s, d :: rest) := by
  -- for any number of quotes in front, since it decides which quote is escaped
  induction s generalizing q with
  | nil => simp [escapeLines, basicLines?, hd]
  | cons c s ih =>
    unfold escapeLines
    split_ifs with hquote htwo hbreak
    · subst hquote
      have hword : Spelled '"' ['\\', '"'] := .escaped (by decide) rfl
      exact (basicLines?_spelled hword _).trans (congrArg (consTo '"') (ih (by omega)))
    · subst hquote
      rw [List.cons_append, basicLines?_quote (led_escapeLines (by omega) hd s rest), ih (by omega)]
      rfl
    · subst hbreak
      simp [basicLines?, ih, consTo]
    · rw [List.append_assoc, basicLines?_spelled (spelled_escape hquote), ih (by omega)]
      rfl

/-! ## Literal, over several lines -/

theorem le_longestRun (quote : Char) (q : Nat) (s : List Char) : q ≤ longestRun quote q s := by
  induction s generalizing q with
  | nil => exact Nat.le_refl q
  | cons c s ih =>
    unfold longestRun
    split_ifs
    · exact Nat.le_trans (Nat.le_succ q) (ih (q + 1))
    · exact Nat.le_max_left q _

theorem notMem_of_longestRun {quote : Char} (h : longestRun quote q s = 0) : quote ∉ s := by
  induction s generalizing q with
  | nil => exact List.not_mem_nil
  | cons c s ih =>
    unfold longestRun at h
    split_ifs at h with hc
    · have := le_longestRun quote (q + 1) s
      omega
    · rw [List.mem_cons, not_or]
      exact ⟨Ne.symm hc, ih (q := 0) (by omega)⟩

/-- A string without three quotes in a row does not close itself. -/
theorem led_append {quote : Char} (h : longestRun quote q s ≤ 2) (hd : d ≠ quote)
    (rest : List Char) : Led quote q (s ++ quote :: quote :: quote :: d :: rest) := by
  induction s generalizing q with
  | nil => exact .closing h hd rest
  | cons c s ih =>
    unfold longestRun at h
    split_ifs at h with hc
    · subst hc
      exact (ih h).quote_cons
    · exact .other (by omega) hc _

theorem literalLines?_quote (h : Led '\'' (q + 1) t) :
    literalLines? ('\'' :: t) = consTo '\'' (literalLines? t) := by
  have hcontrol : isControl '\'' = false := rfl
  obtain ⟨d, u, hd, rfl | rfl | rfl | rfl⟩ := h.cases_succ
  · simp [literalLines?, hd, hcontrol]
  · simp [literalLines?, hd, hcontrol]
  · simp [literalLines?, hd, consTo]
  · simp [literalLines?, hd, consTo]

theorem literalLines?_append (h : longestRun '\'' q s ≤ 2)
    (hcontrols : ∀ c ∈ s, isControl c = true → c = '\n') (hd : d ≠ '\'') (rest : List Char) :
    literalLines? (s ++ '\'' :: '\'' :: '\'' :: d :: rest) = some (s, d :: rest) := by
  induction s generalizing q with
  | nil => simp [literalLines?, hd]
  | cons c s ih =>
    obtain ⟨hc, hs⟩ := List.forall_mem_cons.1 hcontrols
    unfold longestRun at h
    split_ifs at h with hquote
    · subst hquote
      rw [List.cons_append, literalLines?_quote (led_append h hd rest), ih h hs]
      rfl
    · have ih := ih (q := 0) (by omega) hs
      by_cases hbreak : c = '\n'
      · subst hbreak
        simp [literalLines?, ih, consTo]
      · have hcontrol : isControl c = false := by simpa using mt hc hbreak
        have hreturn : '\r' ≠ c := ne_of_pred isControl rfl hcontrol
        simp [literalLines?, hquote, hreturn.symm, hcontrol, ih, consTo]

/-! ## The form that suits best -/

theorem notMem_control (h : (s.any fun c => isControl c && c != '\n') = false) :
    ∀ c ∈ s, isControl c = true → c = '\n' := by
  simpa using h

theorem Form.of_eq_literal (h : Form.of s = .literal) :
    ∀ c ∈ s, c ≠ '\'' ∧ isControl c = false := by
  unfold Form.of at h
  dsimp only at h
  split_ifs at h with hbasic hliteral
  simp only [Bool.and_eq_true, Bool.not_eq_true', beq_iff_eq, List.contains_eq_mem,
    decide_eq_false_iff_not] at hliteral
  obtain ⟨⟨hcontrol, hquotes⟩, hbreak⟩ := hliteral
  intro c hc
  refine ⟨fun hquote => notMem_of_longestRun hquotes (hquote ▸ hc), ?_⟩
  rw [← Bool.not_eq_true]
  exact fun h => hbreak (notMem_control hcontrol c hc h ▸ hc)

theorem Form.of_eq_literalLines (h : Form.of s = .literalLines) :
    longestRun '\'' 0 s ≤ 2 ∧ ∀ c ∈ s, isControl c = true → c = '\n' := by
  unfold Form.of at h
  dsimp only at h
  split_ifs at h with hbasic hliteral hbasicLines hliteralLines
  simp only [Bool.and_eq_true, Bool.not_eq_true', decide_eq_true_eq] at hliteralLines
  exact ⟨hliteralLines.2, notMem_control hliteralLines.1⟩

/-- The line break behind the opening quotes is dropped, and no other. -/
theorem dropBreak_leadingBreak (h : '\n' ∉ s → ∃ d u, t = d :: u ∧ d ≠ '\n' ∧ d ≠ '\r') :
    dropBreak (leadingBreak s ++ t) = t := by
  unfold leadingBreak
  split_ifs with hbreak
  · rfl
  · obtain ⟨d, u, rfl, hfeed, hreturn⟩ := h (by simpa using hbreak)
    simp [dropBreak, hfeed, hreturn]

theorem escapeLines_head (hbreak : '\n' ∉ s) (t : List Char) :
    ∃ d u, escapeLines 0 s ++ '"' :: t = d :: u ∧ d ≠ '\n' ∧ d ≠ '\r' := by
  cases s with
  | nil => exact ⟨'"', t, rfl, by decide⟩
  | cons c s =>
    unfold escapeLines
    split_ifs with hquote htwo hfeed
    · cases htwo
    · exact ⟨'"', _, rfl, by decide⟩
    · exact absurd (List.mem_cons.2 (.inl hfeed.symm)) hbreak
    · obtain ⟨d, u, hw, -, hd⟩ := (spelled_escape hquote).head
      exact ⟨d, _, by rw [hw]; rfl, hd⟩

theorem append_head (hcontrols : ∀ c ∈ s, isControl c = true → c = '\n') (hbreak : '\n' ∉ s)
    (t : List Char) : ∃ d u, s ++ '\'' :: t = d :: u ∧ d ≠ '\n' ∧ d ≠ '\r' := by
  cases s with
  | nil => exact ⟨'\'', t, rfl, by decide⟩
  | cons c s =>
    refine ⟨c, _, rfl, fun hc => hbreak (hc ▸ List.mem_cons_self), ?_⟩
    rintro rfl
    exact absurd (hcontrols _ List.mem_cons_self rfl) (by decide)

theorem readChars?_cons (hd : d ≠ '"') (t : List Char) :
    readChars? ('"' :: d :: t) = basic? (d :: t) := by
  simp [readChars?, hd]

theorem readChars?_cons_literal (hd : d ≠ '\'') (t : List Char) :
    readChars? ('\'' :: d :: t) = literal? (d :: t) := by
  simp [readChars?, hd]

/-- **A quoted string is read back**, up to the end of its line. -/
theorem readChars?_write (s rest : List Char) :
    readChars? ((Form.of s).write s ++ '\n' :: rest) = some (s, '\n' :: rest) := by
  cases hform : Form.of s with
  | basic =>
    have hread := basic?_flatMap_escapeInLine s ('\n' :: rest)
    -- two quotes of an empty string do not open one over several lines, as the line ends there
    cases s with
    | nil => rfl
    | cons c s =>
      obtain ⟨d, u, hw, hquote, -⟩ := (spelled_escapeInLine c).head
      simp only [List.flatMap_cons, hw, Form.write, List.cons_append, List.append_assoc,
        List.nil_append] at hread ⊢
      rw [readChars?_cons hquote, hread]
  | literal =>
    have hs := Form.of_eq_literal hform
    have hread := literal?_append hs ('\n' :: rest)
    cases s with
    | nil => rfl
    | cons c s =>
      simp only [Form.write, List.cons_append, List.append_assoc, List.nil_append] at hread ⊢
      rw [readChars?_cons_literal (hs c List.mem_cons_self).1, hread]
  | basicLines =>
    have hread := basicLines?_escapeLines (d := '\n') (Nat.zero_le 2) (by decide) s rest
    simp only [Form.write, List.cons_append, List.append_assoc, List.nil_append, readChars?]
    rw [dropBreak_leadingBreak fun hbreak => escapeLines_head hbreak _, hread]
  | literalLines =>
    obtain ⟨hrun, hcontrols⟩ := Form.of_eq_literalLines hform
    have hread := literalLines?_append (d := '\n') hrun hcontrols (by decide) rest
    simp only [Form.write, List.cons_append, List.append_assoc, List.nil_append, readChars?]
    rw [dropBreak_leadingBreak fun hbreak => append_head hcontrols hbreak _, hread]

end Vitals.Toml
