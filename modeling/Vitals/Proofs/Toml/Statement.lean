/-
  Documents of plain lines.

  A plain line is empty, a comment, the header of a table or a field whose value ends with the line.

  * `Reads`: a line is a statement, whatever comes behind it.
  * `reads_remark`, `reads_header`, `reads_field`: the plain lines.
  * `parse?_of_reads`: a document of plain lines.
-/
import Mathlib.Data.List.Forall2
import Vitals.Proofs.Toml.Quoted
import Vitals.Toml.Document

namespace Vitals.Toml

variable {c : Char} {key text : String} {v : Value} {word rest t : List Char}

/-! ## Between words -/

theorem skipSpaces_cons (h : isSpace c = false) (t : List Char) : skipSpaces (c :: t) = c :: t := by
  simp [skipSpaces, h]

theorem takeWhile_append_of_head {p : Char → Bool} (hword : ∀ c ∈ word, p c = true)
    (h : p c = false) (t : List Char) : (word ++ c :: t).takeWhile p = word := by
  rw [List.takeWhile_append_of_pos hword, List.takeWhile_cons_of_neg (by simp [h]), List.append_nil]

/-! ## Keys -/

/-- A key that needs no quotes. -/
def IsBare (key : String) : Prop := key.toList ≠ [] ∧ key.toList.all isKeyChar = true

instance (key : String) : Decidable (IsBare key) := instDecidableAnd

theorem exists_cons_of_isBare (h : IsBare key) :
    ∃ c u, key.toList = c :: u ∧ isKeyChar c = true := by
  cases hkey : key.toList with
  | nil => exact absurd hkey h.1
  | cons c u => exact ⟨c, u, rfl, List.all_eq_true.1 h.2 c (by simp [hkey])⟩

theorem isSpace_of_isKeyChar (h : isKeyChar c = true) : isSpace c = false := by
  simp only [isSpace, Bool.or_eq_false_iff, beq_eq_false_iff_ne]
  exact ⟨ne_of_pred isKeyChar h rfl, ne_of_pred isKeyChar h rfl⟩

theorem key?_bare (h : IsBare key) (hc : isKeyChar c = false) (t : List Char) :
    key? (key.toList ++ c :: t) = some (key, c :: t) := by
  have hkey := takeWhile_append_of_head (List.all_eq_true.1 h.2) hc t
  unfold key?
  rw [hkey]
  split
  · next hnil => exact absurd hnil h.1
  · simp

theorem keyPath?_bare (h : IsBare key) (hc : isKeyChar c = false)
    (hdot : (skipSpaces (c :: t)).head? ≠ some '.') :
    keyPath? maxDepth (key.toList ++ c :: t) = some ([key], skipSpaces (c :: t)) := by
  obtain ⟨d, u, hkey, hd⟩ := exists_cons_of_isBare h
  have hskip : skipSpaces (key.toList ++ c :: t) = key.toList ++ c :: t := by
    rw [hkey]
    exact skipSpaces_cons (isSpace_of_isKeyChar hd) _
  unfold maxDepth keyPath?
  simp only [hskip, key?_bare h hc, Option.bind_eq_bind, Option.bind_some]
  split
  · next hrest => simp [hrest] at hdot
  · rfl

/-! ## Fields -/

/-- A text that is a value on one line: it starts with no blank, and ends where the line ends. -/
def IsValue (w : List Char) (v : Value) : Prop :=
  (∃ c u, w = c :: u ∧ isSpace c = false) ∧
    ∀ rest, value? maxDepth (w ++ '\n' :: rest) = some (v, '\n' :: rest)

/-- A quoted string starts with a quote. -/
theorem Form.write_head (f : Form) (s : List Char) :
    ∃ c u, f.write s = c :: u ∧ (c = '"' ∨ c = '\'') := by
  cases f with
  | basic | basicLines => exact ⟨'"', _, rfl, .inl rfl⟩
  | literal | literalLines => exact ⟨'\'', _, rfl, .inr rfl⟩

theorem isValue_quote (s : String) : IsValue (quote s).toList (.string s) := by
  have hread := readChars?_write s.toList
  rw [quote, String.toList_ofList]
  obtain ⟨c, u, hwrite, hc⟩ := (Form.of s.toList).write_head s.toList
  rw [hwrite] at hread ⊢
  refine ⟨⟨c, u, rfl, ?_⟩, fun rest => ?_⟩
  · rcases hc with rfl | rfl <;> rfl
  · have hsimple : value? maxDepth (c :: u ++ '\n' :: rest) = simple? (c :: u ++ '\n' :: rest) := by
      rcases hc with rfl | rfl <;> rfl
    have hread := hread rest
    rw [hsimple]
    rw [List.cons_append] at hread ⊢
    rcases hc with rfl | rfl <;> simp [simple?, hread]

theorem isValue_word (hne : word ≠ []) (hword : ∀ c ∈ word, Scalar.isWordChar c = true)
    (hv : Scalar.ofWord? word = some v) : IsValue word v := by
  obtain ⟨c, u, rfl⟩ := List.exists_cons_of_ne_nil hne
  have hnot {d : Char} := ne_of_pred Scalar.isWordChar (d := d) (hword c List.mem_cons_self)
  refine ⟨⟨c, u, rfl, by simp [isSpace, hnot (d := ' ') rfl, hnot (d := '\t') rfl]⟩, fun rest => ?_⟩
  have hsimple : value? maxDepth (c :: u ++ '\n' :: rest) = word? (c :: u ++ '\n' :: rest) := by
    simp [maxDepth, value?, simple?, hnot (d := '[') rfl, hnot (d := '\x7b') rfl,
      hnot (d := '"') rfl, hnot (d := '\'') rfl]
  rw [hsimple, word?, takeWhile_append_of_head hword rfl, List.drop_left, hv]
  simp only [Option.map_some]
  split <;> simp_all

theorem field?_bare (hkey : IsBare key) (hv : IsValue word v) (rest : List Char) :
    field? (value? maxDepth) (key.toList ++ ' ' :: '=' :: ' ' :: (word ++ '\n' :: rest)) =
      some (([key], v), '\n' :: rest) := by
  obtain ⟨⟨c, u, rfl, hc⟩, hread⟩ := hv
  have hequal : skipSpaces (' ' :: '=' :: ' ' :: (c :: u ++ '\n' :: rest)) =
      '=' :: ' ' :: (c :: u ++ '\n' :: rest) := rfl
  have hskip : skipSpaces (' ' :: (c :: u ++ '\n' :: rest)) = c :: u ++ '\n' :: rest :=
    skipSpaces_cons hc _
  have hend : skipSpaces ('\n' :: rest) = '\n' :: rest := rfl
  rw [field?, keyPath?_bare hkey rfl (by rw [hequal]; simp), hequal]
  simp only [Option.bind_eq_bind, Option.bind_some, hskip, hread, hend, Option.pure_def]

/-! ## Lines -/

theorem lineEnd?_of_isKeyChar (h : isKeyChar c = true) (t : List Char) :
    lineEnd? (c :: t) = none := by
  have hnot {d : Char} := ne_of_pred isKeyChar (d := d) h
  rw [lineEnd?, skipSpaces_cons (isSpace_of_isKeyChar h)]
  simp [lineBreak?, hnot (d := '#') rfl, hnot (d := '\n') rfl, hnot (d := '\r') rfl]

/-- A line is a statement, whatever comes behind it. -/
def Reads (line : String) (s : Statement) : Prop :=
  ∀ rest, Statement.read? (line.toList ++ '\n' :: rest) = some (s, rest)

/-- Whether a line is empty or a comment. -/
def isRemark (line : String) : Bool :=
  line.toList.head?.all (· == '#') && line.toList.all (!isControl ·)

theorem reads_remark {line : String} (h : isRemark line = true) : Reads line .blank := by
  intro rest
  simp only [isRemark, Bool.and_eq_true, List.all_eq_true] at h
  obtain ⟨hhead, hplain⟩ := h
  have hdrop : (line.toList ++ '\n' :: rest).dropWhile (fun c => !isControl c) = '\n' :: rest := by
    rw [List.dropWhile_append_of_pos hplain]
    rfl
  cases hline : line.toList with
  | nil => rfl
  | cons c u =>
    rw [hline] at hhead hdrop
    obtain rfl : c = '#' := by simpa using hhead
    have hend : lineEnd? ('#' :: (u ++ '\n' :: rest)) = some rest := by
      have hdrop : (u ++ '\n' :: rest).dropWhile (fun c => !isControl c) = '\n' :: rest := hdrop
      rw [lineEnd?, skipSpaces_cons rfl]
      simp only [hdrop, lineBreak?]
    rw [List.cons_append, Statement.read?, skipSpaces_cons rfl]
    simp [hend]

theorem isRemark_field (key text : String) (hkey : IsBare key) :
    isRemark s!"{key} = {text}" = false := by
  obtain ⟨c, u, hname, hc⟩ := exists_cons_of_isBare hkey
  have hhash : c ≠ '#' := ne_of_pred isKeyChar hc rfl
  have hline : s!"{key} = {text}".toList = c :: (u ++ (" = " ++ text).toList) := by
    show (key ++ " = " ++ text).toList = _
    simp [String.toList_append, hname]
  simp [isRemark, hline, hhash]

theorem reads_header (name : String) (h : IsBare name) : Reads s!"[{name}]" (.header [name]) := by
  intro rest
  obtain ⟨c, u, hname, hc⟩ := exists_cons_of_isBare h
  have hline : s!"[{name}]".toList ++ '\n' :: rest = '[' :: (name.toList ++ ']' :: '\n' :: rest) := by
    show ("[" ++ name ++ "]").toList ++ '\n' :: rest = _
    simp [String.toList_append]
  have hbracket : c ≠ '[' := ne_of_pred isKeyChar hc rfl
  have hskip : skipSpaces (']' :: '\n' :: rest) = ']' :: '\n' :: rest := rfl
  have hpath : keyPath? maxDepth (c :: (u ++ ']' :: '\n' :: rest)) =
      some ([name], ']' :: '\n' :: rest) := by
    rw [← List.cons_append, ← hname, keyPath?_bare h rfl (by rw [hskip]; simp), hskip]
  have hend : lineEnd? ('\n' :: rest) = some rest := rfl
  rw [hline, hname, List.cons_append, Statement.read?, skipSpaces_cons rfl]
  simp [hbracket, hpath, hend]

theorem reads_field (key text : String) (hkey : IsBare key) (hv : IsValue text.toList v) :
    Reads s!"{key} = {text}" (.field [key] v) := by
  intro rest
  obtain ⟨c, u, hname, hc⟩ := exists_cons_of_isBare hkey
  have hline : s!"{key} = {text}".toList ++ '\n' :: rest =
      key.toList ++ ' ' :: '=' :: ' ' :: (text.toList ++ '\n' :: rest) := by
    show (key ++ " = " ++ text).toList ++ '\n' :: rest = _
    simp [String.toList_append]
  have hbracket : c ≠ '[' := ne_of_pred isKeyChar hc rfl
  have hfield := field?_bare hkey hv rest
  have hend : lineEnd? ('\n' :: rest) = some rest := rfl
  rw [hname, List.cons_append] at hfield hline
  rw [hline, Statement.read?, skipSpaces_cons (isSpace_of_isKeyChar hc)]
  simp [hbracket, lineEnd?_of_isKeyChar hc, hfield, hend]

/-! ## Documents -/

/-- The characters of a text that ends each line with a line break. -/
def charsOf (lines : List String) : List Char := lines.flatMap fun line => line.toList ++ ['\n']

variable {lines : List String} {statements : List Statement}

theorem readUpTo?_cons {s : Statement} (h : Statement.read? (c :: t) = some (s, rest)) (n : Nat) :
    Statement.readUpTo? (n + 1) (c :: t) = (Statement.readUpTo? n rest).map (s :: ·) := by
  simp only [Statement.readUpTo?, h, Option.bind_eq_bind, Option.bind_some]
  cases Statement.readUpTo? n rest <;> rfl

/-- Each line is read on its own. -/
theorem readUpTo?_of_reads (h : List.Forall₂ Reads lines statements) {n : Nat}
    (hn : lines.length ≤ n) : Statement.readUpTo? n (charsOf lines) = some statements := by
  induction h generalizing n with
  | nil => rw [charsOf, List.flatMap_nil, Statement.readUpTo?]
  | @cons line s lines statements hline _ ih =>
    obtain ⟨n, rfl⟩ := Nat.exists_eq_succ_of_ne_zero (Nat.ne_zero_of_lt hn)
    have hread := hline (charsOf lines)
    rw [charsOf, List.flatMap_cons, List.append_assoc, List.singleton_append, ← charsOf]
    cases htext : line.toList ++ '\n' :: charsOf lines with
    | nil => simp at htext
    | cons c t =>
      rw [htext] at hread
      rw [readUpTo?_cons hread, ih (Nat.le_of_succ_le_succ hn), Option.map_some]

theorem length_le_charsOf (lines : List String) : lines.length ≤ (charsOf lines).length := by
  induction lines with
  | nil => exact Nat.le_refl 0
  | cons line lines ih =>
    simp only [charsOf, List.flatMap_cons, List.length_append, List.length_cons,
      List.length_nil] at ih ⊢
    omega

/-- Lines that are empty or comments add nothing to a document. -/
theorem exists_reads_of_filter (h : List.Forall₂ Reads (lines.filter (!isRemark ·)) statements) :
    ∃ all, List.Forall₂ Reads lines all ∧
      ∀ d, all.foldlM Document.add? d = statements.foldlM Document.add? d := by
  induction lines generalizing statements with
  | nil =>
    cases h
    exact ⟨[], .nil, fun _ => rfl⟩
  | cons line lines ih =>
    cases hline : isRemark line with
    | true =>
      rw [List.filter_cons_of_neg (by simp [hline])] at h
      obtain ⟨all, hreads, hadd⟩ := ih h
      exact ⟨.blank :: all, .cons (reads_remark hline) hreads, hadd⟩
    | false =>
      rw [List.filter_cons_of_pos (by simp [hline])] at h
      cases h with
      | cons hs h =>
        obtain ⟨all, hreads, hadd⟩ := ih h
        refine ⟨_ :: all, .cons hs hreads, fun d => ?_⟩
        simp only [List.foldlM_cons, hadd]

/-- **A document of plain lines is what those of them make that are no remarks.** -/
theorem parse?_of_reads (h : List.Forall₂ Reads (lines.filter (!isRemark ·)) statements)
    (htext : text.toList = charsOf lines) (hmark : dropMark text.toList = text.toList) :
    parse? text = (statements.foldlM Document.add? Document.empty).map Document.fields := by
  obtain ⟨all, hreads, hadd⟩ := exists_reads_of_filter h
  -- the length of the text bounds its statements, each of which takes a line break
  rw [parse?, hmark, Statement.readAll?, htext, readUpTo?_of_reads hreads (length_le_charsOf lines)]
  simp only [Option.bind_eq_bind, Option.bind_some, hadd]
  cases statements.foldlM Document.add? Document.empty <;> rfl

end Vitals.Toml
