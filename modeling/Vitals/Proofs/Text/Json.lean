/-
  Values are told apart by their compact texts.

  * `unescape?_escape`: a character is read back from its escape.
  * `Plain`: a value without fractions. `compactChars_append_inj`: where the text of such a value ends
    is seen from the text, and so is the value.
  * `Printable`: a text without control characters. `printable_compactChars`: compact texts are
    printable.
-/
import Vitals.Text.Json

namespace Vitals.Text.Json

variable {c : Char} {s t r u : List Char} {v w : Json} {n m : Nat}

/-! ## Quoted texts -/

/-- The value of a hexadecimal digit in lower case. -/
def hexValue (c : Char) : Nat := if c.isDigit then c.toNat - 48 else c.toNat - 87

theorem hexValue_hexDigit : ∀ n < 16, hexValue (hexDigit n) = n := by decide

/-- What a character stands for behind a backslash. -/
def named? : Char → Option Char
  | 'b' => some '\x08'
  | 'f' => some '\x0c'
  | 'n' => some '\n'
  | 'r' => some '\r'
  | 't' => some '\t'
  | c => if c = '"' ∨ c = '\\' then some c else none

/-- Takes a character off the front of a quoted text. -/
def unescape? : List Char → Option (Char × List Char)
  | '\\' :: 'u' :: '0' :: '0' :: a :: b :: rest =>
    some (Char.ofNat (16 * hexValue a + hexValue b), rest)
  | '\\' :: c :: rest => (named? c).map fun d => (d, rest)
  | c :: rest => some (c, rest)
  | [] => none

theorem unescape?_cons (r : List Char) (hc : c ≠ '\\') : unescape? (c :: r) = some (c, r) := by
  unfold unescape?
  split <;> simp_all

/-- **A character is read back from its escape.** -/
theorem unescape?_escape (c : Char) (r : List Char) : unescape? (escape c ++ r) = some (c, r) := by
  unfold escape
  split
  case h_8 _ hslash _ _ _ _ _ =>
    split
    case isTrue hlow =>
      have hread : unescape? (['\\', 'u', '0', '0', hexDigit (c.toNat / 16),
          hexDigit (c.toNat % 16)] ++ r) = some (Char.ofNat
            (16 * hexValue (hexDigit (c.toNat / 16)) + hexValue (hexDigit (c.toNat % 16))), r) := rfl
      rw [hread, hexValue_hexDigit _ (by omega), hexValue_hexDigit _ (by omega), Nat.div_add_mod,
        Char.ofNat_toNat]
    case isFalse => exact unescape?_cons r hslash
  all_goals rfl

/-- No escape can be taken for the closing quote. -/
theorem head?_escape (c : Char) : ∃ d ds, escape c = d :: ds ∧ d ≠ '"' := by
  unfold escape
  split
  case h_8 hquote _ _ _ _ _ _ =>
    split
    case isTrue => exact ⟨_, _, rfl, by decide⟩
    case isFalse => exact ⟨_, _, rfl, hquote⟩
  all_goals exact ⟨_, _, rfl, by decide⟩

theorem flatMap_escape_append_inj
    (h : s.flatMap escape ++ '"' :: r = t.flatMap escape ++ '"' :: u) : s = t ∧ r = u := by
  induction s generalizing t with
  | nil =>
    cases t with
    | nil => exact ⟨rfl, (List.cons.inj h).2⟩
    | cons d t =>
      obtain ⟨e, es, he, hne⟩ := head?_escape d
      rw [List.flatMap_cons, he] at h
      exact absurd (List.cons.inj h).1.symm hne
  | cons c s ih =>
    cases t with
    | nil =>
      obtain ⟨e, es, he, hne⟩ := head?_escape c
      rw [List.flatMap_cons, he] at h
      exact absurd (List.cons.inj h).1 hne
    | cons d t =>
      rw [List.flatMap_cons, List.flatMap_cons, List.append_assoc, List.append_assoc] at h
      have hread := congrArg unescape? h
      rw [unescape?_escape, unescape?_escape, Option.some.injEq, Prod.mk.injEq] at hread
      obtain ⟨rfl, hrest⟩ := hread
      obtain ⟨rfl, hr⟩ := ih hrest
      exact ⟨rfl, hr⟩

theorem quoted_append_inj {a b : String} (h : quoted a ++ r = quoted b ++ u) : a = b ∧ r = u := by
  simp only [quoted, List.cons_append, List.append_assoc] at h
  have hinj := flatMap_escape_append_inj (List.cons.inj h).2
  exact ⟨String.toList_injective hinj.1, hinj.2⟩

/-! ## Numbers -/

/-- A text that does not go on with a digit. -/
def Stops (r : List Char) : Prop := ∀ c, r.head? = some c → c.isDigit = false

theorem stops_nil : Stops [] := fun _ h => by cases h

theorem stops_cons (hc : c.isDigit = false) : Stops (c :: r) := by
  intro d h
  cases h
  exact hc

theorem takeWhile_toDigits_append (n : Nat) (hr : Stops r) :
    (Nat.toDigits 10 n ++ r).takeWhile Char.isDigit = Nat.toDigits 10 n := by
  have hrest : r.takeWhile Char.isDigit = [] := by
    cases r with
    | nil => rfl
    | cons c r => exact List.takeWhile_cons_of_neg (by simp [hr c rfl])
  have hdigits : ∀ c ∈ Nat.toDigits 10 n, c.isDigit = true :=
    fun c hc => Nat.isDigit_of_mem_toDigits (by decide) (by decide) hc
  rw [List.takeWhile_append_of_pos hdigits, hrest, List.append_nil]

theorem toDigits_append_inj (hr : Stops r) (hu : Stops u)
    (h : Nat.toDigits 10 n ++ r = Nat.toDigits 10 m ++ u) : n = m ∧ r = u := by
  have hdigits : Nat.toDigits 10 n = Nat.toDigits 10 m := by
    rw [← takeWhile_toDigits_append n hr, h, takeWhile_toDigits_append m hu]
  have hnumber : n = m := by
    rw [← Nat.ofDigitChars_ten_toDigits (n := n), hdigits, Nat.ofDigitChars_ten_toDigits]
  rw [hdigits] at h
  exact ⟨hnumber, List.append_cancel_left h⟩

/-! ## Values -/

/-- A value without fractions. -/
inductive Plain : Json → Prop where
  | number (n : Nat) : Plain (.number n)
  | flag (b : Bool) : Plain (.flag b)
  | text (s : String) : Plain (.text s)
  | list {items : List Json} (h : ∀ v ∈ items, Plain v) : Plain (.list items)
  | record {fields : List (String × Json)} (h : ∀ f ∈ fields, Plain f.2) : Plain (.record fields)

/-- The kinds of values without fractions. -/
inductive Kind where
  | number | flag | text | list | record
  deriving DecidableEq

/-- The kind of a value, from the first character of its text. -/
def Kind.ofLead? (c : Char) : Option Kind :=
  if c.isDigit then some number
  else if c = '"' then some text
  else if c = '[' then some list
  else if c = '\x7b' then some record
  else if c = 't' ∨ c = 'f' then some flag
  else none

/-- The kind of a value. -/
def kind : Json → Kind
  | number _ | decimal _ => .number
  | flag _ => .flag
  | text _ => .text
  | list _ => .list
  | record _ => .record

/-- The first character of a text shows the kind of the value. -/
theorem exists_lead (h : Plain v) : ∃ c cs, v.compactChars = c :: cs ∧
    Kind.ofLead? c = some v.kind := by
  cases h with
  | number n =>
    obtain ⟨c, cs, hcs⟩ := List.exists_cons_of_ne_nil (Nat.toDigits_ne_nil (n := n) (b := 10))
    have hc : c.isDigit = true :=
      Nat.isDigit_of_mem_toDigits (by decide) (by decide) (hcs ▸ List.mem_cons_self)
    exact ⟨c, cs, hcs, if_pos hc⟩
  | flag b => cases b <;> exact ⟨_, _, rfl, by decide⟩
  | text s => exact ⟨_, _, rfl, rfl⟩
  | @list items h =>
    cases items with
    | nil => exact ⟨_, _, rfl, rfl⟩
    | cons v vs => exact ⟨_, _, by rw [compactChars]; rfl, rfl⟩
  | @record fields h =>
    cases fields with
    | nil => exact ⟨_, _, rfl, rfl⟩
    | cons f fs => exact ⟨_, _, by rw [compactChars]; rfl, rfl⟩

/-- Values of texts that begin alike are of one kind. -/
theorem kind_eq (hv : Plain v) (hw : Plain w) (h : v.compactChars ++ r = w.compactChars ++ u) :
    v.kind = w.kind := by
  obtain ⟨c, cs, hcs, hc⟩ := exists_lead hv
  obtain ⟨d, ds, hds, hd⟩ := exists_lead hw
  rw [hcs, hds] at h
  rw [(List.cons.inj h).1, hd] at hc
  exact (Option.some.inj hc).symm

/-- No closing bracket stands where a value begins. -/
theorem not_lead (hv : Plain v) (hc : Kind.ofLead? c = none) : v.compactChars ++ r ≠ c :: u := by
  obtain ⟨d, ds, hds, hd⟩ := exists_lead hv
  intro h
  rw [hds] at h
  rw [(List.cons.inj h).1, hc] at hd
  cases hd

theorem stops_items (vs : List Json) (r : List Char) : Stops (compactItems vs ++ ']' :: r) := by
  cases vs with
  | nil => exact stops_cons rfl
  | cons v vs =>
    rw [compactItems]
    exact stops_cons rfl

theorem stops_fields (fs : List (String × Json)) (r : List Char) :
    Stops (compactFields fs ++ '\x7d' :: r) := by
  cases fs with
  | nil => exact stops_cons rfl
  | cons f fs =>
    rw [compactFields]
    exact stops_cons rfl

theorem flag_append_inj {a b : Bool}
    (h : (flag a).compactChars ++ r = (flag b).compactChars ++ u) : flag a = flag b ∧ r = u := by
  cases a <;> cases b
  case false.false | true.true => exact ⟨rfl, List.append_cancel_left h⟩
  all_goals exact absurd (List.cons.inj h).1 (by decide)

theorem Plain.items {vs : List Json} : Plain (.list vs) → ∀ v ∈ vs, Plain v
  | .list h => h

theorem Plain.fields {fs : List (String × Json)} : Plain (.record fs) → ∀ f ∈ fs, Plain f.2
  | .record h => h

theorem compactChars_list_cons (v : Json) (vs : List Json) (r : List Char) :
    (list (v :: vs)).compactChars ++ r = '[' :: (v.compactChars ++ (compactItems vs ++ ']' :: r)) := by
  simp only [compactChars, List.cons_append, List.append_assoc, List.nil_append]

theorem compactChars_record_cons (k : String) (v : Json) (fs : List (String × Json))
    (r : List Char) : (record ((k, v) :: fs)).compactChars ++ r =
      '\x7b' :: (quoted k ++ ':' :: (v.compactChars ++ (compactFields fs ++ '\x7d' :: r))) := by
  simp only [compactChars, List.cons_append, List.append_assoc, List.nil_append]

theorem compactItems_cons (v : Json) (vs : List Json) (r : List Char) :
    compactItems (v :: vs) ++ r = ',' :: (v.compactChars ++ (compactItems vs ++ r)) := by
  simp only [compactItems, List.cons_append, List.append_assoc]

theorem compactFields_cons (k : String) (v : Json) (fs : List (String × Json)) (r : List Char) :
    compactFields ((k, v) :: fs) ++ r =
      ',' :: (quoted k ++ ':' :: (v.compactChars ++ (compactFields fs ++ r))) := by
  simp only [compactFields, List.cons_append, List.append_assoc]

/-- The items of lists of equal texts have equal texts, each behind a comma. -/
theorem compactItems_eq_of_list {vs ws : List Json} (hvs : Plain (list vs)) (hws : Plain (list ws))
    (h : (list vs).compactChars ++ r = (list ws).compactChars ++ u) :
    compactItems vs ++ ']' :: r = compactItems ws ++ ']' :: u := by
  cases vs with
  | nil =>
    cases ws with
    | nil => exact (List.cons.inj h).2
    | cons w ws =>
      rw [compactChars_list_cons] at h
      exact absurd (List.cons.inj h).2.symm (not_lead (hws.items w List.mem_cons_self) rfl)
  | cons v vs =>
    cases ws with
    | nil =>
      rw [compactChars_list_cons] at h
      exact absurd (List.cons.inj h).2 (not_lead (hvs.items v List.mem_cons_self) rfl)
    | cons w ws =>
      rw [compactChars_list_cons, compactChars_list_cons] at h
      rw [compactItems_cons, compactItems_cons, (List.cons.inj h).2]

/-- The fields of records of equal texts have equal texts, each behind a comma. -/
theorem compactFields_eq_of_record {fs gs : List (String × Json)}
    (h : (record fs).compactChars ++ r = (record gs).compactChars ++ u) :
    compactFields fs ++ '\x7d' :: r = compactFields gs ++ '\x7d' :: u := by
  cases fs with
  | nil =>
    cases gs with
    | nil => exact (List.cons.inj h).2
    | cons g gs =>
      rw [compactChars_record_cons] at h
      exact absurd (List.cons.inj (List.cons.inj h).2).1 (by decide)
  | cons f fs =>
    cases gs with
    | nil =>
      rw [compactChars_record_cons] at h
      exact absurd (List.cons.inj (List.cons.inj h).2).1 (by decide)
    | cons g gs =>
      rw [compactChars_record_cons, compactChars_record_cons] at h
      rw [compactFields_cons, compactFields_cons, (List.cons.inj h).2]

mutual

/-- **A value and its end are seen from its text**, unless more digits follow. -/
theorem compactChars_append_inj {v w : Json} {r u : List Char} (hv : Plain v) (hw : Plain w)
    (hr : Stops r) (hu : Stops u) (h : v.compactChars ++ r = w.compactChars ++ u) :
    v = w ∧ r = u := by
  have hkind := kind_eq hv hw h
  cases v with
  | decimal => cases hv
  | number n =>
    cases w with
    | number m =>
      obtain ⟨rfl, hrest⟩ := toDigits_append_inj hr hu h
      exact ⟨rfl, hrest⟩
    | decimal => cases hw
    | _ => cases hkind
  | flag a =>
    cases w with
    | flag b => exact flag_append_inj h
    | _ => cases hkind
  | text a =>
    cases w with
    | text b =>
      obtain ⟨rfl, hrest⟩ := quoted_append_inj h
      exact ⟨rfl, hrest⟩
    | _ => cases hkind
  | list vs =>
    cases w with
    | list ws =>
      have hitems := compactItems_eq_of_list hv hw h
      obtain ⟨rfl, hrest⟩ := compactItems_append_inj hv.items hw.items hitems
      exact ⟨rfl, hrest⟩
    | _ => cases hkind
  | record fs =>
    cases w with
    | record gs =>
      have hfields := compactFields_eq_of_record h
      obtain ⟨rfl, hrest⟩ := compactFields_append_inj hv.fields hw.fields hfields
      exact ⟨rfl, hrest⟩
    | _ => cases hkind

theorem compactItems_append_inj {vs ws : List Json} {r u : List Char} (hvs : ∀ v ∈ vs, Plain v)
    (hws : ∀ w ∈ ws, Plain w) (h : compactItems vs ++ ']' :: r = compactItems ws ++ ']' :: u) :
    vs = ws ∧ r = u := by
  cases vs with
  | nil =>
    cases ws with
    | nil => exact ⟨rfl, (List.cons.inj h).2⟩
    | cons w ws =>
      rw [compactItems_cons] at h
      exact absurd (List.cons.inj h).1 (by decide)
  | cons v vs =>
    cases ws with
    | nil =>
      rw [compactItems_cons] at h
      exact absurd (List.cons.inj h).1 (by decide)
    | cons w ws =>
      rw [List.forall_mem_cons] at hvs hws
      rw [compactItems_cons, compactItems_cons] at h
      obtain ⟨rfl, hrest⟩ := compactChars_append_inj hvs.1 hws.1 (stops_items vs r)
        (stops_items ws u) (List.cons.inj h).2
      obtain ⟨rfl, hend⟩ := compactItems_append_inj hvs.2 hws.2 hrest
      exact ⟨rfl, hend⟩

theorem compactFields_append_inj {fs gs : List (String × Json)} {r u : List Char}
    (hfs : ∀ f ∈ fs, Plain f.2) (hgs : ∀ g ∈ gs, Plain g.2)
    (h : compactFields fs ++ '\x7d' :: r = compactFields gs ++ '\x7d' :: u) :
    fs = gs ∧ r = u := by
  match fs, gs with
  | [], [] => exact ⟨rfl, (List.cons.inj h).2⟩
  | [], (l, w) :: gs =>
    rw [compactFields_cons] at h
    exact absurd (List.cons.inj h).1 (by decide)
  | (k, v) :: fs, [] =>
    rw [compactFields_cons] at h
    exact absurd (List.cons.inj h).1 (by decide)
  | (k, v) :: fs, (l, w) :: gs =>
    rw [List.forall_mem_cons] at hfs hgs
    rw [compactFields_cons, compactFields_cons] at h
    obtain ⟨rfl, hvalue⟩ := quoted_append_inj (List.cons.inj h).2
    obtain ⟨rfl, hrest⟩ := compactChars_append_inj hfs.1 hgs.1 (stops_fields fs r)
      (stops_fields gs u) (List.cons.inj hvalue).2
    obtain ⟨rfl, hend⟩ := compactFields_append_inj hfs.2 hgs.2 hrest
    exact ⟨rfl, hend⟩

end

/-- **Values of equal compact texts are equal.** -/
theorem compact_inj (hv : Plain v) (hw : Plain w) (h : v.compact = w.compact) : v = w := by
  have hchars : v.compactChars ++ [] = w.compactChars ++ [] := by
    rw [String.ofList_injective h]
  exact (compactChars_append_inj hv hw stops_nil stops_nil hchars).1

/-! ## Printable texts -/

/-- A text without control characters below U+0020, line breaks among them. -/
def Printable (s : List Char) : Prop := ∀ c ∈ s, 0x20 ≤ c.toNat

instance (s : List Char) : Decidable (Printable s) :=
  List.decidableBAll (fun c : Char => 0x20 ≤ c.toNat) s

namespace Printable

theorem nil : Printable [] := fun _ h => by cases h

theorem cons (hc : 0x20 ≤ c.toNat) (hs : Printable s) : Printable (c :: s) :=
  List.forall_mem_cons.2 ⟨hc, hs⟩

theorem append (hs : Printable s) (ht : Printable t) : Printable (s ++ t) :=
  List.forall_mem_append.2 ⟨hs, ht⟩

end Printable

theorem printable_escape (c : Char) : Printable (escape c) := by
  have hdigit : ∀ n < 16, 0x20 ≤ (hexDigit n).toNat := by decide
  unfold escape
  split
  case h_8 =>
    split
    case isTrue hlow =>
      have hhigh := hdigit (c.toNat / 16) (by omega)
      have hrest := hdigit (c.toNat % 16) (by omega)
      simp [Printable, hhigh, hrest]
    case isFalse hlow => simpa [Printable] using hlow
  all_goals decide

theorem printable_quoted (a : String) : Printable (quoted a) := by
  have hbody : Printable (a.toList.flatMap escape) := by
    intro c hc
    obtain ⟨d, -, hd⟩ := List.mem_flatMap.1 hc
    exact printable_escape d c hd
  exact .cons (by decide) (hbody.append (.cons (by decide) .nil))

theorem printable_toDigits (n : Nat) : Printable (Nat.toDigits 10 n) := by
  intro c hc
  have hdigit : c.isDigit = true := Nat.isDigit_of_mem_toDigits (by decide) (by decide) hc
  have hlow : 48 ≤ c.toNat := of_decide_eq_true ((Bool.and_eq_true _ _).mp hdigit).1
  omega

mutual

/-- **Compact texts are printable.** -/
theorem printable_compactChars {v : Json} (hv : Plain v) : Printable v.compactChars := by
  match v, hv with
  | .number n, _ => exact printable_toDigits n
  | .flag b, _ => cases b <;> decide
  | .text a, _ => exact printable_quoted a
  | .list [], _ => exact .cons (by decide) (.cons (by decide) .nil)
  | .record [], _ => exact .cons (by decide) (.cons (by decide) .nil)
  | .list (v :: vs), hv =>
    have hvs := List.forall_mem_cons.1 hv.items
    have hfirst := printable_compactChars hvs.1
    rw [compactChars]
    exact ((hfirst.cons (by decide)).append (printable_compactItems hvs.2)).append
      (.cons (by decide) .nil)
  | .record ((k, v) :: fs), hv =>
    have hfs := List.forall_mem_cons.1 hv.fields
    have hkey := printable_quoted k
    have hvalue := printable_compactChars hfs.1
    have hfield : Printable ('\x7b' :: quoted k ++ ':' :: v.compactChars) :=
      (hkey.cons (by decide)).append (hvalue.cons (by decide))
    rw [compactChars]
    exact (hfield.append (printable_compactFields hfs.2)).append (.cons (by decide) .nil)

theorem printable_compactItems {vs : List Json} (hvs : ∀ v ∈ vs, Plain v) :
    Printable (compactItems vs) := by
  match vs, hvs with
  | [], _ => exact .nil
  | v :: vs, hvs =>
    rw [List.forall_mem_cons] at hvs
    rw [compactItems]
    exact ((printable_compactChars hvs.1).cons (by decide)).append (printable_compactItems hvs.2)

theorem printable_compactFields {fs : List (String × Json)} (hfs : ∀ f ∈ fs, Plain f.2) :
    Printable (compactFields fs) := by
  match fs, hfs with
  | [], _ => exact .nil
  | (k, v) :: fs, hfs =>
    rw [List.forall_mem_cons] at hfs
    have hkey := printable_quoted k
    have hvalue := printable_compactChars hfs.1
    rw [compactFields]
    exact ((hkey.cons (by decide)).append (hvalue.cons (by decide))).append
      (printable_compactFields hfs.2)

end

end Vitals.Text.Json
