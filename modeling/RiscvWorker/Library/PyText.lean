import Mathlib.Data.List.DropRight
import RiscvWorker.Library.Text

/-! # Python text

  What Python does with ASCII text: `strip`, `split`, `decode`, the formats
  of integers, `int(text, 0)` and `int(text, 16)`, and the lines of a text
  file. A string is a list of its code points; 255 stands for U+FFFD, the
  replacement character, the only one beyond ASCII that `decode` makes.
-/

namespace PyText

open Text

/-- White space of `str.strip` and `str.split` among the ASCII characters. -/
def isspace (c : Byte) : Bool :=
  decide (9 ≤ c.toNat ∧ c.toNat ≤ 13) || decide (28 ≤ c.toNat ∧ c.toNat ≤ 32)

/-- `s.strip()` -/
def strip (s : List Byte) : List Byte := ((s.dropWhile isspace).reverse.dropWhile isspace).reverse

/-- `s.split()` -/
def split (s : List Byte) : List (List Byte) := tokens isspace s

/-- `raw.decode("ascii", errors="replace")` -/
def decode (raw : List Byte) : List Byte := raw.map fun c => if c.toNat < 128 then c else 255#8

/-- `str(n)` -/
def str_int (n : Int) : List Byte :=
  if n < 0 then ascii "-" ++ numeral 10 n.natAbs else numeral 10 n.natAbs

/-- `f"{n:0<width>X}"`: the sign counts for the width. -/
def format_X (width : Nat) (n : Int) : List Byte :=
  if n < 0 then ascii "-" ++ zero_pad (width - 1) (numeral 16 n.natAbs)
  else zero_pad width (numeral 16 n.natAbs)

/-- The base that a literal names, and its digits. -/
def literal_base (s : List Byte) : Nat × List Byte :=
  if s.take 2 = ascii "0x" ∨ s.take 2 = ascii "0X" then (16, s.drop 2)
  else if s.take 2 = ascii "0o" ∨ s.take 2 = ascii "0O" then (8, s.drop 2)
  else if s.take 2 = ascii "0b" ∨ s.take 2 = ascii "0B" then (2, s.drop 2)
  else (10, s)

/-- An unsigned literal. Underscores may separate digits, also from the prefix;
    a decimal one has no leading zeros unless it is zero. -/
def int_literal (s : List Byte) : Option Nat :=
  let base := literal_base s
  let body := if base.1 ≠ 10 ∧ base.2.take 1 = ascii "_" then base.2.drop 1 else base.2
  let parts := body.splitOnP (· = 95#8)
  if parts.all fun p => !p.isEmpty && p.all fun c => decide (digit_value c < base.1) then
    let value := numeral_value base.1 parts.flatten
    if base.1 = 10 ∧ s.take 1 = ascii "0" ∧ value ≠ 0 then none else some value
  else none

/-- `int(text, 0)`; nothing for a `ValueError`. -/
def int_base0 (text : List Byte) : Option Int :=
  let s := strip text
  if s.take 1 = ascii "-" then (int_literal (s.drop 1)).map fun n : Nat => -(n : Int)
  else if s.take 1 = ascii "+" then (int_literal (s.drop 1)).map fun n : Nat => (n : Int)
  else (int_literal s).map fun n : Nat => (n : Int)

/-- An unsigned literal in base 16, with or without prefix. -/
def hex_literal (s : List Byte) : Option Nat :=
  let body :=
    if s.take 2 = ascii "0x" ∨ s.take 2 = ascii "0X" then
      if (s.drop 2).take 1 = ascii "_" then s.drop 3 else s.drop 2
    else s
  let parts := body.splitOnP (· = 95#8)
  if parts.all fun p => !p.isEmpty && p.all fun c => decide (digit_value c < 16) then
    some (numeral_value 16 parts.flatten)
  else none

/-- `int(text, 16)`; nothing for a `ValueError`. -/
def int_base16 (text : List Byte) : Option Int :=
  let s := strip text
  if s.take 1 = ascii "-" then (hex_literal (s.drop 1)).map fun n : Nat => -(n : Int)
  else if s.take 1 = ascii "+" then (hex_literal (s.drop 1)).map fun n : Nat => (n : Int)
  else (hex_literal s).map fun n : Nat => (n : Int)

/-- A text as it is read from a file: `\r\n` and `\r` are line ends too. The
    flag says that the character before was `\r`. -/
def universal_newlines : Bool → List Byte → List Byte
  | _, [] => []
  | after_cr, c :: s =>
    if c = 13#8 then 10#8 :: universal_newlines true s
    else if c = 10#8 ∧ after_cr then universal_newlines false s
    else c :: universal_newlines false s

/-- The lines that iteration over a text file yields, without their ends. -/
def file_lines (s : List Byte) : List (List Byte) :=
  let pieces := (universal_newlines false s).splitOnP (· = 10#8)
  -- after the last line end there is no line
  if pieces.getLast? = some [] then pieces.dropLast else pieces

/-! ### Lemmas -/

/-- Nothing is stripped in front of a word. -/
theorem dropWhile_word {c : Byte} (hc : isspace c = false) (s : List Byte) :
    (c :: s).dropWhile isspace = c :: s :=
  List.dropWhile_cons_of_neg (by simp [hc])

/-- Strip takes off what is white at the end. -/
theorem strip_append {s t : List Byte} (hne : s ≠ []) (hhead : isspace (s.head hne) = false)
    (hlast : isspace (s.getLast hne) = false) (ht : ∀ c ∈ t, isspace c = true) :
    strip (s ++ t) = s := by
  have hfront : (s ++ t).dropWhile isspace = s ++ t := by
    obtain ⟨c, s', rfl⟩ := List.exists_cons_of_ne_nil hne
    exact dropWhile_word hhead (s' ++ t)
  have hback : s.reverse.dropWhile isspace = s.reverse := by
    obtain ⟨c, s', hs⟩ := List.exists_cons_of_ne_nil (List.reverse_ne_nil_iff.mpr hne)
    have hc : isspace c = false := by
      rw [← List.head_reverse (List.reverse_ne_nil_iff.mpr hne)] at hlast
      simpa [hs] using hlast
    rw [hs]
    exact dropWhile_word hc s'
  have ht' : ∀ c ∈ t.reverse, isspace c = true := fun c hc => ht c (List.mem_reverse.mp hc)
  unfold strip
  rw [hfront, List.reverse_append, List.dropWhile_append_of_pos ht', hback, List.reverse_reverse]

/-- What `strip` leaves of a text that begins with a word. -/
theorem strip_prefix {c : Byte} (hc : isspace c = false) (s : List Byte) :
    strip (c :: s) <+: c :: s := by
  unfold strip
  rw [dropWhile_word hc]
  exact List.rdropWhile_prefix isspace _

/-- A word stays. -/
theorem word_prefix_strip {w : List Byte} (hne : w ≠ []) (hw : ∀ c ∈ w, isspace c = false)
    (s : List Byte) : w <+: strip (w ++ s) := by
  have hfront : (w ++ s).dropWhile isspace = w ++ s := by
    obtain ⟨c, w', rfl⟩ := List.exists_cons_of_ne_nil hne
    exact dropWhile_word (hw c (by simp)) (w' ++ s)
  have hback : w.reverse.dropWhile isspace = w.reverse := by
    obtain ⟨c, w', hrev⟩ := List.exists_cons_of_ne_nil (List.reverse_ne_nil_iff.mpr hne)
    have hc : isspace c = false := hw c (List.mem_reverse.mp (by simp [hrev]))
    rw [hrev]
    exact dropWhile_word hc w'
  unfold strip
  rw [hfront, List.reverse_append, List.dropWhile_append, hback]
  split_ifs
  · rw [List.reverse_reverse]
  · rw [List.reverse_append, List.reverse_reverse]
    exact List.prefix_append _ _

/-- `strip` leaves something of what is not white. -/
theorem strip_ne_nil_of_mem {s : List Byte} {c : Byte} (hmem : c ∈ s) (hc : isspace c = false) :
    strip s ≠ [] := by
  intro hnil
  have hback := (List.rdropWhile_eq_nil_iff (p := isspace)).mp hnil
  have hspace : isspace c = true := by
    rw [← List.takeWhile_append_dropWhile (p := isspace) (l := s)] at hmem
    rcases List.mem_append.mp hmem with hfront | hrest
    · exact List.mem_takeWhile_imp hfront
    · exact hback c hrest
  simp [hc] at hspace

theorem strip_ne_nil {c : Byte} (hc : isspace c = false) (s : List Byte) : strip (c :: s) ≠ [] :=
  strip_ne_nil_of_mem List.mem_cons_self hc

/-- A newline at the end does not matter. -/
theorem strip_newline {c : Byte} (hc : isspace c = false) (s : List Byte) :
    strip (c :: s ++ [10#8]) = strip (c :: s) := by
  unfold strip
  rw [List.cons_append, dropWhile_word hc, dropWhile_word hc, ← List.cons_append,
    List.reverse_append, List.reverse_singleton, List.singleton_append,
    List.dropWhile_cons_of_pos (by decide)]

theorem decode_ascii {raw : List Byte} (h : ∀ c ∈ raw, c.toNat < 128) : decode raw = raw := by
  have hid : ∀ c ∈ raw, (if c.toNat < 128 then c else 255#8) = id c := by
    intro c hc
    exact if_pos (h c hc)
  unfold decode
  rw [List.map_congr_left hid, List.map_id]

/-- Alphanumeric characters are not white. -/
theorem isspace_of_digit {c : Byte} (h : digit_value c < 36) :
    isspace c = false ∧ c.toNat < 128 := by
  revert c
  decide +kernel

/-- `strip` leaves a word as it is. -/
theorem strip_word {w : List Byte} (hne : w ≠ []) (hw : ∀ c ∈ w, isspace c = false) :
    strip w = w := by
  have h := strip_append (t := []) hne (hw _ (List.head_mem hne)) (hw _ (List.getLast_mem hne))
    (by simp)
  rwa [List.append_nil] at h

/-- No digit is an underscore. -/
theorem no_underscore {ds : List Byte} (hds : ∀ c ∈ ds, digit_value c < 16) :
    ∀ c ∈ ds, decide (c = 95#8) = false := by
  intro c hc
  have hdigit := hds c hc
  rw [decide_eq_false_iff_not]
  rintro rfl
  exact absurd hdigit (by decide)

theorem int_literal_hex {ds : List Byte} (hne : ds ≠ []) (hds : ∀ c ∈ ds, digit_value c < 16) :
    int_literal (ascii "0x" ++ ds) = some (numeral_value 16 ds) := by
  have hbase : literal_base (ascii "0x" ++ ds) = (16, ds) := rfl
  obtain ⟨d, ds', rfl⟩ := List.exists_cons_of_ne_nil hne
  have hunder := no_underscore hds
  have hd : (d :: ds').take 1 ≠ ascii "_" := by
    intro h
    have hd : d = 95#8 := (List.cons.inj h).1
    simpa [hd] using hunder d (by simp)
  unfold int_literal
  rw [hbase]
  simp only [hd, and_false, if_false]
  rw [List.splitOnP_eq_singleton hunder, if_pos (by simpa using hds), if_neg (by simp),
    List.flatten_singleton]

/-- `int` reads the digits of an `0x` literal. -/
theorem int_base0_hex {ds : List Byte} (hne : ds ≠ []) (hds : ∀ c ∈ ds, digit_value c < 16) :
    int_base0 (ascii "0x" ++ ds) = some (numeral_value 16 ds : Int) := by
  have happ : ascii "0x" ++ ds ≠ [] := by simp [ascii]
  have hpre : ∀ c ∈ ascii "0x", isspace c = false := by decide
  have hspace : ∀ c ∈ ascii "0x" ++ ds, isspace c = false := by
    intro c hc
    rcases List.mem_append.mp hc with hc | hc
    · exact hpre c hc
    · have hd := hds c hc
      exact (isspace_of_digit (by omega)).1
  have hstrip := strip_word happ hspace
  have htake : (ascii "0x" ++ ds).take 1 = ascii "0" := rfl
  unfold int_base0
  dsimp only
  rw [hstrip, htake, if_neg (by decide), if_neg (by decide), int_literal_hex hne hds]
  rfl

theorem hex_literal_digits {ds : List Byte} (hne : ds ≠ []) (hds : ∀ c ∈ ds, digit_value c < 16) :
    hex_literal ds = some (numeral_value 16 ds) := by
  have hunder := no_underscore hds
  -- the second character of a prefix is no digit
  have hpre : ∀ x : Byte, 16 ≤ digit_value x → ∀ z : Byte, ds.take 2 ≠ [z, x] := by
    intro x hx z htake
    have hmem : x ∈ ds := List.mem_of_mem_take (i := 2) (by rw [htake]; simp)
    have hlt := hds x hmem
    omega
  have hbody : ¬ (ds.take 2 = ascii "0x" ∨ ds.take 2 = ascii "0X") := by
    rintro (h | h)
    · exact hpre 120#8 (by decide) 48#8 h
    · exact hpre 88#8 (by decide) 48#8 h
  unfold hex_literal
  dsimp only
  rw [if_neg hbody, List.splitOnP_eq_singleton hunder, List.flatten_singleton, if_pos]
  simpa [hne] using hds

/-- `int(text, 16)` reads hexadecimal digits. -/
theorem int_base16_digits {ds : List Byte} (hne : ds ≠ []) (hds : ∀ c ∈ ds, digit_value c < 16) :
    int_base16 ds = some (numeral_value 16 ds : Int) := by
  have hspace : ∀ c ∈ ds, isspace c = false := by
    intro c hc
    have hlt := hds c hc
    exact (isspace_of_digit (by omega)).1
  have hsign : ∀ x : Byte, 16 ≤ digit_value x → ds.take 1 ≠ [x] := by
    intro x hx htake
    have hmem : x ∈ ds := List.mem_of_mem_take (i := 1) (by rw [htake]; simp)
    have hlt := hds x hmem
    omega
  have hminus : ds.take 1 ≠ ascii "-" := hsign 45#8 (by decide)
  have hplus : ds.take 1 ≠ ascii "+" := hsign 43#8 (by decide)
  unfold int_base16
  dsimp only
  rw [strip_word hne hspace, if_neg hminus, if_neg hplus, hex_literal_digits hne hds]
  rfl

theorem universal_newlines_of_plain {s : List Byte} (hs : 13#8 ∉ s) :
    universal_newlines false s = s := by
  induction s with
  | nil => rfl
  | cons c s ih =>
    rw [List.mem_cons, not_or] at hs
    rw [universal_newlines, if_neg (Ne.symm hs.1), if_neg (by simp), ih hs.2]

/-- The lines of a file to which lines were written. -/
theorem file_lines_of_lines {ws : List (List Byte)}
    (hws : ∀ w ∈ ws, ∀ c ∈ w, c ≠ 10#8 ∧ c ≠ 13#8) :
    file_lines (ws.map (· ++ ascii "\n")).flatten = ws := by
  have hplain : 13#8 ∉ (ws.map (· ++ ascii "\n")).flatten := by
    intro h
    obtain ⟨l, hl, hc⟩ := List.mem_flatten.mp h
    obtain ⟨w, hw, rfl⟩ := List.mem_map.mp hl
    rcases List.mem_append.mp hc with hc | hc
    · exact (hws w hw _ hc).2 rfl
    · exact absurd hc (by decide)
  have hsplit : (ws.map (· ++ ascii "\n")).flatten.splitOnP (· = 10#8) = ws ++ [[]] := by
    clear hplain
    induction ws with
    | nil => rfl
    | cons w ws ih =>
      have hw : ∀ c ∈ w, decide (c = 10#8) = false := by
        intro c hc
        exact decide_eq_false (hws w List.mem_cons_self c hc).1
      rw [List.map_cons, List.flatten_cons, List.append_assoc]
      show (w ++ 10#8 :: (ws.map (· ++ ascii "\n")).flatten).splitOnP (· = 10#8) = _
      rw [List.splitOnP_append_cons_of_forall_mem hw _ (by decide),
        ih (fun v hv => hws v (List.mem_cons_of_mem w hv)), List.cons_append]
  unfold file_lines
  rw [universal_newlines_of_plain hplain, hsplit]
  simp

end PyText
