import Mathlib.Data.List.Forall2
import RiscvWorker.Tools.Rv322coe

/-! # The memory image of a converted program

  The conversion takes four byte values to a word in the order of their
  addresses, and the loader takes the word apart again, so that what is stored
  are the values of the listing, line by line, without those that do not fill
  a word. They come to their addresses if these count from zero without a gap
  and no line leaves a rest.
-/

namespace RiscvWorker

open Text (Byte ascii digit_value numeral_value)
open PyText (strip split file_lines int_base16)

namespace Rv322coe

/-! ### Lists -/

/-- A list is mapped if every element is. -/
theorem mapM_eq_some_iff {α β : Type} {f : α → Option β} {l : List α} {l' : List β} :
    l.mapM f = some l' ↔ List.Forall₂ (fun a b => f a = some b) l l' := by
  induction l generalizing l' with
  | nil =>
    rw [List.mapM_nil, List.forall₂_nil_left_iff]
    exact ⟨fun h => (Option.some.inj h).symm, fun h => congrArg some h.symm⟩
  | cons a l ih =>
    rw [List.mapM_cons, List.forall₂_cons_left_iff]
    constructor
    · intro h
      cases hfa : f a with
      | none =>
        rw [hfa] at h
        cases h
      | some b =>
        cases hl : l.mapM f with
        | none =>
          rw [hfa, hl] at h
          cases h
        | some bs =>
          rw [hfa, hl] at h
          exact ⟨b, bs, rfl, ih.mp hl, (Option.some.inj h).symm⟩
    · rintro ⟨b, bs, hb, hbs, rfl⟩
      rw [hb, ih.mpr hbs]
      rfl

/-- A list that does not begin with four elements has fewer. -/
theorem length_lt_four {α : Type} {l : List α}
    (h : ∀ a b c d rest, l = a :: b :: c :: d :: rest → False) : l.length < 4 := by
  match l, h with
  | [], _ => simp
  | [_], _ => simp
  | [_, _], _ => simp
  | [_, _, _], _ => simp
  | a :: b :: c :: d :: rest, h => exact absurd rfl (h a b c d rest)

/-- The values that fill words, in fours. -/
def whole_groups : List Byte → List (List Byte)
  | b0 :: b1 :: b2 :: b3 :: rest => [b0, b1, b2, b3] :: whole_groups rest
  | _ => []

theorem whole_groups_of_short {values : List Byte} (h : values.length < 4) :
    whole_groups values = [] := by
  match values, h with
  | [], _ => rfl
  | [_], _ => rfl
  | [_, _], _ => rfl
  | [_, _, _], _ => rfl
  | _ :: _ :: _ :: _ :: _, h =>
    simp only [List.length_cons] at h
    omega

theorem whole_groups_width (values : List Byte) : ∀ g ∈ whole_groups values, g.length = 4 := by
  induction values using whole_groups.induct with
  | case1 b0 b1 b2 b3 rest ih =>
    intro g hg
    rcases List.mem_cons.mp hg with rfl | hg
    · rfl
    · exact ih g hg
  | case2 values hne =>
    intro g hg
    rw [whole_groups.eq_2 values hne] at hg
    exact absurd hg List.not_mem_nil

/-- Nothing is moved within a line, and a rest of less than four is dropped. -/
theorem flatten_whole_groups (values : List Byte) :
    (whole_groups values).flatten = values.take (values.length / 4 * 4) := by
  induction values using whole_groups.induct with
  | case1 b0 b1 b2 b3 rest ih =>
    have hlen : (b0 :: b1 :: b2 :: b3 :: rest).length / 4 * 4 = rest.length / 4 * 4 + 4 := by
      simp only [List.length_cons]
      omega
    rw [whole_groups, List.flatten_cons, ih, hlen]
    rfl
  | case2 values hne =>
    have hshort := length_lt_four hne
    have hzero : values.length / 4 * 4 = 0 := by omega
    rw [whole_groups.eq_2 values hne, hzero]
    rfl

/-! ### Words -/

theorem numeral_value_append (base : Nat) (v w : Str) :
    numeral_value base (v ++ w) = numeral_value base w + base ^ w.length * numeral_value base v := by
  unfold numeral_value
  rw [List.map_append, List.reverse_append, Nat.ofDigits_append, List.length_reverse,
    List.length_map]

/-- What a byte value is. -/
theorem byte_value_some {w : Str} {b : Byte} (h : byte_value w = some b) :
    w.length = 2 ∧ (∀ c ∈ w, digit_value c < 16) ∧ numeral_value 16 w = b.toNat := by
  unfold byte_value at h
  split at h
  · rename_i hw
    refine ⟨hw.1, hw.2, ?_⟩
    have hlt : numeral_value 16 w < 16 ^ (w.map digit_value).reverse.length := by
      apply Nat.ofDigits_lt_base_pow_length (by decide)
      intro d hd
      obtain ⟨c, hc, rfl⟩ := List.mem_map.mp (List.mem_reverse.mp hd)
      exact hw.2 c hc
    rw [List.length_reverse, List.length_map, hw.1] at hlt
    rw [← Option.some.inj h, BitVec.toNat_ofNat]
    omega
  · cases h

/-- The word is read as the four bytes. -/
structure Reads (w : Str) (g : List Byte) : Prop where
  ne_nil : w ≠ []
  digits : ∀ c ∈ w, digit_value c < 16
  value : (int_base16 w).bind to_bytes = some g

theorem reads_word {w0 w1 w2 w3 : Str} {b0 b1 b2 b3 : Byte} (h0 : byte_value w0 = some b0)
    (h1 : byte_value w1 = some b1) (h2 : byte_value w2 = some b2) (h3 : byte_value w3 = some b3) :
    Reads (w3 ++ w2 ++ w1 ++ w0) [b0, b1, b2, b3] := by
  obtain ⟨hlen0, hdig0, hval0⟩ := byte_value_some h0
  obtain ⟨hlen1, hdig1, hval1⟩ := byte_value_some h1
  obtain ⟨hlen2, hdig2, hval2⟩ := byte_value_some h2
  obtain ⟨hlen3, hdig3, hval3⟩ := byte_value_some h3
  have hne : w3 ++ w2 ++ w1 ++ w0 ≠ [] := by
    intro h
    have hlen := congrArg List.length h
    rw [List.length_append, hlen0, List.length_nil] at hlen
    omega
  have hdigits : ∀ c ∈ w3 ++ w2 ++ w1 ++ w0, digit_value c < 16 := by
    simp only [List.mem_append]
    rintro c (((hc | hc) | hc) | hc)
    · exact hdig3 c hc
    · exact hdig2 c hc
    · exact hdig1 c hc
    · exact hdig0 c hc
  have hvalue : numeral_value 16 (w3 ++ w2 ++ w1 ++ w0) =
      b0.toNat + 2 ^ 8 * b1.toNat + 2 ^ 16 * b2.toNat + 2 ^ 24 * b3.toNat := by
    simp only [numeral_value_append, hlen0, hlen1, hlen2, hval0, hval1, hval2, hval3]
    omega
  refine ⟨hne, hdigits, ?_⟩
  rw [PyText.int_base16_digits hne hdigits, Option.bind_some, hvalue]
  have hb0 := b0.isLt
  have hb1 := b1.isLt
  have hb2 := b2.isLt
  have hb3 := b3.isLt
  unfold to_bytes
  rw [if_pos ⟨by omega, by omega⟩, Int.toNat_natCast]
  -- each byte of the number is one of the four
  have hbyte : ∀ (b : Byte) (n : Nat), n % 2 ^ 8 = b.toNat → BitVec.ofNat 8 n = b := by
    intro b n hn
    apply BitVec.eq_of_toNat_eq
    rw [BitVec.toNat_ofNat, hn]
  rw [hbyte b0 _ (by omega), hbyte b1 _ (by omega), hbyte b2 _ (by omega), hbyte b3 _ (by omega)]

theorem group_words_reads {ws : List Str} {values : List Byte}
    (h : List.Forall₂ (fun w b => byte_value w = some b) ws values) :
    List.Forall₂ Reads (group_words ws) (whole_groups values) := by
  induction ws using group_words.induct generalizing values with
  | case1 w0 w1 w2 w3 rest ih =>
    cases h with
    | cons h0 h => cases h with
      | cons h1 h => cases h with
        | cons h2 h => cases h with
          | cons h3 h => exact .cons (reads_word h0 h1 h2 h3) (ih h)
  | case2 ws hne =>
    have hshort : values.length < 4 := by
      rw [← h.length_eq]
      exact length_lt_four hne
    rw [group_words.eq_2 ws hne, whole_groups_of_short hshort]
    exact .nil

/-! ### Files -/

/-- The bytes of a row that come to memory, word by word. -/
def Row.groups : Row → List (List Byte)
  | .address _ => []
  | .bytes values => whole_groups values

theorem line_words_reads {line : Str} {r : Row} (h : row line = some r) :
    List.Forall₂ Reads (line_words line) r.groups := by
  unfold row at h
  unfold line_words
  dsimp only at h ⊢
  split at h
  · rename_i haddr
    rw [if_pos haddr]
    split at h
    · cases h
      exact .nil
    · cases h
  · rename_i haddr
    rw [if_neg haddr]
    obtain ⟨values, hvalues, rfl⟩ := Option.map_eq_some_iff.mp h
    exact group_words_reads (mapM_eq_some_iff.mp hvalues)

theorem words_reads {text : Str} {rows : List Row} (h : (file_lines text).mapM row = some rows) :
    List.Forall₂ Reads (words text) (rows.flatMap Row.groups) :=
  List.rel_flatMap (mapM_eq_some_iff.mp h) fun _ _ => line_words_reads

theorem digits_of_reads {ws : List Str} {program : List (List Byte)}
    (h : List.Forall₂ Reads ws program) :
    ∀ w ∈ ws, w ≠ [] ∧ ∀ c ∈ w, digit_value c < 16 := by
  induction h with
  | nil =>
    intro w hw
    exact absurd hw List.not_mem_nil
  | cons hread _ ih => exact List.forall_mem_cons.mpr ⟨⟨hread.ne_nil, hread.digits⟩, ih⟩

/-- The reader takes back the words of the file. -/
theorem read_hex_text {ws : List Str} {program : List (List Byte)}
    (h : List.Forall₂ Reads ws program) : read_program_from_file (hex_text ws) = some program := by
  have hws := digits_of_reads h
  have hlines : file_lines (hex_text ws) = ws := by
    apply PyText.file_lines_of_lines
    intro w hw c hc
    have hlt := (hws w hw).2 c hc
    constructor
    · rintro rfl
      exact absurd hlt (by decide)
    · rintro rfl
      exact absurd hlt (by decide)
  have hstrip : ws.map strip = ws := by
    have hid : ∀ w ∈ ws, strip w = id w := by
      intro w hw
      apply PyText.strip_word (hws w hw).1
      intro c hc
      have hlt := (hws w hw).2 c hc
      exact (PyText.isspace_of_digit (by omega)).1
    rw [List.map_congr_left hid, List.map_id]
  have hfilter : ws.filter (· ≠ []) = ws := by
    apply List.filter_eq_self.mpr
    intro w hw
    simpa using (hws w hw).1
  unfold read_program_from_file
  rw [hlines, hstrip, hfilter, mapM_eq_some_iff]
  exact h.imp fun _ _ hread => hread.value

/-! ### Loading -/

/-- The header alone makes the `.coe` file long enough. -/
theorem execute_eq (tmp_hex : Str) :
    execute tmp_hex =
      if 0 < (words tmp_hex).length then .ok (hex_text (words tmp_hex))
      else .error .no_valid_instructions := by
  have hcoe : ¬ (coe_text (words tmp_hex)).length < 50 := by
    have hheader : coe_header.length = 62 := by decide +kernel
    unfold coe_text
    rw [List.length_append, hheader]
    omega
  unfold execute
  dsimp only
  rw [if_neg hcoe]

/-- The values of a line that fill words. -/
def kept (line : List Byte) : List Byte := line.take (line.length / 4 * 4)

/-- What is stored in memory, in order. -/
def stored (sections : List Section) : List Byte := (sections.flatMap Section.lines).flatMap kept

/-- All values of a listing. -/
def all_values (sections : List Section) : List Byte := sections.flatMap Section.values

theorem all_values_cons (s : Section) (sections : List Section) :
    all_values (s :: sections) = s.values ++ all_values sections := rfl

theorem all_values_eq (sections : List Section) :
    all_values sections = (sections.flatMap Section.lines).flatten := by
  induction sections with
  | nil => rfl
  | cons s sections ih =>
    rw [all_values_cons, ih, List.flatMap_cons, List.flatten_append, Section.values]

theorem flatten_groups (lines : List (List Byte)) :
    ((lines.map Row.bytes).flatMap Row.groups).flatten = lines.flatMap kept := by
  induction lines with
  | nil => rfl
  | cons line lines ih =>
    rw [List.map_cons, List.flatMap_cons, List.flatten_append, ih, List.flatMap_cons]
    congr 1
    exact flatten_whole_groups line

/-- The conversion and the loader store the values that fill words. -/
theorem load_converted {text hex : Str} {sections : List Section} (hl : Listing text sections)
    (hx : execute text = .ok hex) :
    ∃ program, read_program_from_file hex = some program ∧
      ∀ base, load_program base program = MemoryImage.store base (stored sections) := by
  have hhex : hex = hex_text (words text) := by
    rw [execute_eq] at hx
    split at hx
    · exact (Except.ok.inj hx).symm
    · cases hx
  refine ⟨_, by rw [hhex, read_hex_text (words_reads hl.rows)], ?_⟩
  have hwidth : ∀ g ∈ (sections.flatMap Section.rows).flatMap Row.groups, g.length = 4 := by
    intro g hg
    obtain ⟨r, -, hg⟩ := List.mem_flatMap.mp hg
    cases r with
    | address a => exact absurd hg List.not_mem_nil
    | bytes values => exact whole_groups_width values g hg
  have hflat : ((sections.flatMap Section.rows).flatMap Row.groups).flatten = stored sections := by
    unfold stored
    clear hl hwidth
    induction sections with
    | nil => rfl
    | cons s sections ih =>
      have hrows : (s.rows.flatMap Row.groups).flatten = s.lines.flatMap kept :=
        flatten_groups s.lines
      rw [List.flatMap_cons, List.flatMap_append, List.flatten_append, hrows, ih,
        List.flatMap_cons, List.flatMap_append]
  intro base
  funext M
  unfold load_program
  rw [MemoryImage.store_pieces hwidth, hflat, Nat.zero_mul, Nat.add_zero]

/-! ### Images -/

theorem image_cons (s : Section) (sections : List Section) :
    image (s :: sections) = s.values.zipIdx s.address ++ image sections := rfl

theorem length_image (sections : List Section) :
    (image sections).length = (all_values sections).length := by
  induction sections with
  | nil => rfl
  | cons s sections ih =>
    rw [image_cons, all_values_cons, List.length_append, List.length_append, ih, List.length_zipIdx]

/-- The image of a listing is in the order of its addresses. -/
theorem image_sorted {sections : List Section}
    (h : sections.Pairwise fun s t => s.address + s.values.length ≤ t.address) :
    (image sections).Pairwise fun p q => p.2 < q.2 := by
  unfold image
  rw [List.pairwise_flatMap]
  refine ⟨fun s _ => MemoryImage.zipIdx_sorted s.values s.address, ?_⟩
  apply h.imp
  intro s t hst p hp q hq
  have hps := List.snd_lt_add_of_mem_zipIdx hp
  have hqt := List.le_snd_of_mem_zipIdx hq
  omega

theorem length_kept (line : List Byte) : (kept line).length = line.length / 4 * 4 := by
  rw [kept, List.length_take]
  omega

/-- Nothing is lost only if no line leaves a rest. -/
theorem kept_all {lines : List (List Byte)} :
    (lines.flatMap kept).length ≤ lines.flatten.length ∧
      ((lines.flatMap kept).length = lines.flatten.length → ∀ l ∈ lines, l.length % 4 = 0) := by
  induction lines with
  | nil =>
    refine ⟨Nat.le_refl _, fun _ l hl => ?_⟩
    exact absurd hl List.not_mem_nil
  | cons line lines ih =>
    obtain ⟨hle, hall⟩ := ih
    have hline := length_kept line
    rw [List.flatMap_cons, List.flatten_cons, List.length_append, List.length_append]
    constructor
    · omega
    · intro heq
      have hfirst : line.length % 4 = 0 := by omega
      exact List.forall_mem_cons.mpr ⟨hfirst, hall (by omega)⟩

theorem flatMap_kept {lines : List (List Byte)} (h : ∀ l ∈ lines, l.length % 4 = 0) :
    lines.flatMap kept = lines.flatten := by
  induction lines with
  | nil => rfl
  | cons line lines ih =>
    have hline := h line List.mem_cons_self
    have hkept : kept line = line := by
      apply List.take_of_length_le
      omega
    rw [List.flatMap_cons, List.flatten_cons, hkept, ih (fun l hl => h l (List.mem_cons_of_mem _ hl))]

/-- What the conversion needs of a listing. -/
structure Convertible (sections : List Section) : Prop where
  /-- Every line has whole words. -/
  whole_words : ∀ s ∈ sections, ∀ line ∈ s.lines, line.length % 4 = 0
  /-- The addresses count from zero without a gap. -/
  gap_free : ∀ pre s post, sections = pre ++ s :: post → s.values ≠ [] →
    s.address = (all_values pre).length

/-- Sections that follow one another from `n` on are one image. -/
theorem image_eq_zipIdx {sections : List Section} {n : Nat}
    (h : ∀ pre s post, sections = pre ++ s :: post → s.values ≠ [] →
      s.address = n + (all_values pre).length) :
    image sections = (all_values sections).zipIdx n := by
  induction sections generalizing n with
  | nil => rfl
  | cons s sections ih =>
    have hrest := ih (n := n + s.values.length) (by
      intro pre t post hsplit ht
      have hpre := h (s :: pre) t post (by rw [hsplit, List.cons_append]) ht
      rw [all_values_cons, List.length_append] at hpre
      omega)
    rw [image_cons, hrest, all_values_cons, List.zipIdx_append]
    congr 1
    by_cases hempty : s.values = []
    · rw [hempty]
      rfl
    · have hs := h [] s sections rfl hempty
      rw [hs]
      rfl

/-- Sections that are one image follow one another. -/
theorem address_of_image_eq {pre post : List Section} {s : Section}
    (h : image (pre ++ s :: post) = (all_values (pre ++ s :: post)).zipIdx) (hs : s.values ≠ []) :
    s.address = (all_values pre).length := by
  have himage : image (pre ++ s :: post) =
      image pre ++ (s.values.zipIdx s.address ++ image post) := List.flatMap_append
  have hvalues : all_values (pre ++ s :: post) =
      all_values pre ++ (s.values ++ all_values post) := List.flatMap_append
  rw [himage, hvalues, List.zipIdx_append, List.zipIdx_append] at h
  have hpre : (image pre).length = ((all_values pre).zipIdx).length := by
    rw [length_image, List.length_zipIdx]
  have hmid := (List.append_inj h hpre).2
  have hself : (s.values.zipIdx s.address).length =
      (s.values.zipIdx (0 + (all_values pre).length)).length := by
    rw [List.length_zipIdx, List.length_zipIdx]
  have hzip := (List.append_inj hmid hself).1
  obtain ⟨v, vs, hv⟩ := List.exists_cons_of_ne_nil hs
  rw [hv, List.zipIdx_cons, List.zipIdx_cons, List.cons.injEq, Prod.mk.injEq] at hzip
  omega

theorem image_eq_stored_iff (sections : List Section) :
    image sections = (stored sections).zipIdx ↔ Convertible sections := by
  constructor
  · intro h
    have hlen : (stored sections).length = (sections.flatMap Section.lines).flatten.length := by
      rw [← all_values_eq, ← length_image, h, List.length_zipIdx]
    have hwhole := kept_all.2 hlen
    have hstored : stored sections = all_values sections := by
      rw [all_values_eq]
      exact flatMap_kept hwhole
    rw [hstored] at h
    constructor
    · intro s hs line hline
      exact hwhole line (List.mem_flatMap.mpr ⟨s, hs, hline⟩)
    · rintro pre s post rfl hs
      exact address_of_image_eq h hs
  · intro h
    have hstored : stored sections = all_values sections := by
      rw [all_values_eq]
      apply flatMap_kept
      intro line hline
      obtain ⟨s, hs, hline⟩ := List.mem_flatMap.mp hline
      exact h.whole_words s hs line hline
    rw [hstored]
    apply image_eq_zipIdx
    intro pre s post hsplit hs
    rw [Nat.zero_add]
    exact h.gap_free pre s post hsplit hs

/-- The converted program, loaded at any base, is the image of the listing if
    and only if its addresses count from zero without a gap and every line has
    whole words. -/
theorem converted_image_iff {text hex : Str} {sections : List Section} (base : Nat)
    (hl : Listing text sections) (hx : execute text = .ok hex) :
    (∃ program, read_program_from_file hex = some program ∧
      MemoryImage.Puts (load_program base program) base (image sections)) ↔
      Convertible sections := by
  obtain ⟨program, hread, hload⟩ := load_converted hl hx
  have hlen : (stored sections).length ≤ (image sections).length := by
    rw [length_image, all_values_eq]
    exact kept_all.1
  have hbyte : Nontrivial Byte := ⟨0#8, 1#8, by decide⟩
  have hputs : MemoryImage.Puts (load_program base program) base (image sections) ↔
      Convertible sections := by
    rw [hload, MemoryImage.puts_store_iff (image_sorted hl.increasing) hlen, image_eq_stored_iff]
  rw [← hputs]
  constructor
  · rintro ⟨program', hread', h⟩
    rw [hread, Option.some.injEq] at hread'
    rw [hread']
    exact h
  · intro h
    exact ⟨program, hread, h⟩

/-- A section of two lines and a second one that begins where it ends. -/
def two_sections : List Section :=
  [⟨0, [[0x97#8, 0x01#8, 0#8, 0#8], [0x93#8, 0xD1#8, 0x01#8, 0x01#8]]⟩,
    ⟨8, [[0x6F#8, 0#8, 0#8, 0#8]]⟩]

theorem two_sections_convertible : Convertible two_sections := by
  constructor
  · decide
  · intro pre s post hsplit _
    rcases pre with - | ⟨t, - | ⟨u, pre⟩⟩
    · cases hsplit
      rfl
    · cases hsplit
      rfl
    · have hlen := congrArg List.length hsplit
      simp [two_sections] at hlen

/-- The two sections are loaded as one image. -/
theorem converted_image_two_sections :
    ∃ program, read_program_from_file (ascii "00000197\n0101D193\n0000006F\n") = some program ∧
      MemoryImage.Puts (load_program 0x1000 program) 0x1000 (image two_sections) := by
  have hl : Listing (ascii "@00000000\n97 01 00 00\n93 D1 01 01\n@00000008\n6F 00 00 00\n")
      two_sections :=
    ⟨by decide +kernel, by decide⟩
  have hx : execute (ascii "@00000000\n97 01 00 00\n93 D1 01 01\n@00000008\n6F 00 00 00\n") =
      .ok (ascii "00000197\n0101D193\n0000006F\n") := by
    rw [execute_eq]
    decide +kernel
  exact (converted_image_iff 0x1000 hl hx).mpr two_sections_convertible

/-- The word of a second section, at address 8, is stored at address 4. -/
theorem converted_image_gap :
    ¬ ∀ (text hex : Str) (sections : List Section) (base : Nat), Listing text sections →
      execute text = .ok hex → ∃ program, read_program_from_file hex = some program ∧
        MemoryImage.Puts (load_program base program) base (image sections) := by
  intro h
  have hl : Listing (ascii "@00000000\r\n13 00 00 00\r\n@00000008\r\n6F 00 00 00\r\n")
      [⟨0, [[0x13#8, 0#8, 0#8, 0#8]]⟩, ⟨8, [[0x6F#8, 0#8, 0#8, 0#8]]⟩] :=
    ⟨by decide +kernel, by decide⟩
  have hx : execute (ascii "@00000000\r\n13 00 00 00\r\n@00000008\r\n6F 00 00 00\r\n") =
      .ok (ascii "00000013\n0000006F\n") := by
    rw [execute_eq]
    decide +kernel
  obtain ⟨program, hread, hputs⟩ := h _ _ _ 0 hl hx
  have hprogram : read_program_from_file (ascii "00000013\n0000006F\n") =
      some [[0x13#8, 0#8, 0#8, 0#8], [0x6F#8, 0#8, 0#8, 0#8]] := by decide +kernel
  rw [hprogram, Option.some.injEq] at hread
  have hbyte := (hputs fun _ => 0#8).1 (0x6F#8, 8) (by decide)
  rw [← hread] at hbyte
  exact absurd hbyte (by decide)

end Rv322coe

end RiscvWorker
