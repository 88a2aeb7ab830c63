import RiscvWorker.Host.WorkerInterface

/-! # Command lines

  The lines that the client writes, and what the firmware recovers from them:
  an integer that fits the command language comes back as it was, any other
  is rejected. The formats of the one side are undone by the parsers of the
  other.
-/

namespace RiscvWorker

namespace Host

open Text (Byte ascii numeral zero_pad numeral_value digit_value tokens)
open PyText (str_int format_X)
open Firmware

variable {H : Type}

/-! ### What a method asks for -/

/-- The methods of one command, with their arguments. -/
inductive Method where
  | protocol_version
  | start
  | stop
  | step
  | get_pc
  | set_pc (pc_addr : Int)
  | get_reg (reg_idx : Int)
  | set_reg (reg_idx value : Int)
  | read_word (addr : Int)
  | write_word (addr value : Int)
  | fault_reg (reg_idx mode mask : Int)
  | fault_mem (addr mode mask : Int)

def Method.run (b : Board H) : Method → Action H (Option Word)
  | .protocol_version => Host.protocol_version b
  | .start => Host.start b
  | .stop => Host.stop b
  | .step => Host.step b
  | .get_pc => Host.get_pc b
  | .set_pc pc_addr => Host.set_pc b pc_addr
  | .get_reg reg_idx => Host.get_reg b reg_idx
  | .set_reg reg_idx value => Host.set_reg b reg_idx value
  | .read_word addr => Host.read_word b addr
  | .write_word addr value => Host.write_word b addr value
  | .fault_reg reg_idx mode mask => Host.fault_reg b reg_idx mode mask
  | .fault_mem addr mode mask => Host.fault_mem b addr mode mask

/-- The same command, register index, mode and address, and the same value or
    mask modulo 2^32. -/
def Method.Asks : Method → Request → Prop
  | .protocol_version, .protocol_version => True
  | .start, .start => True
  | .stop, .stop => True
  | .step, .step => True
  | .get_pc, .get_pc => True
  | .set_pc pc_addr, .set_pc pc => (pc.toNat : Int) = pc_addr
  | .get_reg reg_idx, .get_reg reg => (reg.toNat : Int) = reg_idx
  | .set_reg reg_idx value, .set_reg reg v =>
    (reg.toNat : Int) = reg_idx ∧ (v.toNat : Int) = value % 2 ^ 32
  | .read_word addr, .read_word a => (a.toNat : Int) = addr
  | .write_word addr value, .write_word a v =>
    (a.toNat : Int) = addr ∧ (v.toNat : Int) = value % 2 ^ 32
  | .fault_reg reg_idx mode mask, .fault_reg reg m v =>
    (reg.toNat : Int) = reg_idx ∧ (m.value.toNat : Int) = mode ∧ (v.toNat : Int) = mask % 2 ^ 32
  | .fault_mem addr mode mask, .fault_mem a m v =>
    (a.val.toNat : Int) = addr ∧ (m.value.toNat : Int) = mode ∧ (v.toNat : Int) = mask % 2 ^ 32
  | _, _ => False

/-! ### Words -/

/-- A word of a command line. -/
def IsWord (w : List Byte) : Prop :=
  w ≠ [] ∧ ∀ c ∈ w, is_delim c = false ∧ is_eol c = false ∧ c ≠ 0#8

instance (w : List Byte) : Decidable (IsWord w) := inferInstanceAs (Decidable (_ ∧ _))

/-- A command with its arguments, between single spaces. -/
def words (cmd : List Byte) : List (List Byte) → List Byte
  | [] => cmd
  | w :: args => cmd ++ 32#8 :: words w args

theorem tokens_words {cmd : List Byte} {args : List (List Byte)}
    (h : ∀ w ∈ cmd :: args, IsWord w) : tokens is_delim (words cmd args) = cmd :: args := by
  induction args generalizing cmd with
  | nil =>
    obtain ⟨hne, hcmd⟩ := h cmd (by simp)
    exact Text.tokens_eq_singleton hne fun c hc => (hcmd c hc).1
  | cons w args ih =>
    obtain ⟨hne, hcmd⟩ := h cmd (by simp)
    have hrest : ∀ v ∈ w :: args, IsWord v := fun v hv => h v (by simp [hv])
    rw [words, Text.tokens_word hne (fun c hc => (hcmd c hc).1) (by decide), ih hrest]

theorem words_plain {cmd : List Byte} {args : List (List Byte)}
    (h : ∀ w ∈ cmd :: args, IsWord w) :
    (∀ d ∈ words cmd args, is_eol d = false) ∧ 0#8 ∉ words cmd args := by
  have hall : ∀ d ∈ words cmd args, is_eol d = false ∧ d ≠ 0#8 := by
    induction args generalizing cmd with
    | nil => exact fun d hd => ((h cmd (by simp)).2 d hd).2
    | cons w args ih =>
      have hrest : ∀ v ∈ w :: args, IsWord v := fun v hv => h v (by simp [hv])
      refine List.forall_mem_append.mpr ⟨fun d hd => ((h cmd (by simp)).2 d hd).2, ?_⟩
      exact List.forall_mem_cons.mpr ⟨by decide, ih hrest⟩
  exact ⟨fun d hd => (hall d hd).1, fun h0 => (hall _ h0).2 rfl⟩

theorem outcome_words {cmd : List Byte} {args : List (List Byte)}
    (h : ∀ w ∈ cmd :: args, IsWord w) :
    outcome (words cmd args) = .reject LINE_TOO_LONG ∨
    outcome (words cmd args) = command cmd args := by
  unfold outcome
  by_cases hlong : UART_LINE_MAX ≤ (words cmd args).length
  · exact .inl (if_pos hlong)
  · rw [if_neg hlong, tokens_words h]
    exact .inr rfl

/-! ### Numbers -/

theorem number_hex_digits {ds : List Byte} (hne : ds ≠ []) (hds : ∀ c ∈ ds, digit_value c < 16) :
    number (ascii "0x" ++ ds) =
      if 2 ^ 32 ≤ numeral_value 16 ds then none
      else some (BitVec.ofNat 32 (numeral_value 16 ds)) := by
  have htoken : ascii "0x" ++ ds ≠ [] := by simp [ascii]
  have hdrop : (ascii "0x" ++ ds).drop (2 + ds.length) = [] := by
    apply List.drop_eq_nil_of_le
    rw [List.length_append, show (ascii "0x").length = 2 from rfl]
  have hstrtoul := CString.strtoul_hex hds hne 32
  have hread : ¬ (ascii "0x" ++ ds = [] ∨ 2 + ds.length = 0 ∨
      (ascii "0x" ++ ds).drop (2 + ds.length) ≠ []) := by
    rintro (h | h | h)
    · exact htoken h
    · omega
    · exact h hdrop
  by_cases hlarge : 2 ^ 32 ≤ numeral_value 16 ds
  · rw [if_pos hlarge] at hstrtoul ⊢
    apply number_of_failed
    unfold parse_u32
    rw [hstrtoul]
    exact (if_neg hread).trans (if_pos (.inl rfl))
  · rw [if_neg hlarge] at hstrtoul ⊢
    have hmax : ¬ (false = true ∨ numeral_value 16 ds > UINT_MAX) := by
      unfold UINT_MAX
      simp
      omega
    apply number_of_parsed
    unfold parse_u32
    rw [hstrtoul]
    exact (if_neg hread).trans (if_neg hmax)

theorem number_not_hex {c : Byte} (hc : 16 ≤ digit_value c) (s : List Byte) :
    number (ascii "0x" ++ c :: s) = none := by
  have hstrtoul := CString.strtoul_hex_none hc s 32
  have hdrop : (ascii "0x" ++ c :: s).drop 1 ≠ [] := by simp [ascii]
  apply number_of_failed
  unfold parse_u32
  rw [← hstrtoul] at hdrop
  exact if_pos (.inr (.inr hdrop))

/-- The firmware reads what the client formats if it fits in 32 bits, and
    nothing else. -/
theorem number_format (n : Int) :
    number (ascii "0x" ++ format_X 8 n) =
      if 0 ≤ n ∧ n < 2 ^ 32 then some (BitVec.ofInt 32 n) else none := by
  unfold format_X
  by_cases hneg : n < 0
  · rw [if_pos hneg, if_neg (by omega)]
    exact number_not_hex (c := 45#8) (by decide) _
  · have hne : zero_pad 8 (numeral 16 n.natAbs) ≠ [] := Text.zero_pad_ne_nil (by decide) _
    have hds : ∀ c ∈ zero_pad 8 (numeral 16 n.natAbs), digit_value c < 16 :=
      Text.digit_value_mem_zero_pad (by decide)
        fun _ hc => Text.numeral_digit (by decide) (by decide) _ hc
    rw [if_neg hneg, number_hex_digits hne hds, Text.numeral_value_zero_pad,
      Text.numeral_value_numeral (by decide) (by decide)]
    by_cases hlarge : 2 ^ 32 ≤ n.natAbs
    · rw [if_pos hlarge, if_neg (by omega)]
    · have hcast : BitVec.ofNat 32 n.natAbs = BitVec.ofInt 32 n := by
        rw [← BitVec.ofInt_natCast, Int.natAbs_of_nonneg (by omega)]
      rw [if_neg hlarge, if_pos (by omega), hcast]

theorem toNat_ofInt {n : Int} (h0 : 0 ≤ n) (h : n < 2 ^ 32) :
    ((BitVec.ofInt 32 n).toNat : Int) = n := by
  rw [BitVec.toNat_ofInt]
  omega

/-- Values and masks are cut to 32 bits before they are formatted. -/
theorem number_value (n : Int) :
    number (ascii "0x" ++ format_X 8 (n % 2 ^ 32)) = some (BitVec.ofInt 32 (n % 2 ^ 32)) := by
  rw [number_format, if_pos (by omega)]

/-- A register index or a mode in decimal. -/
theorem number_str_int {n : Int} (h0 : 0 ≤ n) (h31 : n ≤ 31) :
    number (str_int n) = some (BitVec.ofInt 32 n) := by
  have hsmall : ∀ k < 32, number (str_int (k : Nat)) = some (BitVec.ofInt 32 (k : Nat)) := by
    decide
  obtain ⟨k, rfl⟩ := Int.eq_ofNat_of_zero_le h0
  exact hsmall k (by omega)

/-! ### The words of a method -/

theorem isWord_of_all {w : List Byte} (hne : w.isEmpty = false)
    (h : w.all (fun c => !is_delim c && !is_eol c && c != 0#8) = true) : IsWord w := by
  refine ⟨by simpa using hne, ?_⟩
  intro c hc
  have hchar := List.all_eq_true.mp h c hc
  simpa [and_assoc] using hchar

/-- Digits and the sign are no separators. -/
theorem isWord_of_digits {w : List Byte} (hne : w ≠ [])
    (h : ∀ c ∈ w, digit_value c < 36 ∨ c = 45#8) : IsWord w := by
  have hchar : ∀ c : Byte, digit_value c < 36 ∨ c = 45#8 →
      is_delim c = false ∧ is_eol c = false ∧ c ≠ 0#8 := by
    decide +kernel
  exact ⟨hne, fun c hc => hchar c (h c hc)⟩

theorem numeral_chars {base : Nat} (h1 : 1 < base) (h36 : base ≤ 36) (n : Nat) :
    ∀ c ∈ numeral base n, digit_value c < 36 ∨ c = 45#8 := by
  intro c hc
  have hdigit := Text.numeral_digit h1 h36 n hc
  exact .inl (by omega)

theorem isWord_str_int (n : Int) : IsWord (str_int n) := by
  have hdigits := numeral_chars (by decide : 1 < 10) (by decide) n.natAbs
  unfold str_int
  split_ifs
  · refine isWord_of_digits (by simp [ascii]) ?_
    exact List.forall_mem_append.mpr ⟨by decide, hdigits⟩
  · exact isWord_of_digits (Text.numeral_ne_nil _ _) hdigits

def hex_arg (n : Int) : List Byte := ascii "0x" ++ format_X 8 n

theorem isWord_hex_arg (n : Int) : IsWord (hex_arg n) := by
  have hpad : ∀ width, ∀ c ∈ zero_pad width (numeral 16 n.natAbs),
      digit_value c < 36 ∨ c = 45#8 := by
    intro width c hc
    have hdigit := Text.digit_value_mem_zero_pad (by decide)
      (fun _ hc => Text.numeral_digit (by decide) (by decide) n.natAbs hc) c hc
    exact .inl (lt_of_lt_of_le hdigit (by decide : 16 ≤ 36))
  refine isWord_of_digits (by simp [hex_arg, ascii]) ?_
  refine List.forall_mem_append.mpr ⟨by decide, ?_⟩
  unfold format_X
  split_ifs
  · exact List.forall_mem_append.mpr ⟨by decide, hpad _⟩
  · exact hpad _

def Method.cmd : Method → List Byte
  | .protocol_version => PROTOCOL_VERSION_CMD
  | .start => ascii "START"
  | .stop => ascii "STOP"
  | .step => ascii "STEP"
  | .get_pc => GET_PC_CMD
  | .set_pc _ => ascii "SET_PC"
  | .get_reg _ => GET_REG_CMD
  | .set_reg _ _ => ascii "SET_REG"
  | .read_word _ => READ_WORD_CMD
  | .write_word _ _ => ascii "WRITE_WORD"
  | .fault_reg _ _ _ => ascii "FAULT_REG"
  | .fault_mem _ _ _ => ascii "FAULT_MEM"

def Method.args : Method → List (List Byte)
  | .set_pc pc_addr => [hex_arg pc_addr]
  | .get_reg reg_idx => [str_int reg_idx]
  | .set_reg reg_idx value => [str_int reg_idx, hex_arg (value % 2 ^ 32)]
  | .read_word addr => [hex_arg addr]
  | .write_word addr value => [hex_arg addr, hex_arg (value % 2 ^ 32)]
  | .fault_reg reg_idx mode mask => [str_int reg_idx, str_int mode, hex_arg (mask % 2 ^ 32)]
  | .fault_mem addr mode mask => [hex_arg addr, str_int mode, hex_arg (mask % 2 ^ 32)]
  | _ => []

/-- What a method checks before it sends anything. -/
def Method.check : Method → Except Raised Unit
  | .get_reg reg_idx | .set_reg reg_idx _ => check_reg_idx reg_idx
  | .read_word addr | .write_word addr _ => check_word_addr addr
  | .fault_reg reg_idx mode _ => (check_reg_idx reg_idx).bind fun _ => check_mode mode
  | .fault_mem addr mode _ => (check_word_addr addr).bind fun _ => check_mode mode
  | _ => .ok ()

/-- How a method reads the response. -/
def Method.parse : Method → List Byte → Except Raised (Option Word)
  | .protocol_version | .get_pc | .get_reg _ | .read_word _ => parse_ok_u32
  | _ => parse_ack

theorem isWord_words (m : Method) : ∀ w ∈ m.cmd :: m.args, IsWord w := by
  refine List.forall_mem_cons.mpr ⟨?_, ?_⟩
  · cases m <;> exact isWord_of_all rfl rfl
  · cases m <;> simp [Method.args, isWord_hex_arg, isWord_str_int]

theorem checked_ok {α : Type} (act : Action H α) (ser : Serial H) :
    checked (.ok ()) act ser = act ser := rfl

theorem checked_error {α : Type} (e : Raised) (act : Action H α) (ser : Serial H) :
    checked (.error e) act ser = some (.error e, ser) := rfl

theorem checked_checked {α : Type} (c d : Except Raised Unit) (act : Action H α) :
    checked c (checked d act) = checked (c.bind fun _ => d) act := by
  cases c with
  | error e => rfl
  | ok u => rfl

/-- A method checks its arguments, sends its words and parses the response. -/
theorem run_eq (b : Board H) (m : Method) :
    m.run b = checked m.check (send_and_parse b m.parse (words m.cmd m.args)) := by
  cases m with
  | protocol_version => rfl
  | start => rfl
  | stop => rfl
  | step => rfl
  | get_pc => rfl
  | set_pc pc_addr => rfl
  | get_reg reg_idx => rfl
  | read_word addr => rfl
  | set_reg reg_idx value =>
    unfold Method.run Host.set_reg
    simp only [List.append_assoc]
    rfl
  | write_word addr value =>
    unfold Method.run Host.write_word
    simp only [List.append_assoc]
    rfl
  | fault_reg reg_idx mode mask =>
    unfold Method.run Host.fault_reg
    simp only [List.append_assoc, checked_checked]
    rfl
  | fault_mem addr mode mask =>
    unfold Method.run Host.fault_mem
    simp only [List.append_assoc, checked_checked]
    rfl

/-! ### The arguments on the other side -/

theorem check_reg_idx_ok {n : Int} : check_reg_idx n = .ok () ↔ 0 ≤ n ∧ n ≤ 31 := by
  unfold check_reg_idx REG_MAX
  split_ifs with h
  · simp
    omega
  · simp
    omega

theorem check_mode_ok {n : Int} : check_mode n = .ok () ↔ 0 ≤ n ∧ n ≤ 3 := by
  unfold check_mode MODE_MAX
  split_ifs with h
  · simp
    omega
  · simp
    omega

theorem check_word_addr_ok {n : Int} : check_word_addr n = .ok () ↔ n % 4 = 0 := by
  unfold check_word_addr
  by_cases h : n % 4 = 0
  · rw [if_neg (by simpa using h)]
    simp [h]
  · rw [if_pos h]
    simp [h]

theorem reg_arg {n : Int} (h0 : 0 ≤ n) (h31 : n ≤ 31) :
    ∃ reg, (number (str_int n)).bind register? = some reg ∧ (reg.toNat : Int) = n := by
  have htoNat := toNat_ofInt h0 (by omega)
  have hle : (BitVec.ofInt 32 n).toNat ≤ 31 := by omega
  refine ⟨(BitVec.ofInt 32 n).setWidth 5, ?_, ?_⟩
  · rw [number_str_int h0 h31, Option.bind_some, register?_some hle]
  · rw [BitVec.toNat_setWidth]
    omega

theorem mode_arg {n : Int} (h0 : 0 ≤ n) (h3 : n ≤ 3) :
    ∃ mode, (number (str_int n)).bind fault_mode? = some mode ∧ (mode.value.toNat : Int) = n := by
  have htoNat := toNat_ofInt h0 (by omega)
  have hle : (BitVec.ofInt 32 n).toNat ≤ 3 := by omega
  refine ⟨cm_fault_mode_t (BitVec.ofInt 32 n), ?_, ?_⟩
  · rw [number_str_int h0 (by omega), Option.bind_some, fault_mode?_some hle]
  · rw [cm_fault_mode_t_value hle]
    exact htoNat

theorem value_arg (n : Int) :
    ∃ v, number (hex_arg (n % 2 ^ 32)) = some v ∧ (v.toNat : Int) = n % 2 ^ 32 :=
  ⟨_, number_value n, toNat_ofInt (by omega) (by omega)⟩

theorem addr_arg (n : Int) :
    ((0 ≤ n ∧ n < 2 ^ 32) ∧ ∃ a, number (hex_arg n) = some a ∧ (a.toNat : Int) = n) ∨
    (¬ (0 ≤ n ∧ n < 2 ^ 32) ∧ number (hex_arg n) = none) := by
  unfold hex_arg
  rw [number_format]
  by_cases hn : 0 ≤ n ∧ n < 2 ^ 32
  · rw [if_pos hn]
    exact .inl ⟨hn, _, rfl, toNat_ofInt hn.1 hn.2⟩
  · rw [if_neg hn]
    exact .inr ⟨hn, rfl⟩

/-- An address that the client found aligned is aligned. -/
theorem word_addr?_of_aligned {n : Int} {a : Word} (h : (a.toNat : Int) = n) (h4 : n % 4 = 0) :
    ∃ addr : WordAddr, word_addr? a = some addr ∧ (addr.val.toNat : Int) = n := by
  have haligned : a &&& 0x3#32 = 0#32 := by
    apply BitVec.eq_of_toNat_eq
    have hmask : (0x3#32 : Word).toNat = 2 ^ 2 - 1 := rfl
    rw [BitVec.toNat_and, hmask, Nat.and_two_pow_sub_one_eq_mod, BitVec.toNat_ofNat]
    omega
  exact ⟨⟨a, haligned⟩, word_addr?_some haligned, h⟩

/-- Integers that the command language has a word for. -/
def Method.InRange : Method → Prop
  | .set_pc pc_addr => 0 ≤ pc_addr ∧ pc_addr < 2 ^ 32
  | .get_reg reg_idx | .set_reg reg_idx _ => 0 ≤ reg_idx ∧ reg_idx ≤ 31
  | .read_word addr | .write_word addr _ => addr % 4 = 0 ∧ 0 ≤ addr ∧ addr < 2 ^ 32
  | .fault_reg reg_idx mode _ => (0 ≤ reg_idx ∧ reg_idx ≤ 31) ∧ 0 ≤ mode ∧ mode ≤ 3
  | .fault_mem addr mode _ =>
    (addr % 4 = 0 ∧ 0 ≤ addr ∧ addr < 2 ^ 32) ∧ 0 ≤ mode ∧ mode ≤ 3
  | _ => True

theorem except_bind_ok {ε α β : Type} {x : Except ε α} {f : α → Except ε β} {v : β} :
    x.bind f = .ok v ↔ ∃ a, x = .ok a ∧ f a = .ok v := by
  cases x <;> simp [Except.bind]

theorem except_bind_error {ε α β : Type} {x : Except ε α} {f : α → Except ε β} {e : ε}
    (h : x.bind f = .error e) : x = .error e ∨ ∃ a, f a = .error e := by
  cases x with
  | error e' => exact .inl (congrArg Except.error (Except.error.inj h))
  | ok a => exact .inr ⟨a, h⟩

theorem check_reg_idx_error {n : Int} {e : Raised} (h : check_reg_idx n = .error e) :
    e = .ValueError := by
  unfold check_reg_idx at h
  split_ifs at h
  exact (Except.error.inj h).symm

theorem check_mode_error {n : Int} {e : Raised} (h : check_mode n = .error e) :
    e = .ValueError := by
  unfold check_mode at h
  split_ifs at h
  exact (Except.error.inj h).symm

theorem check_word_addr_error {n : Int} {e : Raised} (h : check_word_addr n = .error e) :
    e = .ValueError := by
  unfold check_word_addr at h
  split_ifs at h
  exact (Except.error.inj h).symm

/-- The checks raise nothing but `ValueError`. -/
theorem check_error {m : Method} {e : Raised} (h : m.check = .error e) : e = .ValueError := by
  cases m with
  | protocol_version | start | stop | step | get_pc | set_pc _ => cases h
  | get_reg reg_idx => exact check_reg_idx_error h
  | set_reg reg_idx value => exact check_reg_idx_error h
  | read_word addr => exact check_word_addr_error h
  | write_word addr value => exact check_word_addr_error h
  | fault_reg reg_idx mode mask =>
    rcases except_bind_error h with h | ⟨_, h⟩
    · exact check_reg_idx_error h
    · exact check_mode_error h
  | fault_mem addr mode mask =>
    rcases except_bind_error h with h | ⟨_, h⟩
    · exact check_word_addr_error h
    · exact check_mode_error h

/-- Integers in range pass the checks. -/
theorem check_of_inRange {m : Method} (h : m.InRange) : m.check = .ok () := by
  cases m with
  | protocol_version | start | stop | step | get_pc | set_pc _ => rfl
  | get_reg reg_idx => exact check_reg_idx_ok.mpr h
  | set_reg reg_idx value => exact check_reg_idx_ok.mpr h
  | read_word addr => exact check_word_addr_ok.mpr h.1
  | write_word addr value => exact check_word_addr_ok.mpr h.1
  | fault_reg reg_idx mode mask =>
    exact except_bind_ok.mpr ⟨(), check_reg_idx_ok.mpr h.1, check_mode_ok.mpr h.2⟩
  | fault_mem addr mode mask =>
    exact except_bind_ok.mpr ⟨(), check_word_addr_ok.mpr h.1.1, check_mode_ok.mpr h.2⟩

/-- The firmware recovers the arguments that are in range and rejects the
    others. -/
def Recovered (m : Method) : Prop :=
  (m.InRange ∧ ∃ r, command m.cmd m.args = .execute r ∧ m.Asks r) ∨
  (¬ m.InRange ∧ ∃ reason ∈ errors, command m.cmd m.args = .reject reason)

/-- A command with arguments. -/
theorem Recovered.of {m : Method} {reason : List Byte} {o : Option Request}
    (hcmd : command m.cmd m.args = .of reason o) (hreason : reason ∈ errors)
    (h : (m.InRange ∧ ∃ r, o = some r ∧ m.Asks r) ∨ (¬ m.InRange ∧ o = none)) : Recovered m := by
  rcases h with ⟨hin, r, rfl, hasks⟩ | ⟨hout, rfl⟩
  · exact .inl ⟨hin, r, hcmd, hasks⟩
  · exact .inr ⟨hout, reason, hreason, hcmd⟩

theorem recovered (m : Method) (hcheck : m.check = .ok ()) : Recovered m := by
  cases m with
  | protocol_version => exact .inl ⟨trivial, .protocol_version, rfl, trivial⟩
  | start => exact .inl ⟨trivial, .start, rfl, trivial⟩
  | stop => exact .inl ⟨trivial, .stop, rfl, trivial⟩
  | step => exact .inl ⟨trivial, .step, rfl, trivial⟩
  | get_pc => exact .inl ⟨trivial, .get_pc, rfl, trivial⟩
  | set_pc pc_addr =>
    refine Recovered.of (command_eq_SET_PC [hex_arg pc_addr]) (by decide) ?_
    rcases addr_arg pc_addr with ⟨hin, pc, hnum, hpc⟩ | ⟨hout, hnum⟩
    · exact .inl ⟨hin, .set_pc pc, by simp [SET_PC?, arg, hnum], hpc⟩
    · exact .inr ⟨hout, by simp [SET_PC?, arg, hnum]⟩
  | get_reg reg_idx =>
    refine Recovered.of (command_eq_GET_REG [str_int reg_idx]) (by decide) ?_
    have hidx := check_reg_idx_ok.mp hcheck
    obtain ⟨reg, hnum, hreg⟩ := reg_arg hidx.1 hidx.2
    exact .inl ⟨hidx, .get_reg reg, by simp [GET_REG?, arg, hnum], hreg⟩
  | set_reg reg_idx value =>
    refine Recovered.of
      (command_eq_SET_REG [str_int reg_idx, hex_arg (value % 2 ^ 32)]) (by decide) ?_
    have hidx := check_reg_idx_ok.mp hcheck
    obtain ⟨reg, hnum, hreg⟩ := reg_arg hidx.1 hidx.2
    obtain ⟨v, hval, hv⟩ := value_arg value
    have hreq : SET_REG? [str_int reg_idx, hex_arg (value % 2 ^ 32)] = some (.set_reg reg v) := by
      simp [SET_REG?, arg, hnum, hval, -Int.reducePow]
    exact .inl ⟨hidx, .set_reg reg v, hreq, hreg, hv⟩
  | read_word addr =>
    refine Recovered.of (command_eq_READ_WORD [hex_arg addr]) (by decide) ?_
    have h4 := check_word_addr_ok.mp hcheck
    rcases addr_arg addr with ⟨hin, a, hnum, ha⟩ | ⟨hout, hnum⟩
    · exact .inl ⟨⟨h4, hin⟩, .read_word a, by simp [READ_WORD?, arg, hnum], ha⟩
    · exact .inr ⟨fun h => hout h.2, by simp [READ_WORD?, arg, hnum]⟩
  | write_word addr value =>
    refine Recovered.of
      (command_eq_WRITE_WORD [hex_arg addr, hex_arg (value % 2 ^ 32)]) (by decide) ?_
    have h4 := check_word_addr_ok.mp hcheck
    obtain ⟨v, hval, hv⟩ := value_arg value
    rcases addr_arg addr with ⟨hin, a, hnum, ha⟩ | ⟨hout, hnum⟩
    · have hreq : WRITE_WORD? [hex_arg addr, hex_arg (value % 2 ^ 32)] =
          some (.write_word a v) := by
        simp [WRITE_WORD?, arg, hnum, hval, -Int.reducePow]
      exact .inl ⟨⟨h4, hin⟩, .write_word a v, hreq, ha, hv⟩
    · exact .inr ⟨fun h => hout h.2, by simp [WRITE_WORD?, arg, hnum]⟩
  | fault_reg reg_idx mode mask =>
    refine Recovered.of
      (command_eq_FAULT_REG [str_int reg_idx, str_int mode, hex_arg (mask % 2 ^ 32)]) (by decide) ?_
    obtain ⟨⟨⟩, hidx, hcheck⟩ := except_bind_ok.mp hcheck
    have hidx := check_reg_idx_ok.mp hidx
    have hmode := check_mode_ok.mp hcheck
    obtain ⟨reg, hnum, hreg⟩ := reg_arg hidx.1 hidx.2
    obtain ⟨md, hmd, hmode'⟩ := mode_arg hmode.1 hmode.2
    obtain ⟨v, hval, hv⟩ := value_arg mask
    have hreq : FAULT_REG? [str_int reg_idx, str_int mode, hex_arg (mask % 2 ^ 32)] =
        some (.fault_reg reg md v) := by
      simp [FAULT_REG?, arg, hnum, hmd, hval, -Int.reducePow]
    exact .inl ⟨⟨hidx, hmode⟩, .fault_reg reg md v, hreq, hreg, hmode', hv⟩
  | fault_mem addr mode mask =>
    refine Recovered.of
      (command_eq_FAULT_MEM [hex_arg addr, str_int mode, hex_arg (mask % 2 ^ 32)]) (by decide) ?_
    obtain ⟨⟨⟩, h4, hcheck⟩ := except_bind_ok.mp hcheck
    have h4 := check_word_addr_ok.mp h4
    have hmode := check_mode_ok.mp hcheck
    obtain ⟨md, hmd, hmode'⟩ := mode_arg hmode.1 hmode.2
    obtain ⟨v, hval, hv⟩ := value_arg mask
    rcases addr_arg addr with ⟨hin, a, hnum, ha⟩ | ⟨hout, hnum⟩
    · obtain ⟨wa, hwa, ha⟩ := word_addr?_of_aligned ha h4
      have hreq : FAULT_MEM? [hex_arg addr, str_int mode, hex_arg (mask % 2 ^ 32)] =
          some (.fault_mem wa md v) := by
        simp [FAULT_MEM?, arg, hnum, hwa, hmd, hval, -Int.reducePow]
      exact .inl ⟨⟨⟨h4, hin⟩, hmode⟩, .fault_mem wa md v, hreq, ha, hmode', hv⟩
    · exact .inr ⟨fun h => hout h.1.2, by simp [FAULT_MEM?, arg, hnum]⟩

/-! ### The lines fit -/

theorem length_format {n : Int} (h0 : 0 ≤ n) (h : n < 2 ^ 32) : (format_X 8 n).length = 8 := by
  have hnum : (numeral 16 n.natAbs).length ≤ 8 :=
    Text.length_numeral_le (by decide) (by decide) (by omega)
  unfold format_X
  rw [if_neg (by omega), Text.length_zero_pad]
  omega

theorem length_hex_arg {n : Int} (h0 : 0 ≤ n) (h : n < 2 ^ 32) : (hex_arg n).length = 10 := by
  unfold hex_arg
  rw [List.length_append, length_format h0 h]
  rfl

theorem length_value_arg (n : Int) : (hex_arg (n % 2 ^ 32)).length = 10 :=
  length_hex_arg (by omega) (by omega)

theorem length_str_int {n : Int} (h0 : 0 ≤ n) (h31 : n ≤ 31) : (str_int n).length ≤ 2 := by
  unfold str_int
  rw [if_neg (by omega)]
  exact Text.length_numeral_le (by decide) (by decide) (by omega)

theorem length_words (cmd : List Byte) (args : List (List Byte)) :
    (words cmd args).length = cmd.length + (args.map (List.length · + 1)).sum := by
  induction args generalizing cmd with
  | nil => rfl
  | cons w args ih =>
    rw [words, List.length_append, List.length_cons, ih, List.map_cons, List.sum_cons]
    omega

/-- No method has a long name. -/
theorem length_cmd (m : Method) : m.cmd.length ≤ 16 := by
  cases m <;> (simp only [Method.cmd]; decide)

theorem words_fit {m : Method} (h : m.InRange) : (words m.cmd m.args).length < UART_LINE_MAX := by
  have hcmd := length_cmd m
  have hargs : (m.args.map (List.length · + 1)).sum ≤ 40 := by
    cases m with
    | protocol_version | start | stop | step | get_pc => exact Nat.zero_le 40
    | set_pc pc_addr =>
      simp [Method.args, length_hex_arg h.1 h.2]
    | get_reg reg_idx =>
      have hlen := length_str_int h.1 h.2
      simp [Method.args]
      omega
    | set_reg reg_idx value =>
      have hlen := length_str_int h.1 h.2
      simp [Method.args, length_value_arg, -Int.reducePow]
      omega
    | read_word addr =>
      simp [Method.args, length_hex_arg h.2.1 h.2.2]
    | write_word addr value =>
      simp [Method.args, length_hex_arg h.2.1 h.2.2, length_value_arg, -Int.reducePow]
    | fault_reg reg_idx mode mask =>
      have hlen := length_str_int h.1.1 h.1.2
      have hmode := length_str_int h.2.1 (by have := h.2.2; omega)
      simp [Method.args, length_value_arg, -Int.reducePow]
      omega
    | fault_mem addr mode mask =>
      have hmode := length_str_int h.2.1 (by have := h.2.2; omega)
      simp [Method.args, length_hex_arg h.1.2.1 h.1.2.2, length_value_arg, -Int.reducePow]
      omega
  rw [length_words]
  unfold UART_LINE_MAX
  omega

end Host

end RiscvWorker
