import RiscvWorker.Firmware.Commands

/-! # The firmware line by line

  `main` refines the command language: on every input it does, in order, what
  the lines of the input ask for. The reader keeps what it has read so far in
  front of the buffer, and `strtok` keeps the tokens that are still to come;
  neither survives the line.
-/

namespace RiscvWorker

namespace Firmware

open Text (Byte ascii tokens lines)
open CString (StringAt Remaining strtok strtok_spec c_string)

variable {H : Type}

/-! ### Reading a line -/

theorem LineBuffer.store_inside (buf : LineBuffer) {i : Nat} (hi : i < UART_LINE_MAX) (c : Byte) :
    ∃ buf', buf.store i c = some buf' ∧ buf'.bytes = buf.bytes.set i c := by
  unfold LineBuffer.store
  rw [if_pos hi]
  exact ⟨_, rfl, rfl⟩

/-- Storing a byte behind what has been read. -/
theorem set_behind {α : Type} {read rest : List α} {i : Nat} (hi : read.length = i)
    (hrest : 0 < rest.length) (c : α) :
    (read ++ rest).set i c = read ++ c :: rest.tail := by
  obtain ⟨d, rest', rfl⟩ := List.exists_cons_of_length_pos hrest
  rw [List.set_append_right _ _ (by omega), hi, Nat.sub_self]
  rfl

/-- From any point of a line on the reader comes to its end. It keeps the
    bytes that fit and notices when one does not. -/
theorem uart_readline_loop_line {line : List Byte} (hline : ∀ d ∈ line, is_eol d = false)
    {eol : Byte} (heol : is_eol eol = true) (input : List Byte)
    {buf : LineBuffer} {read old : List Byte} (hbuf : buf.bytes = read ++ old)
    (hread : read.length ≤ 159) (is_truncated : Bool) :
    ∃ buf', uart_readline_loop UART_LINE_MAX (line ++ eol :: input) buf read.length
        is_truncated =
      some (.line (!is_truncated && decide (read.length + line.length ≤ 159)) buf' input) ∧
      (read.length + line.length ≤ 159 →
        ∃ old', buf'.bytes = read ++ (line ++ 0#8 :: old')) := by
  induction line generalizing buf read old is_truncated with
  | nil =>
    have hlen := buf.length_eq
    rw [hbuf, List.length_append] at hlen
    unfold UART_LINE_MAX at hlen
    obtain ⟨buf', hstore, hbytes⟩ :=
      buf.store_inside (i := read.length) (by unfold UART_LINE_MAX; omega) 0#8
    refine ⟨buf', ?_, ?_⟩
    · rw [List.nil_append]
      unfold uart_readline_loop
      simp [heol, hstore, hread]
    · intro _
      rw [hbytes, hbuf, set_behind rfl (by omega)]
      exact ⟨old.tail, rfl⟩
  | cons d line ih =>
    have hd : is_eol d = false := hline d (by simp)
    have hline' : ∀ d ∈ line, is_eol d = false := fun d hd => hline d (by simp [hd])
    have hlen := buf.length_eq
    rw [hbuf, List.length_append] at hlen
    unfold UART_LINE_MAX at hlen
    rw [List.cons_append]
    unfold uart_readline_loop
    rw [if_neg (by simp [hd])]
    by_cases hfit : read.length < UART_LINE_MAX - 1
    · -- the byte is stored behind the others
      obtain ⟨buf1, hstore, hbytes⟩ :=
        buf.store_inside (i := read.length) (by omega) d
      rw [hbuf, set_behind rfl (by omega)] at hbytes
      have hbuf1 : buf1.bytes = read ++ [d] ++ old.tail := by simp [hbytes]
      obtain ⟨buf', hloop, hbuf'⟩ := ih hline' hbuf1
        (by unfold UART_LINE_MAX at hfit; simp; omega) is_truncated
      rw [List.length_append, List.length_singleton] at hloop hbuf'
      refine ⟨buf', ?_, ?_⟩
      · rw [if_pos hfit, hstore, Option.bind_eq_bind, Option.bind_some, hloop]
        simp only [List.length_cons, Nat.add_assoc, Nat.add_comm 1]
      · intro hshort
        obtain ⟨old', hold⟩ := hbuf' (by rw [List.length_cons] at hshort; omega)
        exact ⟨old', by simpa using hold⟩
    · -- the line is too long
      obtain ⟨buf', hloop, -⟩ := ih hline' hbuf hread true
      have hfull : 159 ≤ read.length := by
        unfold UART_LINE_MAX at hfit
        omega
      refine ⟨buf', ?_, ?_⟩
      · rw [if_neg hfit, hloop]
        simp only [List.length_cons, Bool.not_true, Bool.false_and]
        rw [decide_eq_false (by omega), Bool.and_false]
      · intro hshort
        rw [List.length_cons] at hshort
        omega

theorem uart_readline_line {line : List Byte} (hline : ∀ d ∈ line, is_eol d = false)
    {eol : Byte} (heol : is_eol eol = true) (input : List Byte) (buf : LineBuffer) :
    ∃ buf', uart_readline (line ++ eol :: input) buf =
        some (.line (decide (line.length ≤ 159)) buf' input) ∧
      (line.length ≤ 159 → ∃ old, buf'.bytes = line ++ 0#8 :: old) := by
  have hbuf : buf.bytes = [] ++ buf.bytes := rfl
  obtain ⟨buf', hloop, hbuf'⟩ := uart_readline_loop_line hline heol input hbuf (by simp) false
  refine ⟨buf', ?_, ?_⟩
  · unfold uart_readline
    simpa using hloop
  · simpa using hbuf'

/-- Without a terminator the reader waits. -/
theorem uart_readline_loop_waiting {input : List Byte} (hinput : ∀ d ∈ input, is_eol d = false)
    (buf : LineBuffer) (i : Nat) (is_truncated : Bool) :
    ∃ buf', uart_readline_loop UART_LINE_MAX input buf i is_truncated = some (.waiting buf') := by
  induction input generalizing buf i is_truncated with
  | nil => exact ⟨buf, rfl⟩
  | cons d input ih =>
    have hd : is_eol d = false := hinput d (by simp)
    have ih := ih (fun d hd => hinput d (by simp [hd]))
    unfold uart_readline_loop
    rw [if_neg (by simp [hd])]
    by_cases hfit : i < UART_LINE_MAX - 1
    · obtain ⟨buf1, hstore, -⟩ :=
        buf.store_inside (i := i) (by omega) d
      rw [if_pos hfit, hstore]
      exact ih buf1 (i + 1) is_truncated
    · rw [if_neg hfit]
      exact ih buf i true

/-! ### Taking a line apart -/

/-- The tokens that `strtok` will still return. -/
def State.Tokens (s : State H) (args : List (List Byte)) : Prop :=
  Remaining is_delim s.line.bytes s.strtok_save args

/-- The first of the tokens has been returned. -/
def State.Returned (s : State H) (token : Option Nat) : List (List Byte) → Prop
  | [] => token = none ∧ s.Tokens []
  | w :: rest => ∃ q, token = some q ∧ c_string s.line.bytes q = some w ∧ s.Tokens rest

/-- `strtok` stays inside the line buffer. -/
theorem strtok_line_spec {p : Option Nat} {s : State H} {toks : List (List Byte)}
    (h : Remaining is_delim s.line.bytes p toks) :
    ∃ token s', strtok_line p s = some (token, s') ∧ s'.world = s.world ∧
      s'.Returned token toks := by
  obtain ⟨r, hr, hcut, hreturns⟩ := strtok_spec h
  -- the buffer afterwards is the memory of the library
  have hmem : ∃ line, s.line.cut r.cut = some line ∧ line.bytes = r.memory s.line.bytes := by
    unfold CString.Strtok.memory LineBuffer.cut
    cases hq : r.cut with
    | none => exact ⟨_, rfl, rfl⟩
    | some q =>
      have hlt := hcut q hq
      rw [s.line.length_eq] at hlt
      exact s.line.store_inside hlt 0#8
  obtain ⟨line, hline, hbytes⟩ := hmem
  refine ⟨r.token, { s with line := line, strtok_save := r.save }, ?_, rfl, ?_⟩
  · unfold strtok_line
    simp only [hr, hline, Option.bind_eq_bind, Option.bind_some]
  · cases toks with
    | nil =>
      obtain ⟨htoken, hrest⟩ := hreturns
      rw [← hbytes] at hrest
      exact ⟨htoken, hrest⟩
    | cons w rest =>
      obtain ⟨q, htoken, hat, hrest⟩ := hreturns
      rw [← hbytes] at hat hrest
      exact ⟨q, htoken, hat.c_string_eq, hrest⟩

/-- `*out` keeps its value when the token is no number. -/
theorem parse_u32_keeps {token : List Byte} {out : Word} (h : (parse_u32 token out).1 = false) :
    (parse_u32 token out).2 = out := by
  unfold parse_u32 at h ⊢
  dsimp only at h ⊢
  split_ifs at h ⊢
  · rfl
  · rfl

theorem parse_u32_number (token : List Byte) :
    parse_u32 token 0#32 = ((number token).isSome, (number token).getD 0#32) := by
  unfold number
  by_cases h : (parse_u32 token 0#32).1 = true
  · rw [if_pos h]
    exact Prod.ext h rfl
  · rw [if_neg h]
    rw [Bool.not_eq_true] at h
    exact Prod.ext h (parse_u32_keeps h)

/-- An argument is the next token, parsed when those before it were. -/
theorem and_parse_next_u32_spec {s : State H} {args : List (List Byte)} (parsed : Bool)
    (h : parsed = true → s.Tokens args) :
    ∃ s', and_parse_next_u32 parsed 0#32 s =
        some ((parsed && (arg args 0).isSome, if parsed then (arg args 0).getD 0#32 else 0#32),
          s') ∧
      s'.world = s.world ∧ (parsed = true → s'.Tokens args.tail) := by
  cases parsed with
  | false => exact ⟨s, rfl, rfl, by simp⟩
  | true =>
    obtain ⟨token, s', hstrtok, hworld, htoken⟩ := strtok_line_spec (h rfl)
    cases args with
    | nil =>
      obtain ⟨rfl, hrest⟩ := htoken
      refine ⟨s', ?_, hworld, fun _ => hrest⟩
      simp [and_parse_next_u32, parse_next_u32, next_token, hstrtok, arg]
    | cons w rest =>
      obtain ⟨q, rfl, hstring, hrest⟩ := htoken
      refine ⟨s', ?_, hworld, fun _ => hrest⟩
      simp [and_parse_next_u32, parse_next_u32, next_token, hstrtok, hstring, arg,
        parse_u32_number]

theorem parse_next_u32_spec {s : State H} {args : List (List Byte)} (h : s.Tokens args) :
    ∃ s', parse_next_u32 0#32 s = some (((arg args 0).isSome, (arg args 0).getD 0#32), s') ∧
      s'.world = s.world ∧ s'.Tokens args.tail := by
  obtain ⟨s', hparse, hworld, hrest⟩ := and_parse_next_u32_spec true fun _ => h
  exact ⟨s', hparse, hworld, hrest rfl⟩

/-! ### The commands -/

section commands
variable (b : Board H)

/-- The code does what the outcome says. -/
def Does (s : State H) (code : Option (State H)) (o : Outcome) : Prop :=
  ∃ s', code = some s' ∧ s'.world = o.perform b s.world

theorem does_on_board {s s1 : State H} {f : World H → World H} {o : Outcome}
    (hworld : s1.world = s.world) (hf : f s.world = o.perform b s.world) :
    Does b s (some (s1.on_board f)) o := by
  refine ⟨s1.on_board f, rfl, ?_⟩
  unfold State.on_board
  rw [hworld]
  exact hf

/-- An index up to 31 as `uint8_t` and as the number of a register. -/
theorem register_cast {n : Word} (h : n.toNat ≤ 31) :
    (n.setWidth 8).setWidth 32 = (n.setWidth 5).setWidth 32 := by
  apply BitVec.eq_of_toNat_eq
  simp only [BitVec.toNat_setWidth]
  omega

theorem cm_fault_mode_t_value {n : Word} (h : n.toNat ≤ 3) : (cm_fault_mode_t n).value = n := by
  have hn : n = 0#32 ∨ n = 1#32 ∨ n = 2#32 ∨ n = 3#32 := by
    have hcases : n.toNat = 0 ∨ n.toNat = 1 ∨ n.toNat = 2 ∨ n.toNat = 3 := by omega
    rcases hcases with h | h | h | h
    · exact .inl (BitVec.eq_of_toNat_eq h)
    · exact .inr (.inl (BitVec.eq_of_toNat_eq h))
    · exact .inr (.inr (.inl (BitVec.eq_of_toNat_eq h)))
    · exact .inr (.inr (.inr (BitVec.eq_of_toNat_eq h)))
  rcases hn with rfl | rfl | rfl | rfl <;> rfl

theorem register?_some {n : Word} (h : n.toNat ≤ 31) : register? n = some (n.setWidth 5) :=
  if_pos h

theorem fault_mode?_some {n : Word} (h : n.toNat ≤ MODE_MAX) :
    fault_mode? n = some (cm_fault_mode_t n) :=
  if_pos h

theorem word_addr?_some {a : Word} (h : a &&& 0x3#32 = 0#32) : word_addr? a = some ⟨a, h⟩ :=
  dif_pos h

theorem arg_tail (args : List (List Byte)) (n : Nat) : arg args.tail n = arg args (n + 1) := by
  unfold arg
  rw [List.getElem?_tail]

/-- An error reply. -/
theorem does_reject {s s1 : State H} (hworld : s1.world = s.world) (reason : List Byte) :
    Does b s (some (s1.on_board (xil_printf reason))) (.of reason none) :=
  does_on_board b hworld rfl

section arguments
variable {s : State H} {args : List (List Byte)} (h : s.Tokens args)
include h

theorem command_SET_PC_spec :
    Does b s (command_SET_PC b s) (.of BAD_PC (SET_PC? args)) := by
  obtain ⟨s1, h1, hw1, -⟩ := parse_next_u32_spec h
  unfold command_SET_PC SET_PC?
  simp only [h1, Option.bind_eq_bind, Option.bind_some]
  rcases arg args 0 with - | pc
  · exact does_reject b hw1 BAD_PC
  · exact does_on_board b hw1 rfl

theorem command_GET_REG_spec :
    Does b s (command_GET_REG b s) (.of BAD_REG (GET_REG? args)) := by
  obtain ⟨s1, h1, hw1, -⟩ := parse_next_u32_spec h
  have hreject := does_reject b hw1 BAD_REG
  unfold command_GET_REG GET_REG?
  simp only [h1, Option.bind_eq_bind, Option.bind_some]
  rcases arg args 0 with - | reg
  · exact hreject
  by_cases hreg : reg.toNat ≤ 31
  · rw [if_neg (by simpa using hreg), Option.bind_some, register?_some hreg]
    apply does_on_board b hw1
    unfold cm_regfile_read
    rw [Option.getD_some, register_cast hreg]
    rfl
  · have hlarge : 31 < reg.toNat := by omega
    simpa [register?, hreg, hlarge] using hreject

theorem command_READ_WORD_spec :
    Does b s (command_READ_WORD b s) (.of BAD_ADDR (READ_WORD? args)) := by
  obtain ⟨s1, h1, hw1, -⟩ := parse_next_u32_spec h
  unfold command_READ_WORD READ_WORD?
  simp only [h1, Option.bind_eq_bind, Option.bind_some]
  rcases arg args 0 with - | addr
  · exact does_reject b hw1 BAD_ADDR
  · exact does_on_board b hw1 rfl

/-- Two arguments. -/
theorem two_args_spec :
    ∃ s1 s2, parse_next_u32 0#32 s = some (((arg args 0).isSome, (arg args 0).getD 0#32), s1) ∧
      and_parse_next_u32 (arg args 0).isSome 0#32 s1 =
        some ((((arg args 0).isSome && (arg args 1).isSome),
          if (arg args 0).isSome then (arg args 1).getD 0#32 else 0#32), s2) ∧
      s2.world = s.world ∧
      (((arg args 0).isSome && (arg args 1).isSome) = true → s2.Tokens args.tail.tail) := by
  obtain ⟨s1, h1, hw1, ht1⟩ := parse_next_u32_spec h
  obtain ⟨s2, h2, hw2, ht2⟩ :=
    and_parse_next_u32_spec (arg args 0).isSome fun _ => ht1
  rw [arg_tail] at h2
  refine ⟨s1, s2, h1, h2, hw2.trans hw1, ?_⟩
  intro hsome
  rw [Bool.and_eq_true] at hsome
  exact ht2 hsome.1

theorem command_SET_REG_spec :
    Does b s (command_SET_REG b s) (.of BAD_REG (SET_REG? args)) := by
  obtain ⟨s1, s2, h1, h2, hw2, -⟩ := two_args_spec h
  have hreject := does_reject b hw2 BAD_REG
  unfold command_SET_REG SET_REG?
  simp only [h1, h2, Option.bind_eq_bind, Option.bind_some]
  rcases arg args 0 with - | reg
  · exact hreject
  rcases arg args 1 with - | value
  · simpa using hreject
  by_cases hreg : reg.toNat ≤ 31
  · rw [if_neg (by simpa using hreg), Option.bind_some, register?_some hreg]
    simp only [Option.getD_some, Option.isSome_some, if_true]
    apply does_on_board b hw2
    unfold cm_regfile_write
    rw [register_cast hreg]
    rfl
  · have hlarge : 31 < reg.toNat := by omega
    simpa [register?, hreg, hlarge] using hreject

theorem command_WRITE_WORD_spec :
    Does b s (command_WRITE_WORD b s) (.of BAD_WRITE (WRITE_WORD? args)) := by
  obtain ⟨s1, s2, h1, h2, hw2, -⟩ := two_args_spec h
  have hreject := does_reject b hw2 BAD_WRITE
  unfold command_WRITE_WORD WRITE_WORD?
  simp only [h1, h2, Option.bind_eq_bind, Option.bind_some]
  rcases arg args 0 with - | addr
  · exact hreject
  rcases arg args 1 with - | value
  · exact hreject
  apply does_on_board b hw2
  simp only [Option.getD_some, Option.isSome_some, if_true, Option.bind_some, Outcome.of,
    Outcome.perform, reply_ok, xil_printf, Xil_DCacheFlushRange, Xil_Out32, Request.perform,
    Request.accesses, Request.value, ok_reply, Event.effect, List.foldl_cons, List.foldl_nil,
    List.append_assoc, List.cons_append, List.nil_append]

/-- Three arguments. -/
theorem three_args_spec :
    ∃ s1 s2 s3, parse_next_u32 0#32 s = some (((arg args 0).isSome, (arg args 0).getD 0#32), s1) ∧
      and_parse_next_u32 (arg args 0).isSome 0#32 s1 =
        some ((((arg args 0).isSome && (arg args 1).isSome),
          if (arg args 0).isSome then (arg args 1).getD 0#32 else 0#32), s2) ∧
      and_parse_next_u32 ((arg args 0).isSome && (arg args 1).isSome) 0#32 s2 =
        some ((((arg args 0).isSome && (arg args 1).isSome && (arg args 2).isSome),
          if ((arg args 0).isSome && (arg args 1).isSome) = true then (arg args 2).getD 0#32
          else 0#32), s3) ∧
      s3.world = s.world := by
  obtain ⟨s1, s2, h1, h2, hw2, ht2⟩ := two_args_spec h
  obtain ⟨s3, h3, hw3, -⟩ := and_parse_next_u32_spec _ ht2
  rw [arg_tail, arg_tail] at h3
  exact ⟨s1, s2, s3, h1, h2, h3, hw3.trans hw2⟩

theorem command_FAULT_REG_spec :
    Does b s (command_FAULT_REG b s) (.of BAD_FAULT_REG (FAULT_REG? args)) := by
  obtain ⟨s1, s2, s3, h1, h2, h3, hw3⟩ := three_args_spec h
  have hreject := does_reject b hw3 BAD_FAULT_REG
  unfold command_FAULT_REG FAULT_REG?
  simp only [h1, h2, h3, Option.bind_eq_bind, Option.bind_some]
  rcases arg args 0 with - | reg
  · exact hreject
  rcases arg args 1 with - | mode
  · simpa using hreject
  rcases arg args 2 with - | mask
  · simpa using hreject
  by_cases hreg : reg.toNat ≤ 31
  · by_cases hmode : mode.toNat ≤ MODE_MAX
    · rw [if_neg (by simpa using ⟨hreg, hmode⟩), Option.bind_some, Option.bind_some,
        register?_some hreg, fault_mode?_some hmode]
      simp only [Option.getD_some, Option.isSome_some, Bool.and_self, if_true]
      apply does_on_board b hw3
      unfold cm_regfile_fault_inject
      rw [register_cast hreg]
      rfl
    · have hlarge : MODE_MAX < mode.toNat := by omega
      simpa [fault_mode?, hmode, hlarge] using hreject
  · have hlarge : 31 < reg.toNat := by omega
    simpa [register?, hreg, hlarge] using hreject

theorem command_FAULT_MEM_spec :
    Does b s (command_FAULT_MEM b s) (.of BAD_FAULT_MEM (FAULT_MEM? args)) := by
  obtain ⟨s1, s2, s3, h1, h2, h3, hw3⟩ := three_args_spec h
  have hreject := does_reject b hw3 BAD_FAULT_MEM
  unfold command_FAULT_MEM FAULT_MEM?
  simp only [h1, h2, h3, Option.bind_eq_bind, Option.bind_some]
  rcases arg args 0 with - | addr
  · exact hreject
  rcases arg args 1 with - | mode
  · simpa using hreject
  rcases arg args 2 with - | mask
  · simpa using hreject
  by_cases haddr : addr &&& 0x3#32 = 0#32
  · by_cases hmode : mode.toNat ≤ MODE_MAX
    · rw [if_neg (by simpa [haddr] using hmode), Option.bind_some, Option.bind_some,
        word_addr?_some haddr, fault_mode?_some hmode]
      apply does_on_board b hw3
      simp only [Option.getD_some, Option.isSome_some, Bool.and_self, if_true, Option.bind_some,
        Outcome.of, Outcome.perform, reply_ok, xil_printf, Xil_DCacheFlushRange, Xil_Out32,
        Xil_In32, Request.perform, Request.accesses, Request.value, ok_reply, Event.effect,
        cm_fault_mode_t_value hmode, List.foldl_cons, List.foldl_nil, List.append_assoc,
        List.cons_append, List.nil_append]
    · have hlarge : MODE_MAX < mode.toNat := by omega
      simpa [fault_mode?, hmode, hlarge] using hreject
  · simpa [word_addr?, haddr] using hreject

/-- The comparisons come to the same command as the language does. -/
theorem dispatch_spec (cmd : List Byte) : Does b s (dispatch b cmd s) (command cmd args) := by
  have step : ∀ {c : Prop} [Decidable c] {x y : Option (State H)} {o o' : Outcome},
      Does b s x o → Does b s y o' → Does b s (if c then x else y) (if c then o else o') := by
    intro c _ x y o o' hx hy
    by_cases hc : c
    · rwa [if_pos hc, if_pos hc]
    · rwa [if_neg hc, if_neg hc]
  unfold dispatch command
  refine step (does_on_board b rfl ?_) ?_
  · simp only [reply_ok_u32, xil_printf, Outcome.perform, Request.perform, Request.accesses,
      Request.value, ok_reply, List.foldl_nil, List.append_nil]
  iterate 4 refine step (does_on_board b rfl rfl) ?_
  refine step (command_SET_PC_spec b h) ?_
  refine step (command_GET_REG_spec b h) ?_
  refine step (command_SET_REG_spec b h) ?_
  refine step (command_READ_WORD_spec b h) ?_
  refine step (command_WRITE_WORD_spec b h) ?_
  refine step (command_FAULT_REG_spec b h) ?_
  refine step (command_FAULT_MEM_spec b h) ?_
  exact does_on_board b rfl rfl

end arguments

/-! ### The loop -/

/-- A line in the buffer. -/
theorem process_line_spec {s : State H} {line : List Byte} (hlen : line.length ≤ 159)
    (hline : StringAt s.line.bytes 0 line) : Does b s (process_line b true s) (outcome line) := by
  have hrem : Remaining is_delim s.line.bytes (some 0) (tokens is_delim line) := ⟨line, hline, rfl⟩
  obtain ⟨token, s1, hstrtok, hworld, htoken⟩ := strtok_line_spec hrem
  unfold process_line outcome
  rw [if_neg (by simp), if_neg (by unfold UART_LINE_MAX; omega)]
  simp only [hstrtok, Option.bind_eq_bind, Option.bind_some]
  rcases htok : tokens is_delim line with - | ⟨cmd, args⟩
  · rw [htok] at htoken
    obtain ⟨rfl, -⟩ := htoken
    exact ⟨s1, rfl, hworld⟩
  · rw [htok] at htoken
    obtain ⟨q, rfl, hstring, hargs⟩ := htoken
    simp only [hstring, Option.bind_some]
    obtain ⟨s2, hdispatch, hdoes⟩ := dispatch_spec b hargs cmd
    exact ⟨s2, hdispatch, by rw [hdoes, hworld]⟩

/-- The part of a line that `main` sees as a string: a NUL ends it. -/
def c_text (line : List Byte) : List Byte := line.takeWhile (· ≠ 0#8)

theorem c_text_of_not_mem {line : List Byte} (h : 0#8 ∉ line) : c_text line = line := by
  apply List.takeWhile_eq_self_iff.mpr
  intro c hc
  refine decide_eq_true ?_
  rintro rfl
  exact h hc

theorem c_text_split (line : List Byte) :
    c_text line = line ∨ ∃ rest, line = c_text line ++ 0#8 :: rest := by
  induction line with
  | nil => exact .inl rfl
  | cons c line ih =>
    by_cases hc : c = 0#8
    · have hnil : c_text (c :: line) = [] := List.takeWhile_cons_of_neg (by simp [hc])
      rw [hnil, hc]
      exact .inr ⟨line, rfl⟩
    · have hcons : c_text (c :: line) = c :: c_text line :=
        List.takeWhile_cons_of_pos (by simp [hc])
      rw [hcons]
      rcases ih with hsame | ⟨rest, hrest⟩
      · exact .inl (by rw [hsame])
      · exact .inr ⟨rest, congrArg (c :: ·) hrest⟩

theorem c_text_length_le (line : List Byte) : (c_text line).length ≤ line.length :=
  (List.takeWhile_prefix _).length_le

/-- What `main` makes of a line of any bytes. All of it counts for its length. -/
def c_outcome (line : List Byte) : Outcome :=
  if UART_LINE_MAX ≤ line.length then .reject LINE_TOO_LONG else outcome (c_text line)

theorem c_outcome_of_short {line : List Byte} (h : line.length ≤ 159) :
    c_outcome line = outcome (c_text line) :=
  if_neg (by unfold UART_LINE_MAX; omega)

theorem c_outcome_of_long {line : List Byte} (h : 159 < line.length) :
    c_outcome line = .reject LINE_TOO_LONG :=
  if_pos (by unfold UART_LINE_MAX; omega)

theorem c_outcome_of_not_mem {line : List Byte} (h : 0#8 ∉ line) :
    c_outcome line = outcome line := by
  unfold c_outcome
  rw [c_text_of_not_mem h]
  split
  · rename_i hlong
    exact (if_pos hlong).symm
  · rfl

/-- One line of the loop. The state after it depends on the line for what has
    happened on the board only. -/
theorem main_loop_line {line : List Byte} (hline : ∀ d ∈ line, is_eol d = false) {eol : Byte}
    (heol : is_eol eol = true) (input : List Byte)
    (s : State H) (fuel : Nat) :
    ∃ s', main_loop b (fuel + 1) (line ++ eol :: input) s = main_loop b fuel input s' ∧
      s'.world = (c_outcome line).perform b s.world := by
  obtain ⟨buf, hread, hbuf⟩ := uart_readline_line hline heol input s.line
  have hstep : ∀ s', process_line b (decide (line.length ≤ 159)) { s with line := buf } = some s' →
      main_loop b (fuel + 1) (line ++ eol :: input) s = main_loop b fuel input s' := by
    intro s' hs'
    rw [main_loop]
    simp only [hread, hs', Option.bind_eq_bind, Option.bind_some]
  by_cases hlen : line.length ≤ 159
  · obtain ⟨old, hbytes⟩ := hbuf hlen
    have hno : 0#8 ∉ c_text line := fun h => absurd (List.mem_takeWhile_imp h) (by decide)
    -- `strtok` sees the line up to its first NUL
    have hat : StringAt buf.bytes 0 (c_text line) := by
      rcases c_text_split line with htext | ⟨rest, hrest⟩
      · exact ⟨[], old, by rw [hbytes, htext]; rfl, rfl, hno⟩
      · refine ⟨[], rest ++ 0#8 :: old, ?_, rfl, hno⟩
        rw [hbytes]
        nth_rewrite 1 [hrest]
        simp
    obtain ⟨s', hprocess, hworld⟩ := process_line_spec (s := { s with line := buf }) b
      (Nat.le_trans (c_text_length_le line) hlen) hat
    rw [c_outcome_of_short hlen]
    refine ⟨s', hstep s' ?_, hworld⟩
    rwa [decide_eq_true hlen]
  · refine ⟨{ s with line := buf, world := xil_printf LINE_TOO_LONG s.world }, hstep _ ?_, ?_⟩
    · rw [decide_eq_false hlen]
      rfl
    · rw [c_outcome_of_long (by omega)]
      rfl

/-- An unfinished line changes nothing on the board. -/
theorem main_loop_waiting {input : List Byte} (hinput : ∀ d ∈ input, is_eol d = false)
    (s : State H) (fuel : Nat) :
    ∃ s', main_loop b (fuel + 1) input s = some s' ∧ s'.world = s.world := by
  obtain ⟨buf, hread⟩ := uart_readline_loop_waiting hinput s.line 0 false
  refine ⟨{ s with line := buf }, ?_, rfl⟩
  rw [main_loop]
  simp only [uart_readline, hread, Option.bind_eq_bind, Option.bind_some]

/-- One line, and the firmware waits for the next. -/
theorem main_loop_one_line {line : List Byte} (hline : ∀ d ∈ line, is_eol d = false)
    (s : State H) (fuel : Nat) :
    ∃ s', main_loop b (fuel + 2) (line ++ ascii "\n") s = some s' ∧
      s'.world = (c_outcome line).perform b s.world := by
  have heol : is_eol 10#8 = true := by decide
  have hrest : ∀ d ∈ ([] : List Byte), is_eol d = false := by simp
  obtain ⟨s1, hstep, hworld1⟩ := main_loop_line b hline heol [] s (fuel + 1)
  obtain ⟨s2, hwait, hworld2⟩ := main_loop_waiting b hrest s1 fuel
  exact ⟨s2, hstep.trans hwait, hworld2.trans hworld1⟩

/-- What a sequence of lines does. -/
def perform_lines (ls : List (List Byte)) (w : World H) : World H :=
  ls.foldl (fun w line => (outcome line).perform b w) w

theorem main_loop_lines (fuel : Nat) {input : List Byte} (hnul : 0#8 ∉ input)
    (hfuel : input.length < fuel) (s : State H) :
    ∃ s', main_loop b fuel input s = some s' ∧
      s'.world = perform_lines b (lines is_eol input) s.world := by
  induction fuel generalizing input s with
  | zero => omega
  | succ fuel ih =>
    rcases Text.line_cases is_eol input with hinput | ⟨line, eol, rest, rfl, hline, heol⟩
    · rw [Text.lines_of_unterminated hinput]
      exact main_loop_waiting b hinput s fuel
    · rw [List.mem_append, List.mem_cons] at hnul
      rw [List.length_append, List.length_cons] at hfuel
      obtain ⟨s1, hstep, hworld1⟩ := main_loop_line b hline heol rest s fuel
      rw [c_outcome_of_not_mem fun hc => hnul (.inl hc)] at hworld1
      obtain ⟨s2, hrest, hworld2⟩ := ih (fun hc => hnul (.inr (.inr hc))) (by omega) s1
      refine ⟨s2, hstep.trans hrest, ?_⟩
      rw [hworld2, hworld1, Text.lines_cons hline heol]
      rfl

/-- What the board has been through before the first line. -/
def boot (w : World H) : World H := cm_pc_set b b.XPAR_XBRAM_0_BASEADDR (cm_core_stop b w)

/-- Whatever comes in on the UART, `main` stays inside the line buffer and
    does line by line what the lines ask for: nothing for a blank line, one
    error for a line that is too long, one reply for every other. It never
    runs on by itself. -/
theorem main_by_lines (s : State H) {input : List Byte} (hnul : 0#8 ∉ input) {fuel : Nat}
    (hfuel : input.length < fuel) :
    (∃ s', main b fuel input s = some s' ∧
      s'.world = perform_lines b (lines is_eol input) (boot b s.world)) ∧
    ∀ line ∈ lines is_eol input, ∀ w,
      LineBehaviour b line w ((outcome line).perform b w) := by
  refine ⟨?_, fun line _ w => line_behaviour b line w⟩
  exact main_loop_lines b fuel hnul hfuel (s.on_board (boot b))

end commands

/-- A board whose words all read as 42, and its firmware at power-on. -/
def sample_board : Board Unit where
  in32 _ _ := (42#32, ())
  out32 _ _ _ := ()
  dcache_flush _ _ _ := ()
  XPAR_RISCV_MOD_NAME_BASEADDR := 0x60000000#32
  XPAR_XBRAM_0_BASEADDR := 0x40000000#32

def power_on : State Unit where
  line := ⟨List.replicate 160 0#8, List.length_replicate⟩
  strtok_save := none
  world := ⟨(), []⟩

/-- A line that ends in CR LF, a blank one, and an unknown command. -/
theorem main_by_lines_session :
    ∃ s', main sample_board 60 (ascii "GET_REG 3\r\n \t\nSTART now\nRESET\n") power_on = some s' ∧
      s'.world.trace =
        [.out32 0x60001008#32 1#32, .out32 0x60001010#32 0x40000000#32,
          .in32 0x6000200C#32 42#32, .print (ascii "OK 0x0000002A\n"),
          .out32 0x60001004#32 1#32, .print (ascii "OK\n"),
          .print (ascii "ERR UNKNOWN_CMD\n")] := by
  obtain ⟨⟨s', hmain, hworld⟩, -⟩ := main_by_lines sample_board power_on
    (by decide : 0#8 ∉ ascii "GET_REG 3\r\n \t\nSTART now\nRESET\n") (by decide : _ < 60)
  refine ⟨s', hmain, ?_⟩
  rw [hworld]
  decide

end Firmware

end RiscvWorker
