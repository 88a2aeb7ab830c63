import RiscvWorker.Firmware.Numbers
import RiscvWorker.Firmware.Lines

/-! # The documented grammar

  The command forms of `uart_protocol.md`, written down independently of the
  firmware, and the lines that the firmware answers with OK.
-/

namespace RiscvWorker

namespace Firmware

open Text (Byte ascii tokens)
open CString (Literal Decoration isspace unsigned_part is_negative unsigned_part_append
  unsigned_part_iff)

/-! ### The forms -/

/-- The validation rules for an argument. -/
inductive Rule where
  | value
  | register
  | mode
  | aligned
  deriving DecidableEq, Repr

def Rule.holds : Rule → Word → Prop
  | .value, _ => True
  | .register, v => v.toNat ≤ 31
  | .mode, v => v.toNat ≤ 3
  | .aligned, v => v.toNat % 4 = 0

/-- A command with the rules of its arguments. -/
abbrev Form : Type := List Byte × List Rule

/-- The commands of the protocol, with `SET_REG`, that the firmware also
    knows. -/
def forms : List Form :=
  [(ascii "PROTOCOL_VERSION", []), (ascii "START", []), (ascii "STOP", []), (ascii "STEP", []),
    (ascii "RESET", []), (ascii "RESET", [.value]), (ascii "SET_PC", [.value]),
    (ascii "WRITE_WORD", [.value, .value]), (ascii "FAULT_REG", [.register, .mode, .value]),
    (ascii "FAULT_MEM", [.aligned, .mode, .value]), (ascii "GET_PC", []),
    (ascii "GET_REG", [.register]), (ascii "READ_WORD", [.value]),
    (ascii "SET_REG", [.register, .value])]

/-- An unsigned 32-bit literal that meets a rule. -/
def Valid (arg : List Byte) (rule : Rule) : Prop :=
  ∃ n, Literal arg n ∧ n ≤ UINT_MAX ∧ rule.holds (BitVec.ofNat 32 n)

/-- The words of a line are a command form with exactly its arguments. -/
def Documented (toks : List (List Byte)) : Prop :=
  ∃ f ∈ forms, ∃ args, toks = f.1 :: args ∧ List.Forall₂ Valid args f.2

/-- A command of the protocol with too few or too many arguments. -/
def WrongCount (toks : List (List Byte)) : Prop :=
  ∃ cmd args, toks = cmd :: args ∧ (∃ f ∈ forms, f.1 = cmd) ∧
    ∀ f ∈ forms, f.1 = cmd → args.length ≠ f.2.length

/-! ### What the firmware takes -/

/-- A literal, or one behind white space or a sign, with the number it is
    taken for. -/
def Denotes (arg : List Byte) (v : Word) : Prop :=
  ∃ pre lit n, (pre = [] ∨ Decoration pre) ∧ arg = pre ++ lit ∧ Literal lit n ∧ n ≤ UINT_MAX ∧
    v = signed_value (pre.getLast? == some 45#8) n

/-- The first arguments are numbers that meet the rules. -/
def Taken : List Rule → List (List Byte) → Prop
  | [], _ => True
  | _ :: _, [] => False
  | rule :: rules, arg :: args => (∃ v, Denotes arg v ∧ rule.holds v) ∧ Taken rules args

/-- The forms that the firmware implements. -/
def implemented : List Form := forms.filter fun f => f.1 ≠ ascii "RESET"

/-- The firmware carries out the command. -/
def Executed (toks : List (List Byte)) : Prop :=
  ∃ f ∈ implemented, ∃ args, toks = f.1 :: args ∧ Taken f.2 args

theorem is_negative_append {pre lit : List Byte} {n : Nat} (hpre : pre = [] ∨ Decoration pre)
    (h : Literal lit n) : is_negative (pre ++ lit) = (pre.getLast? == some 45#8) := by
  have hparts : ∃ ws sgn, pre = ws ++ sgn ∧ (∀ c ∈ ws, isspace c = true) ∧
      (sgn = [] ∨ sgn = ascii "+" ∨ sgn = ascii "-") := by
    rcases hpre with rfl | ⟨-, hparts⟩
    · exact ⟨[], [], rfl, by simp, .inl rfl⟩
    · exact hparts
  obtain ⟨ws, sgn, rfl, hws, hsgn⟩ := hparts
  have hneg := (unsigned_part_append hws hsgn h).2
  rw [List.append_assoc, Bool.eq_iff_iff, hneg, beq_iff_eq]
  rcases hsgn with rfl | rfl | rfl
  · -- the last byte of the white space is no minus sign
    refine iff_of_false (by decide) ?_
    rw [List.append_nil]
    intro hlast
    have hspace := hws _ (List.mem_of_getLast? hlast)
    exact absurd hspace (by decide)
  · refine iff_of_false (by decide) ?_
    rw [show ascii "+" = [43#8] from rfl, List.getLast?_concat]
    decide
  · refine iff_of_true rfl ?_
    rw [show ascii "-" = [45#8] from rfl, List.getLast?_concat]

theorem number_eq_some_iff (arg : List Byte) (v : Word) : number arg = some v ↔ Denotes arg v := by
  constructor
  · intro h
    by_cases hacc : ∃ n, Literal (unsigned_part arg) n ∧ n ≤ UINT_MAX
    · obtain ⟨n, hlit, hn⟩ := hacc
      rw [number_of_parsed (parse_u32_literal hlit hn 0#32)] at h
      have hv := (Option.some.inj h).symm
      rcases (unsigned_part_iff hlit).mp rfl with hself | ⟨pre, hpre, hself⟩
      · rw [hself] at hv
        rw [← hself] at hlit hv
        refine ⟨[], arg, n, .inl rfl, rfl, hlit, hn, ?_⟩
        rw [hv, (unsigned_part_literal hlit).2]
        rfl
      · refine ⟨pre, _, n, .inr hpre, hself, hlit, hn, ?_⟩
        rw [hv, ← is_negative_append (.inr hpre) hlit, ← hself]
    · rw [number_of_failed (parse_u32_rejects hacc 0#32)] at h
      exact absurd h (by simp)
  · intro h
    obtain ⟨pre, lit, n, hpre, rfl, hlit, hn, rfl⟩ := h
    have hpart : unsigned_part (pre ++ lit) = lit := by
      apply (unsigned_part_iff hlit).mpr
      rcases hpre with rfl | hpre
      · exact .inl rfl
      · exact .inr ⟨pre, hpre, rfl⟩
    have hlit' : Literal (unsigned_part (pre ++ lit)) n := by rwa [hpart]
    rw [number_of_parsed (parse_u32_literal hlit' hn 0#32), is_negative_append hpre hlit]

/-! ### Commands that are carried out -/

section commands
variable (args : List (List Byte))

/-- The argument at a position is a number that meets the rule. -/
def ArgHolds (n : Nat) (rule : Rule) : Prop := ∃ v, arg args n = some v ∧ rule.holds v

theorem taken_cons (rule : Rule) (rules : List Rule) :
    Taken (rule :: rules) args ↔ ArgHolds args 0 rule ∧ Taken rules args.tail := by
  cases args with
  | nil =>
    refine iff_of_false id ?_
    intro h
    obtain ⟨v, hv, -⟩ := h.1
    exact absurd hv (by simp [arg])
  | cons a rest =>
    show (∃ v, Denotes a v ∧ rule.holds v) ∧ Taken rules rest ↔ _
    have harg : ∀ v, arg (a :: rest) 0 = some v ↔ Denotes a v := number_eq_some_iff a
    unfold ArgHolds
    simp only [harg, List.tail_cons]

theorem argHolds_tail (n : Nat) (rule : Rule) :
    ArgHolds args.tail n rule ↔ ArgHolds args (n + 1) rule := by
  unfold ArgHolds
  rw [arg_tail]

theorem taken_one (r0 : Rule) : Taken [r0] args ↔ ArgHolds args 0 r0 := by
  rw [taken_cons]
  exact and_iff_left trivial

theorem taken_two (r0 r1 : Rule) :
    Taken [r0, r1] args ↔ ArgHolds args 0 r0 ∧ ArgHolds args 1 r1 := by
  rw [taken_cons, taken_one, argHolds_tail]

theorem taken_three (r0 r1 r2 : Rule) :
    Taken [r0, r1, r2] args ↔
      ArgHolds args 0 r0 ∧ ArgHolds args 1 r1 ∧ ArgHolds args 2 r2 := by
  rw [taken_cons, taken_two, argHolds_tail, argHolds_tail]

variable (n : Nat)

theorem argHolds_value : ArgHolds args n .value ↔ (arg args n).isSome = true := by
  rw [Option.isSome_iff_exists]
  exact exists_congr fun v => and_iff_left trivial

theorem argHolds_register :
    ArgHolds args n .register ↔ ((arg args n).bind register?).isSome = true := by
  unfold ArgHolds Rule.holds register?
  cases arg args n with
  | none => simp
  | some v => by_cases hv : v.toNat ≤ 31 <;> simp [hv]

theorem argHolds_mode :
    ArgHolds args n .mode ↔ ((arg args n).bind fault_mode?).isSome = true := by
  unfold ArgHolds Rule.holds fault_mode? MODE_MAX
  cases arg args n with
  | none => simp
  | some v => by_cases hv : v.toNat ≤ 3 <;> simp [hv]

theorem aligned_iff (v : Word) : v &&& 0x3#32 = 0#32 ↔ v.toNat % 4 = 0 := by
  have h : (v &&& 0x3#32).toNat = v.toNat % 4 := by
    rw [BitVec.toNat_and]
    exact Nat.and_two_pow_sub_one_eq_mod v.toNat 2
  rw [← h]
  exact ⟨fun h => congrArg BitVec.toNat h, fun h => BitVec.eq_of_toNat_eq h⟩

theorem argHolds_aligned :
    ArgHolds args n .aligned ↔ ((arg args n).bind word_addr?).isSome = true := by
  unfold ArgHolds Rule.holds word_addr?
  cases arg args n with
  | none => simp
  | some v => by_cases hv : v &&& 0x3#32 = 0#32 <;> simp [hv, ← aligned_iff]

end commands

/-- The outcome is a request. -/
def Outcome.Executes (o : Outcome) : Prop := ∃ r, o = .execute r

theorem of_executes (reason : List Byte) (r : Option Request) :
    (Outcome.of reason r).Executes ↔ r.isSome = true := by
  cases r with
  | none => simp [Outcome.of, Outcome.Executes]
  | some r => simp [Outcome.of, Outcome.Executes]

section forms
variable (args : List (List Byte))

theorem SET_PC?_isSome : (SET_PC? args).isSome = true ↔ Taken [.value] args := by
  rw [taken_one, argHolds_value, SET_PC?]
  cases arg args 0 <;> simp

theorem GET_REG?_isSome : (GET_REG? args).isSome = true ↔ Taken [.register] args := by
  rw [taken_one, argHolds_register, GET_REG?]
  cases (arg args 0).bind register? <;> simp

theorem SET_REG?_isSome : (SET_REG? args).isSome = true ↔ Taken [.register, .value] args := by
  rw [taken_two, argHolds_register, argHolds_value, SET_REG?]
  cases (arg args 0).bind register? <;> cases arg args 1 <;> simp

theorem READ_WORD?_isSome : (READ_WORD? args).isSome = true ↔ Taken [.value] args := by
  rw [taken_one, argHolds_value, READ_WORD?]
  cases arg args 0 <;> simp

theorem WRITE_WORD?_isSome : (WRITE_WORD? args).isSome = true ↔ Taken [.value, .value] args := by
  rw [taken_two, argHolds_value, argHolds_value, WRITE_WORD?]
  cases arg args 0 <;> cases arg args 1 <;> simp

theorem FAULT_REG?_isSome :
    (FAULT_REG? args).isSome = true ↔ Taken [.register, .mode, .value] args := by
  rw [taken_three, argHolds_register, argHolds_mode, argHolds_value, FAULT_REG?]
  cases (arg args 0).bind register? <;> cases (arg args 1).bind fault_mode? <;>
    cases arg args 2 <;> simp

theorem FAULT_MEM?_isSome :
    (FAULT_MEM? args).isSome = true ↔ Taken [.aligned, .mode, .value] args := by
  rw [taken_three, argHolds_aligned, argHolds_mode, argHolds_value, FAULT_MEM?]
  cases (arg args 0).bind word_addr? <;> cases (arg args 1).bind fault_mode? <;>
    cases arg args 2 <;> simp

end forms

theorem executes_of_request (r : Request) : (Outcome.execute r).Executes := ⟨r, rfl⟩

/-- The command of a form is carried out when its arguments are taken. -/
theorem command_of_form {f : Form} (hf : f ∈ implemented) (args : List (List Byte)) :
    (command f.1 args).Executes ↔ Taken f.2 args := by
  have hcases : f ∈ [(ascii "PROTOCOL_VERSION", []), (ascii "START", []), (ascii "STOP", []),
      (ascii "STEP", []), (ascii "SET_PC", [.value]), (ascii "WRITE_WORD", [.value, .value]),
      (ascii "FAULT_REG", [.register, .mode, .value]),
      (ascii "FAULT_MEM", [.aligned, .mode, .value]), (ascii "GET_PC", []),
      (ascii "GET_REG", [.register]), (ascii "READ_WORD", [.value]),
      (ascii "SET_REG", [.register, .value])] := hf
  simp only [List.mem_cons, List.not_mem_nil, or_false] at hcases
  rcases hcases with rfl | rfl | rfl | rfl | rfl | rfl | rfl | rfl | rfl | rfl | rfl | rfl
  -- in the order of the protocol
  · exact iff_of_true (executes_of_request .protocol_version) trivial
  · exact iff_of_true (executes_of_request .start) trivial
  · exact iff_of_true (executes_of_request .stop) trivial
  · exact iff_of_true (executes_of_request .step) trivial
  · rw [command_eq_SET_PC, of_executes, SET_PC?_isSome]
  · rw [command_eq_WRITE_WORD, of_executes, WRITE_WORD?_isSome]
  · rw [command_eq_FAULT_REG, of_executes, FAULT_REG?_isSome]
  · rw [command_eq_FAULT_MEM, of_executes, FAULT_MEM?_isSome]
  · exact iff_of_true (executes_of_request .get_pc) trivial
  · rw [command_eq_GET_REG, of_executes, GET_REG?_isSome]
  · rw [command_eq_READ_WORD, of_executes, READ_WORD?_isSome]
  · rw [command_eq_SET_REG, of_executes, SET_REG?_isSome]

/-- A command that is none of the forms is unknown. -/
theorem command_unknown {cmd : List Byte} (h : ∀ f ∈ implemented, cmd ≠ f.1)
    (args : List (List Byte)) : command cmd args = .reject UNKNOWN_CMD := by
  have hne : ∀ f : Form, f ∈ implemented → ¬ cmd = f.1 := h
  unfold command
  rw [if_neg (hne (ascii "PROTOCOL_VERSION", []) (by decide)),
    if_neg (hne (ascii "START", []) (by decide)), if_neg (hne (ascii "STOP", []) (by decide)),
    if_neg (hne (ascii "STEP", []) (by decide)), if_neg (hne (ascii "GET_PC", []) (by decide)),
    if_neg (hne (ascii "SET_PC", [.value]) (by decide)),
    if_neg (hne (ascii "GET_REG", [.register]) (by decide)),
    if_neg (hne (ascii "SET_REG", [.register, .value]) (by decide)),
    if_neg (hne (ascii "READ_WORD", [.value]) (by decide)),
    if_neg (hne (ascii "WRITE_WORD", [.value, .value]) (by decide)),
    if_neg (hne (ascii "FAULT_REG", [.register, .mode, .value]) (by decide)),
    if_neg (hne (ascii "FAULT_MEM", [.aligned, .mode, .value]) (by decide))]

theorem command_executes_iff (cmd : List Byte) (args : List (List Byte)) :
    (command cmd args).Executes ↔ Executed (cmd :: args) := by
  constructor
  · intro hexec
    by_contra hnot
    have hunknown : ∀ f ∈ implemented, cmd ≠ f.1 := by
      intro f hf hcmd
      rw [hcmd, command_of_form hf] at hexec
      exact hnot ⟨f, hf, args, by rw [hcmd], hexec⟩
    rw [command_unknown hunknown] at hexec
    obtain ⟨r, hr⟩ := hexec
    exact Outcome.noConfusion hr
  · intro hform
    obtain ⟨f, hf, args', htoks, htaken⟩ := hform
    obtain ⟨rfl, rfl⟩ := List.cons.inj htoks
    exact (command_of_form hf args).mpr htaken

theorem outcome_executes_iff {line : List Byte} (hlen : line.length ≤ 159) :
    (outcome line).Executes ↔ Executed (tokens is_delim line) := by
  have hshort : ¬ UART_LINE_MAX ≤ line.length := by
    unfold UART_LINE_MAX
    omega
  unfold outcome
  rw [if_neg hshort]
  cases tokens is_delim line with
  | nil =>
    refine iff_of_false ?_ ?_
    · intro h
      obtain ⟨r, hr⟩ := h
      exact Outcome.noConfusion hr
    · intro h
      obtain ⟨f, -, args, htoks, -⟩ := h
      exact absurd htoks (by simp)
  | cons cmd args => exact command_executes_iff cmd args

/-! ### Documented and executed -/

theorem valid_taken {arg : List Byte} {rule : Rule} (h : Valid arg rule) :
    ∃ v, Denotes arg v ∧ rule.holds v := by
  obtain ⟨n, hlit, hn, hrule⟩ := h
  exact ⟨BitVec.ofNat 32 n, ⟨[], arg, n, .inl rfl, rfl, hlit, hn, rfl⟩, hrule⟩

/-- What is taken for a number without decoration is a literal. -/
theorem valid_of_denotes {arg : List Byte} {rule : Rule} {v : Word} (h : Denotes arg v)
    (hrule : rule.holds v) (hbare : ¬ Decorated arg) : Valid arg rule := by
  obtain ⟨pre, lit, n, hpre, rfl, hlit, hn, rfl⟩ := h
  rcases hpre with rfl | hpre
  · exact ⟨n, hlit, hn, hrule⟩
  · exact absurd ⟨pre, lit, n, hpre, rfl, hlit, hn⟩ hbare

theorem valid_not_decorated {arg : List Byte} {rule : Rule} (h : Valid arg rule) :
    ¬ Decorated arg := by
  intro hdec
  obtain ⟨n, hlit, -⟩ := h
  exact not_literal_of_decorated hdec n hlit

/-- The arguments are valid when they are taken, no more than needed, and
    bare. -/
theorem forall_valid_iff (rules : List Rule) (args : List (List Byte)) :
    List.Forall₂ Valid args rules ↔
      Taken rules args ∧ ¬ (rules.length < args.length ∨
        ∃ a ∈ args.take rules.length, Decorated a) := by
  induction rules generalizing args with
  | nil =>
    cases args with
    | nil => simp [Taken]
    | cons a args => simp [Taken]
  | cons rule rules ih =>
    cases args with
    | nil => simp [Taken]
    | cons a args =>
      rw [List.forall₂_cons, ih args]
      simp only [Taken, List.length_cons, List.take_succ_cons, List.mem_cons, exists_eq_or_imp,
        Nat.add_lt_add_iff_right, not_or]
      constructor
      · intro h
        obtain ⟨ha, htaken, hcount, hbare⟩ := h
        exact ⟨⟨valid_taken ha, htaken⟩, hcount, valid_not_decorated ha, hbare⟩
      · intro h
        obtain ⟨⟨ha, htaken⟩, hcount, hbare, hrest⟩ := h
        obtain ⟨v, hden, hrule⟩ := ha
        exact ⟨valid_of_denotes hden hrule hbare, htaken, hcount, hrest⟩

/-! ### Replies -/

section run
variable {H : Type} (b : Board H) (s : State H) (line : List Byte)

/-- What is printed in a stretch of the trace. -/
def prints (trace : List Event) : List (List Byte) :=
  trace.filterMap fun e => match e with
    | .print text => some text
    | _ => none

/-- What the firmware prints for a line. -/
def replies : Option (List (List Byte)) :=
  (main_loop b 2 (line ++ ascii "\n") s).map fun s' =>
    prints (s'.world.trace.drop s.world.trace.length)

/-- The one reply is OK or OK with a value. -/
def AnsweredOk : Prop := ∃ value, replies b s line = some [ok_reply value]

def AnsweredErr : Prop := ∃ text, replies b s line = some [text] ∧ ascii "ERR" <+: text

theorem prints_accesses {accesses : List Event} (h : ∀ e ∈ accesses, e.IsAccess)
    (text : List Byte) : prints (accesses ++ [.print text]) = [text] := by
  unfold prints
  have hnil : accesses.filterMap (fun e => match e with
      | .print text => some text
      | _ => none) = [] := by
    apply List.filterMap_eq_nil_iff.mpr
    intro e he
    have hacc := h e he
    cases e with
    | print text => exact hacc.elim
    | in32 addr value => rfl
    | out32 addr data => rfl
    | dcache_flush addr len => rfl
  rw [List.filterMap_append, hnil]
  rfl

/-- The reply of each outcome. -/
def Outcome.replies (w : World H) : Outcome → List (List Byte)
  | .silent => []
  | .reject reason => [reason]
  | .execute r => [ok_reply (r.value b w.hardware)]

theorem replies_eq {line : List Byte} (hline : ∀ d ∈ line, is_eol d = false)
    (hlen : line.length ≤ 159) :
    replies b s line = some ((outcome (c_text line)).replies b s.world) := by
  obtain ⟨s', hrun, hworld⟩ := main_loop_one_line b hline s 0
  rw [c_outcome_of_short hlen] at hworld
  unfold replies
  rw [hrun, Option.map_some, hworld]
  congr 1
  cases outcome (c_text line) with
  | silent =>
    show prints (s.world.trace.drop s.world.trace.length) = []
    rw [List.drop_length]
    rfl
  | reject reason =>
    show prints ((s.world.trace ++ [Event.print reason]).drop s.world.trace.length) = [reason]
    rw [List.drop_left]
    rfl
  | execute r =>
    show prints ((s.world.trace ++ r.accesses b s.world.hardware ++ [Event.print _]).drop
      s.world.trace.length) = [_]
    rw [List.append_assoc, List.drop_left]
    exact prints_accesses (r.accesses_isAccess b s.world.hardware) _

/-- The rejections of a line that fits the buffer are errors. -/
theorem reject_mem_errors {text reason : List Byte} (h : outcome text = .reject reason) :
    reason ∈ errors := by
  by_cases htoks : tokens is_delim text = []
  · unfold outcome at h
    rw [htoks] at h
    by_cases hlong : UART_LINE_MAX ≤ text.length
    · rw [if_pos hlong] at h
      obtain rfl := Outcome.reject.inj h
      decide
    · rw [if_neg hlong] at h
      exact Outcome.noConfusion h
  · have hans := outcome_answers htoks
    rw [h] at hans
    exact hans

theorem answeredOk_iff {line : List Byte} (hline : ∀ d ∈ line, is_eol d = false)
    (hlen : line.length ≤ 159) :
    AnsweredOk b s line ↔ Executed (tokens is_delim (c_text line)) := by
  have hshort : (c_text line).length ≤ 159 :=
    Nat.le_trans (List.takeWhile_prefix _).length_le hlen
  rw [← outcome_executes_iff hshort]
  unfold AnsweredOk
  rw [replies_eq b s hline hlen]
  constructor
  · intro h
    obtain ⟨value, hvalue⟩ := h
    cases hout : outcome (c_text line) with
    | silent =>
      rw [hout] at hvalue
      exact absurd hvalue (by simp [Outcome.replies])
    | reject reason =>
      -- an error reply is not an OK reply
      rw [hout] at hvalue
      have hreason : reason = ok_reply value := by simpa [Outcome.replies] using hvalue
      have herr := (errors_one_line reason (reject_mem_errors hout)).1
      rw [hreason] at herr
      have hword : ascii "ERR" <+: ascii "ERR " := by decide
      exact absurd (hword.trans herr) (not_err_of_ok (ok_reply_one_line value).1)
    | execute r => exact ⟨r, rfl⟩
  · intro h
    obtain ⟨r, hr⟩ := h
    exact ⟨r.value b s.world.hardware, by rw [hr]; rfl⟩

/-- A line with a word before its first NUL is answered with an error unless
    it is carried out. -/
theorem answeredErr_of_not_executed {line : List Byte} (hline : ∀ d ∈ line, is_eol d = false)
    (hlen : line.length ≤ 159) (hword : tokens is_delim (c_text line) ≠ [])
    (hnot : ¬ Executed (tokens is_delim (c_text line))) : AnsweredErr b s line := by
  have hshort : (c_text line).length ≤ 159 :=
    Nat.le_trans (List.takeWhile_prefix _).length_le hlen
  have hans := outcome_answers hword
  rw [← outcome_executes_iff hshort] at hnot
  unfold AnsweredErr
  rw [replies_eq b s hline hlen]
  cases hout : outcome (c_text line) with
  | silent =>
    rw [hout] at hans
    exact hans.elim
  | reject reason =>
    have herr := (errors_one_line reason (reject_mem_errors hout)).1
    have hpre : ascii "ERR" <+: ascii "ERR " := by decide
    exact ⟨reason, rfl, hpre.trans herr⟩
  | execute r => exact absurd ⟨r, hout⟩ hnot

end run

/-! ### The firmware against the protocol -/

theorem forms_names : ∀ f ∈ forms, f.1 ≠ [] ∧ 0#8 ∉ f.1 := by decide

theorem implemented_unique : ∀ f ∈ implemented, ∀ g ∈ implemented, f.1 = g.1 → f = g := by decide

theorem forms_of_implemented : ∀ f ∈ implemented, f ∈ forms ∧ f.1 ≠ ascii "RESET" := by decide

theorem forms_cases : ∀ f ∈ forms, f = (ascii "RESET", []) ∨ f = (ascii "RESET", [.value]) ∨
    f ∈ implemented := by decide

/-- `RESET` and `RESET <boot_addr>`. -/
def IsReset (toks : List (List Byte)) : Prop :=
  toks = [ascii "RESET"] ∨ ∃ a, toks = [ascii "RESET", a] ∧ Valid a .value

theorem documented_iff (toks : List (List Byte)) :
    Documented toks ↔ IsReset toks ∨
      ∃ f ∈ implemented, ∃ args, toks = f.1 :: args ∧ List.Forall₂ Valid args f.2 := by
  constructor
  · intro h
    obtain ⟨f, hf, args, rfl, hvalid⟩ := h
    rcases forms_cases f hf with rfl | rfl | himp
    · obtain rfl := List.forall₂_nil_right_iff.mp hvalid
      exact .inl (.inl rfl)
    · obtain ⟨a, rest, ha, hrest, rfl⟩ := List.forall₂_cons_right_iff.mp hvalid
      obtain rfl := List.forall₂_nil_right_iff.mp hrest
      exact .inl (.inr ⟨a, rfl, ha⟩)
    · exact .inr ⟨f, himp, args, rfl, hvalid⟩
  · intro h
    rcases h with (rfl | ⟨a, rfl, ha⟩) | ⟨f, hf, args, rfl, hvalid⟩
    · exact ⟨(ascii "RESET", []), by decide, [], rfl, .nil⟩
    · exact ⟨(ascii "RESET", [.value]), by decide, [a], rfl, .cons ha .nil⟩
    · exact ⟨f, (forms_of_implemented f hf).1, args, rfl, hvalid⟩

theorem not_reset_of_executed {toks : List (List Byte)} (h : Executed toks) : ¬ IsReset toks := by
  intro hreset
  obtain ⟨f, hf, args, rfl, -⟩ := h
  have hname := (forms_of_implemented f hf).2
  rcases hreset with hreset | ⟨a, hreset, -⟩
  · exact hname (List.cons.inj hreset).1
  · exact hname (List.cons.inj hreset).1

/-- A literal has no NUL in it. -/
theorem literal_no_nul {lit : List Byte} {n : Nat} (h : Literal lit n) : 0#8 ∉ lit := by
  have hdigit : ¬ Text.digit_value 0#8 < 16 := by decide
  intro hmem
  cases h with
  | decimal d ds hd hds =>
    rcases List.mem_cons.mp hmem with rfl | hmem
    · exact hdigit (Nat.lt_trans hd.2 (by decide))
    · exact hdigit (Nat.lt_trans (hds _ hmem) (by decide))
  | octal ds hds =>
    rcases List.mem_cons.mp hmem with hzero | hmem
    · exact absurd hzero (by decide)
    · exact hdigit (Nat.lt_trans (hds _ hmem) (by decide))
  | hex x ds hx _ hds =>
    rcases List.mem_cons.mp hmem with hzero | hmem
    · exact absurd hzero (by decide)
    · rcases List.mem_cons.mp hmem with rfl | hmem
      · exact absurd hx (by decide)
      · exact hdigit (hds _ hmem)

theorem valid_no_nul {args : List (List Byte)} {rules : List Rule}
    (h : List.Forall₂ Valid args rules) : ∀ a ∈ args, 0#8 ∉ a := by
  induction h with
  | nil => simp
  | cons ha _ ih =>
    obtain ⟨n, hlit, -⟩ := ha
    exact List.forall_mem_cons.mpr ⟨literal_no_nul hlit, ih⟩

theorem documented_no_nul {line : List Byte} (h : Documented (tokens is_delim line)) :
    0#8 ∉ line := by
  intro hnul
  obtain ⟨w, hw, hmem⟩ := Text.mem_tokens (show is_delim 0#8 = false by decide) hnul
  obtain ⟨f, hf, args, htoks, hvalid⟩ := h
  rw [htoks] at hw
  rcases List.mem_cons.mp hw with rfl | harg
  · exact (forms_names f hf).2 hmem
  · exact valid_no_nul hvalid w harg hmem

/-- A line that begins with a command has that command before its first
    NUL. -/
theorem c_text_command {line cmd : List Byte} {args : List (List Byte)} (hcmd : 0#8 ∉ cmd)
    (htoks : tokens is_delim line = cmd :: args) : tokens is_delim (c_text line) ≠ [] := by
  intro hnil
  have hblank := (Text.tokens_eq_nil_iff _).mp hnil
  rcases c_text_split line with hsame | ⟨rest, hrest⟩
  · rw [hsame, htoks] at hnil
    exact absurd hnil (by simp)
  · -- otherwise the first token begins with the NUL
    obtain ⟨w, l, -, hfirst⟩ :=
      Text.tokens_cons_of_word (show is_delim 0#8 = false by decide) rest
    rw [hrest, Text.tokens_append_separators hblank, hfirst] at htoks
    obtain rfl := (List.cons.inj htoks).1
    exact hcmd (by simp)

/-- The firmware accepts the line exactly when the protocol documents it, and
    answers a wrong number of arguments with an error. -/
def AcceptsExactly {H : Type} (b : Board H) (s : State H) (line : List Byte) : Prop :=
  (AnsweredOk b s line ↔ Documented (tokens is_delim line)) ∧
    (WrongCount (tokens is_delim line) → AnsweredErr b s line)

/-- A line that is carried out although it has more arguments than the command
    takes, or white space or a sign in front of a number, or a NUL. -/
def Sloppy (line : List Byte) : Prop :=
  ∃ f ∈ implemented, ∃ args, tokens is_delim (c_text line) = f.1 :: args ∧ Taken f.2 args ∧
    (f.2.length < args.length ∨ (∃ a ∈ args.take f.2.length, Decorated a) ∨ 0#8 ∈ line)

theorem executed_iff {line : List Byte} :
    Executed (tokens is_delim (c_text line)) ↔ Sloppy line ∨
      (∃ f ∈ implemented, ∃ args, tokens is_delim line = f.1 :: args ∧
        List.Forall₂ Valid args f.2) := by
  constructor
  · intro h
    obtain ⟨f, hf, args, htoks, htaken⟩ := h
    by_cases hsloppy : f.2.length < args.length ∨ (∃ a ∈ args.take f.2.length, Decorated a) ∨
        0#8 ∈ line
    · exact .inl ⟨f, hf, args, htoks, htaken, hsloppy⟩
    · rw [← or_assoc, not_or] at hsloppy
      rw [c_text_of_not_mem hsloppy.2] at htoks
      exact .inr ⟨f, hf, args, htoks, (forall_valid_iff f.2 args).mpr ⟨htaken, hsloppy.1⟩⟩
  · intro h
    rcases h with ⟨f, hf, args, htoks, htaken, -⟩ | ⟨f, hf, args, htoks, hvalid⟩
    · exact ⟨f, hf, args, htoks, htaken⟩
    · have hdoc : Documented (tokens is_delim line) :=
        ⟨f, (forms_of_implemented f hf).1, args, htoks, hvalid⟩
      rw [c_text_of_not_mem (documented_no_nul hdoc)]
      exact ⟨f, hf, args, htoks, ((forall_valid_iff f.2 args).mp hvalid).1⟩

theorem not_documented_of_sloppy {line : List Byte} (h : Sloppy line) :
    ¬ Documented (tokens is_delim line) := by
  intro hdoc
  have hnul := documented_no_nul hdoc
  obtain ⟨f, hf, args, htoks, htaken, hsloppy⟩ := h
  rw [c_text_of_not_mem hnul] at htoks
  rcases (documented_iff _).mp hdoc with hreset | ⟨g, hg, args', htoks', hvalid⟩
  · exact not_reset_of_executed ⟨f, hf, args, htoks, htaken⟩ hreset
  · rw [htoks] at htoks'
    obtain ⟨hname, rfl⟩ := List.cons.inj htoks'
    obtain rfl := implemented_unique f hf g hg hname
    have hclean := ((forall_valid_iff f.2 args).mp hvalid).2
    rw [← or_assoc] at hsloppy
    exact hsloppy.elim hclean hnul

theorem not_documented_of_wrongCount {toks : List (List Byte)} (h : WrongCount toks) :
    ¬ Documented toks := by
  intro hdoc
  obtain ⟨cmd, args, rfl, -, hcount⟩ := h
  obtain ⟨f, hf, args', htoks, hvalid⟩ := hdoc
  obtain ⟨hname, rfl⟩ := List.cons.inj htoks
  exact hcount f hf hname.symm hvalid.length_eq

/-- The firmware accepts exactly the documented lines, apart from the `RESET`
    forms and the sloppy lines. -/
theorem firmware_accepts_iff {H : Type} (b : Board H) (s : State H) {line : List Byte}
    (hline : ∀ d ∈ line, is_eol d = false) (hlen : line.length ≤ 159) :
    AcceptsExactly b s line ↔ ¬ IsReset (tokens is_delim line) ∧ ¬ Sloppy line := by
  have hok := answeredOk_iff b s hline hlen
  constructor
  · intro hexact
    refine ⟨?_, ?_⟩
    · intro hreset
      have hexec := hok.mp (hexact.1.mpr ((documented_iff _).mpr (.inl hreset)))
      have hnul := documented_no_nul ((documented_iff _).mpr (.inl hreset))
      rw [c_text_of_not_mem hnul] at hexec
      exact not_reset_of_executed hexec hreset
    · intro hsloppy
      have hdoc := hexact.1.mp (hok.mpr (executed_iff.mpr (.inl hsloppy)))
      exact not_documented_of_sloppy hsloppy hdoc
  · intro hclean
    obtain ⟨hreset, hsloppy⟩ := hclean
    have hiff : AnsweredOk b s line ↔ Documented (tokens is_delim line) := by
      rw [hok, executed_iff, documented_iff, or_iff_right hsloppy, or_iff_right hreset]
    refine ⟨hiff, ?_⟩
    intro hcount
    have hnot : ¬ Executed (tokens is_delim (c_text line)) := by
      rw [← hok, hiff]
      exact not_documented_of_wrongCount hcount
    obtain ⟨cmd, args, htoks, ⟨f, hf, rfl⟩, -⟩ := hcount
    exact answeredErr_of_not_executed b s hline hlen
      (c_text_command (forms_names f hf).2 htoks) hnot

/-- `GET_REG 3` is a documented line, taken as it is documented. -/
theorem firmware_accepts_iff_get_reg :
    ((∀ d ∈ ascii "GET_REG 3", is_eol d = false) ∧ (ascii "GET_REG 3").length ≤ 159) ∧
      AcceptsExactly sample_board power_on (ascii "GET_REG 3") := by
  have hline : ∀ d ∈ ascii "GET_REG 3", is_eol d = false := by decide
  have hlen : (ascii "GET_REG 3").length ≤ 159 := by decide
  have htoks : tokens is_delim (ascii "GET_REG 3") = [ascii "GET_REG", ascii "3"] := by
    decide +kernel
  have hvalid : Valid (ascii "3") .register :=
    ⟨3, .decimal 51#8 [] (by decide) (by simp), by decide, show (3#32).toNat ≤ 31 by decide⟩
  have hdoc : Documented (tokens is_delim (ascii "GET_REG 3")) := by
    rw [htoks]
    exact ⟨(ascii "GET_REG", [.register]), by decide, _, rfl, .cons hvalid .nil⟩
  refine ⟨⟨hline, hlen⟩, (firmware_accepts_iff sample_board power_on hline hlen).mpr ⟨?_, ?_⟩⟩
  · rw [htoks]
    rintro (h | ⟨a, h, -⟩)
    · exact absurd (List.cons.inj h).1 (by decide)
    · exact absurd (List.cons.inj h).1 (by decide)
  · intro hsloppy
    exact not_documented_of_sloppy hsloppy hdoc

/-- `RESET` is documented and not implemented. -/
theorem reset_unknown :
    ¬ ∀ line : List Byte, (∀ d ∈ line, is_eol d = false) → line.length ≤ 159 →
      AcceptsExactly sample_board power_on line := by
  intro h
  have hexact := h (ascii "RESET") (by decide) (by decide)
  have htoks : tokens is_delim (ascii "RESET") = [ascii "RESET"] := by decide +kernel
  have hdoc : Documented (tokens is_delim (ascii "RESET")) := by
    rw [htoks]
    exact ⟨(ascii "RESET", []), by decide, [], rfl, .nil⟩
  obtain ⟨value, hvalue⟩ := hexact.1.mpr hdoc
  have hreply : replies sample_board power_on (ascii "RESET") = some [UNKNOWN_CMD] := by
    decide +kernel
  rw [hreply] at hvalue
  have hunknown : UNKNOWN_CMD = ok_reply value := by simpa using hvalue
  have hok := (ok_reply_one_line value).1
  rw [← hunknown] at hok
  exact absurd hok (by decide)

end Firmware

end RiscvWorker
