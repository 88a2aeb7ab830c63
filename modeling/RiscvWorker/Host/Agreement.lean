import RiscvWorker.Host.CommandLines

/-! # Client and firmware agree

  A call of the client ends in one of three ways: it raises before anything
  is sent, the firmware rejects the line, or the firmware does exactly what
  the method asks for and the method returns what was read.
-/

namespace RiscvWorker

namespace Host

open Text (Byte ascii numeral zero_pad)
open PyText (strip split decode)
open Firmware

variable {H : Type}

/-! ### Replies -/

/-- A reply without its newline. -/
def ok_line : Option Word → List Byte
  | none => ascii "OK"
  | some value => ascii "OK 0x" ++ zero_pad 8 (numeral 16 value.toNat)

theorem ok_reply_eq (value : Option Word) : ok_reply value = ok_line value ++ ascii "\n" := by
  cases value with
  | none => rfl
  | some value => rfl

theorem hex_word_ne_nil (value : Word) : zero_pad 8 (numeral 16 value.toNat) ≠ [] :=
  Text.zero_pad_ne_nil (by decide) _

theorem ok_line_ascii (value : Option Word) : ∀ c ∈ ok_line value, c.toNat < 128 := by
  cases value with
  | none => decide
  | some value =>
    refine List.forall_mem_append.mpr ⟨by decide, ?_⟩
    intro c hc
    have hdigit := hex_word_digits value c hc
    exact (PyText.isspace_of_digit (by omega)).2

theorem strip_ok_reply (value : Option Word) : strip (decode (ok_reply value)) = ok_line value := by
  have hascii : ∀ c ∈ ok_reply value, c.toNat < 128 := by
    rw [ok_reply_eq]
    exact List.forall_mem_append.mpr ⟨ok_line_ascii value, by decide⟩
  rw [PyText.decode_ascii hascii, ok_reply_eq]
  cases value with
  | none => decide
  | some value =>
    have hne : ok_line (some value) ≠ [] := by simp [ok_line, ascii]
    refine PyText.strip_append hne ?_ ?_ (by decide)
    · have hhead : (ok_line (some value)).head hne = 79#8 := rfl
      rw [hhead]
      decide
    · have hlast : (ok_line (some value)).getLast hne =
          (zero_pad 8 (numeral 16 value.toNat)).getLast (hex_word_ne_nil value) :=
        List.getLast_append_of_right_ne_nil _ _ _
      rw [hlast]
      have hdigit := hex_word_digits value _ (List.getLast_mem (hex_word_ne_nil value))
      exact (PyText.isspace_of_digit (by omega)).1

/-- An OK reply is returned by `send` without its newline. -/
theorem examine_ok_reply (value : Option Word) :
    examine (ok_reply value) = some (.ok (ok_line value)) := by
  have hraw : ok_reply value ≠ [] := by
    rw [ok_reply_eq]
    simp [ascii]
  have hok : ascii "OK" <+: ok_line value := by
    cases value with
    | none => exact List.prefix_rfl
    | some value =>
      have hword : ascii "OK" <+: ascii "OK 0x" := by decide
      exact hword.trans (List.prefix_append _ _)
  have hline : ok_line value ≠ [] := by
    intro h
    rw [h] at hok
    exact absurd hok (by decide)
  unfold examine
  rw [if_neg hraw]
  simp only [strip_ok_reply, hline, hok, if_true, if_false]

/-- Every error reply raises. -/
theorem examine_error : ∀ text ∈ errors, examine text = some (.error .RuntimeError) := by
  decide

theorem parse_ack_ok : parse_ack (ok_line none) = .ok none := rfl

/-- The value of a reply is the word that was printed. -/
theorem parse_ok_u32_ok (value : Word) :
    parse_ok_u32 (ok_line (some value)) = .ok (some value) := by
  have hsplit : split (ok_line (some value)) =
      [ascii "OK", ascii "0x" ++ zero_pad 8 (numeral 16 value.toNat)] := by
    have happ : ok_line (some value) =
        ascii "OK" ++ 32#8 :: (ascii "0x" ++ zero_pad 8 (numeral 16 value.toNat)) := rfl
    have hword : ∀ c ∈ ascii "0x" ++ zero_pad 8 (numeral 16 value.toNat),
        PyText.isspace c = false := by
      refine List.forall_mem_append.mpr ⟨by decide, ?_⟩
      intro c hc
      have hdigit := hex_word_digits value c hc
      exact (PyText.isspace_of_digit (by omega)).1
    unfold split
    rw [happ, Text.tokens_word (by decide) (by decide) (by decide),
      Text.tokens_eq_singleton (by simp [ascii]) hword]
  have hint := PyText.int_base0_hex (hex_word_ne_nil value) (hex_word_digits value)
  rw [Text.numeral_value_zero_pad, Text.numeral_value_numeral (by decide) (by decide)] at hint
  have hcast : BitVec.ofInt 32 (value.toNat : Int) = value := by
    rw [BitVec.ofInt_natCast, BitVec.ofNat_toNat, BitVec.setWidth_eq]
  unfold parse_ok_u32
  rw [hsplit]
  simp only [hint, hcast, ne_eq, not_true_eq_false, if_false]

/-! ### Sending a line -/

theorem printed_reply {accesses : List Event} (h : ∀ e ∈ accesses, e.IsAccess)
    (reply : List Byte) : printed (accesses ++ [.print reply]) = reply := by
  have hnone : printed accesses = [] := by
    apply List.flatMap_eq_nil_iff.mpr
    intro e he
    have hacc := h e he
    cases e with
    | in32 addr value => rfl
    | out32 addr data => rfl
    | dcache_flush addr len => rfl
    | print text => exact hacc.elim
  unfold printed at hnone ⊢
  rw [List.flatMap_append, hnone]
  simp

/-- A line of the buffer is read as a whole. -/
theorem readline_one_line {text : List Byte} (h : OneLine text) (s : State H) :
    Serial.readline ⟨s, text⟩ = (text, ⟨s, []⟩) := by
  obtain ⟨body, rfl, hbody⟩ := h.eq_append
  have hall : ∀ c ∈ body, (decide (c ≠ 10#8)) = true := by
    intro c hc
    exact decide_eq_true (fun h0 => hbody (h0 ▸ hc))
  have htake : (body ++ [10#8]).takeWhile (· ≠ 10#8) = body := by
    rw [List.takeWhile_append_of_pos hall, List.takeWhile_cons_of_neg (by simp), List.append_nil]
  unfold Serial.readline
  simp only [htake, List.drop_left, List.take_succ_cons, List.take_zero, List.drop_length]

section send
variable (b : Board H) {line : List Byte} (hline : ∀ d ∈ line, is_eol d = false)
  (hnul : 0#8 ∉ line) (s : State H)
include hline hnul

/-- What comes back is what the firmware prints for the line. -/
theorem write_line : ∃ s', Serial.write b (line ++ ascii "\n") ⟨s, []⟩ =
      some ⟨s', printed (s'.world.trace.drop s.world.trace.length)⟩ ∧
    s'.world = (outcome line).perform b s.world := by
  obtain ⟨s', hmain, hworld⟩ := main_loop_one_line b hline s line.length
  rw [c_outcome_of_not_mem hnul] at hworld
  refine ⟨s', ?_, hworld⟩
  have hfuel : (line ++ ascii "\n").length + 1 = line.length + 2 := by
    rw [List.length_append]
    rfl
  unfold Serial.write
  simp only [hfuel, hmain, Option.bind_eq_bind, Option.bind_some, List.nil_append]

theorem send_one_reply {accesses : List Event} {reply : List Byte}
    {response : Except Raised (List Byte)}
    (htrace : ((outcome line).perform b s.world).trace =
      s.world.trace ++ accesses ++ [.print reply])
    (haccess : ∀ e ∈ accesses, e.IsAccess) (hone : OneLine reply)
    (hexamine : examine reply = some response) :
    ∃ s', send b line ⟨s, []⟩ = some (response, ⟨s', []⟩) ∧
      s'.world = (outcome line).perform b s.world := by
  obtain ⟨s', hwrite, hworld⟩ := write_line b hline hnul s
  refine ⟨s', ?_, hworld⟩
  rw [hworld, htrace, List.append_assoc, List.drop_left, printed_reply haccess] at hwrite
  unfold send
  rw [hwrite, Option.bind_eq_bind, Option.bind_some]
  simp only [send_loop, readline_one_line hone, hexamine]

theorem send_execute {r : Request} (hout : outcome line = .execute r) :
    ∃ s', send b line ⟨s, []⟩ = some (.ok (ok_line (r.value b s.world.hardware)), ⟨s', []⟩) ∧
      s'.world = r.perform b s.world := by
  have htrace : ((outcome line).perform b s.world).trace =
      s.world.trace ++ r.accesses b s.world.hardware ++
        [.print (ok_reply (r.value b s.world.hardware))] := by
    rw [hout]
    rfl
  have hsend := send_one_reply b hline hnul s htrace (r.accesses_isAccess b _)
    (ok_reply_one_line _).2 (examine_ok_reply (r.value b s.world.hardware))
  rwa [hout] at hsend

theorem send_reject {reason : List Byte} (hreason : reason ∈ errors)
    (hout : outcome line = .reject reason) :
    ∃ s', send b line ⟨s, []⟩ = some (.error .RuntimeError, ⟨s', []⟩) ∧
      s'.world = xil_printf reason s.world := by
  have htrace : ((outcome line).perform b s.world).trace =
      s.world.trace ++ [] ++ [.print reason] := by
    rw [hout, List.append_nil]
    rfl
  have hsend := send_one_reply b hline hnul s htrace (by simp) (errors_one_line reason hreason).2
    (examine_error reason hreason)
  rwa [hout] at hsend

end send

/-! ### Calls -/

/-- What a method parses out of the reply to its request. -/
theorem parse_value (b : Board H) (h : H) {m : Method} {r : Request} (hasks : m.Asks r) :
    m.parse (ok_line (r.value b h)) = .ok (r.value b h) := by
  cases m <;> cases r <;> first
    | exact hasks.elim
    | exact parse_ack_ok
    | exact parse_ok_u32_ok 1#32
    | exact parse_ok_u32_ok _

section calls
variable (b : Board H) (m : Method) (s : State H)

/-- The method raises before anything is sent. -/
def Refused (result : Option (Except Raised (Option Word) × Serial H)) : Prop :=
  result = some (.error .ValueError, ⟨s, []⟩)

/-- The method raises for an error reply; there was no access. -/
def Rejected (result : Option (Except Raised (Option Word) × Serial H)) : Prop :=
  ∃ s' reason, result = some (.error .RuntimeError, ⟨s', []⟩) ∧ ascii "ERR" <+: reason ∧
    s'.world = xil_printf reason s.world

/-- The firmware performs what the method asks for, and the method returns
    what was read. -/
def Served (result : Option (Except Raised (Option Word) × Serial H)) : Prop :=
  ∃ s' r, m.Asks r ∧ s'.world = r.perform b s.world ∧
    result = some (.ok (r.value b s.world.hardware), ⟨s', []⟩)

variable {m} in
theorem served_of_execute {r : Request} (hcheck : m.check = .ok ()) (hasks : m.Asks r)
    (hout : outcome (words m.cmd m.args) = .execute r) : Served b m s (m.run b ⟨s, []⟩) := by
  obtain ⟨heol, hnul⟩ := words_plain (isWord_words m)
  obtain ⟨s', hsend, hworld⟩ := send_execute b heol hnul s hout
  refine ⟨s', r, hasks, hworld, ?_⟩
  rw [run_eq, hcheck, checked_ok]
  simp only [send_and_parse, hsend, Option.bind_eq_bind, Option.bind_some, Except.bind,
    parse_value b _ hasks]

variable {m} in
theorem rejected_of_reject {reason : List Byte} (hcheck : m.check = .ok ())
    (hreason : reason ∈ errors) (hout : outcome (words m.cmd m.args) = .reject reason) :
    Rejected s (m.run b ⟨s, []⟩) := by
  obtain ⟨heol, hnul⟩ := words_plain (isWord_words m)
  obtain ⟨s', hsend, hworld⟩ := send_reject b heol hnul s hreason hout
  have herr : ascii "ERR" <+: reason := by
    have hword : ascii "ERR" <+: ascii "ERR " := by decide
    exact hword.trans (errors_one_line reason hreason).1
  refine ⟨s', reason, ?_, herr, hworld⟩
  rw [run_eq, hcheck, checked_ok]
  simp only [send_and_parse, hsend, Option.bind_eq_bind, Option.bind_some, Except.bind]

/-- Client and firmware agree on every method with any integers: the call is
    refused by the client, rejected by the firmware, or served as it was
    meant. It is served whenever the integers are in range. -/
theorem call_agrees :
    (Refused s (m.run b ⟨s, []⟩) ∨ Rejected s (m.run b ⟨s, []⟩) ∨
      Served b m s (m.run b ⟨s, []⟩)) ∧
    (m.InRange → Served b m s (m.run b ⟨s, []⟩)) := by
  constructor
  · rcases hcheck : m.check with e | ⟨⟨⟩⟩
    · refine .inl ?_
      unfold Refused
      rw [run_eq, hcheck, checked_error, check_error hcheck]
    · right
      rcases outcome_words (isWord_words m) with hlong | hout
      · exact .inl (rejected_of_reject b s hcheck (by decide) hlong)
      · rcases recovered m hcheck with ⟨-, r, hr, hasks⟩ | ⟨-, reason, hreason, hr⟩
        · exact .inr (served_of_execute b s hcheck hasks (hout.trans hr))
        · exact .inl (rejected_of_reject b s hcheck hreason (hout.trans hr))
  · intro hin
    have hcheck := check_of_inRange hin
    rcases recovered m hcheck with ⟨-, r, hr, hasks⟩ | ⟨hno, -⟩
    · refine served_of_execute b s hcheck hasks ?_
      unfold outcome
      rw [if_neg (Nat.not_le.mpr (words_fit hin)), tokens_words (isWord_words m)]
      exact hr
    · exact absurd hin hno

end calls

/-- Register 7 is set to -1 modulo 2^32. -/
theorem call_agrees_set_reg :
    Served sample_board (.set_reg 7 (-1)) power_on
      ((Method.set_reg 7 (-1)).run sample_board ⟨power_on, []⟩) :=
  (call_agrees sample_board (.set_reg 7 (-1)) power_on).2 ⟨by decide, by decide⟩

end Host

end RiscvWorker
