import RiscvWorker.Library.Lts
import RiscvWorker.Host.Agreement

/-! # The serial link

  Client and firmware with delays between them. Bytes get through in order
  and none is lost, but it takes any time: a command may wait for the
  firmware, its reply may arrive in pieces, and `readline` may give up before
  the newline. A call that raised `TimeoutError` leaves its reply to come.

  Replies carry no number, so `send` takes the first line that it finds. What
  it returns belongs to its own command as long as calls are made with care.
-/

namespace RiscvWorker

namespace Host

open Text (Byte ascii numeral zero_pad tokens)
open PyText (strip decode)
open Firmware

variable {H : Type}

/-! ### State and steps -/

/-- A line that gets a reply. -/
def IsCommand (line : List Byte) : Prop :=
  (∀ d ∈ line, is_eol d = false) ∧ 0#8 ∉ line ∧ tokens is_delim line ≠ []

theorem IsCommand.no_newline {line : List Byte} (h : IsCommand line) : 10#8 ∉ line := by
  intro hmem
  exact absurd (h.1 _ hmem) (by decide)

/-- Every method sends a command. -/
theorem isCommand_words (m : Method) : IsCommand (words m.cmd m.args) := by
  obtain ⟨heol, hnul⟩ := words_plain (isWord_words m)
  refine ⟨heol, hnul, ?_⟩
  rw [tokens_words (isWord_words m)]
  exact List.cons_ne_nil _ _

/-- One client, one firmware, and what is under way between them. Calls are
    numbered from 0; the fields from `taken` on are kept for the record. -/
structure Link (H : Type) where
  /-- The call whose `send` waits for a reply. -/
  client : Option Nat
  to_firmware : List Byte
  firmware : State H
  to_client : List Byte
  in_buffer : List Byte
  /-- What `readline` has returned. -/
  taken : List Byte
  /-- What was sent. -/
  calls : List (List Byte)
  /-- The lines that the firmware has read, each with what it printed. -/
  answers : List (List Byte × List Byte)
  /-- How calls ended. -/
  results : List (Nat × Except Raised (List Byte))
  /-- Where the line that ended a call began in all that was printed. -/
  origins : List (Nat × Nat)

inductive LinkLabel where
  /-- `send` writes its command. -/
  | call (command : List Byte)
  /-- The firmware reads a line and prints its reply. -/
  | answer (line later : List Byte)
  /-- Bytes arrive at the client. -/
  | arrive (news later : List Byte)
  /-- `readline` returns a line. -/
  | readline (line later : List Byte)
  /-- `readline` returns what has arrived. -/
  | timeout

def Link.called (s : Link H) (command : List Byte) : Link H :=
  { s with
    client := some s.calls.length
    to_firmware := s.to_firmware ++ (command ++ ascii "\n")
    calls := s.calls ++ [command] }

def Link.answered (s : Link H) (firmware : State H) (line reply later : List Byte) : Link H :=
  { s with
    to_firmware := later
    firmware
    to_client := s.to_client ++ reply
    answers := s.answers ++ [(line, reply)] }

def Link.arrived (s : Link H) (news later : List Byte) : Link H :=
  { s with to_client := later, in_buffer := s.in_buffer ++ news }

/-- `send` has read `raw`. It returns, raises, or reads on. -/
def Link.received (s : Link H) (n : Nat) (raw later : List Byte) : Link H :=
  match examine raw with
  | none => { s with in_buffer := later, taken := s.taken ++ raw }
  | some response =>
    { s with
      client := none
      in_buffer := later
      taken := s.taken ++ raw
      results := s.results ++ [(n, response)]
      origins := s.origins ++ [(n, s.taken.length)] }

/-- Nothing has been sent yet. The firmware may be in any state in which it
    waits for a line. -/
def Link.start (firmware : State H) : Link H :=
  { client := none, to_firmware := [], firmware, to_client := [], in_buffer := [], taken := []
    calls := [], answers := [], results := [], origins := [] }

/-- The client makes one call at a time. -/
def link (b : Board H) : Lts.System (Link H) LinkLabel where
  init := fun s => ∃ firmware, s = Link.start firmware
  step := fun s lbl s' =>
    match lbl with
    | .call command =>
        s.client = none ∧
        IsCommand command ∧
        s' = s.called command
    | .answer line later =>
        s.to_firmware = line ++ ascii "\n" ++ later ∧
        10#8 ∉ line ∧
        ∃ firmware reply,
          Serial.write b (line ++ ascii "\n") ⟨s.firmware, []⟩ = some ⟨firmware, reply⟩ ∧
          s' = s.answered firmware line reply later
    | .arrive news later =>
        s.to_client = news ++ later ∧
        s' = s.arrived news later
    | .readline line later =>
        s.in_buffer = line ++ ascii "\n" ++ later ∧
        10#8 ∉ line ∧
        ∃ n, s.client = some n ∧ s' = s.received n (line ++ ascii "\n") later
    | .timeout =>
        10#8 ∉ s.in_buffer ∧
        ∃ n, s.client = some n ∧ s' = s.received n s.in_buffer []

/-- Nothing is under way. -/
def Link.Idle (s : Link H) : Prop :=
  s.client = none ∧ s.to_firmware = [] ∧ s.to_client = [] ∧ s.in_buffer = []

/-- What the firmware has printed for the first `n` commands. -/
def Link.printed (s : Link H) (n : Nat) : List Byte := (s.answers.take n).flatMap (·.2)

/-- Whatever `send` has returned is the complete reply to its command, without
    the white space around it, and was read where this reply begins. -/
def Link.Whole (s : Link H) : Prop :=
  ∀ n line, (n, .ok line) ∈ s.results → ∃ command reply,
    s.calls[n]? = some command ∧ s.answers[n]? = some (command, reply) ∧
    OneLine reply ∧ line = strip (decode reply) ∧ (n, (s.printed n).length) ∈ s.origins

/-- With care: a call is made when nothing of an earlier one is outstanding,
    the newline apart, and a timeout does not cut an OK reply short. -/
def Link.Careful (s : Link H) : LinkLabel → Prop
  | .call _ => s.to_firmware = [] ∧ ∀ c ∈ s.in_buffer ++ s.to_client, c = 10#8
  | .timeout => ascii "OK" <+: s.in_buffer → s.to_client = ascii "\n"
  | _ => True

/-! ### Replies -/

def IsReply (reply : List Byte) : Prop := reply ∈ errors ∨ ∃ value, reply = ok_reply value

theorem IsReply.one_line {reply : List Byte} (h : IsReply reply) : OneLine reply := by
  rcases h with herr | ⟨value, rfl⟩
  · exact (errors_one_line reply herr).2
  · exact (ok_reply_one_line value).2

theorem IsReply.ascii {reply : List Byte} (h : IsReply reply) : ∀ c ∈ reply, c.toNat < 128 := by
  rcases h with herr | ⟨value, rfl⟩
  · have hall : errors.all (fun text => text.all fun c => decide (c.toNat < 128)) = true := rfl
    have htext := List.all_eq_true.mp hall reply herr
    intro c hc
    exact of_decide_eq_true (List.all_eq_true.mp htext c hc)
  · rw [ok_reply_eq]
    exact List.forall_mem_append.mpr ⟨ok_line_ascii value, by decide⟩

/-- It begins with `OK` or `ERR`. -/
theorem IsReply.head {reply : List Byte} (h : IsReply reply) :
    ∃ c rest, reply = c :: rest ∧ PyText.isspace c = false := by
  rcases h with herr | ⟨value, rfl⟩
  · obtain ⟨rest, hrest⟩ := (errors_one_line reply herr).1
    exact ⟨69#8, _, hrest.symm, by decide⟩
  · obtain ⟨rest, hrest⟩ := (ok_reply_one_line value).1
    exact ⟨79#8, _, hrest.symm, by decide⟩

theorem examine_eq_ok {raw line : List Byte} (h : examine raw = some (.ok line)) :
    line = strip (decode raw) ∧ Text.ascii "OK" <+: line := by
  unfold examine at h
  dsimp only at h
  split_ifs at h with hraw hline hok herr
  all_goals simp only [Option.some.injEq, Except.ok.injEq, reduceCtorEq] at h
  rw [← h]
  exact ⟨rfl, hok⟩

theorem examine_of_word {raw : List Byte} (hraw : raw ≠ []) (h : strip (decode raw) ≠ []) :
    ∃ response, examine raw = some response := by
  unfold examine
  rw [if_neg hraw]
  simp only [h, if_false]
  split_ifs
  · exact ⟨_, rfl⟩
  · exact ⟨_, rfl⟩
  · exact ⟨_, rfl⟩

section part
variable {reply part rest : List Byte} (h : IsReply reply) (hsplit : reply = part ++ rest)
  (hne : part ≠ [])
include h hsplit hne

/-- A part of a reply begins as the reply does. -/
theorem IsReply.part_head :
    ∃ c tail, part = c :: tail ∧ decode part = part ∧ PyText.isspace c = false := by
  obtain ⟨c, tail, hhead, hc⟩ := h.head
  obtain ⟨c', tail', rfl⟩ := List.exists_cons_of_ne_nil hne
  have hcc : c = c' := by
    rw [hhead, List.cons_append] at hsplit
    exact (List.cons.inj hsplit).1
  subst hcc
  refine ⟨c, tail', rfl, PyText.decode_ascii ?_, hc⟩
  intro d hd
  apply h.ascii
  rw [hsplit]
  exact List.mem_append_left _ hd

/-- `send` does not wait for the rest. -/
theorem IsReply.examine_part : ∃ response, examine part = some response := by
  obtain ⟨c, tail, rfl, hdecode, hc⟩ := h.part_head hsplit hne
  apply examine_of_word hne
  rw [hdecode]
  exact PyText.strip_ne_nil hc tail

theorem IsReply.part_ok {line : List Byte} (hexamine : examine part = some (.ok line)) :
    Text.ascii "OK" <+: part := by
  obtain ⟨c, tail, rfl, hdecode, hc⟩ := h.part_head hsplit hne
  obtain ⟨hline, hok⟩ := examine_eq_ok hexamine
  rw [hline, hdecode] at hok
  exact hok.trans (PyText.strip_prefix hc tail)

/-- All but the newline is enough. -/
theorem IsReply.part_whole (hrest : rest = Text.ascii "\n") :
    strip (decode part) = strip (decode reply) := by
  obtain ⟨c, tail, rfl, hdecode, hc⟩ := h.part_head hsplit hne
  rw [hdecode, PyText.decode_ascii h.ascii, hsplit, hrest]
  exact (PyText.strip_newline hc tail).symm

end part

/-- The firmware answers every command with one reply. -/
theorem command_answered (b : Board H) {line : List Byte} (h : IsCommand line) (s : State H) :
    ∃ s' reply, Serial.write b (line ++ ascii "\n") ⟨s, []⟩ = some ⟨s', reply⟩ ∧ IsReply reply ∧
      s'.world = (outcome line).perform b s.world ∧
      ∀ r, outcome line = .execute r → reply = ok_reply (r.value b s.world.hardware) := by
  obtain ⟨heol, hnul, hword⟩ := h
  obtain ⟨s', hwrite, hworld⟩ := write_line b heol hnul s
  have hans := outcome_answers hword
  rcases hout : outcome line with - | reason | r
  · rw [hout] at hans
    exact hans.elim
  · rw [hout] at hans
    have hreply : printed (s'.world.trace.drop s.world.trace.length) = reason := by
      rw [hworld, hout]
      simp [Outcome.perform, xil_printf, printed]
    rw [hreply] at hwrite
    rw [hout] at hworld
    exact ⟨s', reason, hwrite, .inl hans, hworld, by simp⟩
  · have hreply : printed (s'.world.trace.drop s.world.trace.length) =
        ok_reply (r.value b s.world.hardware) := by
      rw [hworld, hout]
      simp only [Outcome.perform, Request.perform, List.append_assoc, List.drop_left]
      exact printed_reply (r.accesses_isAccess b _) _
    rw [hreply] at hwrite
    rw [hout] at hworld
    refine ⟨s', _, hwrite, .inr ⟨_, rfl⟩, hworld, ?_⟩
    intro r' hr
    cases hr
    rfl

/-! ### Nothing is lost -/

/-- In every session: commands and replies keep their order, and what was
    printed has been read or is under way. -/
structure Link.InOrder (s : Link H) : Prop where
  commands : ∀ c ∈ s.calls, IsCommand c
  sent : ∃ waiting, s.calls = s.answers.map (·.1) ++ waiting ∧
    s.to_firmware = waiting.flatMap (· ++ ascii "\n")
  replies : ∀ a ∈ s.answers, IsReply a.2
  lossless : s.taken ++ s.in_buffer ++ s.to_client = s.answers.flatMap (·.2)
  last : ∀ n, s.client = some n → s.calls.length = n + 1 ∧ ∀ o ∈ s.origins, o.1 < n
  ended : ∀ o ∈ s.origins, o.1 < s.calls.length ∧ o.2 ≤ s.taken.length

theorem Link.InOrder.start (firmware : State H) : (Link.start firmware).InOrder where
  commands c hc := absurd hc List.not_mem_nil
  sent := ⟨[], rfl, rfl⟩
  replies a ha := absurd ha List.not_mem_nil
  lossless := rfl
  last n hn := by cases hn
  ended o ho := absurd ho List.not_mem_nil

theorem Link.InOrder.length_le {s : Link H} (h : s.InOrder) :
    s.answers.length ≤ s.calls.length := by
  obtain ⟨waiting, hcalls, -⟩ := h.sent
  rw [hcalls, List.length_append, List.length_map]
  exact Nat.le_add_right _ _

/-- The first line of what begins with a line. -/
theorem first_line_append {line body later later' : List Byte} (hbody : 10#8 ∉ body)
    (hline : 10#8 ∉ line) (h : body ++ ascii "\n" ++ later' = line ++ ascii "\n" ++ later) :
    line = body ∧ later = later' := by
  induction body generalizing line with
  | nil =>
    cases line with
    | nil => exact ⟨rfl, (List.cons.inj h).2.symm⟩
    | cons c line =>
      have hc : 10#8 = c := (List.cons.inj h).1
      exact absurd (by simp [hc]) hline
  | cons c body ih =>
    obtain ⟨hc, hbody⟩ := not_or.mp (List.mem_cons.not.mp hbody)
    cases line with
    | nil => exact absurd (List.cons.inj h).1.symm hc
    | cons d line =>
      obtain ⟨-, hline⟩ := not_or.mp (List.mem_cons.not.mp hline)
      obtain ⟨hd, htail⟩ := List.cons.inj h
      obtain ⟨hsame, hlater⟩ := ih hbody hline htail
      exact ⟨by rw [hd, hsame], hlater⟩

section order
variable {s : Link H} (h : s.InOrder)
include h

theorem Link.InOrder.called {command : List Byte} (hcommand : IsCommand command) :
    (s.called command).InOrder where
  commands := List.forall_mem_append.mpr ⟨h.commands, List.forall_mem_singleton.mpr hcommand⟩
  sent := by
    obtain ⟨waiting, hcalls, hsent⟩ := h.sent
    refine ⟨waiting ++ [command], ?_, ?_⟩
    · simp [Link.called, hcalls]
    · simp [Link.called, hsent]
  replies := h.replies
  lossless := h.lossless
  last n hn := by
    obtain rfl : s.calls.length = n := Option.some.inj hn
    exact ⟨by simp [Link.called], fun o ho => (h.ended o ho).1⟩
  ended o ho := by
    obtain ⟨hcall, hread⟩ := h.ended o ho
    simp only [Link.called, List.length_append]
    exact ⟨Nat.lt_add_right _ hcall, hread⟩

theorem Link.InOrder.answered {b : Board H} {line later reply : List Byte} {firmware : State H}
    (hsent : s.to_firmware = line ++ ascii "\n" ++ later) (hline : 10#8 ∉ line)
    (hwrite : Serial.write b (line ++ ascii "\n") ⟨s.firmware, []⟩ = some ⟨firmware, reply⟩) :
    (s.answered firmware line reply later).InOrder ∧ IsReply reply := by
  obtain ⟨waiting, hcalls, hwaiting⟩ := h.sent
  rw [hsent] at hwaiting
  cases waiting with
  | nil => simp [ascii] at hwaiting
  | cons command waiting =>
    -- the line is the first command that waits
    have hcommand : IsCommand command := h.commands command (by simp [hcalls])
    obtain ⟨rfl, rfl⟩ := first_line_append hcommand.no_newline hline hwaiting.symm
    obtain ⟨firmware', reply', hwrite', hreply, -⟩ := command_answered b hcommand s.firmware
    have hsame := hwrite.symm.trans hwrite'
    simp only [Option.some.injEq, Serial.mk.injEq] at hsame
    obtain ⟨rfl, rfl⟩ := hsame
    refine ⟨⟨h.commands, ⟨waiting, ?_, rfl⟩, ?_, ?_, h.last, h.ended⟩, hreply⟩
    · simp [Link.answered, hcalls]
    · exact List.forall_mem_append.mpr ⟨h.replies, List.forall_mem_singleton.mpr hreply⟩
    · simp [Link.answered, ← h.lossless]

theorem Link.InOrder.arrived {news later : List Byte} (hnews : s.to_client = news ++ later) :
    (s.arrived news later).InOrder where
  commands := h.commands
  sent := h.sent
  replies := h.replies
  lossless := by simp [Link.arrived, ← h.lossless, hnews]
  last := h.last
  ended := h.ended

theorem Link.InOrder.received {n : Nat} {raw later : List Byte} (hclient : s.client = some n)
    (hbuffer : s.in_buffer = raw ++ later) : (s.received n raw later).InOrder := by
  have hlossless : s.taken ++ raw ++ later ++ s.to_client = s.answers.flatMap (·.2) := by
    rw [← h.lossless, hbuffer, List.append_assoc s.taken]
  have hended : ∀ o ∈ s.origins, o.1 < s.calls.length ∧ o.2 ≤ (s.taken ++ raw).length := by
    intro o ho
    obtain ⟨hcall, hread⟩ := h.ended o ho
    rw [List.length_append]
    exact ⟨hcall, Nat.le_add_right_of_le hread⟩
  unfold Link.received
  split
  · exact ⟨h.commands, h.sent, h.replies, hlossless, h.last, hended⟩
  · refine ⟨h.commands, h.sent, h.replies, hlossless, fun n hn => ?_, ?_⟩
    · cases hn
    · have hlast := (h.last n hclient).1
      refine List.forall_mem_append.mpr ⟨hended, List.forall_mem_singleton.mpr ⟨?_, ?_⟩⟩
      · show n < s.calls.length
        omega
      · show s.taken.length ≤ (s.taken ++ raw).length
        rw [List.length_append]
        exact Nat.le_add_right _ _

theorem Link.InOrder.step {b : Board H} {s' : Link H} {lbl : LinkLabel}
    (hstep : (link b).step s lbl s') : s'.InOrder := by
  cases lbl with
  | call command =>
    obtain ⟨-, hcommand, rfl⟩ := hstep
    exact h.called hcommand
  | answer line later =>
    obtain ⟨hsent, hline, firmware, reply, hwrite, rfl⟩ := hstep
    exact (h.answered hsent hline hwrite).1
  | arrive news later =>
    obtain ⟨hnews, rfl⟩ := hstep
    exact h.arrived hnews
  | readline line later =>
    obtain ⟨hbuffer, -, n, hclient, rfl⟩ := hstep
    exact h.received hclient hbuffer
  | timeout =>
    obtain ⟨-, n, hclient, rfl⟩ := hstep
    exact h.received hclient (List.append_nil _).symm

theorem Link.InOrder.ascii : ∀ c ∈ s.taken ++ s.in_buffer ++ s.to_client, c.toNat < 128 := by
  intro c hc
  rw [h.lossless] at hc
  obtain ⟨a, ha, hca⟩ := List.mem_flatMap.mp hc
  exact (h.replies a ha).ascii c hca

/-- The reply to the last call is the last that was printed. -/
theorem Link.InOrder.printed_last {n : Nat} {command reply : List Byte}
    (hclient : s.client = some n) (hanswer : s.answers[n]? = some (command, reply)) :
    s.taken ++ (s.in_buffer ++ s.to_client) = s.printed n ++ reply := by
  have hlast := (h.last n hclient).1
  have hle := h.length_le
  obtain ⟨hn, hget⟩ := List.getElem?_eq_some_iff.mp hanswer
  have hall : s.answers = s.answers.take n ++ [(command, reply)] := by
    rw [← hget, List.take_append_getElem hn, List.take_of_length_le (by omega)]
  rw [← List.append_assoc, h.lossless, hall, List.flatMap_append, List.flatMap_singleton]
  simp [Link.printed]

/-- It is read where it begins, when it comes next. -/
theorem Link.InOrder.taken_eq {n : Nat} {command reply : List Byte} (hclient : s.client = some n)
    (hanswer : s.answers[n]? = some (command, reply))
    (hpending : s.in_buffer ++ s.to_client = reply) : s.taken = s.printed n :=
  List.append_cancel_right (hpending ▸ h.printed_last hclient hanswer)

end order

/-! ### The invariant -/

/-- Where the client and the firmware are in a careful session. -/
inductive Link.Phase (s : Link H) : Prop where
  /-- No call waits, and all are answered. -/
  | rest (hclient : s.client = none) (hsent : s.to_firmware = [])
      (hall : s.answers.length = s.calls.length)
  /-- The last command is still to be answered. Its call may have ended. -/
  | asked (command : List Byte) (hcommand : IsCommand command)
      (hclient : ∀ n, s.client = some n → n = s.answers.length)
      (hsent : s.to_firmware = command ++ ascii "\n")
      (hall : s.answers.length + 1 = s.calls.length)
      (hcall : s.calls[s.answers.length]? = some command)
      (hquiet : ∀ c ∈ s.in_buffer ++ s.to_client, c = 10#8)
  /-- The reply to the call that waits is under way, behind newlines of
      earlier ones. -/
  | replied (n : Nat) (command blanks reply : List Byte)
      (hclient : s.client = some n) (hsent : s.to_firmware = [])
      (hall : s.answers.length = s.calls.length)
      (hcall : s.calls[n]? = some command) (hanswer : s.answers[n]? = some (command, reply))
      (hreply : IsReply reply) (hblanks : ∀ c ∈ blanks, c = 10#8)
      (hpending : s.in_buffer ++ s.to_client = blanks ++ reply)

theorem mem_newline {line later : List Byte} (h : 10#8 ∉ line)
    (hall : ∀ c ∈ line ++ ascii "\n" ++ later, c = 10#8) : line = [] := by
  cases line with
  | nil => rfl
  | cons c line =>
    have hc : c = 10#8 := hall c (by simp)
    exact absurd (by simp [hc]) h

/-- The first line of what ends with a newline. -/
theorem first_line {line body later : List Byte} (hbody : 10#8 ∉ body)
    (h : body ++ ascii "\n" = line ++ ascii "\n" ++ later) : line = body ∧ later = [] := by
  have hnl : ascii "\n" = [10#8] := rfl
  rw [hnl, List.append_assoc, List.singleton_append] at h
  obtain ⟨hline, -, hlater⟩ := (List.append_cons_inj_of_notMem hbody List.not_mem_nil).mp h
  exact ⟨hline.symm, hlater.symm⟩

/-! ### Reading -/

section received
variable {s : Link H} {n : Nat} {raw later : List Byte}

/-- Blank lines are passed over. -/
theorem Link.received_blank (h : examine raw = none) :
    s.received n raw later = { s with in_buffer := later, taken := s.taken ++ raw } := by
  unfold Link.received
  rw [h]

theorem Link.received_response {response : Except Raised (List Byte)}
    (h : examine raw = some response) :
    s.received n raw later =
      { s with
        client := none
        in_buffer := later
        taken := s.taken ++ raw
        results := s.results ++ [(n, response)]
        origins := s.origins ++ [(n, s.taken.length)] } := by
  unfold Link.received
  rw [h]

theorem Link.Whole.received (h : s.Whole)
    (hok : ∀ line, examine raw = some (.ok line) → ∃ command reply,
      s.calls[n]? = some command ∧ s.answers[n]? = some (command, reply) ∧
      OneLine reply ∧ line = strip (decode reply) ∧ s.taken = s.printed n) :
    (s.received n raw later).Whole := by
  cases hexamine : examine raw with
  | none =>
    rw [Link.received_blank hexamine]
    exact h
  | some response =>
    rw [Link.received_response hexamine]
    intro k line hmem
    rcases List.mem_append.mp hmem with hold | hnew
    · obtain ⟨command, reply, hcall, hanswer, hreply, hline, horigin⟩ := h k line hold
      exact ⟨command, reply, hcall, hanswer, hreply, hline, List.mem_append_left _ horigin⟩
    · rw [List.mem_singleton, Prod.mk.injEq] at hnew
      obtain ⟨rfl, rfl⟩ := hnew
      obtain ⟨command, reply, hcall, hanswer, hreply, hline, htaken⟩ := hok line hexamine
      refine ⟨command, reply, hcall, hanswer, hreply, hline, List.mem_append_right _ ?_⟩
      rw [htaken]
      exact List.mem_singleton_self _

end received

theorem getElem?_of_prefix {α : Type} {l l' : List α} (h : l <+: l') {n : Nat} {a : α}
    (ha : l[n]? = some a) : l'[n]? = some a := by
  obtain ⟨t, rfl⟩ := h
  obtain ⟨hn, -⟩ := List.getElem?_eq_some_iff.mp ha
  rw [List.getElem?_append_left hn, ha]

/-- What was printed stays printed. -/
theorem Link.printed_of_prefix {s s' : Link H} (h : s.answers <+: s'.answers) {n : Nat}
    (hn : n ≤ s.answers.length) : s'.printed n = s.printed n := by
  obtain ⟨t, ht⟩ := h
  unfold Link.printed
  rw [← ht, List.take_append_of_le_length hn]

/-- The record only grows. -/
theorem Link.Whole.grow {s s' : Link H} (h : s.Whole) (hcalls : s.calls <+: s'.calls)
    (hanswers : s.answers <+: s'.answers) (hresults : s'.results = s.results)
    (horigins : s'.origins = s.origins) : s'.Whole := by
  intro n line hmem
  rw [hresults] at hmem
  obtain ⟨command, reply, hcall, hanswer, hreply, hline, horigin⟩ := h n line hmem
  obtain ⟨hn, -⟩ := List.getElem?_eq_some_iff.mp hanswer
  refine ⟨command, reply, getElem?_of_prefix hcalls hcall, getElem?_of_prefix hanswers hanswer,
    hreply, hline, ?_⟩
  rw [horigins, Link.printed_of_prefix hanswers (Nat.le_of_lt hn)]
  exact horigin

/-! ### One step -/

section steps
variable {s : Link H}

theorem Link.Phase.call (h : s.Phase) {command : List Byte} (hcareful : s.Careful (.call command))
    (hidle : s.client = none) (hcommand : IsCommand command) :
    (s.called command).Phase := by
  obtain ⟨hsent, hquiet⟩ := hcareful
  have hall : s.answers.length = s.calls.length := by
    cases h with
    | rest _ _ hall => exact hall
    | asked command _ _ hsent' =>
      rw [hsent] at hsent'
      simp [ascii] at hsent'
    | replied n _ _ _ hclient =>
      rw [hidle] at hclient
      cases hclient
  refine .asked command hcommand ?_ ?_ ?_ ?_ hquiet
  · intro n hn
    exact (Option.some.inj hn).symm.trans hall.symm
  · simp [Link.called, hsent]
  · simp [Link.called, hall]
  · simp [Link.called, hall]

theorem Link.Phase.answer {b : Board H} (h : s.Phase) {line later reply : List Byte}
    {firmware : State H} (hsent : s.to_firmware = line ++ ascii "\n" ++ later)
    (hwrite : Serial.write b (line ++ ascii "\n") ⟨s.firmware, []⟩ = some ⟨firmware, reply⟩) :
    (s.answered firmware line reply later).Phase := by
  cases h with
  | rest _ hnone =>
    rw [hnone] at hsent
    simp [ascii] at hsent
  | replied n command blanks reply' _ hnone =>
    rw [hnone] at hsent
    simp [ascii] at hsent
  | asked command hcommand hclient hcommand' hall hcall hquiet =>
    rw [hcommand'] at hsent
    obtain ⟨rfl, rfl⟩ := first_line hcommand.no_newline hsent
    obtain ⟨firmware', reply', hwrite', hreply, -⟩ := command_answered b hcommand s.firmware
    have hsame := hwrite.symm.trans hwrite'
    simp only [Option.some.injEq, Serial.mk.injEq] at hsame
    obtain ⟨rfl, rfl⟩ := hsame
    have hall' : (s.answers ++ [(line, reply)]).length = s.calls.length := by simpa using hall
    rcases hwait : s.client with - | n
    · exact .rest hwait rfl hall'
    · have hn := hclient n hwait
      subst hn
      exact .replied s.answers.length line (s.in_buffer ++ s.to_client) reply hwait rfl hall'
        hcall List.getElem?_concat_length hreply hquiet (List.append_assoc _ _ _).symm

theorem Link.Phase.arrive (h : s.Phase) {news later : List Byte}
    (hnews : s.to_client = news ++ later) :
    (s.arrived news later).Phase := by
  -- what is pending stays the same
  have hpending : (s.arrived news later).in_buffer ++ (s.arrived news later).to_client =
      s.in_buffer ++ s.to_client := by
    rw [hnews]
    exact List.append_assoc _ _ _
  cases h with
  | rest hclient hsent hall => exact .rest hclient hsent hall
  | asked command hcommand hclient hsent hall hcall hquiet =>
    exact .asked command hcommand hclient hsent hall hcall (by rwa [hpending])
  | replied n command blanks reply hclient hsent hall hcall hanswer hreply hblanks hsplit =>
    exact .replied n command blanks reply hclient hsent hall hcall hanswer hreply hblanks
      (hpending.trans hsplit)

/-- The reply to the call, or enough of it. -/
theorem Link.Whole.replied {n : Nat} {command reply : List Byte}
    (hw : s.Whole) (hcall : s.calls[n]? = some command)
    (hanswer : s.answers[n]? = some (command, reply)) (hreply : IsReply reply)
    {raw later : List Byte} (htaken : s.taken = s.printed n)
    (hraw : ∀ line, examine raw = some (.ok line) → strip (decode raw) = strip (decode reply)) :
    (s.received n raw later).Whole := by
  apply hw.received
  intro line hexamine
  refine ⟨command, reply, hcall, hanswer, hreply.one_line, ?_, htaken⟩
  rw [← hraw line hexamine]
  exact (examine_eq_ok hexamine).1

theorem Link.Phase.readline (h : s.Phase) (ho : s.InOrder) (hw : s.Whole) {n : Nat}
    {line later : List Byte}
    (hclient : s.client = some n) (hbuffer : s.in_buffer = line ++ ascii "\n" ++ later)
    (hline : 10#8 ∉ line) :
    (s.received n (line ++ ascii "\n") later).Phase ∧
    (s.received n (line ++ ascii "\n") later).Whole := by
  have hblank : examine (ascii "\n") = none := by decide
  cases h with
  | rest hnone =>
    rw [hnone] at hclient
    cases hclient
  | asked command hcommand hn hsent hall hcall hquiet =>
    -- only newlines have arrived
    rw [hbuffer] at hquiet
    obtain ⟨hread, hrest⟩ := List.forall_mem_append.mp hquiet
    have hnil := mem_newline hline hread
    subst hnil
    rw [List.nil_append, Link.received_blank hblank]
    refine ⟨.asked command hcommand hn hsent hall hcall ?_, hw⟩
    exact List.forall_mem_append.mpr ⟨(List.forall_mem_append.mp hread).2, hrest⟩
  | replied n' command blanks reply hn hsent hall hcall hanswer hreply hblanks hpending =>
    rw [hn] at hclient
    cases hclient
    cases blanks with
    | nil =>
      -- the line is the reply
      have htaken := ho.taken_eq hn hanswer hpending
      rw [hbuffer] at hpending
      obtain ⟨body, hbody, hnl⟩ := hreply.one_line.eq_append
      rw [List.nil_append, hbody, List.append_assoc _ later] at hpending
      obtain ⟨rfl, hnone⟩ := first_line hnl hpending.symm
      have hreads : reply = line ++ ascii "\n" := hbody
      rw [← hreads]
      obtain ⟨response, hexamine⟩ := hreply.examine_part (List.append_nil reply).symm
        (by simp [hreads, ascii])
      refine ⟨?_, hw.replied hcall hanswer hreply htaken (fun _ _ => rfl)⟩
      rw [Link.received_response hexamine]
      exact .rest rfl hsent hall
    | cons c blanks =>
      -- it is a newline of an earlier one
      rw [hbuffer] at hpending
      obtain ⟨hc, hmore⟩ := List.forall_mem_cons.mp hblanks
      subst hc
      have hnil : line = [] := by
        cases line with
        | nil => rfl
        | cons d line =>
          have hd : d = 10#8 := (List.cons.inj hpending).1
          exact absurd (by simp [hd]) hline
      subst hnil
      rw [List.nil_append, Link.received_blank hblank]
      refine ⟨.replied n command blanks reply hn hsent hall hcall hanswer hreply hmore ?_, hw⟩
      exact (List.cons.inj hpending).2

/-- Before a reply begins, the newlines of earlier ones are read. -/
theorem reply_begun {blanks reply buffer coming : List Byte} (hblanks : ∀ c ∈ blanks, c = 10#8)
    (hpending : buffer ++ coming = blanks ++ reply) (hne : buffer ≠ []) (hbuffer : 10#8 ∉ buffer) :
    reply = buffer ++ coming := by
  cases blanks with
  | nil => exact hpending.symm
  | cons c blanks =>
    obtain ⟨d, buffer', rfl⟩ := List.exists_cons_of_ne_nil hne
    have hd : d = 10#8 := (List.cons.inj hpending).1.trans (hblanks c (by simp))
    exact absurd (by simp [hd]) hbuffer

theorem Link.Phase.timeout (h : s.Phase) (ho : s.InOrder) (hw : s.Whole)
    (hcareful : s.Careful .timeout) {n : Nat} (hclient : s.client = some n)
    (hbuffer : 10#8 ∉ s.in_buffer) :
    (s.received n s.in_buffer []).Phase ∧ (s.received n s.in_buffer []).Whole := by
  have htimeout : examine [] = some (.error .TimeoutError) := rfl
  cases h with
  | rest hnone =>
    rw [hnone] at hclient
    cases hclient
  | asked command hcommand hn hsent hall hcall hquiet =>
    -- nothing has arrived
    obtain ⟨hread, hrest⟩ := List.forall_mem_append.mp hquiet
    have hnil : s.in_buffer = [] := by
      apply List.eq_nil_iff_forall_not_mem.mpr
      intro c hc
      exact hbuffer (hread c hc ▸ hc)
    rw [hnil]
    refine ⟨?_, hw.received (by simp [htimeout])⟩
    rw [Link.received_response htimeout]
    exact .asked command hcommand (by simp) hsent hall hcall hrest
  | replied n' command blanks reply hn hsent hall hcall hanswer hreply hblanks hpending =>
    rw [hn] at hclient
    cases hclient
    by_cases hnil : s.in_buffer = []
    · rw [hnil]
      refine ⟨?_, hw.received (by simp [htimeout])⟩
      rw [Link.received_response htimeout]
      exact .rest rfl hsent hall
    · -- a part of the reply has arrived
      have hsplit := reply_begun hblanks hpending hnil hbuffer
      obtain ⟨response, hexamine⟩ := hreply.examine_part hsplit hnil
      constructor
      · rw [Link.received_response hexamine]
        exact .rest rfl hsent hall
      · apply hw.replied hcall hanswer hreply (ho.taken_eq hn hanswer hsplit.symm)
        intro line hok
        have hrest : s.to_client = ascii "\n" := hcareful (hreply.part_ok hsplit hnil hok)
        exact hreply.part_whole hsplit hnil hrest

end steps

/-! ### Runs -/

/-- One careful step. -/
theorem Link.Phase.step (b : Board H) {s s' : Link H} {lbl : LinkLabel}
    (h : s.Phase ∧ s.Whole) (ho : s.InOrder) (hstep : (link b).step s lbl s')
    (hcareful : s.Careful lbl) : s'.Phase ∧ s'.Whole := by
  obtain ⟨hphase, hwhole⟩ := h
  cases lbl with
  | call command =>
    obtain ⟨hidle, hcommand, rfl⟩ := hstep
    exact ⟨hphase.call hcareful hidle hcommand,
      hwhole.grow (List.prefix_append _ _) List.prefix_rfl rfl rfl⟩
  | answer line later =>
    obtain ⟨hsent, -, firmware, reply, hwrite, rfl⟩ := hstep
    exact ⟨hphase.answer hsent hwrite,
      hwhole.grow List.prefix_rfl (List.prefix_append _ _) rfl rfl⟩
  | arrive news later =>
    obtain ⟨hnews, rfl⟩ := hstep
    exact ⟨hphase.arrive hnews, hwhole⟩
  | readline line later =>
    obtain ⟨hbuffer, hline, n, hclient, rfl⟩ := hstep
    exact hphase.readline ho hwhole hclient hbuffer hline
  | timeout =>
    obtain ⟨hbuffer, n, hclient, rfl⟩ := hstep
    exact hphase.timeout ho hwhole hcareful hclient hbuffer

/-- The newlines of earlier replies are read one by one. -/
theorem read_blanks (b : Board H) {s : Link H}
    (h : ((link b).restrict Link.Careful).Reachable s) {n : Nat} (hclient : s.client = some n)
    {blanks rest : List Byte} (hblanks : ∀ c ∈ blanks, c = 10#8)
    (hbuffer : s.in_buffer = blanks ++ rest) :
    ((link b).restrict Link.Careful).Reachable
      { s with in_buffer := rest, taken := s.taken ++ blanks } := by
  induction blanks generalizing s with
  | nil =>
    rw [List.append_nil, ← List.nil_append rest, ← hbuffer]
    exact h
  | cons c blanks ih =>
    obtain ⟨rfl, hmore⟩ := List.forall_mem_cons.mp hblanks
    have hread := h.step (l := LinkLabel.readline [] (blanks ++ rest))
      ⟨⟨hbuffer, List.not_mem_nil, n, hclient, rfl⟩, trivial⟩
    have hblank : examine ([] ++ ascii "\n") = none := by decide
    rw [Link.received_blank hblank] at hread
    have hrest := ih hread hclient hmore rfl
    rwa [List.append_assoc] at hrest

/-- Without delays a call does what `send` does, also behind newlines. -/
theorem prompt_call (b : Board H) {s : Link H}
    (h : ((link b).restrict Link.Careful).Reachable s) (hclient : s.client = none)
    (hsent : s.to_firmware = []) (hcoming : s.to_client = [])
    (hbuffer : ∀ c ∈ s.in_buffer, c = 10#8) {command : List Byte} (hcommand : IsCommand command) :
    ∃ s' response, ((link b).restrict Link.Careful).Reachable s' ∧ s'.Idle ∧
      send b command ⟨s.firmware, []⟩ = some (response, ⟨s'.firmware, []⟩) ∧
      s'.results = s.results ++ [(s.calls.length, response)] := by
  obtain ⟨firmware, reply, hwrite, hreply, -⟩ := command_answered b hcommand s.firmware
  obtain ⟨body, hbody, hnl⟩ := hreply.one_line.eq_append
  obtain ⟨response, hexamine⟩ := hreply.examine_part (List.append_nil reply).symm (by simp [hbody])
  have hcalled := h.step (l := LinkLabel.call command)
    ⟨⟨hclient, hcommand, rfl⟩, hsent, by rwa [hcoming, List.append_nil]⟩
  have hanswered := hcalled.step (l := LinkLabel.answer command [])
    ⟨⟨by simp [Link.called, hsent], hcommand.no_newline, firmware, reply, hwrite, rfl⟩, trivial⟩
  have harrived := hanswered.step (l := LinkLabel.arrive reply [])
    ⟨⟨by simp [Link.called, Link.answered, hcoming], rfl⟩, trivial⟩
  have hnext := read_blanks b harrived rfl hbuffer rfl
  have hread := hnext.step (l := LinkLabel.readline body [])
    ⟨⟨by simp [hbody, ascii], hnl, _, rfl, rfl⟩, trivial⟩
  have hline : body ++ ascii "\n" = reply := hbody.symm
  rw [hline, Link.received_response hexamine] at hread
  refine ⟨_, response, hread, ⟨rfl, rfl, rfl, rfl⟩, ?_, rfl⟩
  unfold send
  rw [hwrite, Option.bind_eq_bind, Option.bind_some]
  simp only [send_loop, readline_one_line hreply.one_line, hexamine]
  rfl

theorem link_in_order (b : Board H) {s : Link H} (h : (link b).Reachable s) : s.InOrder := by
  apply h.invariant
  · intro s ⟨firmware, hs⟩
    rw [hs]
    exact .start firmware
  · intro s lbl s' hs hstep
    exact hs.step hstep

theorem careful_phase (b : Board H) {s : Link H}
    (h : ((link b).restrict Link.Careful).Reachable s) : (s.Phase ∧ s.Whole) ∧ s.InOrder := by
  apply h.invariant (P := fun s => (s.Phase ∧ s.Whole) ∧ s.InOrder)
  · rintro s ⟨firmware, rfl⟩
    exact ⟨⟨.rest rfl rfl rfl, fun n line hmem => absurd hmem List.not_mem_nil⟩, .start firmware⟩
  · intro s lbl s' ⟨hs, ho⟩ hstep
    exact ⟨Link.Phase.step b hs ho hstep.1 hstep.2, ho.step hstep.1⟩

/-- Whatever `send` returns in a careful session is the complete reply to its
    own command. -/
theorem careful_replies (b : Board H) {s : Link H}
    (h : ((link b).restrict Link.Careful).Reachable s) : s.Whole :=
  (careful_phase b h).1.2

/-- Registers read as their own address. -/
def echo_board : Board Unit := { sample_board with in32 := fun addr _ => (addr, ()) }

/-- Register 1 is read, and `readline` gives up when only the newline is
    missing; register 2 is read when this newline has arrived. -/
theorem careful_replies_two_regs :
    ∃ s, ((link echo_board).restrict Link.Careful).Reachable s ∧
      s.results = [(0, .ok (ascii "OK 0x60002004")), (1, .ok (ascii "OK 0x60002008"))] ∧
      s.Whole := by
  have hcommand := isCommand_words (.get_reg 1)
  obtain ⟨firmware, reply, hwrite, -, hworld, hreply⟩ :=
    command_answered echo_board hcommand power_on
  obtain rfl : reply = ascii "OK 0x60002004" ++ ascii "\n" := hreply (.get_reg 1#5) (by decide)
  have hinit : ((link echo_board).restrict Link.Careful).Reachable (Link.start power_on) :=
    .init ⟨power_on, rfl⟩
  have hcalled := hinit.step (l := LinkLabel.call _)
    ⟨⟨rfl, hcommand, rfl⟩, rfl, by simp [Link.start]⟩
  have hanswered := hcalled.step (l := LinkLabel.answer _ [])
    ⟨⟨by simp [Link.called, Link.start], hcommand.no_newline, firmware, _, hwrite, rfl⟩, trivial⟩
  have hbegun := hanswered.step (l := LinkLabel.arrive (ascii "OK 0x60002004") (ascii "\n"))
    ⟨⟨rfl, rfl⟩, trivial⟩
  obtain ⟨s₁, hwaits, hclient, hsent, hcoming, hbuffer, hcalls, hresults₁⟩ :
      ∃ s₁, ((link echo_board).restrict Link.Careful).Reachable s₁ ∧ s₁.client = some 0 ∧
        s₁.to_firmware = [] ∧ s₁.to_client = ascii "\n" ∧
        s₁.in_buffer = ascii "OK 0x60002004" ∧ s₁.calls.length = 1 ∧ s₁.results = [] :=
    ⟨_, hbegun, rfl, rfl, rfl, rfl, rfl, rfl⟩
  have hcut := hwaits.step (l := LinkLabel.timeout)
    ⟨⟨by rw [hbuffer]; decide, 0, hclient, rfl⟩, fun _ => hcoming⟩
  have hexamine : examine (ascii "OK 0x60002004") = some (.ok (ascii "OK 0x60002004")) := by decide
  rw [hbuffer, Link.received_response hexamine] at hcut
  have harrived := hcut.step (l := LinkLabel.arrive (ascii "\n") [])
    ⟨⟨hcoming.trans (List.append_nil _).symm, rfl⟩, trivial⟩
  have hcommand' := isCommand_words (.get_reg 2)
  have hblank : ∀ c ∈ [] ++ ascii "\n", c = 10#8 := by decide
  obtain ⟨s, response, hreach, -, hsend, hresults⟩ :=
    prompt_call echo_board harrived rfl hsent rfl hblank hcommand'
  obtain ⟨s', hsend', -⟩ := send_execute echo_board hcommand'.1 hcommand'.2.1 s₁.firmware
    (r := .get_reg 2#5) (by decide)
  have hsame := hsend'.symm.trans hsend
  simp only [Option.some.injEq, Prod.mk.injEq] at hsame
  obtain ⟨rfl, -⟩ := hsame
  refine ⟨s, hreach, ?_, careful_replies echo_board hreach⟩
  rw [hresults]
  show s₁.results ++ _ ++ [(s₁.calls.length, _)] = _
  rw [hresults₁, hcalls]
  rfl

end Host

end RiscvWorker
