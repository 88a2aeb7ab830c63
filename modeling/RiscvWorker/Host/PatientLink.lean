import RiscvWorker.Host.Link

/-! # Sessions over the link

  The client of `WorkerInterface` is written as if a call were answered at
  once; on the link its command, the work of the firmware and every byte of
  the reply take their time, in any order that a serial line allows. As long
  as no `readline` gives up the difference cannot be seen: what the calls
  return and what becomes of the firmware is what `send_all` computes, where
  nothing is delayed.
-/

namespace RiscvWorker

namespace Host

open Text (Byte ascii)
open Firmware

variable {H : Type}

/-! ### The session without delays -/

/-- One call after the other. -/
def send_all (b : Board H) :
    List (List Byte) → Serial H → Option (List (Except Raised (List Byte)) × Serial H)
  | [], ser => some ([], ser)
  | command :: commands, ser => do
    let (response, ser) ← send b command ser
    let (responses, ser) ← send_all b commands ser
    some (response :: responses, ser)

theorem send_all_concat {b : Board H} {commands : List (List Byte)} {command : List Byte}
    {ser ser' ser'' : Serial H} {responses : List (Except Raised (List Byte))}
    {response : Except Raised (List Byte)}
    (hall : send_all b commands ser = some (responses, ser'))
    (hsend : send b command ser' = some (response, ser'')) :
    send_all b (commands ++ [command]) ser = some (responses ++ [response], ser'') := by
  induction commands generalizing ser responses with
  | nil =>
    cases hall
    simp [send_all, hsend]
  | cons c commands ih =>
    simp only [send_all, Option.bind_eq_bind, Option.bind_eq_some_iff] at hall
    obtain ⟨⟨first, ser₁⟩, hfirst, ⟨rest, ser₂⟩, hrest, hresult⟩ := hall
    cases hresult
    simp [send_all, hfirst, ih hrest]

/-! ### The invariant -/

/-- No `readline` gives up. -/
def Link.Patient (_ : Link H) : LinkLabel → Prop
  | .timeout => False
  | _ => True

/-- A link whose firmware starts in this state. -/
def link_from (b : Board H) (firmware : State H) : Lts.System (Link H) LinkLabel where
  init := fun s => s = Link.start firmware
  step := (link b).step

/-- The results of the calls up to now. -/
def numbered (responses : List (Except Raised (List Byte))) :
    List (Nat × Except Raised (List Byte)) :=
  responses.zipIdx.map fun (response, n) => (n, response)

theorem numbered_concat (responses : List (Except Raised (List Byte)))
    (response : Except Raised (List Byte)) :
    numbered (responses ++ [response]) = numbered responses ++ [(responses.length, response)] := by
  simp [numbered, List.zipIdx_append]

/-- The session up to the last call that has ended. -/
def Link.Ended (b : Board H) (firmware : State H) (s : Link H) (commands : List (List Byte))
    (reached : State H) : Prop :=
  ∃ responses, send_all b commands ⟨firmware, []⟩ = some (responses, ⟨reached, []⟩) ∧
    s.results = numbered responses ∧ responses.length = commands.length

/-- Where the client and the firmware are. -/
inductive Link.Prompt (b : Board H) (firmware : State H) (s : Link H) : Prop where
  | rest (hidle : s.Idle) (hended : s.Ended b firmware s.calls s.firmware)
  | asked (commands : List (List Byte)) (command : List Byte) (hcommand : IsCommand command)
      (hclient : s.client = some commands.length) (hcalls : s.calls = commands ++ [command])
      (hsent : s.to_firmware = command ++ ascii "\n")
      (hbuffer : s.in_buffer = []) (hcoming : s.to_client = [])
      (hended : s.Ended b firmware commands s.firmware)
  | replied (commands : List (List Byte)) (command reply : List Byte) (before : State H)
      (hclient : s.client = some commands.length) (hcalls : s.calls = commands ++ [command])
      (hsent : s.to_firmware = []) (hreply : IsReply reply)
      (hpending : s.in_buffer ++ s.to_client = reply)
      (hwrite : Serial.write b (command ++ ascii "\n") ⟨before, []⟩ = some ⟨s.firmware, reply⟩)
      (hended : s.Ended b firmware commands before)

section steps
variable {b : Board H} {firmware : State H} {s : Link H}

theorem Link.Prompt.call (h : s.Prompt b firmware) (hclient : s.client = none)
    {command : List Byte} (hcommand : IsCommand command) :
    (s.called command).Prompt b firmware := by
  cases h with
  | rest hidle hended =>
    obtain ⟨-, hsent, hcoming, hbuffer⟩ := hidle
    refine .asked s.calls command hcommand rfl rfl ?_ hbuffer hcoming hended
    simp [Link.called, hsent]
  | asked _ _ _ hwait =>
    rw [hclient] at hwait
    cases hwait
  | replied _ _ _ _ hwait =>
    rw [hclient] at hwait
    cases hwait

theorem Link.Prompt.answer (h : s.Prompt b firmware) {line later reply : List Byte}
    {after : State H} (hsent : s.to_firmware = line ++ ascii "\n" ++ later)
    (hwrite : Serial.write b (line ++ ascii "\n") ⟨s.firmware, []⟩ = some ⟨after, reply⟩) :
    (s.answered after line reply later).Prompt b firmware := by
  cases h with
  | rest hidle =>
    rw [hidle.2.1] at hsent
    simp [ascii] at hsent
  | replied _ _ _ _ _ _ hnone =>
    rw [hnone] at hsent
    simp [ascii] at hsent
  | asked commands command hcommand hclient hcalls hcommand' hbuffer hcoming hended =>
    rw [hcommand'] at hsent
    obtain ⟨rfl, rfl⟩ := first_line hcommand.no_newline hsent
    obtain ⟨after', reply', hwrite', hreply, -⟩ := command_answered b hcommand s.firmware
    have hsame := hwrite.symm.trans hwrite'
    simp only [Option.some.injEq, Serial.mk.injEq] at hsame
    obtain ⟨rfl, rfl⟩ := hsame
    refine .replied commands line reply s.firmware hclient hcalls rfl hreply ?_ hwrite
      hended
    simp [Link.answered, hbuffer, hcoming]

theorem Link.Prompt.arrive (h : s.Prompt b firmware) {news later : List Byte}
    (hnews : s.to_client = news ++ later) : (s.arrived news later).Prompt b firmware := by
  cases h with
  | rest hidle hended =>
    obtain ⟨hclient, hsent, hcoming, hbuffer⟩ := hidle
    obtain ⟨rfl, rfl⟩ := List.append_eq_nil_iff.mp (hnews.symm.trans hcoming)
    exact .rest ⟨hclient, hsent, rfl, by simp [Link.arrived, hbuffer]⟩ hended
  | asked commands command hcommand hclient hcalls hsent hbuffer hcoming hended =>
    obtain ⟨rfl, rfl⟩ := List.append_eq_nil_iff.mp (hnews.symm.trans hcoming)
    exact .asked commands command hcommand hclient hcalls hsent (by simp [Link.arrived, hbuffer])
      rfl hended
  | replied commands command reply before hclient hcalls hsent hreply hpending hwrite hended =>
    refine .replied commands command reply before hclient hcalls hsent hreply ?_ hwrite
      hended
    rw [← hpending, hnews]
    exact List.append_assoc _ _ _

theorem Link.Prompt.readline (h : s.Prompt b firmware) {n : Nat} {line later : List Byte}
    (hclient : s.client = some n) (hbuffer : s.in_buffer = line ++ ascii "\n" ++ later) :
    (s.received n (line ++ ascii "\n") later).Prompt b firmware := by
  cases h with
  | rest hidle =>
    rw [hidle.1] at hclient
    cases hclient
  | asked _ _ _ _ _ _ hnone =>
    rw [hnone] at hbuffer
    simp [ascii] at hbuffer
  | replied commands command reply before hwait hcalls hsent hreply hpending hwrite hended =>
    obtain rfl : commands.length = n := Option.some.inj (hwait.symm.trans hclient)
    -- the line is the reply, and nothing is left
    obtain ⟨body, hbody, hnl⟩ := hreply.one_line.eq_append
    have hbody' : body ++ ascii "\n" = reply := hbody.symm
    obtain ⟨rfl, hnothing⟩ : line = body ∧ later ++ s.to_client = [] := by
      apply first_line hnl
      rw [hbody', ← hpending, hbuffer, List.append_assoc]
    obtain ⟨rfl, hcoming⟩ := List.append_eq_nil_iff.mp hnothing
    obtain ⟨response, hexamine⟩ :=
      hreply.examine_part (List.append_nil reply).symm (by simp [hbody])
    have hsend : send b command ⟨before, []⟩ = some (response, ⟨s.firmware, []⟩) := by
      unfold send
      rw [hwrite, Option.bind_eq_bind, Option.bind_some]
      simp only [send_loop, readline_one_line hreply.one_line, hexamine]
    obtain ⟨responses, hall, hresults, hlength⟩ := hended
    rw [hbody', Link.received_response hexamine]
    refine .rest ⟨rfl, hsent, hcoming, rfl⟩ ⟨responses ++ [response], ?_, ?_, ?_⟩
    · show send_all b s.calls _ = _
      rw [hcalls]
      exact send_all_concat hall hsend
    · show s.results ++ [(commands.length, response)] = _
      rw [numbered_concat, hresults, hlength]
    · show _ = s.calls.length
      simp [hcalls, hlength]

theorem Link.Prompt.step {s' : Link H} {lbl : LinkLabel} (h : s.Prompt b firmware)
    (hstep : (link b).step s lbl s') (hpatient : s.Patient lbl) : s'.Prompt b firmware := by
  cases lbl with
  | call command =>
    obtain ⟨hclient, hcommand, rfl⟩ := hstep
    exact h.call hclient hcommand
  | answer line later =>
    obtain ⟨hsent, -, after, reply, hwrite, rfl⟩ := hstep
    exact h.answer hsent hwrite
  | arrive news later =>
    obtain ⟨hnews, rfl⟩ := hstep
    exact h.arrive hnews
  | readline line later =>
    obtain ⟨hbuffer, -, n, hclient, rfl⟩ := hstep
    exact h.readline hclient hbuffer
  | timeout => exact hpatient.elim

/-- A call that waits can go on: its command, its reply or its line is
    there. -/
theorem Link.Prompt.progress (h : s.Prompt b firmware) (hwaits : s.client ≠ none) :
    ∃ lbl s', (link b).step s lbl s' ∧ s.Patient lbl ∧ lbl ≠ .arrive [] s.to_client := by
  cases h with
  | rest hidle => exact absurd hidle.1 hwaits
  | asked commands command hcommand hclient hcalls hsent =>
    obtain ⟨after, reply, hwrite, -⟩ := command_answered b hcommand s.firmware
    exact ⟨.answer command [], _,
      ⟨by rw [hsent, List.append_nil], hcommand.no_newline, after, reply, hwrite, rfl⟩, trivial,
      by simp⟩
  | replied commands command reply before hclient hcalls hsent hreply hpending =>
    obtain ⟨body, hbody, hnl⟩ := hreply.one_line.eq_append
    by_cases hcoming : s.to_client = []
    · have hbuffer : s.in_buffer = body ++ ascii "\n" ++ [] := by
        rw [hcoming, List.append_nil] at hpending
        rw [hpending, hbody, List.append_nil]
        rfl
      exact ⟨.readline body [], _, ⟨hbuffer, hnl, _, hclient, rfl⟩, trivial, by simp⟩
    · refine ⟨.arrive s.to_client [], _, ⟨by rw [List.append_nil], rfl⟩, trivial, ?_⟩
      simpa using hcoming

end steps

/-! ### Runs -/

/-- Without a timeout the delays cannot be seen. Whenever no call waits, the
    results are those of the session without delays, call by call, and the
    firmware is where this session leaves it. A call that waits can always go
    on. -/
theorem patient_session (b : Board H) (firmware : State H) {s : Link H}
    (h : ((link_from b firmware).restrict Link.Patient).Reachable s) :
    (s.client = none → s.Idle ∧ ∃ responses,
      send_all b s.calls ⟨firmware, []⟩ = some (responses, ⟨s.firmware, []⟩) ∧
      s.results = numbered responses) ∧
    (s.client ≠ none →
      ∃ lbl s', (link b).step s lbl s' ∧ s.Patient lbl ∧ lbl ≠ .arrive [] s.to_client) := by
  have hprompt : s.Prompt b firmware := by
    apply h.invariant
    · rintro s rfl
      exact .rest ⟨rfl, rfl, rfl, rfl⟩ ⟨[], rfl, rfl, rfl⟩
    · intro s lbl s' hs hstep
      exact hs.step hstep.1 hstep.2
  refine ⟨?_, hprompt.progress⟩
  intro hclient
  cases hprompt with
  | rest hidle hended =>
    obtain ⟨responses, hall, hresults, -⟩ := hended
    exact ⟨hidle, responses, hall, hresults⟩
  | asked _ _ _ hwait =>
    rw [hclient] at hwait
    cases hwait
  | replied _ _ _ _ hwait =>
    rw [hclient] at hwait
    cases hwait

/-- Register 1 is read; the reply comes in two pieces. -/
theorem patient_session_get_reg :
    ∃ s, ((link_from sample_board power_on).restrict Link.Patient).Reachable s ∧
      s.calls = [words (Method.get_reg 1).cmd (Method.get_reg 1).args] ∧ ∃ responses,
        send_all sample_board s.calls ⟨power_on, []⟩ = some (responses, ⟨s.firmware, []⟩) ∧
        s.results = numbered responses := by
  have hcommand := isCommand_words (.get_reg 1)
  obtain ⟨firmware, reply, hwrite, hreply, -⟩ := command_answered sample_board hcommand power_on
  obtain ⟨body, hbody, hnl⟩ := hreply.one_line.eq_append
  obtain ⟨response, hexamine⟩ := hreply.examine_part (List.append_nil reply).symm (by simp [hbody])
  have hinit : ((link_from sample_board power_on).restrict Link.Patient).Reachable
      (Link.start power_on) := .init rfl
  have hcalled := hinit.step (l := LinkLabel.call _) ⟨⟨rfl, hcommand, rfl⟩, trivial⟩
  have hanswered := hcalled.step (l := LinkLabel.answer _ [])
    ⟨⟨by simp [Link.called, Link.start], hcommand.no_newline, firmware, reply, hwrite, rfl⟩,
      trivial⟩
  have hfirst := hanswered.step (l := LinkLabel.arrive body [10#8])
    ⟨⟨by simp [Link.called, Link.answered, Link.start, hbody], rfl⟩, trivial⟩
  have hsecond := hfirst.step (l := LinkLabel.arrive [10#8] []) ⟨⟨rfl, rfl⟩, trivial⟩
  have hread := hsecond.step (l := LinkLabel.readline body [])
    ⟨⟨by simp [Link.called, Link.answered, Link.arrived, Link.start, ascii], hnl, _, rfl, rfl⟩,
      trivial⟩
  have hline : body ++ ascii "\n" = reply := hbody.symm
  rw [hline, Link.received_response hexamine] at hread
  obtain ⟨-, hsession⟩ := (patient_session sample_board power_on hread).1 rfl
  exact ⟨_, hread, rfl, hsession⟩

end Host

end RiscvWorker
