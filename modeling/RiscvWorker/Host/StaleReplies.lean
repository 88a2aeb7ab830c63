import RiscvWorker.Host.Link

/-! # Sessions without care

  What becomes of a reply that is late. A call that is made while a reply to
  an earlier one is outstanding never gets its own: whatever it returns was
  printed for an earlier command, on every board and in every continuation.
  A timeout that cuts an OK reply short returns the part that has arrived.
-/

namespace RiscvWorker

namespace Host

open Text (Byte ascii)
open PyText (strip decode)
open Firmware

variable {H : Type}

/-! ### Stale replies -/

/-- The last character of a reply but the newline is not white. -/
theorem IsReply.last {reply : List Byte} (h : IsReply reply) :
    ∃ body c, reply = body ++ [c] ++ [10#8] ∧ PyText.isspace c = false := by
  obtain ⟨body, hbody, -⟩ := h.one_line.eq_append
  have hlast : ∃ c, reply.dropLast.getLast? = some c ∧ PyText.isspace c = false := by
    rcases h with herr | ⟨value, rfl⟩
    · have hall : ∀ text ∈ errors, ∃ c, text.dropLast.getLast? = some c ∧
          PyText.isspace c = false := by
        unfold errors
        simp only [List.forall_mem_cons]
        exact ⟨⟨_, rfl, rfl⟩, ⟨_, rfl, rfl⟩, ⟨_, rfl, rfl⟩, ⟨_, rfl, rfl⟩, ⟨_, rfl, rfl⟩,
          ⟨_, rfl, rfl⟩, ⟨_, rfl, rfl⟩, ⟨_, rfl, rfl⟩, List.forall_mem_nil _⟩
      exact hall reply herr
    · have hnl : Text.ascii "\n" = [10#8] := rfl
      rw [ok_reply_eq, hnl, List.dropLast_concat]
      cases value with
      | none => exact ⟨75#8, rfl, by decide⟩
      | some value =>
        have hne := hex_word_ne_nil value
        refine ⟨_, ?_, (PyText.isspace_of_digit (c := (Text.zero_pad 8
          (Text.numeral 16 value.toNat)).getLast hne) ?_).1⟩
        · unfold ok_line
          rw [List.getLast?_append, List.getLast?_eq_getLast_of_ne_nil hne]
          rfl
        · have hdigit := hex_word_digits value _ (List.getLast_mem hne)
          omega
  obtain ⟨c, hc, hspace⟩ := hlast
  rw [hbody, List.dropLast_concat] at hc
  obtain ⟨front, rfl⟩ := List.getLast?_eq_some_iff.mp hc
  exact ⟨front, c, hbody, hspace⟩

/-- If anything but newlines is outstanding, so is the end of a line. -/
theorem pending_word {answers : List (List Byte × List Byte)} {taken pending : List Byte}
    (h : ∀ a ∈ answers, IsReply a.2) (hsplit : taken ++ pending = answers.flatMap (·.2)) {c : Byte}
    (hc : c ∈ pending) (hne : c ≠ 10#8) : ∃ d ∈ pending, PyText.isspace d = false := by
  rcases List.eq_nil_or_concat' answers with rfl | ⟨front, a, rfl⟩
  · obtain ⟨-, rfl⟩ := List.append_eq_nil_iff.mp hsplit
    exact absurd hc List.not_mem_nil
  have hreply : IsReply a.2 := h a (by simp)
  rw [List.flatMap_append, List.flatMap_singleton] at hsplit
  rcases List.append_eq_append_iff.mp hsplit with ⟨t, -, rfl⟩ | ⟨t, -, hcut⟩
  · -- the last reply is outstanding as a whole
    obtain ⟨d, rest, hd, hspace⟩ := hreply.head
    exact ⟨d, by simp [hd], hspace⟩
  · obtain ⟨body, d, hd, hspace⟩ := hreply.last
    rw [hd] at hcut
    rcases List.eq_nil_or_concat' pending with rfl | ⟨part, last, rfl⟩
    · exact absurd hc List.not_mem_nil
    obtain ⟨hpart, hlast⟩ := List.append_inj' (hcut.trans (List.append_assoc _ _ _).symm) rfl
    obtain rfl : 10#8 = last := List.singleton_inj.mp hlast
    have hcpart : c ∈ part := (List.mem_append.mp hc).resolve_right (by simpa using hne)
    rcases List.eq_nil_or_concat' part with rfl | ⟨part, last, rfl⟩
    · exact absurd hcpart List.not_mem_nil
    obtain ⟨-, hlast⟩ := List.append_inj' (hpart.trans (List.append_assoc _ _ _).symm) rfl
    obtain rfl : d = last := List.singleton_inj.mp hlast
    exact ⟨d, by simp, hspace⟩

/-- Something comes before the reply to call `n`: a reply that is still to be
    printed, or a word that is still to be read. If the call has ended, it was
    with a line from there. -/
structure Link.Stale (n : Nat) (s : Link H) : Prop where
  waits : s.client = some n → s.answers.length < n ∨
    ∃ c ∈ (s.printed n).drop s.taken.length, PyText.isspace c = false
  ended : ∀ p, (n, p) ∈ s.origins → s.answers.length < n ∨ p < (s.printed n).length

section stale
variable {s : Link H} {n : Nat}

theorem Link.printed_all (h : s.answers.length ≤ n) : s.printed n = s.answers.flatMap (·.2) := by
  unfold Link.printed
  rw [List.take_of_length_le h]

/-- A blank line is white. -/
theorem examine_none {raw : List Byte} (hascii : ∀ c ∈ raw, c.toNat < 128)
    (h : examine raw = none) : ∀ c ∈ raw, PyText.isspace c = true := by
  unfold examine at h
  dsimp only at h
  split_ifs at h with hraw hline
  rw [PyText.decode_ascii hascii] at hline
  intro c hc
  by_contra hspace
  exact PyText.strip_ne_nil_of_mem hc (eq_false_of_ne_true hspace) hline

/-- The call. -/
theorem Link.Stale.called (ho : s.InOrder) {command : List Byte}
    (hcareless : ¬ s.Careful (.call command)) : (s.called command).Stale s.calls.length where
  waits _ := by
    obtain ⟨waiting, hcalls, hsent⟩ := ho.sent
    cases waiting with
    | cons first waiting =>
      refine .inl ?_
      show s.answers.length < s.calls.length
      rw [hcalls]
      simp
    | nil =>
      have hall : s.calls.length = s.answers.length := by simp [hcalls]
      have hstale : ¬ ∀ c ∈ s.in_buffer ++ s.to_client, c = 10#8 :=
        fun hquiet => hcareless ⟨hsent, hquiet⟩
      obtain ⟨c, hc⟩ := not_forall.mp hstale
      obtain ⟨hmem, hne⟩ := Classical.not_imp.mp hc
      have hlossless := (List.append_assoc _ _ _).symm.trans ho.lossless
      refine .inr ?_
      show ∃ c ∈ (s.printed s.calls.length).drop s.taken.length, _
      rw [hall, Link.printed_all (Nat.le_refl _), ← hlossless, List.drop_left]
      exact pending_word ho.replies hlossless hmem hne
  ended p hp := absurd (ho.ended _ hp).1 (Nat.lt_irrefl _)

/-- Calls are never taken back. -/
theorem calls_mono {b : Board H} {s' : Link H} {lbl : LinkLabel}
    (hstep : (link b).step s lbl s') : s.calls.length ≤ s'.calls.length := by
  cases lbl with
  | call command =>
    obtain ⟨-, -, rfl⟩ := hstep
    simp [Link.called]
  | answer line later =>
    obtain ⟨-, -, firmware, reply, -, rfl⟩ := hstep
    exact Nat.le_refl _
  | arrive news later =>
    obtain ⟨-, rfl⟩ := hstep
    exact Nat.le_refl _
  | readline line later =>
    obtain ⟨-, -, n, -, rfl⟩ := hstep
    unfold Link.received
    split <;> exact Nat.le_refl _
  | timeout =>
    obtain ⟨-, n, -, rfl⟩ := hstep
    unfold Link.received
    split <;> exact Nat.le_refl _

variable (h : s.Stale n) (ho : s.InOrder)
include h ho

theorem Link.Stale.answered {line reply later : List Byte} {firmware : State H}
    (hreply : IsReply reply) : (s.answered firmware line reply later).Stale n := by
  have hprefix : s.answers <+: (s.answered firmware line reply later).answers :=
    List.prefix_append _ _
  have hlength : (s.answered firmware line reply later).answers.length = s.answers.length + 1 := by
    simp [Link.answered]
  by_cases hlt : s.answers.length < n
  · by_cases hnext : s.answers.length + 1 < n
    · exact ⟨fun _ => .inl (hlength ▸ hnext), fun _ _ => .inl (hlength ▸ hnext)⟩
    · -- this is the reply to the call before, and nothing of it has been read
      have hall : (s.answered firmware line reply later).printed n =
          s.taken ++ (s.in_buffer ++ s.to_client ++ reply) := by
        rw [Link.printed_all (by omega)]
        simp [Link.answered, ← ho.lossless]
      obtain ⟨c, rest, hc, hspace⟩ := hreply.head
      refine ⟨fun _ => .inr ⟨c, ?_, hspace⟩, fun p hp => .inr ?_⟩
      · rw [hall]
        show c ∈ List.drop s.taken.length _
        simp [hc]
      · have hread : p ≤ s.taken.length := (ho.ended _ hp).2
        rw [hall, hc]
        simp only [List.length_append, List.length_cons]
        omega
  · have hsame := Link.printed_of_prefix hprefix (Nat.le_of_not_lt hlt)
    exact ⟨fun hclient => .inr (hsame ▸ (h.waits hclient).resolve_left hlt),
      fun p hp => .inr (hsame ▸ (h.ended p hp).resolve_left hlt)⟩

theorem Link.Stale.received {k : Nat} {raw later : List Byte} (hclient : s.client = some k)
    (hbuffer : s.in_buffer = raw ++ later) : (s.received k raw later).Stale n := by
  have hlossless : s.taken ++ (raw ++ (later ++ s.to_client)) = s.answers.flatMap (·.2) := by
    rw [← ho.lossless, hbuffer]
    simp only [List.append_assoc]
  cases hexamine : examine raw with
  | none =>
    rw [Link.received_blank hexamine]
    refine ⟨fun hk => ?_, h.ended⟩
    refine (h.waits hk).imp_right fun hword => ?_
    obtain ⟨c, hc, hspace⟩ := hword
    refine ⟨c, ?_, hspace⟩
    have hascii : ∀ d ∈ raw, d.toNat < 128 := fun d hd => ho.ascii d (by simp [hbuffer, hd])
    have hwhite := examine_none hascii hexamine
    -- the word is not among the blanks
    have hprefix : (s.printed n).drop s.taken.length <+: raw ++ (later ++ s.to_client) := by
      have hprinted : s.printed n <+: s.taken ++ (raw ++ (later ++ s.to_client)) := by
        refine ⟨(s.answers.drop n).flatMap (·.2), ?_⟩
        unfold Link.printed
        rw [hlossless, ← List.flatMap_append, List.take_append_drop]
      have hdrop := hprinted.drop s.taken.length
      rwa [List.drop_left] at hdrop
    have hread := hprefix.take raw.length
    rw [List.take_left] at hread
    rw [← List.take_append_drop raw.length ((s.printed n).drop s.taken.length)] at hc
    rcases List.mem_append.mp hc with hblank | hrest
    · have hspace' := hwhite c (hread.subset hblank)
      simp [hspace] at hspace'
    · rwa [List.drop_drop, ← List.length_append] at hrest
  | some response =>
    rw [Link.received_response hexamine]
    refine ⟨fun hk => ?_, fun p hp => ?_⟩
    · cases hk
    rcases List.mem_append.mp hp with hold | hnew
    · exact h.ended p hold
    · obtain ⟨rfl, rfl⟩ := Prod.mk.inj (List.mem_singleton.mp hnew)
      refine (h.waits hclient).imp_right fun hword => ?_
      obtain ⟨c, hc, -⟩ := hword
      have hpos := List.length_pos_of_mem hc
      rw [List.length_drop] at hpos
      show s.taken.length < (s.printed n).length
      omega

theorem Link.Stale.step {b : Board H} {s' : Link H} {lbl : LinkLabel} (hn : n < s.calls.length)
    (hstep : (link b).step s lbl s') : s'.Stale n := by
  cases lbl with
  | call command =>
    obtain ⟨-, -, rfl⟩ := hstep
    -- this is a later call
    refine ⟨fun hclient => ?_, h.ended⟩
    obtain rfl : s.calls.length = n := Option.some.inj hclient
    exact absurd hn (Nat.lt_irrefl _)
  | answer line later =>
    obtain ⟨hsent, hline, firmware, reply, hwrite, rfl⟩ := hstep
    exact h.answered ho (ho.answered hsent hline hwrite).2
  | arrive news later =>
    obtain ⟨-, rfl⟩ := hstep
    exact ⟨h.waits, h.ended⟩
  | readline line later =>
    obtain ⟨hbuffer, -, k, hclient, rfl⟩ := hstep
    exact h.received ho hclient hbuffer
  | timeout =>
    obtain ⟨-, k, hclient, rfl⟩ := hstep
    exact h.received ho hclient (List.append_nil _).symm

end stale

/-- A call that is made without care never gets its own reply, however the
    session goes on: a line that it returns began before. -/
theorem stale_call (b : Board H) {s s' : Link H} (h : (link b).Reachable s) {command : List Byte}
    (hcommand : IsCommand command) (hcareless : ¬ s.Careful (.call command))
    (hlater : ((link b).after (s.called command)).Reachable s') {line : List Byte}
    (hreturned : (s.calls.length, .ok line) ∈ s'.results) : ¬ s'.Whole := by
  have hstale : (s'.InOrder ∧ s'.Stale s.calls.length) ∧ s.calls.length < s'.calls.length := by
    apply hlater.invariant (P := fun s' =>
      (s'.InOrder ∧ s'.Stale s.calls.length) ∧ s.calls.length < s'.calls.length)
    · intro s₀ hs₀
      have ho := link_in_order b h
      rw [show s₀ = s.called command from hs₀]
      refine ⟨⟨ho.called hcommand, .called ho hcareless⟩, ?_⟩
      simp [Link.called]
    · intro s₁ lbl s₂ hprev hstep
      obtain ⟨⟨ho, hs⟩, hn⟩ := hprev
      exact ⟨⟨ho.step hstep, hs.step ho hn hstep⟩,
        Nat.lt_of_lt_of_le hn (calls_mono hstep)⟩
  intro hwhole
  obtain ⟨command', reply, -, hanswer, -, -, horigin⟩ := hwhole _ _ hreturned
  obtain ⟨hanswered, -⟩ := List.getElem?_eq_some_iff.mp hanswer
  -- its line began before its reply
  rcases hstale.1.2.ended _ horigin with hlt | hlt
  · omega
  · exact absurd hlt (Nat.lt_irrefl _)

/-! ### Cut replies -/

/-- An OK reply of which more than the newline is missing. -/
theorem part_short {value : Option Word} {part rest : List Byte}
    (hsplit : ok_reply value = part ++ rest) (hnl : 10#8 ∉ part) (hrest : rest ≠ ascii "\n") :
    part.length < (ok_line value).length := by
  have hlen := congrArg List.length hsplit
  rw [ok_reply_eq] at hsplit hlen
  simp only [List.length_append] at hlen
  have hone : (ascii "\n").length = 1 := rfl
  by_contra hlong
  cases rest with
  | nil =>
    rw [List.append_nil] at hsplit
    exact hnl (hsplit ▸ List.mem_append_right _ (by decide))
  | cons c rest =>
    rw [List.length_cons] at hlen
    have hnil : rest = [] := List.eq_nil_of_length_eq_zero (by omega)
    subst hnil
    have hc := congrArg List.getLast? hsplit
    rw [List.getLast?_append, List.getLast?_append] at hc
    exact hrest (congrArg (fun d => [d]) (Option.some.inj hc).symm)

/-- A timeout that cuts an OK reply short returns a wrong line, also in a
    session without care. -/
theorem cut_reply (b : Board H) {s s' : Link H} (h : (link b).Reachable s)
    (hstep : (link b).step s .timeout s') (hcareless : ¬ s.Careful .timeout) : ¬ s'.Whole := by
  have ho := link_in_order b h
  obtain ⟨hbuffer, n, hclient, rfl⟩ := hstep
  obtain ⟨hok, hrest⟩ := Classical.not_imp.mp hcareless
  have hne : s.in_buffer ≠ [] := by
    intro hnil
    rw [hnil] at hok
    exact absurd hok (by decide)
  have hascii : ∀ c ∈ s.in_buffer, c.toNat < 128 := fun c hc => ho.ascii c (by simp [hc])
  -- the part begins with `OK`, so `send` returns it
  have hexamine : examine s.in_buffer = some (.ok (strip s.in_buffer)) := by
    have hstrip : ascii "OK" <+: strip s.in_buffer := by
      obtain ⟨t, ht⟩ := hok
      rw [← ht]
      exact PyText.word_prefix_strip (by decide) (by decide) t
    have hline : strip s.in_buffer ≠ [] := by
      obtain ⟨t, ht⟩ := hstrip
      rw [← ht]
      simp [ascii]
    unfold examine
    rw [if_neg hne]
    simp only [PyText.decode_ascii hascii, hline, hstrip, if_true, if_false]
  rw [Link.received_response hexamine]
  intro hwhole
  obtain ⟨command, reply, -, hanswer, -, hline, horigin⟩ := hwhole n (strip s.in_buffer) (by simp)
  -- it would have to be a part of the reply
  have htaken : s.taken = s.printed n := by
    have hlength : s.taken.length = (s.printed n).length := by
      rcases List.mem_append.mp horigin with hold | hnew
      · exact absurd ((ho.last n hclient).2 _ hold) (Nat.lt_irrefl n)
      · exact (Prod.mk.inj (List.mem_singleton.mp hnew)).2.symm
    exact (List.append_inj (ho.printed_last hclient hanswer) hlength).1
  have hsplit : reply = s.in_buffer ++ s.to_client := by
    have hlast := ho.printed_last hclient hanswer
    rw [htaken] at hlast
    exact (List.append_cancel_left hlast).symm
  obtain hreply : IsReply reply := ho.replies _ (List.mem_of_getElem? hanswer)
  rcases hreply with herr | ⟨value, rfl⟩
  · have hpre : ascii "OK" <+: reply := by
      rw [hsplit]
      exact hok.trans (List.prefix_append _ _)
    have herr' : ascii "ERR" <+: ascii "ERR " := by decide
    exact not_err_of_ok hpre (herr'.trans (errors_one_line reply herr).1)
  · -- it is shorter than the line that was printed
    have hshort := part_short hsplit hbuffer hrest
    rw [strip_ok_reply] at hline
    have hle : (strip s.in_buffer).length ≤ s.in_buffer.length := by
      obtain ⟨c, tail, hpart, -, hc⟩ := IsReply.part_head (.inr ⟨value, rfl⟩) hsplit hne
      rw [hpart]
      exact (PyText.strip_prefix hc tail).length_le
    rw [hline] at hle
    omega

/-! ### A stale register -/

/-- After a timeout the next call gets the reply to the call before. -/
theorem late_reply (b : Board H) {s : Link H} (h : (link b).Reachable s) (hidle : s.Idle)
    {c d : List Byte} (hc : IsCommand c) (hd : IsCommand d) {q r : Request}
    (hq : outcome c = .execute q) (hr : outcome d = .execute r) :
    ∃ s' after, (link b).Reachable s' ∧ after = (q.perform b s.firmware.world).hardware ∧
      s'.calls = s.calls ++ [c, d] ∧
      s'.answers = s.answers ++
        [(c, ok_reply (q.value b s.firmware.world.hardware)), (d, ok_reply (r.value b after))] ∧
      s'.results = s.results ++
        [(s.calls.length, .error .TimeoutError),
          (s.calls.length + 1, .ok (ok_line (q.value b s.firmware.world.hardware)))] := by
  obtain ⟨hclient, hsent, hcoming, hbuffer⟩ := hidle
  obtain ⟨firmware, reply, hwrite, -, hworld, hreply⟩ := command_answered b hc s.firmware
  obtain ⟨firmware', reply', hwrite', -, -, hreply'⟩ := command_answered b hd firmware
  have hvalue := hreply q hq
  have hvalue' := hreply' r hr
  rw [hworld, hq] at hvalue'
  obtain ⟨body, hbody, hnl⟩ := (ok_reply_one_line (q.value b s.firmware.world.hardware)).2.eq_append
  rw [← hvalue] at hbody
  -- the call gives up before its command is answered
  have hcalled := h.step (l := LinkLabel.call c) ⟨hclient, hc, rfl⟩
  have hgave_up := hcalled.step (l := LinkLabel.timeout)
    ⟨by simp [Link.called, hbuffer], _, rfl, rfl⟩
  have htimeout : examine (s.called c).in_buffer = some (.error .TimeoutError) := by
    simp only [Link.called, hbuffer]
    rfl
  rw [Link.received_response htimeout] at hgave_up
  have hanswered := hgave_up.step (l := LinkLabel.answer c [])
    ⟨by simp [Link.called, hsent], hc.no_newline, firmware, reply, hwrite, rfl⟩
  have harrived := hanswered.step (l := LinkLabel.arrive reply [])
    ⟨by simp [Link.called, Link.answered, hcoming], rfl⟩
  -- the next call reads at once
  have hnext := harrived.step (l := LinkLabel.call d) ⟨rfl, hd, rfl⟩
  have hread := hnext.step (l := LinkLabel.readline body [])
    ⟨by simp [Link.called, Link.answered, Link.arrived, hbody, ascii], hnl, _, rfl, rfl⟩
  have hline : body ++ ascii "\n" = reply := hbody.symm
  rw [hline, hvalue, Link.received_response (examine_ok_reply _)] at hread
  have hlast := hread.step (l := LinkLabel.answer d [])
    ⟨by simp [Link.called, Link.answered, Link.arrived], hd.no_newline, firmware', reply', hwrite',
      rfl⟩
  refine ⟨_, _, hlast, rfl, ?_, ?_, ?_⟩
  · simp [Link.called, Link.answered, Link.arrived]
  · simp [Link.called, Link.answered, Link.arrived, hvalue', Outcome.perform]
  · simp [Link.called, Link.answered, Link.arrived]

/-- Register 1 is asked for, in vain, then register 2. The second call returns
    the address of the first register. -/
theorem stale_reply_get_reg :
    ∃ s, (link echo_board).Reachable s ∧ s.calls = [ascii "GET_REG 1", ascii "GET_REG 2"] ∧
      s.answers = [(ascii "GET_REG 1", ascii "OK 0x60002004\n"),
        (ascii "GET_REG 2", ascii "OK 0x60002008\n")] ∧
      s.results = [(0, .error .TimeoutError), (1, .ok (ascii "OK 0x60002004"))] ∧
      ¬ s.Whole := by
  obtain ⟨s, -, hreach, rfl, hcalls, hanswers, hresults⟩ := late_reply echo_board
    (.init ⟨power_on, rfl⟩) ⟨rfl, rfl, rfl, rfl⟩ (isCommand_words (.get_reg 1))
    (isCommand_words (.get_reg 2)) (q := .get_reg 1#5) (r := .get_reg 2#5) (by decide) (by decide)
  have hcalls' : s.calls = [ascii "GET_REG 1", ascii "GET_REG 2"] := hcalls
  have hanswers' : s.answers = [(ascii "GET_REG 1", ascii "OK 0x60002004\n"),
      (ascii "GET_REG 2", ascii "OK 0x60002008\n")] := by
    rw [hanswers]
    decide
  have hresults' : s.results =
      [(0, .error .TimeoutError), (1, .ok (ascii "OK 0x60002004"))] := by
    rw [hresults]
    rfl
  refine ⟨s, hreach, hcalls', hanswers', hresults', ?_⟩
  intro hwhole
  obtain ⟨command, reply, -, hanswer, -, hline, -⟩ :=
    hwhole 1 (ascii "OK 0x60002004") (by simp [hresults'])
  rw [hanswers'] at hanswer
  cases hanswer
  exact absurd hline (by decide)

end Host

end RiscvWorker
