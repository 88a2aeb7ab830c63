import RiscvWorker.Core.MockBench
import RiscvWorker.Library.Lts

/-! # Runs of the arbiter on the memory mock

  Over whole runs the two are a memory in which every store lands in the data
  half. It is the flat memory of the addresses as long as no store is meant
  for the instruction half, and every request that begins is finished.
-/

namespace RiscvWorker

open ByteMemory

namespace MockBench

/-! ### The log -/

section logs
variable {effect effect' : Memory → Request → Memory} {log : List (Request × Word)}

theorem FlatMemory.nil : FlatMemory effect [] := by
  intro pre r v post h
  have hlen := congrArg List.length h
  rw [List.length_append, List.length_cons, List.length_nil] at hlen
  omega

/-- A request that returns what is in memory is added to the log. -/
theorem FlatMemory.snoc (h : FlatMemory effect log) {r : Request} {v : Word}
    (hr : Returns (contents effect log) v r) : FlatMemory effect (log ++ [(r, v)]) := by
  intro pre q w post hsplit
  rcases List.eq_nil_or_concat post with rfl | ⟨post, p, rfl⟩
  · -- the new entry
    obtain ⟨hlog, hentry⟩ := List.append_inj' hsplit rfl
    cases hentry
    rw [← hlog]
    exact hr
  · -- an old one
    have hsplit' : log ++ [(r, v)] = (pre ++ (q, w) :: post) ++ [p] := by
      rw [hsplit, List.concat_eq_append, List.append_assoc, List.cons_append]
    exact h pre q w post (List.append_inj' hsplit' rfl).1

/-- Two effects that agree on the requests of a log leave the same memory. -/
theorem contents_congr (h : ∀ p ∈ log, ∀ M, effect M p.1 = effect' M p.1) :
    contents effect log = contents effect' log := by
  unfold contents
  generalize (fun _ => 0#8 : Memory) = M
  induction log generalizing M with
  | nil => rfl
  | cons p log ih =>
    rw [List.foldl_cons, List.foldl_cons, h p List.mem_cons_self M]
    exact ih (fun q hq => h q (List.mem_cons_of_mem p hq)) _

theorem FlatMemory.congr (h : ∀ p ∈ log, ∀ M, effect M p.1 = effect' M p.1)
    (hlog : FlatMemory effect log) : FlatMemory effect' log := by
  intro pre r v post hsplit
  have hpre : contents effect' pre = contents effect pre := by
    apply (contents_congr _).symm
    intro p hp
    apply h p
    rw [hsplit]
    exact List.mem_append_left _ hp
  rw [hpre]
  exact hlog pre r v post hsplit

end logs

/-! ### One cycle of the log -/

section cycle
variable {s : MockBench} {c : Choice}

theorem next_log_of_none (h : s.result c = none) : (s.next c).log = s.log := by
  show s.next_log c = s.log
  unfold next_log
  rw [h]
  cases s.driver <;> rfl

theorem next_log_of_some {r : Request} {v : Word} (hd : s.driver = .awaiting r)
    (hv : s.result c = some v) : (s.next c).log = s.log ++ [(r, v)] := by
  show s.next_log c = s.log ++ [(r, v)]
  unfold next_log
  rw [hd, hv]

/-- Only an accepted request has a result. -/
theorem awaiting_of_result {v : Word} (h : s.result c = some v) :
    ∃ r, s.driver = .awaiting r := by
  unfold result at h
  cases hd : s.driver with
  | free =>
    rw [hd] at h
    cases h
  | asking r =>
    rw [hd] at h
    cases h
  | awaiting r => exact ⟨r, rfl⟩

/-- A result is what the memory of the log holds. -/
theorem Phase.returns (h : Phase s) {r : Request} {v : Word} (hd : s.driver = .awaiting r)
    (hv : s.result c = some v) : Returns (contents landed s.log) v r := by
  cases h with
  | free => cases hd
  | fetch_asked => cases hd
  | @fetch_data i d br rr la ld rd log pc hr hM hrd =>
    cases hd
    have hv' : (if (true && c.idle.instruction_ready) = true then some rd else none) = some v := hv
    split at hv'
    · cases hv'
      exact hrd
    · cases hv'
  | load_asked => cases hv
  | load_ready => cases hv
  | load_data => cases hv
  | load_result a hM hld =>
    cases hd
    cases hv
    exact hld
  | store_asked => cases hv
  | store_data => cases hv
  | store_resp => cases hv
  | store_result x v' strb hM =>
    cases hd
    exact True.intro

end cycle

/-! ### Where the stores go -/

/-- What every run keeps: the phases, and a log of the memory whose stores
    land in the data half. -/
structure Invariant (s : MockBench) : Prop where
  phase : Phase s
  log : FlatMemory landed s.log

theorem invariant_reset : Invariant reset := ⟨phase_reset, FlatMemory.nil⟩

theorem Invariant.next {s : MockBench} (h : Invariant s) {c : Choice}
    (hc : s.driver = .free → ∀ r, c.start = some r → r.InRange) : Invariant (s.next c) := by
  refine ⟨h.phase.next c hc, ?_⟩
  cases hv : s.result c with
  | none =>
    rw [next_log_of_none hv]
    exact h.log
  | some v =>
    obtain ⟨r, hd⟩ := awaiting_of_result hv
    rw [next_log_of_some hd hv]
    exact h.log.snoc (h.phase.returns hd hv)

theorem reachable_invariant {s : MockBench} (h : system.Reachable s) : Invariant s := by
  apply h.invariant
  · intro s hs
    rw [show s = reset from hs]
    exact invariant_reset
  · intro s c s' hs hstep
    obtain ⟨hc, rfl⟩ := hstep
    exact hs.next hc

/-! ### Stores in their place -/

/-- A store that writes a byte is for the data half. -/
def Request.InPlace : Request → Prop
  | .store a _ strb => strb = 0#4 ∨ a.getLsbD 12 = false
  | _ => True

/-- The requests that begin keep the stores in their place. -/
def in_place (s : MockBench) (c : Choice) : Prop :=
  s.driver = .free → ∀ r, c.start = some r → r.InPlace

theorem data_half_of_low {a : Word} (ha : a.toNat < 0x2000) (hlow : a.getLsbD 12 = false) :
    data_half a = a := by
  have hhalf : ¬ 0x1000 ≤ a.toNat := by
    rw [← selector_iff ha, AxiMemoryMock.memory_selector, hlow]
    simp
  apply BitVec.eq_of_toNat_eq
  rw [data_half, BitVec.toNat_setWidth, BitVec.extractLsb'_toNat, Nat.shiftRight_zero]
  omega

/-- Without strobes a bus write changes nothing. -/
theorem write_word_zero (M : Memory) (a d : Word) : write_word M a d 0#4 = M := by
  funext b
  rw [write_word, if_neg]
  intro h
  rw [BitVec.getLsbD_zero] at h
  exact absurd h.2 (by simp)

theorem landed_eq_stored {r : Request} (hr : r.InRange) (hp : r.InPlace) (M : Memory) :
    landed M r = stored M r := by
  cases r with
  | fetch pc => rfl
  | load a => rfl
  | store a d strb =>
    show write_word M (data_half a) d strb = write_word M a d strb
    rcases hp with hstrb | hlow
    · rw [hstrb, write_word_zero, write_word_zero]
    · have hself : data_half a = a := data_half_of_low hr hlow
      rw [hself]

/-- The request of the driver. -/
def Driver.serves : Driver → Request → Prop
  | .free, _ => False
  | .asking q, r => q = r
  | .awaiting q, r => q = r

/-- Every request so far was in range and in its place. -/
structure AllInPlace (s : MockBench) : Prop where
  driver : ∀ r, Driver.serves s.driver r → r.InRange ∧ r.InPlace
  log : ∀ p ∈ s.log, p.1.InRange ∧ p.1.InPlace

/-- The next request is the one that begins, or the same. -/
theorem serves_next {s : MockBench} {c : Choice} {r : Request}
    (h : Driver.serves (s.next c).driver r) :
    (s.driver = .free ∧ c.start = some r) ∨ Driver.serves s.driver r := by
  have h' : Driver.serves (s.next_driver c) r := h
  unfold next_driver at h'
  cases hd : s.driver with
  | free =>
    rw [hd] at h'
    cases hstart : c.start with
    | none =>
      rw [hstart] at h'
      exact absurd h' id
    | some q =>
      rw [hstart] at h'
      dsimp only at h'
      split at h'
      · exact .inl ⟨rfl, congrArg some h'⟩
      · exact .inl ⟨rfl, congrArg some h'⟩
  | asking q =>
    rw [hd] at h'
    dsimp only at h'
    split at h'
    · exact .inr h'
    · exact .inr h'
  | awaiting q =>
    rw [hd] at h'
    dsimp only at h'
    split at h'
    · exact absurd h' id
    · exact .inr h'

theorem AllInPlace.next {s : MockBench} (h : AllInPlace s) {c : Choice}
    (hrange : s.driver = .free → ∀ r, c.start = some r → r.InRange) (hplace : in_place s c) :
    AllInPlace (s.next c) where
  driver := by
    intro r hr
    rcases serves_next hr with ⟨hfree, hstart⟩ | hold
    · exact ⟨hrange hfree r hstart, hplace hfree r hstart⟩
    · exact h.driver r hold
  log := by
    intro p hp
    cases hv : s.result c with
    | none =>
      rw [next_log_of_none hv] at hp
      exact h.log p hp
    | some v =>
      obtain ⟨r, hd⟩ := awaiting_of_result hv
      rw [next_log_of_some hd hv, List.mem_append, List.mem_singleton] at hp
      rcases hp with hold | rfl
      · exact h.log p hold
      · apply h.driver r
        rw [hd]
        rfl

theorem AllInPlace.of_reachable {s : MockBench} (h : (system.restrict in_place).Reachable s) :
    AllInPlace s := by
  apply h.invariant
  · intro s hs
    rw [show s = reset from hs]
    refine ⟨fun r hr => absurd hr id, ?_⟩
    intro p hp
    exact absurd hp (List.not_mem_nil)
  · intro s c s' hs hstep
    obtain ⟨⟨hrange, rfl⟩, hplace⟩ := hstep
    exact hs.next hrange hplace

/-! ### Requests are finished -/

/-- Clock edges before the result, the wait for `instruction_ready` apart. -/
def remaining (s : MockBench) : Nat :=
  match s.arbiter.state with
  | .pc_wait_arready => 1
  | .l_wait_arready => if s.mock.arready then 2 else 3
  | .l_data => 1
  | .s_wait_both => 3
  | .s_wait_wready => 2
  | .s_resp => 1
  | _ => 0

/-- A request that begins is served from the next cycle on. -/
theorem begins {s : MockBench} {c : Choice} {r : Request}
    (hd : s.driver = .free) (hstart : c.start = some r) :
    Driver.serves (s.next c).driver r ∧ (s.next c).log = s.log := by
  have hdriver : (s.next c).driver = if s.accepted c then .awaiting r else .asking r := by
    show s.next_driver c = _
    unfold next_driver
    rw [hd, hstart]
  have hlog : (s.next c).log = s.log := by
    show s.next_log c = s.log
    unfold next_log
    rw [hd]
  refine ⟨?_, hlog⟩
  rw [hdriver]
  split <;> rfl

/-- Without a result the request stays, and comes closer to its result unless
    the consumer of a fetch is not ready. -/
theorem Phase.approaches {s : MockBench} (h : Phase s) {c : Choice} {r : Request}
    (hs : Driver.serves s.driver r) (hnone : s.result c = none) :
    Driver.serves (s.next c).driver r ∧
      (remaining (s.next c) < remaining s ∨
        c.idle.instruction_ready = false ∧ remaining (s.next c) = remaining s) := by
  cases h with
  | free => exact absurd hs id
  | fetch_asked => exact ⟨hs, .inl (Nat.lt_succ_self 0)⟩
  | fetch_data pc hr hM hrd =>
    obtain ⟨start, keep, idle⟩ := c
    obtain ⟨port, pc_valid, idle_pc, ready, ls_valid, ls_addr, ls_write, strb, data⟩ := idle
    cases ready with
    | true => cases hnone
    | false => exact ⟨hs, .inr ⟨rfl, rfl⟩⟩
  | load_asked => exact ⟨hs, .inl (Nat.lt_succ_self 2)⟩
  | load_ready => exact ⟨hs, .inl (Nat.lt_succ_self 1)⟩
  | load_data => exact ⟨hs, .inl (Nat.lt_succ_self 0)⟩
  | load_result => cases hnone
  | store_asked => exact ⟨hs, .inl (Nat.lt_succ_self 2)⟩
  | store_data => exact ⟨hs, .inl (Nat.lt_succ_self 1)⟩
  | store_resp => exact ⟨hs, .inl (Nat.lt_succ_self 0)⟩
  | store_result => cases hnone

/-- Every request that begins gets its result, if the consumer of the fetches
    is ready again and again. -/
theorem request_finishes {e : Lts.Execution MockBench Choice} (hv : system.valid_exec e)
    (hready : ∀ k, ∃ j, k ≤ j ∧ (e.labels j).idle.instruction_ready = true)
    {k : Nat} {r : Request} (hfree : (e.states k).driver = .free)
    (hstart : (e.labels k).start = some r) :
    ∃ j v, k < j ∧ (e.states (j + 1)).log = (e.states k).log ++ [(r, v)] := by
  have hphase : ∀ j, Phase (e.states j) := fun j => (reachable_invariant (hv.reachable j)).phase
  have hnext : ∀ j, e.states (j + 1) = (e.states j).next (e.labels j) := fun j => (hv.2 j).2
  -- the request is served, and nothing else is added to the log
  let P : Nat → Prop := fun j =>
    Driver.serves (e.states j).driver r ∧ (e.states j).log = (e.states k).log
  let go : Nat → Prop := fun j => ∃ v, (e.states j).result (e.labels j) = some v
  have hnone : ∀ j, ¬ go j → (e.states j).result (e.labels j) = none := by
    intro j hgo
    cases hres : (e.states j).result (e.labels j) with
    | none => rfl
    | some v => exact absurd ⟨v, hres⟩ hgo
  have hstep : ∀ j, P j → ¬ go j → P (j + 1) ∧
      (remaining (e.states (j + 1)) < remaining (e.states j) ∨
        (e.labels j).idle.instruction_ready = false ∧
          remaining (e.states (j + 1)) = remaining (e.states j)) := by
    intro j hP hgo
    obtain ⟨hserves, hcloser⟩ := (hphase j).approaches hP.1 (hnone j hgo)
    have hlog := next_log_of_none (hnone j hgo)
    rw [← hnext] at hserves hcloser hlog
    exact ⟨⟨hserves, hlog.trans hP.2⟩, hcloser⟩
  have hP : P (k + 1) := by
    have hbegins := begins hfree hstart
    rw [← hnext] at hbegins
    exact hbegins
  have hkeep : ∀ j, P j → ¬ go j →
      P (j + 1) ∧ remaining (e.states (j + 1)) ≤ remaining (e.states j) := by
    intro j hPj hgo
    obtain ⟨hPj', hcloser⟩ := hstep j hPj hgo
    rcases hcloser with hlt | ⟨-, heq⟩
    · exact ⟨hPj', Nat.le_of_lt hlt⟩
    · exact ⟨hPj', Nat.le_of_eq heq⟩
  have hfair : ∀ i, P i →
      (∀ j, i ≤ j → P j ∧ ¬ go j ∧ remaining (e.states j) = remaining (e.states i)) → False := by
    intro i _ hall
    obtain ⟨j, hij, hj⟩ := hready i
    obtain ⟨hPj, hgo, hrank⟩ := hall j hij
    obtain ⟨-, -, hrank'⟩ := hall (j + 1) (by omega)
    -- in the cycle in which the consumer is ready the rank drops
    rcases (hstep j hPj hgo).2 with hlt | ⟨hnot, -⟩
    · omega
    · rw [hj] at hnot
      cases hnot
  have hfirst := Lts.exists_first_of_rank (fun j => remaining (e.states j)) hkeep hfair hP
  obtain ⟨j, hkj, ⟨v, hres⟩, ⟨hserves, hlog⟩, -⟩ := hfirst
  obtain ⟨q, hq⟩ := awaiting_of_result hres
  rw [hq] at hserves
  obtain rfl : q = r := hserves
  refine ⟨j, v, by omega, ?_⟩
  rw [hnext, next_log_of_some hq hres, hlog]

/-! ### Flat memory -/

/-- Every fetch and load returns what the stores before it left in a flat
    memory, and every request that begins is finished. -/
theorem arbiter_mock_flat_memory (e : Lts.Execution MockBench Choice)
    (hv : (system.restrict in_place).valid_exec e) :
    (∀ k, FlatMemory stored (e.states k).log) ∧
      ((∀ k, ∃ j, k ≤ j ∧ (e.labels j).idle.instruction_ready = true) →
        ∀ k r, (e.states k).driver = .free → (e.labels k).start = some r →
          ∃ j v, k < j ∧ (e.states (j + 1)).log = (e.states k).log ++ [(r, v)]) := by
  have hv' : system.valid_exec e := ⟨hv.1, fun k => (hv.2 k).1⟩
  constructor
  · intro k
    have hplace := (AllInPlace.of_reachable (hv.reachable k)).log
    have hland : ∀ p ∈ (e.states k).log, ∀ M, landed M p.1 = stored M p.1 := by
      intro p hp M
      exact landed_eq_stored (hplace p hp).1 (hplace p hp).2 M
    exact (reachable_invariant (hv'.reachable k)).log.congr hland
  · intro hready k r hfree hstart
    exact request_finishes hv' hready hfree hstart

/-- One request, and from the sixth cycle on another one, with the consumer
    always ready. -/
def one_then (r q : Request) : Lts.Execution MockBench Choice :=
  .of_inputs MockBench.next reset fun k =>
    { start := some (if k < 5 then r else q)
      keep_valid := false
      idle := ⟨AxiLite.Slave.idle, false, 0#32, true, false, 0#32, false, 0#4, 0#32⟩ }

theorem one_then_valid {allowed : Request → Prop} {r q : Request} (hr : allowed r)
    (hq : allowed q) (k : Nat) (p : Request) (hp : ((one_then r q).labels k).start = some p) :
    allowed p := by
  have hp' : some (if k < 5 then r else q) = some p := hp
  rw [Option.some.injEq] at hp'
  rw [← hp']
  split
  · exact hr
  · exact hq

/-- Two bytes are stored and loaded. -/
theorem arbiter_mock_flat_memory_bytes :
    FlatMemory stored
        ((one_then (.store 0x10#32 0x11223344#32 0b0101#4) (.load 0x12#32)).states 11).log ∧
      ((one_then (.store 0x10#32 0x11223344#32 0b0101#4) (.load 0x12#32)).states 11).log =
        [(.store 0x10#32 0x11223344#32 0b0101#4, 0#32), (.load 0x12#32, 0x00220044#32)] := by
  have hv : (system.restrict in_place).valid_exec
      (one_then (.store 0x10#32 0x11223344#32 0b0101#4) (.load 0x12#32)) := by
    refine ⟨rfl, fun k =>
      ⟨⟨fun _ => one_then_valid ?_ ?_ k, rfl⟩, fun _ => one_then_valid ?_ ?_ k⟩⟩
    · show 0x10 < 0x2000
      omega
    · show 0x12 < 0x2000
      omega
    · exact .inr rfl
    · exact True.intro
  exact ⟨(arbiter_mock_flat_memory _ hv).1 11, by decide +kernel⟩

/-- A word stored in the instruction half is not what is fetched there. -/
theorem store_to_instructions_lost :
    ¬ ∀ e : Lts.Execution MockBench Choice, system.valid_exec e →
      ∀ k, FlatMemory stored (e.states k).log := by
  intro h
  have hv : system.valid_exec
      (one_then (.store 0x1000#32 0xDEADBEEF#32 0b1111#4) (.fetch 0x1000#32)) := by
    refine ⟨rfl, fun k => ⟨fun _ => one_then_valid ?_ ?_ k, rfl⟩⟩
    · show 0x1000 < 0x2000
      omega
    · show 0x1000 < 0x2000
      omega
  have hflat := h _ hv 8
  have hlog : ((one_then (.store 0x1000#32 0xDEADBEEF#32 0b1111#4)
      (.fetch 0x1000#32)).states 8).log =
      [(.store 0x1000#32 0xDEADBEEF#32 0b1111#4, 0#32), (.fetch 0x1000#32, 0#32)] := by
    decide +kernel
  rw [hlog] at hflat
  have hret : Returns (contents stored [(.store 0x1000#32 0xDEADBEEF#32 0b1111#4, 0#32)]) 0#32
      (.fetch 0x1000#32) := hflat [_] _ _ [] rfl
  have hword : 0#32 = read_word (write_word (fun _ => 0#8) 0x1000#32 0xDEADBEEF#32 0b1111#4)
      0x1000#32 := hret
  rw [WordStore.read_word_write_word, read_word_zero] at hword
  revert hword
  decide

end MockBench

end RiscvWorker
