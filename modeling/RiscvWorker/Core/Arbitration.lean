import RiscvWorker.Core.StallGate
import RiscvWorker.Core.Token

/-! # The arbiter between its two requesters

  The arbiter alone, with a fetch requester, a load/store requester and a
  slave around it. Whatever the interleaving of the requests, the history of
  its ports is a sequence of blocks: one request, its transfers with its own
  address and data, and its result.
-/

namespace RiscvWorker

open AxiLite (Master Slave aw_handshake w_handshake b_handshake ar_handshake r_handshake)

/-- What can happen on the ports of the arbiter. -/
inductive ArbiterEvent where
  /-- A fetch is accepted. -/
  | fetch (pc : Word)
  | instruction (w : Word)
  /-- A load or a store is accepted. -/
  | load (addr : Word)
  | store (addr data : Word) (strb : BitVec 4)
  /-- The result pulse, with the load data. -/
  | result (load_data : Word)
  | transfer (t : Transfer)
  deriving DecidableEq, Repr

namespace MemoryArbiter

/-- The arbiter in an arbitrary environment. -/
def system : Lts.System MemoryArbiter Input where
  init a := a = reset
  step a i a' := a' = a.next i

/-! ### What happens in a cycle -/

section cycle
variable (a : MemoryArbiter) (i : Input)

def fetch_accepted : Bool := i.pc_valid && a.pc_ready i

def load_store_accepted : Bool := i.load_store_valid && a.load_store_ready i

def instruction_handshake : Bool := a.instruction_valid i && i.instruction_ready

/-- The accepted load or store. -/
def request : ArbiterEvent :=
  if i.load_store_is_write then .store i.load_store_addr i.store_data i.store_strobe
  else .load i.load_store_addr

/-- The events of one cycle. A result belongs to an earlier request than the
    one accepted in the same cycle, an instruction to an earlier transfer. -/
def events : List ArbiterEvent :=
  (if a.load_store_result_valid then [.result a.load_data] else []) ++
  (if a.fetch_accepted i then [.fetch i.pc] else []) ++
  (if a.load_store_accepted i then [request i] else []) ++
  (transfers (a.m_axi i) i.m_axi).map .transfer ++
  (if a.instruction_handshake i then [.instruction (a.instruction i)] else [])

end cycle

/-- The events of one request, served completely. -/
inductive Served : List ArbiterEvent → Prop where
  | fetch (pc w : Word) :
      Served [.fetch pc, .transfer (.ar pc), .transfer (.r w), .instruction w]
  | load (x d : Word) : Served [.load x, .transfer (.ar x), .transfer (.r d), .result d]
  | store (x d : Word) (strb : BitVec 4) (v : Word) :
      Served [.store x d strb, .transfer (.aw x), .transfer (.w d strb), .transfer .b, .result v]
  | store_data_first (x d : Word) (strb : BitVec 4) (v : Word) :
      Served [.store x d strb, .transfer (.w d strb), .transfer (.aw x), .transfer .b, .result v]

/-! ### The requesters -/

/-- What a load/store requester holds until its result. -/
def Input.payload (i : Input) : Word × Bool × BitVec 4 × Word :=
  (i.load_store_addr, i.load_store_is_write, i.store_strobe, i.store_data)

section requesters
variable (e : Lts.Execution MemoryArbiter Input)

/-- A load or store was accepted before cycle `k`, and its result did not come
    before cycle `k`. -/
def waiting : Nat → Bool
  | 0 => false
  | k + 1 => (e.states k).load_store_accepted (e.labels k) ||
      (waiting k && !(e.states k).load_store_result_valid)

/-- The two requesters keep to the protocol. -/
structure Requesters : Prop where
  fetch_held : ∀ k, (e.labels k).pc_valid = true → (e.states k).pc_ready (e.labels k) = false →
    (e.labels (k + 1)).pc_valid = true ∧ (e.labels (k + 1)).pc = (e.labels k).pc
  request_held : ∀ k, (e.labels k).load_store_valid = true →
    (e.states k).load_store_ready (e.labels k) = false →
    (e.labels (k + 1)).load_store_valid = true ∧
      (e.labels (k + 1)).payload = (e.labels k).payload
  /-- Before the result there is no other request, and the payload is held. -/
  result_awaited : ∀ k, waiting e (k + 1) = true →
    (e.states (k + 1)).load_store_result_valid = false →
    (e.labels (k + 1)).load_store_valid = false ∧
      (e.labels (k + 1)).payload = (e.labels k).payload

/-- A slave and an instruction consumer that keep nobody waiting for ever. -/
structure Responsive : Prop where
  arready : ∀ k, (∀ j, k ≤ j → ((e.states j).m_axi (e.labels j)).arvalid = true) →
    ∃ j, k ≤ j ∧ (e.labels j).m_axi.arready = true
  awready : ∀ k, (∀ j, k ≤ j → ((e.states j).m_axi (e.labels j)).awvalid = true) →
    ∃ j, k ≤ j ∧ (e.labels j).m_axi.awready = true
  wready : ∀ k, (∀ j, k ≤ j → ((e.states j).m_axi (e.labels j)).wvalid = true) →
    ∃ j, k ≤ j ∧ (e.labels j).m_axi.wready = true
  bvalid : ∀ k, (∀ j, k ≤ j → ((e.states j).m_axi (e.labels j)).bready = true) →
    ∃ j, k ≤ j ∧ (e.labels j).m_axi.bvalid = true
  /-- An accepted address is answered. -/
  rvalid : ∀ k, ar_handshake ((e.states k).m_axi (e.labels k)) (e.labels k).m_axi = true →
    ∃ j, k < j ∧ (e.labels j).m_axi.rvalid = true
  /-- An answer is held until it is taken. -/
  rheld : ∀ k, (e.labels k).m_axi.rvalid = true →
    ((e.states k).m_axi (e.labels k)).rready = false → (e.labels (k + 1)).m_axi.rvalid = true
  instruction_ready : ∀ k, ∃ j, k ≤ j ∧ (e.labels j).instruction_ready = true

end requesters

/-! ### The request in service -/

/-- The events so far of the request in service; `i` holds its payload. -/
def InService (a : MemoryArbiter) (i : Input) (tail : List ArbiterEvent) : Prop :=
  match a.state with
  | .idle =>
    if a.load_store_result_valid then Served (tail ++ [.result a.load_data]) else tail = []
  | .pc_wait_arready => tail = [] ∧ i.pc_valid = true
  | .pc_data => ∃ pc, tail = [.fetch pc, .transfer (.ar pc)]
  | .l_wait_arready => tail = [.load i.load_store_addr]
  | .l_data => ∃ x, tail = [.load x, .transfer (.ar x)]
  | .s_wait_both => tail = [.store i.load_store_addr i.store_data i.store_strobe]
  | .s_wait_awready =>
    tail = [.store i.load_store_addr i.store_data i.store_strobe,
      .transfer (.w i.store_data i.store_strobe)]
  | .s_wait_wready =>
    tail = [.store i.load_store_addr i.store_data i.store_strobe,
      .transfer (.aw i.load_store_addr)]
  | .s_resp => ∃ x d strb,
    tail = [.store x d strb, .transfer (.aw x), .transfer (.w d strb)] ∨
      tail = [.store x d strb, .transfer (.w d strb), .transfer (.aw x)]

section step
variable {a : MemoryArbiter} {i i' : Input} {tail : List ArbiterEvent}

/-- The events of a cycle besides the result, state by state. -/
def service_events (a : MemoryArbiter) (i : Input) : List ArbiterEvent :=
  match a.state with
  | .idle =>
    if i.pc_valid then
      if i.m_axi.arready then [.fetch i.pc, .transfer (.ar i.pc)] else []
    else if i.load_store_valid then [request i] else []
  | .pc_wait_arready =>
    if i.m_axi.arready then
      (if i.pc_valid then [.fetch i.pc] else []) ++ [.transfer (.ar i.pc)]
    else []
  | .pc_data =>
    if i.m_axi.rvalid && i.instruction_ready then
      [.transfer (.r i.m_axi.rdata), .instruction i.m_axi.rdata]
    else []
  | .l_wait_arready => if i.m_axi.arready then [.transfer (.ar i.load_store_addr)] else []
  | .l_data => if i.m_axi.rvalid then [.transfer (.r i.m_axi.rdata)] else []
  | .s_wait_both =>
    (if i.m_axi.awready then [.transfer (.aw i.load_store_addr)] else []) ++
      (if i.m_axi.wready then [.transfer (.w i.store_data i.store_strobe)] else [])
  | .s_wait_awready => if i.m_axi.awready then [.transfer (.aw i.load_store_addr)] else []
  | .s_wait_wready =>
    if i.m_axi.wready then [.transfer (.w i.store_data i.store_strobe)] else []
  | .s_resp => if i.m_axi.bvalid then [.transfer .b] else []

theorem events_eq (a : MemoryArbiter) (i : Input) :
    a.events i =
      (if a.load_store_result_valid then [.result a.load_data] else []) ++
        a.service_events i := by
  rcases a with ⟨state, pulse, data⟩
  -- with the state fixed, every handshake is an input
  cases state
  all_goals
    simp only [events, List.append_assoc]
    congr 1
    simp [service_events, fetch_accepted, load_store_accepted, instruction_handshake, transfers,
      aw_handshake, w_handshake, b_handshake, ar_handshake, r_handshake, m_axi, arvalid, araddr,
      rready, pc_ready, load_store_ready, instruction_valid, instruction]
    repeat' split
  all_goals simp_all

theorem next_pulse_idle (h : (a.next i).load_store_result_valid = true) :
    (a.next i).state = .idle := by
  have hnext : (a.next i).state = a.next_state i := rfl
  simp only [next] at h
  rw [hnext]
  split at h
  · rename_i hl
    exact hl.2
  split at h
  · rename_i hl
    exact hl.2
  · exact absurd h (by decide)

/-- The pulse ends the block of the request before. -/
theorem InService.pulse (h : InService a i tail) (hidle : a.state = .idle) :
    Lts.InBlocks Served (· = [])
      (tail ++ if a.load_store_result_valid then [.result a.load_data] else []) := by
  unfold InService at h
  rw [hidle] at h
  cases hv : a.load_store_result_valid with
  | true =>
    rw [hv] at h
    exact .of_block h rfl
  | false =>
    rw [hv] at h
    exact .of_rest (by simpa using h)

/-- A fetch, a load or store, or nothing begins. -/
theorem InService.begin (hst : a.state = .idle)
    (hfetch : i.pc_valid = true → a.pc_ready i = false → i'.pc_valid = true)
    (hheld : (a.next_state i).is_load_store = true → i'.payload = i.payload) :
    InService (a.next i) i' (a.service_events i) := by
  have hnext : (a.next i).state = a.next_state i := rfl
  have hq : (a.next i).load_store_result_valid = false := by simp [MemoryArbiter.next, hst]
  unfold InService
  rw [hnext, hq]
  simp only [next_state, service_events, hst]
  simp only [next_state, hst] at hheld
  cases hpc : i.pc_valid with
  | true =>
    cases har : i.m_axi.arready with
    | true => simp [arvalid, hst, hpc]
    | false =>
      have hready : a.pc_ready i = false := by simp [pc_ready, hst, har]
      simp [hfetch hpc hready]
  | false =>
    cases hls : i.load_store_valid with
    | false => simp
    | true =>
      cases hw : i.load_store_is_write with
      | true => simp_all [load_store_ready, request, Input.payload, ArbiterState.is_load_store]
      | false => simp_all [load_store_ready, request, Input.payload, ArbiterState.is_load_store]

/-- The request in service over one clock edge. While a load or store is in
    service its payload is held, and a fetch is held until it is accepted. -/
theorem InService.next (h : InService a i tail)
    (hpulse : a.load_store_result_valid = true → a.state = .idle)
    (hfetch : i.pc_valid = true → a.pc_ready i = false → i'.pc_valid = true)
    (hheld : (a.next_state i).is_load_store = true → i'.payload = i.payload) :
    Lts.InBlocks Served (InService (a.next i) i') (tail ++ a.events i) := by
  have hnext : (a.next i).state = a.next_state i := rfl
  -- outside IDLE there is no pulse
  have hevents : a.state ≠ .idle → a.events i = a.service_events i := by
    intro hne
    have hv : a.load_store_result_valid = false :=
      Bool.eq_false_of_not_eq_true (fun hv => hne (hpulse hv))
    rw [events_eq, hv]
    rfl
  by_cases hidle : a.state = .idle
  · rw [events_eq, ← List.append_assoc]
    refine (h.pulse hidle).append ?_
    rintro _ rfl
    exact .of_rest (InService.begin hidle hfetch hheld)
  rw [hevents hidle]
  unfold InService at h
  cases hst : a.state with
  | idle => exact absurd hst hidle
  | pc_wait_arready =>
    rw [hst] at h
    obtain ⟨rfl, hpc⟩ := h
    apply Lts.InBlocks.of_rest
    unfold InService
    rw [hnext]
    simp only [next_state, service_events, hst, hpc]
    cases har : i.m_axi.arready with
    | true => simp
    | false =>
      have hready : a.pc_ready i = false := by simp [pc_ready, hst, har]
      simp [hfetch hpc hready]
  | pc_data =>
    rw [hst] at h
    obtain ⟨pc, rfl⟩ := h
    cases hgo : i.m_axi.rvalid && i.instruction_ready with
    | true =>
      -- the instruction completes the block
      refine .of_block ?_ ?_
      · simpa [service_events, hst, hgo] using Served.fetch pc i.m_axi.rdata
      · unfold InService
        rw [hnext]
        simp [next_state, MemoryArbiter.next, hst, hgo]
    | false =>
      apply Lts.InBlocks.of_rest
      unfold InService
      rw [hnext]
      simp [next_state, service_events, hst, hgo]
  | l_wait_arready =>
    rw [hst] at h
    obtain rfl := h
    apply Lts.InBlocks.of_rest
    unfold InService
    rw [hnext]
    simp only [next_state, service_events, hst] at hheld ⊢
    cases har : i.m_axi.arready with
    | true => simp
    | false => simp_all [Input.payload, ArbiterState.is_load_store]
  | l_data =>
    rw [hst] at h
    obtain ⟨x, rfl⟩ := h
    apply Lts.InBlocks.of_rest
    unfold InService
    rw [hnext]
    simp only [next_state, service_events, hst]
    cases hrv : i.m_axi.rvalid with
    | true => simpa [MemoryArbiter.next, next_state, hst, hrv] using Served.load x i.m_axi.rdata
    | false => simp
  | s_wait_both =>
    rw [hst] at h
    obtain rfl := h
    apply Lts.InBlocks.of_rest
    unfold InService
    rw [hnext]
    simp only [next_state, service_events, hst] at hheld ⊢
    -- neither, the data, the address, or both are accepted
    cases haw : i.m_axi.awready <;> cases hw : i.m_axi.wready <;>
      simp_all [Input.payload, ArbiterState.is_load_store]
  | s_wait_awready =>
    rw [hst] at h
    obtain rfl := h
    apply Lts.InBlocks.of_rest
    unfold InService
    rw [hnext]
    simp only [next_state, service_events, hst] at hheld ⊢
    cases haw : i.m_axi.awready with
    | true => simp
    | false => simp_all [Input.payload, ArbiterState.is_load_store]
  | s_wait_wready =>
    rw [hst] at h
    obtain rfl := h
    apply Lts.InBlocks.of_rest
    unfold InService
    rw [hnext]
    simp only [next_state, service_events, hst] at hheld ⊢
    cases hw : i.m_axi.wready with
    | true => simp
    | false => simp_all [Input.payload, ArbiterState.is_load_store]
  | s_resp =>
    rw [hst] at h
    obtain ⟨x, d, strb, hb⟩ := h
    apply Lts.InBlocks.of_rest
    unfold InService
    rw [hnext]
    simp only [next_state, service_events, hst]
    cases hbv : i.m_axi.bvalid with
    | true =>
      rcases hb with rfl | rfl
      · simpa [MemoryArbiter.next, next_state, hst, hbv] using Served.store x d strb _
      · simpa [MemoryArbiter.next, next_state, hst, hbv] using Served.store_data_first x d strb _
    | false =>
      rcases hb with rfl | rfl
      · simp
      · simp

/-- A request in service is not served completely yet. -/
theorem InService.unfinished (h : InService a i tail) :
    ∃ rest, rest ≠ [] ∧ Served (tail ++ rest) := by
  unfold InService at h
  cases hst : a.state with
  | idle =>
    rw [hst] at h
    cases hv : a.load_store_result_valid with
    | true =>
      rw [hv] at h
      exact ⟨[.result a.load_data], by simp, h⟩
    | false =>
      rw [hv] at h
      obtain rfl : tail = [] := h
      exact ⟨_, by simp, .fetch 0 0⟩
  | pc_wait_arready =>
    rw [hst] at h
    obtain rfl := h.1
    exact ⟨_, by simp, .fetch 0 0⟩
  | pc_data =>
    rw [hst] at h
    obtain ⟨pc, rfl⟩ := h
    exact ⟨[.transfer (.r 0), .instruction 0], by simp, .fetch pc 0⟩
  | l_wait_arready =>
    rw [hst] at h
    obtain rfl := h
    exact ⟨[.transfer (.ar i.load_store_addr), .transfer (.r 0), .result 0], by simp, .load _ 0⟩
  | l_data =>
    rw [hst] at h
    obtain ⟨x, rfl⟩ := h
    exact ⟨[.transfer (.r 0), .result 0], by simp, .load x 0⟩
  | s_wait_both =>
    rw [hst] at h
    obtain rfl := h
    exact ⟨[.transfer (.aw i.load_store_addr), .transfer (.w i.store_data i.store_strobe),
      .transfer .b, .result 0], by simp, .store _ _ _ 0⟩
  | s_wait_awready =>
    rw [hst] at h
    obtain rfl := h
    exact ⟨[.transfer (.aw i.load_store_addr), .transfer .b, .result 0], by simp,
      .store_data_first _ _ _ 0⟩
  | s_wait_wready =>
    rw [hst] at h
    obtain rfl := h
    exact ⟨[.transfer (.w i.store_data i.store_strobe), .transfer .b, .result 0], by simp,
      .store _ _ _ 0⟩
  | s_resp =>
    rw [hst] at h
    obtain ⟨x, d, strb, rfl | rfl⟩ := h
    · exact ⟨[.transfer .b, .result 0], by simp, .store x d strb 0⟩
    · exact ⟨[.transfer .b, .result 0], by simp, .store_data_first x d strb 0⟩

end step

/-! ### Runs -/

section run
variable {e : Lts.Execution MemoryArbiter Input} (hv : system.valid_exec e)
include hv

theorem pulse_idle {k : Nat} (h : (e.states k).load_store_result_valid = true) :
    (e.states k).state = .idle := by
  cases k with
  | zero =>
    have hinit : e.states 0 = reset := hv.1
    rw [hinit]
    rfl
  | succ k =>
    rw [hv.2 k] at h ⊢
    exact next_pulse_idle h

theorem no_pulse {k : Nat} (h : (e.states k).state ≠ .idle) :
    (e.states k).load_store_result_valid = false :=
  Bool.eq_false_of_not_eq_true (fun hp => h (pulse_idle hv hp))

/-- The arbiter works on a load or store only while its result is awaited. -/
theorem waiting_of_load_store {k : Nat} (h : (e.states k).state.is_load_store = true) :
    waiting e k = true := by
  induction k with
  | zero =>
    have hinit : e.states 0 = reset := hv.1
    rw [hinit] at h
    exact absurd h (by decide)
  | succ k ih =>
    have hs : (e.states (k + 1)).state = (e.states k).next_state (e.labels k) := by
      rw [hv.2 k]
      rfl
    rw [waiting]
    cases hls : (e.states k).state.is_load_store with
    | true =>
      -- the request accepted earlier is still the one in service
      have hne : (e.states k).state ≠ .idle := by
        intro hc
        rw [hc] at hls
        exact absurd hls (by decide)
      rw [ih hls, no_pulse hv hne]
      simp
    | false =>
      rw [hs] at h
      have hacc : (e.states k).load_store_accepted (e.labels k) = true := by
        revert h
        unfold next_state load_store_accepted
        cases hst : (e.states k).state <;> rw [hst] at hls <;> (repeat' split) <;>
          simp_all [ArbiterState.is_load_store]
      rw [hacc, Bool.true_or]

theorem payload_kept (hr : Requesters e) {k : Nat}
    (h : ((e.states k).next_state (e.labels k)).is_load_store = true) :
    (e.labels (k + 1)).payload = (e.labels k).payload := by
  have hs : (e.states (k + 1)).state.is_load_store = true := by
    rw [hv.2 k]
    exact h
  have hne : (e.states (k + 1)).state ≠ .idle := by
    intro hc
    rw [hc] at hs
    exact absurd hs (by decide)
  exact (hr.result_awaited k (waiting_of_load_store hv hs) (no_pulse hv hne)).2

/-- The history of the ports is a sequence of served requests, and the
    beginning of one more. -/
theorem served (hr : Requesters e) (k : Nat) :
    ∃ (blocks : List (List ArbiterEvent)) (tail : List ArbiterEvent), (∀ b ∈ blocks, Served b) ∧
      InService (e.states k) (e.labels k) tail ∧ e.log events k = blocks.flatten ++ tail := by
  refine e.log_blocks events (P := fun k tail => InService (e.states k) (e.labels k) tail) ?_ ?_ k
  · have hinit : e.states 0 = reset := hv.1
    rw [hinit]
    rfl
  · intro k tail htail
    rw [hv.2 k]
    exact htail.next (pulse_idle hv) (fun hpc hready => (hr.fetch_held k hpc hready).1)
      (payload_kept hv hr)

/-! ### Every request is answered -/

section answers
variable (hs : Responsive e)
include hs

/-- The two states in which the arbiter waits for data. -/
def awaits_data (a : MemoryArbiter) : Prop := a.state = .pc_data ∨ a.state = .l_data

omit hv hs in
theorem awaits_data_next {a : MemoryArbiter} {i : Input} (h : a.awaits_data)
    (hno : r_handshake (a.m_axi i) i.m_axi = false) : (a.next i).state = a.state := by
  show a.next_state i = a.state
  rcases h with h | h
  · have hno' : (i.m_axi.rvalid && i.instruction_ready) = false := by
      simpa [r_handshake, m_axi, rready, h] using hno
    simp only [next_state, h, hno']
    rfl
  · have hno' : i.m_axi.rvalid = false := by simpa [r_handshake, m_axi, rready, h] using hno
    simp only [next_state, h, hno']
    rfl

omit hv hs in
theorem awaits_data_rready {a : MemoryArbiter} {i : Input} (h : a.awaits_data)
    (hi : i.instruction_ready = true) : (a.m_axi i).rready = true := by
  rcases h with h | h
  · simpa [m_axi, rready, h] using hi
  · simp [m_axi, rready, h]

/-- The data of an accepted address is transferred. -/
theorem data_arrives {k : Nat}
    (har : ar_handshake ((e.states k).m_axi (e.labels k)) (e.labels k).m_axi = true)
    (hst : (e.states (k + 1)).awaits_data) :
    ∃ m, k < m ∧ r_handshake ((e.states m).m_axi (e.labels m)) (e.labels m).m_axi = true ∧
      (e.states m).state = (e.states (k + 1)).state := by
  have hawait : ∀ j, (e.states j).state = (e.states (k + 1)).state →
      (e.states j).awaits_data := by
    intro j hj
    unfold awaits_data
    rwa [hj]
  obtain ⟨m, hm, hgo, hstm, -⟩ := @Lts.exists_first
    (fun j => (e.states j).state = (e.states (k + 1)).state)
    (fun j => r_handshake ((e.states j).m_axi (e.labels j)) (e.labels j).m_axi = true)
    (k + 1) rfl (by
      intro j _ hj hno
      rw [hv.2 j, awaits_data_next (hawait j hj) (Bool.eq_false_of_not_eq_true hno), hj])
    (by
      intro hall
      by_contra hnone
      have hnever : ∀ j, k + 1 ≤ j →
          ¬ r_handshake ((e.states j).m_axi (e.labels j)) (e.labels j).m_axi = true :=
        fun j hj hg => hnone ⟨j, hj, hg⟩
      -- the answer comes, and it stays until the consumer is ready
      obtain ⟨j, hj, hrv⟩ := hs.rvalid k har
      have hstay : ∀ i, j ≤ i → (e.labels i).m_axi.rvalid = true := by
        intro i hi
        induction i, hi using Nat.le_induction with
        | base => exact hrv
        | succ n hn ih =>
          have hno := hnever n (by omega)
          apply hs.rheld n ih
          simpa [r_handshake, ih] using hno
      obtain ⟨i, hi, hready⟩ := hs.instruction_ready j
      apply hnever i (by omega)
      rw [r_handshake, hstay i hi, awaits_data_rready (hawait i (hall i (by omega))) hready]
      rfl)
  exact ⟨m, by omega, hgo, hstm⟩

/-- An accepted fetch delivers an instruction. -/
theorem fetch_answered {k : Nat} (h : (e.states k).fetch_accepted (e.labels k) = true) :
    ∃ m, k < m ∧ (e.states m).instruction_handshake (e.labels m) = true := by
  have hboth : (e.labels k).pc_valid = true ∧ (e.labels k).m_axi.arready = true ∧
      ((e.states k).state = .idle ∨ (e.states k).state = .pc_wait_arready) := by
    revert h
    unfold fetch_accepted pc_ready
    cases (e.states k).state <;> simp
  obtain ⟨hpc, har, hidle⟩ := hboth
  have hhand : ar_handshake ((e.states k).m_axi (e.labels k)) (e.labels k).m_axi = true := by
    rcases hidle with hst | hst <;> simp [ar_handshake, m_axi, arvalid, hst, hpc, har]
  have hdata : (e.states (k + 1)).state = .pc_data := by
    rw [hv.2 k]
    show (e.states k).next_state (e.labels k) = _
    rcases hidle with hst | hst <;> simp [next_state, arvalid, hst, hpc, har]
  obtain ⟨m, hm, hgo, hstm⟩ := data_arrives hv hs hhand (Or.inl hdata)
  rw [hdata] at hstm
  refine ⟨m, hm, ?_⟩
  simpa [r_handshake, m_axi, rready, instruction_handshake, instruction_valid, hstm] using hgo

omit hs in
/-- A state that is kept until an input comes is left when it comes. -/
theorem state_left {st : ArbiterState} {g : Input → Bool} {k : Nat}
    (hkeep : ∀ (a : MemoryArbiter) i, a.state = st → g i = false → a.next_state i = st)
    (hst : (e.states k).state = st)
    (hgo : (∀ j, k ≤ j → (e.states j).state = st) → ∃ j, k ≤ j ∧ g (e.labels j) = true) :
    ∃ j, k ≤ j ∧ g (e.labels j) = true ∧ (e.states j).state = st ∧
      (e.states (j + 1)).state = (e.states j).next_state (e.labels j) := by
  obtain ⟨j, hj, hgoj, hstj, -⟩ := @Lts.exists_first (fun j => (e.states j).state = st)
    (fun j => g (e.labels j) = true) k hst (by
      intro j _ hstj hno
      rw [hv.2 j]
      exact hkeep _ _ hstj (Bool.eq_false_of_not_eq_true hno)) hgo
  exact ⟨j, hj, hgoj, hstj, congrArg state (hv.2 j)⟩

/-- The result comes one cycle after the last transfer. -/
theorem load_answered {k : Nat} (h : (e.states k).state = .l_wait_arready) :
    ∃ m, k < m ∧ (e.states m).load_store_result_valid = true := by
  obtain ⟨j, hj, hgo, hst, hnext⟩ := state_left hv (g := fun i => i.m_axi.arready)
    (fun a i hst hno => by simp [next_state, hst, hno]) h
    (fun hall => hs.arready k (fun j hj => by simp [m_axi, arvalid, hall j hj]))
  have hhand : ar_handshake ((e.states j).m_axi (e.labels j)) (e.labels j).m_axi = true := by
    simp [ar_handshake, m_axi, arvalid, hst, hgo]
  have hdata : (e.states (j + 1)).state = .l_data := by
    rw [hnext]
    simp [next_state, hst, hgo]
  obtain ⟨m, hm, hgom, hstm⟩ := data_arrives hv hs hhand (Or.inr hdata)
  rw [hdata] at hstm
  have hrv : (e.labels m).m_axi.rvalid = true := by
    simpa [r_handshake, m_axi, rready, hstm] using hgom
  refine ⟨m + 1, by omega, ?_⟩
  rw [hv.2 m]
  simp [next, next_state, hstm, hrv]

theorem resp_answered {k : Nat} (h : (e.states k).state = .s_resp) :
    ∃ m, k < m ∧ (e.states m).load_store_result_valid = true := by
  obtain ⟨m, hm, hgo, hst, -⟩ := state_left hv (g := fun i => i.m_axi.bvalid)
    (fun a i hst hno => by simp [next_state, hst, hno]) h
    (fun hall => hs.bvalid k (fun j hj => by simp [m_axi, hall j hj]))
  refine ⟨m + 1, by omega, ?_⟩
  rw [hv.2 m]
  simp [next, next_state, hst, hgo]

theorem store_addr_answered {k : Nat} (h : (e.states k).state = .s_wait_awready) :
    ∃ m, k < m ∧ (e.states m).load_store_result_valid = true := by
  obtain ⟨j, hj, hgo, hst, hnext⟩ := state_left hv (g := fun i => i.m_axi.awready)
    (fun a i hst hno => by simp [next_state, hst, hno]) h
    (fun hall => hs.awready k (fun j hj => by simp [m_axi, hall j hj]))
  have hresp : (e.states (j + 1)).state = .s_resp := by
    rw [hnext]
    simp [next_state, hst, hgo]
  obtain ⟨m, hm, hres⟩ := resp_answered hv hs hresp
  exact ⟨m, by omega, hres⟩

theorem store_data_answered {k : Nat} (h : (e.states k).state = .s_wait_wready) :
    ∃ m, k < m ∧ (e.states m).load_store_result_valid = true := by
  obtain ⟨j, hj, hgo, hst, hnext⟩ := state_left hv (g := fun i => i.m_axi.wready)
    (fun a i hst hno => by simp [next_state, hst, hno]) h
    (fun hall => hs.wready k (fun j hj => by simp [m_axi, hall j hj]))
  have hresp : (e.states (j + 1)).state = .s_resp := by
    rw [hnext]
    simp [next_state, hst, hgo]
  obtain ⟨m, hm, hres⟩ := resp_answered hv hs hresp
  exact ⟨m, by omega, hres⟩

/-- A store leaves its first state by the address, by the data, or by both. -/
theorem store_answered {k : Nat} (h : (e.states k).state = .s_wait_both) :
    ∃ m, k < m ∧ (e.states m).load_store_result_valid = true := by
  obtain ⟨j, hj, hgo, hst, hnext⟩ := state_left hv
    (g := fun i => i.m_axi.awready || i.m_axi.wready)
    (fun a i hst hno => by
      have hnone := Bool.or_eq_false_iff.mp hno
      simp [next_state, hst, hnone.1, hnone.2]) h
    (by
      intro hall
      obtain ⟨j, hj, haw⟩ := hs.awready k (fun j hj => by simp [m_axi, hall j hj])
      exact ⟨j, hj, by rw [haw, Bool.true_or]⟩)
  simp only [next_state, hst] at hnext
  have hlater : ∃ m, j + 1 < m ∧ (e.states m).load_store_result_valid = true := by
    cases haw : (e.labels j).m_axi.awready <;> cases hw : (e.labels j).m_axi.wready
    · rw [haw, hw] at hgo
      simp at hgo
    · rw [haw, hw] at hnext
      exact store_addr_answered hv hs hnext
    · rw [haw, hw] at hnext
      exact store_data_answered hv hs hnext
    · rw [haw, hw] at hnext
      exact resp_answered hv hs hnext
  obtain ⟨m, hm, hres⟩ := hlater
  exact ⟨m, by omega, hres⟩

/-- An accepted load or store gets its result. -/
theorem load_store_answered {k : Nat}
    (h : (e.states k).load_store_accepted (e.labels k) = true) :
    ∃ m, k < m ∧ (e.states m).load_store_result_valid = true := by
  have hall : (e.labels k).load_store_valid = true ∧ (e.states k).state = .idle ∧
      (e.labels k).pc_valid = false := by
    simpa [load_store_accepted, load_store_ready] using h
  obtain ⟨hls, hst, hpc⟩ := hall
  have hnext : (e.states (k + 1)).state =
      if (e.labels k).load_store_is_write then .s_wait_both else .l_wait_arready := by
    rw [hv.2 k]
    show (e.states k).next_state (e.labels k) = _
    simp [next_state, load_store_ready, hst, hls, hpc]
  have hlater : ∃ m, k + 1 < m ∧ (e.states m).load_store_result_valid = true := by
    cases hw : (e.labels k).load_store_is_write with
    | true =>
      rw [hw] at hnext
      exact store_answered hv hs hnext
    | false =>
      rw [hw] at hnext
      exact load_answered hv hs hnext
  obtain ⟨m, hm, hres⟩ := hlater
  exact ⟨m, by omega, hres⟩

end answers

end run

/-- What the arbiter guarantees to its requesters. -/
structure Serves (e : Lts.Execution MemoryArbiter Input) : Prop where
  /-- The history is one block for each request, in the order of acceptance;
      the last one may be unfinished. -/
  blocks : ∀ k, ∃ (blocks : List (List ArbiterEvent)) (tail rest : List ArbiterEvent),
    (∀ b ∈ blocks, Served b) ∧ rest ≠ [] ∧ Served (tail ++ rest) ∧
      e.log events k = blocks.flatten ++ tail
  /-- With both requests in IDLE the fetch goes out, and the other waits. -/
  fetch_first : ∀ k, (e.states k).state = .idle → (e.labels k).pc_valid = true →
    (e.labels k).load_store_valid = true →
    (e.states k).load_store_accepted (e.labels k) = false ∧
      ((e.states k).m_axi (e.labels k)).arvalid = true ∧
      ((e.states k).m_axi (e.labels k)).araddr = (e.labels k).pc ∧
      ((e.states (k + 1)).state = .pc_data ∨ (e.states (k + 1)).state = .pc_wait_arready)
  fetch_answered : Responsive e → ∀ k, (e.states k).fetch_accepted (e.labels k) = true →
    ∃ m, k < m ∧ (e.states m).instruction_handshake (e.labels m) = true
  load_store_answered : Responsive e →
    ∀ k, (e.states k).load_store_accepted (e.labels k) = true →
      ∃ m, k < m ∧ (e.states m).load_store_result_valid = true

section served
variable {e : Lts.Execution MemoryArbiter Input} (hv : system.valid_exec e)
include hv

theorem history_blocks (hr : Requesters e) (k : Nat) :
    ∃ (blocks : List (List ArbiterEvent)) (tail rest : List ArbiterEvent),
      (∀ b ∈ blocks, Served b) ∧ rest ≠ [] ∧ Served (tail ++ rest) ∧
        e.log events k = blocks.flatten ++ tail := by
  obtain ⟨blocks, tail, hblocks, htail, hlog⟩ := served hv hr k
  obtain ⟨rest, hne, hrest⟩ := htail.unfinished
  exact ⟨blocks, tail, rest, hblocks, hne, hrest, hlog⟩

theorem fetch_goes_first {k : Nat} (hst : (e.states k).state = .idle)
    (hpc : (e.labels k).pc_valid = true) :
    (e.states k).load_store_accepted (e.labels k) = false ∧
      ((e.states k).m_axi (e.labels k)).arvalid = true ∧
      ((e.states k).m_axi (e.labels k)).araddr = (e.labels k).pc ∧
      ((e.states (k + 1)).state = .pc_data ∨ (e.states (k + 1)).state = .pc_wait_arready) := by
  have hnext : (e.states (k + 1)).state = (e.states k).next_state (e.labels k) :=
    congrArg state (hv.2 k)
  refine ⟨?_, ?_, ?_, ?_⟩
  · simp [load_store_accepted, load_store_ready, hpc]
  · simp [m_axi, arvalid, hst, hpc]
  · simp [m_axi, araddr, hst, hpc]
  · rw [hnext]
    cases har : (e.labels k).m_axi.arready <;> simp [next_state, arvalid, hst, hpc, har]

/-- Two requesters that keep to the protocol are served without loss,
    duplication or mixing, whatever the slave does. -/
theorem arbiter_serves (hr : Requesters e) : Serves e where
  blocks := history_blocks hv hr
  fetch_first _ hst hpc _ := fetch_goes_first hv hst hpc
  fetch_answered hs _ h := fetch_answered hv hs h
  load_store_answered hs _ h := load_store_answered hv hs h

end served

/-- A store requested in cycle 0 and a fetch requested in cycle 5, in which
    the store's result comes. Every ready and valid of the slave comes late,
    that of the instruction's consumer last. -/
def store_then_fetch (k : Nat) : Input where
  m_axi :=
    { Slave.idle with
      awready := 2 ≤ k, wready := 3 ≤ k, bvalid := 4 ≤ k
      arready := 8 ≤ k, rvalid := 10 ≤ k, rdata := 0x13#32 }
  pc_valid := 5 ≤ k && k ≤ 8
  pc := 0x1000#32
  instruction_ready := 12 ≤ k
  load_store_valid := k == 0
  load_store_addr := 0x2000#32
  load_store_is_write := true
  store_strobe := 0b1111#4
  store_data := 7#32

/-- No signal of the slave is withdrawn. -/
theorem store_then_fetch_responsive :
    Responsive (.of_inputs next reset store_then_fetch) := by
  have hlate : ∀ n k : Nat, ∃ j, k ≤ j ∧ decide (n ≤ j) = true :=
    fun n k => ⟨max k n, le_max_left .., decide_eq_true (le_max_right ..)⟩
  refine ⟨fun k _ => hlate 8 k, fun k _ => hlate 2 k, fun k _ => hlate 3 k, fun k _ => hlate 4 k,
    fun k _ => ?_, fun k h _ => ?_, hlate 12⟩
  · obtain ⟨j, hj, hrv⟩ := hlate 10 (k + 1)
    exact ⟨j, hj, hrv⟩
  · have hk : 10 ≤ k := of_decide_eq_true h
    exact decide_eq_true (by omega)

/-- The result of the store comes before the fetch that is requested in the
    same cycle, and both are answered. -/
theorem arbiter_serves_store_then_fetch :
    Serves (.of_inputs next reset store_then_fetch) ∧
    (Lts.Execution.of_inputs next reset store_then_fetch).log events 13 =
      [.store 0x2000#32 7#32 0b1111#4, .transfer (.aw 0x2000#32),
        .transfer (.w 7#32 0b1111#4), .transfer .b, .result 0#32, .fetch 0x1000#32,
        .transfer (.ar 0x1000#32), .transfer (.r 0x13#32), .instruction 0x13#32] ∧
    (∃ m, 0 < m ∧ ((Lts.Execution.of_inputs next reset store_then_fetch).states
      m).load_store_result_valid = true) ∧
    ∃ m, 8 < m ∧ ((Lts.Execution.of_inputs next reset store_then_fetch).states
      m).instruction_handshake (store_then_fetch m) = true := by
  have hv : system.valid_exec (.of_inputs next reset store_then_fetch) := ⟨rfl, fun _ => rfl⟩
  have hserves := arbiter_serves hv ⟨?_, ?_, ?_⟩
  · exact ⟨hserves, by decide +kernel,
      hserves.load_store_answered store_then_fetch_responsive 0 (by decide +kernel),
      hserves.fetch_answered store_then_fetch_responsive 8 (by decide +kernel)⟩
  · -- the fetch is held until cycle 8, in which it is accepted
    intro k hpc hready
    obtain ⟨h5, h8⟩ : 5 ≤ k ∧ k ≤ 8 := by
      simpa [Lts.Execution.of_inputs, store_then_fetch] using hpc
    obtain rfl | hlt : k = 8 ∨ k < 8 := by omega
    · exact absurd hready (by decide +kernel)
    · refine ⟨?_, rfl⟩
      exact Bool.and_eq_true_iff.mpr ⟨decide_eq_true (by omega), decide_eq_true (by omega)⟩
  · intro k hls hready
    obtain rfl : k = 0 := beq_iff_eq.mp hls
    exact absurd hready (by decide +kernel)
  · intro k _ _
    exact ⟨rfl, rfl⟩

end MemoryArbiter

/-! ### The core as the two requesters -/

namespace RiscvCpu

/-- The arbiter's part of a run of the core. -/
def arbiter_run (e : Lts.Execution RiscvCpu Input) :
    Lts.Execution MemoryArbiter MemoryArbiter.Input where
  states k := (e.states k).memory_arbiter
  labels k := (e.states k).arbiter_input (e.labels k)

section core
variable {e : Lts.Execution RiscvCpu Input} (hv : system.valid_exec e)
include hv

theorem arbiter_run_valid : MemoryArbiter.system.valid_exec (arbiter_run e) := by
  refine ⟨?_, ?_⟩
  · show (e.states 0).memory_arbiter = _
    rw [hv.1]
    rfl
  · intro k
    show (e.states (k + 1)).memory_arbiter = _
    rw [hv.2 k]
    rfl

/-- The phases in which the result of a load or store is awaited. -/
theorem phase_of_waiting {k : Nat} {p : Phase} (hat : (e.states k).At p)
    (hw : MemoryArbiter.waiting (arbiter_run e) k = true) :
    p.flags.arbiter_state.is_load_store = true ∨ p = .mem_result := by
  induction k generalizing p with
  | zero => exact absurd hw Bool.false_ne_true
  | succ k ih =>
    obtain ⟨q, hatq⟩ := at_phase hv k
    have hnext := hatq.next (e.labels k)
    rw [← hv.2 k] at hnext
    obtain rfl := hat.unique hnext
    obtain ⟨-, -, -, -, -, -, hres⟩ := hatq.fields
    rcases (Bool.or_eq_true _ _).mp hw with hacc | hold
    · -- accepted in `decoded`
      have hls : ((e.states k).arbiter_input (e.labels k)).load_store_valid = true :=
        ((Bool.and_eq_true _ _).mp hacc).1
      rw [hatq.load_store_valid, Bool.and_eq_true, beq_iff_eq] at hls
      obtain ⟨rfl, hmem⟩ := hls
      rw [Phase.next, if_pos hmem]
      split <;> exact Or.inl rfl
    · obtain ⟨hwait, hno⟩ := (Bool.and_eq_true _ _).mp hold
      have hno' : q.flags.load_store_result_valid = false := by
        rw [← hres]
        exact Bool.not_eq_true' _ |>.mp hno
      have hq := ih hatq hwait
      cases q <;> simp only [Phase.next] <;> (repeat' split) <;>
        simp_all [Phase.flags, ArbiterState.is_load_store]

/-- The payload of a load or store is the same in the next cycle if the
    control module writes nothing. -/
theorem payload_next {k : Nat} {p : Phase} (hat : (e.states k).At p)
    (hq : (e.labels k).cm.quiet) (hfd : p ≠ .fetch_data) (hn : p ≠ .next_pc)
    (hmem : (e.states k).decoded.use_mem = true) :
    ((arbiter_run e).labels (k + 1)).payload = ((arbiter_run e).labels k).payload := by
  have hs := hv.2 k
  have hd : (e.states (k + 1)).decoded = (e.states k).decoded := by
    rw [hs]
    exact hat.decoded_next hfd
  have hread : (e.states (k + 1)).register_file.read = (e.states k).register_file.read := by
    rw [hs]
    exact hat.read_next_of_quiet hq hn
  have h1 : (e.states (k + 1)).rs1 = (e.states k).rs1 := by
    rw [RiscvCpu.rs1, RiscvCpu.rs1, hd, hread]
  have h2 : (e.states (k + 1)).rs2 = (e.states k).rs2 := by
    rw [RiscvCpu.rs2, RiscvCpu.rs2, hd, hread]
  have hlatch : (e.states (k + 1)).latched_data = (e.states k).mem_write_data := by
    rw [hs]
    rfl
  show ((e.states (k + 1)).mem_addr, (e.states (k + 1)).decoded.mem_is_write,
    (e.states (k + 1)).mem_write_strobe, (e.states (k + 1)).mem_write_data) = _
  rw [mem_addr_congr hd h1, hd, mem_write_strobe_congr hd hmem h1,
    mem_write_data_congr hd hmem h1 h2 hlatch]
  rfl

/-- While the control module writes nothing, the core's fetch and its loads
    and stores keep to the protocol of the arbiter. -/
theorem arbiter_run_requesters (hq : ∀ k, (e.labels k).cm.quiet) :
    MemoryArbiter.Requesters (arbiter_run e) where
  fetch_held := by
    intro k hpc hready
    refine ⟨pc_valid_held hv hpc hready, ?_⟩
    obtain ⟨p, hat⟩ := at_phase hv k
    show (e.states (k + 1)).pc = (e.states k).pc
    rw [hv.2 k]
    refine hat.pc_next_of_quiet (hq k) ?_
    rintro rfl
    have hpc' : (e.states k).pc_valid (e.labels k) = true := hpc
    rw [hat.pc_valid] at hpc'
    exact absurd hpc' Bool.false_ne_true
  request_held := by
    intro k hls hready
    -- a load or store is accepted in the cycle it is requested in
    obtain ⟨p, hat⟩ := at_phase hv k
    have hls' : ((e.states k).arbiter_input (e.labels k)).load_store_valid = true := hls
    rw [hat.load_store_valid, Bool.and_eq_true, beq_iff_eq] at hls'
    obtain ⟨rfl, hmem⟩ := hls'
    have hdec := hat.decoded_transaction (e.labels k)
    have hready' : (e.states k).memory_arbiter.load_store_ready
      ((e.states k).arbiter_input (e.labels k)) = false := hready
    rw [RiscvCpu.decoded_transaction, decoded_ready, if_pos hmem, hready', Bool.and_false] at hdec
    exact absurd hdec (by decide)
  result_awaited := by
    intro k hwait hno
    obtain ⟨p, hat⟩ := at_phase hv k
    obtain ⟨p', hat'⟩ := at_phase hv (k + 1)
    have hno' : (e.states (k + 1)).memory_arbiter.load_store_result_valid = false := hno
    obtain ⟨-, -, -, -, -, -, hres⟩ := hat'.fields
    rw [hno'] at hres
    have hls : p'.flags.arbiter_state.is_load_store = true := by
      rcases phase_of_waiting hv hat' hwait with h | rfl
      · exact h
      · exact absurd hres (by decide)
    have hnext := hat.next (e.labels k)
    rw [← hv.2 k] at hnext
    have hpp := hat'.unique hnext
    refine ⟨?_, ?_⟩
    · show ((e.states (k + 1)).arbiter_input (e.labels (k + 1))).load_store_valid = false
      rw [hat'.load_store_valid]
      cases p' <;> first | rfl | exact absurd hls (by decide)
    · -- the cycle before is one of the load or store, or the one that accepts it
      have hfrom : p ≠ .fetch_data ∧ p ≠ .next_pc ∧ (e.states k).decoded.use_mem = true := by
        have hfits := hat.fits
        rw [hpp] at hls
        clear hpp hnext hat' hres hno hno' hwait
        cases p <;> simp only [Phase.next] at hls <;> (repeat' split at hls) <;>
          simp_all [Phase.flags, ArbiterState.is_load_store, Phase.Fits]
      exact payload_next hv hat (hq k) hfrom.1 hfrom.2.1 hfrom.2.2

/-- While the control module writes nothing, the arbiter serves the core. -/
theorem arbiter_run_served (hq : ∀ k, (e.labels k).cm.quiet) :
    MemoryArbiter.Serves (arbiter_run e) :=
  have hva := arbiter_run_valid hv
  have hr := arbiter_run_requesters hv hq
  { blocks := MemoryArbiter.history_blocks hva hr
    fetch_first := fun _ hst hpc _ => MemoryArbiter.fetch_goes_first hva hst hpc
    fetch_answered := fun hs _ h => MemoryArbiter.fetch_answered hva hs h
    load_store_answered := fun hs _ h => MemoryArbiter.load_store_answered hva hs h }

end core

end RiscvCpu

end RiscvWorker
