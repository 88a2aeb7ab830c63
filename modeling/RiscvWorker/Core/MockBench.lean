import RiscvWorker.Hdl.AxiMemoryMock
import RiscvWorker.Core.Arbitration

/-! # The arbiter on the memory mock

  `memory_arbiter` and `axi_memory_mock` with a driver that issues fetches,
  loads and stores one after another, as the drivers of the arbiter's test
  bench do: a request is valid until it is accepted, its address and data are
  held until its result, and then the next one may begin. A step is one clock
  edge; the log holds the requests that are finished, with their results.
-/

namespace RiscvWorker

open ByteMemory
open AxiLite (Master Slave)

namespace MockBench

/-- What the driver can ask for. -/
inductive Request where
  | fetch (pc : Word)
  | load (addr : Word)
  | store (addr data : Word) (strb : BitVec 4)
  deriving DecidableEq, Repr

namespace Request

def addr : Request → Word
  | .fetch pc => pc
  | .load a => a
  | .store a _ _ => a

/-- The memory of the mock ends at 0x2000. -/
def InRange (r : Request) : Prop := r.addr.toNat < 0x2000

/-- The inputs that carry a request; `idle` is on the lines it does not use. -/
def drive (r : Request) (valid : Bool) (idle : MemoryArbiter.Input) : MemoryArbiter.Input :=
  match r with
  | .fetch pc => { idle with pc_valid := valid, pc := pc, load_store_valid := false }
  | .load a =>
    { idle with
      pc_valid := false, load_store_valid := valid, load_store_addr := a
      load_store_is_write := false }
  | .store a d strb =>
    { idle with
      pc_valid := false, load_store_valid := valid, load_store_addr := a
      load_store_is_write := true, store_data := d, store_strobe := strb }

end Request

/-- The driver has nothing to do, waits for ready, or waits for a result. -/
inductive Driver where
  | free
  | asking (r : Request)
  | awaiting (r : Request)
  deriving DecidableEq, Repr

end MockBench

open MockBench (Request Driver)

structure MockBench where
  arbiter : MemoryArbiter
  mock : AxiMemoryMock
  driver : Driver
  log : List (Request × Word)

namespace MockBench

def reset : MockBench where
  arbiter := MemoryArbiter.reset
  mock := AxiMemoryMock.reset
  driver := .free
  log := []

/-- What the driver decides in one cycle: whether a free driver begins a
    request, whether an accepted request stays valid, and what the unused
    lines and `instruction_ready` carry. -/
structure Choice where
  start : Option Request
  keep_valid : Bool
  idle : MemoryArbiter.Input
  deriving DecidableEq, Repr

variable (s : MockBench) (c : Choice)

/-! ### One cycle -/

/-- The driver's side of the arbiter's inputs. -/
def driver_lines : MemoryArbiter.Input :=
  match s.driver with
  | .free =>
    match c.start with
    | none => { c.idle with pc_valid := false, load_store_valid := false }
    | some r => r.drive true c.idle
  | .asking r => r.drive true c.idle
  -- a request that stayed valid into its result would be issued again
  | .awaiting r => r.drive (c.keep_valid && !s.arbiter.load_store_result_valid) c.idle

def input : MemoryArbiter.Input := { s.driver_lines c with m_axi := s.mock.port }

def accepted : Bool :=
  s.arbiter.fetch_accepted (s.input c) || s.arbiter.load_store_accepted (s.input c)

/-- The result of the request in this cycle. -/
def result : Option Word :=
  match s.driver with
  | .awaiting (.fetch _) =>
    if s.arbiter.instruction_handshake (s.input c) then
      some (s.arbiter.instruction (s.input c))
    else none
  | .awaiting _ =>
    if s.arbiter.load_store_result_valid then some s.arbiter.load_data else none
  | _ => none

def next_driver : Driver :=
  match s.driver with
  | .free =>
    match c.start with
    | none => .free
    | some r => if s.accepted c then .awaiting r else .asking r
  | .asking r => if s.accepted c then .awaiting r else .asking r
  | .awaiting r => if (s.result c).isSome then .free else .awaiting r

def next_log : List (Request × Word) :=
  match s.driver, s.result c with
  | .awaiting r, some v => s.log ++ [(r, v)]
  | _, _ => s.log

/-- One clock edge. -/
def next : MockBench where
  arbiter := s.arbiter.next (s.input c)
  mock := s.mock.next (s.arbiter.m_axi (s.input c))
  driver := s.next_driver c
  log := s.next_log c

/-- The requests that begin are in range. -/
def system : Lts.System MockBench Choice where
  init s := s = reset
  step s c s' := (s.driver = .free → ∀ r, c.start = some r → r.InRange) ∧ s' = s.next c

/-! ### Memories -/

/-- What a request is to do to a flat memory. -/
def stored (M : Memory) : Request → Memory
  | .store a d strb => write_word M a d strb
  | _ => M

/-- The address of a store within the data half. -/
def data_half (x : Word) : Word := (x.extractLsb' 0 12).setWidth 32

/-- Where the mock puts a store: always in the data half. -/
def landed (M : Memory) : Request → Memory
  | .store a d strb => write_word M (data_half a) d strb
  | _ => M

/-- The memory after the requests of a log, from zero. -/
def contents (effect : Memory → Request → Memory) (log : List (Request × Word)) : Memory :=
  log.foldl (fun M p => effect M p.1) fun _ => 0#8

/-- The value is the word that a fetch or load is to return. -/
def Returns (M : Memory) (v : Word) : Request → Prop
  | .fetch pc => v = read_word M pc
  | .load a => v = read_word M a
  | .store _ _ _ => True

/-- Every fetch and load of the log returned what the requests before it left
    in memory. -/
def FlatMemory (effect : Memory → Request → Memory) (log : List (Request × Word)) : Prop :=
  ∀ pre r v post, log = pre ++ (r, v) :: post → Returns (contents effect pre) v r

/-! ### The phases of a request -/

/-- The two word memories hold `M` up to 0x2000. -/
def Holds (i d : WordStore.Store (BitVec 10)) (M : Memory) : Prop :=
  ∀ a : Word, a.toNat < 0x2000 →
    (if AxiMemoryMock.memory_selector a then i (AxiMemoryMock.memory_index a)
      else d (AxiMemoryMock.memory_index a)) = read_word M a

/-- Where the arbiter, the mock and the driver stand in the service of a
    request; the mock's flags are awready, wready, bvalid, arready, rvalid. -/
inductive Phase : MockBench → Prop where
  | free {i d br rr la ld rd log} (hM : Holds i d (contents landed log)) :
      Phase ⟨⟨.idle, false, ld⟩, ⟨i, d, true, false, false, br, la, false, false, rr, rd⟩,
        .free, log⟩
  | fetch_asked {i d br rr la ld rd log} (pc : Word) (hr : pc.toNat < 0x2000)
      (hM : Holds i d (contents landed log)) :
      Phase ⟨⟨.pc_wait_arready, false, ld⟩,
        ⟨i, d, true, false, false, br, la, true, false, rr, rd⟩, .asking (.fetch pc), log⟩
  | fetch_data {i d br rr la ld rd log} (pc : Word) (hr : pc.toNat < 0x2000)
      (hM : Holds i d (contents landed log)) (hrd : rd = read_word (contents landed log) pc) :
      Phase ⟨⟨.pc_data, false, ld⟩, ⟨i, d, true, false, false, br, la, false, true, rr, rd⟩,
        .awaiting (.fetch pc), log⟩
  | load_asked {i d br rr la ld rd log} (a : Word) (hr : a.toNat < 0x2000)
      (hM : Holds i d (contents landed log)) :
      Phase ⟨⟨.l_wait_arready, false, ld⟩,
        ⟨i, d, true, false, false, br, la, false, false, rr, rd⟩, .awaiting (.load a), log⟩
  | load_ready {i d br rr la ld rd log} (a : Word) (hr : a.toNat < 0x2000)
      (hM : Holds i d (contents landed log)) :
      Phase ⟨⟨.l_wait_arready, false, ld⟩,
        ⟨i, d, true, false, false, br, la, true, false, rr, rd⟩, .awaiting (.load a), log⟩
  | load_data {i d br rr la ld rd log} (a : Word) (hM : Holds i d (contents landed log))
      (hrd : rd = read_word (contents landed log) a) :
      Phase ⟨⟨.l_data, false, ld⟩, ⟨i, d, true, false, false, br, la, false, true, rr, rd⟩,
        .awaiting (.load a), log⟩
  | load_result {i d br rr la ld rd log} (a : Word) (hM : Holds i d (contents landed log))
      (hld : ld = read_word (contents landed log) a) :
      Phase ⟨⟨.idle, true, ld⟩, ⟨i, d, true, false, false, br, la, false, false, rr, rd⟩,
        .awaiting (.load a), log⟩
  | store_asked {i d br rr la ld rd log} (x v : Word) (strb : BitVec 4) (hr : x.toNat < 0x2000)
      (hM : Holds i d (contents landed log)) :
      Phase ⟨⟨.s_wait_both, false, ld⟩,
        ⟨i, d, true, false, false, br, la, false, false, rr, rd⟩, .awaiting (.store x v strb), log⟩
  | store_data {i d br rr la ld rd log} (x v : Word) (strb : BitVec 4)
      (hM : Holds i d (contents landed log)) (hla : la = (AxiMemoryMock.memory_index x).setWidth 12) :
      Phase ⟨⟨.s_wait_wready, false, ld⟩,
        ⟨i, d, false, true, false, br, la, false, false, rr, rd⟩, .awaiting (.store x v strb), log⟩
  | store_resp {i d br rr la ld rd log} (x v : Word) (strb : BitVec 4)
      (hM : Holds i d (write_word (contents landed log) (data_half x) v strb)) :
      Phase ⟨⟨.s_resp, false, ld⟩, ⟨i, d, false, false, true, br, la, false, false, rr, rd⟩,
        .awaiting (.store x v strb), log⟩
  | store_result {i d br rr la ld rd log} (x v : Word) (strb : BitVec 4)
      (hM : Holds i d (write_word (contents landed log) (data_half x) v strb)) :
      Phase ⟨⟨.idle, true, ld⟩, ⟨i, d, true, false, false, br, la, false, false, rr, rd⟩,
        .awaiting (.store x v strb), log⟩

theorem read_word_zero (a : Word) : read_word (fun _ => 0#8) a = 0#32 := by
  apply word_ext
  intro k hk
  rw [read_word, load_word, lane_word_of _ hk]
  simp [lane]

theorem phase_reset : Phase reset := by
  apply Phase.free
  intro a _
  show (if AxiMemoryMock.memory_selector a then 0#32 else 0#32) = read_word (fun _ => 0#8) a
  rw [ite_self, read_word_zero]

theorem contents_snoc (effect : Memory → Request → Memory) (log : List (Request × Word))
    (r : Request) (v : Word) :
    contents effect (log ++ [(r, v)]) = effect (contents effect log) r := by
  unfold contents
  rw [List.foldl_append]
  rfl

/-! ### The store that lands -/

theorem selector_iff {a : Word} (ha : a.toNat < 0x2000) :
    AxiMemoryMock.memory_selector a = true ↔ 0x1000 ≤ a.toNat := by
  rw [AxiMemoryMock.memory_selector, BitVec.getLsbD, Nat.testBit_eq_decide_div_mod_eq,
    decide_eq_true_eq]
  omega

theorem index_eq_iff (a x : Word) :
    AxiMemoryMock.memory_index a = AxiMemoryMock.memory_index x ↔
      a.toNat / 4 % 1024 = x.toNat / 4 % 1024 := by
  have hnat : ∀ b : Word, (AxiMemoryMock.memory_index b).toNat = b.toNat / 4 % 1024 := by
    intro b
    simp [AxiMemoryMock.memory_index, Nat.shiftRight_eq_div_pow]
  rw [← hnat, ← hnat]
  exact ⟨fun h => congrArg _ h, BitVec.eq_of_toNat_eq⟩

theorem align_data_half_iff {a : Word} (ha : a.toNat < 0x2000) (x : Word) :
    align a = align (data_half x) ↔ a.toNat < 0x1000 ∧
      AxiMemoryMock.memory_index a = AxiMemoryMock.memory_index x := by
  have hx : (data_half x).toNat = x.toNat % 4096 := by
    simp [data_half]
    omega
  have halign : align a = align (data_half x) ↔
      a.toNat / 4 * 4 = x.toNat % 4096 / 4 * 4 := by
    rw [← align_toNat, ← hx, ← align_toNat]
    exact ⟨fun h => congrArg _ h, BitVec.eq_of_toNat_eq⟩
  rw [halign, index_eq_iff]
  omega

/-- The data of a store goes to the data memory, whatever its address: in the
    data phase the arbiter drives no address. -/
theorem holds_store {i d : WordStore.Store (BitVec 10)} {M : Memory} (hM : Holds i d M)
    (x v : Word) (strb : BitVec 4) :
    Holds i (WordStore.write d (AxiMemoryMock.memory_index x) v strb)
      (write_word M (data_half x) v strb) := by
  intro a ha
  have hread := hM a ha
  rw [WordStore.read_word_write_word, ← hread]
  by_cases hsel : AxiMemoryMock.memory_selector a = true
  · -- the instruction half is out of reach
    have hhigh := (selector_iff ha).mp hsel
    have hfar : ¬ align a = align (data_half x) := by
      rw [align_data_half_iff ha]
      omega
    rw [if_pos hsel, if_neg hfar, if_pos hsel]
  · have hlow : a.toNat < 0x1000 := by
      rw [selector_iff ha] at hsel
      omega
    have hnear := align_data_half_iff ha x
    rw [if_neg hsel, if_neg hsel]
    by_cases hidx : AxiMemoryMock.memory_index a = AxiMemoryMock.memory_index x
    · rw [if_pos (hnear.mpr ⟨hlow, hidx⟩), hidx, WordStore.write_self]
    · rw [if_neg fun h => hidx (hnear.mp h).2, WordStore.write_ne _ _ _ hidx]

/-- The latched index is the index of the store. -/
theorem holds_write_latched {i d : WordStore.Store (BitVec 10)} {M : Memory} (hM : Holds i d M)
    (x v : Word) (strb : BitVec 4) :
    Holds i
      (if ((AxiMemoryMock.memory_index x).setWidth 12).toNat < 1024 then
        WordStore.write d (((AxiMemoryMock.memory_index x).setWidth 12).setWidth 10) v strb
      else d)
      (write_word M (data_half x) v strb) := by
  have hlt := (AxiMemoryMock.memory_index x).isLt
  have hfit : ((AxiMemoryMock.memory_index x).setWidth 12).toNat < 1024 := by
    rw [BitVec.toNat_setWidth]
    omega
  have hback : ((AxiMemoryMock.memory_index x).setWidth 12).setWidth 10 =
      AxiMemoryMock.memory_index x := by
    rw [BitVec.setWidth_setWidth_of_le _ (by decide), BitVec.setWidth_eq]
  rw [if_pos hfit, hback]
  exact holds_store hM x v strb

/-- The edge that takes the data of a store. The address lines are zero by
    then, and zero selects the data memory. -/
theorem next_store_data {i d : WordStore.Store (BitVec 10)} {br rr : BitVec 2} {la : BitVec 12}
    {ld rd : Word} {log : List (Request × Word)} (x v : Word) (strb : BitVec 4) (c : Choice) :
    MockBench.next
      ⟨⟨.s_wait_wready, false, ld⟩, ⟨i, d, false, true, false, br, la, false, false, rr, rd⟩,
        .awaiting (.store x v strb), log⟩ c =
      ⟨⟨.s_resp, false, ld⟩,
        ⟨i, if la.toNat < 1024 then WordStore.write d (la.setWidth 10) v strb else d,
          false, false, true, AXI_RESP_OKAY, la, false, false, rr, rd⟩,
        .awaiting (.store x v strb), log⟩ := by
  have hsel : AxiMemoryMock.memory_selector 0#32 = false := rfl
  have hmock : AxiMemoryMock.next ⟨i, d, false, true, false, br, la, false, false, rr, rd⟩
      ⟨false, 0#32, true, v, strb, false, false, 0#32, false⟩ =
      ⟨i, if la.toNat < 1024 then WordStore.write d (la.setWidth 10) v strb else d,
        false, false, true, AXI_RESP_OKAY, la, false, false, rr, rd⟩ := by
    unfold AxiMemoryMock.next AxiMemoryMock.next_i_data AxiMemoryMock.next_d_data
    rw [hsel]
    rfl
  rw [← hmock]
  rfl

/-- With its result a request is over. -/
theorem Phase.over {i d : WordStore.Store (BitVec 10)} {br rr : BitVec 2} {la : BitVec 12}
    {ld rd : Word} {log : List (Request × Word)} (r : Request) (v : Word)
    (hM : Holds i d (landed (contents landed log) r)) :
    Phase ⟨⟨.idle, false, ld⟩, ⟨i, d, true, false, false, br, la, false, false, rr, rd⟩,
      .free, log ++ [(r, v)]⟩ := by
  apply Phase.free
  rw [contents_snoc]
  exact hM

/-- One clock edge leads from phase to phase. -/
theorem Phase.next {s : MockBench} (h : Phase s) (c : Choice)
    (hc : s.driver = .free → ∀ r, c.start = some r → r.InRange) : Phase (s.next c) := by
  obtain ⟨start, keep, idle⟩ := c
  cases h with
  | free hM =>
    cases start with
    | none => exact .free hM
    | some r =>
      have hr : r.InRange := hc rfl r rfl
      cases r with
      | fetch pc => exact .fetch_asked pc hr hM
      | load a => exact .load_asked a hr hM
      | store x v strb => exact .store_asked x v strb hr hM
  | fetch_asked pc hr hM => exact .fetch_data pc hr hM (hM pc hr)
  | @fetch_data i d br rr la ld rd log pc hr hM hrd =>
    obtain ⟨port, pc_valid, idle_pc, ready, ls_valid, ls_addr, ls_write, strb, data⟩ := idle
    cases ready with
    | true => exact .over (.fetch pc) rd hM
    | false => exact .fetch_data pc hr hM hrd
  | load_asked a hr hM => exact .load_ready a hr hM
  | load_ready a hr hM => exact .load_data a hM (hM a hr)
  | load_data a hM hrd => exact .load_result a hM hrd
  | @load_result i d br rr la ld rd log a hM hld =>
    cases keep with
    | true => exact .over (.load a) ld hM
    | false => exact .over (.load a) ld hM
  | store_asked x v strb hr hM => exact .store_data x v strb hM rfl
  | store_data x v strb hM hla =>
    subst hla
    rw [next_store_data]
    exact .store_resp x v strb (holds_write_latched hM x v strb)
  | store_resp x v strb hM => exact .store_result x v strb hM
  | @store_result i d br rr la ld rd log x v strb hM =>
    cases keep with
    | true => exact .over (.store x v strb) ld hM
    | false => exact .over (.store x v strb) ld hM

end MockBench

end RiscvWorker
