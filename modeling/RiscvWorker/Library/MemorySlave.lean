import RiscvWorker.Library.ByteMemory
import RiscvWorker.Library.Lts

/-! # A memory behind an AXI4-Lite port

  Any slave that answers reads and writes from one memory, in the order in
  which it accepted them, with whatever delays it likes. The state holds the
  accepted requests and the answers not collected yet; a *choice* is what
  the slave is free to decide in one cycle: when it accepts, when it performs
  an accepted access and when it offers an answer. A read is performed on the
  memory as it then is, a write honours its strobes.

  The rules at the end describe a master with at most one access under way,
  for every choice.
-/

namespace AxiLite

open ByteMemory

/-- The requests accepted and not performed, the answers not collected. -/
structure MemorySlave where
  mem : Memory
  reads : List Word
  replies : List Word
  write_addrs : List Word
  write_datas : List (Word × BitVec 4)
  acks : Nat

namespace MemorySlave

/-- What the slave decides in one cycle. -/
structure Choice where
  awready : Bool
  wready : Bool
  arready : Bool
  /-- Offer the oldest reply, if there is one. -/
  reply : Bool
  /-- Offer an acknowledgement, if there is one. -/
  ack : Bool
  perform_read : Bool
  perform_write : Bool
  /-- What the data lines carry while no reply is offered. -/
  rdata : Word
  rresp : BitVec 2
  bresp : BitVec 2
  deriving DecidableEq, Repr

variable (m : MemorySlave) (c : Choice) (master : Master)

/-- The slave's side of the port. -/
def port : Slave where
  awready := c.awready
  wready := c.wready
  bvalid := c.ack && m.acks != 0
  bresp := c.bresp
  arready := c.arready
  rvalid := c.reply && !m.replies.isEmpty
  rdata := if c.reply then m.replies.headD c.rdata else c.rdata
  rresp := c.rresp

/-! ### Clock edge -/

/-- Take over the requests and hand out the answers of this cycle. -/
def transfer : MemorySlave where
  mem := m.mem
  reads := m.reads ++ if ar_handshake master (m.port c) then [master.araddr] else []
  replies := if r_handshake master (m.port c) then m.replies.tail else m.replies
  write_addrs := m.write_addrs ++ if aw_handshake master (m.port c) then [master.awaddr] else []
  write_datas :=
    m.write_datas ++ if w_handshake master (m.port c) then [(master.wdata, master.wstrb)] else []
  -- acknowledgements carry no data, so counting them is enough
  acks := if b_handshake master (m.port c) then m.acks - 1 else m.acks

/-- Perform the oldest accepted read. -/
def do_read : MemorySlave :=
  match m.reads with
  | [] => m
  | a :: rest => { m with reads := rest, replies := m.replies ++ [read_word m.mem a] }

/-- Perform the oldest write of which both address and data are accepted. -/
def do_write : MemorySlave :=
  match m.write_addrs, m.write_datas with
  | a :: addrs, d :: datas =>
    { m with
      mem := write_word m.mem a d.1 d.2
      write_addrs := addrs, write_datas := datas, acks := m.acks + 1 }
  | _, _ => m

/-- Perform what the slave chooses to perform. -/
def perform : MemorySlave :=
  -- a read performed together with a write returns the old word
  let read := if c.perform_read then m.do_read else m
  if c.perform_write then read.do_write else read

/-- One clock edge. -/
def next : MemorySlave := (m.transfer c master).perform c

/-! ### One access at a time -/

/-- Nothing is under way. -/
def idle (M : Memory) : MemorySlave := ⟨M, [], [], [], [], 0⟩

/-- The address of a write is accepted, its data is not. -/
def has_addr (M : Memory) (a : Word) : MemorySlave := ⟨M, [], [], [a], [], 0⟩

/-- The data of a write is accepted, its address is not. -/
def has_data (M : Memory) (d : Word) (strb : BitVec 4) : MemorySlave :=
  ⟨M, [], [], [], [(d, strb)], 0⟩

/-- A read of `a` is under way. -/
inductive Reading (M : Memory) (a : Word) : MemorySlave → Prop where
  | accepted : Reading M a ⟨M, [a], [], [], [], 0⟩
  | performed : Reading M a ⟨M, [], [read_word M a], [], [], 0⟩

/-- A write is under way. -/
inductive Writing (M : Memory) (a d : Word) (strb : BitVec 4) : MemorySlave → Prop where
  | accepted : Writing M a d strb ⟨M, [], [], [a], [(d, strb)], 0⟩
  | performed : Writing M a d strb ⟨write_word M a d strb, [], [], [], [], 1⟩

variable {m c master} {M : Memory} {a d : Word} {strb : BitVec 4}

/-! ### Performing -/

theorem perform_idle : (idle M).perform c = idle M := by
  unfold perform
  cases c.perform_read <;> cases c.perform_write <;> rfl

theorem perform_has_addr : (has_addr M a).perform c = has_addr M a := by
  unfold perform
  cases c.perform_read <;> cases c.perform_write <;> rfl

theorem perform_has_data : (has_data M d strb).perform c = has_data M d strb := by
  unfold perform
  cases c.perform_read <;> cases c.perform_write <;> rfl

theorem Reading.perform (h : Reading M a m) : Reading M a (m.perform c) := by
  unfold MemorySlave.perform
  -- only the choice to perform the read matters, and only once
  cases h with
  | accepted =>
    cases c.perform_read <;> cases c.perform_write
    · exact .accepted
    · exact .accepted
    · exact .performed
    · exact .performed
  | performed => cases c.perform_read <;> cases c.perform_write <;> exact .performed

theorem Writing.perform (h : Writing M a d strb m) : Writing M a d strb (m.perform c) := by
  unfold MemorySlave.perform
  cases h with
  | accepted =>
    cases c.perform_read <;> cases c.perform_write
    · exact .accepted
    · exact .performed
    · exact .accepted
    · exact .performed
  | performed => cases c.perform_read <;> cases c.perform_write <;> exact .performed

/-! ### Answers are offered to accepted requests only -/

theorem rvalid_of_no_reply (h : m.replies = []) : (m.port c).rvalid = false := by
  simp [port, h]

theorem bvalid_of_no_ack (h : m.acks = 0) : (m.port c).bvalid = false := by
  simp [port, h]

theorem r_handshake_of_no_reply (h : m.replies = []) :
    r_handshake master (m.port c) = false := by
  unfold r_handshake
  rw [rvalid_of_no_reply h, Bool.false_and]

theorem b_handshake_of_no_ack (h : m.acks = 0) : b_handshake master (m.port c) = false := by
  unfold b_handshake
  rw [bvalid_of_no_ack h, Bool.false_and]

/-- A read is answered with the word at its address. -/
theorem Reading.mem_eq (h : Reading M a m) : m.mem = M := by
  cases h <;> rfl

theorem Reading.rdata (h : Reading M a m) (hv : (m.port c).rvalid = true) :
    (m.port c).rdata = read_word M a := by
  cases h with
  | accepted =>
    rw [rvalid_of_no_reply rfl] at hv
    simp at hv
  | performed =>
    have hc : c.reply = true := by simpa [port] using hv
    simp [port, hc]

/-! ### The rules of one access at a time -/

/-- A cycle without a transfer: the slave only performs what it has accepted. -/
theorem next_of_no_handshake (haw : aw_handshake master (m.port c) = false)
    (hw : w_handshake master (m.port c) = false) (har : ar_handshake master (m.port c) = false)
    (hr : r_handshake master (m.port c) = false) (hb : b_handshake master (m.port c) = false) :
    m.next c master = m.perform c := by
  have ht : m.transfer c master = m := by
    unfold transfer
    rw [haw, hw, har, hr, hb]
    simp
  unfold next
  rw [ht]

theorem idle_stays (haw : aw_handshake master ((idle M).port c) = false)
    (hw : w_handshake master ((idle M).port c) = false)
    (har : ar_handshake master ((idle M).port c) = false) :
    (idle M).next c master = idle M := by
  rw [next_of_no_handshake haw hw har (r_handshake_of_no_reply rfl) (b_handshake_of_no_ack rfl),
    perform_idle]

theorem idle_accepts_read (haw : aw_handshake master ((idle M).port c) = false)
    (hw : w_handshake master ((idle M).port c) = false)
    (har : ar_handshake master ((idle M).port c) = true) :
    Reading M master.araddr ((idle M).next c master) := by
  have ht : (idle M).transfer c master = ⟨M, [master.araddr], [], [], [], 0⟩ := by
    unfold transfer
    rw [haw, hw, har, r_handshake_of_no_reply rfl, b_handshake_of_no_ack rfl]
    rfl
  unfold next
  rw [ht]
  exact Reading.accepted.perform

theorem Reading.next (h : Reading M a m) (haw : aw_handshake master (m.port c) = false)
    (hw : w_handshake master (m.port c) = false) (har : ar_handshake master (m.port c) = false) :
    if r_handshake master (m.port c) then m.next c master = idle M
    else Reading M a (m.next c master) := by
  cases h with
  | accepted =>
    have hr : r_handshake master (port ⟨M, [a], [], [], [], 0⟩ c) = false :=
      r_handshake_of_no_reply rfl
    rw [if_neg (by simp [hr]), next_of_no_handshake haw hw har hr (b_handshake_of_no_ack rfl)]
    exact Reading.accepted.perform
  | performed =>
    cases hr : r_handshake master (port ⟨M, [], [read_word M a], [], [], 0⟩ c) with
    | true =>
      have ht : transfer ⟨M, [], [read_word M a], [], [], 0⟩ c master = idle M := by
        unfold transfer
        rw [haw, hw, har, hr, b_handshake_of_no_ack rfl]
        rfl
      rw [if_pos rfl, MemorySlave.next, ht, perform_idle]
    | false =>
      -- the reply stays on offer
      rw [if_neg (by simp), next_of_no_handshake haw hw har hr (b_handshake_of_no_ack rfl)]
      exact Reading.performed.perform

theorem idle_accepts_write (haw : aw_handshake master ((idle M).port c) = true)
    (hw : w_handshake master ((idle M).port c) = true)
    (har : ar_handshake master ((idle M).port c) = false) :
    Writing M master.awaddr master.wdata master.wstrb ((idle M).next c master) := by
  have ht : (idle M).transfer c master =
      ⟨M, [], [], [master.awaddr], [(master.wdata, master.wstrb)], 0⟩ := by
    unfold transfer
    rw [haw, hw, har, r_handshake_of_no_reply rfl, b_handshake_of_no_ack rfl]
    rfl
  unfold next
  rw [ht]
  exact Writing.accepted.perform

theorem idle_accepts_addr (haw : aw_handshake master ((idle M).port c) = true)
    (hw : w_handshake master ((idle M).port c) = false)
    (har : ar_handshake master ((idle M).port c) = false) :
    (idle M).next c master = has_addr M master.awaddr := by
  have ht : (idle M).transfer c master = has_addr M master.awaddr := by
    unfold transfer
    rw [haw, hw, har, r_handshake_of_no_reply rfl, b_handshake_of_no_ack rfl]
    rfl
  unfold next
  rw [ht, perform_has_addr]

theorem idle_accepts_data (haw : aw_handshake master ((idle M).port c) = false)
    (hw : w_handshake master ((idle M).port c) = true)
    (har : ar_handshake master ((idle M).port c) = false) :
    (idle M).next c master = has_data M master.wdata master.wstrb := by
  have ht : (idle M).transfer c master = has_data M master.wdata master.wstrb := by
    unfold transfer
    rw [haw, hw, har, r_handshake_of_no_reply rfl, b_handshake_of_no_ack rfl]
    rfl
  unfold next
  rw [ht, perform_has_data]

/-- The data of a write after its address. -/
theorem has_addr_next (haw : aw_handshake master ((has_addr M a).port c) = false)
    (har : ar_handshake master ((has_addr M a).port c) = false) :
    if w_handshake master ((has_addr M a).port c) then
      Writing M a master.wdata master.wstrb ((has_addr M a).next c master)
    else (has_addr M a).next c master = has_addr M a := by
  cases hw : w_handshake master ((has_addr M a).port c) with
  | true =>
    have ht : (has_addr M a).transfer c master =
        ⟨M, [], [], [a], [(master.wdata, master.wstrb)], 0⟩ := by
      unfold transfer
      rw [haw, hw, har, r_handshake_of_no_reply rfl, b_handshake_of_no_ack rfl]
      rfl
    rw [if_pos rfl, next, ht]
    exact Writing.accepted.perform
  | false =>
    rw [if_neg (by simp), next_of_no_handshake haw hw har (r_handshake_of_no_reply rfl)
      (b_handshake_of_no_ack rfl), perform_has_addr]

/-- The address of a write after its data. -/
theorem has_data_next (hw : w_handshake master ((has_data M d strb).port c) = false)
    (har : ar_handshake master ((has_data M d strb).port c) = false) :
    if aw_handshake master ((has_data M d strb).port c) then
      Writing M master.awaddr d strb ((has_data M d strb).next c master)
    else (has_data M d strb).next c master = has_data M d strb := by
  cases haw : aw_handshake master ((has_data M d strb).port c) with
  | true =>
    have ht : (has_data M d strb).transfer c master =
        ⟨M, [], [], [master.awaddr], [(d, strb)], 0⟩ := by
      unfold transfer
      rw [haw, hw, har, r_handshake_of_no_reply rfl, b_handshake_of_no_ack rfl]
      rfl
    rw [if_pos rfl, next, ht]
    exact Writing.accepted.perform
  | false =>
    rw [if_neg (by simp), next_of_no_handshake haw hw har (r_handshake_of_no_reply rfl)
      (b_handshake_of_no_ack rfl), perform_has_data]

/-- A write is acknowledged after it has been performed. -/
theorem Writing.next (h : Writing M a d strb m) (haw : aw_handshake master (m.port c) = false)
    (hw : w_handshake master (m.port c) = false) (har : ar_handshake master (m.port c) = false) :
    if b_handshake master (m.port c) then m.next c master = idle (write_word M a d strb)
    else Writing M a d strb (m.next c master) := by
  cases h with
  | accepted =>
    have hb : b_handshake master (port ⟨M, [], [], [a], [(d, strb)], 0⟩ c) = false :=
      b_handshake_of_no_ack rfl
    rw [if_neg (by simp [hb]), next_of_no_handshake haw hw har (r_handshake_of_no_reply rfl) hb]
    exact Writing.accepted.perform
  | performed =>
    cases hb : b_handshake master (port ⟨write_word M a d strb, [], [], [], [], 1⟩ c) with
    | true =>
      have ht : transfer ⟨write_word M a d strb, [], [], [], [], 1⟩ c master =
          idle (write_word M a d strb) := by
        unfold transfer
        rw [haw, hw, har, hb, r_handshake_of_no_reply rfl]
        rfl
      rw [if_pos rfl, MemorySlave.next, ht, perform_idle]
    | false =>
      -- the acknowledgement stays on offer
      rw [if_neg (by simp), next_of_no_handshake haw hw har (r_handshake_of_no_reply rfl) hb]
      exact Writing.performed.perform

/-! ### Finite delays -/

/-- No request and no answer is delayed for ever. -/
structure Responsive (m : Nat → MemorySlave) (c : Nat → Choice) (master : Nat → Master) :
    Prop where
  ar : ∀ k, (∀ j, k ≤ j → (master j).arvalid = true) → ∃ j, k ≤ j ∧ (c j).arready = true
  aw : ∀ k, (∀ j, k ≤ j → (master j).awvalid = true) → ∃ j, k ≤ j ∧ (c j).awready = true
  w : ∀ k, (∀ j, k ≤ j → (master j).wvalid = true) → ∃ j, k ≤ j ∧ (c j).wready = true
  r : ∀ k, (∀ j, k ≤ j → (m j).reads ≠ [] ∨ (m j).replies ≠ []) →
    ∃ j, k ≤ j ∧ ((m j).port (c j)).rvalid = true
  b : ∀ k, (∀ j, k ≤ j →
      ((m j).write_addrs ≠ [] ∧ (m j).write_datas ≠ []) ∨ (m j).acks ≠ 0) →
    ∃ j, k ≤ j ∧ ((m j).port (c j)).bvalid = true

theorem Reading.outstanding (h : Reading M a m) : m.reads ≠ [] ∨ m.replies ≠ [] := by
  cases h with
  | accepted => exact Or.inl (by simp)
  | performed => exact Or.inr (by simp)

theorem Writing.outstanding (h : Writing M a d strb m) :
    (m.write_addrs ≠ [] ∧ m.write_datas ≠ []) ∨ m.acks ≠ 0 := by
  cases h with
  | accepted => exact Or.inl ⟨by simp, by simp⟩
  | performed => exact Or.inr (by simp)

/-- The choice of a slave without delays. -/
def eager : Choice where
  awready := true
  wready := true
  arready := true
  reply := true
  ack := true
  perform_read := true
  perform_write := true
  rdata := 0
  rresp := 0
  bresp := 0

/-- A slave without delays answers an accepted read in the next cycle. -/
theorem eager_replies (h : m.reads ≠ []) : (m.next eager master).replies ≠ [] := by
  have hreads : (m.transfer eager master).reads ≠ [] := by
    simp [transfer, h]
  have hread : (m.transfer eager master).do_read.replies ≠ [] := by
    unfold do_read
    split
    · rename_i hnil
      exact absurd hnil hreads
    · simp
  show ((m.transfer eager master).do_read.do_write).replies ≠ []
  -- a write performed in the same cycle leaves the replies alone
  unfold do_write
  split
  · exact hread
  · exact hread

/-- A slave without delays acknowledges an accepted write in the next cycle. -/
theorem eager_acks (ha : m.write_addrs ≠ []) (hd : m.write_datas ≠ []) :
    (m.next eager master).acks ≠ 0 := by
  have haddrs : (m.transfer eager master).do_read.write_addrs ≠ [] := by
    unfold do_read
    split <;> simp [transfer, ha]
  have hdatas : (m.transfer eager master).do_read.write_datas ≠ [] := by
    unfold do_read
    split <;> simp [transfer, hd]
  show ((m.transfer eager master).do_read.do_write).acks ≠ 0
  unfold do_write
  split
  · simp
  · rename_i hno
    obtain ⟨a, as, ha'⟩ := List.exists_cons_of_ne_nil haddrs
    obtain ⟨d, ds, hd'⟩ := List.exists_cons_of_ne_nil hdatas
    exact absurd hd' (hno a as d ds ha')

/-- A reply that is not collected is still there in the next cycle. -/
theorem replies_next (h : m.replies ≠ []) (hr : (m.port c).rvalid = false) :
    (m.next c master).replies ≠ [] := by
  have hstay : (m.transfer c master).replies = m.replies := by
    unfold transfer r_handshake
    rw [hr, Bool.false_and]
    rfl
  have hread : ∀ m' : MemorySlave, m'.replies ≠ [] → m'.do_read.replies ≠ [] := by
    intro m' hm'
    unfold do_read
    split
    · exact hm'
    · simp
  have hwrite : ∀ m' : MemorySlave, m'.do_write.replies = m'.replies := by
    intro m'
    unfold do_write
    split <;> rfl
  rw [← hstay] at h
  unfold next perform
  cases c.perform_read <;> cases c.perform_write <;>
    simp only [Bool.false_eq_true, if_true, if_false, hwrite]
  · exact h
  · exact h
  · exact hread _ h
  · exact hread _ h

/-- So is an acknowledgement. -/
theorem acks_next (h : m.acks ≠ 0) (hb : (m.port c).bvalid = false) :
    (m.next c master).acks ≠ 0 := by
  have hstay : (m.transfer c master).acks = m.acks := by
    unfold transfer b_handshake
    rw [hb, Bool.false_and]
    rfl
  have hread : ∀ m' : MemorySlave, m'.do_read.acks = m'.acks := by
    intro m'
    unfold do_read
    split <;> rfl
  have hwrite : ∀ m' : MemorySlave, m'.acks ≠ 0 → m'.do_write.acks ≠ 0 := by
    intro m' hm'
    unfold do_write
    split
    · simp
    · exact hm'
  rw [← hstay] at h
  unfold next perform
  cases c.perform_read <;> cases c.perform_write <;>
    simp only [Bool.false_eq_true, if_true, if_false, hread]
  · exact h
  · exact hwrite _ h
  · exact h
  · exact hwrite _ (by rwa [hread])

/-! ### Bounded delays -/

/-- No request and no answer is delayed for more than `D` cycles. -/
structure Prompt (D : Nat) (m : Nat → MemorySlave) (c : Nat → Choice) (master : Nat → Master) :
    Prop where
  ar : ∀ k, (∀ j, k ≤ j → j ≤ k + D → (master j).arvalid = true) →
    ∃ j, k ≤ j ∧ j ≤ k + D ∧ (c j).arready = true
  aw : ∀ k, (∀ j, k ≤ j → j ≤ k + D → (master j).awvalid = true) →
    ∃ j, k ≤ j ∧ j ≤ k + D ∧ (c j).awready = true
  w : ∀ k, (∀ j, k ≤ j → j ≤ k + D → (master j).wvalid = true) →
    ∃ j, k ≤ j ∧ j ≤ k + D ∧ (c j).wready = true
  r : ∀ k, (∀ j, k ≤ j → j ≤ k + D → (m j).reads ≠ [] ∨ (m j).replies ≠ []) →
    ∃ j, k ≤ j ∧ j ≤ k + D ∧ ((m j).port (c j)).rvalid = true
  b : ∀ k, (∀ j, k ≤ j → j ≤ k + D →
      ((m j).write_addrs ≠ [] ∧ (m j).write_datas ≠ []) ∨ (m j).acks ≠ 0) →
    ∃ j, k ≤ j ∧ j ≤ k + D ∧ ((m j).port (c j)).bvalid = true

theorem Prompt.responsive {D : Nat} {m : Nat → MemorySlave} {c : Nat → Choice}
    {master : Nat → Master} (h : Prompt D m c master) : Responsive m c master where
  ar k hk := by
    obtain ⟨j, hkj, -, hj⟩ := h.ar k (fun j hkj _ => hk j hkj)
    exact ⟨j, hkj, hj⟩
  aw k hk := by
    obtain ⟨j, hkj, -, hj⟩ := h.aw k (fun j hkj _ => hk j hkj)
    exact ⟨j, hkj, hj⟩
  w k hk := by
    obtain ⟨j, hkj, -, hj⟩ := h.w k (fun j hkj _ => hk j hkj)
    exact ⟨j, hkj, hj⟩
  r k hk := by
    obtain ⟨j, hkj, -, hj⟩ := h.r k (fun j hkj _ => hk j hkj)
    exact ⟨j, hkj, hj⟩
  b k hk := by
    obtain ⟨j, hkj, -, hj⟩ := h.b k (fun j hkj _ => hk j hkj)
    exact ⟨j, hkj, hj⟩

section eager_again
variable {m : Nat → MemorySlave} {c : Nat → Choice} {master : Nat → Master} {D : Nat}

/-- A slave that may do nothing for `D` cycles, and then is without delays for
    one: it needs two of these for each access. -/
theorem eager_again_prompt (hagain : ∀ k, ∃ j, k ≤ j ∧ j ≤ k + D ∧ c j = eager)
    (hnext : ∀ k, m (k + 1) = (m k).next (c k) (master k)) : Prompt (2 * D + 1) m c master where
  ar k _ := by
    obtain ⟨j, hkj, hjk, hj⟩ := hagain k
    exact ⟨j, hkj, by omega, by rw [hj]; rfl⟩
  aw k _ := by
    obtain ⟨j, hkj, hjk, hj⟩ := hagain k
    exact ⟨j, hkj, by omega, by rw [hj]; rfl⟩
  w k _ := by
    obtain ⟨j, hkj, hjk, hj⟩ := hagain k
    exact ⟨j, hkj, by omega, by rw [hj]; rfl⟩
  r k h := by
    obtain ⟨j, hkj, hjk, hj⟩ := hagain k
    obtain ⟨l, hjl, hlj, hl⟩ := hagain (j + 1)
    have hoffer : ∀ i, c i = eager → (m i).replies ≠ [] → ((m i).port (c i)).rvalid = true := by
      intro i hi hne
      rw [hi]
      simp [port, eager, hne]
    by_cases hr : (m j).replies = []
    · have hreads : (m j).reads ≠ [] := (h j hkj (by omega)).resolve_right (fun hn => hn hr)
      have hne : (m (j + 1)).replies ≠ [] := by
        rw [hnext, hj]
        exact eager_replies hreads
      -- from here on it is there until it is offered
      obtain ⟨i, hji, hil, hi⟩ := Lts.exists_in_stretch (P := fun i => (m i).replies ≠ [])
        (Q := fun i => ((m i).port (c i)).rvalid = true) hjl hne
        (fun i hi hnone => by
          rw [hnext]
          exact replies_next hi (eq_false_of_ne_true hnone))
        (hoffer l hl)
      exact ⟨i, by omega, by omega, hi⟩
    · exact ⟨j, hkj, by omega, hoffer j hj hr⟩
  b k h := by
    obtain ⟨j, hkj, hjk, hj⟩ := hagain k
    obtain ⟨l, hjl, hlj, hl⟩ := hagain (j + 1)
    have hoffer : ∀ i, c i = eager → (m i).acks ≠ 0 → ((m i).port (c i)).bvalid = true := by
      intro i hi hne
      rw [hi]
      simp [port, eager, hne]
    by_cases hb : (m j).acks = 0
    · obtain ⟨ha, hd⟩ := (h j hkj (by omega)).resolve_right (fun hn => hn hb)
      have hne : (m (j + 1)).acks ≠ 0 := by
        rw [hnext, hj]
        exact eager_acks ha hd
      obtain ⟨i, hji, hil, hi⟩ := Lts.exists_in_stretch (P := fun i => (m i).acks ≠ 0)
        (Q := fun i => ((m i).port (c i)).bvalid = true) hjl hne
        (fun i hi hnone => by
          rw [hnext]
          exact acks_next hi (eq_false_of_ne_true hnone))
        (hoffer l hl)
      exact ⟨i, by omega, by omega, hi⟩
    · exact ⟨j, hkj, by omega, hoffer j hj hb⟩

/-- A slave without delays needs one cycle for each access. -/
theorem eager_prompt (hc : ∀ k, c k = eager)
    (hnext : ∀ k, m (k + 1) = (m k).next (c k) (master k)) : Prompt 1 m c master :=
  eager_again_prompt (D := 0) (fun k => ⟨k, Nat.le_refl k, Nat.le_refl k, hc k⟩) hnext

end eager_again

/-- The choice of a slave that does nothing in this cycle. -/
def busy : Choice where
  awready := false
  wready := false
  arready := false
  reply := false
  ack := false
  perform_read := false
  perform_write := false
  rdata := 0
  rresp := 0
  bresp := 0

/-- Busy but for every `D + 1`-th cycle. -/
def now_and_then (D k : Nat) : Choice := if k % (D + 1) = D then eager else busy

theorem now_and_then_again (D k : Nat) : ∃ j, k ≤ j ∧ j ≤ k + D ∧ now_and_then D j = eager := by
  have hdiv := Nat.div_add_mod k (D + 1)
  have hmod : k % (D + 1) < D + 1 := Nat.mod_lt k (Nat.succ_pos D)
  refine ⟨(D + 1) * (k / (D + 1)) + D, by omega, by omega, ?_⟩
  unfold now_and_then
  rw [Nat.mul_add_mod, Nat.mod_eq_of_lt (Nat.lt_succ_self D), if_pos rfl]

/-- Without delays, but for the reads of the first `n` cycles. -/
def late (n k : Nat) : Choice := { eager with arready := decide (n ≤ k) }

theorem late_again (n k : Nat) : ∃ j, k ≤ j ∧ j ≤ k + n ∧ late n j = eager := by
  refine ⟨k + n, Nat.le_add_right k n, Nat.le_refl _, ?_⟩
  unfold late
  rw [decide_eq_true (Nat.le_add_left n k)]
  rfl

/-! ### A master that waits for one thing at a time -/

/-- It requests nothing. -/
theorem idle_next (haw : master.awvalid = false) (hw : master.wvalid = false)
    (har : master.arvalid = false) : (idle M).next c master = idle M :=
  idle_stays (aw_handshake_of_idle _ haw) (w_handshake_of_idle _ hw) (ar_handshake_of_idle _ har)

/-- It only requests a read. -/
theorem idle_next_read (haw : master.awvalid = false) (hw : master.wvalid = false)
    (har : master.arvalid = true) :
    if ((idle M).port c).arready then Reading M master.araddr ((idle M).next c master)
    else (idle M).next c master = idle M := by
  have haw' := aw_handshake_of_idle ((idle M).port c) haw
  have hw' := w_handshake_of_idle ((idle M).port c) hw
  have har' := ar_handshake_of_request ((idle M).port c) har
  cases hc : ((idle M).port c).arready with
  | true => exact idle_accepts_read haw' hw' (har'.trans hc)
  | false => exact idle_stays haw' hw' (har'.trans hc)

/-- It only waits for the reply to a read. -/
theorem reading_next (hm : Reading M a m) (haw : master.awvalid = false)
    (hw : master.wvalid = false) (har : master.arvalid = false) (hr : master.rready = true) :
    if (m.port c).rvalid then m.next c master = idle M else Reading M a (m.next c master) := by
  have hnext := hm.next (aw_handshake_of_idle (m.port c) haw) (w_handshake_of_idle _ hw)
    (ar_handshake_of_idle _ har)
  rwa [r_handshake_of_ready _ hr] at hnext

end MemorySlave

end AxiLite
