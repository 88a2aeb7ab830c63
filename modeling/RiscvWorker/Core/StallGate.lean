import RiscvWorker.Core.History

/-! # The stall gate

  Two flags decide whether the PC generator offers its PC to the fetch: the
  PC is pending, and the stall was released for it. The second flag is a
  memory of the stall's waveform. This module says what it remembers: exactly
  the releases of the current pending period, for any waveform.
-/

namespace RiscvWorker

namespace RiscvCpu

variable (e : Lts.Execution RiscvCpu Input)

/-- The stall input of cycle `k`. -/
def stall (k : Nat) : Bool := (e.labels k).cm.cm_pc_stall

/-- A PC has been pending from cycle `b` to cycle `k`, and not before. -/
structure PendingPeriod (b k : Nat) : Prop where
  start_le : b ≤ k
  pending : ∀ j, b ≤ j → j ≤ k → (e.states j).pc_release_pending = true
  began : ∀ j, j + 1 = b → (e.states j).pc_release_pending = false

/-- The stall was low in some cycle up to `k` that follows every NEXT_PC
    before `k`. -/
def ReleasedSince (k : Nat) : Prop :=
  ∃ i, i ≤ k ∧ stall e i = false ∧
    ∀ n, n < k → (e.states n).next_pc_transaction = true → n < i

/-- What the gate guarantees over a run. -/
structure StallGate : Prop where
  /-- The PC is offered in those cycles of a pending period that have a
      release in the period behind them, or are one. -/
  valid_iff : ∀ k, (e.states k).pc_valid (e.labels k) = true ↔
    (e.states k).pc_release_pending = true ∧
      ∃ b i, PendingPeriod e b k ∧ b ≤ i ∧ i ≤ k ∧ stall e i = false
  /-- An offered PC is not withdrawn before it is taken. -/
  held : ∀ k, (e.states k).pc_valid (e.labels k) = true →
    (e.states k).pc_ready (e.labels k) = false →
    (e.states (k + 1)).pc_valid (e.labels (k + 1)) = true
  /-- A fetch is requested, and an instruction arrives, after a release only. -/
  fetch_released : ∀ k, ((e.states k).pc_valid (e.labels k) = true ∨
    (e.states k).instruction_valid (e.labels k) = true) → ReleasedSince e k
  /-- A stretch of stalled cycles has at most one NEXT_PC. -/
  one_next_pc : ∀ a b, (∀ j, a ≤ j → j < b → stall e j = true) →
    ∀ n m, a ≤ n → n < b → a ≤ m → m < b → (e.states n).next_pc_transaction = true →
      (e.states m).next_pc_transaction = true → n = m

variable {e}

/-! ### The two flags over a clock edge -/

section edge
variable {s : RiscvCpu} {i : Input}

theorem pending_of_pc_valid (h : s.pc_valid i = true) : s.pc_release_pending = true := by
  have hboth := (Bool.and_eq_true _ _).mp h
  exact hboth.1

/-- A pending PC stays pending until the fetch takes it. -/
theorem pending_kept (hp : s.pc_release_pending = true) (ht : s.pc_transaction i = false) :
    (s.next i).pc_release_pending = true := by
  have hn : s.next_pc_transaction = false := by
    simp [next_pc_transaction, next_pc_ready, hp]
  show s.pc_release_pending' i = true
  rw [pc_release_pending', hn, ht]
  exact hp

/-- The release flag in the next cycle, while the PC stays pending. -/
theorem released_next (hp : s.pc_release_pending = true) (ht : s.pc_transaction i = false) :
    (s.next i).pc_stall_released = (!i.cm.cm_pc_stall || s.pc_stall_released) := by
  have hn : s.next_pc_transaction = false := by
    simp [next_pc_transaction, next_pc_ready, hp]
  show s.pc_stall_released' i = _
  rw [pc_stall_released', hn, ht, hp]
  cases i.cm.cm_pc_stall <;> rfl

/-- No release is carried over into a new pending period. -/
theorem released_cleared (h : s.next_pc_transaction = true ∨ s.pc_transaction i = true) :
    (s.next i).pc_stall_released = false := by
  show s.pc_stall_released' i = false
  rw [pc_stall_released']
  rcases h with h | h
  · rw [if_pos h]
  · rw [if_pos h, ite_self]

theorem pending_cleared (hn : s.next_pc_transaction = false) (ht : s.pc_transaction i = true) :
    (s.next i).pc_release_pending = false := by
  show s.pc_release_pending' i = false
  rw [pc_release_pending', hn, ht]
  rfl

end edge

/-! ### What the release flag remembers -/

section gate
variable (hv : system.valid_exec e)
include hv

/-- The release flag is set iff the PC has been pending since an earlier
    cycle in which the stall was low. -/
theorem released_iff (k : Nat) :
    (e.states k).pc_stall_released = true ↔
      ∃ i, i < k ∧ stall e i = false ∧
        ∀ j, i ≤ j → j ≤ k → (e.states j).pc_release_pending = true := by
  have hiff := Lts.remembers_iff (fun k => (e.states k).pc_release_pending)
    (fun k => (e.states k).pc_stall_released) (fun k => !stall e k) ?_ ?_ ?_ k
  · simpa using hiff
  · have hinit : e.states 0 = reset := hv.1
    show (e.states 0).pc_stall_released = false
    rw [hinit]
    rfl
  · -- the PC stays pending, so it is not taken in this cycle
    intro k hp hp'
    rw [hv.2 k] at hp' ⊢
    apply released_next hp
    apply eq_false_of_ne_true
    intro ht
    have hn : (e.states k).next_pc_transaction = false := by
      simp [next_pc_transaction, next_pc_ready, hp]
    rw [pending_cleared hn ht] at hp'
    exact absurd hp' (by decide)
  · intro k hp hflag
    rw [hv.2 k] at hp hflag
    have hkept : ¬ ((e.states k).next_pc_transaction = true ∨
        (e.states k).pc_transaction (e.labels k) = true) := by
      intro hclear
      rw [released_cleared hclear] at hflag
      exact absurd hflag (by decide)
    obtain ⟨hn, ht⟩ := not_or.mp hkept
    have hidle : (e.states k).pc_release_pending = false := by
      apply eq_false_of_ne_true
      intro hpend
      exact hp ⟨hpend, pending_kept hpend (by simpa using ht)⟩
    refine ⟨?_, hidle⟩
    -- without a pending PC there is nothing to release
    have hsame : ((e.states k).next (e.labels k)).pc_stall_released =
        (e.states k).pc_stall_released := by
      show (e.states k).pc_stall_released' (e.labels k) = _
      rw [pc_stall_released', if_neg hn, if_neg ht, hidle]
      rfl
    rwa [← hsame]

omit hv in
/-- A pending cycle belongs to a period. -/
theorem exists_pending_period {k : Nat} (h : (e.states k).pc_release_pending = true) :
    ∃ b, PendingPeriod e b k := by
  induction k with
  | zero =>
    refine ⟨0, Nat.le_refl 0, ?_, ?_⟩
    · intro j _ hj
      obtain rfl : j = 0 := by omega
      exact h
    · intro j hj
      omega
  | succ k ih =>
    cases hp : (e.states k).pc_release_pending with
    | false =>
      -- the period begins in this cycle
      refine ⟨k + 1, Nat.le_refl _, ?_, ?_⟩
      · intro j hj hjk
        obtain rfl : j = k + 1 := by omega
        exact h
      · intro j hj
        obtain rfl : j = k := by omega
        exact hp
    | true =>
      obtain ⟨b, hb⟩ := ih hp
      refine ⟨b, by have := hb.start_le; omega, ?_, hb.began⟩
      intro j hbj hjk
      rcases Nat.eq_or_lt_of_le hjk with rfl | hlt
      · exact h
      · exact hb.pending j hbj (by omega)

/-- The PC is offered iff it is pending and the stall was low in this cycle
    or in an earlier one since which the PC has been pending. -/
theorem pc_valid_iff (k : Nat) :
    (e.states k).pc_valid (e.labels k) = true ↔
      ∃ i, i ≤ k ∧ stall e i = false ∧
        ∀ j, i ≤ j → j ≤ k → (e.states j).pc_release_pending = true := by
  have hrel := released_iff hv k
  unfold pc_valid
  rw [Bool.and_eq_true, Bool.or_eq_true, hrel]
  constructor
  · rintro ⟨hp, hlow | ⟨i, hi, hlow, hpend⟩⟩
    · refine ⟨k, Nat.le_refl k, by simpa [stall] using hlow, ?_⟩
      intro j hkj hjk
      obtain rfl : j = k := by omega
      exact hp
    · exact ⟨i, by omega, hlow, hpend⟩
  · rintro ⟨i, hi, hlow, hpend⟩
    refine ⟨hpend k hi (Nat.le_refl k), ?_⟩
    rcases Nat.eq_or_lt_of_le hi with rfl | hlt
    · have hlow' : (e.labels i).cm.cm_pc_stall = false := hlow
      exact Or.inl (by rw [hlow']; rfl)
    · exact Or.inr ⟨i, hlt, hlow, hpend⟩

/-- The same, with the beginning of the pending period. -/
theorem pc_valid_iff_period (k : Nat) :
    (e.states k).pc_valid (e.labels k) = true ↔
      (e.states k).pc_release_pending = true ∧
        ∃ b i, PendingPeriod e b k ∧ b ≤ i ∧ i ≤ k ∧ stall e i = false := by
  rw [pc_valid_iff hv k]
  constructor
  · rintro ⟨i, hi, hlow, hpend⟩
    -- the period of `i` goes on up to `k`
    obtain ⟨b, hb⟩ := exists_pending_period (hpend i (Nat.le_refl i) hi)
    have hbi := hb.start_le
    refine ⟨hpend k hi (Nat.le_refl k), b, i, ⟨by omega, ?_, hb.began⟩, hbi, hi, hlow⟩
    intro j hbj hjk
    by_cases hji : j ≤ i
    · exact hb.pending j hbj hji
    · exact hpend j (by omega) hjk
  · rintro ⟨-, b, i, hb, hbi, hik, hlow⟩
    exact ⟨i, hik, hlow, fun j hij hjk => hb.pending j (by omega) hjk⟩

theorem pc_valid_held {k : Nat} (h : (e.states k).pc_valid (e.labels k) = true)
    (hr : (e.states k).pc_ready (e.labels k) = false) :
    (e.states (k + 1)).pc_valid (e.labels (k + 1)) = true := by
  have hp := pending_of_pc_valid h
  have ht : (e.states k).pc_transaction (e.labels k) = false := by
    rw [pc_transaction, hr, Bool.and_false]
  have hp' := pending_kept hp ht
  rw [← hv.2 k] at hp'
  obtain ⟨i, hi, hlow, hpend⟩ := (pc_valid_iff hv k).mp h
  refine (pc_valid_iff hv (k + 1)).mpr ⟨i, by omega, hlow, ?_⟩
  intro j hij hjk
  rcases Nat.eq_or_lt_of_le hjk with rfl | hlt
  · exact hp'
  · exact hpend j hij (by omega)

/-! ### One release for each instruction -/

/-- The token leaves `waiting` with a release, and NEXT_PC puts it back. -/
theorem released_since (k : Nat) {p : Phase} (hat : (e.states k).At p)
    (hp : p ≠ .waiting ∨ stall e k = false) : ReleasedSince e k := by
  induction k generalizing p with
  | zero =>
    have hinit : e.states 0 = reset := hv.1
    rw [hinit] at hat
    obtain rfl : p = .waiting := hat.unique At.reset
    rcases hp with hp | hlow
    · exact absurd rfl hp
    · exact ⟨0, Nat.le_refl 0, hlow, fun n hn _ => absurd hn (Nat.not_lt_zero n)⟩
  | succ k ih =>
    rcases Classical.em (stall e (k + 1) = false) with hlow | hhigh
    · exact ⟨k + 1, Nat.le_refl _, hlow, fun n hn _ => hn⟩
    · have hp : p ≠ .waiting := hp.resolve_right hhigh
      obtain ⟨q, hatq⟩ := at_phase hv k
      have hnext := hatq.next (e.labels k)
      rw [← hv.2 k] at hnext
      have hpq := hat.unique hnext
      have hnpc := hatq.next_pc_transaction
      -- only NEXT_PC leads back to `waiting`, so it is not what happens in cycle `k`
      have hq : q ≠ .next_pc := by
        rintro rfl
        exact hp hpq
      have hgo : q ≠ .waiting ∨ stall e k = false := by
        by_cases hw : q = .waiting
        · subst hw
          refine Or.inr ?_
          by_contra hst
          have hst' : (e.labels k).cm.cm_pc_stall = true := by simpa [stall] using hst
          apply hp
          rw [hpq, Phase.next, hst']
          rfl
        · exact Or.inl hw
      obtain ⟨i, hi, hlow, hafter⟩ := ih hatq hgo
      refine ⟨i, by omega, hlow, ?_⟩
      intro n hn hnn
      rcases Nat.eq_or_lt_of_le (Nat.lt_succ_iff.mp hn) with rfl | hlt
      · rw [hnpc] at hnn
        exact absurd (by simpa using hnn) hq
      · exact hafter n hlt hnn

theorem released_since_of_next_pc {k : Nat} (h : (e.states k).next_pc_transaction = true) :
    ReleasedSince e k := by
  obtain ⟨p, hat⟩ := at_phase hv k
  have hnpc := hat.next_pc_transaction
  refine released_since hv k hat (Or.inl ?_)
  rintro rfl
  rw [h] at hnpc
  exact absurd hnpc (by decide)

/-- Between two NEXT_PC transactions the stall was low. -/
theorem low_between_next_pc {n m : Nat} (hnm : n < m)
    (hn : (e.states n).next_pc_transaction = true)
    (hm : (e.states m).next_pc_transaction = true) :
    ∃ i, n < i ∧ i ≤ m ∧ stall e i = false := by
  obtain ⟨i, him, hlow, hafter⟩ := released_since_of_next_pc hv hm
  exact ⟨i, hafter n hnm hn, him, hlow⟩

/-- The gate remembers releases exactly. -/
theorem stall_gate : StallGate e where
  valid_iff := pc_valid_iff_period hv
  held _ h hr := pc_valid_held hv h hr
  fetch_released := by
    intro k h
    obtain ⟨p, hat⟩ := at_phase hv k
    refine released_since hv k hat ?_
    rcases h with h | h
    · have hval := hat.pc_valid (e.labels k)
      rw [h] at hval
      by_cases hw : p = .waiting
      · subst hw
        exact Or.inr (by simpa [stall] using hval.symm)
      · exact Or.inl hw
    · have hins := hat.instruction_valid (e.labels k)
      rw [h] at hins
      refine Or.inl ?_
      rintro rfl
      exact absurd hins (by simp)
  one_next_pc := by
    intro a b hst n m han hnb ham hmb hn hm
    -- a release between the two would be in the stretch
    rcases Nat.lt_trichotomy n m with hlt | heq | hlt
    · obtain ⟨i, hni, him, hlow⟩ := low_between_next_pc hv hlt hn hm
      rw [hst i (by omega) (by omega)] at hlow
      exact absurd hlow (by decide)
    · exact heq
    · obtain ⟨i, hmi, hin, hlow⟩ := low_between_next_pc hv hlt hm hn
      rw [hst i (by omega) (by omega)] at hlow
      exact absurd hlow (by decide)

end gate

/-- The stall is low in cycle 2 only. -/
def pulsed_stall (k : Nat) : Input :=
  { store_slave with cm := { store_slave.cm with cm_pc_stall := k != 2 } }

/-- One pulse runs one instruction: its NEXT_PC is the only one. -/
theorem stall_gate_pulse :
    StallGate (.of_inputs next reset pulsed_stall) ∧
    (Lts.Execution.of_inputs next reset pulsed_stall).count
      (fun s _ => s.next_pc_transaction) 20 = 1 := by
  have hv : system.valid_exec (.of_inputs next reset pulsed_stall) := ⟨rfl, fun _ => rfl⟩
  exact ⟨stall_gate hv, by decide +kernel⟩

end RiscvCpu

end RiscvWorker
