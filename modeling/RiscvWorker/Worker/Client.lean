import RiscvWorker.Host.Agreement
import RiscvWorker.Host.Workflow
import RiscvWorker.Worker.EagerBoard

/-! # Client programs on the worker

  What a program over the client does is decided by the worker: the texts on
  the serial line, the firmware, the bus and the clock do not show. Every
  call whose integers are in range is a request to the worker; any other
  raises and changes nothing.

  `client_service` says so, the real client on a wired board implements it,
  and the rules at the end are those for a halted worker, where each call is
  answered in one way.
-/

namespace RiscvWorker

open ByteMemory
open Interaction (Program Service Implements wp)
open Firmware (Board Request Wired State xil_printf apply_fault_mode)
open Rv32i (ArchState)

namespace Host

variable {H : Type}

/-! ### Calls in range and out of range -/

/-- What a call raises when its integers are not in range. -/
def Method.refusal (m : Method) : Raised :=
  match m.check with
  | .error e => e
  | .ok () => .RuntimeError

section calls
variable (b : Board H) {m : Method} (s : State H)

theorem served_of_inRange (hin : m.InRange) : Served b m s (m.run b ⟨s, []⟩) := by
  have hcheck := check_of_inRange hin
  rcases recovered m hcheck with ⟨-, r, hr, hasks⟩ | ⟨hout, -⟩
  · refine served_of_execute b s hcheck hasks ?_
    unfold Firmware.outcome
    rw [if_neg (Nat.not_le.mpr (words_fit hin)), tokens_words (isWord_words m)]
    exact hr
  · exact absurd hin hout

/-- The hardware does not notice a call out of range. -/
theorem refused_of_not_inRange (hout : ¬ m.InRange) :
    ∃ s', m.run b ⟨s, []⟩ = some (.error m.refusal, ⟨s', []⟩) ∧
      s'.world.hardware = s.world.hardware := by
  unfold Method.refusal
  rcases hcheck : m.check with e | ⟨⟨⟩⟩
  · refine ⟨s, ?_, rfl⟩
    rw [run_eq, hcheck, checked_error]
  · have hrejected : Rejected s (m.run b ⟨s, []⟩) := by
      rcases outcome_words (isWord_words m) with hlong | hout'
      · exact rejected_of_reject b s hcheck (by decide) hlong
      · rcases recovered m hcheck with ⟨hin, -⟩ | ⟨-, reason, hreason, hr⟩
        · exact absurd hin hout
        · exact rejected_of_reject b s hcheck hreason (hout'.trans hr)
    obtain ⟨s', reason, hrun, -, hworld⟩ := hrejected
    refine ⟨s', hrun, ?_⟩
    rw [hworld]
    rfl

end calls

/-- A method asks for one thing. -/
theorem Method.Asks.unique {m : Method} {r r' : Request} (h : m.Asks r) (h' : m.Asks r') :
    r = r' := by
  have hword : ∀ {k : Nat} {v v' : BitVec k} {n : Int}, (v.toNat : Int) = n →
      (v'.toNat : Int) = n → v = v' := by
    intro k v v' n hv hv'
    exact BitVec.eq_of_toNat_eq (by omega)
  have hmode : ∀ {f f' : Firmware.FaultMode}, f.value = f'.value → f = f' := by
    intro f f' hf
    cases f <;> cases f' <;> first | rfl | exact absurd hf (by decide)
  cases m <;> cases r <;> first | exact h.elim | skip
  all_goals cases r' <;> first | exact h'.elim | skip
  case set_pc => rw [hword h h']
  case get_reg => rw [hword h h']
  case set_reg => rw [hword h.1 h'.1, hword h.2 h'.2]
  case read_word => rw [hword h h']
  case write_word => rw [hword h.1 h'.1, hword h.2 h'.2]
  case fault_reg =>
    rw [hword h.1 h'.1, hmode (hword h.2.1 h'.2.1), hword h.2.2 h'.2.2]
  case fault_mem =>
    rw [Subtype.ext (hword h.1 h'.1), hmode (hword h.2.1 h'.2.1), hword h.2.2 h'.2.2]
  all_goals rfl

/-! ### The service -/

/-- A worker, and the lines on the screen. -/
structure Bench where
  worker : Worker
  stdout : List (List Text.Byte)

/-- What becomes of a call. -/
def Answers (bram : Word) (m : Method) (w : Worker) (result : Except Failure (Option Word))
    (w' : Worker) : Prop :=
  (m.InRange ∧ ∃ r value, m.Asks r ∧ Worker.Serves bram r w value w' ∧ result = .ok value) ∨
  (¬ m.InRange ∧ w' = w ∧ result = .error (.raised m.refusal))

def client_service (bram : Word) : Service Operation (Option Word) Failure Bench where
  permits
    | .call m, w => m.InRange → ∀ r, m.Asks r → Worker.Permits bram r w.worker
    | .print _, _ => True
  serves
    | .call m, w, result, w' => Answers bram m w.worker result w'.worker ∧ w'.stdout = w.stdout
    | .print text, w, result, w' =>
      result = .ok none ∧ w' = { w with stdout := w.stdout ++ [text] }

/-- The session is between two calls, and the hardware is the worker. -/
structure Session.Holds (machine : H → Machine) (s : Session H) (w : Bench) : Prop where
  hardware : (machine s.serial.firmware.world.hardware).Holds w.worker
  all_read : s.serial.in_buffer = []
  stdout : s.stdout = w.stdout

/-- The client on a wired board is that service. -/
theorem client_implements {D : Nat} {b : Board H} {machine : H → Machine}
    (hw : Wired D b machine) :
    Implements (Operation.exec b) (client_service b.XPAR_XBRAM_0_BASEADDR)
      (Session.Holds machine) := by
  intro op s w hs hpermits
  obtain ⟨⟨firmware, in_buffer⟩, stdout⟩ := s
  obtain ⟨hhardware, hread, hstdout⟩ := hs
  obtain rfl : in_buffer = [] := hread
  cases op with
  | print text =>
    refine ⟨_, _, _, rfl, ⟨rfl, rfl⟩, ⟨hhardware, rfl, ?_⟩⟩
    rw [show stdout = w.stdout from hstdout]
  | call m =>
    by_cases hin : m.InRange
    · obtain ⟨s', r, hasks, hworld, hrun⟩ := served_of_inRange b firmware hin
      obtain ⟨w', hserves, hholds⟩ := hw.serves hhardware (hpermits hin r hasks)
      refine ⟨.ok (r.value b firmware.world.hardware), ⟨⟨s', []⟩, stdout⟩, ⟨w', w.stdout⟩, ?_,
        ⟨.inl ⟨hin, r, _, hasks, hserves, rfl⟩, rfl⟩, ⟨?_, rfl, hstdout⟩⟩
      · unfold Operation.exec
        simp only [hrun]
        rfl
      · show (machine s'.world.hardware).Holds w'
        rw [hworld, Request.hardware_perform]
        exact hholds
    · obtain ⟨s', hrun, hworld⟩ := refused_of_not_inRange b firmware hin
      refine ⟨.error (.raised m.refusal), ⟨⟨s', []⟩, stdout⟩, w, ?_,
        ⟨.inr ⟨hin, rfl, rfl⟩, rfl⟩, ⟨?_, rfl, hstdout⟩⟩
      · unfold Operation.exec
        simp only [hrun]
        rfl
      · show (machine s'.world.hardware).Holds w.worker
        rw [hworld]
        exact hhardware

/-! ### A halted worker -/

/-- A halted worker in `A`. -/
def at_rest (A : ArchState) (stdout : List (List Text.Byte)) : Bench := ⟨⟨false, A⟩, stdout⟩

theorem aligned_of_in_bram {bram a : Word} (h : in_bram bram a = true) : a.toNat % 4 = 0 := by
  unfold in_bram at h
  rw [Bool.and_eq_true, beq_iff_eq] at h
  have hmask := congrArg BitVec.toNat h.2
  have hand : a.toNat &&& (0x3#32).toNat = a.toNat % 4 :=
    Nat.and_two_pow_sub_one_eq_mod a.toNat 2
  rw [BitVec.toNat_and, hand] at hmask
  exact hmask

/-- An integer modulo 2^32 as a word. -/
theorem ofInt_value (n : Int) : ((BitVec.ofInt 32 n).toNat : Int) = n % 2 ^ 32 := by
  rw [BitVec.toNat_ofInt, Int.toNat_of_nonneg]
  · rfl
  · exact Int.emod_nonneg n (by decide)

section at_rest
variable {bram : Word} {A A' : ArchState} {out : List (List Text.Byte)}
  {E : Failure → Bench → Prop}

theorem wp_perform {m : Method} {r : Request} {result : Option Word}
    {Q : Option Word → Bench → Prop} (hin : m.InRange) (hasks : m.Asks r)
    (hserve : Worker.serve ⟨false, A⟩ bram r = some (result, ⟨false, A'⟩))
    (hQ : Q result (at_rest A' out)) :
    wp (client_service bram) (Program.perform (.call m)) Q E (at_rest A out) := by
  refine Interaction.wp_perform_of_unique (v := result) (u := at_rest A' out) ?_ ?_ hQ
  · intro _ r' hasks'
    rw [hasks'.unique hasks]
    exact Worker.permits_of_halted rfl hserve (Worker.sound_of_halted rfl)
  · rintro answer ⟨w', out'⟩ ⟨hanswers, hout⟩
    rcases hanswers with ⟨-, r', value, hasks', hserves, hanswer⟩ | ⟨hno, -⟩
    · rw [hasks'.unique hasks] at hserves
      obtain ⟨w₂, hserve', hlater⟩ := Worker.Serves.of_halted rfl hserves
      rw [show (at_rest A out).worker = ⟨false, A⟩ from rfl, hserve] at hserve'
      obtain ⟨rfl, rfl⟩ := Prod.mk.inj (Option.some.inj hserve')
      obtain rfl : w' = ⟨false, A'⟩ := hlater.of_halted rfl
      exact ⟨hanswer, congrArg (Bench.mk _) hout⟩
    · exact absurd hin hno

/-- A method that returns nothing. -/
theorem wp_call {m : Method} {r : Request} {Q : Unit → Bench → Prop} (hin : m.InRange)
    (hasks : m.Asks r) (hserve : Worker.serve ⟨false, A⟩ bram r = some (none, ⟨false, A'⟩))
    (hQ : Q () (at_rest A' out)) :
    wp (client_service bram) (Script.call m) Q E (at_rest A out) :=
  Interaction.wp_seq (wp_perform hin hasks hserve hQ)

/-- A method that returns an integer. -/
theorem wp_value {m : Method} {r : Request} {v : Word} {Q : Int → Bench → Prop}
    (hin : m.InRange) (hasks : m.Asks r)
    (hserve : Worker.serve ⟨false, A⟩ bram r = some (some v, ⟨false, A⟩))
    (hQ : Q v.toNat (at_rest A out)) :
    wp (client_service bram) (Script.value m) Q E (at_rest A out) :=
  Interaction.wp_seq (wp_perform hin hasks hserve hQ)

theorem wp_print {text : List Text.Byte} {Q : Unit → Bench → Prop} {w : Bench}
    (hQ : Q () { w with stdout := w.stdout ++ [text] }) :
    wp (client_service bram) (Script.print text) Q E w := by
  refine Interaction.wp_seq (Interaction.wp_perform_of_unique (v := none) trivial ?_ hQ)
  exact fun _ _ hserves => hserves

/-- A STOP, whatever the worker does: it comes to rest in a later state. -/
theorem wp_stop {Q : Unit → Bench → Prop} {w : Bench}
    (hQ : ∀ w', w.worker.Later w' → Q () (at_rest w'.state w.stdout)) :
    wp (client_service bram) (Script.call .stop) Q E w := by
  refine Interaction.wp_seq ⟨?_, ?_⟩
  · intro _ r hasks
    obtain rfl : r = .stop := hasks.unique (show Method.stop.Asks .stop from trivial)
    intro w₁ _
    exact ⟨none, _, rfl, Worker.sound_of_halted rfl⟩
  · rintro answer ⟨w', _⟩ ⟨hanswers, rfl⟩
    rcases hanswers with ⟨-, r, value, hasks, ⟨w₁, w₂, hlater, hserve, hlater'⟩, rfl⟩ | ⟨hno, -⟩
    · obtain rfl : r = .stop := hasks.unique (show Method.stop.Asks .stop from trivial)
      obtain ⟨-, rfl⟩ := Prod.mk.inj (Option.some.inj hserve)
      obtain rfl := hlater'.of_halted rfl
      exact hQ w₁ hlater
    · exact absurd trivial hno

section calls
variable {Q : Unit → Bench → Prop} {V : Int → Bench → Prop}

theorem wp_set_reg {reg : BitVec 5} (hreg : reg ≠ 0#5) (value : Int)
    (hQ : Q () (at_rest (A.set_reg reg (BitVec.ofInt 32 value)) out)) :
    wp (client_service bram) (Script.call (.set_reg reg.toNat value)) Q E (at_rest A out) := by
  have hlt := reg.isLt
  refine wp_call (r := .set_reg reg (BitVec.ofInt 32 value)) ⟨by omega, by omega⟩
    ⟨rfl, ofInt_value value⟩ ?_ hQ
  rw [Worker.serve, Worker.with_reg_eq rfl hreg]
  rfl

theorem wp_get_reg (reg : BitVec 5) (hV : V (A.reg reg).toNat (at_rest A out)) :
    wp (client_service bram) (Script.value (.get_reg reg.toNat)) V E (at_rest A out) := by
  have hlt := reg.isLt
  exact wp_value (r := .get_reg reg) ⟨by omega, by omega⟩ rfl rfl hV

theorem wp_set_pc (pc : Word) (hQ : Q () (at_rest { A with pc := pc } out)) :
    wp (client_service bram) (Script.call (.set_pc pc.toNat)) Q E (at_rest A out) := by
  have hlt := pc.isLt
  exact wp_call (r := .set_pc pc) ⟨by omega, by omega⟩ rfl rfl hQ

theorem wp_get_pc (hV : V A.pc.toNat (at_rest A out)) :
    wp (client_service bram) (Script.value .get_pc) V E (at_rest A out) :=
  wp_value (r := .get_pc) trivial trivial rfl hV

theorem wp_step (hstep : Rv32i.step A = some A') (hQ : Q () (at_rest A' out)) :
    wp (client_service bram) (Script.call .step) Q E (at_rest A out) := by
  refine wp_call (r := .step) trivial trivial ?_ hQ
  rw [Worker.serve, if_neg Bool.false_ne_true, hstep]
  rfl

theorem wp_fault_reg {reg : BitVec 5} (hreg : reg ≠ 0#5) (mode : Firmware.FaultMode) (mask : Int)
    (hQ : Q () (at_rest (A.set_reg reg
      (apply_fault_mode (A.reg reg) mode.value (BitVec.ofInt 32 mask))) out)) :
    wp (client_service bram) (Script.call (.fault_reg reg.toNat mode.value.toNat mask)) Q E
      (at_rest A out) := by
  have hlt := reg.isLt
  have hmode : mode.value.toNat ≤ 3 := by cases mode <;> decide
  refine wp_call (r := .fault_reg reg mode (BitVec.ofInt 32 mask))
    ⟨⟨by omega, by omega⟩, by omega, by omega⟩ ⟨rfl, rfl, ofInt_value mask⟩ ?_ hQ
  rw [Worker.serve, Worker.with_reg_eq rfl hreg]
  rfl

section words
variable {a : Word} (hin : in_bram bram a = true)
include hin

theorem word_in_range :
    (a.toNat : Int) % 4 = 0 ∧ 0 ≤ (a.toNat : Int) ∧ (a.toNat : Int) < 2 ^ 32 := by
  have halign := aligned_of_in_bram hin
  have hlt := a.isLt
  omega

theorem wp_read_word (hV : V (load_word A.mem a).toNat (at_rest A out)) :
    wp (client_service bram) (Script.value (.read_word a.toNat)) V E (at_rest A out) :=
  wp_value (r := .read_word a) (word_in_range hin) rfl (Worker.serve_read_word rfl hin) hV

theorem wp_write_word (value : Int)
    (hQ : Q () (at_rest { A with mem := store_word A.mem a (BitVec.ofInt 32 value) } out)) :
    wp (client_service bram) (Script.call (.write_word a.toNat value)) Q E (at_rest A out) := by
  refine wp_call (r := .write_word a (BitVec.ofInt 32 value)) (word_in_range hin)
    ⟨rfl, ofInt_value value⟩ ?_ hQ
  rw [Worker.serve, Worker.with_word_eq rfl hin]
  rfl

theorem wp_fault_mem (mode : Firmware.FaultMode) (mask : Int)
    (hQ : ∀ value, value = apply_fault_mode (load_word A.mem a) mode.value (BitVec.ofInt 32 mask) →
      Q () (at_rest { A with mem := store_word A.mem a value } out)) :
    wp (client_service bram) (Script.call (.fault_mem a.toNat mode.value.toNat mask)) Q E
      (at_rest A out) := by
  have hmode : mode.value.toNat ≤ 3 := by cases mode <;> decide
  have hmask : a &&& 0x3#32 = 0#32 := by
    unfold in_bram at hin
    rw [Bool.and_eq_true, beq_iff_eq] at hin
    exact hin.2
  refine wp_call (r := .fault_mem ⟨a, hmask⟩ mode (BitVec.ofInt 32 mask))
    ⟨word_in_range hin, by omega, by omega⟩ ⟨rfl, rfl, ofInt_value mask⟩ ?_ (hQ _ rfl)
  rw [Worker.serve, Worker.with_word_eq rfl hin]
  rfl

end words

end calls

end at_rest

/-! ### A session after reset -/

def boot_session (program : Memory) : Session Machine :=
  ⟨⟨Firmware.eager_state program, []⟩, []⟩

theorem boot_session_holds (program : Memory) :
    (boot_session program).Holds id (at_rest (boot_state program) []) :=
  ⟨Machine.boot_holds program, rfl, rfl⟩

/-! ### Whole programs -/

end Host

end RiscvWorker
