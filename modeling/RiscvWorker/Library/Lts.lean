import Mathlib.Data.Nat.Find
import Mathlib.Logic.Function.Iterate

/-! # Labelled transition systems

  A system is a set of initial states and a labelled step relation; an
  execution is an infinite sequence of states and labels. For a clocked
  circuit a label is what the environment drives during one cycle, and
  a step is one clock edge.

  Beside the invariance rule the module has what the analysis of a
  handshake needs:

  * counts and logs of what happened up to a cycle, and logs made of blocks,
  * the *tracking* rules: a concrete execution that is in simulation with a
    (partial) step function, one abstract step for each visible cycle,
  * the *waiting* rule: a condition that holds until an event occurs, with
    the first cycle in which the event meets it, and its version with a rank,
  * the *remembering* rule: a flag that keeps an event for a period.
-/

namespace Lts

universe u v w

/-! ## Systems and executions -/

/-- A labelled transition system. -/
structure System (State : Type u) (Label : Type v) where
  init : State → Prop
  step : State → Label → State → Prop

/-- An infinite sequence of states and labels; `states (k + 1)` is the
    state after the label of position `k`. -/
structure Execution (State : Type u) (Label : Type v) where
  states : Nat → State
  labels : Nat → Label

section systems
variable {State : Type u} {Label : Type v} {sys : System State Label}

/-- An execution that starts in an initial state and takes a step at every
    position. -/
def System.valid_exec (sys : System State Label) (e : Execution State Label) : Prop :=
  sys.init (e.states 0) ∧ ∀ k, sys.step (e.states k) (e.labels k) (e.states (k + 1))

/-- The states some run from an initial state ends in. -/
inductive System.Reachable (sys : System State Label) : State → Prop where
  | init : ∀ {s}, sys.init s → Reachable sys s
  | step : ∀ {s l s'}, Reachable sys s → sys.step s l s' → Reachable sys s'

/-- An inductive invariant holds in every reachable state. -/
theorem System.Reachable.invariant {P : State → Prop}
    (hinit : ∀ s, sys.init s → P s)
    (hstep : ∀ s l s', P s → sys.step s l s' → P s')
    {s : State} (h : sys.Reachable s) : P s := by
  induction h with
  | init hs => exact hinit _ hs
  | step _ hl ih => exact hstep _ _ _ ih hl

/-- The steps of a system that meet a condition. -/
def System.restrict (sys : System State Label) (allowed : State → Label → Prop) :
    System State Label where
  init := sys.init
  step s l s' := sys.step s l s' ∧ allowed s l

/-- The same steps, from one state on. -/
def System.after (sys : System State Label) (s₀ : State) : System State Label where
  init s := s = s₀
  step := sys.step

theorem System.valid_exec.reachable {e : Execution State Label}
    (hv : sys.valid_exec e) (k : Nat) : sys.Reachable (e.states k) := by
  induction k with
  | zero => exact .init hv.1
  | succ k ih => exact .step ih (hv.2 k)

/-- An inductive invariant holds at every position of an execution. -/
theorem System.valid_exec.always {e : Execution State Label} (hv : sys.valid_exec e)
    {P : State → Prop} (hinit : ∀ s, sys.init s → P s)
    (hstep : ∀ s l s', P s → sys.step s l s' → P s') (k : Nat) : P (e.states k) :=
  (hv.reachable k).invariant hinit hstep

end systems

/-! ## Blocks -/

section blocks
variable {α : Type w} {block rest rest' : List α → Prop} {l m : List α}

/-- A sequence of blocks, followed by one that may be unfinished. -/
def InBlocks (block rest : List α → Prop) (l : List α) : Prop :=
  ∃ (blocks : List (List α)) (tail : List α),
    (∀ b ∈ blocks, block b) ∧ rest tail ∧ l = blocks.flatten ++ tail

theorem InBlocks.of_rest (h : rest l) : InBlocks block rest l :=
  ⟨[], l, by simp, h, rfl⟩

theorem InBlocks.of_block (hl : block l) (h : rest []) : InBlocks block rest l :=
  ⟨[l], [], List.forall_mem_singleton.mpr hl, h, by simp⟩

/-- What follows is appended to the unfinished block. -/
theorem InBlocks.append (h : InBlocks block rest l)
    (hm : ∀ tail, rest tail → InBlocks block rest' (tail ++ m)) :
    InBlocks block rest' (l ++ m) := by
  obtain ⟨blocks, tail, hblocks, htail, rfl⟩ := h
  obtain ⟨more, tail', hmore, htail', hsplit⟩ := hm tail htail
  refine ⟨blocks ++ more, tail', List.forall_mem_append.mpr ⟨hblocks, hmore⟩, htail', ?_⟩
  rw [List.append_assoc, hsplit, List.flatten_append, List.append_assoc]

end blocks

/-! ## Counting and logging -/

namespace Execution
variable {State : Type u} {Label : Type v} {α : Type w}

/-- How many of the first `k` cycles satisfy `p`. -/
def count (e : Execution State Label) (p : State → Label → Bool) : Nat → Nat
  | 0 => 0
  | k + 1 => e.count p k + (p (e.states k) (e.labels k)).toNat

/-- What the first `k` cycles emit, in order. -/
def log (e : Execution State Label) (f : State → Label → List α) : Nat → List α
  | 0 => []
  | k + 1 => e.log f k ++ f (e.states k) (e.labels k)

variable (e : Execution State Label) (p : State → Label → Bool)

@[simp] theorem count_zero : e.count p 0 = 0 := rfl

theorem count_succ (k : Nat) :
    e.count p (k + 1) = e.count p k + (p (e.states k) (e.labels k)).toNat := rfl

theorem count_succ_of_true {k : Nat} (h : p (e.states k) (e.labels k) = true) :
    e.count p (k + 1) = e.count p k + 1 := by
  rw [count_succ, h]; rfl

theorem count_succ_of_false {k : Nat} (h : p (e.states k) (e.labels k) = false) :
    e.count p (k + 1) = e.count p k := by
  rw [count_succ, h]; rfl

/-- Nothing is counted over a stretch of cycles that avoid `p`. -/
theorem count_eq_of_forall_false {j k : Nat} (hjk : j ≤ k)
    (h : ∀ i, j ≤ i → i < k → p (e.states i) (e.labels i) = false) :
    e.count p k = e.count p j := by
  induction k with
  | zero =>
    have : j = 0 := Nat.le_zero.mp hjk
    rw [this]
  | succ k ih =>
    rcases Nat.eq_or_lt_of_le hjk with rfl | hlt
    · rfl
    · have hprev := ih (by omega) (fun i hji hik => h i hji (by omega))
      rw [count_succ_of_false e p (h k (by omega) (by omega)), hprev]

theorem count_mono {j k : Nat} (hjk : j ≤ k) : e.count p j ≤ e.count p k := by
  induction k with
  | zero => exact Nat.le_of_eq (congrArg _ (Nat.le_zero.mp hjk))
  | succ k ih =>
    rcases Nat.eq_or_lt_of_le hjk with rfl | hlt
    · exact Nat.le_refl _
    · rw [count_succ]
      exact Nat.le_add_right_of_le (ih (by omega))

/-- A count that is passed has been reached by an event. -/
theorem exists_count_of_lt {n k : Nat} (h : n < e.count p k) :
    ∃ j, j < k ∧ p (e.states j) (e.labels j) = true ∧ e.count p j = n := by
  induction k with
  | zero => exact absurd h (Nat.not_lt_zero n)
  | succ k ih =>
    by_cases hk : n < e.count p k
    · obtain ⟨j, hjk, hj⟩ := ih hk
      exact ⟨j, by omega, hj⟩
    · cases hp : p (e.states k) (e.labels k) with
      | false =>
        rw [count_succ_of_false e p hp] at h
        exact absurd h hk
      | true =>
        rw [count_succ_of_true e p hp] at h
        exact ⟨k, Nat.lt_succ_self k, hp, by omega⟩

/-- Events of two kinds. -/
theorem count_split (q r : State → Label → Bool)
    (h : ∀ k, (p (e.states k) (e.labels k)).toNat =
      (q (e.states k) (e.labels k)).toNat + (r (e.states k) (e.labels k)).toNat) (k : Nat) :
    e.count p k = e.count q k + e.count r k := by
  induction k with
  | zero => rfl
  | succ k ih =>
    rw [count_succ, count_succ, count_succ, ih, h k]
    omega

/-- What starts and finishes in turns: the counts differ by the one in
    flight. -/
theorem count_in_flight (start finish : State → Label → Bool) (busy : Nat → Bool)
    (hinit : busy 0 = false)
    (hstart : ∀ k, start (e.states k) (e.labels k) = true →
      busy k = false ∧ busy (k + 1) = true)
    (hfinish : ∀ k, finish (e.states k) (e.labels k) = true →
      busy k = true ∧ busy (k + 1) = false)
    (hkeep : ∀ k, start (e.states k) (e.labels k) = false →
      finish (e.states k) (e.labels k) = false → busy (k + 1) = busy k)
    (k : Nat) : e.count start k = e.count finish k + (busy k).toNat := by
  induction k with
  | zero =>
    rw [hinit]
    rfl
  | succ k ih =>
    cases hs : start (e.states k) (e.labels k) with
    | true =>
      obtain ⟨hidle, hbusy⟩ := hstart k hs
      -- nothing finishes in the cycle in which something starts
      have hf : finish (e.states k) (e.labels k) = false := by
        apply eq_false_of_ne_true
        intro hf
        rw [(hfinish k hf).1] at hidle
        simp at hidle
      rw [e.count_succ_of_true start hs, e.count_succ_of_false finish hf, ih, hidle, hbusy]
      rfl
    | false =>
      rw [e.count_succ_of_false start hs, ih]
      cases hf : finish (e.states k) (e.labels k) with
      | true =>
        obtain ⟨hbusy, hidle⟩ := hfinish k hf
        rw [e.count_succ_of_true finish hf, hbusy, hidle]
        rfl
      | false => rw [e.count_succ_of_false finish hf, hkeep k hs hf]

theorem log_succ (f : State → Label → List α) (k : Nat) :
    e.log f (k + 1) = e.log f k ++ f (e.states k) (e.labels k) := rfl

/-- A log made of blocks. `P k` says what the unfinished block after `k`
    cycles may be; a cycle may finish some blocks and begin another. -/
theorem log_blocks (f : State → Label → List α) {block : List α → Prop}
    {P : Nat → List α → Prop} (hinit : P 0 [])
    (hstep : ∀ k tail, P k tail →
      InBlocks block (P (k + 1)) (tail ++ f (e.states k) (e.labels k))) (k : Nat) :
    InBlocks block (P k) (e.log f k) := by
  induction k with
  | zero => exact .of_rest hinit
  | succ k ih => exact ih.append (hstep k)

/-- What happens again and again happens for the `n`-th time. -/
theorem exists_count_eq (hinf : ∀ k, ∃ j, k ≤ j ∧ p (e.states j) (e.labels j) = true) (n : Nat) :
    ∃ j, p (e.states j) (e.labels j) = true ∧ e.count p j = n := by
  -- the first occurrence from `k` on leaves the count at what it is there
  have hfirst : ∀ k, ∃ j, p (e.states j) (e.labels j) = true ∧ e.count p j = e.count p k := by
    classical
    intro k
    have hex : ∃ d, p (e.states (k + d)) (e.labels (k + d)) = true := by
      obtain ⟨j, hkj, hj⟩ := hinf k
      exact ⟨j - k, by rwa [show k + (j - k) = j from by omega]⟩
    refine ⟨k + Nat.find hex, Nat.find_spec hex, ?_⟩
    apply e.count_eq_of_forall_false p (by omega)
    intro i hki hi
    have hmin := Nat.find_min hex (m := i - k) (by omega)
    rw [show k + (i - k) = i from by omega] at hmin
    simpa using hmin
  induction n with
  | zero => exact hfirst 0
  | succ n ih =>
    obtain ⟨j, hj, hcount⟩ := ih
    obtain ⟨j', hj', hcount'⟩ := hfirst (j + 1)
    exact ⟨j', hj', by rw [hcount', e.count_succ_of_true p hj, hcount]⟩

/-! ## Runs of a deterministic machine -/

/-- The execution of a machine under given inputs. -/
def of_inputs (next : State → Label → State) (s₀ : State) (labels : Nat → Label) :
    Execution State Label where
  states := Nat.rec s₀ fun k s => next s (labels k)
  labels := labels

end Execution

/-! ## Tracking a partial step function -/

/-- `n` steps of a partial step function. -/
def iterate {α : Type u} (next : α → Option α) : Nat → α → Option α
  | 0, a => some a
  | n + 1, a => (iterate next n a).bind next

@[simp] theorem iterate_zero {α : Type u} (next : α → Option α) (a : α) :
    iterate next 0 a = some a := rfl

theorem iterate_succ {α : Type u} (next : α → Option α) (n : Nat) (a : α) :
    iterate next (n + 1) a = (iterate next n a).bind next := rfl

theorem iterate_add {α : Type u} (next : α → Option α) (m n : Nat) (a : α) :
    iterate next (m + n) a = (iterate next m a).bind (iterate next n) := by
  induction n with
  | zero => cases iterate next m a <;> rfl
  | succ n ih =>
    rw [← Nat.add_assoc, iterate_succ, ih, Option.bind_assoc]
    rfl

/-- A partial step function that keeps an invariant of the position has a run,
    as long as the invariant lets it go on. -/
theorem exists_run {α : Type u} {next : α → Option α} {R : Nat → α → Prop} {n : Nat} {a : α}
    (hinit : R 0 a)
    (hstep : ∀ k, k < n → ∀ b, R k b → ∃ c, next b = some c ∧ R (k + 1) c) :
    ∃ run : Nat → α, run 0 = a ∧ (∀ k, k < n → next (run k) = some (run (k + 1))) ∧
      ∀ k, k ≤ n → R k (run k) := by
  have hrun : ∀ k, k ≤ n → ∃ b, iterate next k a = some b ∧ R k b := by
    intro k
    induction k with
    | zero => exact fun _ => ⟨a, rfl, hinit⟩
    | succ k ih =>
      intro hk
      obtain ⟨b, hb, hR⟩ := ih (by omega)
      obtain ⟨c, hc, hR'⟩ := hstep k hk b hR
      exact ⟨c, by rw [iterate_succ, hb, Option.bind_some, hc], hR'⟩
  refine ⟨fun k => (iterate next k a).getD a, rfl, fun k hk => ?_, fun k hk => ?_⟩
  · obtain ⟨b, hb, -⟩ := hrun k (by omega)
    obtain ⟨c, hc, -⟩ := hrun (k + 1) hk
    dsimp only
    rw [hb, hc, Option.getD_some, Option.getD_some]
    rwa [iterate_succ, hb, Option.bind_some] at hc
  · obtain ⟨b, hb, hR⟩ := hrun k hk
    dsimp only
    rwa [hb]

/-- The states on the way. -/
theorem exists_run_of_iterate {α : Type u} {next : α → Option α} {n : Nat} {a b : α}
    (h : iterate next n a = some b) :
    ∃ run : Nat → α, (∀ k, k < n → next (run k) = some (run (k + 1))) ∧
      ∀ k, k ≤ n → iterate next k a = some (run k) := by
  have hstep : ∀ k, k < n → ∀ c, iterate next k a = some c →
      ∃ d, next c = some d ∧ iterate next (k + 1) a = some d := by
    intro k hk c hc
    -- a step that is missing would be missing in the whole run
    rw [show n = k + 1 + (n - (k + 1)) from by omega, iterate_add, iterate_succ, hc,
      Option.bind_some] at h
    obtain ⟨d, hd, -⟩ := Option.bind_eq_some_iff.mp h
    exact ⟨d, hd, by rw [iterate_succ, hc, Option.bind_some, hd]⟩
  obtain ⟨run, -, hsteps, hrun⟩ := exists_run (R := fun k c => iterate next k a = some c) rfl hstep
  exact ⟨run, hsteps, hrun⟩

section reaches
variable {α : Type u} {next : α → Option α} {a b c : α}

/-- Some steps lead from `a` to `b`. -/
def Reaches (next : α → Option α) (a b : α) : Prop := ∃ n, iterate next n a = some b

/-- The steps from `a` on never come to an end. -/
def Endless (next : α → Option α) (a : α) : Prop := ∀ b, Reaches next a b → (next b).isSome

theorem Reaches.refl (a : α) : Reaches next a a := ⟨0, rfl⟩

theorem Reaches.single (h : next a = some b) : Reaches next a b := ⟨1, h⟩

theorem Reaches.trans (hab : Reaches next a b) (hbc : Reaches next b c) : Reaches next a c := by
  obtain ⟨m, hm⟩ := hab
  obtain ⟨n, hn⟩ := hbc
  exact ⟨m + n, by rw [iterate_add, hm, Option.bind_some, hn]⟩

theorem Endless.of_reaches (h : Endless next a) (hab : Reaches next a b) : Endless next b :=
  fun c hbc => h c (hab.trans hbc)

theorem Endless.step (h : Endless next a) : ∃ b, next a = some b :=
  Option.isSome_iff_exists.mp (h a (.refl a))

end reaches

/-- Forward simulation with stuttering. Cycles that satisfy `visible` make
    one abstract step, all others none; then after `k` cycles the concrete
    state is related to the abstract state after as many steps as there were
    visible cycles, as long as the abstract run is defined. -/
theorem Execution.tracks {State : Type u} {Label : Type v} {Abs : Type w}
    (e : Execution State Label) (visible : State → Label → Bool)
    (next : Abs → Option Abs) (R : State → Abs → Prop) (a₀ : Abs)
    (hinit : R (e.states 0) a₀)
    (hstutter : ∀ k a, R (e.states k) a → visible (e.states k) (e.labels k) = false →
      R (e.states (k + 1)) a)
    (hvisible : ∀ k a a', R (e.states k) a → visible (e.states k) (e.labels k) = true →
      next a = some a' → R (e.states (k + 1)) a')
    (k : Nat) (a : Abs) (ha : iterate next (e.count visible k) a₀ = some a) :
    R (e.states k) a := by
  induction k generalizing a with
  | zero =>
    rw [count_zero, iterate_zero, Option.some.injEq] at ha
    subst ha
    exact hinit
  | succ k ih =>
    cases hvis : visible (e.states k) (e.labels k) with
    | false =>
      -- only the concrete side moves
      rw [e.count_succ_of_false visible hvis] at ha
      exact hstutter k a (ih a ha) hvis
    | true =>
      rw [e.count_succ_of_true visible hvis, iterate_succ, Option.bind_eq_some_iff] at ha
      obtain ⟨b, hb, hba⟩ := ha
      -- the abstract run is defined up to `b`, and takes its last step here
      exact hvisible k b a (ih b hb) hvis hba

theorem iterate_total {α : Type u} (next : α → α) (n : Nat) (a : α) :
    iterate (fun a => some (next a)) n a = some (next^[n] a) := by
  induction n with
  | zero => rfl
  | succ n ih =>
    rw [iterate_succ, ih, Function.iterate_succ_apply']
    rfl

/-- Forward simulation of a machine: the abstract run is always defined. -/
theorem Execution.tracks_total {State : Type u} {Label : Type v} {Abs : Type w}
    (e : Execution State Label) (visible : State → Label → Bool) (next : Abs → Abs)
    (R : State → Abs → Prop) (a₀ : Abs) (hinit : R (e.states 0) a₀)
    (hstutter : ∀ k a, R (e.states k) a → visible (e.states k) (e.labels k) = false →
      R (e.states (k + 1)) a)
    (hvisible : ∀ k a, R (e.states k) a → visible (e.states k) (e.labels k) = true →
      R (e.states (k + 1)) (next a)) (k : Nat) :
    R (e.states k) (next^[e.count visible k] a₀) := by
  refine e.tracks visible (fun a => some (next a)) R a₀ hinit hstutter ?_ k _
    (iterate_total next _ a₀)
  intro k a a' hR hvis ha'
  rw [← Option.some.inj ha']
  exact hvisible k a hR hvis

/-! ## Waiting for an event -/

/-- The waiting rule. `P` is kept until `go` occurs, and `P` cannot hold for
    ever without `go`: then there is a first cycle in which `go` occurs, and
    `P` holds up to and including that cycle. -/
theorem exists_first {P go : Nat → Prop} {k : Nat} (hP : P k)
    (hkeep : ∀ j, k ≤ j → P j → ¬ go j → P (j + 1))
    (hgo : (∀ j, k ≤ j → P j) → ∃ j, k ≤ j ∧ go j) :
    ∃ j, k ≤ j ∧ go j ∧ P j ∧ ∀ i, k ≤ i → i < j → P i ∧ ¬ go i := by
  classical
  have hex : ∃ n, go (k + n) := by
    by_contra hnone
    have hnever : ∀ j, k ≤ j → ¬ go j := by
      intro j hkj hj
      exact hnone ⟨j - k, by rwa [show k + (j - k) = j from by omega]⟩
    -- without the event `P` is kept for ever, which `hgo` rules out
    have hall : ∀ n, P (k + n) := by
      intro n
      induction n with
      | zero => exact hP
      | succ n ih => exact hkeep (k + n) (by omega) ih (hnever (k + n) (by omega))
    obtain ⟨j, hkj, hj⟩ := hgo (fun j hkj => by
      have := hall (j - k)
      rwa [show k + (j - k) = j from by omega] at this)
    exact hnever j hkj hj
  have hfirst : ∀ i, i < Nat.find hex → ¬ go (k + i) := fun i hi => Nat.find_min hex hi
  -- the first occurrence ends the stretch on which `P` is kept
  have hPs : ∀ i, i ≤ Nat.find hex → P (k + i) := by
    intro i
    induction i with
    | zero => intro _; exact hP
    | succ i ih =>
      intro hi
      exact hkeep (k + i) (by omega) (ih (by omega)) (hfirst i (by omega))
  refine ⟨k + Nat.find hex, by omega, Nat.find_spec hex, hPs _ (Nat.le_refl _), ?_⟩
  intro i hki hi
  have hi' : i = k + (i - k) := by omega
  rw [hi']
  exact ⟨hPs (i - k) (by omega), hfirst (i - k) (by omega)⟩

/-- The ranking rule. Until `go` occurs `P` is kept, the rank never grows,
    and no rank is kept for ever: then `go` occurs, and `P` holds up to the
    first time it does. -/
theorem exists_first_of_rank {P go : Nat → Prop} (rank : Nat → Nat)
    (hkeep : ∀ j, P j → ¬ go j → P (j + 1) ∧ rank (j + 1) ≤ rank j)
    (hfair : ∀ k, P k → (∀ j, k ≤ j → P j ∧ ¬ go j ∧ rank j = rank k) → False)
    {k : Nat} (hP : P k) :
    ∃ j, k ≤ j ∧ go j ∧ P j ∧ ∀ i, k ≤ i → i < j → P i ∧ ¬ go i := by
  apply exists_first hP (fun j _ hj hgo => (hkeep j hj hgo).1)
  intro hall
  by_contra hnone
  have hnever : ∀ j, k ≤ j → ¬ go j := fun j hkj hj => hnone ⟨j, hkj, hj⟩
  have hmono : ∀ i n, k ≤ i → rank (i + n) ≤ rank i := by
    intro i n hki
    induction n with
    | zero => exact Nat.le_refl _
    | succ n ih =>
      have h := (hkeep (i + n) (hall _ (by omega)) (hnever _ (by omega))).2
      exact Nat.le_trans h ih
  -- below every rank another one is reached, which cannot go on
  have hdesc : ∀ r i, k ≤ i → rank i = r → False := by
    intro r
    induction r using Nat.strong_induction_on with
    | _ r ih =>
      intro i hki hr
      apply hfair i (hall i hki)
      intro j hij
      refine ⟨hall j (by omega), hnever j (by omega), ?_⟩
      have hle := hmono i (j - i) hki
      rw [show i + (j - i) = j from by omega] at hle
      rcases Nat.eq_or_lt_of_le hle with heq | hlt
      · exact heq
      · exact absurd rfl (fun h : rank j = rank j => ih (rank j) (by omega) j (by omega) h)
  exact hdesc (rank k) k (Nat.le_refl _) rfl

/-- The budget rule. As long as `go` has not occurred, every cycle with `P` is
    followed by another one, which comes no later than the budget shrinks:
    then `go` occurs within the budget. -/
theorem exists_within {P go : Nat → Prop} (budget : Nat → Nat)
    (hspend : ∀ k, P k → ¬ go k → ∃ j, k < j ∧ P j ∧ j + budget j ≤ k + budget k)
    {k : Nat} (hP : P k) : ∃ j, k ≤ j ∧ j ≤ k + budget k ∧ go j := by
  -- by induction on what is left of the budget
  induction hb : budget k using Nat.strong_induction_on generalizing k with
  | _ b ih =>
    by_cases hgo : go k
    · exact ⟨k, Nat.le_refl k, Nat.le_add_right k b, hgo⟩
    · obtain ⟨j, hkj, hPj, hspent⟩ := hspend k hP hgo
      obtain ⟨j', hjj', hj', hgo'⟩ := ih (budget j) (by omega) hPj rfl
      exact ⟨j', by omega, by omega, hgo'⟩

/-- A flag that remembers an event as long as a period lasts. Outside a period
    it is not set anew. -/
theorem remembers_iff (period flag event : Nat → Bool) (h0 : flag 0 = false)
    (hset : ∀ k, period k = true → period (k + 1) = true → flag (k + 1) = (event k || flag k))
    (hclear : ∀ k, ¬ (period k = true ∧ period (k + 1) = true) → flag (k + 1) = true →
      flag k = true ∧ period k = false) (k : Nat) :
    flag k = true ↔
      ∃ i, i < k ∧ event i = true ∧ ∀ j, i ≤ j → j ≤ k → period j = true := by
  induction k with
  | zero => simp [h0]
  | succ k ih =>
    by_cases hp : period k = true ∧ period (k + 1) = true
    · rw [hset k hp.1 hp.2, Bool.or_eq_true, ih]
      constructor
      · -- an event in this cycle, or one that the flag remembers
        rintro (hev | ⟨i, hi, hev, hperiod⟩)
        · refine ⟨k, Nat.lt_succ_self k, hev, ?_⟩
          intro j hkj hjk
          rcases Nat.eq_or_lt_of_le hkj with rfl | hlt
          · exact hp.1
          · obtain rfl : j = k + 1 := by omega
            exact hp.2
        · refine ⟨i, by omega, hev, ?_⟩
          intro j hij hjk
          rcases Nat.eq_or_lt_of_le hjk with rfl | hlt
          · exact hp.2
          · exact hperiod j hij (by omega)
      · rintro ⟨i, hi, hev, hperiod⟩
        rcases Nat.eq_or_lt_of_le (Nat.lt_succ_iff.mp hi) with rfl | hlt
        · exact .inl hev
        · exact .inr ⟨i, hlt, hev, fun j hij hjk => hperiod j hij (by omega)⟩
    · constructor
      · intro h
        obtain ⟨hflag, hidle⟩ := hclear k hp h
        obtain ⟨i, hi, -, hperiod⟩ := ih.mp hflag
        exact absurd (hidle.symm.trans (hperiod k (by omega) (Nat.le_refl k))) (by decide)
      · rintro ⟨i, hi, -, hperiod⟩
        exact absurd ⟨hperiod k (by omega) (by omega), hperiod (k + 1) (by omega) (Nat.le_refl _)⟩ hp

/-- Induction over a stretch of cycles. -/
theorem stretch_induction {P : Nat → Prop} {j k : Nat} (hjk : j ≤ k) (hj : P j)
    (hstep : ∀ i, j ≤ i → i < k → P i → P (i + 1)) : P k := by
  induction k with
  | zero =>
    have : j = 0 := Nat.le_zero.mp hjk
    rw [← this]; exact hj
  | succ k ih =>
    rcases Nat.eq_or_lt_of_le hjk with rfl | hlt
    · exact hj
    · exact hstep k (by omega) (by omega)
        (ih (by omega) (fun i hji hik => hstep i hji (by omega)))

/-- The last time up to cycle `k` that `P` occurred. -/
theorem exists_last {P : Nat → Prop} (h0 : P 0) (k : Nat) :
    ∃ j, j ≤ k ∧ P j ∧ ∀ i, j < i → i ≤ k → ¬ P i := by
  induction k with
  | zero => exact ⟨0, Nat.le_refl 0, h0, fun i hi hik => absurd hi (Nat.not_lt.mpr hik)⟩
  | succ k ih =>
    by_cases hk : P (k + 1)
    · exact ⟨k + 1, Nat.le_refl _, hk, fun i hi hik => absurd hi (Nat.not_lt.mpr hik)⟩
    · obtain ⟨j, hjk, hj, hnone⟩ := ih
      refine ⟨j, Nat.le_succ_of_le hjk, hj, fun i hji hik => ?_⟩
      rcases Nat.eq_or_lt_of_le hik with rfl | hlt
      · exact hk
      · exact hnone i hji (Nat.lt_succ_iff.mp hlt)

/-- What is kept until `Q` occurs, and makes it occur at the latest in cycle
    `k`. -/
theorem exists_in_stretch {P Q : Nat → Prop} {j k : Nat} (hjk : j ≤ k) (hj : P j)
    (hkeep : ∀ i, P i → ¬ Q i → P (i + 1)) (hk : P k → Q k) : ∃ i, j ≤ i ∧ i ≤ k ∧ Q i := by
  by_contra hnone
  have hnever : ∀ i, j ≤ i → i ≤ k → ¬ Q i := fun i hji hik hQ => hnone ⟨i, hji, hik, hQ⟩
  have hP : P k := stretch_induction hjk hj fun i hji hik hi =>
    hkeep i hi (hnever i hji (Nat.le_of_lt hik))
  exact hnever k hjk (Nat.le_refl k) (hk hP)

end Lts
