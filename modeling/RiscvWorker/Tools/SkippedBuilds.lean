import RiscvWorker.Tools.BuildUtils

/-! # Skipped builds

  When a build is skipped, the artifact on the disk is one that an earlier run
  of the tool left there. The module follows it back to that run: the digest
  file was written then, so the sources had the same bytes, and the artifact
  is current if the run had the same inputs and nothing spoilt its output.
-/

namespace RiscvWorker

open Text (Byte ascii)

namespace BuildUtils

/-! ### The chain of the designs -/

/-- The design that is built at a place in the order. -/
def Component.nth : Nat → Component
  | 0 => .ip_core
  | 1 => .fpga_design
  | _ => .soc_design

theorem Component.nth_index (c : Component) : Component.nth c.index = c := by
  cases c <;> rfl

theorem Component.index_lt (c : Component) : c.index < 3 := by
  cases c <;> decide

theorem Component.index_nth {n : Nat} (h : n < 3) : (Component.nth n).index = n := by
  match n, h with
  | 0, _ => rfl
  | 1, _ => rfl
  | 2, _ => rfl

section chain
variable {Artifact : Type} (cfg : Config) (md5 : List Byte → Digest)
  (tool : Component → ToolInputs → Option Artifact → Artifact)

/-- What the hasher takes is the text of a chain. -/
theorem hashed_eq_text (t : SourceTree) (c : Component) :
    hashed cfg t md5 c =
      BuildChain.text md5 Vector.toList (fun n => hashed_sources cfg t (.nth n)) c.index := by
  cases c <;> rfl

/-- What the tools make of the current sources and hardware, from nothing. -/
def clean_build (s : WorkingCopy Artifact) (c : Component) : Artifact :=
  BuildChain.fresh (fun n => tool (.nth n))
    (fun n => tool_inputs cfg s.tree s.hardware (.nth n)) c.index

theorem clean_build_eq (s : WorkingCopy Artifact) (c : Component) :
    clean_build cfg tool s c =
      tool c (tool_inputs cfg s.tree s.hardware c)
        (c.dependency.map (clean_build cfg tool s)) := by
  cases c <;> rfl

theorem clean_build_congr {s s' : WorkingCopy Artifact} {c : Component}
    (h : ∀ d, d.index ≤ c.index →
      tool_inputs cfg s.tree s.hardware d = tool_inputs cfg s'.tree s'.hardware d) :
    clean_build cfg tool s c = clean_build cfg tool s' c := by
  apply BuildChain.fresh_congr
  intro m hm
  apply h
  rw [Component.index_nth (Nat.lt_of_le_of_lt hm c.index_lt)]
  exact hm

/-- The dependency comes first. -/
theorem Component.dependency_index {c d : Component} (h : c.dependency = some d) :
    d.index < c.index := by
  cases c with
  | ip_core => cases h
  | fpga_design =>
    cases h
    decide
  | soc_design =>
    cases h
    decide

/-- The next design follows, or a run begins. -/
theorem Component.index_following (c : Component) :
    c.following.index = c.index + 1 ∨ c.following.index = 0 := by
  cases c with
  | ip_core => exact .inl rfl
  | fpga_design => exact .inl rfl
  | soc_design => exact .inr rfl

end chain

/-! ### Events of a run -/

section runs
variable {Artifact : Type} (cfg : Config) (md5 : List Byte → Digest)
  (tool : Component → ToolInputs → Option Artifact → Artifact)

/-- What one event does. -/
inductive Move (s : WorkingCopy Artifact) : Event Artifact → WorkingCopy Artifact → Prop where
  | edit (t : SourceTree) : Move s (.edit t) { s with tree := t }
  | select (h : Hardware) (hnext : s.next = .ip_core) : Move s (.select h) { s with hardware := h }
  | skip (r : ToolResult Artifact) (hdate : up_to_date cfg md5 s = true) :
      Move s (.build r) { s with next := s.next.following }
  | success (hdate : up_to_date cfg md5 s = false) :
      Move s (.build .success)
        { s with
          artifact := Function.update s.artifact s.next (some (run_build_tool cfg tool s))
          digest_file := Function.update s.digest_file s.next (some (current_hash cfg md5 s))
          next := s.next.following }
  | failure (left : Option Artifact) (hdate : up_to_date cfg md5 s = false) :
      Move s (.build (.failure left))
        { s with
          artifact := Function.update s.artifact s.next left
          next := .ip_core }

theorem move_of_step {s s' : WorkingCopy Artifact} {l : Event Artifact}
    (h : (system cfg md5 tool).step s l s') : Move cfg md5 tool s l s' := by
  obtain ⟨hselect, rfl⟩ := h
  cases l with
  | edit t => exact .edit t
  | select hw => exact .select hw (hselect hw rfl)
  | build r =>
    show Move cfg md5 tool s (.build r) (build cfg md5 tool s r)
    unfold build
    cases hdate : up_to_date cfg md5 s with
    | true => exact .skip r hdate
    | false =>
      cases r with
      | success => exact .success hdate
      | failure left => exact .failure left hdate

variable (e : Lts.Execution (WorkingCopy Artifact) (Event Artifact))

/-- Design `c` is the one whose build begins in step `k`. -/
def builds (c : Component) (k : Nat) : Prop :=
  (e.states k).next = c ∧ ∃ r, e.labels k = .build r

/-- The build is skipped. -/
def skips (c : Component) (k : Nat) : Prop :=
  builds e c k ∧ up_to_date cfg md5 (e.states k) = true

/-- The tool of the design runs, and succeeds. -/
def succeeds (c : Component) (k : Nat) : Prop :=
  (e.states k).next = c ∧ e.labels k = .build .success ∧ up_to_date cfg md5 (e.states k) = false

/-- The tool of the design runs, and fails. -/
def fails (c : Component) (k : Nat) : Prop :=
  (e.states k).next = c ∧ (∃ left, e.labels k = .build (.failure left)) ∧
    up_to_date cfg md5 (e.states k) = false

/-- All that is digested in a run. -/
def digested : Set (List Byte) :=
  {x | ∃ k c d, builds e c k ∧ d.index ≤ c.index ∧ x = hashed cfg (e.states k).tree md5 d}

/-! ### Digest files and artifacts -/

section steps
variable {cfg md5 tool e} (hv : (system cfg md5 tool).valid_exec e)
include hv

theorem move_at (k : Nat) : Move cfg md5 tool (e.states k) (e.labels k) (e.states (k + 1)) :=
  move_of_step cfg md5 tool (hv.2 k)

/-- What a successful run of a tool leaves behind. -/
theorem state_of_success {k : Nat} (h : succeeds cfg md5 e (e.states k).next k) :
    e.states (k + 1) =
      { e.states k with
        artifact := Function.update (e.states k).artifact (e.states k).next
          (some (run_build_tool cfg tool (e.states k)))
        digest_file := Function.update (e.states k).digest_file (e.states k).next
          (some (current_hash cfg md5 (e.states k)))
        next := (e.states k).next.following } := by
  obtain ⟨-, hl, hdate⟩ := h
  have hmove := move_at hv k
  rw [hl] at hmove
  generalize e.states (k + 1) = s' at hmove ⊢
  cases hmove with
  | skip r hskip =>
    rw [hskip] at hdate
    cases hdate
  | success _ => rfl

theorem digest_written {c : Component} {k : Nat} (h : succeeds cfg md5 e c k) :
    (e.states (k + 1)).digest_file c = some (compute_hash cfg (e.states k).tree md5 c) := by
  obtain rfl := h.1
  rw [state_of_success hv h]
  exact Function.update_self _ _ _

theorem digest_kept {c : Component} {k : Nat} (h : ¬ succeeds cfg md5 e c k) :
    (e.states (k + 1)).digest_file c = (e.states k).digest_file c := by
  have hmove := move_at hv k
  generalize e.states (k + 1) = s' at hmove ⊢
  generalize hl : e.labels k = l at hmove
  cases hmove with
  | edit t => rfl
  | select hw hnext => rfl
  | skip r hdate => rfl
  | success hdate =>
    apply Function.update_of_ne
    rintro rfl
    exact h ⟨rfl, hl, hdate⟩
  | failure left hdate => rfl

theorem artifact_written {c : Component} {k : Nat} (h : succeeds cfg md5 e c k) :
    (e.states (k + 1)).artifact c =
      some (tool c (tool_inputs cfg (e.states k).tree (e.states k).hardware c)
        (c.dependency.bind (e.states k).artifact)) := by
  obtain rfl := h.1
  rw [state_of_success hv h]
  exact Function.update_self _ _ _

theorem artifact_kept {c : Component} {k : Nat} (hs : ¬ succeeds cfg md5 e c k)
    (hf : ¬ fails cfg md5 e c k) : (e.states (k + 1)).artifact c = (e.states k).artifact c := by
  have hmove := move_at hv k
  generalize e.states (k + 1) = s' at hmove ⊢
  generalize hl : e.labels k = l at hmove
  cases hmove with
  | edit t => rfl
  | select hw hnext => rfl
  | skip r hdate => rfl
  | success hdate =>
    apply Function.update_of_ne
    rintro rfl
    exact hs ⟨rfl, hl, hdate⟩
  | failure left hdate =>
    apply Function.update_of_ne
    rintro rfl
    exact hf ⟨rfl, ⟨left, hl⟩, hdate⟩

/-- A digest file goes back to the last successful run of the tool. -/
theorem digest_origin {c : Component} {k : Nat} {d : Digest}
    (h : (e.states k).digest_file c = some d) :
    ∃ i, i < k ∧ succeeds cfg md5 e c i ∧ compute_hash cfg (e.states i).tree md5 c = d ∧
      ∀ m, i < m → m < k → ¬ succeeds cfg md5 e c m := by
  have hwrite := fun j (hj : succeeds cfg md5 e c j) => digest_written hv hj
  have hkeep := fun j (hj : ¬ succeeds cfg md5 e c j) => digest_kept hv hj
  exact @BuildChain.last_write Digest (fun j => (e.states j).digest_file c) _ _ (hv.1.2 c)
    hwrite hkeep k d h

theorem platform_dir_kept (k : Nat) :
    (e.states k).platform_dir = (e.states 0).platform_dir := by
  induction k with
  | zero => rfl
  | succ k ih =>
    rw [← ih]
    have hmove := move_at hv k
    generalize e.labels k = l at hmove
    generalize e.states (k + 1) = s' at hmove ⊢
    cases hmove with
    | edit t => rfl
    | select hw hnext => rfl
    | skip r hdate => rfl
    | success hdate => rfl
    | failure left hdate => rfl

/-- No run of a tool makes the directory that the SoC design looks for, so that
    it is built every time. -/
theorem soc_design_never_skipped (h0 : (e.states 0).platform_dir = false) (k : Nat) :
    ¬ skips cfg md5 e .soc_design k := by
  rintro ⟨⟨hnext, -⟩, hdate⟩
  rw [up_to_date, hnext, Bool.and_eq_true] at hdate
  have hdir : (e.states k).platform_dir = true := hdate.2
  rw [platform_dir_kept hv, h0] at hdir
  cases hdir

end steps

/-! ### Runs in which nothing goes wrong -/

/-- The sources of `c` and of what it depends on are the same bytes, when names
    and contents are run together. -/
def same_bytes (t t' : SourceTree) (c : Component) : Prop :=
  ∀ d : Component, d.index ≤ c.index → hashed_sources cfg t d = hashed_sources cfg t' d

/-- Step `i` is the last successful run of the tool of `c` before the build in
    step `k`, which is skipped, and the sources have the same bytes at both. -/
structure Unchanged (c : Component) (i k : Nat) : Prop where
  before : i < k
  ran : succeeds cfg md5 e c i
  last : ∀ m, i < m → m < k → ¬ succeeds cfg md5 e c m
  skipped : skips cfg md5 e c k
  bytes : same_bytes cfg (e.states i).tree (e.states k).tree c

/-- Step `j` is in the run of `build.py` that gets to step `k`, which has begun
    to build. -/
def SameRun (j k : Nat) : Prop := j < k ∧ ∀ m, j ≤ m → m ≤ k → (e.states m).next ≠ .ip_core

/-- The condition on a run: on its skipped builds, and on the runs of the tools
    that these go back to. -/
structure Careful : Prop where
  /-- The tools get the same: the selected hardware, the scripts and the files
      that are not hashed, and the division of the bytes into files. -/
  same_inputs : ∀ c i k, Unchanged cfg md5 e c i k → ∀ d : Component, d.index ≤ c.index →
    tool_inputs cfg (e.states i).tree (e.states i).hardware d =
      tool_inputs cfg (e.states k).tree (e.states k).hardware d
  /-- No run of the tool failed in between. -/
  no_failure : ∀ c i k, Unchanged cfg md5 e c i k → ∀ m, i < m → m < k → ¬ fails cfg md5 e c m
  /-- An edit while `build.py` runs leaves alone what is built already. -/
  settled : ∀ c i k, Unchanged cfg md5 e c i k → ∀ j t, SameRun e j i ∨ SameRun e j k →
    e.labels j = .edit t → ∀ d : Component, d.index < (e.states j).next.index →
      tool_inputs cfg t (e.states j).hardware d =
        tool_inputs cfg (e.states j).tree (e.states j).hardware d

/-- The artifacts of `c` and of what it depends on are current. -/
def Current (s : WorkingCopy Artifact) (c : Component) : Prop :=
  ∀ d : Component, d.index ≤ c.index → s.artifact d = some (clean_build cfg tool s d)

/-- Everything built so far in this run of `build.py` is current. -/
def BuiltCurrent (s : WorkingCopy Artifact) : Prop :=
  ∀ d : Component, d.index < s.next.index → s.artifact d = some (clean_build cfg tool s d)

section careful
variable {cfg md5 tool e} (hv : (system cfg md5 tool).valid_exec e)
  (hmd5 : Set.InjOn md5 (digested cfg md5 e))

/-- Equal digests are those of equal bytes, of the dependencies as well. -/
theorem same_bytes_of_hash (hmd5 : Set.InjOn md5 (digested cfg md5 e)) {c : Component} {i k : Nat}
    (hi : builds e c i) (hk : builds e c k)
    (h : compute_hash cfg (e.states i).tree md5 c = compute_hash cfg (e.states k).tree md5 c) :
    same_bytes cfg (e.states i).tree (e.states k).tree c := by
  have hmem : ∀ j, builds e c j → ∀ m, m ≤ c.index →
      BuildChain.text md5 Vector.toList
        (fun n => hashed_sources cfg (e.states j).tree (.nth n)) m ∈ digested cfg md5 e := by
    intro j hj m hm
    have hindex := Component.index_nth (Nat.lt_of_le_of_lt hm c.index_lt)
    refine ⟨j, c, .nth m, hj, by rw [hindex]; exact hm, ?_⟩
    rw [hashed_eq_text, hindex]
  have hhashed : hashed cfg (e.states i).tree md5 c = hashed cfg (e.states k).tree md5 c :=
    hmd5 ⟨i, c, c, hi, Nat.le_refl _, rfl⟩ ⟨k, c, c, hk, Nat.le_refl _, rfl⟩ h
  rw [hashed_eq_text, hashed_eq_text] at hhashed
  have hown := BuildChain.text_eq_below md5 Vector.toList (fun _ => Vector.length_toList)
    (fun _ _ => Vector.toList_inj.mp) hmd5 (hmem i hi) (hmem k hk) hhashed
  intro d hd
  have hd' := hown d.index hd
  rw [Component.nth_index] at hd'
  exact hd'

include hv hmd5 in
/-- A skipped build goes back to a successful run on the same bytes. -/
theorem skip_origin {c : Component} {k : Nat} (h : skips cfg md5 e c k) :
    ∃ i, Unchanged cfg md5 e c i k := by
  obtain ⟨⟨rfl, hbuild⟩, hdate⟩ := id h
  rw [up_to_date, Bool.and_eq_true, beq_iff_eq] at hdate
  obtain ⟨i, hik, hran, hhash, hlast⟩ := digest_origin hv hdate.1
  have hbi : builds e (e.states k).next i := ⟨hran.1, _, hran.2.1⟩
  exact ⟨i, hik, hran, hlast, h, same_bytes_of_hash hmd5 hbi h.1 hhash⟩

/-- A tool that runs on current dependencies makes a current artifact. -/
theorem current_of_success {c : Component} {k : Nat} (hran : succeeds cfg md5 e c k)
    (hbelow : BuiltCurrent cfg tool (e.states k)) (hv : (system cfg md5 tool).valid_exec e) :
    (e.states (k + 1)).artifact c = some (clean_build cfg tool (e.states k) c) := by
  rw [artifact_written hv hran, clean_build_eq]
  cases hdep : c.dependency with
  | none => rfl
  | some d =>
    have hd : d.index < (e.states k).next.index := by
      rw [hran.1]
      exact Component.dependency_index hdep
    rw [Option.bind_some, hbelow d hd]
    rfl

include hv in
/-- What the last run left is still there, and is current again. -/
theorem current_of_unchanged (hc : Careful cfg md5 e) {c : Component} {i k : Nat}
    (h : Unchanged cfg md5 e c i k) (hbelow : BuiltCurrent cfg tool (e.states i)) :
    (e.states k).artifact c = some (clean_build cfg tool (e.states k) c) := by
  have hstart := current_of_success h.ran hbelow hv
  have hkept : (e.states k).artifact c = (e.states (i + 1)).artifact c := by
    apply Lts.stretch_induction (P := fun j => (e.states j).artifact c = _) h.before rfl
    intro m him hmk hm
    have hs := h.last m him hmk
    have hf := hc.no_failure c i k h m him hmk
    exact (artifact_kept hv hs hf).trans hm
  rw [hkept, hstart, clean_build_congr cfg tool (hc.same_inputs c i k h)]

/-- One event keeps current what was built in this run of `build.py`. -/
theorem BuiltCurrent.step {k : Nat} (h : BuiltCurrent cfg tool (e.states k))
    (hv : (system cfg md5 tool).valid_exec e)
    (hsettled : ∀ t, e.labels k = .edit t → ∀ d : Component, d.index < (e.states k).next.index →
      tool_inputs cfg t (e.states k).hardware d =
        tool_inputs cfg (e.states k).tree (e.states k).hardware d)
    (hskip : ∀ c, skips cfg md5 e c k →
      (e.states k).artifact c = some (clean_build cfg tool (e.states k) c)) :
    BuiltCurrent cfg tool (e.states (k + 1)) := by
  have hmove := move_at hv k
  generalize hs' : e.states (k + 1) = s' at hmove
  generalize hl : e.labels k = l at hmove
  -- what comes before the next design came before this one, or is this one
  have hbefore : ∀ d : Component, d.index < (e.states k).next.following.index →
      d ≠ (e.states k).next → d.index < (e.states k).next.index := by
    intro d hd hne
    have hindex : d.index ≠ (e.states k).next.index := by
      intro heq
      apply hne
      rw [← Component.nth_index d, heq, Component.nth_index]
    rcases Component.index_following (e.states k).next with hnext | hnext
    · omega
    · omega
  intro d hd
  cases hmove with
  | edit t =>
    rw [← clean_build_congr cfg tool (s := e.states k)]
    · exact h d hd
    · intro c hcd
      exact (hsettled t hl c (Nat.lt_of_le_of_lt hcd hd)).symm
  | select hw hnext =>
    have hd' : d.index < (e.states k).next.index := hd
    rw [hnext] at hd'
    exact absurd hd' (Nat.not_lt_zero _)
  | skip r hdate =>
    by_cases hne : d = (e.states k).next
    · exact hskip d ⟨⟨hne.symm, r, hl⟩, hdate⟩
    · exact h d (hbefore d hd hne)
  | success hdate =>
    by_cases hne : d = (e.states k).next
    · have hran : succeeds cfg md5 e d k := ⟨hne.symm, hl, hdate⟩
      have hcur := current_of_success hran h hv
      rw [hs'] at hcur
      exact hcur
    · have hold := h d (hbefore d hd hne)
      rw [← Function.update_of_ne hne (some (run_build_tool cfg tool (e.states k)))
        (e.states k).artifact] at hold
      exact hold
  | failure left hdate => exact absurd hd (Nat.not_lt_zero _)

/-- Within a run of `build.py` all that has been built stays current, if the
    edits leave it alone and what is skipped is current. -/
theorem built_current_of_settled (hv : (system cfg md5 tool).valid_exec e) {k : Nat}
    (hsettled : ∀ j t, SameRun e j k → e.labels j = .edit t →
      ∀ d : Component, d.index < (e.states j).next.index →
        tool_inputs cfg t (e.states j).hardware d =
          tool_inputs cfg (e.states j).tree (e.states j).hardware d)
    (hskip : ∀ j, j < k → ∀ c, skips cfg md5 e c j →
      (e.states j).artifact c = some (clean_build cfg tool (e.states j) c)) :
    BuiltCurrent cfg tool (e.states k) := by
  -- by induction from the begin of this run
  obtain ⟨start, hsk, hstart, hrun⟩ :=
    Lts.exists_last (P := fun m => (e.states m).next = .ip_core) hv.1.1 k
  have hnothing : BuiltCurrent cfg tool (e.states start) := by
    intro d hd
    rw [hstart] at hd
    exact absurd hd (Nat.not_lt_zero _)
  apply Lts.stretch_induction (P := fun m => BuiltCurrent cfg tool (e.states m)) hsk hnothing
  intro j hsj hjk hj
  apply hj.step hv _ (hskip j hjk)
  intro t hl d hd
  rcases Nat.eq_or_lt_of_le hsj with rfl | hlt
  · rw [hstart] at hd
    exact absurd hd (Nat.not_lt_zero _)
  · exact hsettled j t ⟨hjk, fun m hjm hmk => hrun m (by omega) hmk⟩ hl d hd

include hv hmd5 in
/-- At a skipped build, and at the run of the tool that it goes back to, what
    `build.py` has built before is current. -/
theorem built_current (hc : Careful cfg md5 e) {c : Component} {i k : Nat}
    (h : Unchanged cfg md5 e c i k) :
    BuiltCurrent cfg tool (e.states i) ∧ BuiltCurrent cfg tool (e.states k) := by
  induction k using Nat.strong_induction_on generalizing c i with
  | _ k ih =>
    have hskip : ∀ j, j < k → ∀ c', skips cfg md5 e c' j →
        (e.states j).artifact c' = some (clean_build cfg tool (e.states j) c') := by
      intro j hjk c' hj
      obtain ⟨i', hi'⟩ := skip_origin hv hmd5 hj
      exact current_of_unchanged hv hc hi' (ih j hjk hi').1
    have hik := h.before
    exact ⟨built_current_of_settled hv (fun j t hj => hc.settled c i k h j t (.inl hj))
        (fun j hj => hskip j (by omega)),
      built_current_of_settled hv (fun j t hj => hc.settled c i k h j t (.inr hj)) hskip⟩

end careful

/-- A skipped build is never stale: the artifact, and those it was made from,
    are what the tools make of the current sources and hardware. -/
theorem skipped_build_current (hv : (system cfg md5 tool).valid_exec e)
    (hmd5 : Set.InjOn md5 (digested cfg md5 e)) (hc : Careful cfg md5 e) {c : Component} {k : Nat}
    (hskip : skips cfg md5 e c k) : Current cfg tool (e.states k) c := by
  obtain ⟨i, hi⟩ := skip_origin hv hmd5 hskip
  obtain ⟨hbefore, hbelow⟩ := built_current hv hmd5 hc hi
  intro d hd
  rcases Nat.eq_or_lt_of_le hd with heq | hlt
  · have hdc : d = c := by
      rw [← Component.nth_index d, heq, Component.nth_index]
    rw [hdc]
    exact current_of_unchanged hv hc hi hbefore
  · apply hbelow d
    rw [hskip.1.1]
    exact hlt

/-! ### Two runs of build.py -/

/-- One HDL file and the scripts of the tools. -/
def small_tree : SourceTree where
  files :=
    [⟨[ascii "cores", ascii "rv32i", ascii "src", ascii "hdl", ascii "alu.v"], ascii "module alu"⟩,
      ⟨BUILD_SCRIPTS ++ [ascii "build_riscv_worker_pl.tcl"], ascii "create_project"⟩,
      ⟨BUILD_SCRIPTS ++ [ascii "build_riscv_worker_ps_pl.py"], ascii "import vitis"⟩,
      ⟨BUILD_SCRIPTS ++ [ascii "package_riscv_ip.tcl"], ascii "create_project"⟩]
  sorted := by decide +kernel

def rv32i : Config := ⟨ascii "rv32i", .verilog, ascii "/work"⟩

def zybo : Hardware := ⟨ascii "xc7z020clg400-1", ascii "zybo-z7-20", ascii "ps7_cortexa9_0"⟩

def zybo_z7_10 : Hardware := ⟨ascii "xc7z010clg400-1", ascii "zybo-z7-10", ascii "ps7_cortexa9_0"⟩

/-- A digest without collisions on the texts of `small_tree`. -/
def first_bytes (text : List Byte) : Digest := Vector.ofFn fun i => text.getD i.val 0#8

/-- A tool whose artifact says which arguments it was made with. -/
def record_args (_ : Component) (inputs : ToolInputs) (_ : Option (List Str)) : List Str :=
  inputs.args

/-- Everything is built for one hardware, then `hw` is selected and
    `build.py` runs again. -/
def second_run (hw : Hardware) : Lts.Execution (WorkingCopy (List Str)) (Event (List Str)) :=
  .of_inputs (advance rv32i first_bytes record_args)
    ⟨small_tree, zybo, .ip_core, fun _ => none, fun _ => none, false⟩
    fun k => if k = 3 then .select hw else .build .success

theorem second_run_label (hw : Hardware) {k : Nat} (hk : k ≠ 3) :
    (second_run hw).labels k = .build .success := by
  show (if k = 3 then Event.select hw else Event.build .success) = _
  rw [if_neg hk]

theorem second_run_valid (hw : Hardware) (h3 : ((second_run hw).states 3).next = .ip_core) :
    (system rv32i first_bytes record_args).valid_exec (second_run hw) := by
  refine ⟨⟨rfl, fun _ => rfl⟩, fun k => ⟨?_, rfl⟩⟩
  intro hw' hl
  by_cases hk : k = 3
  · rw [hk]
    exact h3
  · rw [second_run_label hw hk] at hl
    cases hl

theorem second_run_label_cases {hw : Hardware} {k : Nat} {l : Event (List Str)}
    (hl : (second_run hw).labels k = l) : l = .select hw ∨ l = .build .success := by
  by_cases hk : k = 3
  · rw [hk] at hl
    exact .inl hl.symm
  · rw [second_run_label hw hk] at hl
    exact .inr hl.symm

theorem second_run_sources (hw : Hardware) (h3 : ((second_run hw).states 3).next = .ip_core)
    (k : Nat) : ((second_run hw).states k).tree = small_tree ∧
      (((second_run hw).states k).hardware = zybo ∨ ((second_run hw).states k).hardware = hw) := by
  induction k with
  | zero => exact ⟨rfl, .inl rfl⟩
  | succ k ih =>
    have hmove := move_at (second_run_valid hw h3) k
    have hl := second_run_label_cases (rfl : (second_run hw).labels k = (second_run hw).labels k)
    generalize (second_run hw).labels k = l at hmove hl
    generalize (second_run hw).states (k + 1) = s' at hmove ⊢
    cases hmove with
    | edit t => rcases hl with hl | hl <;> cases hl
    | select h hnext =>
      rcases hl with hl | hl <;> cases hl
      exact ⟨ih.1, .inr rfl⟩
    | skip r hdate => exact ih
    | success hdate => exact ih
    | failure left hdate => exact ih

theorem second_run_digests (hw : Hardware) (h3 : ((second_run hw).states 3).next = .ip_core) :
    Set.InjOn first_bytes (digested rv32i first_bytes (second_run hw)) := by
  rintro _ ⟨i, -, c, -, -, rfl⟩ _ ⟨k, -, d, -, -, rfl⟩ h
  rw [(second_run_sources hw h3 i).1, (second_run_sources hw h3 k).1] at h ⊢
  have hne : ∀ a b : Component, a.index < b.index →
      first_bytes (hashed rv32i small_tree first_bytes a) ≠
        first_bytes (hashed rv32i small_tree first_bytes b) := by
    intro a b hab
    cases a <;> cases b <;> first | decide +kernel | exact absurd hab (by decide)
  rcases Nat.lt_trichotomy c.index d.index with hlt | heq | hlt
  · exact absurd h (hne c d hlt)
  · have hcd : c = d := by
      rw [← Component.nth_index c, heq, Component.nth_index]
    rw [hcd]
  · exact absurd h.symm (hne d c hlt)

theorem second_run_careful (h3 : ((second_run zybo).states 3).next = .ip_core) :
    Careful rv32i first_bytes (second_run zybo) where
  same_inputs := by
    intro c i k _ d _
    have hsame : ∀ j, ((second_run zybo).states j).tree = small_tree ∧
        ((second_run zybo).states j).hardware = zybo := by
      intro j
      obtain ⟨htree, hhw | hhw⟩ := second_run_sources zybo h3 j
      · exact ⟨htree, hhw⟩
      · exact ⟨htree, hhw⟩
    rw [(hsame i).1, (hsame i).2, (hsame k).1, (hsame k).2]
  no_failure := by
    intro c i k _ m _ _ hf
    obtain ⟨-, ⟨left, hl⟩, -⟩ := hf
    rcases second_run_label_cases hl with h | h <;> cases h
  settled := by
    intro c i k _ j t _ hl
    rcases second_run_label_cases hl with h | h <;> cases h

/-- The Vivado project is not made again for the same board. -/
theorem skipped_build_current_same_board :
    skips rv32i first_bytes (second_run zybo) .fpga_design 5 ∧
      Current rv32i record_args ((second_run zybo).states 5) .fpga_design := by
  have h3 : ((second_run zybo).states 3).next = .ip_core := by decide +kernel
  have hskip : skips rv32i first_bytes (second_run zybo) .fpga_design 5 :=
    ⟨⟨by decide +kernel, .success, rfl⟩, by decide +kernel⟩
  exact ⟨hskip, skipped_build_current rv32i first_bytes record_args (second_run zybo)
    (second_run_valid zybo h3) (second_run_digests zybo h3) (second_run_careful h3) hskip⟩

/-- The IP core of one part is kept for another one. -/
theorem skipped_build_other_board :
    ¬ ∀ (cfg : Config) (md5 : List Byte → Digest)
      (tool : Component → ToolInputs → Option (List Str) → List Str)
      (e : Lts.Execution (WorkingCopy (List Str)) (Event (List Str))),
      (system cfg md5 tool).valid_exec e → Set.InjOn md5 (digested cfg md5 e) →
        ∀ c k, skips cfg md5 e c k → Current cfg tool (e.states k) c := by
  intro h
  have h3 : ((second_run zybo_z7_10).states 3).next = .ip_core := by decide +kernel
  have hskip : skips rv32i first_bytes (second_run zybo_z7_10) .ip_core 4 :=
    ⟨⟨by decide +kernel, .success, rfl⟩, by decide +kernel⟩
  have hcur := h rv32i first_bytes record_args (second_run zybo_z7_10)
    (second_run_valid zybo_z7_10 h3) (second_run_digests zybo_z7_10 h3) .ip_core 4 hskip
    .ip_core (Nat.le_refl _)
  have hstale : ¬ ((second_run zybo_z7_10).states 4).artifact .ip_core =
      some (clean_build rv32i record_args ((second_run zybo_z7_10).states 4) .ip_core) := by
    decide +kernel
  exact hstale hcur

end runs

end BuildUtils

end RiscvWorker
