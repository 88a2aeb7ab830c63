import RiscvWorker.Library.BuildChain
import RiscvWorker.Library.Lts
import RiscvWorker.Library.Text

/-! # build.py, riscv_build_utils.py

  The three builds that `runtime_hardware_handler` starts one after another,
  each behind a digest of its sources: the packaged IP core, the Vivado
  project, and the Vitis project. The core and its HDL are those of one
  configuration; paths are relative to the directory of `build.py`.
-/

namespace RiscvWorker

open Text (Byte ascii)

namespace BuildUtils

/-- A text; the parts of a path are texts. -/
abbrev Str : Type := List Byte

/-! ### Files -/

structure SourceFile where
  parts : List Str
  bytes : List Byte
  deriving DecidableEq

namespace SourceFile

def name (f : SourceFile) : Str := f.parts.getLast?.getD []

def parent (f : SourceFile) : List Str := f.parts.dropLast

def has_suffix (f : SourceFile) (suffix : Str) : Bool := suffix.isSuffixOf f.name

end SourceFile

/-- The files of the repository, in the order of their paths. -/
structure SourceTree where
  files : List SourceFile
  sorted : files.Pairwise fun f g => f.parts < g.parts

/-- The bytes of a file, if it is there. -/
def SourceTree.read (t : SourceTree) (parts : List Str) : Option (List Byte) :=
  (t.files.find? fun f => f.parts == parts).map SourceFile.bytes

/-- `"/".join(parts)` -/
def path_str (parts : List Str) : Str := (ascii "/").intercalate parts

def PLATFORM_DIR : List Str := [ascii "platforms", ascii "xilinx"]

def BUILD_SCRIPTS : List Str := PLATFORM_DIR ++ [ascii "scripts"]

def C_SRC : List Str := PLATFORM_DIR ++ [ascii "src"]

def INC_FILES : List Str := PLATFORM_DIR ++ [ascii "include"]

def BUILD_DIR : List Str := PLATFORM_DIR ++ [ascii "build"]

/-! ### Configuration -/

inductive Hdl where
  | verilog
  | vhdl
  | systemverilog
  deriving DecidableEq, Repr

def Hdl.name : Hdl → Str
  | .verilog => ascii "verilog"
  | .vhdl => ascii "vhdl"
  | .systemverilog => ascii "systemverilog"

/-- Target platform details. -/
structure Hardware where
  target : Str
  board : Str
  cpu : Str
  deriving DecidableEq

/-- The core, its HDL, and the directory of `build.py`. -/
structure Config where
  core : Str
  hdl : Hdl
  cwd : Str

namespace Config
variable (cfg : Config)

def IP_NAME : Str := cfg.core ++ ascii "_" ++ cfg.hdl.name

def IP_VENDOR : Str := ascii "ISAE"

def IP_LIBRARY : Str := ascii "user"

def IP_VERSION : Str := ascii "1.0"

def XSA : Str := cfg.IP_NAME ++ ascii "_hardware.xsa"

def core_dir : List Str := [ascii "cores", cfg.core]

end Config

/-- The designs, in the order in which they are built. -/
inductive Component where
  | ip_core
  | fpga_design
  | soc_design
  deriving DecidableEq, Repr

namespace Component

def index : Component → Nat
  | .ip_core => 0
  | .fpga_design => 1
  | .soc_design => 2

/-- What is built next; after the last one a run is over. -/
def following : Component → Component
  | .ip_core => .fpga_design
  | .fpga_design => .soc_design
  | .soc_design => .ip_core

/-- The design whose artifact the tool reads. -/
def dependency : Component → Option Component
  | .ip_core => none
  | .fpga_design => some .ip_core
  | .soc_design => some .fpga_design

end Component

/-! ### Digests -/

/-- `hexdigest()`: 32 characters. -/
abbrev Digest : Type := Vector Byte 32

section hashing
variable (cfg : Config) (t : SourceTree)

/-- The file patterns of an HDL, as suffixes. -/
def patterns : Hdl → List Str
  | .verilog => [ascii ".v", ascii ".vh", ascii ".xdc"]
  | .systemverilog => [ascii ".sv", ascii ".svi", ascii ".xdc"]
  | .vhdl => [ascii ".vhd", ascii ".xdc"]

/-- `_get_sources_for_hashing`; a filter keeps the files sorted. -/
def get_sources_for_hashing : Component → List SourceFile
  | .ip_core => t.files.filter fun f =>
      (cfg.core_dir ++ [ascii "src"]).isPrefixOf f.parent &&
        (patterns cfg.hdl).any (f.has_suffix ·) && !f.parts.contains (ascii "sim")
  | .fpga_design => t.files.filter fun f => f.parent == BUILD_SCRIPTS && f.has_suffix (ascii ".tcl")
  | .soc_design => t.files.filter fun f =>
      f.parent == C_SRC && f.has_suffix (ascii ".c") ||
        f.parent == INC_FILES && f.has_suffix (ascii ".h")

/-- The path that is hashed: relative to `source_dir`, or else the name. The
    source directory of the SoC design is absolute, so that no file is below
    it. -/
def rel_path : Component → SourceFile → Str
  | .ip_core, f => path_str (f.parts.drop cfg.core_dir.length)
  | .fpga_design, f => f.name
  | .soc_design, f => f.name

def version : Component → Str
  | .ip_core => Config.IP_VERSION
  | .fpga_design => ascii "1.0"
  | .soc_design => ascii "1.0"

/-- What the hasher takes before the extra content: paths and contents, with
    nothing between them, and the version. -/
def hashed_sources (c : Component) : List Byte :=
  ((get_sources_for_hashing cfg t c).map fun f => rel_path cfg c f ++ f.bytes).flatten ++
    version c

variable (md5 : List Byte → Digest)

/-! All that the hasher takes: the extra content is the hash of the dependency. -/

def ip_core_hashed : List Byte := hashed_sources cfg t .ip_core

def fpga_design_hashed : List Byte :=
  hashed_sources cfg t .fpga_design ++ (md5 (ip_core_hashed cfg t)).toList

def soc_design_hashed : List Byte :=
  hashed_sources cfg t .soc_design ++ (md5 (fpga_design_hashed cfg t md5)).toList

def hashed : Component → List Byte
  | .ip_core => ip_core_hashed cfg t
  | .fpga_design => fpga_design_hashed cfg t md5
  | .soc_design => soc_design_hashed cfg t md5

/-- `_compute_hash` -/
def compute_hash (c : Component) : Digest := md5 (hashed cfg t md5 c)

end hashing

/-! ### Tools -/

/-- What a tool gets beside the artifact of the dependency: its script, the
    source files that the script reads, and the arguments. -/
structure ToolInputs where
  script : Option (List Byte)
  files : List SourceFile
  args : List Str
  deriving DecidableEq

section tools
variable (cfg : Config) (t : SourceTree) (h : Hardware)

def tool_script : Component → List Str
  | .ip_core => BUILD_SCRIPTS ++ [ascii "package_riscv_ip.tcl"]
  | .fpga_design => BUILD_SCRIPTS ++ [ascii "build_riscv_worker_pl.tcl"]
  | .soc_design => BUILD_SCRIPTS ++ [ascii "build_riscv_worker_ps_pl.py"]

/-- The files that `package_riscv_ip.tcl` leaves out. -/
def exclude_list : List Str := [ascii "axi_memory_mock.v", ascii "bram32.v"]

/-- The source files that the scripts read. -/
def tool_files : Component → List SourceFile
  | .ip_core => t.files.filter fun f =>
      f.parent == cfg.core_dir ++ [ascii "src", ascii "hdl"] && f.has_suffix (ascii ".v") &&
          !exclude_list.contains f.name ||
        f.parent == cfg.core_dir ++ [ascii "src", ascii "include"] && f.has_suffix (ascii ".vh")
  | .fpga_design => []
  | .soc_design => t.files.filter fun f =>
      f.parent == C_SRC &&
          (f.has_suffix (ascii ".c") || f.has_suffix (ascii ".cpp") || f.has_suffix (ascii ".h")) ||
        f.parent == INC_FILES && f.has_suffix (ascii ".h")

/-- The directory of the Vivado project. -/
def pl_dir : List Str := BUILD_DIR ++ [ascii "build_riscv_worker_pl_" ++ cfg.IP_NAME]

/-- The arguments; the names of the log files are left out. -/
def tool_args : Component → List Str
  | .ip_core => [cfg.IP_NAME, Config.IP_VENDOR, Config.IP_LIBRARY, Config.IP_VERSION, h.target, cfg.core]
  | .fpga_design =>
    [ascii "RISC_V_worker_PL_layer", h.target, h.board, cfg.XSA,
      Config.IP_VENDOR ++ ascii ":" ++ Config.IP_LIBRARY ++ ascii ":" ++ cfg.IP_NAME ++ ascii ":" ++
        Config.IP_VERSION,
      cfg.IP_NAME]
  | .soc_design =>
    [ascii "--workspace", path_str (BUILD_DIR ++ [ascii "vitis_ws"]),
      ascii "--platform", ascii "RISC_V_worker_PS_layer_platform",
      ascii "--hw_design", path_str (pl_dir cfg ++ [cfg.XSA]),
      ascii "--cpu", h.cpu,
      ascii "--application", ascii "RISC_V_worker_PS_application",
      ascii "--code", cfg.cwd ++ ascii "/" ++ path_str PLATFORM_DIR,
      ascii "--verbose", ascii "1"]

def tool_inputs (c : Component) : ToolInputs where
  script := t.read (tool_script c)
  files := tool_files cfg t c
  args := tool_args cfg h c

end tools

/-! ### Builds -/

/-- The state of a working copy: its files, the hardware that is selected, what
    is built next, the digest files, the outputs of the tools, and the
    directory that the SoC design looks for. -/
structure WorkingCopy (Artifact : Type) where
  tree : SourceTree
  hardware : Hardware
  next : Component
  digest_file : Component → Option Digest
  artifact : Component → Option Artifact
  platform_dir : Bool

/-- How a run of a tool ends; one that fails leaves anything at its output. -/
inductive ToolResult (Artifact : Type) where
  | success
  | failure (left : Option Artifact)

/-- What happens to a working copy. -/
inductive Event (Artifact : Type) where
  | edit (t : SourceTree)
  | select (h : Hardware)
  | build (r : ToolResult Artifact)

section builds
variable {Artifact : Type} (cfg : Config) (md5 : List Byte → Digest)
  (tool : Component → ToolInputs → Option Artifact → Artifact) (s : WorkingCopy Artifact)

/-- `_check_build_artifacts_exist`. The Vitis project is made in its workspace,
    not where the SoC design looks. -/
def check_build_artifacts_exist : Component → Bool
  | .ip_core => (s.artifact .ip_core).isSome
  | .fpga_design => (s.artifact .fpga_design).isSome
  | .soc_design => s.platform_dir

def current_hash : Digest := compute_hash cfg s.tree md5 s.next

/-- Up to date. Skipping build. -/
def up_to_date : Bool :=
  s.digest_file s.next == some (current_hash cfg md5 s) && check_build_artifacts_exist s s.next

/-- What the tool makes of the files at hand. -/
def run_build_tool : Artifact :=
  tool s.next (tool_inputs cfg s.tree s.hardware s.next) (s.next.dependency.bind s.artifact)

/-- `build` of the next design. A failure ends the run of `build.py`. -/
def build (r : ToolResult Artifact) : WorkingCopy Artifact :=
  if up_to_date cfg md5 s then { s with next := s.next.following }
  else
    match r with
    | .success =>
      { s with
        artifact := Function.update s.artifact s.next (some (run_build_tool cfg tool s))
        digest_file := Function.update s.digest_file s.next (some (current_hash cfg md5 s))
        next := s.next.following }
    | .failure left =>
      { s with
        artifact := Function.update s.artifact s.next left
        next := .ip_core }

/-- The working copy after an event. -/
def advance : Event Artifact → WorkingCopy Artifact
  | .edit t => { s with tree := t }
  | .select h => { s with hardware := h }
  | .build r => build cfg md5 tool s r

/-- Files may be edited at any time; the hardware is selected when a run
    begins. Nothing is built at first. -/
def system : Lts.System (WorkingCopy Artifact) (Event Artifact) where
  init s := s.next = .ip_core ∧ ∀ c, s.digest_file c = none
  step s l s' := (∀ h, l = .select h → s.next = .ip_core) ∧ s' = advance cfg md5 tool s l

end builds

end BuildUtils

end RiscvWorker
