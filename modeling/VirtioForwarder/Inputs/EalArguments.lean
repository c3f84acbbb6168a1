import VirtioForwarder.Library.Bits
import VirtioForwarder.Library.CText

/-! The arguments for the EAL that `dpdk_eal_initialize` builds: the mask of the CPUs and the
memory for each NUMA node. Its constants are of type `int`, and all numbers are printed into one
buffer.
-/

namespace VirtioForwarder

open CText

/-- `struct dpdk_conf`. -/
structure DpdkConf where
  logLevel : Nat
  masterLcore : Nat
  hugeDir : List Char
  vfioVfToken : List Char
  coreBitmap : BitVec 64
  useJumbo : Bool
  enableTso : Bool
  enableSameNuma : Bool
  enableVfioVfToken : Bool

/-- What `get_cpuinfo` has found. -/
structure CpuInfo where
  numnodes : Nat
  cpubitmap : BitVec 64
  numanode : Nat → Nat

/-- Why no arguments are handed to the EAL. `bufOverrun` is a write outside `buf`. -/
inductive EalError where
  | workersOutside
  | masterOutside
  | masterIsWorker
  | bufOverrun
  deriving DecidableEq, Repr

/-- `1 << count` for the `int` 1. The machines that DPDK runs on take the count modulo 32. -/
def intShift (count : Nat) : BitVec 32 := 1#32 <<< (count % 32)

/-- `1 << master_lcore` where it meets a 64-bit operand. -/
def masterBit (conf : DpdkConf) : BitVec 64 := (intShift conf.masterLcore).signExtend 64

/-- The checks at the beginning of `dpdk_eal_initialize`. -/
def checkCores (conf : DpdkConf) (cpu : CpuInfo) : Except EalError Unit :=
  if conf.coreBitmap &&& cpu.cpubitmap ≠ conf.coreBitmap then .error .workersOutside
  else if masterBit conf &&& cpu.cpubitmap = 0#64 then .error .masterOutside
  else if conf.coreBitmap &&& masterBit conf ≠ 0#64 then .error .masterIsWorker
  else .ok ()

/-- The value for `-c`. -/
def coreMask (conf : DpdkConf) : BitVec 64 := conf.coreBitmap ||| masterBit conf

/-- `numa_bitmap` after the loop over the CPUs. -/
def numaBitmap (conf : DpdkConf) (cpu : CpuInfo) : BitVec 32 :=
  (List.range 64).foldl
    (fun bitmap i =>
      if conf.coreBitmap.getLsbD i then bitmap ||| intShift (cpu.numanode i) else bitmap)
    0#32

/-- A number is printed at the beginning of `buf`. -/
def printNumber (buf text : List Char) : Except EalError (List Char) :=
  match snprintf buf 0 32 text with
  | some after => .ok after
  | none => .error .bufOverrun

/-- The loop that prints the memory of the nodes: `buf`, `len`, and the sizes `32 - len` that
`snprintf` was called with so far.
-/
structure SocketMem where
  buf : List Char
  len : Nat
  sizes : List Int

/-- `len += snprintf(buf + len, 32 - len, text)`. The size is converted to `size_t`; with size 0
nothing is written.
-/
def SocketMem.print (state : SocketMem) (text : List Char) : Option SocketMem := do
  let size : Int := 32 - state.len
  let after ←
    if size = 0 then some state.buf
    else snprintf state.buf state.len (size % 2 ^ 64).toNat text
  return ⟨after, state.len + text.length, state.sizes ++ [size]⟩

/-- The memory of a node in MiB. -/
def nodeMemory (conf : DpdkConf) (numa : BitVec 32) (node : Nat) : List Char :=
  if intShift node &&& numa ≠ 0#32 then
    if conf.useJumbo || conf.enableTso then "2750".toList else "768".toList
  else if conf.enableSameNuma then "0".toList else "1".toList

/-- The body of the loop over the nodes. -/
def socketMemStep (conf : DpdkConf) (numa : BitVec 32) (state : SocketMem) (node : Nat)
    : Option SocketMem := do
  let state ← if 1 ≤ node then state.print [','] else some state
  state.print (nodeMemory conf numa node)

/-- The loop over the nodes. -/
def socketMem (conf : DpdkConf) (cpu : CpuInfo) (buf : List Char) : Option SocketMem :=
  (List.range cpu.numnodes).foldlM (socketMemStep conf (numaBitmap conf cpu)) ⟨buf, 0, []⟩

/-- The arguments of `rte_eal_init`; `stack` is what `buf` holds before it is first written. -/
def ealArguments (conf : DpdkConf) (cpu : CpuInfo) (stack : List Char)
    : Except EalError (List (List Char)) := do
  checkCores conf cpu
  let masterBuf ← printNumber stack (decimalText conf.masterLcore)
  let logBuf ← printNumber masterBuf (decimalText conf.logLevel)
  let buf ← printNumber logBuf (hexText false 1 (coreMask conf).toNat)
  let some memory := socketMem conf cpu buf | .error .bufOverrun
  return ["virtio-forwarder".toList, "--main-lcore".toList, cString masterBuf,
      "--log-level".toList, cString logBuf, "--huge-dir".toList, conf.hugeDir,
      "--file-prefix".toList, "virtio-forwarder_".toList]
    ++ (if conf.enableVfioVfToken then ["--vfio-vf-token".toList, conf.vfioVfToken] else [])
    ++ ["--huge-unlink".toList, "-a".toList, "ffff:ff:ff.f".toList, "-c".toList, cString buf,
      "-n".toList, "4".toList, "--socket-mem".toList, cString memory.buf]

/-- `dpdk_eal_initialize`, given `rte_eal_init`; `none` if it writes outside `buf`. -/
def dpdkEalInitialize (rteEalInit : List (List Char) → Int) (conf : DpdkConf) (cpu : CpuInfo)
    (stack : List Char) : Option Int :=
  match ealArguments conf cpu stack with
  | .error .bufOverrun => none
  | .error _ => some (-1)
  | .ok argv =>
      let ret := rteEalInit argv
      some (if ret < 0 then ret else 0)

theorem checkCores_of_ealArguments {conf : DpdkConf} {cpu : CpuInfo} {stack : List Char}
    {argv : List (List Char)} (made : ealArguments conf cpu stack = .ok argv)
    : checkCores conf cpu = .ok () := by
  cases checked : checkCores conf cpu with
  | ok => rfl
  | error error =>
      rw [ealArguments, checked] at made
      cases made

/-- The EAL is initialized exactly if arguments can be made and `rte_eal_init` takes them. -/
theorem dpdkEalInitialize_eq_zero_iff {rteEalInit : List (List Char) → Int} {conf : DpdkConf}
    {cpu : CpuInfo} {stack : List Char}
    : dpdkEalInitialize rteEalInit conf cpu stack = some 0
      ↔ ∃ argv, ealArguments conf cpu stack = .ok argv ∧ 0 ≤ rteEalInit argv := by
  unfold dpdkEalInitialize
  split
  · rename_i made
    simp [made]
  · rename_i error _ made
    simp [made]
  · rename_i argv made
    rw [made]
    by_cases failed : rteEalInit argv < 0
    · simp [failed, failed.ne]
    · simp [failed, not_lt.mp failed]

-----------------------------------------------------------------------------------------
-- The mask of the CPUs
-----------------------------------------------------------------------------------------

/-- The CPU is in the bitmap. -/
def InBitmap (bitmap : BitVec 64) (i : Nat) : Prop := bitmap.getLsbD i = true

instance (bitmap : BitVec 64) (i : Nat) : Decidable (InBitmap bitmap i) :=
  inferInstanceAs (Decidable (bitmap.getLsbD i = true))

/-- What the checks are for: all workers and the master run on CPUs that are there, and the
master is not one of the workers.
-/
def CoresAcceptable (conf : DpdkConf) (cpu : CpuInfo) : Prop :=
  (∀ i, InBitmap conf.coreBitmap i → InBitmap cpu.cpubitmap i)
  ∧ InBitmap cpu.cpubitmap conf.masterLcore ∧ ¬ InBitmap conf.coreBitmap conf.masterLcore

/-- The checks accept what they are for, and the mask that is then printed has the workers and
the master.
-/
def CoreMaskExact (conf : DpdkConf) (cpu : CpuInfo) : Prop :=
  (checkCores conf cpu = .ok () ↔ CoresAcceptable conf cpu)
  ∧ (checkCores conf cpu = .ok () →
      ∀ before : List Char, before.length = 32 →
        ∃ buf, printNumber before (hexText false 1 (coreMask conf).toNat) = .ok buf
          ∧ cString buf
            = hexText false 1 (Bits.assignBit conf.coreBitmap conf.masterLcore true).toNat)

/-- The CPUs that `1 << count` stands for among 64: bit 31 is the sign and fills the upper half. -/
def ShiftedTo (count i : Nat) : Prop :=
  if count % 32 = 31 then 31 ≤ i ∧ i < 64 else i = count % 32

/-- The master is a CPU below 31, or the workers are refused anyway, or the master has to be
refused and the CPUs that are looked at in its place lead to the same.
-/
def MaskConditions (conf : DpdkConf) (cpu : CpuInfo) : Prop :=
  conf.masterLcore < 31
  ∨ (∃ i, InBitmap conf.coreBitmap i ∧ ¬ InBitmap cpu.cpubitmap i)
  ∨ (¬ InBitmap cpu.cpubitmap conf.masterLcore ∨ InBitmap conf.coreBitmap conf.masterLcore)
    ∧ ((∀ i, ShiftedTo conf.masterLcore i → ¬ InBitmap cpu.cpubitmap i)
      ∨ ∃ i, ShiftedTo conf.masterLcore i ∧ InBitmap conf.coreBitmap i)

theorem getLsbD_intShift (count i : Nat)
    : (intShift count).getLsbD i = true ↔ i = count % 32 := by
  have small : count % 32 < 32 := Nat.mod_lt _ (by decide)
  rw [intShift, BitVec.getLsbD_shiftLeft, BitVec.getLsbD_one]
  simp only [Bool.and_eq_true, decide_eq_true_eq, Bool.not_eq_true', decide_eq_false_iff_not]
  omega

theorem msb_intShift (count : Nat) : (intShift count).msb = true ↔ count % 32 = 31 := by
  rw [BitVec.msb_eq_getLsbD_last, getLsbD_intShift]
  omega

/-- The bits of the shifted constant after its conversion. -/
theorem inBitmap_masterBit (conf : DpdkConf) (i : Nat)
    : InBitmap (masterBit conf) i ↔ ShiftedTo conf.masterLcore i := by
  have small : conf.masterLcore % 32 < 32 := Nat.mod_lt _ (by decide)
  rw [InBitmap, masterBit, BitVec.getLsbD_signExtend, Bool.and_eq_true, decide_eq_true_eq,
    ShiftedTo]
  by_cases low : i < 32
  · rw [if_pos low, getLsbD_intShift]
    split <;> omega
  · rw [if_neg low, msb_intShift]
    split <;> omega

theorem and_eq_left_iff (first second : BitVec 64)
    : first &&& second = first ↔ ∀ i, InBitmap first i → InBitmap second i := by
  constructor
  · intro same i member
    rw [← same, InBitmap, BitVec.getLsbD_and, Bool.and_eq_true] at member
    exact member.2
  · intro subset
    apply BitVec.eq_of_getLsbD_eq
    intro i _
    rw [BitVec.getLsbD_and, Bool.and_eq_left_iff_imp]
    exact subset i

theorem and_eq_zero_iff_disjoint (first second : BitVec 64)
    : first &&& second = 0#64 ↔ ∀ i, InBitmap first i → ¬ InBitmap second i := by
  constructor
  · intro zero i left right
    have bit : (first &&& second).getLsbD i = true := by
      rw [BitVec.getLsbD_and, left, right]
      rfl
    rw [zero, BitVec.getLsbD_zero] at bit
    exact Bool.false_ne_true bit
  · intro disjoint
    apply BitVec.eq_of_getLsbD_eq
    intro i _
    rw [BitVec.getLsbD_and, BitVec.getLsbD_zero, Bool.and_eq_false_imp]
    intro left
    exact Bool.eq_false_of_not_eq_true (disjoint i left)

/-- What the checks look at. -/
theorem checkCores_eq_ok (conf : DpdkConf) (cpu : CpuInfo)
    : checkCores conf cpu = .ok ()
      ↔ (∀ i, InBitmap conf.coreBitmap i → InBitmap cpu.cpubitmap i)
        ∧ (∃ i, ShiftedTo conf.masterLcore i ∧ InBitmap cpu.cpubitmap i)
        ∧ ∀ i, ShiftedTo conf.masterLcore i → ¬ InBitmap conf.coreBitmap i := by
  have workers := and_eq_left_iff conf.coreBitmap cpu.cpubitmap
  have present := and_eq_zero_iff_disjoint (masterBit conf) cpu.cpubitmap
  have apart := and_eq_zero_iff_disjoint (masterBit conf) conf.coreBitmap
  rw [BitVec.and_comm] at apart
  simp only [inBitmap_masterBit] at present apart
  rw [← workers, ← apart, checkCores]
  have found : (∃ i, ShiftedTo conf.masterLcore i ∧ InBitmap cpu.cpubitmap i)
      ↔ masterBit conf &&& cpu.cpubitmap ≠ 0#64 := by
    rw [Ne, present]
    push Not
    rfl
  rw [found]
  by_cases inside : conf.coreBitmap &&& cpu.cpubitmap = conf.coreBitmap <;>
    by_cases absent : masterBit conf &&& cpu.cpubitmap = 0#64 <;>
    by_cases disjoint : conf.coreBitmap &&& masterBit conf = 0#64 <;>
    simp [inside, absent, disjoint]

theorem hexText_injective {upper : Bool} {width first second : Nat}
    (same : hexText upper width first = hexText upper width second)
    : first = second := by
  rw [← number_hexText upper width first, same, number_hexText]

/-- A number of 64 bits is printed whole. -/
theorem printNumber_mask {before : List Char} (length : before.length = 32) (mask : BitVec 64)
    : ∃ buf, printNumber before (hexText false 1 mask.toNat) = .ok buf ∧ buf.length = 32
        ∧ cString buf = hexText false 1 mask.toNat := by
  have short : (hexText false 1 mask.toNat).length ≤ 16 := by
    have digits : (Nat.digits 16 mask.toNat).length ≤ 16 :=
      (Nat.digits_length_le_iff (by decide) _).mpr mask.isLt
    rw [hexText_length]
    omega
  have begins : ([] : List Char) <+: before := List.nil_prefix
  have fits : ([] : List Char).length + (hexText false 1 mask.toNat).length < before.length := by
    rw [List.length_nil, length]
    omega
  obtain ⟨buf, printed, same, text⟩ := snprintf_behind (hexText false 1 mask.toNat) begins fits
  rw [List.length_nil, Nat.sub_zero, length] at printed
  refine ⟨buf, by rw [printNumber, printed], by rw [same, length], ?_⟩
  exact cString_of_prefix (zero_not_mem_hexText false 1 _) text

theorem shiftedTo_small {count i : Nat} (small : count < 31) : ShiftedTo count i ↔ i = count := by
  rw [ShiftedTo, Nat.mod_eq_of_lt (by omega), if_neg (by omega)]

/-- From CPU 31 on, the constant stands for another CPU than the master. -/
theorem shiftedTo_other {count : Nat} (large : 31 ≤ count) (below : count < 64)
    : ∃ i, i < 64 ∧ ShiftedTo count i ∧ i ≠ count := by
  by_cases sign : count % 32 = 31
  · rcases Nat.lt_or_ge count 32 with first | second
    · exact ⟨32, by decide, by rw [ShiftedTo, if_pos sign]; decide, by omega⟩
    · exact ⟨31, by decide, by rw [ShiftedTo, if_pos sign]; decide, by omega⟩
  · exact ⟨count % 32, by omega, by rw [ShiftedTo, if_neg sign], by omega⟩

theorem inBitmap_coreMask (conf : DpdkConf) (i : Nat)
    : InBitmap (coreMask conf) i ↔ InBitmap conf.coreBitmap i ∨ ShiftedTo conf.masterLcore i := by
  rw [← inBitmap_masterBit, InBitmap, coreMask, BitVec.getLsbD_or, Bool.or_eq_true]
  rfl

theorem inBitmap_assignBit (bitmap : BitVec 64) {position : Nat} (below : position < 64) (i : Nat)
    : InBitmap (Bits.assignBit bitmap position true) i ↔ InBitmap bitmap i ∨ i = position := by
  rw [InBitmap, Bits.getLsbD_assignBit below]
  split
  · simp [*]
  · simp [InBitmap, *]

/-- Below CPU 31 the checks look at the master itself. -/
theorem checkCores_small {conf : DpdkConf} (cpu : CpuInfo) (small : conf.masterLcore < 31)
    : checkCores conf cpu = .ok () ↔ CoresAcceptable conf cpu := by
  rw [checkCores_eq_ok, CoresAcceptable]
  simp only [shiftedTo_small small, exists_eq_left, forall_eq]

theorem coreMask_small {conf : DpdkConf} (small : conf.masterLcore < 31)
    : coreMask conf = Bits.assignBit conf.coreBitmap conf.masterLcore true := by
  apply BitVec.eq_of_getLsbD_eq
  intro i _
  have printed := inBitmap_coreMask conf i
  have wanted := inBitmap_assignBit conf.coreBitmap (by omega : conf.masterLcore < 64) i
  rw [shiftedTo_small small, ← wanted] at printed
  exact Bool.eq_iff_iff.mpr printed

/-- The mask with another CPU in place of the master is not the one with the master. -/
theorem coreMask_large {conf : DpdkConf} (large : 31 ≤ conf.masterLcore)
    (below : conf.masterLcore < 64)
    (apart : ∀ i, ShiftedTo conf.masterLcore i → ¬ InBitmap conf.coreBitmap i)
    : coreMask conf ≠ Bits.assignBit conf.coreBitmap conf.masterLcore true := by
  intro same
  obtain ⟨i, _, shifted, other⟩ := shiftedTo_other large below
  have printed : InBitmap (coreMask conf) i := (inBitmap_coreMask conf i).mpr (Or.inr shifted)
  rw [same, inBitmap_assignBit _ below] at printed
  exact printed.elim (apart i shifted) other

/-- Outside the conditions, acceptable CPUs are refused or lead to another mask, or others are
accepted.
-/
theorem MaskConditions.of_exact {conf : DpdkConf} {cpu : CpuInfo}
    (below : conf.masterLcore < 64) (holds : CoreMaskExact conf cpu)
    : MaskConditions conf cpu := by
  by_contra outside
  rw [MaskConditions] at outside
  push Not at outside
  obtain ⟨large, workers, outside⟩ := outside
  have present : InBitmap cpu.cpubitmap conf.masterLcore
      ∧ ¬ InBitmap conf.coreBitmap conf.masterLcore := by
    by_contra refused
    have passed := (checkCores_eq_ok conf cpu).mpr ⟨workers, outside (by tauto)⟩
    exact refused (holds.1.mp passed).2
  have passed := holds.1.mpr ⟨workers, present⟩
  obtain ⟨buf, printed, text⟩ := holds.2 passed (List.replicate 32 ' ') (by decide)
  obtain ⟨_, again, _, whole⟩ :=
    printNumber_mask (List.length_replicate : (List.replicate 32 ' ').length = 32) (coreMask conf)
  cases printed.symm.trans again
  have same := BitVec.eq_of_toNat_eq (hexText_injective (whole.symm.trans text))
  exact coreMask_large large below ((checkCores_eq_ok conf cpu).mp passed).2.2 same

/-- The checks and the mask of the CPUs are exact if and only if the master is a CPU below 31, or
all its stand-ins lead to the refusal that is due.
-/
theorem coreMaskExact_iff (conf : DpdkConf) (cpu : CpuInfo) (below : conf.masterLcore < 64)
    : CoreMaskExact conf cpu ↔ MaskConditions conf cpu := by
  constructor
  · exact MaskConditions.of_exact below
  · intro conditions
    rcases conditions with small | ⟨i, worker, absent⟩ | ⟨unfit, refused⟩
    · constructor
      · exact checkCores_small cpu small
      · intro _ before length
        obtain ⟨buf, printed, _, text⟩ := printNumber_mask length (coreMask conf)
        refine ⟨buf, printed, ?_⟩
        rw [text, coreMask_small small]
    · have fails : ¬ checkCores conf cpu = .ok () := by
        intro passed
        exact absent (((checkCores_eq_ok conf cpu).mp passed).1 i worker)
      have unacceptable : ¬ CoresAcceptable conf cpu := fun cores => absent (cores.1 i worker)
      exact ⟨iff_of_false fails unacceptable, fun passed => absurd passed fails⟩
    · have fails : ¬ checkCores conf cpu = .ok () := by
        intro passed
        obtain ⟨_, ⟨i, shifted, present⟩, apart⟩ := (checkCores_eq_ok conf cpu).mp passed
        rcases refused with none | ⟨j, stands, worker⟩
        · exact none i shifted present
        · exact apart j stands worker
      have unacceptable : ¬ CoresAcceptable conf cpu :=
        fun cores => unfit.elim (fun absent => absent cores.2.1) cores.2.2
      exact ⟨iff_of_false fails unacceptable, fun passed => absurd passed fails⟩

/-- One worker on CPU 1, without any of the options. -/
def oneWorker (masterLcore : Nat) : DpdkConf where
  logLevel := 6
  masterLcore := masterLcore
  hugeDir := "/mnt/huge".toList
  vfioVfToken := []
  coreBitmap := 2
  useJumbo := false
  enableTso := false
  enableSameNuma := false
  enableVfioVfToken := false

/-- A machine with 64 CPUs on one node. -/
def manyCpus : CpuInfo := ⟨1, BitVec.allOnes 64, fun _ => 0⟩

/-- Witness: with master lcore 0, the checks and the mask are exact. -/
theorem coreMaskExact_first_cpu : CoreMaskExact (oneWorker 0) manyCpus :=
  (coreMaskExact_iff (oneWorker 0) manyCpus (by decide)).mpr (Or.inl (by decide))

/-- With master lcore 31, the mask has all CPUs from 31 to 63. -/
theorem coreMask_spills : ¬ CoreMaskExact (oneWorker 31) manyCpus := by
  intro holds
  have conditions := MaskConditions.of_exact (by decide) holds
  rcases conditions with small | ⟨i, worker, absent⟩ | ⟨absent | worker, _⟩
  · exact absurd small (by decide)
  · have below : i < 64 := BitVec.lt_of_getLsbD worker
    have present : InBitmap manyCpus.cpubitmap i := by
      rw [manyCpus, InBitmap, BitVec.getLsbD_allOnes]
      exact decide_eq_true below
    exact absent present
  · exact absent (by rfl)
  · exact absurd worker (by decide)

-----------------------------------------------------------------------------------------
-- The memory of the NUMA nodes
-----------------------------------------------------------------------------------------

/-- The list that the loop is to leave in `buf`: an entry for each of the nodes. -/
def nodeList (conf : DpdkConf) (numa : BitVec 32) (nodes : Nat) : List Char :=
  [','].intercalate ((List.range nodes).map (nodeMemory conf numa))

/-- The loop, which begins when the mask is in `buf`, stays in `buf`, has room left at each call
of `snprintf`, and leaves the list.
-/
def SocketMemExact (conf : DpdkConf) (cpu : CpuInfo) : Prop :=
  ∀ before buf, before.length = 32 →
    printNumber before (hexText false 1 (coreMask conf).toNat) = .ok buf →
    ∃ memory, socketMem conf cpu buf = some memory
      ∧ (∀ size ∈ memory.sizes, 0 < size)
      ∧ cString memory.buf = nodeList conf (numaBitmap conf cpu) cpu.numnodes

/-- A worker runs on the node. -/
def worksOn (conf : DpdkConf) (cpu : CpuInfo) (node : Nat) : Bool :=
  (List.range 64).any fun i => conf.coreBitmap.getLsbD i && decide (node % 32 = cpu.numanode i % 32)

/-- The number of characters for a node with workers. -/
def workerWidth (conf : DpdkConf) : Nat := if conf.useJumbo || conf.enableTso then 4 else 3

/-- There is a node, and the widths of all entries and commas leave room for the zero byte. -/
def SocketMemConditions (conf : DpdkConf) (cpu : CpuInfo) : Prop :=
  let workers := (List.range cpu.numnodes).countP (worksOn conf cpu)
  1 ≤ cpu.numnodes
  ∧ workerWidth conf * workers + (cpu.numnodes - workers) + (cpu.numnodes - 1) ≤ 31

theorem getLsbD_foldl_intShift (conf : DpdkConf) (cpu : CpuInfo) (bit : Nat) (cpus : List Nat)
    (bitmap : BitVec 32)
    : (cpus.foldl (fun bitmap i =>
        if conf.coreBitmap.getLsbD i then bitmap ||| intShift (cpu.numanode i) else bitmap)
        bitmap).getLsbD bit = true
      ↔ bitmap.getLsbD bit = true
        ∨ ∃ i ∈ cpus, conf.coreBitmap.getLsbD i = true ∧ bit = cpu.numanode i % 32 := by
  induction cpus generalizing bitmap with
  | nil => simp
  | cons first rest ih =>
      rw [List.foldl_cons, ih]
      by_cases worker : conf.coreBitmap.getLsbD first = true
      · rw [if_pos worker, BitVec.getLsbD_or, Bool.or_eq_true, getLsbD_intShift]
        simp only [List.exists_mem_cons_iff, worker, true_and, or_assoc]
      · rw [if_neg worker]
        simp only [List.exists_mem_cons_iff, worker, Bool.false_eq_true, false_and, false_or]

/-- The bitmap of the nodes tells on which of them workers run. -/
theorem numaBitmap_and_intShift (conf : DpdkConf) (cpu : CpuInfo) (node : Nat)
    : intShift node &&& numaBitmap conf cpu ≠ 0#32 ↔ worksOn conf cpu node = true := by
  have bit : (numaBitmap conf cpu).getLsbD (node % 32) = true ↔ worksOn conf cpu node = true := by
    rw [numaBitmap, getLsbD_foldl_intShift, BitVec.getLsbD_zero, worksOn, List.any_eq_true]
    simp only [Bool.false_eq_true, false_or, Bool.and_eq_true, decide_eq_true_eq]
  rw [← bit]
  constructor
  · intro some
    by_contra clear
    apply some
    apply BitVec.eq_of_getLsbD_eq
    intro i _
    rw [BitVec.getLsbD_and, BitVec.getLsbD_zero, Bool.and_eq_false_imp]
    intro here
    rw [getLsbD_intShift] at here
    rw [here]
    exact Bool.eq_false_of_not_eq_true clear
  · intro set zero
    have both : (intShift node &&& numaBitmap conf cpu).getLsbD (node % 32) = true := by
      rw [BitVec.getLsbD_and, set, Bool.and_true, getLsbD_intShift]
    rw [zero, BitVec.getLsbD_zero] at both
    exact Bool.false_ne_true both

theorem nodeMemory_length (conf : DpdkConf) (cpu : CpuInfo) (node : Nat)
    : (nodeMemory conf (numaBitmap conf cpu) node).length
      = if worksOn conf cpu node then workerWidth conf else 1 := by
  by_cases worker : worksOn conf cpu node = true
  · rw [nodeMemory, if_pos ((numaBitmap_and_intShift conf cpu node).mpr worker), if_pos worker,
      workerWidth]
    split <;> rfl
  · rw [nodeMemory, if_neg (mt (numaBitmap_and_intShift conf cpu node).mp worker), if_neg worker]
    split <;> rfl

theorem nodeMemory_ne_nil (conf : DpdkConf) (numa : BitVec 32) (node : Nat)
    : nodeMemory conf numa node ≠ [] := by
  rw [nodeMemory]
  split <;> split <;> decide

theorem zero_not_mem_nodeMemory (conf : DpdkConf) (numa : BitVec 32) (node : Nat)
    : '\x00' ∉ nodeMemory conf numa node := by
  rw [nodeMemory]
  split <;> split <;> decide

/-- What the body of the loop adds to the list. -/
theorem nodeList_succ (conf : DpdkConf) (numa : BitVec 32) (nodes : Nat)
    : nodeList conf numa (nodes + 1)
      = nodeList conf numa nodes ++ ((if 1 ≤ nodes then [','] else []) ++ nodeMemory conf numa nodes)
    := by
  rw [nodeList, List.range_succ, List.map_append, List.map_singleton]
  cases nodes with
  | zero => simp [nodeList]
  | succ nodes =>
      have some : (List.range (nodes + 1)).map (nodeMemory conf numa) ≠ [] := by simp
      rw [intercalate_append_singleton _ some, if_pos (by omega), nodeList]

theorem zero_not_mem_nodeList (conf : DpdkConf) (numa : BitVec 32) (nodes : Nat)
    : '\x00' ∉ nodeList conf numa nodes := by
  induction nodes with
  | zero => exact List.not_mem_nil
  | succ nodes ih =>
      rw [nodeList_succ, List.mem_append, List.mem_append]
      intro member
      rcases member with before | comma | entry
      · exact ih before
      · split at comma
        · exact absurd comma (by decide)
        · exact List.not_mem_nil comma
      · exact zero_not_mem_nodeMemory conf numa nodes entry

/-- The list has all entries and the commas between them. -/
theorem nodeList_length (conf : DpdkConf) (cpu : CpuInfo) (nodes : Nat)
    : (nodeList conf (numaBitmap conf cpu) nodes).length
      = workerWidth conf * (List.range nodes).countP (worksOn conf cpu)
        + (nodes - (List.range nodes).countP (worksOn conf cpu)) + (nodes - 1) := by
  induction nodes with
  | zero => simp [nodeList]
  | succ nodes ih =>
      have few : (List.range nodes).countP (worksOn conf cpu) ≤ nodes :=
        List.countP_le_length.trans_eq List.length_range
      rw [nodeList_succ, List.length_append, List.length_append, ih, nodeMemory_length,
        List.range_succ, List.countP_append, List.countP_singleton]
      have comma : (if 1 ≤ nodes then [','] else ([] : List Char)).length
          = nodes + 1 - 1 - (nodes - 1) := by
        split
        · rw [List.length_singleton]
          omega
        · rw [List.length_nil]
          omega
      rw [comma]
      by_cases worker : worksOn conf cpu nodes = true
      · rw [if_pos worker, if_pos worker, Nat.mul_add, Nat.mul_one]
        omega
      · rw [if_neg worker, if_neg worker]
        simp only [Nat.add_zero]
        omega

/-- The loop so far: what has been printed is at the beginning of `buf` and ends there, and each
call had room left.
-/
structure SocketMem.Printed (state : SocketMem) (text : List Char) : Prop where
  len_eq : state.len = text.length
  buf_length : state.buf.length = 32
  begins : text <+: state.buf
  ended : text ≠ [] → cString state.buf = text
  positive : ∀ size ∈ state.sizes, 0 < size

/-- One call of `snprintf` with room for its text and the zero byte. -/
theorem SocketMem.Printed.print {state : SocketMem} {text piece : List Char}
    (printed : state.Printed text) (plain : '\x00' ∉ text ++ piece)
    (fits : text.length + piece.length ≤ 31)
    : ∃ after, state.print piece = some after ∧ after.Printed (text ++ piece) := by
  have length := printed.buf_length
  have some : (32 : Int) - state.len ≠ 0 := by
    rw [printed.len_eq]
    omega
  have size : ((32 - state.len : Int) % 2 ^ 64).toNat = state.buf.length - text.length := by
    rw [printed.len_eq, length]
    omega
  obtain ⟨buf, done, same, string⟩ := snprintf_behind piece printed.begins (by omega)
  refine ⟨⟨buf, state.len + piece.length, state.sizes ++ [32 - (state.len : Int)]⟩, ?_, ?_⟩
  · rw [SocketMem.print]
    simp only [if_neg some]
    rw [size, printed.len_eq, done]
    rfl
  · constructor
    case len_eq => rw [List.length_append, printed.len_eq]
    case buf_length => rw [same, length]
    case begins => exact (List.prefix_append _ _).trans string
    case ended => exact fun _ => cString_of_prefix plain string
    case positive =>
        intro earlier member
        rw [List.mem_append, List.mem_singleton] at member
        rcases member with before | rfl
        · exact printed.positive earlier before
        · rw [printed.len_eq]
          omega

/-- The body of the loop adds the comma and the entry. -/
theorem socketMemStep_printed {conf : DpdkConf} {numa : BitVec 32} {state : SocketMem} {node : Nat}
    (printed : state.Printed (nodeList conf numa node))
    (fits : (nodeList conf numa (node + 1)).length ≤ 31)
    : ∃ after, socketMemStep conf numa state node = some after
        ∧ after.Printed (nodeList conf numa (node + 1)) := by
  have plain := zero_not_mem_nodeList conf numa (node + 1)
  rw [nodeList_succ] at fits plain ⊢
  rw [← List.append_assoc] at plain ⊢
  rw [List.length_append, List.length_append] at fits
  by_cases first : 1 ≤ node
  · rw [if_pos first] at fits plain ⊢
    have comma : '\x00' ∉ nodeList conf numa node ++ [','] :=
      fun member => plain (List.mem_append_left _ member)
    obtain ⟨middle, done, after⟩ := printed.print comma (by omega)
    obtain ⟨last, finished, whole⟩ := after.print plain (by rw [List.length_append]; omega)
    refine ⟨last, ?_, whole⟩
    rw [socketMemStep, if_pos first, done]
    exact finished
  · rw [if_neg first, List.append_nil] at plain ⊢
    rw [if_neg first, List.length_nil] at fits
    obtain ⟨last, finished, whole⟩ := printed.print plain (by omega)
    refine ⟨last, ?_, whole⟩
    rw [socketMemStep, if_neg first]
    exact finished

/-- The whole loop, by induction on the number of nodes. -/
theorem socketMem_printed {conf : DpdkConf} {numa : BitVec 32} {buf : List Char}
    (length : buf.length = 32) (nodes : Nat) (fits : (nodeList conf numa nodes).length ≤ 31)
    : ∃ memory, (List.range nodes).foldlM (socketMemStep conf numa) ⟨buf, 0, []⟩ = some memory
        ∧ memory.Printed (nodeList conf numa nodes) := by
  induction nodes with
  | zero =>
      refine ⟨⟨buf, 0, []⟩, rfl, ?_⟩
      exact ⟨rfl, length, List.nil_prefix, absurd rfl, by simp⟩
  | succ nodes ih =>
      have before : (nodeList conf numa nodes).length ≤ 31 := by
        rw [nodeList_succ, List.length_append] at fits
        omega
      obtain ⟨memory, done, printed⟩ := ih before
      obtain ⟨after, step, whole⟩ := socketMemStep_printed printed fits
      refine ⟨after, ?_, whole⟩
      rw [List.range_succ, List.foldlM_append, done]
      simpa using step

/-- `buf` keeps its length and a zero byte. -/
def SocketMem.Terminated (state : SocketMem) : Prop :=
  state.buf.length = 32 ∧ '\x00' ∈ state.buf

theorem SocketMem.Terminated.print {state after : SocketMem} {piece : List Char}
    (terminated : state.Terminated) (printed : state.print piece = some after)
    : after.Terminated := by
  simp only [SocketMem.print] at printed
  split at printed
  · cases printed
    exact terminated
  · obtain ⟨buf, done, last⟩ := Option.bind_eq_some_iff.mp printed
    cases last
    exact ⟨(store_length done).trans terminated.1, zero_mem_of_snprintf done⟩

theorem socketMem_terminated {conf : DpdkConf} {numa : BitVec 32} (nodes : List Nat)
    {state after : SocketMem} (terminated : state.Terminated)
    (run : nodes.foldlM (socketMemStep conf numa) state = some after)
    : after.Terminated := by
  induction nodes generalizing state with
  | nil =>
      cases run
      exact terminated
  | cons node nodes ih =>
      rw [List.foldlM_cons] at run
      obtain ⟨next, step, rest⟩ := Option.bind_eq_some_iff.mp run
      apply ih _ rest
      rw [socketMemStep] at step
      split at step
      · obtain ⟨middle, comma, entry⟩ := Option.bind_eq_some_iff.mp step
        exact (terminated.print comma).print entry
      · exact terminated.print step

/-- Without room, or without a node, the loop does not leave the list. -/
theorem SocketMemConditions.of_exact {conf : DpdkConf} {cpu : CpuInfo}
    (holds : SocketMemExact conf cpu)
    : SocketMemConditions conf cpu := by
  have room : (List.replicate 32 ' ').length = 32 := List.length_replicate
  obtain ⟨buf, printed, length, mask⟩ := printNumber_mask room (coreMask conf)
  obtain ⟨memory, run, _, list⟩ := holds _ buf room printed
  have terminated : SocketMem.Terminated ⟨buf, 0, []⟩ := by
    refine ⟨length, ?_⟩
    rw [printNumber] at printed
    split at printed
    · next done =>
        cases printed
        exact zero_mem_of_snprintf done
    · cases printed
  constructor
  · by_contra none
    have none : cpu.numnodes = 0 := by omega
    rw [socketMem, none] at run
    cases run
    rw [none, mask] at list
    exact hexText_ne_nil false _ (by decide) list
  · have after := socketMem_terminated _ terminated run
    have short := cString_length_lt after.2
    rw [list, nodeList_length, after.1] at short
    omega

/-- The list for `--socket-mem` fits, is written inside `buf` and is complete if and only if
there is a node and the entries and commas take at most 31 characters.
-/
theorem socketMemExact_iff (conf : DpdkConf) (cpu : CpuInfo)
    : SocketMemExact conf cpu ↔ SocketMemConditions conf cpu := by
  constructor
  · exact SocketMemConditions.of_exact
  · intro conditions before buf length mask
    obtain ⟨node, fits⟩ := conditions
    obtain ⟨other, printed, same, _⟩ := printNumber_mask length (coreMask conf)
    cases mask.symm.trans printed
    rw [← nodeList_length] at fits
    obtain ⟨memory, run, list⟩ := socketMem_printed same cpu.numnodes fits
    have some : nodeList conf (numaBitmap conf cpu) cpu.numnodes ≠ [] := by
      obtain ⟨nodes, more⟩ := Nat.exists_eq_add_of_le' node
      rw [more, nodeList_succ]
      intro nil
      exact nodeMemory_ne_nil _ _ _ (List.append_eq_nil_iff.mp (List.append_eq_nil_iff.mp nil).2).2
    exact ⟨memory, run, list.positive, list.ended some⟩

/-- Eight workers, one on each of eight nodes, that use jumbo frames. -/
def jumboWorkers : DpdkConf :=
  { oneWorker 0 with coreBitmap := 0x1fe, useJumbo := true }

/-- A machine with eight nodes, where CPU `i` is on node `i` modulo 8. -/
def eightNodes : CpuInfo := ⟨8, 0x1ff, fun i => i % 8⟩

/-- The list for eight nodes with jumbo frames takes 39 characters. -/
theorem socketMem_overruns : ¬ SocketMemExact jumboWorkers eightNodes := by
  intro holds
  have conditions := SocketMemConditions.of_exact holds
  exact absurd conditions.2 (by decide)

end VirtioForwarder
