import VirtioForwarder.Library.CText
import VirtioForwarder.Control.Operations

/-! The options of `virtio_forwarder_main.c` that name relays: `--virtio-cpu` and
`--add-pci-vf`.
-/

namespace VirtioForwarder

open CText

/-- Why an option is refused. -/
inductive OptionError
  | cpuFormat
  | virtioNumber
  | cpuNumber
  | tooManyEntries
  | entryFormat
  | pciDevice
  | virtioId
  deriving DecidableEq, Repr

/-- An assignment to `vhost_conf.relay_cpus[virtio]`. -/
structure CpuAssignment where
  virtio : Nat
  vf2vioCpu : Nat
  vio2vfCpu : Nat
  deriving DecidableEq, Repr

/-- `%u:%u`, and `,%u` after it if there is a comma; a single CPU serves both directions. -/
def scanCpuSpecifier (arg : List Char) : Option CpuAssignment := do
  let (virtio, rest) ← scanUnsigned 32 arg
  let (':' :: rest) := rest | none
  let (cpu1, rest) ← scanUnsigned 32 rest
  if ',' ∈ arg then
    let (',' :: rest) := rest | none
    let (cpu2, _) ← scanUnsigned 32 rest
    return ⟨virtio, cpu1, cpu2⟩
  return ⟨virtio, cpu1, cpu1⟩

/-- `cmdline_set_vf_cpu`, up to the assignment. -/
def cmdlineSetVfCpu (settings : Settings) (arg : List Char) : Except OptionError CpuAssignment :=
  match scanCpuSpecifier arg with
  | none => .error .cpuFormat
  | some assignment =>
      if assignment.virtio > settings.maxRelays then .error .virtioNumber
      else if assignment.vf2vioCpu ≥ 64 ∨ assignment.vio2vfCpu ≥ 64 then .error .cpuNumber
      else .ok assignment

/-- The assignments made for tokens one after another, until one is refused. -/
def setVfCpus (settings : Settings)
    : List (List Char) → List CpuAssignment × Except OptionError Unit
  | [] => ([], .ok ())
  | token :: rest =>
      match cmdlineSetVfCpu settings token with
      | .error error => ([], .error error)
      | .ok assignment =>
          let (assignments, result) := setVfCpus settings rest
          (assignment :: assignments, result)

/-- `cmdline_set_vf_cpus`: the assignments that were made and whether the option is accepted. -/
def cmdlineSetVfCpus (settings : Settings) (arg : List Char)
    : List CpuAssignment × Except OptionError Unit :=
  setVfCpus settings (tokens ';' arg)

/-- `struct static_relay_entry`. -/
structure StaticRelayEntry where
  pciDbdf : List Char
  virtioId : Int
  deriving DecidableEq, Repr

/-- An `int` that `%u` was read into. -/
def asInt32 (value : Nat) : Int :=
  if value < 2 ^ 31 then value else value - 2 ^ 32

/-- The bytes of a number, the least significant one first, up to the first zero. -/
def terminatedBytes (value : Nat) : List Char :=
  ([value % 256, value / 256 % 256, value / 65536 % 256, value / 16777216 % 256].takeWhile
    (· ≠ 0)).map Char.ofNat

/-- `pci_dbdf` as a string: 20 characters fill it, and the string goes on with `virtio_id`. -/
def entryDbdf (word : List Char) (virtio : Nat) : List Char :=
  if word.length < 20 then word else word ++ terminatedBytes virtio

/-- `cmdline_add_static_vf`; `deviceExists` is the test that the device is in sysfs. The value
is the list of entries after the call.
-/
def cmdlineAddStaticVf (settings : Settings) (deviceExists : List Char → Bool)
    (entries : List StaticRelayEntry) (arg : List Char)
    : Except OptionError (List StaticRelayEntry) :=
  if entries.length ≥ settings.maxRelays then .error .tooManyEntries
  else
    match cutAt '=' arg with
    | none => .error .entryFormat
    | some (before, after) =>
        match scanWord 20 before, scanUnsigned 32 after with
        | some (word, _), some (virtio, _) =>
            let entry : StaticRelayEntry := ⟨entryDbdf word virtio, asInt32 virtio⟩
            if !deviceExists entry.pciDbdf then .error .pciDevice
            else if entry.virtioId ≥ settings.maxRelays then .error .virtioId
            else .ok (entries ++ [entry])
        | _, _ => .error .entryFormat

/-- What an entry that is accepted consists of. -/
theorem cmdlineAddStaticVf_accepts {settings : Settings} {deviceExists : List Char → Bool}
    {entries after : List StaticRelayEntry} {arg : List Char}
    (accepted : cmdlineAddStaticVf settings deviceExists entries arg = .ok after)
    : ∃ before rest word tail virtio more,
        entries.length < settings.maxRelays
        ∧ cutAt '=' arg = some (before, rest)
        ∧ scanWord 20 before = some (word, tail)
        ∧ scanUnsigned 32 rest = some (virtio, more)
        ∧ asInt32 virtio < settings.maxRelays
        ∧ after = entries ++ [⟨entryDbdf word virtio, asInt32 virtio⟩] := by
  unfold cmdlineAddStaticVf at accepted
  split at accepted
  · cases accepted
  · rename_i room
    split at accepted
    · cases accepted
    · rename_i before rest cut
      split at accepted
      · rename_i word tail virtio more scanned number
        dsimp only at accepted
        split at accepted
        · cases accepted
        · split at accepted
          · cases accepted
          · rename_i small
            cases accepted
            exact ⟨before, rest, word, tail, virtio, more, not_le.mp room, cut, scanned, number,
              not_le.mp small, rfl⟩
      · cases accepted

end VirtioForwarder
