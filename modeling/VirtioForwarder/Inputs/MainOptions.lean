import VirtioForwarder.Inputs.OptionParser
import VirtioForwarder.Inputs.RelayNumbers
import VirtioForwarder.Inputs.WorkerCpus

/-! The options of `virtio_forwarder_main.c`, and `main` up to the point where it becomes a daemon:
the defaults, the callbacks of the options in the order of their table, and the check of the CPUs.
-/

namespace VirtioForwarder

open CText

/-- What the options are judged by: `MAX_RELAYS`, `stat` of a path (whether it is there, and whether
it is a directory), and what `snprintf` makes of a text that it takes for a format.
-/
structure Surroundings where
  maxRelays : Nat
  relaysFit : maxRelays ≤ 64
  statDirectory : List Char → Option Bool
  formatted : List Char → List Char

/-- The part of the settings that is there before the options are read. -/
def Surroundings.limits (env : Surroundings) : Settings where
  maxRelays := env.maxRelays
  relayCpus _ := ⟨-1, -1⟩
  workerCoreBitmap := 0
  numaNode _ := 0
  relaysFit := env.relaysFit

/-- A text in an array of `size` characters, the last of which ends it: `strlcpy`, and `snprintf`
for `%s`.
-/
def stored (size : Nat) (text : List Char) : List Char := text.take (size - 1)

/-- `struct virtio_vhostuser_conf`. -/
structure VhostConf where
  workerCoreBitmap : BitVec 64
  socketPath : List Char
  socketName : List Char
  vhostUsername : List Char
  vhostGroupname : List Char
  relayCpus : Nat → RelayCpus
  staticRelays : List StaticRelayEntry
  useJumbo : Bool
  useRxMrgbuf : Bool
  vhostClient : Bool
  zerocopy : Bool
  enableTso : Bool

/-- The static variables of `virtio_forwarder_main.c`, and the level of the log. -/
structure MainConf where
  pidpath : List Char
  daemonize : Bool
  logSyslog : Bool
  useZmqConfig : Bool
  useZmqPortControl : Bool
  useZmqStats : Bool
  useZmqCoreSched : Bool
  useIpc : Bool
  showVersion : Bool
  createVhostuserSockets : Bool
  ovsdbSockPath : List Char
  zmqConfigEp : List Char
  zmqPortControlEp : List Char
  zmqStatsEp : List Char
  zmqCoreSchedEp : List Char
  logLevel : Int
  dpdkCfg : DpdkConf
  vhostConf : VhostConf

/-- The defaults that `main` sets. -/
def MainConf.initial : MainConf where
  pidpath := "/var/run".toList
  daemonize := true
  logSyslog := true
  useZmqConfig := false
  useZmqPortControl := false
  useZmqStats := false
  useZmqCoreSched := false
  useIpc := false
  showVersion := false
  createVhostuserSockets := true
  ovsdbSockPath := "/usr/local/var/run/openvswitch/db.sock".toList
  zmqConfigEp := "ipc:///var/run/virtio-forwarder/config".toList
  zmqPortControlEp := "ipc:///var/run/virtio-forwarder/port_control".toList
  zmqStatsEp := "ipc:///var/run/virtio-forwarder/stats".toList
  zmqCoreSchedEp := "ipc:///var/run/virtio-forwarder/core_sched".toList
  logLevel := -1
  dpdkCfg := {
    logLevel := 6
    masterLcore := 0
    hugeDir := "/mnt/huge".toList
    vfioVfToken := "14d63f20-8445-11ea-8900-1f9ce7d5650d".toList
    coreBitmap := 0
    useJumbo := false
    enableTso := false
    enableSameNuma := false
    enableVfioVfToken := false
  }
  vhostConf := {
    workerCoreBitmap := 0
    socketPath := "/tmp".toList
    socketName := "virtio-forwarder%u.sock".toList
    vhostUsername := "libvirt-qemu".toList
    vhostGroupname := "kvm".toList
    relayCpus _ := ⟨-1, -1⟩
    staticRelays := []
    useJumbo := false
    useRxMrgbuf := false
    vhostClient := false
    zerocopy := false
    enableTso := false
  }

-----------------------------------------------------------------------------------------
-- The callbacks
-----------------------------------------------------------------------------------------

/-- A callback of the table. -/
abbrev OptionCallback := MainConf → Option (List Char) → Nat → Int × MainConf

/-- A callback whose option needs an argument. Without one it could not go on, but `getopt_long`
never leaves it out.
-/
def withArg (func : MainConf → List Char → Int × MainConf) : OptionCallback
  | conf, some arg, _ => func conf arg
  | conf, none, _ => (-1, conf)

/-- A callback that changes the state and returns 0, with or without an argument. -/
def always (change : MainConf → Option (List Char) → MainConf) : OptionCallback :=
  fun conf arg _ => (0, change conf arg)

/-- `cmdline_set_cpus`. -/
def cmdlineSetCpusOption : OptionCallback :=
  withArg fun conf arg =>
    let (ret, bitmap) := cmdlineSetCpus conf.vhostConf.workerCoreBitmap arg
    (ret, { conf with vhostConf := { conf.vhostConf with workerCoreBitmap := bitmap } })

def cmdlineSetMasterLcore : OptionCallback :=
  withArg fun conf arg =>
    (0, { conf with dpdkCfg := { conf.dpdkCfg with masterLcore := asUnsigned (atoi arg) } })

def cmdlineSetNodaemon : OptionCallback :=
  always fun conf arg =>
    { conf with
      logSyslog := if arg = some "log_syslog".toList then conf.logSyslog else false,
      daemonize := false }

/-- `cmdline_set_loglevel`, with `set_log_level`. -/
def cmdlineSetLoglevel : OptionCallback :=
  withArg fun conf arg =>
    let level := atoi arg
    (0, { conf with
          logLevel := min level 7,
          dpdkCfg := { conf.dpdkCfg with logLevel := asUnsigned level } })

/-- `cmdline_set_pid` and `cmdline_set_huge_dir`: the path of a directory that is there. -/
def setDirectory (env : Surroundings) (assign : MainConf → List Char → MainConf) : OptionCallback :=
  withArg fun conf arg =>
    match env.statDirectory arg with
    | some true => (0, assign conf arg)
    | some false => (1, conf)
    | none => (1, conf)

def cmdlineSetPid (env : Surroundings) : OptionCallback :=
  setDirectory env fun conf arg => { conf with pidpath := stored 100 arg }

def cmdlineSetHugeDir (env : Surroundings) : OptionCallback :=
  setDirectory env fun conf arg =>
    { conf with dpdkCfg := { conf.dpdkCfg with hugeDir := stored 32 arg } }

def cmdlineSetOvsdbPath : OptionCallback :=
  withArg fun conf arg => (0, { conf with ovsdbSockPath := stored 128 arg })

/-- The endpoint of a service, if one is given. -/
def endpoint (current : List Char) (arg : Option (List Char)) : List Char :=
  match arg with
  | some arg => stored 1024 arg
  | none => current

def cmdlineSetZmqConfigEp : OptionCallback :=
  always fun conf arg =>
    { conf with zmqConfigEp := endpoint conf.zmqConfigEp arg, useZmqConfig := true }

def cmdlineSetZmqPortControlEp : OptionCallback :=
  always fun conf arg =>
    { conf with zmqPortControlEp := endpoint conf.zmqPortControlEp arg, useZmqPortControl := true }

def cmdlineSetZmqStatsEp : OptionCallback :=
  always fun conf arg =>
    { conf with zmqStatsEp := endpoint conf.zmqStatsEp arg, useZmqStats := true }

def cmdlineSetZmqCoreSchedEp : OptionCallback :=
  always fun conf arg =>
    { conf with
      zmqCoreSchedEp := endpoint conf.zmqCoreSchedEp arg, useZmqStats := true,
      useZmqCoreSched := true }

def cmdlineSetIpc : OptionCallback :=
  always fun conf _ => { conf with useIpc := true }

/-- The name of a user or a group, or none. -/
def ownerName : Option (List Char) → List Char
  | some arg => stored 32 arg
  | none => []

def cmdlineSetVhostUsername : OptionCallback :=
  always fun conf arg =>
    { conf with vhostConf := { conf.vhostConf with vhostUsername := ownerName arg } }

def cmdlineSetVhostGroupname : OptionCallback :=
  always fun conf arg =>
    { conf with vhostConf := { conf.vhostConf with vhostGroupname := ownerName arg } }

def cmdlineSetVhostPath : OptionCallback :=
  withArg fun conf arg =>
    (0, { conf with vhostConf := { conf.vhostConf with socketPath := stored 128 arg } })

def cmdlineSetVhostSocket : OptionCallback :=
  withArg fun conf arg =>
    (0, { conf with vhostConf := { conf.vhostConf with socketName := stored 32 arg } })

/-- The two stores of `cmdline_set_vf_cpu`. Behind `relay_cpus` there is the first static entry: the
two numbers for relay `MAX_RELAYS` come to stand over the first 8 bytes of its address.
-/
def VhostConf.assign (maxRelays : Nat) (conf : VhostConf) (assignment : CpuAssignment)
    : VhostConf :=
  if assignment.virtio < maxRelays then
    { conf with
      relayCpus := Function.update conf.relayCpus assignment.virtio
        ⟨assignment.vio2vfCpu, assignment.vf2vioCpu⟩ }
  else
    { conf with
      staticRelays := conf.staticRelays.modifyHead fun entry =>
        { entry with pciDbdf := terminatedBytes assignment.vf2vioCpu } }

/-- `cmdline_set_vf_cpus`. -/
def cmdlineSetVfCpusOption (env : Surroundings) : OptionCallback :=
  withArg fun conf arg =>
    let (assignments, result) := cmdlineSetVfCpus env.limits arg
    (if result.isOk then 0 else 1,
      { conf with vhostConf := assignments.foldl (VhostConf.assign env.maxRelays) conf.vhostConf })

def cmdlineEnableJumbo : OptionCallback :=
  always fun conf _ =>
    { conf with
      dpdkCfg := { conf.dpdkCfg with useJumbo := true },
      vhostConf := { conf.vhostConf with useJumbo := true } }

def cmdlineEnableMrgbuf : OptionCallback :=
  always fun conf _ => { conf with vhostConf := { conf.vhostConf with useRxMrgbuf := true } }

/-- `cmdline_add_static_vf`; the device is looked for in sysfs. -/
def cmdlineAddStaticVfOption (env : Surroundings) : OptionCallback :=
  withArg fun conf arg =>
    let deviceExists dbdf :=
      (env.statDirectory (stored 50 ("/sys/bus/pci/devices/".toList ++ dbdf))).isSome
    match cmdlineAddStaticVf env.limits deviceExists conf.vhostConf.staticRelays arg with
    | .ok entries => (0, { conf with vhostConf := { conf.vhostConf with staticRelays := entries } })
    | .error _ => (1, conf)

/-- `cmdline_set_vfio_vf_token`; the token is a format for `snprintf`. -/
def cmdlineSetVfioVfToken (env : Surroundings) : OptionCallback :=
  withArg fun conf arg =>
    let cfg := conf.dpdkCfg
    let cfg :=
      if arg = [] then { cfg with enableVfioVfToken := false }
      else if arg = ['0'] then { cfg with enableVfioVfToken := true }
      else { cfg with enableVfioVfToken := true, vfioVfToken := stored 37 (env.formatted arg) }
    (0, { conf with dpdkCfg := cfg })

def cmdlineEnableVhostclient : OptionCallback :=
  always fun conf _ => { conf with vhostConf := { conf.vhostConf with vhostClient := true } }

def cmdlineEnableZerocopy : OptionCallback :=
  always fun conf _ => { conf with vhostConf := { conf.vhostConf with zerocopy := true } }

def cmdlineEnableTso : OptionCallback :=
  always fun conf _ =>
    { conf with
      dpdkCfg := { conf.dpdkCfg with enableTso := true },
      vhostConf := { conf.vhostConf with enableTso := true } }

def cmdlineEnableDynamicSockets : OptionCallback :=
  always fun conf _ => { conf with createVhostuserSockets := false }

def cmdlineEnableSameNuma : OptionCallback :=
  always fun conf _ => { conf with dpdkCfg := { conf.dpdkCfg with enableSameNuma := true } }

def cmdlineShowVersion : OptionCallback :=
  always fun conf _ => { conf with showVersion := true }

/-- `opts`, for a DPDK in which all of the options are there. -/
def opts (env : Surroundings) : List (CmdlineOpt MainConf) :=
  [⟨"cpus".toList, 'C', 1, cmdlineSetCpusOption, .required⟩,
    ⟨"master-lcore".toList, 'M', 0, cmdlineSetMasterLcore, .required⟩,
    ⟨"nodaemon".toList, 'n', 0, cmdlineSetNodaemon, .optional⟩,
    ⟨"loglevel".toList, 'l', 0, cmdlineSetLoglevel, .required⟩,
    ⟨"pid-path".toList, 'p', 0, cmdlineSetPid env, .required⟩,
    ⟨"huge-dir".toList, 'H', 0, cmdlineSetHugeDir env, .required⟩,
    ⟨"ovsdb-sock".toList, 'O', 0, cmdlineSetOvsdbPath, .required⟩,
    ⟨"zmq-config-ep".toList, 'Y', 0, cmdlineSetZmqConfigEp, .optional⟩,
    ⟨"zmq-port-control-ep".toList, 'Z', 0, cmdlineSetZmqPortControlEp, .optional⟩,
    ⟨"zmq-stats-ep".toList, 'z', 0, cmdlineSetZmqStatsEp, .optional⟩,
    ⟨"zmq-core-sched-ep".toList, 's', 0, cmdlineSetZmqCoreSchedEp, .optional⟩,
    ⟨"ipc".toList, 'I', 0, cmdlineSetIpc, .no⟩,
    ⟨"vhost-username".toList, 'u', 0, cmdlineSetVhostUsername, .optional⟩,
    ⟨"vhost-groupname".toList, 'g', 0, cmdlineSetVhostGroupname, .optional⟩,
    ⟨"vhost-path".toList, 'V', 0, cmdlineSetVhostPath, .required⟩,
    ⟨"vhost-socket".toList, 'S', 0, cmdlineSetVhostSocket, .required⟩,
    ⟨"virtio-cpu".toList, 'c', 0, cmdlineSetVfCpusOption env, .required⟩,
    ⟨"enable-jumbo".toList, 'J', 0, cmdlineEnableJumbo, .no⟩,
    ⟨"enable-mrgbuf".toList, 'R', 0, cmdlineEnableMrgbuf, .no⟩,
    ⟨"add-pci-vf".toList, 'P', 0, cmdlineAddStaticVfOption env, .required⟩,
    ⟨"vfio-vf-token".toList, 't', 0, cmdlineSetVfioVfToken env, .required⟩,
    ⟨"vhostuser-client".toList, 'i', 0, cmdlineEnableVhostclient, .no⟩,
    ⟨"zero-copy".toList, '0', 0, cmdlineEnableZerocopy, .no⟩,
    ⟨"enable-tso".toList, 'T', 0, cmdlineEnableTso, .no⟩,
    ⟨"dynamic-sockets".toList, 'd', 0, cmdlineEnableDynamicSockets, .no⟩,
    ⟨"same-numa".toList, 'a', 0, cmdlineEnableSameNuma, .no⟩,
    ⟨"version".toList, 'v', 2, cmdlineShowVersion, .no⟩]

-----------------------------------------------------------------------------------------
-- `main`
-----------------------------------------------------------------------------------------

/-- The relay's CPUs pass the loop over `relay_cpus`; a relay without the first is not looked at. -/
def VhostConf.cpusListed (conf : VhostConf) (id : Nat) : Bool :=
  (conf.relayCpus id).vf2vioCpu == -1
  || (shiftedOne (conf.relayCpus id).vf2vioCpu &&& conf.workerCoreBitmap != 0#64)
    && (shiftedOne (conf.relayCpus id).vio2vfCpu &&& conf.workerCoreBitmap != 0#64)

/-- `main` before it becomes a daemon: it exits with a code, or it goes on. -/
def startUp (env : Surroundings) (argv : List (List Char)) : Except Nat MainConf :=
  let parsed := cmdlineParser (opts env) .initial argv 0
  let conf := parsed.value
  if parsed.ret ≠ 0 then .error 1
  else if conf.showVersion then .error 0
  else if (List.range env.maxRelays).all conf.vhostConf.cpusListed then
    -- the log gets its default level when it is opened
    .ok { conf with
      logLevel := if conf.logLevel = -1 then 6 else conf.logLevel,
      dpdkCfg := { conf.dpdkCfg with coreBitmap := conf.vhostConf.workerCoreBitmap } }
  else .error 1

end VirtioForwarder
