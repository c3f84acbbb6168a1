import VirtioForwarder.Control.RoundTrip
import VirtioForwarder.Inputs.PciAddress
import VirtioForwarder.Ovsdb.Rows
import VirtioForwarder.Sockets.Pairing

/-! What `process_external_ids` does with a row: VFs are added to and removed from the relays
that have their numbers. The rows of a session are processed one after another.
-/

namespace VirtioForwarder

open Program

/-- A step that failed. The monitor only logs it. -/
inductive MonitorFailure
  | lookup (name : List Char)
  | add (name : List Char)
  | remove (name : List Char)
  deriving DecidableEq, Repr

/-- The VF of a netdev is added to its relay unless it is there. -/
def addNetdev (settings : Settings) (name : List Char) (vfinfo : SriovInfo)
    : SockProg (List MonitorFailure) := do
  let err ← onRelay vfinfo.vf (addVf2 settings vfinfo.dbdf vfinfo.vf true)
  return if err = 0 then [] else [.add name]

/-- The VF of a netdev is removed from its relay unless there is none. -/
def removeNetdev (settings : Settings) (name : List Char) (vfinfo : SriovInfo)
    : SockProg (List MonitorFailure) := do
  let err ← onRelay vfinfo.vf (removeVf2 settings vfinfo.dbdf vfinfo.vf true)
  return if err = 0 then [] else [.remove name]

/-- A new row removes the VF that its old row had enabled. -/
def removeOld (settings : Settings) (name : List Char) (virtioIdChange : Int) (vfinfo : SriovInfo)
    : SockProg (List MonitorFailure) :=
  if virtioIdChange ≠ -1 then removeNetdev settings name vfinfo else return []

/-- A new row adds the VF that it enables. -/
def addNew (settings : Settings) (name : List Char) (enabled : Bool) (vfinfo : SriovInfo)
    : SockProg (List MonitorFailure) :=
  if enabled then addNetdev settings name vfinfo else return []

/-- The branch of `process_external_ids` for a new row; `virtio_id_change` is -1 after it. -/
def processNew (settings : Settings) (call : RowCall) (virtioIdChange : Int) (vfinfo : SriovInfo)
    : SockProg (Int × List MonitorFailure) := do
  let removed ← removeOld settings call.name virtioIdChange vfinfo
  let added ← addNew settings call.name call.portConfig.virtioEnabled vfinfo
  return (-1, removed ++ added)

/-- `process_external_ids`, given what is read from `ethtool` for a netdev. The value is
`virtio_id_change`, an `int` that takes over the id of an old row, with the steps that failed.
-/
@[irreducible] def processExternalIds (settings : Settings) (ethtool : List Char → EthtoolRead)
    (call : RowCall) (virtioIdChange : Int)
    : SockProg (Int × List MonitorFailure) :=
  let enabled := call.portConfig.virtioEnabled
  if enabled ∧ (call.action = RowAction.insert.token ∨ call.action = RowAction.initial.token) then
    match getVfPcieFromNetdev (ethtool call.name) with
    | some vfinfo => do return (virtioIdChange, ← addNetdev settings call.name vfinfo)
    | none => return (virtioIdChange, [.lookup call.name])
  else if enabled ∧ call.action = RowAction.delete.token then
    match getVfPcieFromNetdev (ethtool call.name) with
    | some vfinfo => do return (virtioIdChange, ← removeNetdev settings call.name vfinfo)
    | none => return (virtioIdChange, [.lookup call.name])
  else if call.action = RowAction.old.token then
    return (if enabled then call.portConfig.virtioId.bmod (2 ^ 32) else -1, [])
  else if call.action = RowAction.new.token then
    match getVfPcieFromNetdev (ethtool call.name) with
    | some vfinfo => processNew settings call virtioIdChange vfinfo
    | none => return (virtioIdChange, [.lookup call.name])
  else return (virtioIdChange, [])

/-- The calls of a session one after another; the value are the steps that failed. -/
def processCalls (settings : Settings) (ethtool : List Char → EthtoolRead)
    : List RowCall → Int → SockProg (List MonitorFailure)
  | [], _ => return []
  | call :: calls, virtioIdChange => do
      let (virtioIdChange, failures) ← processExternalIds settings ethtool call virtioIdChange
      return failures ++ (← processCalls settings ethtool calls virtioIdChange)

/-- `parse_ovsdb_client`. -/
def parseOvsdbClient (settings : Settings) (ethtool : List Char → EthtoolRead)
    (stack : Nat → List Char) (pipe : Pipe) (buf : List Char) (buffers : RowBuffers)
    : SockProg (List MonitorFailure) :=
  processCalls settings ethtool (clientCalls stack pipe buf buffers) (-1)

-----------------------------------------------------------------------------------------
-- Devices
-----------------------------------------------------------------------------------------

/-- The devices that are attached, by the numbers of their relays. -/
def Daemon.devices (daemon : Daemon) (id : Nat) : Option (List Char) :=
  if (daemon.world.relays id).Active then some (daemon.world.relays id).dpdk.pciDbdf else none

theorem Relay.Tended.device {before after : Relay} (tended : before.Tended after)
    : (if after.Active then some after.dpdk.pciDbdf else none)
      = if before.Active then some before.dpdk.pciDbdf else none := by
  by_cases active : before.Active
  · rw [if_pos active, if_pos (tending_active tended active), tended.pciDbdf]
  · rw [if_neg active, if_neg (tending_inactive tended active)]

theorem Daemon.Tended.devices {before after : Daemon} (tended : before.Tended after)
    : after.devices = before.devices :=
  funext fun id => (tended.relays id).device

section Devices

variable {settings : Settings} {admits : SockInstr → Int → Daemon → Prop} {daemon : Daemon}
  {devices : Nat → Option (List Char)}

/-- What is known of the relays between two rows. -/
structure Daemon.Holds (daemon : Daemon) (devices : Nat → Option (List Char)) : Prop where
  tidy : daemon.world.Tidy
  devices : daemon.devices = devices

/-- A control program on one relay changes the device there only. -/
theorem wp_onRelay_device {α : Type} {id : Nat} {p : Control α}
    (post : α → Option (List Char) → Prop) (held : daemon.Holds devices)
    (here : wp (accesses id) (soloContract (fun _ _ _ => True) fun _ => True) p
      (fun a s => (s.relays id).Tidy
        ∧ post a (if (s.relays id).Active then some (s.relays id).dpdk.pciDbdf else none))
      daemon.world)
    : wp sockAccesses (sockContract admits) (onRelay id p)
        (fun a d => ∃ device, post a device ∧ d.Holds (Function.update devices id device))
        daemon := by
  refine (wp_onRelay here).mono fun a d outcome => ?_
  obtain ⟨⟨tidy, outcome⟩, _, others⟩ := outcome
  refine ⟨_, outcome, fun i => ?_, funext fun i => ?_⟩
  · rcases eq_or_ne i id with rfl | away
    · exact tidy
    · exact tending_tidy (others i away) (held.tidy i)
  · rcases eq_or_ne i id with rfl | away
    · rw [Function.update_self]
      rfl
    · rw [Function.update_of_ne away, ← held.devices]
      exact (others i away).device

/-- The device is attached unless the step failed. -/
theorem addNetdev_holds {name : List Char} {vfinfo : SriovInfo} (short : vfinfo.dbdf.length ≤ 19)
    (held : daemon.Holds devices)
    : wp sockAccesses (sockContract admits) (addNetdev settings name vfinfo)
        (fun failures d => ∃ device, (failures = [] → device = some vfinfo.dbdf)
          ∧ d.Holds (Function.update devices vfinfo.vf device)) daemon := by
  have here : wp (accesses vfinfo.vf) (soloContract (fun _ _ _ => True) fun _ => True)
      (addVf2 settings vfinfo.dbdf vfinfo.vf true)
      (fun err s => (s.relays vfinfo.vf).Tidy
        ∧ (err = 0 → (if (s.relays vfinfo.vf).Active then some (s.relays vfinfo.vf).dpdk.pciDbdf
          else none) = some vfinfo.dbdf)) daemon.world := by
    refine (addVf2_tidy (held.tidy vfinfo.vf)).mono fun err s outcome => ⟨outcome.1, fun ok => ?_⟩
    obtain ⟨active, stored⟩ := outcome.2 ok
    rw [if_pos active, stored, storedDbdf, List.take_of_length_le short]
  refine wp.bind ((wp_onRelay_device (fun err device =>
    err = 0 → device = some vfinfo.dbdf) held here).mono fun err d outcome => ?_)
  obtain ⟨device, attached, held⟩ := outcome
  refine ⟨device, fun none => attached ?_, held⟩
  by_contra failed
  rw [if_neg failed] at none
  cases none

/-- The device is gone unless the step failed. -/
theorem removeNetdev_holds {name : List Char} {vfinfo : SriovInfo} (held : daemon.Holds devices)
    : wp sockAccesses (sockContract admits) (removeNetdev settings name vfinfo)
        (fun failures d => ∃ device, (failures = [] → device = none)
          ∧ d.Holds (Function.update devices vfinfo.vf device)) daemon := by
  have here : wp (accesses vfinfo.vf) (soloContract (fun _ _ _ => True) fun _ => True)
      (removeVf2 settings vfinfo.dbdf vfinfo.vf true)
      (fun err s => (s.relays vfinfo.vf).Tidy
        ∧ (err = 0 → (if (s.relays vfinfo.vf).Active then some (s.relays vfinfo.vf).dpdk.pciDbdf
          else none) = none)) daemon.world := by
    refine (removeVf2_gone (held.tidy vfinfo.vf)).mono fun err s outcome =>
      ⟨outcome.1, fun ok => ?_⟩
    rw [if_neg (outcome.2 ok).2]
  refine wp.bind ((wp_onRelay_device (fun err device => err = 0 → device = none) held
    here).mono fun err d outcome => ?_)
  obtain ⟨device, gone, held⟩ := outcome
  refine ⟨device, fun none => gone ?_, held⟩
  by_contra failed
  rw [if_neg failed] at none
  cases none

/-- What a new row does without a failure: a VF is attached if it is enabled, and else it is
removed if `virtio_id_change` says so.
-/
theorem processNew_holds {call : RowCall} {virtioIdChange : Int} {vfinfo : SriovInfo}
    (short : vfinfo.dbdf.length ≤ 19) (held : daemon.Holds devices)
    : wp sockAccesses (sockContract admits) (processNew settings call virtioIdChange vfinfo)
        (fun result d => result.1 = -1
          ∧ ∃ device,
              (result.2 = []
                → device
                  = if call.portConfig.virtioEnabled then some vfinfo.dbdf
                    else if virtioIdChange ≠ -1 then none
                    else devices vfinfo.vf)
              ∧ d.Holds (Function.update devices vfinfo.vf device)) daemon := by
  unfold processNew
  have removal : wp sockAccesses (sockContract admits)
      (removeOld settings call.name virtioIdChange vfinfo)
      (fun removed d => ∃ device,
        (removed = [] → device = if virtioIdChange ≠ -1 then none else devices vfinfo.vf)
        ∧ d.Holds (Function.update devices vfinfo.vf device)) daemon := by
    unfold removeOld
    split
    · exact removeNetdev_holds held
    · refine ⟨devices vfinfo.vf, fun _ => rfl, ?_⟩
      rwa [Function.update_eq_self]
  refine wp.bind (removal.mono fun removed d outcome => ?_)
  obtain ⟨middle, gone, held⟩ := outcome
  unfold addNew
  split
  · refine wp.bind ((addNetdev_holds short held).mono fun added d outcome => ?_)
    obtain ⟨device, attached, held⟩ := outcome
    rw [Function.update_idem] at held
    exact ⟨rfl, device, fun none => attached (List.append_eq_nil_iff.mp none).2, held⟩
  · exact ⟨rfl, middle, fun none => gone (List.append_eq_nil_iff.mp none).1, held⟩

end Devices

end VirtioForwarder
