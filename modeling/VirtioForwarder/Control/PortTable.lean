import VirtioForwarder.Control.Detach

/-! Which ports a device that is added attaches, beside what happens to its relay. The ports and
the bonds of DPDK are a record of the driver calls and their answers.
-/

namespace VirtioForwarder

open Program

/-- The ports of DPDK: those that are attached, the bonds by name, and the slaves of the bonds.
A device is astray if no port was found for it or if its port could not be added to its bond.
-/
structure Ports where
  attached : Nat → Bool
  bonds : List Char → Option Nat
  members : Nat → List Nat
  stray : Bool

/-- The ports, and whether a step of the operation has failed that makes it give up. -/
structure PortRecord where
  ports : Ports
  failed : Bool

def Ports.attach (ports : Ports) (port : Nat) : Ports :=
  { ports with attached := Function.update ports.attached port true }

def Ports.detach (ports : Ports) (port : Nat) : Ports :=
  { ports with attached := Function.update ports.attached port false }

/-- A bond is created, without slaves. -/
def Ports.createBond (ports : Ports) (name : List Char) (port : Nat) : Ports :=
  { ports.attach port with
    bonds := Function.update ports.bonds name (some port)
    members := Function.update ports.members port [] }

/-- A bond is freed. -/
def Ports.freeBond (ports : Ports) (name : List Char) : Ports :=
  match ports.bonds name with
  | some port => { ports.detach port with bonds := Function.update ports.bonds name none }
  | none => ports

/-- The slaves of a bond change. -/
def Ports.setMembers (ports : Ports) (bond : Nat) (slaves : List Nat) : Ports :=
  { ports with members := Function.update ports.members bond slaves }

/-- What a call and its answer do to the ports. -/
def DriverCall.portsAfter (settings : Settings) (call : DriverCall) (answer : Int)
    (ports : Ports)
    : Ports :=
  match call with
  | .nextMatchingDev _ =>
      if 0 ≤ answer ∧ answer < settings.maxRelays then ports.attach answer.toNat
      else { ports with stray := true }
  | .bondCreate name _ => if 0 ≤ answer then ports.createBond name answer.toNat else ports
  | .devRemove port => if answer = 0 then ports.detach port else ports
  | .bondFree name => if answer = 0 then ports.freeBond name else ports
  | .bondSlaveAdd bond slave =>
      if answer = 0 then ports.setMembers bond (ports.members bond ++ [slave])
      else { ports with stray := true }
  | .bondSlaveRemove bond slave =>
      if answer = 0 then ports.setMembers bond ((ports.members bond).erase slave) else ports
  | _ => ports

/-- The answers after which an addition gives up: what was set up is torn down. -/
def DriverCall.givesUp : DriverCall → Int → Bool
  | .devProbe _, answer | .devInfoGet _, answer | .devConfigure _, answer
  | .devSetMtu _, answer | .txQueueSetup _ _, answer | .rxQueueSetup _ _ _, answer
  | .devStart _, answer => answer ≠ 0
  | .poolCreate _ size, answer => size = numPktmbufPool - 1 ∧ answer = 0
  | _, _ => false

/-- The record of an access. -/
def recordPorts (settings : Settings) (i : Instr) (answer : Int) (_ : World)
    (record : PortRecord)
    : PortRecord :=
  match i with
  | .call request =>
      ⟨request.portsAfter settings answer record.ports,
        record.failed || request.givesUp answer⟩
  | _ => record

/-- What DPDK answers. New bonds have ports that were not attached; only attached ports have
device information; the slaves of a bond are those that were added to it. The calls that tear
down succeed, among them the question for device information once a step has failed.
-/
def DriverCall.Assumed (settings : Settings) (record : PortRecord) : DriverCall → Int → Prop
  | .devStop port, answer | .devClose port, answer | .devRemove port, answer =>
      record.ports.attached port = true → answer = 0
  | .bondFree name, answer => (record.ports.bonds name).isSome = true → answer = 0
  | .bondSlaveRemove _ _, answer => answer = 0
  | .bondSlavesGet port, answer =>
      record.ports.attached port = true → answer = (record.ports.members port).length
  | .bondSlave port index, answer =>
      ∀ slave ∈ (record.ports.members port)[index]?, answer = slave
  | .devInfoGet port, answer =>
      (answer = 0 → record.ports.attached port = true ∧ port < settings.maxRelays)
      ∧ (record.ports.attached port = true → port < settings.maxRelays → record.failed = true
          → answer = 0)
  | .bondCreate _ _, answer =>
      0 ≤ answer → answer < settings.maxRelays ∧ record.ports.attached answer.toNat = false
  | _, _ => True

/-- The answers of an access; a wait does not give up. -/
def Instr.Assumed (settings : Settings) (record : PortRecord) : Instr → Int → Prop
  | .call request, answer => request.Assumed settings record answer
  | .logTimeout, _ => False
  | _, _ => True

/-- The port that is found for a device is new, and what happens to be in an entry of the array
of slave ports that was not assigned is not an attached port.
-/
def Instr.Prudent (settings : Settings) (record : PortRecord) : Instr → Int → Prop
  | .call (.nextMatchingDev _), answer =>
      0 ≤ answer → answer < settings.maxRelays → record.ports.attached answer.toNat = false
  | .call .uninitializedPort, answer => record.ports.attached answer.toNat = false
  | _, _ => True

-----------------------------------------------------------------------------------------
-- Rules
-----------------------------------------------------------------------------------------

/-- How the accesses of a control operation run, with the record. -/
abbrev portAccesses (settings : Settings) (id : Nat)
    : Machine Instr Int World (World × PortRecord) :=
  (accesses id).recorded (recordPorts settings)

/-- The contract of a control operation beside the workers, which do not touch the record. -/
abbrev portContract (settings : Settings) : Contract Instr Int Abort (World × PortRecord) :=
  (soloContract (fun _ _ _ => True) fun _ => True).recorded fun i answer s =>
    i.Assumed settings s.2 answer ∧ i.Prudent settings s.2 answer

section Rules

variable {settings : Settings} {id : Nat} {α β : Type} {P : Relay → Prop} {Q : PortRecord → Prop}
  {state : World × PortRecord}

/-- What is proved without the record holds with it. -/
theorem wp_without_ports {p : Control α} {post : α → World → Prop}
    (h : wp (accesses id) (soloContract (fun _ _ _ => True) fun _ => True) p post state.1)
    : wp (portAccesses settings id) (portContract settings) p (fun a s => post a s.1) state :=
  h.recorded fun _ _ _ _ => trivial

theorem ports_stable (tending : Tending P) (Q : PortRecord → Prop)
    : (portContract settings).Stable fun s => P (s.1.relays id) ∧ Q s.2 :=
  fun _ _ later _ held => ⟨tending (later.1 id) held.1, later.2 ▸ held.2⟩

theorem tending_true : Tending fun _ => True := fun _ _ _ held => held

/-- Go on after a read of the relay. -/
theorem wp_ports_see_bind {field : Field} {next : Relay → Control β}
    {post : β → World × PortRecord → Prop} (tending : Tending P)
    (h : P (state.1.relays id) ∧ Q state.2)
    (rest : ∀ s, P (s.1.relays id) ∧ Q s.2
      → wp (portAccesses settings id) (portContract settings) (next (s.1.relays id)) post s)
    : wp (portAccesses settings id) (portContract settings) (look id field >>= next) post state :=
  wp.bind (wp.perform (ports_stable tending Q) h fun s _ _ held _ =>
    ⟨trivial, trivial, rest s held⟩)

/-- A driver call changes the record. -/
theorem wp_ports_drive {call : DriverCall} (R : Int → PortRecord → Prop) (tending : Tending P)
    (h : P (state.1.relays id) ∧ Q state.2)
    (step : ∀ answer record, Q record → call.Assumed settings record answer
      → (Instr.call call).Prudent settings record answer
      → R answer ⟨call.portsAfter settings answer record.ports,
          record.failed || call.givesUp answer⟩)
    : wp (portAccesses settings id) (portContract settings) (drive call)
        (fun answer s => P (s.1.relays id) ∧ R answer s.2) state := by
  refine wp.perform (ports_stable tending Q) h fun s answer _ held admitted =>
    ⟨trivial, trivial, ?_, step answer s.2 held.2 admitted.1 admitted.2⟩
  change P ((call.apply answer s.1).relays id)
  rw [DriverCall.relays_apply]
  exact held.1

theorem wp_ports_drive_bind {call : DriverCall} {next : Int → Control β}
    {post : β → World × PortRecord → Prop} (R : Int → PortRecord → Prop) (tending : Tending P)
    (h : P (state.1.relays id) ∧ Q state.2)
    (step : ∀ answer record, Q record → call.Assumed settings record answer
      → (Instr.call call).Prudent settings record answer
      → R answer ⟨call.portsAfter settings answer record.ports,
          record.failed || call.givesUp answer⟩)
    (rest : ∀ answer s, P (s.1.relays id) ∧ R answer s.2
      → wp (portAccesses settings id) (portContract settings) (next answer) post s)
    : wp (portAccesses settings id) (portContract settings) (drive call >>= next) post state :=
  wp.bind ((wp_ports_drive R tending h step).mono rest)

end Rules

/-- The ports are known, and if `failed` holds a step has failed. -/
def PortRecord.At (ports : Ports) (failed : Prop) (record : PortRecord) : Prop :=
  record.ports = ports ∧ (failed → record.failed = true)

/-- Calls that leave the ports alone. -/
def DriverCall.Portless : DriverCall → Prop
  | .nextMatchingDev _ | .bondCreate _ _ | .devRemove _ | .bondFree _ | .bondSlaveAdd _ _
  | .bondSlaveRemove _ _ => False
  | _ => True

/-- Accesses that leave the ports alone. -/
def Instr.Portless : Instr → Prop
  | .call request => request.Portless
  | _ => True

theorem DriverCall.Portless.portsAfter {call : DriverCall} (portless : call.Portless)
    (settings : Settings) (answer : Int) (ports : Ports)
    : call.portsAfter settings answer ports = ports := by
  cases call with
  | nextMatchingDev | bondCreate | devRemove | bondFree | bondSlaveAdd | bondSlaveRemove =>
      exact portless.elim
  | _ => rfl

theorem PortRecord.At.call {ports : Ports} {failed : Prop} {record : PortRecord}
    (h : record.At ports failed) (settings : Settings) {call : DriverCall}
    (portless : call.Portless) (answer : Int)
    : PortRecord.At ports (failed ∨ call.givesUp answer = true)
        ⟨call.portsAfter settings answer record.ports, record.failed || call.givesUp answer⟩ := by
  refine ⟨?_, ?_⟩
  · rw [portless.portsAfter]
    exact h.1
  · rintro (before | now)
    · simp [h.2 before]
    · simp [now]

theorem PortRecord.At.tried {ports : Ports} {failed : Prop} {record : PortRecord}
    {settings : Settings} (h : record.At ports failed) (call : DriverCall)
    (portless : call.Portless) (status : ∀ answer, call.givesUp answer = decide (answer ≠ 0))
    (answer : Int)
    : PortRecord.At ports (failed ∨ answer ≠ 0)
        ⟨call.portsAfter settings answer record.ports, record.failed || call.givesUp answer⟩ := by
  have called := h.call settings portless answer
  rwa [status, decide_eq_true_eq, ← status] at called

theorem PortRecord.At.weaken {ports : Ports} {failed failed' : Prop} {record : PortRecord}
    (h : record.At ports failed) (weaker : failed' → failed)
    : record.At ports failed' :=
  ⟨h.1, fun later => h.2 (weaker later)⟩

section Keeping

variable {settings : Settings} {id : Nat} {α β : Type} {P : Relay → Prop}
  {state : World × PortRecord} {ports : Ports} {failed : Prop}

/-- A driver call from known ports, with what its answer is known to be. -/
theorem wp_ports_call {call : DriverCall} (R : Int → Prop) (tending : Tending P)
    (h : P (state.1.relays id) ∧ state.2.At ports failed)
    (answers : ∀ answer record, record.At ports failed → call.Assumed settings record answer
      → (Instr.call call).Prudent settings record answer → R answer)
    : wp (portAccesses settings id) (portContract settings) (drive call)
        (fun answer s => P (s.1.relays id)
          ∧ s.2.At (call.portsAfter settings answer ports) failed ∧ R answer) state := by
  refine wp_ports_drive (fun answer record =>
    record.At (call.portsAfter settings answer ports) failed ∧ R answer) tending h ?_
  intro answer record here assumed prudent
  refine ⟨⟨?_, fun given => ?_⟩, answers answer record here assumed prudent⟩
  · rw [here.1]
  · simp [here.2 given]

theorem wp_ports_call_bind {call : DriverCall} {next : Int → Control β}
    {post : β → World × PortRecord → Prop} (R : Int → Prop) (tending : Tending P)
    (h : P (state.1.relays id) ∧ state.2.At ports failed)
    (answers : ∀ answer record, record.At ports failed → call.Assumed settings record answer
      → (Instr.call call).Prudent settings record answer → R answer)
    (rest : ∀ answer s, P (s.1.relays id)
        ∧ s.2.At (call.portsAfter settings answer ports) failed ∧ R answer
      → wp (portAccesses settings id) (portContract settings) (next answer) post s)
    : wp (portAccesses settings id) (portContract settings) (drive call >>= next) post state :=
  wp.bind ((wp_ports_call R tending h answers).mono rest)

/-- Accesses that leave the ports alone. -/
theorem wp_portless {p : Control α} (all : p.All Instr.Portless fun _ => True)
    (h : state.2.At ports failed)
    : wp (portAccesses settings id) (portContract settings) p (fun _ s => s.2.At ports failed)
        state := by
  have stable : (portContract settings).Stable fun s => s.2.At ports failed := by
    intro s s' later _ held
    rw [later.2]
    exact held
  refine all.wp (fun _ error => error) stable (fun i portless s answer _ held _ => ?_) h
  refine ⟨trivial, trivial, ?_⟩
  cases i with
  | call request => exact (held.call settings portless answer).weaken Or.inl
  | _ => exact held

/-- Accesses that leave the ports and the device of the relay alone. -/
theorem wp_ports_keep {p : Control α} (tending : Tending P)
    (spares : p.All Instr.SparesDevice fun _ => True)
    (portless : p.All Instr.Portless fun _ => True)
    (h : P (state.1.relays id) ∧ state.2.At ports failed)
    : wp (portAccesses settings id) (portContract settings) p
        (fun _ s => P (s.1.relays id) ∧ s.2.At ports failed) state :=
  (wp_without_ports (wp_tend spares tending h.1)).and (wp_portless portless h.2)

theorem wp_ports_keep_bind {p : Control α} {next : α → Control β}
    {post : β → World × PortRecord → Prop} (tending : Tending P)
    (h : P (state.1.relays id) ∧ state.2.At ports failed)
    (spares : p.All Instr.SparesDevice fun _ => True)
    (portless : p.All Instr.Portless fun _ => True)
    (rest : ∀ a s, P (s.1.relays id) ∧ s.2.At ports failed
      → wp (portAccesses settings id) (portContract settings) (next a) post s)
    : wp (portAccesses settings id) (portContract settings) (p >>= next) post state :=
  wp.bind ((wp_ports_keep tending spares portless h).mono rest)

/-- A call that leaves the ports alone, and that makes the operation give up if it fails. -/
theorem wp_ports_ask_bind {call : DriverCall} {next : Int → Control β}
    {post : β → World × PortRecord → Prop} (tending : Tending P)
    (h : P (state.1.relays id) ∧ state.2.At ports failed) (portless : call.Portless)
    (rest : ∀ answer s, P (s.1.relays id)
        ∧ s.2.At ports (failed ∨ call.givesUp answer = true)
      → wp (portAccesses settings id) (portContract settings) (next answer) post s)
    : wp (portAccesses settings id) (portContract settings) (drive call >>= next) post state :=
  wp_ports_drive_bind
    (fun answer record => record.At ports (failed ∨ call.givesUp answer = true)) tending h
    (fun answer _ held _ _ => held.call settings portless answer) rest

/-- A call that leaves the ports alone, with the two ways to go on. -/
theorem wp_ports_try_bind {call : DriverCall} {next : Int → Control β}
    {post : β → World × PortRecord → Prop} (tending : Tending P)
    (h : P (state.1.relays id) ∧ state.2.At ports failed) (portless : call.Portless)
    (givesUp : ∀ answer, answer ≠ 0 → call.givesUp answer = true)
    (refused : ∀ answer s, answer ≠ 0 → P (s.1.relays id) ∧ s.2.At ports True
      → wp (portAccesses settings id) (portContract settings) (next answer) post s)
    (accepted : ∀ s, P (s.1.relays id) ∧ s.2.At ports failed
      → wp (portAccesses settings id) (portContract settings) (next 0) post s)
    : wp (portAccesses settings id) (portContract settings) (drive call >>= next) post state := by
  refine wp_ports_ask_bind tending h portless ?_
  rintro answer s ⟨held, known⟩
  by_cases zero : answer = 0
  · subst zero
    exact accepted s ⟨held, known.weaken Or.inl⟩
  · exact refused answer s zero ⟨held, known.weaken fun _ => Or.inr (givesUp answer zero)⟩

/-- A call that leaves the ports alone, with what its answer is known to be. -/
theorem wp_ports_told_bind {call : DriverCall} {next : Int → Control β}
    {post : β → World × PortRecord → Prop} (R : Int → Prop) (tending : Tending P)
    (h : P (state.1.relays id) ∧ state.2.At ports failed) (portless : call.Portless)
    (answers : ∀ answer record, record.At ports failed → call.Assumed settings record answer
      → (Instr.call call).Prudent settings record answer → R answer)
    (rest : ∀ answer s, P (s.1.relays id) ∧ s.2.At ports failed ∧ R answer
      → wp (portAccesses settings id) (portContract settings) (next answer) post s)
    : wp (portAccesses settings id) (portContract settings) (drive call >>= next) post state := by
  refine wp_ports_call_bind R tending h answers fun answer s held => ?_
  rw [portless.portsAfter] at held
  exact rest answer s held

/-- A call that leaves the ports alone and succeeds. -/
theorem wp_ports_sure_bind {call : DriverCall} {next : Int → Control β}
    {post : β → World × PortRecord → Prop} (tending : Tending P)
    (h : P (state.1.relays id) ∧ state.2.At ports failed) (portless : call.Portless)
    (sure : ∀ answer record, record.At ports failed → call.Assumed settings record answer
      → answer = 0)
    (rest : ∀ s, P (s.1.relays id) ∧ s.2.At ports failed
      → wp (portAccesses settings id) (portContract settings) (next 0) post s)
    : wp (portAccesses settings id) (portContract settings) (drive call >>= next) post state := by
  refine wp_ports_told_bind (fun answer => answer = 0) tending h portless
    (fun answer record held assumed _ => sure answer record held assumed) ?_
  rintro answer s ⟨held, known, rfl⟩
  exact rest s ⟨held, known⟩

end Keeping

-----------------------------------------------------------------------------------------
-- Tearing down
-----------------------------------------------------------------------------------------

theorem Ports.detach_of_not_attached {ports : Ports} {port : Nat}
    (absent : ports.attached port = false)
    : ports.detach port = ports := by
  have same : Function.update ports.attached port false = ports.attached :=
    Function.update_eq_self_iff.mpr absent.symm
  rw [Ports.detach, same]

/-- The ports after a port was cleaned up. -/
def Ports.without (settings : Settings) (ports : Ports) (port : Nat) : Ports :=
  if port < settings.maxRelays then ports.detach port else ports

section Cleanup

variable {settings : Settings} {id : Nat} {P : Relay → Prop} {state : World × PortRecord}
  {ports : Ports}

theorem stopCloseRemoveDev_detaches {port : Nat} {failed : Prop} (tending : Tending P)
    (attached : ports.attached port = true)
    (h : P (state.1.relays id) ∧ state.2.At ports failed)
    : wp (portAccesses settings id) (portContract settings) (stopCloseRemoveDev port)
        (fun err s => (P (s.1.relays id) ∧ s.2.At (ports.detach port) failed) ∧ err = 0)
        state := by
  refine wp_ports_sure_bind tending h trivial (fun _ _ held sure => sure (held.1 ▸ attached)) ?_
  intro s held
  rw [if_neg (not_not.mpr rfl)]
  refine wp_ports_sure_bind tending held trivial (fun _ _ held sure => sure (held.1 ▸ attached)) ?_
  intro s held
  rw [if_neg (not_not.mpr rfl)]
  refine wp.mono (wp_ports_call (fun answer => answer = 0) tending held
    fun _ _ held sure _ => sure (held.1 ▸ attached)) ?_
  rintro answer s ⟨held, here, rfl⟩
  exact ⟨⟨held, here⟩, rfl⟩

/-- `cleanup_eth_dev` detaches a port, and does nothing if the port is not attached. -/
theorem cleanupEthDev_detaches (port : Nat) (tending : Tending P)
    (h : P (state.1.relays id) ∧ state.2.At ports True)
    : wp (portAccesses settings id) (portContract settings) (cleanupEthDev port)
        (fun err s => (P (s.1.relays id) ∧ s.2.At (ports.without settings port) True)
          ∧ (ports.attached port = true → port < settings.maxRelays → err = 0)) state := by
  refine wp_ports_told_bind (fun answer =>
      (answer = 0 → ports.attached port = true ∧ port < settings.maxRelays)
      ∧ (ports.attached port = true → port < settings.maxRelays → answer = 0))
    tending h trivial ?_ ?_
  · rintro answer record ⟨rfl, failed⟩ ⟨known, told⟩ _
    exact ⟨known, fun attached below => told attached below (failed trivial)⟩
  · rintro err s ⟨held, here, known, told⟩
    split
    · rename_i refused
      refine ⟨⟨held, ?_⟩, told⟩
      by_cases below : port < settings.maxRelays
      · have absent : ports.attached port = false := by
          cases attached : ports.attached port with
          | false => rfl
          | true => exact absurd (told attached below) refused
        rwa [Ports.without, if_pos below, Ports.detach_of_not_attached absent]
      · rwa [Ports.without, if_neg below]
    · rename_i found
      obtain ⟨attached, below⟩ := known (not_not.mp found)
      rw [Ports.without, if_pos below]
      exact (stopCloseRemoveDev_detaches tending attached ⟨held, here⟩).mono
        fun _ _ outcome => ⟨outcome.1, fun _ _ => outcome.2⟩

end Cleanup

-----------------------------------------------------------------------------------------
-- Setting up a port
-----------------------------------------------------------------------------------------

section Configuring

variable {settings : Settings} {id : Nat} {P : Relay → Prop} {state : World × PortRecord}
  {ports : Ports} {failed : Prop}

theorem DriverCall.givesUp_of_ne {call : DriverCall}
    (status : ∀ answer, call.givesUp answer = decide (answer ≠ 0)) (answer : Int)
    (refused : answer ≠ 0)
    : call.givesUp answer = true := by
  rw [status]
  exact decide_eq_true refused

theorem configurePort_gives_up {port : Nat} {isBond : Bool} (tending : Tending P)
    (h : P (state.1.relays id) ∧ state.2.At ports failed)
    : wp (portAccesses settings id) (portContract settings) (configurePort port isBond)
        (fun err s => P (s.1.relays id) ∧ s.2.At ports (failed ∨ err ≠ 0)) state := by
  refine wp_ports_try_bind tending h trivial (DriverCall.givesUp_of_ne fun _ => rfl) ?_ ?_
  · intro answer s refused held
    rw [if_pos refused]
    exact ⟨held.1, held.2.weaken fun _ => trivial⟩
  · intro s held
    rw [if_neg (not_not.mpr rfl)]
    refine wp_ports_try_bind tending held trivial (DriverCall.givesUp_of_ne fun _ => rfl) ?_ ?_
    · intro answer s refused held
      rw [if_pos refused]
      exact ⟨held.1, held.2.weaken fun _ => trivial⟩
    · intro s held
      rw [if_neg (not_not.mpr rfl)]
      have done {s : World × PortRecord} (held : P (s.1.relays id) ∧ s.2.At ports failed)
          : P (s.1.relays id) ∧ s.2.At ports (failed ∨ (0 : Int) ≠ 0) :=
        ⟨held.1, held.2.weaken fun either => either.resolve_right (not_not.mpr rfl)⟩
      split
      · exact done held
      · refine wp_ports_try_bind tending held trivial (DriverCall.givesUp_of_ne fun _ => rfl) ?_ ?_
        · intro answer s refused held
          rw [if_pos refused]
          exact ⟨held.1, held.2.weaken fun _ => trivial⟩
        · intro s held
          rw [if_neg (not_not.mpr rfl)]
          exact done held

theorem allocMempool_gives_up (node : Int) (tending : Tending P)
    (h : P (state.1.relays id) ∧ state.2.At ports failed)
    : wp (portAccesses settings id) (portContract settings)
        (allocMempool node (numPktmbufPool - 1))
        (fun pool s => P (s.1.relays id) ∧ s.2.At ports (failed ∨ pool = none)) state := by
  have portless : (DriverCall.poolCreate node (numPktmbufPool - 1)).Portless := trivial
  refine wp.perform (ports_stable tending _) h fun s answer _ held _ =>
    ⟨trivial, trivial, ?_, ?_⟩
  · change P ((DriverCall.apply _ answer s.1).relays id)
    rw [DriverCall.relays_apply]
    exact held.1
  · refine (held.2.call settings portless answer).weaken (Or.imp_right fun none => ?_)
    by_cases zero : answer = 0
    · simp [DriverCall.givesUp, zero]
    · rw [if_pos zero] at none
      cases none

theorem ensureMempool_gives_up (tending : Tending P)
    (h : P (state.1.relays id) ∧ state.2.At ports failed)
    : wp (portAccesses settings id) (portContract settings) (ensureMempool id)
        (fun ok s => P (s.1.relays id) ∧ s.2.At ports (failed ∨ ok = false)) state := by
  have done {s : World × PortRecord} (held : P (s.1.relays id) ∧ s.2.At ports failed)
      : P (s.1.relays id) ∧ s.2.At ports (failed ∨ true = false) :=
    ⟨held.1, held.2.weaken fun either => either.resolve_right nofun⟩
  refine wp_ports_see_bind tending h fun s held => ?_
  split
  · exact done held
  · refine wp_ports_see_bind tending held fun s held => ?_
    refine wp.bind ((allocMempool_gives_up _ tending held).mono fun pool s outcome => ?_)
    cases pool with
    | none => exact ⟨outcome.1, outcome.2.weaken fun _ => Or.inr rfl⟩
    | some pool =>
        have held : P (s.1.relays id) ∧ s.2.At ports failed :=
          ⟨outcome.1, outcome.2.weaken Or.inl⟩
        exact wp_ports_keep_bind tending held (.perform trivial) (.perform trivial)
          fun _ s held => done held

theorem setupTxQueue_gives_up {port : Nat} (tending : Tending P)
    (h : P (state.1.relays id) ∧ state.2.At ports failed)
    : wp (portAccesses settings id) (portContract settings) (setupTxQueue id port)
        (fun err s => P (s.1.relays id) ∧ s.2.At ports (failed ∨ err ≠ 0)) state := by
  refine wp_ports_see_bind tending h fun s held => ?_
  exact wp_ports_drive (fun answer record => record.At ports (failed ∨ answer ≠ 0)) tending held
    fun answer record held _ _ => held.tried (.txQueueSetup port _) trivial (fun _ => rfl) answer

theorem setupRxQueue_gives_up {port : Nat} (tending : Tending P)
    (h : P (state.1.relays id) ∧ state.2.At ports failed)
    : wp (portAccesses settings id) (portContract settings) (setupRxQueue id port)
        (fun err s => P (s.1.relays id) ∧ s.2.At ports (failed ∨ err ≠ 0)) state := by
  refine wp_ports_see_bind tending h fun s held => ?_
  refine wp_ports_see_bind tending held fun s held => ?_
  exact wp_ports_drive (fun answer record => record.At ports (failed ∨ answer ≠ 0)) tending held
    fun answer record held _ _ => held.tried (.rxQueueSetup port _ _) trivial (fun _ => rfl) answer

/-- `dev_queue_configure` leaves the ports alone; it fails only after a step has failed. -/
theorem devQueueConfigure_gives_up {port : Nat} {isBond : Bool} (tending : Tending P)
    (h : P (state.1.relays id) ∧ state.2.At ports failed)
    : wp (portAccesses settings id) (portContract settings) (devQueueConfigure id port isBond)
        (fun err s => P (s.1.relays id) ∧ s.2.At ports (failed ∨ err ≠ 0)) state := by
  have go {s : World × PortRecord} {err : Int}
      (held : P (s.1.relays id) ∧ s.2.At ports (failed ∨ err ≠ 0)) (zero : ¬err ≠ 0)
      : P (s.1.relays id) ∧ s.2.At ports failed :=
    ⟨held.1, held.2.weaken Or.inl⟩
  have stop {s : World × PortRecord} {err : Int} {code : Int}
      (held : P (s.1.relays id) ∧ s.2.At ports (failed ∨ err ≠ 0)) (refused : err ≠ 0)
      : P (s.1.relays id) ∧ s.2.At ports (failed ∨ code ≠ 0) :=
    ⟨held.1, held.2.weaken fun _ => Or.inr refused⟩
  refine wp.bind ((configurePort_gives_up tending h).mono fun err s held => ?_)
  split
  · rename_i refused
    exact stop held refused
  · rename_i zero
    refine wp.bind ((ensureMempool_gives_up tending (go held zero)).mono fun ok s held => ?_)
    split
    · rename_i none
      exact ⟨held.1, held.2.weaken fun _ => Or.inr (by simpa using none)⟩
    · have held : P (s.1.relays id) ∧ s.2.At ports failed := ⟨held.1, held.2.weaken Or.inl⟩
      refine wp_ports_try_bind tending held trivial (DriverCall.givesUp_of_ne fun _ => rfl) ?_ ?_
      · intro answer s refused held
        rw [if_pos refused]
        exact ⟨held.1, held.2.weaken fun _ => trivial⟩
      · intro s held
        rw [if_neg (not_not.mpr rfl)]
        refine wp.bind ((setupTxQueue_gives_up tending held).mono fun err s held => ?_)
        split
        · rename_i refused
          exact stop held refused
        · rename_i zero
          refine wp.bind ((setupRxQueue_gives_up tending (go held zero)).mono fun err s held => ?_)
          split
          · rename_i refused
            exact stop held refused
          · exact ⟨held.1, held.2.weaken fun either => Or.inl (either.resolve_right (not_not.mpr rfl))⟩

end Configuring

end VirtioForwarder
