import Mathlib.Tactic.Common

/-! The ZeroMQ server of `zmq_server.c` with the sizes of its four services. The socket drops
messages above `ZMQ_MAXMSGSIZE`; the loop asserts that what it receives fits its buffer.
-/

namespace VirtioForwarder

/-- The sizes in `struct zmq_service`. -/
structure ZmqService where
  maxRequestCb : UInt16
  maxResponseCb : UInt16
  deriving DecidableEq, Repr

/-- `MAX_NUM_BOND_SLAVES`. -/
def maxNumBondSlaves : Nat := 8

/-- `config_setup`. -/
def configSetup : ZmqService := ⟨512, 4096⟩

/-- `stats_setup`; `responseSize` is `sizeof(struct stats_response_buffer)`, which depends on
the generated types of the messages.
-/
def statsSetup (responseSize : Nat) : ZmqService := ⟨512, .ofNat responseSize⟩

/-- `port_control_setup`. -/
def portControlSetup : ZmqService := ⟨.ofNat (256 + maxNumBondSlaves * 16), 256⟩

/-- `core_sched_setup`. -/
def coreSchedSetup : ZmqService := ⟨1024, 256⟩

/-- The services of the daemon. -/
inductive Service
  | config
  | stats
  | portControl
  | coreSched
  deriving DecidableEq, Repr

/-- The sizes that the service is set up with. -/
def Service.setup (responseSize : Nat) : Service → ZmqService
  | .config => configSetup
  | .stats => statsSetup responseSize
  | .portControl => portControlSetup
  | .coreSched => coreSchedSetup

/-- `ZMQ_MAXMSGSIZE` as chosen by `init_zmq`. -/
def ZmqService.maxmsgsize (service : ZmqService) : Int :=
  if (service.maxRequestCb.toNat : Int) < service.maxResponseCb.toNat then
    service.maxResponseCb.toNat
  else service.maxRequestCb.toNat

/-- What one iteration of the loop meets: the quit pipe, the poll, or a message with whether
its response can be sent.
-/
inductive ServerEvent
  | quitError
  | quit
  | pollInterrupted
  | pollError
  | noMessage
  | recvInterrupted
  | recvError
  | message (bytes : List UInt8) (sent : Bool)
  deriving DecidableEq, Repr

/-- How the loop ends. -/
inductive LoopExit
  | quit
  | error
  | assertion
  deriving DecidableEq, Repr

/-- `zmq_recv` fills the buffer as far as it goes and returns the size of the whole message. -/
def zmqRecv (bytes : List UInt8) (len : Nat) : List UInt8 × Int :=
  (bytes.take len, bytes.length)

/-- One iteration of `zmq_thread_loop`; `none` goes on with the next. -/
def zmqThreadStep (service : ZmqService) : ServerEvent → Option LoopExit
  | .quitError => some .error
  | .quit => some .quit
  | .pollInterrupted | .noMessage | .recvInterrupted => none
  | .pollError | .recvError => some .error
  | .message bytes sent =>
      let cbRequest := (zmqRecv bytes service.maxRequestCb.toNat).2
      if ¬ (0 ≤ cbRequest ∧ cbRequest ≤ service.maxRequestCb.toNat) then some .assertion
      else if sent then none
      else some .error

/-- `zmq_thread_loop` after the socket is set up; `none` is a loop that still runs. -/
def zmqThreadLoop (service : ZmqService) : List ServerEvent → Option LoopExit
  | [] => none
  | event :: events =>
      match zmqThreadStep service event with
      | none => zmqThreadLoop service events
      | some exit => some exit

/-- Messages above `ZMQ_MAXMSGSIZE` do not reach the loop. -/
def ServerEvent.delivered (service : ZmqService) : ServerEvent → Bool
  | .message bytes _ => (bytes.length : Int) ≤ service.maxmsgsize
  | _ => true

/-- What reaches the loop. -/
def delivered (service : ZmqService) (events : List ServerEvent) : List ServerEvent :=
  events.filter (·.delivered service)

/-- After every history that leaves the loop running, the message does not abort the daemon. -/
def ZmqService.Survives (service : ZmqService) (bytes : List UInt8) : Prop :=
  ∀ before sent,
    zmqThreadLoop service (delivered service before) = none
    → zmqThreadLoop service (delivered service (before ++ [.message bytes sent]))
      ≠ some .assertion

theorem zmqThreadLoop_append {service : ZmqService} {before : List ServerEvent}
    (running : zmqThreadLoop service before = none) (after : List ServerEvent)
    : zmqThreadLoop service (before ++ after) = zmqThreadLoop service after := by
  induction before with
  | nil => rfl
  | cons event before ih =>
      simp only [zmqThreadLoop] at running
      simp only [List.cons_append, zmqThreadLoop]
      cases step : zmqThreadStep service event with
      | none =>
          rw [step] at running
          exact ih running
      | some exit =>
          rw [step] at running
          cases running

theorem zmqThreadStep_assertion {service : ZmqService} {event : ServerEvent}
    : zmqThreadStep service event = some .assertion
      ↔ ∃ bytes sent, event = .message bytes sent
        ∧ service.maxRequestCb.toNat < bytes.length := by
  cases event with
  | message bytes sent =>
      have size : (zmqRecv bytes service.maxRequestCb.toNat).2 = bytes.length := rfl
      simp only [zmqThreadStep, ServerEvent.message.injEq]
      split
      · rename_i tooLong
        exact ⟨fun _ => ⟨bytes, sent, ⟨rfl, rfl⟩, by omega⟩, fun _ => rfl⟩
      · constructor
        · cases sent <;> exact nofun
        · rintro ⟨_, _, ⟨rfl, rfl⟩, long⟩
          omega
  | _ => simp [zmqThreadStep]

/-- The loop is only aborted by a message that is too long for the buffer. -/
theorem zmqThreadLoop_assertion {service : ZmqService} {events : List ServerEvent}
    (aborted : zmqThreadLoop service events = some .assertion)
    : ∃ bytes sent, .message bytes sent ∈ events
        ∧ service.maxRequestCb.toNat < bytes.length := by
  induction events with
  | nil => cases aborted
  | cons event events ih =>
      simp only [zmqThreadLoop] at aborted
      cases step : zmqThreadStep service event with
      | none =>
          rw [step] at aborted
          obtain ⟨bytes, sent, member, long⟩ := ih aborted
          exact ⟨bytes, sent, List.mem_cons_of_mem _ member, long⟩
      | some exit =>
          rw [step] at aborted
          cases Option.some.inj aborted
          obtain ⟨bytes, sent, rfl, long⟩ := zmqThreadStep_assertion.mp step
          exact ⟨bytes, sent, List.mem_cons_self, long⟩

theorem ServerEvent.delivered_message {service : ZmqService} {bytes : List UInt8} {sent : Bool}
    : ServerEvent.delivered service (.message bytes sent) = true
      ↔ bytes.length ≤ service.maxRequestCb.toNat
        ∨ bytes.length ≤ service.maxResponseCb.toNat := by
  rw [ServerEvent.delivered, decide_eq_true_eq, ZmqService.maxmsgsize]
  split <;> omega

/-- A service whose responses are no larger than its requests is never aborted, whatever
arrives.
-/
theorem ZmqService.never_aborts {service : ZmqService}
    (small : service.maxResponseCb.toNat ≤ service.maxRequestCb.toNat)
    (events : List ServerEvent)
    : zmqThreadLoop service (delivered service events) ≠ some .assertion := by
  intro aborted
  obtain ⟨bytes, sent, member, long⟩ := zmqThreadLoop_assertion aborted
  have arrived := (List.mem_filter.mp member).2
  have fits := ServerEvent.delivered_message.mp arrived
  omega

/-- A message aborts the daemon exactly if it is above the size of a request but not above
the size of a response.
-/
theorem ZmqService.survives_iff (service : ZmqService) (bytes : List UInt8)
    : service.Survives bytes
      ↔ ¬ (service.maxRequestCb.toNat < bytes.length
          ∧ bytes.length ≤ service.maxResponseCb.toNat) := by
  constructor
  · rintro survives ⟨long, short⟩
    have arrives : delivered service [.message bytes true] = [.message bytes true] :=
      List.filter_cons_of_pos (ServerEvent.delivered_message.mpr (Or.inr short))
    apply survives [] true rfl
    rw [List.nil_append, arrives, zmqThreadLoop,
      zmqThreadStep_assertion.mpr ⟨bytes, true, rfl, long⟩]
  · intro fits before sent running aborted
    have split : delivered service (before ++ [.message bytes sent])
        = delivered service before ++ delivered service [.message bytes sent] :=
      List.filter_append ..
    rw [split, zmqThreadLoop_append running] at aborted
    obtain ⟨_, _, member, long⟩ := zmqThreadLoop_assertion aborted
    obtain ⟨here, arrived⟩ := List.mem_filter.mp member
    cases List.mem_singleton.mp here
    rcases ServerEvent.delivered_message.mp arrived with short | short
    · omega
    · exact fits ⟨long, short⟩

/-- The lengths of messages that are delivered but do not fit the buffer of the service. -/
def Service.Overlong (responseSize length : Nat) : Service → Prop
  | .config => 512 < length ∧ length ≤ 4096
  | .stats => 512 < length ∧ length ≤ responseSize % 65536
  | .portControl | .coreSched => False

/-- A message to one of the services never aborts the daemon, unless it is too long for the
buffer of the configuration or the statistics service and not too long for their responses.
-/
theorem message_survives_iff (responseSize : Nat) (service : Service) (bytes : List UInt8)
    : (service.setup responseSize).Survives bytes ↔ ¬ service.Overlong responseSize bytes.length := by
  rw [ZmqService.survives_iff]
  cases service with
  | config => exact Iff.rfl
  | stats => exact Iff.rfl
  | portControl =>
      have request : portControlSetup.maxRequestCb.toNat = 384 := rfl
      have response : portControlSetup.maxResponseCb.toNat = 256 := rfl
      simp only [Service.setup, Service.Overlong, not_false_eq_true, iff_true]
      omega
  | coreSched =>
      have request : coreSchedSetup.maxRequestCb.toNat = 1024 := rfl
      have response : coreSchedSetup.maxResponseCb.toNat = 256 := rfl
      simp only [Service.setup, Service.Overlong, not_false_eq_true, iff_true]
      omega

/-- A message of 513 bytes to the configuration service aborts the daemon. -/
theorem config_message_aborts_daemon
    : ¬ ∀ (responseSize : Nat) (service : Service) (bytes : List UInt8),
        (service.setup responseSize).Survives bytes := by
  intro claim
  refine claim 0 .config (List.replicate 513 0) [] true rfl ?_
  decide +kernel

end VirtioForwarder
