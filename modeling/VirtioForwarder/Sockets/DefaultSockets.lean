import VirtioForwarder.Sockets.Pairing
import VirtioForwarder.Sockets.SocketNames

/-! The start of the vhost-user part of the daemon, which registers a socket for every relay unless
sockets are only made on request.
-/

namespace VirtioForwarder

open Program CText

/-- The relays below a number have the sockets with their names. -/
def namedBelow (names : Nat → List Char) (count : Nat) (id : Nat) : Option (List Char) :=
  if id < count then some (names id) else none

/-- The loop of `virtio_vhostuser_start` that registers the sockets. -/
def registerDefaultSockets (conf : SocketConf) (names : Nat → List Char) : Nat → SockProg Int
  | 0 => return 0
  | count + 1 => do
      let err ← registerDefaultSockets conf names count
      if err ≠ 0 then return err
      registerRelaySocket conf (names count) count

/-- The name of a default socket, which `virtio_vhostuser_id_to_name` prints whole
(`PartsOf.idToName`).
-/
def defaultName (parts : SocketNameParts) (id : Nat) : List Char :=
  nameAround parts (decimalText id)

/-- `virtio_vhostuser_start` after the workers have been started; with `mk_default_sockets` there are
the two parts of the names.
-/
def virtioVhostuserStart (settings : Settings) (conf : SocketConf) : Option SocketNameParts
    → SockProg Int
  | some parts => registerDefaultSockets conf (defaultName parts) settings.maxRelays
  | none => return 0

/-- The sockets of the relays after a start. -/
def startSockets (settings : Settings) : Option SocketNameParts → Nat → Option (List Char)
  | some parts => namedBelow (defaultName parts) settings.maxRelays
  | none => fun _ => none

theorem update_namedBelow (names : Nat → List Char) (count : Nat)
    : Function.update (namedBelow names count) count (some (names count))
      = namedBelow names (count + 1) := by
  funext id
  rcases eq_or_ne id count with rfl | away
  · rw [Function.update_self, namedBelow, if_pos (Nat.lt_succ_self id)]
  · have same : id < count + 1 ↔ id < count := by omega
    rw [Function.update_of_ne away, namedBelow, namedBelow, if_congr same rfl rfl]

section Start

variable {settings : Settings} {conf : SocketConf} {admits : SockInstr → Int → Daemon → Prop}
  {daemon : Daemon} {V : World → Prop}

/-- The sockets that are registered when the loop has not failed, by induction on the relays. -/
theorem registerDefaultSockets_registers (tending : TendingWorld V) (names : Nat → List Char)
    (count : Nat) (h : daemon.relayIfnameMap = (fun _ => none) ∧ V daemon.world)
    : wp sockAccesses (sockContract admits) (registerDefaultSockets conf names count)
        (fun err d => V d.world ∧ (err = 0 → d.relayIfnameMap = namedBelow names count))
        daemon := by
  induction count with
  | zero => exact ⟨h.2, fun _ => h.1⟩
  | succ count ih =>
      refine wp.bind (ih.mono fun err d outcome => ?_)
      obtain ⟨held, named⟩ := outcome
      split
      · rename_i failed
        exact ⟨held, fun ok => absurd ok failed⟩
      · rename_i ok
        have free : namedBelow names count count = none := if_neg (Nat.lt_irrefl count)
        refine (registerRelaySocket_registers tending ⟨named (not_not.mp ok), held⟩ free).mono
          fun err d outcome => ⟨outcome.1, fun ok => ?_⟩
        rcases outcome.2 with ⟨_, map⟩ | ⟨failed, _⟩
        · rw [map, update_namedBelow]
        · exact absurd ok failed

/-- A start that returns 0 leaves these sockets. -/
theorem virtioVhostuserStart_registers (tending : TendingWorld V) (parts : Option SocketNameParts)
    (h : daemon.relayIfnameMap = (fun _ => none) ∧ V daemon.world)
    : wp sockAccesses (sockContract admits) (virtioVhostuserStart settings conf parts)
        (fun err d => V d.world ∧ (err = 0 → d.relayIfnameMap = startSockets settings parts))
        daemon := by
  cases parts with
  | none => exact ⟨h.2, fun _ => h.1⟩
  | some parts => exact registerDefaultSockets_registers tending _ _ h

end Start

end VirtioForwarder
