import VirtioForwarder.Control.Connect.PortThread
import VirtioForwarder.Control.Connect.VhostThread

/-! Whether the port is started when a VF is attached while a guest connects. -/

namespace VirtioForwarder

open Program

/-- The workers change neither the states nor the ports of a relay that is being set up. -/
theorem ConnectInv.of_event {settings : Settings} {event : Event} {w : Nat} {world : World}
    {s : World × List Access} (inv : ConnectInv w s)
    (happened : event.apply settings s.1 = some world)
    : Unnoticed w s (world, s.2) := by
  have served := Event.served happened w
  obtain ⟨_, _, _, started⟩ := Event.drivers happened
  refine ⟨rfl, ⟨?_, ?_, served.dpdkPort⟩, started⟩
  · rcases served.vioState with same | ⟨leaving, _⟩
    · exact same
    · rw [inv.vio] at leaving
      split at leaving <;> simp at leaving
  · rcases served.dpdkState with same | ⟨leaving, _⟩
    · exact same
    · by_cases published : .vfPublishes ∈ s.2
      · rcases inv.published published with state | state <;> simp [state] at leaving
      · simp [inv.unpublished published] at leaving

/-- What a thread has achieved when it returns 0. -/
def ConnectThread.done (w : Nat) (thread : ConnectThread) (value : Int)
    (s : World × List Access) : Prop :=
  match thread with
  | .port => value = 0 → .vfPublishes ∈ s.2
  | .vhost => value = 0 → GuestSettled w s

/-- Both threads and the workers keep to their part. -/
def connectOutline (settings : Settings) (w : Nat)
    : Outline (connectSystem settings) (connecting settings) where
  inv := ConnectInv w
  rely := ConnectThread.rely w
  guar thread := thread.other.rely w
  done thread _ := ConnectThread.done w thread
  fault _ := True
  refl thread s := by
    cases thread with
    | port => exact PortRely.refl w s
    | vhost => exact VhostRely.refl w s
  trans thread _ _ _ hl hr := by
    cases thread with
    | port => exact PortRely.trans hl hr
    | vhost => exact VhostRely.trans hl hr
  stable thread _ value _ _ rely _ done := by
    cases thread with
    | port => exact fun ok => (PortRely.keeps_vf rely (by decide)).mpr (done ok)
    | vhost => exact fun ok => VhostRely.guestSettled rely (done ok)
  others thread thread' h _ _ guaranteed := by
    cases thread <;> cases thread' <;> first | exact absurd rfl h | exact guaranteed
  env event s s' inv happened := by
    obtain ⟨world, applied, rfl⟩ := Option.map_eq_some_iff.mp happened
    have unnoticed := inv.of_event applied
    exact ⟨(inv.of_unnoticed unnoticed .port).1,
      fun thread => (inv.of_unnoticed unnoticed thread).2⟩
  ops _ _ _ _ _ _ noCall _ := noCall.elim

/-- A VF is attached while the guest connects, and both calls have succeeded: the relay is
ready and its port started unless each side has read the state of the other one before that
was published.
-/
theorem connect_started_iff_not_crossed (settings : Settings) {world : World} {w : Nat}
    (dbdf : List Char) (conditional : Bool) (virtionet : Int)
    (fresh : (world.relays w).vio.state = .uninit ∧ (world.relays w).dpdk.state = .uninit)
    {config : Config ConnectThread Op _ _ _ _ (World × List Access) Int}
    (run : Run (connectSystem settings) (connecting settings)
      (connectStart settings world (.addVf2 dbdf w conditional) (.addVirtio virtionet w)) config)
    (vf : (config.running .port).2 = .ret 0) (virtio : (config.running .vhost).2 = .ret 0)
    : config.state.1.Started w ↔ ¬ Crossed config.state.2 := by
  have start : ConnectInv w (world, []) :=
    ⟨fresh.1, fun _ => fresh.2, nofun, by simp [fresh.2], by simp [fresh.2]⟩
  have good := run.good (o := connectOutline settings w) ⟨start, fun thread => by
    cases thread with
    | port => exact addVf2_wp_port ⟨nofun, nofun⟩
    | vhost => exact addVirtio_wp_vhost nofun⟩
  have published : .vfPublishes ∈ config.state.2 :=
    good.returned (t := .port) (Prod.ext rfl vf) rfl
  have settled : GuestSettled w config.state :=
    good.returned (t := .vhost) (Prod.ext rfl virtio) rfl
  have guest : .virtioPublishes ∈ config.state.2 := settled.looked.subset (by simp)
  have inv : ConnectInv w config.state := good.1
  have connected := inv.vio
  rw [if_pos guest] at connected
  -- a published VF is added or ready, and only a ready one is started
  rcases inv.published published with added | ready
  · have crossed : Crossed config.state.2 := ⟨(inv.added added).2 guest, settled.late added⟩
    refine iff_of_false (fun started => ?_) (not_not.mpr crossed)
    cases added.symm.trans started.2.1
  · obtain ⟨_, started, notCrossed⟩ := inv.ready ready
    exact iff_of_true ⟨connected, ready, started⟩ notCrossed

instance (settings : Settings) (op : Op) (answer : Int) (s : World × List Access)
    : (i : Instr) → Decidable ((connecting settings).instr op i answer s)
  | .call call =>
      decidable_of_iff (call.succeeds settings answer = true)
        ⟨fun h _ same => Instr.call.inj same ▸ h, fun h => h call rfl⟩
  | .read _ | .write _ | .flagWorker _ | .logTimeout => .isTrue nofun

instance (settings : Settings) (thread : ConnectThread) (op : Op) (s : World × List Access)
    : Decidable ((connecting settings).call thread op s) :=
  .isFalse id

/-- `add_virtio` up to the write of `vio.state`, for a guest with one queue pair. -/
def guestArrives : List (Choice ConnectThread Op Int Event) :=
  answered .vhost [0, 0, 0, 2, 0, 0, 0, 1, 0, 0, 0, 0, 0, 0]

/-- Both calls have returned 0. -/
def bothReturned (c : Config ConnectThread Op Instr Int World Abort (World × List Access) Int)
    : Bool :=
  (c.running .port).2.value? = some 0 && (c.running .vhost).2.value? = some 0

/-- Witness: the guest connects first, then the VF is attached and started. -/
theorem connect_started_one_after_the_other
    : ∃ config : Config ConnectThread Op _ _ _ _ (World × List Access) Int,
        Run (connectSystem twoWorkers) (connecting twoWorkers)
          (connectStart twoWorkers (World.initial twoWorkers false fun _ => true)
            (.addVf2 [] 0 false) (.addVirtio 7 0)) config
        ∧ (config.running .port).2 = .ret 0
        ∧ (config.running .vhost).2 = .ret 0
        ∧ (config.state.1.Started 0 ↔ ¬ Crossed config.state.2) := by
  obtain ⟨config, run, reached⟩ := Run.of_follow (connectSystem twoWorkers)
    (connecting twoWorkers)
    (connectStart twoWorkers (World.initial twoWorkers false fun _ => true)
      (.addVf2 [] 0 false) (.addVirtio 7 0))
    (guestArrives ++ answered .vhost (List.replicate 4 0) ++ answered .port (List.replicate 27 0))
    bothReturned (by decide +kernel)
  obtain ⟨vf, virtio⟩ := Bool.and_eq_true_iff.mp reached
  have vf := Prog.eq_ret_of_value? (of_decide_eq_true vf)
  have virtio := Prog.eq_ret_of_value? (of_decide_eq_true virtio)
  exact ⟨config, run, vf, virtio,
    connect_started_iff_not_crossed twoWorkers [] false 7 ⟨rfl, rfl⟩ run vf virtio⟩

/-- The VF looks for a guest just before the guest is published, and is published just after
`add_virtio` has looked for a VF: the relay stays with a VF that nobody starts.
-/
theorem connect_not_started_when_crossed
    : ¬ ∀ (settings : Settings) (world : World) (w : Nat) (dbdf : List Char) (conditional : Bool)
        (virtionet : Int) (config : Config ConnectThread Op _ _ _ _ (World × List Access) Int),
        (world.relays w).vio.state = .uninit ∧ (world.relays w).dpdk.state = .uninit
        → Run (connectSystem settings) (connecting settings)
            (connectStart settings world (.addVf2 dbdf w conditional) (.addVirtio virtionet w))
            config
        → (config.running .port).2 = .ret 0
        → (config.running .vhost).2 = .ret 0
        → config.state.1.Started w := by
  intro claim
  obtain ⟨config, run, reached⟩ := Run.of_follow (connectSystem twoWorkers)
    (connecting twoWorkers)
    (connectStart twoWorkers (World.initial twoWorkers false fun _ => true)
      (.addVf2 [] 0 false) (.addVirtio 7 0))
    (guestArrives ++ answered .port (List.replicate 15 0) ++ answered .vhost (List.replicate 4 0)
      ++ answered .port (List.replicate 12 0))
    (fun c => bothReturned c && (c.state.1.relays 0).dpdk.state = .added) (by decide +kernel)
  obtain ⟨returned, added⟩ := Bool.and_eq_true_iff.mp reached
  obtain ⟨vf, virtio⟩ := Bool.and_eq_true_iff.mp returned
  have started := claim twoWorkers _ 0 [] false 7 config ⟨rfl, rfl⟩ run
    (Prog.eq_ret_of_value? (of_decide_eq_true vf))
    (Prog.eq_ret_of_value? (of_decide_eq_true virtio))
  cases (of_decide_eq_true added).symm.trans started.2.1

end VirtioForwarder
