import VirtioForwarder.Service.ServerThreads

/-! Who owns what in the life of a ZeroMQ server.
The main thread keeps one end of each pipe and both heap blocks, the thread gets the other
ends when it is created; every end is closed by its owner.
-/

namespace VirtioForwarder.ZmqServer

open Program

/-- The ends that the thread closes. -/
def PipeEnd.OfThread (fd : PipeEnd) : Prop := fd = .sendReadyFd ∨ fd = .quitFd

/-- What the thread opens or closes once it has been created. -/
def Resource.OfThread : Resource → Prop
  | .pipe fd => fd.OfThread
  | .context | .socket => True

/-- What holds of the server at all times. Until the main thread gives up, the thread finds
the memory that it uses; a byte in the ready pipe comes from a thread that listens.
-/
structure Inv (s : State) : Prop where
  memory : s.badMemory = true → s.gaveUp = true
  used : s.misused = false
  handle : s.handle = true → s.bound = true
  before
    : s.created = false
      → s.exited = none ∧ s.began = false ∧ s.isOpen .context = false
        ∧ s.isOpen .socket = false ∧ s.pending .readyFd = 0
  ready : 0 < s.pending .readyFd → s.bound = true
  fresh
    : s.created = true → s.began = false
      → s.exited = none ∧ s.isOpen (.pipe .sendReadyFd) = true
        ∧ s.isOpen (.pipe .quitFd) = true ∧ s.isOpen .context = false
        ∧ s.isOpen .socket = false
  kept
    : s.created = true → s.gaveUp = false → s.exited = none
      → s.server = .live ∧ s.released = 0
  context
    : s.created = true
      → s.fields.contextSendReadyFd = some .sendReadyFd ∧ s.fields.contextQuitFd = some .quitFd
  ended : s.exited ≠ none → ∀ resource, resource.OfThread → s.isOpen resource = false

/-- What the thread changes. -/
structure ThreadStep (s s' : State) : Prop where
  created : s.created = true
  sameCreated : s'.created = s.created
  server : s'.server = s.server
  fields : s'.fields = s.fields
  released : s'.released = s.released
  handle : s'.handle = s.handle
  gaveUp : s'.gaveUp = s.gaveUp
  ends : ∀ fd : PipeEnd, ¬ fd.OfThread → s'.isOpen (.pipe fd) = s.isOpen (.pipe fd)
  pending : s.pending .readyFd ≤ s'.pending .readyFd
  closed : s.isOpen (.pipe .sendReadyFd) = false → s'.isOpen (.pipe .sendReadyFd) = false
  bound : s.bound = true → s'.bound = true
  exited : s.exited ≠ none → s'.exited = s.exited

/-- What the main thread changes once the thread is created. -/
structure MainStep (s s' : State) : Prop where
  created : s.created = true → s'.created = true
  resources
    : s.created = true → ∀ resource, resource.OfThread → s'.isOpen resource = s.isOpen resource
  began : s.created = true → s'.began = s.began
  exited : s.created = true → s'.exited = s.exited
  bound : s.created = true → s'.bound = s.bound

/-- What a thread may find changed by the other one. -/
def Rely : Thread → State → State → Prop
  | .main, s, s' => s' = s ∨ ThreadStep s s'
  | .server, s, s' => MainStep s s'

/-- What a thread may change. -/
def Guar : Thread → State → State → Prop
  | .main, s, s' => MainStep s s'
  | .server, s, s' => s' = s ∨ ThreadStep s s'

theorem MainStep.refl (s : State) : MainStep s s :=
  ⟨id, fun _ _ _ => rfl, fun _ => rfl, fun _ => rfl, fun _ => rfl⟩

theorem MainStep.trans {first middle last : State} (hl : MainStep first middle)
    (hr : MainStep middle last)
    : MainStep first last where
  created now := hr.created (hl.created now)
  resources now resource own :=
    (hr.resources (hl.created now) resource own).trans (hl.resources now resource own)
  began now := (hr.began (hl.created now)).trans (hl.began now)
  exited now := (hr.exited (hl.created now)).trans (hl.exited now)
  bound now := (hr.bound (hl.created now)).trans (hl.bound now)

theorem ThreadStep.trans {first middle last : State} (hl : ThreadStep first middle)
    (hr : ThreadStep middle last)
    : ThreadStep first last where
  created := hl.created
  sameCreated := hr.sameCreated.trans hl.sameCreated
  server := hr.server.trans hl.server
  fields := hr.fields.trans hl.fields
  released := hr.released.trans hl.released
  handle := hr.handle.trans hl.handle
  gaveUp := hr.gaveUp.trans hl.gaveUp
  ends fd own := (hr.ends fd own).trans (hl.ends fd own)
  pending := Nat.le_trans hl.pending hr.pending
  closed now := hr.closed (hl.closed now)
  bound now := hr.bound (hl.bound now)
  exited now := (hr.exited (hl.exited now ▸ now)).trans (hl.exited now)

theorem Rely.refl (thread : Thread) (s : State) : Rely thread s s := by
  cases thread with
  | main => exact Or.inl rfl
  | server => exact MainStep.refl s

theorem Rely.trans (thread : Thread) ⦃first middle last : State⦄
    (hl : Rely thread first middle) (hr : Rely thread middle last)
    : Rely thread first last := by
  cases thread with
  | main =>
      rcases hl with rfl | hl
      · exact hr
      · rcases hr with rfl | hr
        · exact Or.inr hl
        · exact Or.inr (hl.trans hr)
  | server => exact MainStep.trans hl hr

/-- The contract of a thread. -/
abbrev contract (thread : Thread) : Contract Instr Answer Stuck State :=
  ⟨Inv, Rely thread, Guar thread, fun i answer s => i.answers s answer = true,
    fun _ => True⟩

/-- How the accesses run. -/
abbrev accesses : Machine Instr Answer View State :=
  ⟨Instr.exec, fun s => ⟨s.fields, s.exited⟩⟩

-----------------------------------------------------------------------------------------
-- The thread
-----------------------------------------------------------------------------------------

/-- The thread runs, and these are open: the context, the socket, and its two ends. -/
structure Running (zmqCtx zmqS sendReady quit : Bool) (s : State) : Prop where
  created : s.created = true
  began : s.began = true
  exited : s.exited = none
  context : s.isOpen .context = zmqCtx
  socket : s.isOpen .socket = zmqS
  sendReady : s.isOpen (.pipe .sendReadyFd) = sendReady
  quit : s.isOpen (.pipe .quitFd) = quit

theorem Running.stable {zmqCtx zmqS sendReady quit : Bool}
    : (contract .server).Stable (Running zmqCtx zmqS sendReady quit) := by
  intro s s' later _ h
  exact {
    created := later.created h.created
    began := (later.began h.created).trans h.began
    exited := (later.exited h.created).trans h.exited
    context := (later.resources h.created .context trivial).trans h.context
    socket := (later.resources h.created .socket trivial).trans h.socket
    sendReady := (later.resources h.created (.pipe .sendReadyFd) (Or.inl rfl)).trans h.sendReady
    quit := (later.resources h.created (.pipe .quitFd) (Or.inr rfl)).trans h.quit }

/-- A step of the running thread keeps the invariant, if it finds its memory, uses what is
open, and puts a byte into the ready pipe only once it listens.
-/
theorem Inv.threadStep {s s' : State} (inv : Inv s) (step : ThreadStep s s')
    (began : s'.began = true)
    (memory : s'.badMemory = true → s.badMemory = true ∨ s.exited = none
      ∧ (s.server ≠ .live ∨ s.released ≠ 0))
    (used : s'.misused = false) (ready : 0 < s'.pending .readyFd → s'.bound = true)
    (ended : s'.exited ≠ none → ∀ resource, resource.OfThread → s'.isOpen resource = false)
    : Inv s' where
  memory bad := by
    rw [step.gaveUp]
    rcases memory bad with before | ⟨running, gone⟩
    · exact inv.memory before
    · by_contra waiting
      obtain ⟨live, unreleased⟩ :=
        inv.kept step.created (Bool.eq_false_iff.mpr waiting) running
      rcases gone with gone | gone
      · exact gone live
      · exact gone unreleased
  used := used
  handle held := step.bound (inv.handle (step.handle ▸ held))
  before early := by
    rw [step.sameCreated, step.created] at early
    cases early
  ready := ready
  fresh _ early := by
    rw [began] at early
    cases early
  kept now waiting running := by
    rw [step.server, step.released]
    refine inv.kept step.created (step.gaveUp ▸ waiting) ?_
    by_contra finished
    exact finished ((step.exited finished).symm.trans running)
  context now := step.fields ▸ inv.context step.created
  ended := ended

section ThreadRules

variable {zmqCtx zmqS sendReady quit : Bool} {s : State} {α β : Type}

/-- The rule for one access of the thread. -/
theorem Running.perform {i : Instr} {value : Answer → View → α} {post : α → State → Prop}
    (h : Running zmqCtx zmqS sendReady quit s)
    (step : ∀ s answer, Inv s → Running zmqCtx zmqS sendReady quit s
      → i.answers s answer = true
      → Inv (i.exec answer s) ∧ ThreadStep s (i.exec answer s)
        ∧ post (value answer ⟨s.fields, s.exited⟩) (i.exec answer s))
    : wp accesses (contract .server) (.perform i value) post s := by
  refine wp.perform Running.stable h fun s answer inv held admitted => ?_
  obtain ⟨inv', moved, after⟩ := step s answer inv held admitted
  exact ⟨inv', Or.inr moved, after⟩

/-- A running thread that changes neither pipes nor memory nor its end. -/
theorem Running.touch (inv : Inv s) (h : Running zmqCtx zmqS sendReady quit s) {s' : State}
    (same : ∃ bad, s' = { s with badMemory := bad })
    (memory : s'.badMemory = true → s.badMemory = true ∨ s.server ≠ .live ∨ s.released ≠ 0)
    : Inv s' ∧ ThreadStep s s' ∧ Running zmqCtx zmqS sendReady quit s' := by
  obtain ⟨bad, rfl⟩ := same
  have step : ThreadStep s { s with badMemory := bad } := by
    constructor <;> first | exact h.created | simp
  refine ⟨inv.threadStep step h.began ?_ inv.used inv.ready inv.ended, step, ?_⟩
  · intro now
    exact (memory now).imp_right fun gone => ⟨h.exited, gone⟩
  · obtain ⟨created, began, exited, context, socket, ready, quit⟩ := h
    exact ⟨created, began, exited, context, socket, ready, quit⟩

theorem Running.useService (inv : Inv s) (h : Running zmqCtx zmqS sendReady quit s)
    : Inv s.touchService ∧ ThreadStep s s.touchService
      ∧ Running zmqCtx zmqS sendReady quit s.touchService := by
  refine h.touch inv ⟨_, rfl⟩ fun bad => ?_
  simp only [State.touchService, Bool.or_eq_true, decide_eq_true_eq] at bad
  exact bad.imp_right Or.inr

theorem Running.useServer (inv : Inv s) (h : Running zmqCtx zmqS sendReady quit s)
    : Inv s.touchServer ∧ ThreadStep s s.touchServer
      ∧ Running zmqCtx zmqS sendReady quit s.touchServer := by
  refine h.touch inv ⟨_, rfl⟩ fun bad => ?_
  simp only [State.touchServer, Bool.or_eq_true, decide_eq_true_eq] at bad
  exact bad.imp_right Or.inl

/-- A running thread that opens or closes one of its resources. -/
theorem Running.setOpen (inv : Inv s) (h : Running zmqCtx zmqS sendReady quit s)
    {resource : Resource} (own : resource.OfThread) (status : Bool)
    (closes : resource = .pipe .sendReadyFd → status = false)
    : Inv (s.setOpen resource status) ∧ ThreadStep s (s.setOpen resource status) := by
  have step : ThreadStep s (s.setOpen resource status) := {
    created := h.created
    sameCreated := rfl
    server := rfl
    fields := rfl
    released := rfl
    handle := rfl
    gaveUp := rfl
    ends := fun fd notOwn => by
      refine s.setOpen_other status ?_
      rintro rfl
      exact notOwn own
    pending := Nat.le_refl _
    closed := fun closed => by
      rcases eq_or_ne resource (.pipe .sendReadyFd) with rfl | other
      · rw [s.setOpen_same]
        exact closes rfl
      · rwa [s.setOpen_other status other.symm]
    bound := id
    exited := fun _ => rfl }
  refine ⟨inv.threadStep step h.began (fun bad => Or.inl bad) inv.used inv.ready ?_, step⟩
  intro finished
  exact absurd h.exited finished

/-- A running thread that writes a byte to a pipe or reads one. -/
theorem Running.setPending (inv : Inv s) (h : Running zmqCtx zmqS sendReady quit s)
    (fd : PipeEnd) (bytes : Nat)
    (readyFd : fd = .readyFd → s.pending .readyFd ≤ bytes ∧ s.bound = true)
    : Inv (s.setPending fd bytes) ∧ ThreadStep s (s.setPending fd bytes)
      ∧ Running zmqCtx zmqS sendReady quit (s.setPending fd bytes) := by
  have step : ThreadStep s (s.setPending fd bytes) := {
    created := h.created
    sameCreated := rfl
    server := rfl
    fields := rfl
    released := rfl
    handle := rfl
    gaveUp := rfl
    ends := fun _ _ => rfl
    pending := by
      rcases eq_or_ne fd .readyFd with rfl | other
      · rw [s.setPending_same]
        exact (readyFd rfl).1
      · exact Nat.le_of_eq (s.setPending_other bytes other.symm).symm
    closed := id
    bound := id
    exited := fun _ => rfl }
  refine ⟨inv.threadStep step h.began (fun bad => Or.inl bad) inv.used ?_ ?_, step, ?_⟩
  · intro some
    rcases eq_or_ne fd .readyFd with rfl | other
    · exact (readyFd rfl).2
    · rw [s.setPending_other bytes other.symm] at some
      exact inv.ready some
  · intro finished
    exact absurd h.exited finished
  · obtain ⟨created, began, exited, context, socket, ready, quit⟩ := h
    exact ⟨created, began, exited, context, socket, ready, quit⟩

theorem wp_useService (h : Running zmqCtx zmqS sendReady quit s)
    : wp accesses (contract .server) (call .useService)
        (fun _ => Running zmqCtx zmqS sendReady quit) s :=
  h.perform fun _ _ inv held _ => held.useService inv

theorem wp_useServer (h : Running zmqCtx zmqS sendReady quit s)
    : wp accesses (contract .server) (call .useServer)
        (fun _ => Running zmqCtx zmqS sendReady quit) s :=
  h.perform fun _ _ inv held _ => held.useServer inv

theorem wp_handleRequest (h : Running zmqCtx zmqS sendReady quit s)
    : wp accesses (contract .server) (call .handleRequest)
        (fun _ => Running zmqCtx zmqS sendReady quit) s :=
  h.perform fun _ _ inv held _ => held.useService inv

/-- `closeFd` on the end for the quit event: a descriptor of the thread is closed once. -/
theorem wp_closeFd_quit (h : Running zmqCtx zmqS sendReady quit s)
    : wp accesses (contract .server) (closeFd (if quit then some .quitFd else none))
        (fun _ => Running zmqCtx zmqS sendReady false) s := by
  cases quit with
  | false => exact h
  | true =>
      refine h.perform fun s answer inv held _ => ?_
      have own : Resource.OfThread (.pipe .quitFd) := Or.inr rfl
      obtain ⟨inv', step⟩ := held.setOpen inv own false fun _ => rfl
      simp only [Instr.exec, State.use_eq held.quit]
      refine ⟨inv', step, ?_⟩
      constructor <;> simp [State.setOpen, held.created, held.began, held.exited, held.context,
        held.socket, held.sendReady]

theorem wp_closeFd_sendReady (h : Running zmqCtx zmqS sendReady quit s)
    : wp accesses (contract .server) (closeFd (if sendReady then some .sendReadyFd else none))
        (fun _ => Running zmqCtx zmqS false quit) s := by
  cases sendReady with
  | false => exact h
  | true =>
      refine h.perform fun s answer inv held _ => ?_
      have own : Resource.OfThread (.pipe .sendReadyFd) := Or.inl rfl
      obtain ⟨inv', step⟩ := held.setOpen inv own false fun _ => rfl
      simp only [Instr.exec, State.use_eq held.sendReady]
      refine ⟨inv', step, ?_⟩
      constructor <;> simp [State.setOpen, held.created, held.began, held.exited, held.context,
        held.socket, held.quit]

/-- An open socket closes. -/
theorem wp_closeZmqSocket (h : Running zmqCtx zmqS sendReady quit s)
    : wp accesses (contract .server) (closeZmqSocket zmqS)
        (fun closed s => closed = true ∧ Running zmqCtx false sendReady quit s) s := by
  cases zmqS with
  | false => exact ⟨rfl, h⟩
  | true =>
      refine h.perform fun s answer inv held admitted => ?_
      have own : Resource.OfThread .socket := trivial
      obtain ⟨inv', step⟩ := held.setOpen inv own false fun same => by cases same
      simp only [Instr.exec, State.use_eq held.socket]
      refine ⟨inv', step, ?_, ?_⟩
      · simpa [Instr.answers, held.socket] using admitted
      · constructor <;> simp [State.setOpen, held.created, held.began, held.exited, held.context,
          held.sendReady, held.quit]

/-- An open context is destroyed once its socket is closed. -/
theorem wp_destroyZmqCtx (fuel : Nat) (h : Running zmqCtx false sendReady quit s)
    : wp accesses (contract .server) (destroyZmqCtx zmqCtx fuel)
        (fun destroyed s => destroyed = true ∧ Running false false sendReady quit s) s := by
  induction fuel generalizing s with
  | zero => trivial
  | succ fuel ih =>
      cases zmqCtx with
      | false => exact ⟨rfl, h⟩
      | true =>
          refine wp.bind (h.perform fun s answer inv held admitted => ?_)
          have own : Resource.OfThread .context := trivial
          obtain ⟨inv', step⟩ := held.setOpen inv own false fun same => by cases same
          have closed : Running false false sendReady quit (s.setOpen .context false) := by
            constructor <;> simp [State.setOpen, held.created, held.began, held.exited,
              held.socket, held.sendReady, held.quit]
          have kept := held.touch inv ⟨s.badMemory, rfl⟩ fun bad => Or.inl bad
          have use := State.use_eq held.context
          cases answer with
          | interrupted =>
              simp only [Instr.exec, use, if_true]
              exact ⟨kept.1, kept.2.1, ih kept.2.2⟩
          | ok =>
              simp only [Instr.exec, use, reduceCtorEq, if_false]
              exact ⟨inv', step, rfl, closed⟩
          | _ => simp [Instr.answers, held.context] at admitted

/-- At the label `error_exit` the thread closes what its variables still hold. -/
theorem wp_loopErrorExit (fuel : Nat) (h : Running zmqCtx zmqS sendReady quit s)
    : wp accesses (contract .server)
        (loopErrorExit fuel ⟨zmqCtx, zmqS, if sendReady then some .sendReadyFd else none,
          if quit then some .quitFd else none⟩)
        (fun _ => Running false false false false) s := by
  refine wp.bind ((wp_closeZmqSocket h).mono fun _ s closed => ?_)
  refine wp.bind ((wp_destroyZmqCtx fuel closed.2).mono fun _ s destroyed => ?_)
  refine wp.bind ((wp_closeFd_quit destroyed.2).mono fun _ s closed => ?_)
  refine wp.bind ((wp_closeFd_sendReady closed).mono fun _ s closed => ?_)
  exact closed

/-- After the quit event everything is closed, also if closing an end reports an error. -/
theorem wp_loopQuit (fuel : Nat) (h : Running true true true true s)
    : wp accesses (contract .server)
        (loopQuit fuel ⟨true, true, some .sendReadyFd, some .quitFd⟩)
        (fun _ => Running false false false false) s := by
  refine wp.bind ((wp_closeZmqSocket h).mono fun closed s socket => ?_)
  obtain ⟨rfl, socket⟩ := socket
  refine wp.bind ((wp_destroyZmqCtx fuel socket).mono fun destroyed s context => ?_)
  obtain ⟨rfl, context⟩ := context
  refine wp.bind ((wp_closeFd_quit context).mono fun closed s quit => ?_)
  cases closed with
  | false => exact wp_loopErrorExit fuel quit
  | true =>
      refine wp.bind ((wp_closeFd_sendReady quit).mono fun closed s ready => ?_)
      cases closed with
      | false => exact wp_loopErrorExit fuel ready
      | true => exact ready

/-- A use of the socket. -/
theorem Running.useSocket (inv : Inv s) (h : Running zmqCtx true sendReady quit s)
    : Inv (s.use .socket) ∧ ThreadStep s (s.use .socket)
      ∧ Running zmqCtx true sendReady quit (s.use .socket) := by
  rw [State.use_eq h.socket]
  exact h.touch inv ⟨s.badMemory, rfl⟩ fun bad => Or.inl bad

theorem wp_sendResponse (fuel : Nat) (h : Running zmqCtx true sendReady quit s)
    : wp accesses (contract .server) (sendResponse fuel)
        (fun _ => Running zmqCtx true sendReady quit) s := by
  induction fuel generalizing s with
  | zero => trivial
  | succ fuel ih =>
      refine wp.bind (h.perform fun s answer inv held _ => ?_)
      obtain ⟨inv', step, used⟩ := held.useSocket inv
      refine ⟨inv', step, ?_⟩
      cases answer with
      | interrupted => exact ih used
      | _ => exact used

theorem wp_serveRequest (service : ZmqService) (fuel : Nat)
    (h : Running zmqCtx true sendReady quit s)
    : wp accesses (contract .server) (serveRequest service fuel)
        (fun _ => Running zmqCtx true sendReady quit) s := by
  refine wp.bind ((wp_useService h).mono fun _ s h => ?_)
  refine wp.bind (h.perform fun s answer inv held _ => ?_)
  obtain ⟨inv', step, used⟩ := held.useSocket inv
  refine ⟨inv', step, ?_⟩
  cases answer with
  | size cbRequest =>
      by_cases fits : cbRequest ≤ service.maxRequestCb.toNat
      · simp only [fits, if_true]
        exact wp.bind ((wp_handleRequest used).mono fun _ s h => wp_sendResponse fuel h)
      · simp only [fits, if_false]
        trivial
  | _ => exact used

/-- Reading the quit event changes its pipe only. -/
theorem wp_receiveQuit (h : Running zmqCtx zmqS sendReady true s)
    : wp accesses (contract .server) (receiveEvent .quitFd)
        (fun _ => Running zmqCtx zmqS sendReady true) s := by
  refine wp.bind (h.perform fun s answer inv held _ => ?_)
  have use := State.use_eq held.quit
  have kept := held.touch inv ⟨s.badMemory, rfl⟩ fun bad => Or.inl bad
  have moved := held.setPending inv .quitFd (s.pending .quitFd - 1)
    fun same => by cases same
  cases answer with
  | ok =>
      simp only [Instr.exec, use, if_true]
      exact moved
  | _ =>
      simp only [Instr.exec, use, reduceCtorEq, or_true, if_false, if_true]
      exact kept

/-- The rounds of the loop end with everything closed. -/
theorem wp_loopRounds (service : ZmqService) (fuel : Nat) (h : Running true true true true s)
    : wp accesses (contract .server)
        (loopRounds service ⟨true, true, some .sendReadyFd, some .quitFd⟩ .quitFd fuel)
        (fun _ => Running false false false false) s := by
  induction fuel generalizing s with
  | zero => trivial
  | succ fuel ih =>
      refine wp.bind ((wp_receiveQuit h).mono fun nRead s h => ?_)
      cases nRead with
      | none => exact wp_loopErrorExit fuel h
      | some nRead =>
          by_cases event : 0 ≤ nRead
          · simp only [event, if_true]
            exact wp_loopQuit fuel h
          · simp only [event, if_false]
            refine wp.bind (h.perform fun s answer inv held _ => ?_)
            obtain ⟨inv', step, used⟩ := held.useSocket inv
            refine ⟨inv', step, ?_⟩
            cases answer with
            | interrupted => exact ih used
            | timeout => exact ih used
            | ok =>
                refine wp.bind ((wp_serveRequest service fuel used).mono fun served s h => ?_)
                cases served with
                | false => exact wp_loopErrorExit fuel h
                | true => exact ih h
            | _ => exact wp_loopErrorExit fuel used

theorem wp_setsockopts (left : Nat) (h : Running zmqCtx true sendReady quit s)
    : wp accesses (contract .server) (setsockopts left)
        (fun _ => Running zmqCtx true sendReady quit) s := by
  induction left generalizing s with
  | zero => exact h
  | succ left ih =>
      refine wp.bind (h.perform fun s answer inv held _ => ?_)
      obtain ⟨inv', step, used⟩ := held.useSocket inv
      refine ⟨inv', step, ?_⟩
      by_cases set : answer = .ok
      · simp only [set, decide_true, if_true]
        exact ih used
      · simp only [set, decide_false, Bool.false_eq_true, if_false]
        exact used

/-- The thread runs and listens. -/
def Listening (zmqCtx zmqS sendReady quit : Bool) (s : State) : Prop :=
  Running zmqCtx zmqS sendReady quit s ∧ s.bound = true

/-- `zmq_bind` is what makes the thread listen. -/
theorem wp_zmqBind (h : Running zmqCtx true sendReady quit s)
    : wp accesses (contract .server) (succeeds .zmqBind)
        (fun ok s => Running zmqCtx true sendReady quit s ∧ (ok = true → s.bound = true)) s := by
  refine h.perform fun s answer inv held _ => ?_
  have used := held.useSocket inv
  simp only [Instr.exec, State.use_eq held.socket] at used ⊢
  by_cases ok : answer = .ok
  · have step : ThreadStep s { s with bound := true } := {
      created := held.created
      sameCreated := rfl
      server := rfl
      fields := rfl
      released := rfl
      handle := rfl
      gaveUp := rfl
      ends := fun _ _ => rfl
      pending := Nat.le_refl _
      closed := id
      bound := fun _ => rfl
      exited := fun _ => rfl }
    simp only [ok, if_true]
    refine ⟨inv.threadStep step held.began (fun bad => Or.inl bad) inv.used (fun _ => rfl)
      inv.ended, step, ?_, fun _ => trivial⟩
    obtain ⟨created, began, exited, context, socket, ready, quit⟩ := held
    exact ⟨created, began, exited, context, socket, ready, quit⟩
  · simp only [ok, if_false]
    refine ⟨used.1, used.2.1, used.2.2, fun claimed => ?_⟩
    simp at claimed

/-- `init_zmq` reports what it has opened, and succeeds only if the thread listens. -/
theorem wp_initZmq (h : Running false false sendReady quit s)
    : wp accesses (contract .server) initZmq
        (fun zmq s => Running zmq.zmqCtx zmq.zmqS sendReady quit s
          ∧ (zmq.ok = true → zmq.zmqCtx = true ∧ zmq.zmqS = true ∧ s.bound = true)) s := by
  have quiet {s : State} (inv : Inv s) (held : Running false false sendReady quit s) :=
    held.touch inv ⟨s.badMemory, rfl⟩ fun bad => Or.inl bad
  refine wp.bind (h.perform fun s answer inv held _ => ?_)
  by_cases context : answer = .ok
  · have own : Resource.OfThread .context := trivial
    obtain ⟨inv', step⟩ := held.setOpen inv own true fun same => by cases same
    simp only [Instr.exec, context, if_true, decide_true]
    refine ⟨inv', step, ?_⟩
    have opened : Running true false sendReady quit (s.setOpen .context true) := by
      constructor <;> simp [State.setOpen, held.created, held.began, held.exited, held.socket,
        held.sendReady, held.quit]
    refine wp.bind (opened.perform fun s answer inv held _ => ?_)
    by_cases socket : answer = .ok
    · have own : Resource.OfThread .socket := trivial
      obtain ⟨inv', step⟩ := held.setOpen inv own true fun same => by cases same
      simp only [Instr.exec, State.use_eq held.context, socket, if_true, decide_true]
      refine ⟨inv', step, ?_⟩
      have both : Running true true sendReady quit (s.setOpen .socket true) := by
        constructor <;> simp [State.setOpen, held.created, held.began, held.exited,
          held.context, held.sendReady, held.quit]
      refine wp.bind ((wp_useService both).mono fun _ s h => ?_)
      refine wp.bind ((wp_setsockopts 4 h).mono fun set s h => ?_)
      cases set with
      | false => exact ⟨h, fun ok => by cases ok⟩
      | true =>
          refine wp.bind ((wp_zmqBind h).mono fun ok s bound => ?_)
          exact ⟨bound.1, fun done => ⟨rfl, rfl, bound.2 done⟩⟩
    · simp only [Instr.exec, State.use_eq held.context, socket, if_false, decide_false]
      have kept := held.touch inv ⟨s.badMemory, rfl⟩ fun bad => Or.inl bad
      exact ⟨kept.1, kept.2.1, kept.2.2, fun ok => by cases ok⟩
  · simp only [Instr.exec, context, if_false, decide_false]
    obtain ⟨inv', step, kept⟩ := quiet inv held
    exact ⟨inv', step, kept, fun ok => by cases ok⟩

theorem Listening.stable
    : (contract .server).Stable (Listening zmqCtx zmqS sendReady quit) := by
  intro s s' later inv h
  exact ⟨Running.stable later inv h.1, (later.bound h.1.created).trans h.2⟩

/-- The ready event is only sent by a thread that listens. -/
theorem wp_sendReady (fuel : Nat) (h : Listening zmqCtx zmqS true quit s)
    : wp accesses (contract .server) (sendEvent .sendReadyFd fuel)
        (fun _ => Running zmqCtx zmqS true quit) s := by
  induction fuel generalizing s with
  | zero => trivial
  | succ fuel ih =>
      refine wp.bind (wp.perform Listening.stable h fun s answer inv held _ => ?_)
      have use := State.use_eq held.1.sendReady
      obtain ⟨inv', step, kept⟩ := held.1.touch inv ⟨s.badMemory, rfl⟩ fun bad => Or.inl bad
      cases answer with
      | ok =>
          obtain ⟨inv', step, sent⟩ := held.1.setPending inv .readyFd (s.pending .readyFd + 1)
            fun _ => ⟨Nat.le_succ _, held.2⟩
          simp only [Instr.exec, use, if_true]
          exact ⟨inv', Or.inr step, sent⟩
      | interrupted =>
          simp only [Instr.exec, use, reduceCtorEq, false_and, if_false]
          exact ⟨inv', Or.inr step, ih ⟨kept, held.2⟩⟩
      | _ =>
          simp only [Instr.exec, use, reduceCtorEq, and_false, if_false]
          exact ⟨inv', Or.inr step, kept⟩

/-- `zmq_thread_loop` closes all that it has been given and all that it has opened. -/
theorem wp_zmqThreadLoop (service : ZmqService) (fuel : Nat)
    (h : Running false false true true s)
    : wp accesses (contract .server) (zmqThreadLoop service fuel .sendReadyFd .quitFd)
        (fun _ => Running false false false false) s := by
  refine wp.bind ((wp_initZmq h).mono fun zmq s h => ?_)
  obtain ⟨running, listens⟩ := h
  rcases zmq with ⟨ok, zmqCtx, zmqS⟩
  cases ok with
  | false => exact wp_loopErrorExit fuel running
  | true =>
      obtain ⟨rfl, rfl, bound⟩ := listens rfl
      refine wp.bind ((wp_sendReady fuel ⟨running, bound⟩).mono fun sent s h => ?_)
      cases sent with
      | false => exact wp_loopErrorExit fuel h
      | true => exact wp_loopRounds service fuel h

/-- What a thread that has ended leaves. -/
def Exited (rc : Int) (s : State) : Prop := s.created = true ∧ s.exited = some rc

theorem wp_zmqThread (service : ZmqService) (fuel : Nat) (created : s.created = true)
    (early : s.began = false)
    : wp accesses (contract .server) (zmqThread service fuel)
        (fun result s => ∃ rc, result = .exited rc ∧ Exited rc s) s := by
  have fresh : (contract .server).Stable fun s => s.created = true ∧ s.began = false := by
    intro s s' later _ h
    exact ⟨later.created h.1, (later.began h.1).trans h.2⟩
  refine wp.bind (wp.perform fresh ⟨created, early⟩ fun s _ inv held _ => ?_)
  obtain ⟨exited, ready, quit, context, socket⟩ := inv.fresh held.1 held.2
  have step : ThreadStep s { s with began := true } := {
    created := held.1
    sameCreated := rfl
    server := rfl
    fields := rfl
    released := rfl
    handle := rfl
    gaveUp := rfl
    ends := fun _ _ => rfl
    pending := Nat.le_refl _
    closed := id
    bound := id
    exited := fun _ => rfl }
  refine ⟨inv.threadStep step rfl (fun bad => Or.inl bad) inv.used inv.ready inv.ended,
    Or.inr step, ?_⟩
  have running : Running false false true true { s with began := true } :=
    ⟨held.1, rfl, exited, context, socket, ready, quit⟩
  refine wp.bind ((wp_useServer running).mono fun _ s h => ?_)
  refine wp.bind ((wp_useService h).mono fun _ s h => ?_)
  refine wp.bind (h.perform fun s _ inv held _ => ?_)
  obtain ⟨inv', step, kept⟩ := held.useServer inv
  refine ⟨inv', step, ?_⟩
  simp only [(inv.context held.created).1, (inv.context held.created).2]
  refine wp.bind ((wp_zmqThreadLoop service fuel kept).mono fun rc s h => ?_)
  refine wp.bind ((wp_useServer h).mono fun _ s h => ?_)
  refine wp.bind ((wp_useService h).mono fun _ s h => ?_)
  refine wp.bind (h.perform fun s _ inv held _ => ?_)
  have last : ThreadStep s { s with exited := some rc } := {
    created := held.created
    sameCreated := rfl
    server := rfl
    fields := rfl
    released := rfl
    handle := rfl
    gaveUp := rfl
    ends := fun _ _ => rfl
    pending := Nat.le_refl _
    closed := id
    bound := id
    exited := fun finished => absurd held.exited finished }
  refine ⟨inv.threadStep last held.began (fun bad => Or.inl bad) inv.used inv.ready ?_, last, rc,
    rfl, held.created, rfl⟩
  intro _ resource own
  rcases resource with fd | _ | _
  · rcases own with rfl | rfl
    · exact held.sendReady
    · exact held.quit
  · exact held.context
  · exact held.socket

end ThreadRules

-----------------------------------------------------------------------------------------
-- The main thread
-----------------------------------------------------------------------------------------

/-- What the main thread knows: `ends` are the open ends that it has to close, `joined` is the
exit status of a thread that it has waited for, and `heard` tells that the thread listens.
-/
structure Owned where
  server : Block
  fields : Fields
  released : Nat
  created : Bool
  gaveUp : Bool
  handle : Bool
  ends : List PipeEnd
  joined : Option Int
  heard : Bool

/-- The knowledge of the main thread is right. -/
structure Has (m : Owned) (s : State) : Prop where
  server : s.server = m.server
  fields : s.fields = m.fields
  released : s.released = m.released
  created : s.created = m.created
  gaveUp : s.gaveUp = m.gaveUp
  handle : s.handle = m.handle
  ends
    : ∀ fd : PipeEnd, (m.created = true → ¬ fd.OfThread)
      → s.isOpen (.pipe fd) = decide (fd ∈ m.ends)
  mine : m.created = true → ∀ fd ∈ m.ends, ¬ PipeEnd.OfThread fd
  joined : ∀ rc, m.joined = some rc → s.exited = some rc
  heard : m.heard = true → s.bound = true

/-- The thread does not use memory any more, or is not waited for any more. -/
def Owned.Apart (m : Owned) : Prop :=
  m.created = true → m.gaveUp = true ∨ m.joined.isSome = true

instance (m : Owned) : Decidable m.Apart := inferInstanceAs (Decidable (_ → _))

namespace Owned

/-- The knowledge after `close_fd` on a variable, if the descriptor is one to close. -/
def close (m : Owned) : Option PipeEnd → Option Owned
  | none => some m
  | some fd => if fd ∈ m.ends then some { m with ends := m.ends.filter (· ≠ fd) } else none

/-- The knowledge after `close_fd` on a field of a live server. -/
def closeField (m : Owned) (field : FdField) : Option Owned :=
  if m.server = .live then
    { m with fields := field.clear m.fields }.close (field.read m.fields)
  else none

/-- The knowledge after `free`, of a live server that the thread is apart from. -/
def free (m : Owned) : Option Owned :=
  if m.server = .live ∧ m.Apart then some { m with server := .freed } else none

/-- The knowledge after the only `zmq_service_release`. -/
def release (m : Owned) : Option Owned :=
  if m.released = 0 ∧ m.Apart then some { m with released := 1 } else none

end Owned

theorem Has.stable (m : Owned) : (contract .main).Stable (Has m) := by
  intro s s' later _ h
  rcases later with rfl | step
  · exact h
  · exact {
      server := step.server.trans h.server
      fields := step.fields.trans h.fields
      released := step.released.trans h.released
      created := step.sameCreated.trans h.created
      gaveUp := step.gaveUp.trans h.gaveUp
      handle := step.handle.trans h.handle
      ends := fun fd own =>
        (step.ends fd (own (h.created.symm.trans step.created))).trans (h.ends fd own)
      mine := h.mine
      joined := fun rc joined => by
        have finished := h.joined rc joined
        rw [step.exited (by rw [finished]; simp), finished]
      heard := fun heard => step.bound (h.heard heard) }

/-- What an access of the main thread leaves alone. -/
structure MainChange (s s' : State) : Prop where
  created : s'.created = s.created
  began : s'.began = s.began
  exited : s'.exited = s.exited
  bound : s'.bound = s.bound
  badMemory : s'.badMemory = s.badMemory
  misused : s'.misused = false
  context : s'.isOpen .context = s.isOpen .context
  socket : s'.isOpen .socket = s.isOpen .socket
  ends : s.created = true → ∀ fd : PipeEnd, fd.OfThread → s'.isOpen (.pipe fd) = s.isOpen (.pipe fd)
  pending : s'.pending .readyFd ≤ s.pending .readyFd
  gaveUp : s.gaveUp = true → s'.gaveUp = true
  handle : s'.handle = true → s.bound = true
  kept
    : s.created = true → s'.gaveUp = false → s.exited = none
      → s'.server = .live ∧ s'.released = 0
  fields
    : s.created = true
      → s'.fields.contextSendReadyFd = s.fields.contextSendReadyFd
        ∧ s'.fields.contextQuitFd = s.fields.contextQuitFd

theorem MainChange.resources {s s' : State} (change : MainChange s s') (now : s.created = true)
    {resource : Resource} (own : resource.OfThread)
    : s'.isOpen resource = s.isOpen resource := by
  rcases resource with fd | _ | _
  · exact change.ends now fd own
  · exact change.context
  · exact change.socket

/-- Such an access keeps the invariant, and the thread does not notice it. -/
theorem MainChange.keeps {s s' : State} (change : MainChange s s') (inv : Inv s)
    : Inv s' ∧ MainStep s s' := by
  constructor
  · exact {
      memory := fun bad => change.gaveUp (inv.memory (change.badMemory.symm.trans bad))
      used := change.misused
      handle := fun held => change.bound.trans (change.handle held)
      before := fun early => by
        obtain ⟨exited, began, context, socket, pending⟩ :=
          inv.before (change.created.symm.trans early)
        exact ⟨change.exited.trans exited, change.began.trans began,
          change.context.trans context, change.socket.trans socket,
          Nat.le_zero.mp (pending ▸ change.pending)⟩
      ready := fun some =>
        change.bound.trans (inv.ready (Nat.lt_of_lt_of_le some change.pending))
      fresh := fun now early => by
        have before := change.created.symm.trans now
        obtain ⟨exited, ready, quit, context, socket⟩ :=
          inv.fresh before (change.began.symm.trans early)
        exact ⟨change.exited.trans exited, (change.ends before _ (Or.inl rfl)).trans ready,
          (change.ends before _ (Or.inr rfl)).trans quit, change.context.trans context,
          change.socket.trans socket⟩
      kept := fun now waiting running =>
        change.kept (change.created.symm.trans now) waiting (change.exited.symm.trans running)
      context := fun now => by
        have before := change.created.symm.trans now
        obtain ⟨ready, quit⟩ := change.fields before
        obtain ⟨ready', quit'⟩ := inv.context before
        exact ⟨ready.trans ready', quit.trans quit'⟩
      ended := fun finished resource own => by
        have finished' : s.exited ≠ none := fun none => finished (change.exited.trans none)
        have now : s.created = true := by
          by_contra early
          exact finished' (inv.before (Bool.eq_false_iff.mpr early)).1
        exact (change.resources now own).trans (inv.ended finished' resource own) }
  · exact {
      created := fun now => change.created.trans now
      resources := fun now _ own => change.resources now own
      began := fun _ => change.began
      exited := fun _ => change.exited
      bound := fun _ => change.bound }

section MainRules

variable {m m' : Owned} {s : State} {α β : Type}

/-- The rule for one access of the main thread. -/
theorem Has.perform {i : Instr} {value : Answer → View → α} {post : α → State → Prop}
    (h : Has m s)
    (step : ∀ s answer, Inv s → Has m s → i.answers s answer = true
      → MainChange s (i.exec answer s)
        ∧ post (value answer ⟨s.fields, s.exited⟩) (i.exec answer s))
    : wp accesses (contract .main) (.perform i value) post s := by
  refine wp.perform (Has.stable m) h fun s answer inv held admitted => ?_
  obtain ⟨change, after⟩ := step s answer inv held admitted
  obtain ⟨inv', moved⟩ := change.keeps inv
  exact ⟨inv', moved, after⟩

/-- Nothing changes. -/
theorem MainChange.refl (inv : Inv s) : MainChange s s where
  created := rfl
  began := rfl
  exited := rfl
  bound := rfl
  badMemory := rfl
  misused := inv.used
  context := rfl
  socket := rfl
  ends _ _ _ := rfl
  pending := Nat.le_refl _
  gaveUp := id
  handle := inv.handle
  kept := inv.kept
  fields _ := ⟨rfl, rfl⟩

theorem Has.live (held : Has m s) (live : m.server = .live) : s.touchServer = s := by
  have safe : (s.badMemory || decide (s.server ≠ .live)) = s.badMemory := by
    simp [held.server, live]
  rw [State.touchServer, safe]

theorem Has.unreleased (held : Has m s) (unreleased : m.released = 0) : s.touchService = s := by
  have safe : (s.badMemory || decide (s.released ≠ 0)) = s.badMemory := by
    simp [held.released, unreleased]
  rw [State.touchService, safe]

theorem Has.useService (h : Has m s) (unreleased : m.released = 0)
    : wp accesses (contract .main) (call .useService) (fun _ => Has m) s := by
  refine h.perform fun s _ inv held _ => ?_
  simp only [Instr.exec, held.unreleased unreleased]
  exact ⟨.refl inv, held⟩

theorem Has.useServer (h : Has m s) (live : m.server = .live)
    : wp accesses (contract .main) (call .useServer) (fun _ => Has m) s := by
  refine h.perform fun s _ inv held _ => ?_
  simp only [Instr.exec, held.live live]
  exact ⟨.refl inv, held⟩

theorem Has.readServer (h : Has m s) (live : m.server = .live)
    : wp accesses (contract .main) readServer
        (fun fields s => fields = m.fields ∧ Has m s) s := by
  refine h.perform fun s _ inv held _ => ?_
  simp only [Instr.exec, held.live live]
  exact ⟨.refl inv, held.fields, held⟩

/-- A main thread that is apart from the thread may write and free the memory they share. -/
theorem Has.apart (held : Has m s) (apart : m.Apart) (now : s.created = true)
    (waiting : s.gaveUp = false)
    : s.exited ≠ none := by
  rcases apart (held.created.symm.trans now) with gaveUp | joined
  · rw [held.gaveUp, gaveUp] at waiting
    cases waiting
  · obtain ⟨rc, joined⟩ := Option.isSome_iff_exists.mp joined
    rw [held.joined rc joined]
    simp

/-- Before the thread is created, the main thread may change the server as it likes. -/
theorem MainChange.server (inv : Inv s) (early : s.created = false) (server : Block)
    (fields : Fields)
    : MainChange s { s with server := server, fields := fields } :=
  { MainChange.refl inv with
    pending := Nat.le_refl _
    kept := fun now => by
      rw [early] at now
      cases now
    fields := fun now => by
      rw [early] at now
      cases now }

theorem Has.callocServer (h : Has m s) (early : m.created = false)
    : wp accesses (contract .main) (succeeds .callocServer)
        (fun ok => Has (if ok then
          { m with server := .live, fields := ⟨none, none, none, none⟩ } else m)) s := by
  refine h.perform fun s answer inv held _ => ?_
  by_cases ok : answer = .ok
  · simp only [Instr.exec, ok, if_true, decide_true]
    refine ⟨.server inv (held.created.trans early) _ _, ?_⟩
    exact { held with server := rfl, fields := rfl }
  · simp only [Instr.exec, ok, if_false, decide_false, Bool.false_eq_true]
    exact ⟨.refl inv, held⟩

theorem Has.writeServer (h : Has m s) (live : m.server = .live) (early : m.created = false)
    (update : Fields → Fields)
    : wp accesses (contract .main) (call (.writeServer update))
        (fun _ => Has { m with fields := update m.fields }) s := by
  refine h.perform fun s _ inv held _ => ?_
  have change := MainChange.server inv (held.created.trans early) s.server (update s.fields)
  simp only [Instr.exec, held.live live]
  exact ⟨change, { held with fields := congrArg update held.fields }⟩

/-- Only ends that the main thread has to close are closed, each of them once. -/
theorem Has.closeFd {fd : Option PipeEnd} (h : Has m s) (closes : m.close fd = some m')
    : wp accesses (contract .main) (closeFd fd) (fun _ => Has m') s := by
  cases fd with
  | none =>
      cases closes
      exact h
  | some fd =>
      simp only [Owned.close, Option.ite_none_right_eq_some, Option.some.injEq] at closes
      obtain ⟨owned, rfl⟩ := closes
      refine h.perform fun s _ inv held _ => ?_
      have isOpen : s.isOpen (.pipe fd) = true := by
        rw [held.ends fd fun now => held.mine now fd owned, decide_eq_true owned]
      simp only [Instr.exec, State.use_eq isOpen]
      refine ⟨{ MainChange.refl inv with
        context := s.setOpen_other false (by simp)
        socket := s.setOpen_other false (by simp)
        ends := fun now other own => s.setOpen_other false ?_ }, ?_⟩
      · rintro ⟨⟩
        exact held.mine (held.created.symm.trans now) _ owned own
      · refine { held with
          ends := fun other mine => ?_
          mine := fun now other member => held.mine now other (List.mem_filter.mp member).1 }
        rcases eq_or_ne other fd with rfl | away
        · simp
        · rw [s.setOpen_other false (by simpa using away), held.ends other mine]
          simp [away]

theorem Has.closeServerFd {field : FdField} (h : Has m s) (closes : m.closeField field = some m')
    : wp accesses (contract .main) (closeServerFd field) (fun _ => Has m') s := by
  simp only [Owned.closeField, Option.ite_none_right_eq_some] at closes
  obtain ⟨live, closes⟩ := closes
  refine wp.bind (h.perform fun s _ inv held _ => ?_)
  simp only [Instr.exec, held.live live]
  have read : field.read s.fields = field.read m.fields :=
    congrArg (FdField.read · field) held.fields
  rw [read]
  refine ⟨{ MainChange.refl inv with fields := fun _ => ?_ }, ?_⟩
  · cases field <;> exact ⟨rfl, rfl⟩
  · have cleared : Has { m with fields := field.clear m.fields }
        { s with fields := field.clear s.fields } :=
      { held with fields := congrArg (FdField.clear · field) held.fields }
    exact cleared.closeFd closes

theorem Has.free (h : Has m s) (frees : m.free = some m')
    : wp accesses (contract .main) (call .freeServer) (fun _ => Has m') s := by
  simp only [Owned.free, Option.ite_none_right_eq_some, Option.some.injEq] at frees
  obtain ⟨⟨live, apart⟩, rfl⟩ := frees
  refine h.perform fun s _ inv held _ => ?_
  simp only [Instr.exec, held.live live]
  exact ⟨{ MainChange.refl inv with
    kept := fun now waiting running => absurd running (held.apart apart now waiting) },
    { held with server := rfl }⟩

theorem Has.release (h : Has m s) (releases : m.release = some m')
    : wp accesses (contract .main) (call .releaseService) (fun _ => Has m') s := by
  simp only [Owned.release, Option.ite_none_right_eq_some, Option.some.injEq] at releases
  obtain ⟨⟨unreleased, apart⟩, rfl⟩ := releases
  refine h.perform fun s _ inv held _ => ?_
  simp only [Instr.exec, held.unreleased unreleased]
  exact ⟨{ MainChange.refl inv with
    kept := fun now waiting running => absurd running (held.apart apart now waiting) },
    { held with released := by rw [held.released, unreleased] }⟩

theorem Has.pipe2 {readEnd writeEnd : PipeEnd} (h : Has m s) (early : m.created = false)
    : wp accesses (contract .main) (succeeds (.pipe2 readEnd writeEnd))
        (fun ok => Has (if ok then { m with ends := m.ends ++ [readEnd, writeEnd] } else m)) s := by
  refine h.perform fun s answer inv held _ => ?_
  have before := held.created.trans early
  have none := inv.before before
  by_cases ok : answer = .ok
  · simp only [Instr.exec, ok, if_true, decide_true]
    refine ⟨{ MainChange.refl inv with
      context := by simp [State.setPending, State.setOpen]
      socket := by simp [State.setPending, State.setOpen]
      ends := fun now => by
        rw [before] at now
        cases now
      pending := ?_
      kept := inv.kept
      fields := fun _ => ⟨rfl, rfl⟩ }, ?_⟩
    · rcases eq_or_ne readEnd .readyFd with rfl | other
      · rw [State.setPending_same]
        exact Nat.zero_le _
      · rw [State.setPending_other _ _ other.symm]
        exact Nat.le_refl _
    · refine { held with
        ends := fun fd mine => ?_
        mine := fun now => by
          rw [early] at now
          cases now }
      have status := held.ends fd mine
      by_cases written : fd = writeEnd
      · simp [State.setPending, State.setOpen, written]
      · by_cases opened : fd = readEnd
        · simp [State.setPending, State.setOpen, Function.update_apply, opened]
        · simp [State.setPending, State.setOpen, written, opened, status]
  · simp only [Instr.exec, ok, if_false, decide_false, Bool.false_eq_true]
    exact ⟨.refl inv, held⟩

/-- Giving up permits what waiting for the thread would not. -/
theorem MainChange.giveUp (inv : Inv s) : MainChange s s.giveUp :=
  { MainChange.refl inv with
    gaveUp := fun _ => rfl
    kept := fun _ waiting => by cases waiting }

theorem Has.giveUp (held : Has m s) : Has { m with gaveUp := true } s.giveUp :=
  { held with gaveUp := rfl }

/-- An end that the main thread has to close is open. -/
theorem Has.use {fd : PipeEnd} (held : Has m s) (owned : fd ∈ m.ends) : s.use (.pipe fd) = s := by
  apply State.use_eq
  rw [held.ends fd fun now => held.mine now fd owned, decide_eq_true owned]

/-- The event that `poll` has seen: a byte, or the end of the thread. -/
def Event (s : State) : Prop :=
  0 < s.pending .readyFd ∨ s.isOpen (.pipe .sendReadyFd) = false

theorem Event.stable : (contract .main).Stable fun s => Has m s ∧ Event s := by
  intro s s' later inv h
  refine ⟨Has.stable m later inv h.1, ?_⟩
  rcases later with rfl | step
  · exact h.2
  · exact h.2.imp (fun some => Nat.lt_of_lt_of_le some step.pending) step.closed

/-- The loop around `poll` ends with an event, or with the main thread giving up. -/
theorem Has.pollReady (fuel : Nat) (h : Has m s) (owned : .readyFd ∈ m.ends)
    : wp accesses (contract .main) (pollReady .readyFd fuel)
        (fun answer s =>
          if answer = .ok then Has m s ∧ Event s else Has { m with gaveUp := true } s) s := by
  induction fuel generalizing s with
  | zero => trivial
  | succ fuel ih =>
      refine wp.bind (h.perform fun s answer inv held admitted => ?_)
      have use := held.use owned
      cases answer with
      | ok =>
          simp only [Instr.exec, use, true_or, if_true]
          refine ⟨.refl inv, ?_⟩
          simp only [Instr.answers, reduceCtorEq, decide_false, Bool.or_false, decide_true,
            Bool.true_and, Bool.false_or, Bool.or_eq_true, decide_eq_true_eq,
            Bool.not_eq_true', PipeEnd.peer] at admitted
          exact ⟨held, admitted⟩
      | interrupted =>
          simp only [Instr.exec, use, or_true, if_true]
          exact ⟨.refl inv, ih held⟩
      | _ =>
          simp only [Instr.exec, use, reduceCtorEq, or_self, if_false]
          exact ⟨.giveUp inv, held.giveUp⟩

/-- After an event the read says whether the thread listens; `EAGAIN` cannot happen. -/
theorem Has.receiveReady (h : Has m s) (event : Event s) (owned : .readyFd ∈ m.ends)
    : wp accesses (contract .main) (receiveEvent .readyFd)
        (fun nRead s =>
          nRead = some 1 ∧ Has { m with heard := true } s
          ∨ (nRead = none ∨ nRead = some 0) ∧ Has { m with gaveUp := true } s) s := by
  refine wp.bind (wp.perform Event.stable ⟨h, event⟩ fun s answer inv held admitted => ?_)
  obtain ⟨held, event⟩ := held
  have use := held.use owned
  cases answer with
  | ok =>
      have byte : 0 < s.pending .readyFd := by
        simpa [Instr.answers] using admitted
      simp only [Instr.exec, use, if_true]
      have change : MainChange s (s.setPending .readyFd (s.pending .readyFd - 1)) :=
        { MainChange.refl inv with
          pending := by
            rw [s.setPending_same]
            exact Nat.sub_le ..
          kept := inv.kept
          fields := fun _ => ⟨rfl, rfl⟩ }
      obtain ⟨inv', moved⟩ := change.keeps inv
      exact ⟨inv', moved, Or.inl ⟨rfl, { held with heard := fun _ => inv.ready byte }⟩⟩
  | again =>
      -- the pipe would have to be empty and open
      simp only [Instr.answers, reduceCtorEq, decide_false, Bool.false_and, Bool.false_or,
        decide_true, Bool.true_and, Bool.and_eq_true, decide_eq_true_eq, PipeEnd.peer] at admitted
      rcases event with some | closed
      · omega
      · rw [closed] at admitted
        cases admitted.2
  | _ =>
      simp only [Instr.exec, use, reduceCtorEq, or_self, if_false]
      obtain ⟨inv', moved⟩ := (MainChange.giveUp inv).keeps inv
      exact ⟨inv', moved, Or.inr ⟨by simp, held.giveUp⟩⟩

/-- `wait_for_thread_ready` returns true only if the thread listens; else the main thread gives
up.
-/
theorem Has.waitForThreadReady (fuel : Nat) (h : Has m s) (owned : .readyFd ∈ m.ends)
    (unreleased : m.released = 0)
    : wp accesses (contract .main) (waitForThreadReady .readyFd fuel)
        (fun ready =>
          Has (if ready then { m with heard := true } else { m with gaveUp := true })) s := by
  refine wp.bind ((h.pollReady fuel owned).mono fun answer s h => ?_)
  cases answer with
  | ok =>
      simp only [if_true] at h
      refine wp.bind ((h.1.receiveReady h.2 owned).mono fun nRead s h => ?_)
      rcases h with ⟨rfl, h⟩ | ⟨none | eof, h⟩
      · exact wp.bind ((h.useService unreleased).mono fun _ s h => h)
      · subst none
        exact wp.bind ((h.useService unreleased).mono fun _ s h => h)
      · subst eof
        exact wp.bind ((h.useService unreleased).mono fun _ s h => h)
  | timeout =>
      simp only [reduceCtorEq, if_false] at h
      exact wp.bind ((h.useService unreleased).mono fun _ s h => h)
  | _ =>
      simp only [reduceCtorEq, if_false] at h
      exact h

/-- The quit event is written to an end that the main thread has to close. -/
theorem Has.sendQuit (fuel : Nat) (h : Has m s) (owned : .sendQuitFd ∈ m.ends)
    : wp accesses (contract .main) (sendEvent .sendQuitFd fuel)
        (fun sent => Has (if sent then m else { m with gaveUp := true })) s := by
  induction fuel generalizing s with
  | zero => trivial
  | succ fuel ih =>
      refine wp.bind (h.perform fun s answer inv held _ => ?_)
      have use := held.use owned
      cases answer with
      | ok =>
          simp only [Instr.exec, use, if_true]
          exact ⟨{ MainChange.refl inv with
            pending := Nat.le_of_eq (s.setPending_other _ (by decide))
            kept := inv.kept
            fields := fun _ => ⟨rfl, rfl⟩ }, { held with }⟩
      | interrupted =>
          simp only [Instr.exec, use, reduceCtorEq, false_and, if_false]
          exact ⟨.refl inv, ih held⟩
      | fail =>
          simp only [Instr.exec, use, reduceCtorEq, and_self, if_false, if_true]
          exact ⟨.giveUp inv, held.giveUp⟩
      | _ =>
          simp only [Instr.exec, use, reduceCtorEq, false_and, if_false]
          exact ⟨.refl inv, held⟩

/-- A join that succeeds has waited for the end of the thread. -/
theorem Has.join (h : Has m s) (live : m.server = .live)
    : wp accesses (contract .main)
        (.perform .pthreadJoin fun answer view => if answer = .ok then view.exited else none)
        (fun joined s =>
          (∃ rc, joined = some rc ∧ Has { m with joined := some rc } s)
          ∨ joined = none ∧ Has { m with gaveUp := true } s) s := by
  refine h.perform fun s answer inv held admitted => ?_
  by_cases ok : answer = .ok
  · simp only [Instr.answers, ok, reduceCtorEq, decide_false, Bool.false_or, decide_true,
      Bool.true_and] at admitted
    obtain ⟨rc, exited⟩ := Option.isSome_iff_exists.mp admitted
    simp only [Instr.exec, ok, if_true, held.live live]
    refine ⟨.refl inv, Or.inl ⟨rc, exited, { held with joined := fun rc' same => ?_ }⟩⟩
    rw [exited, Option.some.inj same]
  · simp only [Instr.exec, ok, if_false, held.live live]
    exact ⟨.giveUp inv, Or.inr ⟨trivial, held.giveUp⟩⟩

/-- The caller stores a server only if its thread listens. -/
theorem Has.setHandle (h : Has m s) (server : Bool) (heard : server = true → m.heard = true)
    : wp accesses (contract .main) (call (.setHandle server))
        (fun _ => Has { m with handle := server }) s := by
  refine h.perform fun s _ inv held _ => ?_
  exact ⟨{ MainChange.refl inv with
    handle := fun stored => held.heard (heard stored)
    kept := inv.kept
    fields := fun _ => ⟨rfl, rfl⟩ }, { held with handle := rfl }⟩

/-- Creating the thread hands two ends over to it. -/
theorem Has.pthreadCreate (h : Has m s) (live : m.server = .live) (early : m.created = false)
    (unreleased : m.released = 0) (ready : PipeEnd.sendReadyFd ∈ m.ends)
    (quit : PipeEnd.quitFd ∈ m.ends)
    (context : m.fields.contextSendReadyFd = some .sendReadyFd
      ∧ m.fields.contextQuitFd = some .quitFd)
    : wp accesses (contract .main) (succeeds .pthreadCreate)
        (fun ok => Has (if ok then
          { m with
            created := true
            ends := m.ends.filter fun fd => fd ≠ .sendReadyFd ∧ fd ≠ .quitFd } else m)) s := by
  refine wp.perform (Has.stable m) h fun s answer inv held _ => ?_
  have before := held.created.trans early
  obtain ⟨exited, began, context', socket, pending⟩ := inv.before before
  have isOpen (fd : PipeEnd) (owned : fd ∈ m.ends) : s.isOpen (.pipe fd) = true := by
    rw [held.ends fd fun now => held.mine now fd owned, decide_eq_true owned]
  by_cases ok : answer = .ok
  · simp only [Instr.exec, ok, if_true, decide_true, held.live live]
    refine ⟨?_, ?_, ?_⟩
    · exact { inv with
        before := fun now => by cases now
        fresh := fun _ _ => ⟨exited, isOpen _ ready, isOpen _ quit, context', socket⟩
        kept := fun _ _ _ => ⟨held.server.trans live, held.released.trans unreleased⟩
        context := fun _ => by
          rw [held.fields]
          exact context }
    · constructor <;>
        (intro now
         cases before.symm.trans now)
    · exact { held with
        created := rfl
        ends := fun fd away => by
          have same := held.ends fd fun now => by
            rw [early] at now
            cases now
          obtain ⟨notReady, notQuit⟩ := not_or.mp (away rfl)
          rw [same]
          simp [notReady, notQuit]
        mine := fun _ fd member own => by
          have kept := (List.mem_filter.mp member).2
          rcases own with rfl | rfl <;> simp at kept }
  · simp only [Instr.exec, ok, if_false, decide_false, Bool.false_eq_true, held.live live]
    exact ⟨inv, MainStep.refl s, held⟩

namespace Owned

/-- What `startRelease` makes of the knowledge. -/
def startRelease (m : Owned) (pipes : Pipes) : Option Owned := do
  let m ← m.close pipes.readyFd
  let m ← m.close pipes.sendReadyFd
  let m ← m.close pipes.quitFd
  let m ← m.close pipes.sendQuitFd
  m.release

/-- What `startErrorExit` makes of the knowledge. -/
def startErrorExit (m : Owned) (server : Bool) (pipes : Pipes) : Option Owned := do
  if server then
    let m ← m.closeField .readyFd
    let m ← m.closeField .sendQuitFd
    let m ← m.free
    m.startRelease pipes
  else m.startRelease pipes

/-- What `stopRelease` makes of the knowledge. -/
def stopRelease (m : Owned) : Option Owned := do
  let m ← m.release
  m.free

/-- What `stopErrorExit` makes of the knowledge. -/
def stopErrorExit (m : Owned) : Option Owned := do
  let m ← m.closeField .readyFd
  let m ← m.closeField .sendQuitFd
  m.stopRelease

end Owned

theorem Has.startRelease {pipes : Pipes} (h : Has m s)
    (exits : m.startRelease pipes = some m')
    : wp accesses (contract .main) (startRelease pipes)
        (fun started s => started = false ∧ Has m' s) s := by
  simp only [Owned.startRelease, Option.bind_eq_bind, Option.bind_eq_some_iff] at exits
  obtain ⟨first, closes1, second, closes2, third, closes3, fourth, closes4, releases⟩ := exits
  have unreleased : fourth.released = 0 := by
    simp only [Owned.release, Option.ite_none_right_eq_some] at releases
    exact releases.1.1
  refine wp.bind ((h.closeFd closes1).mono fun _ s h => ?_)
  refine wp.bind ((h.closeFd closes2).mono fun _ s h => ?_)
  refine wp.bind ((h.closeFd closes3).mono fun _ s h => ?_)
  refine wp.bind ((h.closeFd closes4).mono fun _ s h => ?_)
  refine wp.bind ((h.useService unreleased).mono fun _ s h => ?_)
  refine wp.bind ((h.release releases).mono fun _ s h => ?_)
  exact ⟨rfl, h⟩

theorem Has.startErrorExit {server : Bool} {pipes : Pipes} (h : Has m s)
    (exits : m.startErrorExit server pipes = some m')
    : wp accesses (contract .main) (startErrorExit server pipes)
        (fun started s => started = false ∧ Has m' s) s := by
  cases server with
  | false => exact h.startRelease exits
  | true =>
      simp only [Owned.startErrorExit, if_true, Option.bind_eq_bind, Option.bind_eq_some_iff]
        at exits
      obtain ⟨first, closes1, second, closes2, freed, frees, releases⟩ := exits
      refine wp.bind (wp.bind ((h.closeServerFd closes1).mono fun _ s h => ?_))
      refine wp.bind ((h.closeServerFd closes2).mono fun _ s h => ?_)
      exact (h.free frees).mono fun _ s h => h.startRelease releases

theorem Has.stopRelease (rc : Int) (h : Has m s) (exits : m.stopRelease = some m')
    : wp accesses (contract .main) (stopRelease rc)
        (fun value s => value = rc ∧ Has m' s) s := by
  simp only [Owned.stopRelease, Option.bind_eq_bind, Option.bind_eq_some_iff] at exits
  obtain ⟨released, releases, frees⟩ := exits
  have live : m.server = .live := by
    simp only [Owned.release, Option.ite_none_right_eq_some, Option.some.injEq] at releases
    simp only [Owned.free, Option.ite_none_right_eq_some] at frees
    obtain ⟨_, rfl⟩ := releases
    exact frees.1.1
  refine wp.bind ((h.useServer live).mono fun _ s h => ?_)
  refine wp.bind ((h.release releases).mono fun _ s h => ?_)
  refine wp.bind ((h.free frees).mono fun _ s h => ?_)
  exact ⟨rfl, h⟩

theorem Has.stopErrorExit (h : Has m s) (exits : m.stopErrorExit = some m')
    : wp accesses (contract .main) stopErrorExit (fun rc s => rc = 1 ∧ Has m' s) s := by
  simp only [Owned.stopErrorExit, Option.bind_eq_bind, Option.bind_eq_some_iff] at exits
  obtain ⟨first, closes1, second, closes2, releases⟩ := exits
  refine wp.bind ((h.closeServerFd closes1).mono fun _ s h => ?_)
  refine wp.bind ((h.closeServerFd closes2).mono fun _ s h => ?_)
  exact h.stopRelease 1 releases

end MainRules

/-- Before the start. -/
def Owned.none : Owned :=
  ⟨.absent, ⟨.none, .none, .none, .none⟩, 0, false, false, false, [], .none, false⟩

/-- The server is allocated, and the main thread has these ends. -/
def Owned.allocated (ends : List PipeEnd) : Owned :=
  { Owned.none with server := .live, ends := ends }

/-- The thread is created and the main thread has the other ends. -/
def Owned.launched : Owned :=
  { Owned.none with
    server := .live
    fields := ⟨some .readyFd, some .sendQuitFd, some .sendReadyFd, some .quitFd⟩
    created := true
    ends := [.readyFd, .sendQuitFd] }

/-- The server has been started and is in the caller's variable. -/
def Owned.serving : Owned := { Owned.launched with heard := true, handle := true }

/-- Nothing is left for the main thread to close or to free. -/
def Owned.Over (m : Owned) : Prop :=
  m.server ≠ .live ∧ m.released = 1 ∧ m.handle = false ∧ m.ends = [] ∧ m.Apart

instance (m : Owned) : Decidable m.Over := inferInstanceAs (Decidable (_ ∧ _ ∧ _ ∧ _ ∧ _))

/-- Nothing is left, and the main thread has not given up a thread that it has not seen end. -/
def Over (s : State) : Prop := ∃ m : Owned, Has m s ∧ m.Over

theorem wp_zmqServerStart (fuel : Nat) {s : State} (h : Has .none s)
    : wp accesses (contract .main) (zmqServerStart fuel)
        (fun started s =>
          if started then Has { Owned.launched with heard := true } s else Over s) s := by
  have exits {m : Owned} {s : State} (server : Bool) (pipes : Pipes) (h : Has m s)
      (finished : (m.startErrorExit server pipes).any (·.Over) = true)
      : wp accesses (contract .main) (startErrorExit server pipes)
          (fun started s =>
            if started then Has { Owned.launched with heard := true } s else Over s) s := by
    obtain ⟨m', exits, finished⟩ := (Option.any_eq_true ..).mp finished
    refine (h.startErrorExit exits).mono fun started s done => ?_
    obtain ⟨rfl, done⟩ := done
    exact ⟨m', done, of_decide_eq_true finished⟩
  refine wp.bind ((h.useService rfl).mono fun _ s h => ?_)
  refine wp.bind ((h.callocServer rfl).mono fun allocated s h => ?_)
  cases allocated with
  | false =>
      exact exits false ⟨none, none, none, none⟩ h (by rfl)
  | true =>
      change Has (.allocated []) s at h
      refine wp.bind ((h.writeServer rfl rfl _).mono fun _ s h => ?_)
      change Has (.allocated []) s at h
      refine wp.bind ((h.pipe2 rfl).mono fun piped s h => ?_)
      cases piped with
      | false =>
          exact exits true ⟨none, none, none, none⟩ h (by rfl)
      | true =>
          change Has (.allocated [.readyFd, .sendReadyFd]) s at h
          refine wp.bind ((h.pipe2 rfl).mono fun piped s h => ?_)
          cases piped with
          | false => exact exits true ⟨some .readyFd, some .sendReadyFd, none, none⟩ h (by rfl)
          | true =>
              refine wp.bind ((h.writeServer rfl rfl _).mono fun _ s h => ?_)
              refine wp.bind ((h.writeServer rfl rfl _).mono fun _ s h => ?_)
              refine wp.bind ((h.pthreadCreate rfl rfl rfl (by decide) (by decide)
                ⟨rfl, rfl⟩).mono fun created s h => ?_)
              cases created with
              | false => exact exits true ⟨none, some .sendReadyFd, some .quitFd, none⟩ h (by rfl)
              | true =>
                  change Has .launched s at h
                  refine wp.bind ((h.readServer rfl).mono fun fields s h => ?_)
                  obtain ⟨rfl, h⟩ := h
                  refine wp.bind ((h.useService rfl).mono fun _ s h => ?_)
                  refine wp.bind ((h.waitForThreadReady fuel (by decide) rfl).mono
                    fun ready s h => ?_)
                  cases ready with
                  | false => exact exits true ⟨none, none, none, none⟩ h (by rfl)
                  | true => exact h

/-- A stop that returns 0 has seen the thread end with 0. -/
theorem wp_zmqServerStop (fuel : Nat) {s : State} (h : Has .serving s)
    : wp accesses (contract .main) (zmqServerStop fuel)
        (fun rc s => ∃ m : Owned, Has m s ∧ { m with handle := false }.Over
          ∧ (rc = 0 → m.joined = some 0 ∧ m.gaveUp = false)) s := by
  have exits {m : Owned} {s : State} (h : Has m s)
      (finished : m.stopErrorExit.any (fun m => { m with handle := false }.Over) = true)
      : wp accesses (contract .main) stopErrorExit
          (fun rc s => ∃ m : Owned, Has m s ∧ { m with handle := false }.Over
            ∧ (rc = 0 → m.joined = some 0 ∧ m.gaveUp = false)) s := by
    obtain ⟨m', exits, finished⟩ := (Option.any_eq_true ..).mp finished
    refine (h.stopErrorExit exits).mono fun rc s done => ?_
    obtain ⟨rfl, done⟩ := done
    exact ⟨m', done, of_decide_eq_true finished, fun zero => by cases zero⟩
  refine wp.bind ((h.useServer rfl).mono fun _ s h => ?_)
  refine wp.bind ((h.useService rfl).mono fun _ s h => ?_)
  refine wp.bind ((h.readServer rfl).mono fun fields s h => ?_)
  obtain ⟨rfl, h⟩ := h
  refine wp.bind ((h.sendQuit fuel (by decide)).mono fun sent s h => ?_)
  cases sent with
  | false => exact exits h (by rfl)
  | true =>
      refine wp.bind ((h.join rfl).mono fun joined s h => ?_)
      rcases h with ⟨rc, rfl, h⟩ | ⟨rfl, h⟩
      · refine wp.bind ((h.closeServerFd rfl).mono fun closed s h => ?_)
        cases closed with
        | false => exact exits h (by rfl)
        | true =>
            refine wp.bind ((h.closeServerFd rfl).mono fun closed s h => ?_)
            cases closed with
            | false => exact exits h (by rfl)
            | true =>
                refine (h.stopRelease rc rfl).mono fun value s done => ?_
                obtain ⟨rfl, done⟩ := done
                refine ⟨_, done, ⟨?_, rfl, rfl, rfl, fun _ => Or.inr rfl⟩, fun zero => ?_⟩
                · intro live
                  cases live
                · exact ⟨congrArg some zero, rfl⟩
      · exact exits h (by rfl)

-----------------------------------------------------------------------------------------
-- All runs
-----------------------------------------------------------------------------------------

/-- What holds when an operation has returned. -/
def Done : Thread → Result → State → Prop
  | .main, .idle, s => Has .none s
  | .main, .started true, s => Has .serving s
  | .main, .started false, s => Over s
  | .main, .stopped rc, s =>
      ∃ m : Owned, Has m s ∧ m.Over ∧ (rc = 0 → m.joined = some 0 ∧ m.gaveUp = false)
  | .main, .exited _, _ => False
  | .server, .idle, _ => True
  | .server, .exited rc, s => Exited rc s
  | .server, _, _ => False

theorem Has.finished {m : Owned} {s : State} (h : Has m s) (finished : m.Over)
    : s.released = 1 ∧ s.handle = false :=
  ⟨h.released.trans finished.2.1, h.handle.trans finished.2.2.1⟩

theorem Done.stable (thread : Thread) (result : Result) ⦃s s' : State⦄
    (later : Rely thread s s') (inv : Inv s') (h : Done thread result s)
    : Done thread result s' := by
  cases thread with
  | main =>
      cases result with
      | idle => exact Has.stable _ later inv h
      | started server =>
          cases server with
          | true => exact Has.stable _ later inv h
          | false =>
              obtain ⟨m, has, finished⟩ := h
              exact ⟨m, Has.stable m later inv has, finished⟩
      | stopped rc =>
          obtain ⟨m, has, finished⟩ := h
          exact ⟨m, Has.stable m later inv has, finished⟩
      | exited rc => exact h
  | server =>
      cases result with
      | exited rc => exact ⟨later.created h.1, (later.exited h.1).trans h.2⟩
      | _ => exact h

/-- Starting and stopping a server: the caller's variable tells which of them comes next. -/
theorem wp_mainOp (service : ZmqService) (fuel : Nat) {op : Op} {result : Result} {s : State}
    (called : serverPolicy.call .main op s) (h : Done .main result s)
    : wp accesses (contract .main) (op.code service fuel) (Done .main) s := by
  have finished {m : Owned} {s : State} (h : Has m s) (finished : { m with handle := false }.Over)
      {rc : Int} (zero : rc = 0 → m.joined = some 0 ∧ m.gaveUp = false)
      : wp accesses (contract .main)
          (do
            call (.setHandle false)
            return Result.stopped rc)
          (Done .main) s :=
    wp.bind ((h.setHandle false fun set => by cases set).mono fun _ s h =>
      ⟨_, h, finished, zero⟩)
  cases op with
  | start =>
      have first : Has .none s := by
        cases result with
        | idle => exact h
        | started server =>
            cases server with
            | true =>
                have live := h.server.symm.trans called.1
                cases live
            | false =>
                obtain ⟨m, has, finished⟩ := h
                have released := (has.finished finished).1
                rw [called.2] at released
                cases released
        | stopped rc =>
            obtain ⟨m, has, finished, _⟩ := h
            have released := (has.finished finished).1
            rw [called.2] at released
            cases released
        | exited rc => exact h.elim
      refine wp.bind ((wp_zmqServerStart fuel first).mono fun started s h => ?_)
      cases started with
      | true => exact wp.bind ((h.setHandle true fun _ => rfl).mono fun _ s h => h)
      | false =>
          obtain ⟨m, has, finished⟩ := h
          refine wp.bind ((has.setHandle false fun set => by cases set).mono fun _ s h => ?_)
          obtain ⟨server, released, _, ends, apart⟩ := finished
          exact ⟨_, h, server, released, rfl, ends, apart⟩
  | stop =>
      have stored : s.handle = true := called
      have serving : Has .serving s := by
        cases result with
        | idle =>
            rw [h.handle] at stored
            cases stored
        | started server =>
            cases server with
            | true => exact h
            | false =>
                obtain ⟨m, has, finished⟩ := h
                rw [(has.finished finished).2] at stored
                cases stored
        | stopped rc =>
            obtain ⟨m, has, finished, _⟩ := h
            rw [(has.finished finished).2] at stored
            cases stored
        | exited rc => exact h.elim
      refine wp.bind ((wp_zmqServerStop fuel serving).mono fun rc s h => ?_)
      obtain ⟨m, has, done, zero⟩ := h
      exact finished has done zero
  | thread => exact called.elim

theorem wp_serverOp (service : ZmqService) (fuel : Nat) {op : Op} {s : State}
    (called : serverPolicy.call .server op s)
    : wp accesses (contract .server) (op.code service fuel) (Done .server) s := by
  cases op with
  | thread =>
      refine (wp_zmqThread service fuel called.1 called.2).mono fun result s done => ?_
      obtain ⟨rc, rfl, exited⟩ := done
      exact exited
  | _ => exact called.elim

/-- The proof outline of a server with its two threads. -/
def serverOutline (service : ZmqService) (fuel : Nat)
    : Outline (serverSystem service fuel) serverPolicy where
  inv := Inv
  rely := Rely
  guar := Guar
  done thread _ := Done thread
  fault _ := True
  refl := Rely.refl
  trans := Rely.trans
  stable thread _ := Done.stable thread
  others thread other different s s' changed := by
    cases thread <;> cases other
    · exact absurd rfl different
    · exact changed
    · exact changed
    · exact absurd rfl different
  env event := nomatch event
  ops thread op s _ result _ called done := by
    cases thread with
    | main => exact wp_mainOp service fuel called done
    | server => exact wp_serverOp service fuel called

theorem serverOutline_good (service : ZmqService) (fuel : Nat)
    : (serverOutline service fuel).Good atRest := by
  constructor
  · constructor <;> simp [atRest, Config.idle, State.initial]
  · intro thread
    cases thread with
    | main =>
        constructor <;> simp [atRest, Config.idle, State.initial, Owned.none]
    | server => trivial

/-- The configurations that one server with its two threads can reach. -/
abbrev Reaches (service : ZmqService) (fuel : Nat)
    (config : Config Thread Op Instr Answer View Stuck State Result)
    : Prop :=
  Run (serverSystem service fuel) serverPolicy atRest config

theorem Reaches.good {service : ZmqService} {fuel : Nat}
    {config : Config Thread Op Instr Answer View Stuck State Result}
    (run : Reaches service fuel config)
    : (serverOutline service fuel).Good config :=
  Run.good run (serverOutline_good service fuel)

instance (op : Op) (i : Instr) (answer : Answer) (s : State)
    : Decidable (serverPolicy.instr op i answer s) :=
  inferInstanceAs (Decidable (_ = _))

instance : (thread : Thread) → (op : Op) → (s : State)
    → Decidable (serverPolicy.call thread op s)
  | .main, .start, s => inferInstanceAs (Decidable (s.server = .absent ∧ s.released = 0))
  | .main, .stop, s => inferInstanceAs (Decidable (s.handle = true))
  | .server, .thread, s => inferInstanceAs (Decidable (s.created = true ∧ s.began = false))
  | .main, .thread, _ => .isFalse id
  | .server, .start, _ => .isFalse id
  | .server, .stop, _ => .isFalse id

/-- In every run, whatever fails: no descriptor, socket or context is used or closed unless it
is open; freed memory is only used if the main thread has given up on the thread; and a caller
that has a server has one whose endpoint was bound. Freed memory is taken to keep its content.
-/
theorem server_uses_only_what_is_open {service : ZmqService} {fuel : Nat}
    {config : Config Thread Op Instr Answer View Stuck State Result}
    (run : Reaches service fuel config)
    : config.state.misused = false
      ∧ (config.state.badMemory = true → config.state.gaveUp = true)
      ∧ (config.state.handle = true → config.state.bound = true) :=
  have inv := run.good.1
  ⟨inv.used, inv.memory, inv.handle⟩

/-- The choices of a start up to the wait for the thread, all calls succeeding. -/
def launching : List (Choice Thread Op Answer Empty) :=
  .call .main .start :: answered .main (.replicate 10 .ok) ++ [.call .server .thread]

/-- The endpoint cannot be bound: the thread closes what it has, the main thread sees the end
of the pipe, frees the server, and the last message of the thread reads it.
-/
theorem server_uses_freed_memory_after_failed_start
    : ∃ config,
        Reaches configSetup 2 config
        ∧ (config.running .main).2 = .ret (.started false)
        ∧ config.state.badMemory = true
        ∧ config.state.misused = false
        ∧ (config.state.badMemory = true → config.state.gaveUp = true)
        ∧ (config.state.handle = true → config.state.bound = true) := by
  obtain ⟨config, run, reached⟩ := Run.of_follow (serverSystem configSetup 2) serverPolicy atRest
    (launching
      ++ answered .server (.replicate 11 .ok ++ [.fail] ++ .replicate 4 .ok)
      ++ answered .main ([.ok, .eof] ++ .replicate 9 .ok)
      ++ answered .server [.ok])
    (fun config =>
      decide ((config.running .main).2.value? = some (.started false)) && config.state.badMemory)
    (by decide +kernel)
  simp only [Bool.and_eq_true, decide_eq_true_eq] at reached
  exact ⟨config, run, Prog.eq_ret_of_value? reached.1, reached.2,
    server_uses_only_what_is_open run⟩

theorem Reaches.done {service : ZmqService} {fuel : Nat}
    {config : Config Thread Op Instr Answer View Stuck State Result}
    (run : Reaches service fuel config) {thread : Thread} {result : Result}
    (returned : (config.running thread).2 = .ret result)
    : Done thread result config.state := by
  have same : config.running thread = ((config.running thread).1, .ret result) :=
    Prod.ext rfl returned
  exact run.good.returned same

/-- Once nothing is left for the main thread, the ends of a thread that was never created are
closed as well.
-/
theorem Over.closed {s : State} (inv : Inv s) (finished : Over s)
    (ended : s.created = true → s.exited ≠ none) (resource : Resource)
    : s.isOpen resource = false := by
  obtain ⟨m, has, _, _, _, ends, _⟩ := finished
  have mine (fd : PipeEnd) (own : m.created = true → ¬ fd.OfThread)
      : s.isOpen (.pipe fd) = false := by
    rw [has.ends fd own, ends]
    rfl
  cases created : s.created with
  | false =>
      obtain ⟨_, _, context, socket, _⟩ := inv.before created
      rcases resource with fd | _ | _
      · refine mine fd fun now => ?_
        rw [← has.created, created] at now
        cases now
      · exact context
      · exact socket
  | true =>
      have thread := inv.ended (ended created)
      rcases resource with fd | _ | _
      · by_cases own : fd.OfThread
        · exact thread (.pipe fd) own
        · exact mine fd fun _ => own
      · exact thread .context trivial
      · exact thread .socket trivial

/-- After a failed start or a stop, whatever failed on the way: the server is not allocated, the
service has been released once, and the caller has no server; and once the thread has ended,
if there ever was one, every descriptor, the socket and the context are closed.
-/
theorem server_leaves_nothing_behind {service : ZmqService} {fuel : Nat}
    {config : Config Thread Op Instr Answer View Stuck State Result} {result : Result}
    (run : Reaches service fuel config)
    (returned : (config.running .main).2 = .ret result)
    (last : result = .started false ∨ ∃ rc, result = .stopped rc)
    : config.state.server ≠ .live
      ∧ config.state.released = 1
      ∧ config.state.handle = false
      ∧ ((config.state.created = true → config.state.exited ≠ none)
        → ∀ resource, config.state.isOpen resource = false) := by
  have finished : Over config.state := by
    have done := run.done returned
    rcases last with rfl | ⟨rc, rfl⟩
    · exact done
    · obtain ⟨m, has, finished, _⟩ := done
      exact ⟨m, has, finished⟩
  obtain ⟨m, has, gone, released, handle, ends, apart⟩ := finished
  refine ⟨has.server.symm ▸ gone, has.released.trans released, has.handle.trans handle, ?_⟩
  exact Over.closed run.good.1 ⟨m, has, gone, released, handle, ends, apart⟩

/-- The wait for the thread times out: the main thread frees the server, and the thread, which
listens by then, finds its quit pipe closed and ends. Its last message reads the freed server.
-/
theorem server_leaves_nothing_behind_after_timeout
    : ∃ config,
        Reaches configSetup 2 config
        ∧ (config.running .main).2 = .ret (.started false)
        ∧ config.state.badMemory = true
        ∧ config.state.exited = some 0
        ∧ config.state.server ≠ .live
        ∧ config.state.released = 1
        ∧ config.state.handle = false
        ∧ ∀ resource, config.state.isOpen resource = false := by
  obtain ⟨config, run, reached⟩ := Run.of_follow (serverSystem configSetup 2) serverPolicy atRest
    (launching
      ++ answered .main [.timeout]
      ++ answered .server (.replicate 13 .ok)
      ++ answered .main (.replicate 9 .ok)
      ++ answered .server (.eof :: .replicate 7 .ok))
    (fun config =>
      decide ((config.running .main).2.value? = some (.started false))
      && config.state.badMemory
      && decide (config.state.exited = some 0))
    (by decide +kernel)
  simp only [Bool.and_eq_true, decide_eq_true_eq] at reached
  obtain ⟨⟨failed, freed⟩, exited⟩ := reached
  have returned := Prog.eq_ret_of_value? failed
  obtain ⟨gone, released, handle, closed⟩ :=
    server_leaves_nothing_behind run returned (Or.inl rfl)
  refine ⟨config, run, returned, freed, exited, gone, released, handle, closed fun _ => ?_⟩
  rw [exited]
  exact nofun

/-- A stop that returns 0 has been clean: the thread has ended with 0, everything is closed, and
no freed memory has been used.
-/
theorem server_stop_zero_is_clean {service : ZmqService} {fuel : Nat}
    {config : Config Thread Op Instr Answer View Stuck State Result}
    (run : Reaches service fuel config)
    (returned : (config.running .main).2 = .ret (.stopped 0))
    : config.state.exited = some 0
      ∧ config.state.badMemory = false
      ∧ ∀ resource, config.state.isOpen resource = false := by
  obtain ⟨m, has, finished, zero⟩ := run.done returned
  obtain ⟨joined, waiting⟩ := zero rfl
  have exited := has.joined 0 joined
  refine ⟨exited, ?_, Over.closed run.good.1 ⟨m, has, finished⟩ fun _ => by rw [exited]; simp⟩
  by_contra bad
  have gaveUp := run.good.1.memory (by simpa using bad)
  rw [has.gaveUp, waiting] at gaveUp
  cases gaveUp

/-- A server that starts, gets its quit event and is stopped. -/
theorem server_stop_zero_is_clean_after_quit
    : ∃ config,
        Reaches configSetup 2 config
        ∧ (config.running .main).2 = .ret (.stopped 0)
        ∧ config.state.exited = some 0
        ∧ config.state.badMemory = false
        ∧ ∀ resource, config.state.isOpen resource = false := by
  obtain ⟨config, run, reached⟩ := Run.of_follow (serverSystem configSetup 2) serverPolicy atRest
    (launching
      ++ answered .server (.replicate 13 .ok)
      ++ answered .main (.replicate 4 .ok)
      ++ [.call .main .stop]
      ++ answered .main (.replicate 4 .ok)
      ++ answered .server (.replicate 8 .ok)
      ++ answered .main (.replicate 9 .ok))
    (fun config => (config.running .main).2.value? = some (.stopped 0))
    (by decide +kernel)
  have returned := Prog.eq_ret_of_value? (of_decide_eq_true reached)
  exact ⟨config, run, returned, server_stop_zero_is_clean run returned⟩

end VirtioForwarder.ZmqServer
