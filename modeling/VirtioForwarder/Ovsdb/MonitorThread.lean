import VirtioForwarder.Library.TimedStop

/-! The thread of `ovsdb_mon.c` and `ovsdb_mon_stop`: the connection to the database, which is an
`ovsdb-client` behind a stream, from the polling loop to the signals in the end.
-/

namespace VirtioForwarder

open Traces

/-- The statement of `ovsdb_mon_threadmain` or `setup_ovsdb_mon` that comes next. -/
inductive OvsdbMonPc
  | clearStop
  | setRunning
  | testLoop
  | pollSock
  | cleanOld
  | popen
  | readPid (cmdStdout : Nat)
  | abandon (cmdStdout : Nat)
  | sleep
  | checkSock
  | dropConn
  | select
  | parse
  | terminate
  | kill
  | unlink
  | closeConn
  | clearRunning
  | returned
  deriving DecidableEq, Repr

/-- What `select` tells: nothing in 100 ms, an error, a return without data, or data. -/
inductive SelectResult
  | timeout
  | error
  | unset
  | ready
  deriving DecidableEq, Repr

/-- The statements with their results. `check_ovsdb_sock` finds the socket, `popen` makes a stream,
and a PID is read from the file of the `ovsdb-client`.
-/
inductive OvsdbMonCall
  | clearStop
  | setRunning
  | testLoop
  | checkOvsdbSock (found : Bool)
  | cleanOld
  | popen (ok : Bool)
  | readPid (pid : Option Int)
  | pclose
  | sleep
  | select (result : SelectResult)
  | parseOvsdbClient
  | kill
  | unlink
  | clearRunning
  deriving DecidableEq, Repr

/-- The calls for a stream; a null pointer is `none`. -/
inductive StreamCall
  | popen (stream : Nat)
  | use (stream : Option Nat)
  | pclose (stream : Option Nat)
  deriving DecidableEq, Repr

/-- The signals that the thread sends. -/
inductive KillSignal
  | sigterm
  | sigkill
  deriving DecidableEq, Repr

/-- The variables of the thread, with the number of streams that there have been, the calls for
streams and the signals.
-/
structure OvsdbMon where
  pc : OvsdbMonPc
  running : Bool
  ovsdbConnDown : Bool
  cmdStdout : Option Nat
  ovsdbclientPid : Int
  streams : Nat
  calls : List StreamCall
  signals : List (KillSignal × Int)
  deriving DecidableEq, Repr

/-- The thread before its first statement. -/
def OvsdbMon.created : OvsdbMon := ⟨.clearStop, false, true, none, 0, 0, [], []⟩

/-- The thread goes on with another statement. -/
def OvsdbMon.goto (m : OvsdbMon) (pc : OvsdbMonPc) : OvsdbMon := { m with pc := pc }

/-- A call for a stream. -/
def OvsdbMon.call (m : OvsdbMon) (call : StreamCall) : OvsdbMon :=
  { m with calls := m.calls ++ [call] }

/-- `kill(ovsdbclient_pid, signal)`. -/
def OvsdbMon.send (m : OvsdbMon) (signal : KillSignal) : OvsdbMon :=
  { m with signals := m.signals ++ [(signal, m.ovsdbclientPid)] }

/-- The connection is given up: `pclose` follows. -/
def OvsdbMon.drop (m : OvsdbMon) : OvsdbMon := { m with pc := .dropConn, ovsdbConnDown := true }

/-- One statement of `ovsdb_mon_threadmain`. The polling loop ends with the first connection, and
its condition is that there is none.
-/
def ovsdbMonThreadmain (mustStop : Bool) (m : OvsdbMon) : OvsdbMonCall → Option (Bool × OvsdbMon)
  | .clearStop => if m.pc = .clearStop then some (false, m.goto .setRunning) else none
  | .setRunning =>
      if m.pc = .setRunning then some (mustStop, { m with pc := .testLoop, running := true })
      else none
  | .testLoop =>
      if m.pc = .testLoop then
        some (mustStop, m.goto (if m.running && !mustStop then
          if m.ovsdbConnDown then .pollSock else .checkSock
        else .terminate))
      else none
  | .checkOvsdbSock found =>
      match m.pc with
      | .pollSock => some (mustStop, m.goto (if found then .cleanOld else .sleep))
      | .checkSock => some (mustStop, if found then m.goto .select else m.drop)
      | _ => none
  | .cleanOld => if m.pc = .cleanOld then some (mustStop, m.goto .popen) else none
  | .popen ok =>
      if m.pc = .popen then
        some (mustStop,
          if ok then
            { m.call (.popen m.streams) with pc := .readPid m.streams, streams := m.streams + 1 }
          else { m with pc := .sleep, cmdStdout := none })
      else none
  | .readPid pid =>
      match m.pc with
      | .readPid stream =>
          some (mustStop,
            match pid with
            | some pid =>
                { m with
                  pc := .checkSock
                  ovsdbConnDown := false
                  cmdStdout := some stream
                  ovsdbclientPid := pid }
            | none => m.goto (.abandon stream))
      | _ => none
  | .pclose =>
      match m.pc with
      | .abandon stream =>
          some (mustStop, { m.call (.pclose (some stream)) with pc := .sleep, cmdStdout := none })
      | .dropConn => some (mustStop, (m.call (.pclose m.cmdStdout)).goto .testLoop)
      | .closeConn => some (mustStop, (m.call (.pclose m.cmdStdout)).goto .clearRunning)
      | _ => none
  | .sleep => if m.pc = .sleep then some (mustStop, m.goto .pollSock) else none
  | .select result =>
      if m.pc = .select then
        let used := m.call (.use m.cmdStdout)
        some (mustStop,
          match result with
          | .timeout | .unset => used.goto .testLoop
          | .error => used.drop
          | .ready => used.goto .parse)
      else none
  | .parseOvsdbClient =>
      if m.pc = .parse then some (mustStop, (m.call (.use m.cmdStdout)).goto .testLoop) else none
  | .kill =>
      match m.pc with
      | .terminate => some (mustStop, (m.send .sigterm).goto .kill)
      | .kill => some (mustStop, (m.send .sigkill).goto .unlink)
      | _ => none
  | .unlink =>
      if m.pc = .unlink then
        some (mustStop, m.goto (if m.ovsdbConnDown then .clearRunning else .closeConn))
      else none
  | .clearRunning =>
      if m.pc = .clearRunning then some (mustStop, { m with pc := .returned, running := false })
      else none

theorem ovsdbMonThreadmain_halts (mustStop : Bool) (m : OvsdbMon) (call : OvsdbMonCall)
    (returned : decide (m.pc = .returned) = true)
    : ovsdbMonThreadmain mustStop m call = none := by
  have pc := of_decide_eq_true returned
  cases call <;> simp [ovsdbMonThreadmain, pc]

/-- The monitor thread. -/
def ovsdbMonThread : TimedStop.Thread OvsdbMon OvsdbMonCall where
  step := ovsdbMonThreadmain
  ended m := m.pc = .returned
  halts := ovsdbMonThreadmain_halts

/-- The streams that are open after a call; `none` for a call that is an error. -/
def streamStep (live : List Nat) : StreamCall → Option (List Nat)
  | .popen stream => if stream ∈ live then none else some (stream :: live)
  | .use (some stream) => if stream ∈ live then some live else none
  | .pclose (some stream) => if stream ∈ live then some (live.erase stream) else none
  | .use none | .pclose none => none

/-- The PIDs that have been read. -/
def clientPids (executed : List OvsdbMonCall) : List Int :=
  executed.filterMap fun
    | .readPid pid => pid
    | _ => none

/-- The thread has looked for the database. -/
def Polled (executed : List OvsdbMonCall) : Prop := ∃ found, .checkOvsdbSock found ∈ executed

-----------------------------------------------------------------------------------------
-- The statements
-----------------------------------------------------------------------------------------

section Statements

variable {mustStop : Bool} {m : OvsdbMon} {call : OvsdbMonCall} {after : Bool × OvsdbMon}

/-- What a statement can do. -/
inductive OvsdbMon.Moved (mustStop : Bool) (m : OvsdbMon)
    : OvsdbMonCall → Bool × OvsdbMon → Prop
  | clearStop (here : m.pc = .clearStop)
    : m.Moved mustStop .clearStop (false, m.goto .setRunning)
  | setRunning (here : m.pc = .setRunning)
    : m.Moved mustStop .setRunning (mustStop, { m with pc := .testLoop, running := true })
  | enters (here : m.pc = .testLoop) (running : m.running = true) (going : mustStop = false)
    : m.Moved mustStop .testLoop
        (mustStop, m.goto (if m.ovsdbConnDown then .pollSock else .checkSock))
  | leaves (here : m.pc = .testLoop) (ends : m.running = false ∨ mustStop = true)
    : m.Moved mustStop .testLoop (mustStop, m.goto .terminate)
  | polls (here : m.pc = .pollSock) (found : Bool)
    : m.Moved mustStop (.checkOvsdbSock found)
        (mustStop, m.goto (if found then .cleanOld else .sleep))
  | stays (here : m.pc = .checkSock)
    : m.Moved mustStop (.checkOvsdbSock true) (mustStop, m.goto .select)
  | loses (here : m.pc = .checkSock)
    : m.Moved mustStop (.checkOvsdbSock false) (mustStop, m.drop)
  | cleanOld (here : m.pc = .cleanOld) : m.Moved mustStop .cleanOld (mustStop, m.goto .popen)
  | opens (here : m.pc = .popen)
    : m.Moved mustStop (.popen true)
        (mustStop,
          { m.call (.popen m.streams) with pc := .readPid m.streams, streams := m.streams + 1 })
  | refused (here : m.pc = .popen)
    : m.Moved mustStop (.popen false) (mustStop, { m with pc := .sleep, cmdStdout := none })
  | connects {stream : Nat} (here : m.pc = .readPid stream) (pid : Int)
    : m.Moved mustStop (.readPid (some pid))
        (mustStop,
          { m with
            pc := .checkSock
            ovsdbConnDown := false
            cmdStdout := some stream
            ovsdbclientPid := pid })
  | unread {stream : Nat} (here : m.pc = .readPid stream)
    : m.Moved mustStop (.readPid none) (mustStop, m.goto (.abandon stream))
  | abandons {stream : Nat} (here : m.pc = .abandon stream)
    : m.Moved mustStop .pclose
        (mustStop, { m.call (.pclose (some stream)) with pc := .sleep, cmdStdout := none })
  | drops (here : m.pc = .dropConn)
    : m.Moved mustStop .pclose (mustStop, (m.call (.pclose m.cmdStdout)).goto .testLoop)
  | closes (here : m.pc = .closeConn)
    : m.Moved mustStop .pclose (mustStop, (m.call (.pclose m.cmdStdout)).goto .clearRunning)
  | sleep (here : m.pc = .sleep) : m.Moved mustStop .sleep (mustStop, m.goto .pollSock)
  | selects (here : m.pc = .select) {result : SelectResult} {next : OvsdbMonPc}
    (leads : next = .testLoop ∨ next = .parse)
    : m.Moved mustStop (.select result) (mustStop, (m.call (.use m.cmdStdout)).goto next)
  | fails (here : m.pc = .select)
    : m.Moved mustStop (.select .error) (mustStop, (m.call (.use m.cmdStdout)).drop)
  | parses (here : m.pc = .parse)
    : m.Moved mustStop .parseOvsdbClient
        (mustStop, (m.call (.use m.cmdStdout)).goto .testLoop)
  | terminates (here : m.pc = .terminate)
    : m.Moved mustStop .kill (mustStop, (m.send .sigterm).goto .kill)
  | kills (here : m.pc = .kill)
    : m.Moved mustStop .kill (mustStop, (m.send .sigkill).goto .unlink)
  | unlink (here : m.pc = .unlink)
    : m.Moved mustStop .unlink
        (mustStop, m.goto (if m.ovsdbConnDown then .clearRunning else .closeConn))
  | clearRunning (here : m.pc = .clearRunning)
    : m.Moved mustStop .clearRunning (mustStop, { m with pc := .returned, running := false })

theorem OvsdbMon.moved_of_step (h : ovsdbMonThreadmain mustStop m call = some after)
    : m.Moved mustStop call after := by
  cases call with
  | clearStop =>
      obtain ⟨here, h⟩ := Option.ite_none_right_eq_some.mp h
      cases h
      exact .clearStop here
  | setRunning =>
      obtain ⟨here, h⟩ := Option.ite_none_right_eq_some.mp h
      cases h
      exact .setRunning here
  | testLoop =>
      obtain ⟨here, h⟩ := Option.ite_none_right_eq_some.mp h
      cases h
      by_cases going : (m.running && !mustStop) = true
      · rw [if_pos going]
        rw [Bool.and_eq_true, Bool.not_eq_true'] at going
        exact .enters here going.1 going.2
      · rw [if_neg going]
        refine .leaves here ?_
        cases running : m.running with
        | false => exact Or.inl rfl
        | true => exact Or.inr (by simpa [running] using going)
  | checkOvsdbSock found =>
      unfold ovsdbMonThreadmain at h
      dsimp only at h
      split at h
      · cases h
        exact .polls ‹_› found
      · cases h
        cases found with
        | true => exact .stays ‹_›
        | false => exact .loses ‹_›
      · cases h
  | cleanOld =>
      obtain ⟨here, h⟩ := Option.ite_none_right_eq_some.mp h
      cases h
      exact .cleanOld here
  | popen ok =>
      obtain ⟨here, h⟩ := Option.ite_none_right_eq_some.mp h
      cases h
      cases ok with
      | true => exact .opens here
      | false => exact .refused here
  | readPid pid =>
      unfold ovsdbMonThreadmain at h
      dsimp only at h
      split at h
      · cases h
        cases pid with
        | some pid => exact .connects ‹_› pid
        | none => exact .unread ‹_›
      · cases h
  | pclose =>
      unfold ovsdbMonThreadmain at h
      dsimp only at h
      split at h
      · cases h
        exact .abandons ‹_›
      · cases h
        exact .drops ‹_›
      · cases h
        exact .closes ‹_›
      · cases h
  | sleep =>
      obtain ⟨here, h⟩ := Option.ite_none_right_eq_some.mp h
      cases h
      exact .sleep here
  | select result =>
      obtain ⟨here, h⟩ := Option.ite_none_right_eq_some.mp h
      cases h
      cases result with
      | timeout | unset => exact .selects here (Or.inl rfl)
      | error => exact .fails here
      | ready => exact .selects here (Or.inr rfl)
  | parseOvsdbClient =>
      obtain ⟨here, h⟩ := Option.ite_none_right_eq_some.mp h
      cases h
      exact .parses here
  | kill =>
      unfold ovsdbMonThreadmain at h
      dsimp only at h
      split at h
      · cases h
        exact .terminates ‹_›
      · cases h
        exact .kills ‹_›
      · cases h
  | unlink =>
      obtain ⟨here, h⟩ := Option.ite_none_right_eq_some.mp h
      cases h
      exact .unlink here
  | clearRunning =>
      obtain ⟨here, h⟩ := Option.ite_none_right_eq_some.mp h
      cases h
      exact .clearRunning here

end Statements

-----------------------------------------------------------------------------------------
-- The streams
-----------------------------------------------------------------------------------------

section Streams

variable {mustStop : Bool} {m : OvsdbMon} {call : OvsdbMonCall} {after : Bool × OvsdbMon}
  {live : List Nat}

/-- The stream of the connection is open. -/
def OvsdbMon.Up (m : OvsdbMon) (live : List Nat) : Prop :=
  ∃ stream, m.cmdStdout = some stream ∧ live = [stream]

/-- The streams that are open at each statement. -/
def OvsdbMon.Holds (m : OvsdbMon) (live : List Nat) : Prop :=
  match m.pc with
  | .clearStop | .setRunning | .pollSock | .cleanOld | .popen | .sleep =>
      m.ovsdbConnDown = true ∧ live = []
  | .readPid stream | .abandon stream => m.ovsdbConnDown = true ∧ live = [stream]
  | .checkSock | .select | .parse | .closeConn => m.ovsdbConnDown = false ∧ m.Up live
  | .dropConn => m.ovsdbConnDown = true ∧ m.Up live
  | .testLoop | .terminate | .kill | .unlink =>
      m.ovsdbConnDown = true ∧ live = [] ∨ m.ovsdbConnDown = false ∧ m.Up live
  | .clearRunning | .returned => live = []

/-- All calls for streams so far were right, and leave open what the statement needs. -/
def OvsdbMon.Disciplined (m : OvsdbMon) : Prop :=
  ∃ live, run streamStep [] m.calls = some live ∧ m.Holds live

theorem OvsdbMon.Holds.length_le (h : m.Holds live) : live.length ≤ 1 := by
  have shape : live = [] ∨ ∃ stream, live = [stream] := by
    unfold Holds Up at h
    split at h <;> grind
  rcases shape with rfl | ⟨stream, rfl⟩ <;> simp

theorem run_call {next : List Nat} (known : run streamStep [] m.calls = some live)
    {call : StreamCall} (right : streamStep live call = some next)
    : run streamStep [] (m.call call).calls = some next := by
  rw [OvsdbMon.call, run_append, known, Option.bind_some, run, right]
  rfl

theorem streamStep_use (stream : Nat)
    : streamStep [stream] (.use (some stream)) = some [stream] := by
  simp [streamStep]

theorem streamStep_pclose (stream : Nat)
    : streamStep [stream] (.pclose (some stream)) = some [] := by
  simp [streamStep]

theorem OvsdbMon.Up.used (h : m.Up live) (known : run streamStep [] m.calls = some live)
    : run streamStep [] (m.call (.use m.cmdStdout)).calls = some live := by
  obtain ⟨stream, same, rfl⟩ := h
  rw [same]
  exact run_call known (streamStep_use stream)

theorem OvsdbMon.Up.closed (h : m.Up live) (known : run streamStep [] m.calls = some live)
    : run streamStep [] (m.call (.pclose m.cmdStdout)).calls = some [] := by
  obtain ⟨stream, same, rfl⟩ := h
  rw [same]
  exact run_call known (streamStep_pclose stream)

/-- Each statement finds its stream open. -/
theorem OvsdbMon.Disciplined.moved (h : m.Disciplined) (moved : m.Moved mustStop call after)
    : after.2.Disciplined := by
  obtain ⟨live, known, held⟩ := h
  cases moved with
  | clearStop here | leaves here _ | stays here | cleanOld here | refused here | unread here
    | sleep here | terminates here | kills here | clearRunning here =>
      simp only [Holds, here] at held
      exact ⟨live, known, held⟩
  | setRunning here =>
      simp only [Holds, here] at held
      exact ⟨live, known, Or.inl held⟩
  | enters here running going =>
      simp only [Holds, here] at held
      rcases held with ⟨down, none⟩ | ⟨up, opened⟩
      · rw [down]
        exact ⟨live, known, down, none⟩
      · rw [up]
        exact ⟨live, known, up, opened⟩
  | polls here found =>
      simp only [Holds, here] at held
      cases found <;> exact ⟨live, known, held⟩
  | loses here =>
      simp only [Holds, here] at held
      exact ⟨live, known, rfl, held.2⟩
  | opens here =>
      simp only [Holds, here] at held
      obtain ⟨down, rfl⟩ := held
      exact ⟨[m.streams], run_call known rfl, down, rfl⟩
  | connects here pid =>
      simp only [Holds, here] at held
      exact ⟨live, known, rfl, _, rfl, held.2⟩
  | abandons here =>
      simp only [Holds, here] at held
      obtain ⟨down, rfl⟩ := held
      exact ⟨[], run_call known (streamStep_pclose _), down, rfl⟩
  | drops here =>
      simp only [Holds, here] at held
      exact ⟨[], held.2.closed known, Or.inl ⟨held.1, rfl⟩⟩
  | closes here =>
      simp only [Holds, here] at held
      exact ⟨[], held.2.closed known, rfl⟩
  | selects here leads =>
      simp only [Holds, here] at held
      have used := held.2.used known
      rcases leads with rfl | rfl
      · exact ⟨live, used, Or.inr held⟩
      · exact ⟨live, used, held⟩
  | fails here =>
      simp only [Holds, here] at held
      exact ⟨live, held.2.used known, rfl, held.2⟩
  | parses here =>
      simp only [Holds, here] at held
      exact ⟨live, held.2.used known, Or.inr held⟩
  | unlink here =>
      simp only [Holds, here] at held
      rcases held with ⟨down, none⟩ | ⟨up, opened⟩
      · rw [down]
        exact ⟨live, known, none⟩
      · rw [up]
        exact ⟨live, known, up, opened⟩

end Streams

-----------------------------------------------------------------------------------------
-- The signals
-----------------------------------------------------------------------------------------

section Signals

variable {mustStop : Bool} {m : OvsdbMon} {call : OvsdbMonCall} {after : Bool × OvsdbMon}
  {executed : List OvsdbMonCall}

/-- The statements of the polling loop. -/
def OvsdbMonPc.polling : OvsdbMonPc → Bool
  | .pollSock | .cleanOld | .popen | .readPid _ | .abandon _ | .sleep => true
  | _ => false

/-- The signals that have been sent before a statement. -/
def sentBefore (pid : Int) : OvsdbMonPc → List (KillSignal × Int)
  | .kill => [(.sigterm, pid)]
  | .unlink | .closeConn | .clearRunning | .returned => [(.sigterm, pid), (.sigkill, pid)]
  | _ => []

/-- What the statements so far tell of the PID and of the signals. -/
structure OvsdbMon.Account (executed : List OvsdbMonCall) (m : OvsdbMon) : Prop where
  pid : m.ovsdbclientPid = (clientPids executed).getLastD 0
  signals : m.signals = sentBefore m.ovsdbclientPid m.pc
  up : m.ovsdbConnDown = false → clientPids executed ≠ []
  polling : Polled executed → clientPids executed = [] → m.pc.polling = true
  polled : m.pc.polling = true → m.pc = .pollSock ∨ Polled executed
  clients : clientPids executed ≠ [] → Polled executed

theorem clientPids_append (executed rest : List OvsdbMonCall)
    : clientPids (executed ++ rest) = clientPids executed ++ clientPids rest :=
  List.filterMap_append

theorem Polled.later (rest : List OvsdbMonCall) (h : Polled executed)
    : Polled (executed ++ rest) := by
  obtain ⟨found, member⟩ := h
  exact ⟨found, List.mem_append_left rest member⟩

/-- The account goes on over a statement that neither reads a PID nor looks for the database, and
that is outside of the polling loop, or in it after a first look.
-/
theorem OvsdbMon.Account.goes_on (h : m.Account executed) {next : OvsdbMon}
    (unread : clientPids [call] = []) (unchecked : ∀ found, call ≠ .checkOvsdbSock found)
    (pid : next.ovsdbclientPid = m.ovsdbclientPid)
    (signals : next.signals = sentBefore m.ovsdbclientPid next.pc)
    (up : next.ovsdbConnDown = false → m.ovsdbConnDown = false)
    (place : m.pc.polling = false ∧ (next.pc.polling = false ∨ next.pc = .pollSock)
      ∨ m.pc.polling = true ∧ m.pc ≠ .pollSock ∧ next.pc.polling = true)
    : next.Account (executed ++ [call]) := by
  have clients : clientPids (executed ++ [call]) = clientPids executed := by
    rw [clientPids_append, unread, List.append_nil]
  have same : Polled (executed ++ [call]) ↔ Polled executed := by
    refine ⟨fun looked => ?_, fun looked => looked.later _⟩
    obtain ⟨found, member⟩ := looked
    rcases List.mem_append.mp member with earlier | last
    · exact ⟨found, earlier⟩
    · exact absurd (List.mem_singleton.mp last).symm (unchecked found)
  constructor
  · rw [clients, pid, h.pid]
  · rw [pid, signals]
  · rw [clients]
    exact fun going => h.up (up going)
  · rw [clients, same]
    intro looked none
    rcases place with ⟨outside, _⟩ | ⟨_, _, inside⟩
    · rw [h.polling looked none] at outside
      cases outside
    · exact inside
  · rw [same]
    intro now
    rcases place with ⟨_, outside | first⟩ | ⟨inside, later, _⟩
    · rw [outside] at now
      cases now
    · exact Or.inl first
    · exact Or.inr ((h.polled inside).resolve_left later)
  · rw [clients, same]
    exact h.clients

/-- The account is kept by a look for the database, which has a connection before it or not. -/
theorem OvsdbMon.Account.checks (h : m.Account executed) {next : OvsdbMon} (found : Bool)
    (pid : next.ovsdbclientPid = m.ovsdbclientPid)
    (signals : next.signals = sentBefore m.ovsdbclientPid next.pc)
    (up : next.ovsdbConnDown = false → m.ovsdbConnDown = false)
    (polling : m.ovsdbConnDown = false ∨ next.pc.polling = true)
    : next.Account (executed ++ [.checkOvsdbSock found]) := by
  have clients : clientPids (executed ++ [.checkOvsdbSock found]) = clientPids executed := by
    rw [clientPids_append]
    exact List.append_nil _
  have looked : Polled (executed ++ [.checkOvsdbSock found]) :=
    ⟨found, List.mem_append_right _ List.mem_cons_self⟩
  constructor
  · rw [clients, pid, h.pid]
  · rw [pid, signals]
  · rw [clients]
    exact fun going => h.up (up going)
  · rw [clients]
    exact fun _ none => polling.resolve_left fun going => h.up going none
  · exact fun _ => Or.inr looked
  · exact fun _ => looked

/-- A PID is read after a look for the database. -/
theorem OvsdbMon.Account.reads (h : m.Account executed) {next : OvsdbMon} (pid : Int)
    (read : next.ovsdbclientPid = pid) (signals : next.signals = sentBefore pid next.pc)
    (inside : m.pc.polling = true) (later : m.pc ≠ .pollSock) (outside : next.pc.polling = false)
    : next.Account (executed ++ [.readPid (some pid)]) := by
  have clients : clientPids (executed ++ [.readPid (some pid)])
      = clientPids executed ++ [pid] := clientPids_append ..
  have some : clientPids (executed ++ [.readPid (some pid)]) ≠ [] := by
    rw [clients]
    exact List.append_ne_nil_of_right_ne_nil _ (List.cons_ne_nil _ _)
  constructor
  · rw [clients, List.getLastD_concat, read]
  · rw [read, signals]
  · exact fun _ => some
  · exact fun _ none => absurd none some
  · intro now
    rw [outside] at now
    cases now
  · exact fun _ => ((h.polled inside).resolve_left later).later _

/-- Every statement keeps the account. -/
theorem OvsdbMon.Account.moved (h : m.Account executed) (disciplined : m.Disciplined)
    (moved : m.Moved mustStop call after)
    : after.2.Account (executed ++ [call]) := by
  obtain ⟨live, known, held⟩ := disciplined
  have signals := h.signals
  cases moved with
  | clearStop here | setRunning here | leaves here | drops here | parses here =>
      rw [here] at signals
      exact h.goes_on rfl (fun _ => by simp) rfl signals id (Or.inl ⟨by rw [here]; rfl, Or.inl rfl⟩)
  | enters here running going =>
      rw [here] at signals
      refine h.goes_on rfl (fun _ => by simp) rfl ?_ id (Or.inl ⟨by rw [here]; rfl, ?_⟩)
      · refine signals.trans ?_
        cases down : m.ovsdbConnDown <;> simp [OvsdbMon.goto, down, sentBefore]
      · cases down : m.ovsdbConnDown with
        | true => exact Or.inr (by simp [OvsdbMon.goto, down])
        | false => exact Or.inl (by simp [OvsdbMon.goto, down, OvsdbMonPc.polling])
  | polls here found =>
      rw [here] at signals
      refine h.checks found rfl ?_ id (Or.inr ?_)
      · refine signals.trans ?_
        cases found <;> rfl
      · cases found <;> rfl
  | stays here =>
      rw [here] at signals
      simp only [OvsdbMon.Holds, here] at held
      exact h.checks true rfl signals id (Or.inl held.1)
  | loses here =>
      rw [here] at signals
      simp only [OvsdbMon.Holds, here] at held
      exact h.checks false rfl signals (fun up => by cases up) (Or.inl held.1)
  | cleanOld here | opens here | refused here | unread here | abandons here | sleep here =>
      rw [here] at signals
      exact h.goes_on rfl (fun _ => by simp) rfl signals id
        (Or.inr ⟨by rw [here]; rfl, by simp [here], rfl⟩)
  | connects here pid =>
      rw [here] at signals
      exact h.reads pid rfl signals (by rw [here]; rfl) (by simp [here]) rfl
  | closes here | clearRunning here =>
      rw [here] at signals
      exact h.goes_on rfl (fun _ => by simp) rfl signals id (Or.inl ⟨by rw [here]; rfl, Or.inl rfl⟩)
  | selects here leads =>
      rw [here] at signals
      have outside : m.pc.polling = false := by
        rw [here]
        rfl
      rcases leads with rfl | rfl <;>
        exact h.goes_on rfl (fun _ => by simp) rfl signals id (Or.inl ⟨outside, Or.inl rfl⟩)
  | fails here =>
      rw [here] at signals
      exact h.goes_on rfl (fun _ => by simp) rfl signals (fun up => by cases up)
        (Or.inl ⟨by rw [here]; rfl, Or.inl rfl⟩)
  | terminates here | kills here =>
      rw [here] at signals
      refine h.goes_on rfl (fun _ => by simp) rfl ?_ id (Or.inl ⟨by rw [here]; rfl, Or.inl rfl⟩)
      simp only [OvsdbMon.goto, OvsdbMon.send, signals]
      rfl
  | unlink here =>
      rw [here] at signals
      refine h.goes_on rfl (fun _ => by simp) rfl ?_ id (Or.inl ⟨by rw [here]; rfl, ?_⟩)
      · refine signals.trans ?_
        cases down : m.ovsdbConnDown <;> simp [OvsdbMon.goto, down, sentBefore]
      · cases down : m.ovsdbConnDown <;>
          exact Or.inl (by simp [OvsdbMon.goto, down, OvsdbMonPc.polling])

end Signals

-----------------------------------------------------------------------------------------
-- The stop
-----------------------------------------------------------------------------------------

section Stop

variable {trace : List (TimedStop.Event OvsdbMonCall)} {s : TimedStop.State OvsdbMon}

/-- The thread is past its loop, or would leave it on its own. -/
def OvsdbMon.Past (m : OvsdbMon) : Prop :=
  match m.pc with
  | .clearStop | .setRunning => False
  | .terminate | .kill | .unlink | .closeConn | .clearRunning | .returned => True
  | _ => m.running = false

/-- The thread obeys the flag: of its statements, only the first writes it, and the condition of
the loop reads it.
-/
theorem ovsdbMonThread_polls
    : TimedStop.Polls ovsdbMonThread (fun m => m.pc = .clearStop) OvsdbMon.Past where
  clears mustStop m call after starting stepped := by
    cases OvsdbMon.moved_of_step stepped with
    | clearStop here => exact ⟨rfl, id⟩
    | _ => simp_all
  keeps mustStop m call after later stepped := by
    cases OvsdbMon.moved_of_step stepped with
    | clearStop here => exact absurd here later
    | enters here | unlink here =>
        refine ⟨rfl, ?_⟩
        cases down : m.ovsdbConnDown <;> simp [OvsdbMon.goto, down]
    | polls here found =>
        refine ⟨rfl, ?_⟩
        cases found <;> simp [OvsdbMon.goto]
    | selects here leads =>
        refine ⟨rfl, ?_⟩
        rcases leads with rfl | rfl <;> simp [OvsdbMon.goto]
    | _ => simp [OvsdbMon.goto, OvsdbMon.drop]
  leaves mustStop m call after inside stepped past := by
    cases OvsdbMon.moved_of_step stepped with
    | leaves here ends =>
        simp only [OvsdbMon.Past, here] at inside
        exact ends.resolve_left inside
    | clearStop here => exact past.elim
    | setRunning here => cases past
    | enters here running going =>
        cases down : m.ovsdbConnDown <;>
          simp [OvsdbMon.Past, OvsdbMon.goto, down, running] at past
    | polls here found =>
        simp only [OvsdbMon.Past, here] at inside
        cases found <;> exact absurd past inside
    | selects here leads =>
        simp only [OvsdbMon.Past, here] at inside
        rcases leads with rfl | rfl <;> exact absurd past inside
    | stays here | loses here | cleanOld here | opens here | refused here | connects here pid
      | unread here | abandons here | drops here | sleep here | fails here | parses here =>
        simp only [OvsdbMon.Past, here] at inside
        exact absurd past inside
    | closes here | terminates here | kills here | unlink here | clearRunning here =>
        simp only [OvsdbMon.Past, here] at inside
        exact absurd trivial inside

/-- The streams and the account along every run of the two threads. -/
theorem ovsdbMonThread_run
    (reached : run ovsdbMonThread.next (.initial false .created) trace = some s)
    : s.thread.Disciplined ∧ s.thread.Account (TimedStop.statements trace) := by
  have disciplined : OvsdbMon.created.Disciplined := ⟨[], rfl, rfl, rfl⟩
  have account : OvsdbMon.created.Account [] := by
    refine ⟨rfl, rfl, fun up => ?_, fun looked => ?_, fun inside => ?_, fun some => absurd rfl some⟩
    · cases up
    · obtain ⟨_, member⟩ := looked
      cases member
    · cases inside
  refine TimedStop.thread_induct
    (P := fun executed _ (m : OvsdbMon) => m.Disciplined ∧ m.Account executed)
    ⟨disciplined, account⟩ (fun executed mustStop m call after known stepped => ?_)
    (fun _ _ _ known => known) reached
  have moved := OvsdbMon.moved_of_step stepped
  exact ⟨known.1.moved moved, known.2.moved known.1 moved⟩

/-- Before its first statement the thread is as it was created. -/
theorem ovsdbMonThread_created
    (reached : run ovsdbMonThread.next (.initial false .created) trace = some s)
    : TimedStop.statements trace = [] → s.thread = .created := by
  refine TimedStop.thread_induct
    (P := fun executed _ (m : OvsdbMon) => executed = [] → m = .created)
    (fun _ => rfl) (fun executed _ _ call _ _ _ none => ?_) (fun _ _ _ known => known) reached
  exact absurd none (List.append_ne_nil_of_right_ne_nil executed (List.cons_ne_nil call []))

/-- **The monitor of the database**: however the thread and its stop are interleaved and whatever
the calls answer, each stream is used and closed while it is open, at most one is open, and none
when the thread has returned. It then has sent both signals to the PID that it read last; it has
read none, and they go to PID 0, its own process group, if and only if it has never looked for the
database. The thread is joined twice if it ends in time and once after a cancellation, and it does
not return after a stop that came before its first statement.
-/
theorem ovsdb_monitor_outcome
    (reached : run ovsdbMonThread.next (.initial false .created) trace = some s)
    : (∃ live,
        run streamStep [] s.thread.calls = some live ∧ live.length ≤ 1
        ∧ (s.thread.pc = .returned → live = []))
      ∧ (s.thread.pc = .returned
        → ∃ pid,
            s.thread.signals = [(.sigterm, pid), (.sigkill, pid)]
            ∧ pid = (clientPids (TimedStop.statements trace)).getLastD 0
            ∧ (clientPids (TimedStop.statements trace) = []
              ↔ ¬ Polled (TimedStop.statements trace)))
      ∧ (s.stopper = .done
        → s.requested = false ∧ s.thread.pc = .returned ∧ s.joins = 2
          ∨ s.requested = true ∧ (s.thread.pc = .returned ∨ s.cancelled = true) ∧ s.joins = 1)
      ∧ ∀ before later,
          trace = before ++ .raise :: later → TimedStop.statements before = []
          → s.thread.pc ≠ .returned := by
  obtain ⟨disciplined, account⟩ := ovsdbMonThread_run reached
  refine ⟨?_, fun returned => ?_, fun done => ?_, fun before later split none returned => ?_⟩
  · obtain ⟨live, calls, held⟩ := disciplined
    refine ⟨live, calls, held.length_le, fun returned => ?_⟩
    simp only [OvsdbMon.Holds, returned] at held
    exact held
  · have signals := account.signals
    rw [returned] at signals
    refine ⟨_, signals, account.pid, fun unread looked => ?_, fun unseen => ?_⟩
    · have inside := account.polling looked unread
      rw [returned] at inside
      cases inside
    · by_contra read
      exact unseen (account.clients read)
  · simpa [ovsdbMonThread] using TimedStop.joined_of_done reached done
  · subst split
    rw [run_append] at reached
    obtain ⟨middle, early, rest⟩ := Option.bind_eq_some_iff.mp reached
    have created := ovsdbMonThread_created early none
    have inside := TimedStop.lost_stop ovsdbMonThread_polls (by rw [created]; rfl)
      (by rw [created]; exact id) rest
    simp only [OvsdbMon.Past, returned] at inside
    exact absurd trivial inside

/-- The thread connects, reads the PID and some output, and is then asked to stop. -/
def connectedStop : List (TimedStop.Event OvsdbMonCall) :=
  [.thread .clearStop, .thread .setRunning, .thread .testLoop, .thread (.checkOvsdbSock true),
    .thread .cleanOld, .thread (.popen true), .thread (.readPid (some 4711)),
    .thread (.checkOvsdbSock true), .thread (.select .ready), .thread .parseOvsdbClient, .raise,
    .thread .testLoop, .thread .kill, .thread .kill, .thread .unlink, .thread .pclose,
    .thread .clearRunning, .timedJoin true, .join]

/-- Witness: the client is signalled, and its stream is closed. -/
theorem connectedStop_signals_client
    : ∃ s,
        run ovsdbMonThread.next (.initial false .created) connectedStop = some s
        ∧ s.thread.signals = [(.sigterm, 4711), (.sigkill, 4711)]
        ∧ run streamStep [] s.thread.calls = some [] ∧ s.joins = 2 := by
  have reached : run ovsdbMonThread.next (.initial false .created) connectedStop
      = some ⟨⟨.returned, false, false, some 0, 4711, 1,
          [.popen 0, .use (some 0), .use (some 0), .pclose (some 0)],
          [(.sigterm, 4711), (.sigkill, 4711)]⟩, true, .done, false, false, 2⟩ := rfl
  obtain ⟨⟨live, open_, _, closed⟩, sent, joined, _⟩ := ovsdb_monitor_outcome reached
  obtain ⟨pid, signals, last, _⟩ := sent rfl
  refine ⟨_, reached, signals.trans ?_, open_.trans (congrArg some (closed rfl)), ?_⟩
  · rw [last]
    rfl
  · rcases joined rfl with ⟨_, _, two⟩ | ⟨asked, _⟩
    · exact two
    · cases asked

end Stop

end VirtioForwarder
