import VirtioForwarder.Library.CText
import VirtioForwarder.Library.Mutex
import VirtioForwarder.Library.Traces

/-! The PID file of `virtio_forwarder_main.c` and the processes that share it.
`create_daemon_file` opens or creates the file, takes its lock and writes the PID over what is
there; `virtiofwd_shutdown` removes the name. The lock belongs to the file and not to its name.
-/

namespace VirtioForwarder

open CText Mutex Traces

/-- What a process has come to, with the file that it has opened: before `open`, `lockf` and
`write` in `create_daemon_file`, in `main`, before `unlink` in `virtiofwd_shutdown`, after it,
and ended.
-/
inductive DaemonPhase
  | opening
  | locking (file : Nat)
  | writing (file : Nat)
  | running (file : Nat)
  | removing (file : Nat)
  | leaving (file : Nat)
  | gone
  deriving DecidableEq, Repr

/-- The calls of a process with their results, and its end, which may come at any time. Without
an error, `lockf` is refused exactly if another process has the lock; `write` writes the first
`count` bytes.
-/
inductive DaemonEvent
  | openFile (ok : Bool)
  | lockFile (ok : Bool)
  | writePid (count : Option Nat)
  | mainLoopEnds
  | removeFile
  | exit
  deriving DecidableEq, Repr

variable {ι : Type} [DecidableEq ι]

/-- The file system, and the processes with their `remove_pidfile`. -/
structure PidFiles (ι : Type) where
  pidfile : Option Nat
  nextFile : Nat
  content : Nat → List Char
  locks : Owners ι Nat
  phase : ι → DaemonPhase
  removePidfile : ι → Bool

/-- Nobody has been started. -/
def PidFiles.initial : PidFiles ι where
  pidfile := none
  nextFile := 0
  content _ := []
  locks _ := none
  phase _ := .opening
  removePidfile _ := true

/-- `snprintf(pid, 10, "%u\n", getpid())`. -/
def pidText (pid : Nat) : List Char := (decimalText pid ++ ['\n']).take 9

/-- The process goes on with another phase. -/
def PidFiles.goto (s : PidFiles ι) (p : ι) (next : DaemonPhase) : PidFiles ι :=
  { s with phase := Function.update s.phase p next }

/-- The end of a process, which gives up its locks. -/
def PidFiles.finish (s : PidFiles ι) (p : ι) : PidFiles ι :=
  { s with locks := fun file => if s.locks file = some p then none else s.locks file }.goto p .gone

/-- `create_daemon_file` fails and sets `remove_pidfile`, and `main` returns 1. -/
def PidFiles.fails (s : PidFiles ι) (p : ι) (mustRemove : Bool) : PidFiles ι :=
  { s with removePidfile := Function.update s.removePidfile p mustRemove }.finish p

/-- One call of `create_daemon_file`, `main` or `virtiofwd_shutdown`. -/
def PidFiles.step (pid : ι → Nat) (s : PidFiles ι) : ι × DaemonEvent → Option (PidFiles ι)
  | (p, event) =>
      match s.phase p, event with
      | .opening, .openFile true =>
          match s.pidfile with
          | some file => some (s.goto p (.locking file))
          | none =>
              some ({ s with
                pidfile := some s.nextFile
                nextFile := s.nextFile + 1
                content := Function.update s.content s.nextFile [] }.goto p (.locking s.nextFile))
      | .opening, .openFile false => some (s.fails p true)
      | .locking file, .lockFile true =>
          match tryLock s.locks file p with
          | (true, locks) => some ({ s with locks := locks }.goto p (.writing file))
          | (false, _) => some (s.fails p false)
      | .locking _, .lockFile false => some (s.fails p false)
      | .writing file, .writePid (some count) =>
          some ({ s with
            content := Function.update s.content file
              (overwrite (s.content file) ((pidText (pid p)).take count)) }.goto p (.running file))
      | .writing _, .writePid none => some (s.fails p true)
      | .running file, .mainLoopEnds => some (s.goto p (.removing file))
      | .removing file, .removeFile =>
          some ({ s with pidfile := if s.removePidfile p then none else s.pidfile }.goto p
            (.leaving file))
      | .gone, _ => none
      | _, .exit => some (s.finish p)
      | _, _ => none

/-- The file that a process has opened. -/
def DaemonPhase.file : DaemonPhase → Option Nat
  | .locking file | .writing file | .running file | .removing file | .leaving file => some file
  | .opening | .gone => none

/-- The file whose lock a process has. -/
def DaemonPhase.locked : DaemonPhase → Option Nat
  | .writing file | .running file | .removing file | .leaving file => some file
  | _ => none

/-- The file of a daemon at work, which has not removed it yet. -/
def DaemonPhase.active : DaemonPhase → Option Nat
  | .writing file | .running file | .removing file => some file
  | _ => none

/-- The file to which a daemon at work has written its PID. -/
def DaemonPhase.published : DaemonPhase → Option Nat
  | .running file | .removing file => some file
  | _ => none

/-- The lock is taken on the file that still has the name of the PID file, and the PID is written
as a whole.
-/
def PidFiles.Regular (pid : ι → Nat) (s : PidFiles ι) : ι × DaemonEvent → Prop
  | (p, .lockFile true) => s.pidfile = (s.phase p).file
  | (p, .writePid (some count)) => (pidText (pid p)).length ≤ count
  | _ => True

instance (pid : ι → Nat) (s : PidFiles ι) (a : ι × DaemonEvent) : Decidable (s.Regular pid a) :=
  match a with
  | (p, .lockFile true) => inferInstanceAs (Decidable (s.pidfile = (s.phase p).file))
  | (p, .writePid (some count)) => inferInstanceAs (Decidable ((pidText (pid p)).length ≤ count))
  | (_, .lockFile false) | (_, .writePid none) | (_, .openFile _) | (_, .mainLoopEnds)
  | (_, .removeFile) | (_, .exit) => .isTrue trivial

-----------------------------------------------------------------------------------------
-- What a step does
-----------------------------------------------------------------------------------------

section Steps

variable {pid : ι → Nat} {s s' : PidFiles ι} {p : ι} {event : DaemonEvent}

/-- The steps of a process, by what they do. -/
inductive PidFiles.Moved (pid : ι → Nat) (s : PidFiles ι) (p : ι)
    : DaemonEvent → PidFiles ι → Prop
  | opens {file : Nat} (before : s.phase p = .opening) (named : s.pidfile = some file)
    : Moved pid s p (.openFile true) (s.goto p (.locking file))
  | creates (before : s.phase p = .opening) (named : s.pidfile = none)
    : Moved pid s p (.openFile true)
        ({ s with
          pidfile := some s.nextFile
          nextFile := s.nextFile + 1
          content := Function.update s.content s.nextFile [] }.goto p (.locking s.nextFile))
  | locks {file : Nat} (before : s.phase p = .locking file) (free : s.locks file = none)
    : Moved pid s p (.lockFile true)
        ({ s with locks := Function.update s.locks file (some p) }.goto p (.writing file))
  | writes {file count : Nat} (before : s.phase p = .writing file)
    : Moved pid s p (.writePid (some count))
        ({ s with
          content := Function.update s.content file
            (overwrite (s.content file) ((pidText (pid p)).take count)) }.goto p (.running file))
  | stops {file : Nat} (before : s.phase p = .running file)
    : Moved pid s p .mainLoopEnds (s.goto p (.removing file))
  | removes {file : Nat} (before : s.phase p = .removing file)
    : Moved pid s p .removeFile
        ({ s with pidfile := if s.removePidfile p then none else s.pidfile }.goto p (.leaving file))
  | ends (event : DaemonEvent) {removePidfile : ι → Bool}
    (others : ∀ q ≠ p, removePidfile q = s.removePidfile q)
    : Moved pid s p event ({ s with removePidfile := removePidfile }.finish p)

/-- A process that ends gives up its locks, and only these. -/
theorem PidFiles.released {q : ι} {file : Nat}
    : (s.finish p).locks file = some q ↔ s.locks file = some q ∧ s.locks file ≠ some p := by
  change (if s.locks file = some p then none else s.locks file) = some q ↔ _
  split
  · rename_i mine
    exact ⟨nofun, fun held => absurd mine held.2⟩
  · rename_i other
    exact ⟨fun held => ⟨held, other⟩, fun held => held.1⟩

theorem PidFiles.moved_fails (event : DaemonEvent) (mustRemove : Bool)
    : s.Moved pid p event (s.fails p mustRemove) :=
  .ends event fun _ different => Function.update_of_ne different _ _

theorem PidFiles.moved_exit (event : DaemonEvent) : s.Moved pid p event (s.finish p) :=
  .ends event fun _ _ => rfl

theorem PidFiles.moved_of_step (h : s.step pid (p, event) = some s') : s.Moved pid p event s' := by
  unfold PidFiles.step at h
  dsimp only at h
  split at h
  · rename_i before
    split at h
    · cases h
      exact .opens before ‹_›
    · cases h
      exact .creates before ‹_›
  · cases h
    exact PidFiles.moved_fails _ _
  · rename_i file before
    cases free : s.locks file with
    | none =>
        rw [tryLock_free p free] at h
        cases h
        exact .locks before free
    | some holder =>
        rw [tryLock_taken p free] at h
        cases h
        exact PidFiles.moved_fails _ _
  · cases h
    exact PidFiles.moved_fails _ _
  · cases h
    exact .writes ‹_›
  · cases h
    exact PidFiles.moved_fails _ _
  · cases h
    exact .stops ‹_›
  · cases h
    exact .removes ‹_›
  · cases h
  · cases h
    exact PidFiles.moved_exit _
  · cases h

-----------------------------------------------------------------------------------------
-- Files, names and locks
-----------------------------------------------------------------------------------------

/-- How the phase of a process belongs to the files and locks. -/
structure PidFiles.Fits (s : PidFiles ι) (p : ι) (phase : DaemonPhase) : Prop where
  opened : ∀ file, phase.file = some file → file < s.nextFile
  locked : ∀ file, s.locks file = some p ↔ phase.locked = some file
  removed : ∀ file, phase = .leaving file → s.pidfile ≠ some file
  removePidfile : phase ≠ .gone → s.removePidfile p = true

/-- How files, names and locks belong together in every run. -/
structure PidFiles.Wellformed (s : PidFiles ι) : Prop where
  named : ∀ file, s.pidfile = some file → file < s.nextFile
  fits : ∀ p, s.Fits p (s.phase p)

omit [DecidableEq ι] in
theorem PidFiles.wellformed_initial : (PidFiles.initial : PidFiles ι).Wellformed :=
  ⟨nofun, fun _ => ⟨nofun, fun _ => ⟨nofun, nofun⟩, nofun, fun _ => rfl⟩⟩

/-- Every step keeps files, names and locks together. -/
theorem PidFiles.Wellformed.moved (h : s.Wellformed) (moved : s.Moved pid p event s')
    : s'.Wellformed := by
  have mine := h.fits p
  cases moved with
  | opens before named =>
      rw [before] at mine
      refine ⟨h.named, (Function.forall_update_iff _ _).mpr ⟨?_, fun q _ => ?_⟩⟩
      · refine ⟨fun f opened => ?_, mine.locked, nofun, fun _ => mine.removePidfile nofun⟩
        cases opened
        exact h.named _ named
      · have other := h.fits q
        exact ⟨other.opened, other.locked, other.removed, other.removePidfile⟩
  | creates before named =>
      rw [before] at mine
      refine ⟨fun f same => ?_, (Function.forall_update_iff _ _).mpr ⟨?_, fun q _ => ?_⟩⟩
      · cases same
        exact Nat.lt_succ_self _
      · refine ⟨fun f opened => ?_, mine.locked, nofun, fun _ => mine.removePidfile nofun⟩
        cases opened
        exact Nat.lt_succ_self _
      · have other := h.fits q
        refine ⟨fun f opened => Nat.lt_succ_of_lt (other.opened f opened), other.locked,
          fun f leaving same => ?_, other.removePidfile⟩
        cases same
        exact lt_irrefl _ (other.opened s.nextFile (by rw [leaving]; rfl))
  | @locks file before free =>
      rw [before] at mine
      refine ⟨h.named, (Function.forall_update_iff _ _).mpr ⟨?_, fun q different => ?_⟩⟩
      · refine ⟨mine.opened, fun f => ?_, nofun, fun _ => mine.removePidfile nofun⟩
        change Function.update s.locks file (some p) f = some p ↔ some file = some f
        rcases eq_or_ne f file with rfl | away
        · simp
        · rw [Function.update_of_ne away, mine.locked]
          exact ⟨nofun, fun same => absurd (Option.some.inj same).symm away⟩
      · have other := h.fits q
        refine ⟨other.opened, fun f => ?_, other.removed, other.removePidfile⟩
        change Function.update s.locks file (some p) f = some q ↔ _
        rcases eq_or_ne f file with rfl | away
        · rw [Function.update_self, ← other.locked, free]
          exact ⟨fun same => absurd (Option.some.inj same).symm different, nofun⟩
        · rw [Function.update_of_ne away]
          exact other.locked f
  | writes before =>
      rw [before] at mine
      refine ⟨h.named, (Function.forall_update_iff _ _).mpr ⟨?_, fun q _ => ?_⟩⟩
      · exact ⟨mine.opened, mine.locked, nofun, fun _ => mine.removePidfile nofun⟩
      · have other := h.fits q
        exact ⟨other.opened, other.locked, other.removed, other.removePidfile⟩
  | stops before =>
      rw [before] at mine
      refine ⟨h.named, (Function.forall_update_iff _ _).mpr ⟨?_, fun q _ => ?_⟩⟩
      · exact ⟨mine.opened, mine.locked, nofun, fun _ => mine.removePidfile nofun⟩
      · have other := h.fits q
        exact ⟨other.opened, other.locked, other.removed, other.removePidfile⟩
  | removes before =>
      rw [before] at mine
      have removes : s.removePidfile p = true := mine.removePidfile nofun
      rw [removes]
      refine ⟨nofun, (Function.forall_update_iff _ _).mpr ⟨?_, fun q _ => ?_⟩⟩
      · exact ⟨mine.opened, mine.locked, nofun, fun _ => removes⟩
      · have other := h.fits q
        exact ⟨other.opened, other.locked, nofun, other.removePidfile⟩
  | ends _ others =>
      refine ⟨h.named, (Function.forall_update_iff _ _).mpr ⟨?_, fun q different => ?_⟩⟩
      · refine ⟨nofun, fun f => ⟨fun held => ?_, nofun⟩, nofun, fun there => absurd rfl there⟩
        rw [PidFiles.released] at held
        exact absurd held.1 held.2
      · have other := h.fits q
        refine ⟨other.opened, fun f => ?_, other.removed, fun there => ?_⟩
        · rw [PidFiles.released, ← other.locked]
          refine ⟨fun held => held.1, fun held => ⟨held, fun same => different ?_⟩⟩
          exact Option.some.inj (held.symm.trans same)
        · exact (others q different).trans (other.removePidfile there)

-----------------------------------------------------------------------------------------
-- Daemons at work
-----------------------------------------------------------------------------------------

omit [DecidableEq ι] in
/-- Two processes that have a file locked are the same. -/
theorem PidFiles.Wellformed.unique (h : s.Wellformed) {q : ι} {file : Nat}
    (mine : (s.phase p).locked = some file) (other : (s.phase q).locked = some file)
    : p = q :=
  Option.some.inj
    ((((h.fits p).locked file).mpr mine).symm.trans (((h.fits q).locked file).mpr other))

theorem DaemonPhase.locked_of_active {phase : DaemonPhase} {file : Nat}
    (h : phase.active = some file)
    : phase.locked = some file := by
  cases phase <;> first | exact h | cases h

theorem DaemonPhase.active_of_published {phase : DaemonPhase} {file : Nat}
    (h : phase.published = some file)
    : phase.active = some file := by
  cases phase <;> first | exact h | cases h

theorem DaemonPhase.file_of_locked {phase : DaemonPhase} {file : Nat}
    (h : phase.locked = some file)
    : phase.file = some file := by
  cases phase <;> first | exact h | cases h

/-- What a reader takes for the PID. -/
def firstLine (text : List Char) : List Char := text.takeWhile (· ≠ '\n')

theorem firstLine_pidText {n : Nat} (small : n < 10 ^ 8) {count : Nat}
    (whole : (pidText n).length ≤ count) (before : List Char)
    : firstLine (overwrite before ((pidText n).take count)) = decimalText n := by
  have short : (decimalText n ++ ['\n']).length ≤ 9 := by
    have := decimalText_length_le (by decide) small
    rw [List.length_append, List.length_singleton]
    omega
  have text : pidText n = decimalText n ++ ['\n'] := List.take_of_length_le short
  have plain : ∀ digit < 10, (decide (hexDigit false digit ≠ '\n')) = true := by decide
  have digits : ∀ c ∈ decimalText n, (decide (c ≠ '\n')) = true := by
    intro c member
    obtain ⟨digit, below, rfl⟩ := mem_decimalText member
    exact plain digit below
  rw [List.take_of_length_le whole, text, overwrite, firstLine, List.append_assoc,
    List.takeWhile_append_of_pos digits]
  simp

/-- A daemon at work has the PID file that has the name, with its PID in it. -/
structure PidFiles.Owns (pid : ι → Nat) (s : PidFiles ι) (p : ι) (phase : DaemonPhase) : Prop where
  named : ∀ file, phase.active = some file → s.pidfile = some file
  text : ∀ file, phase.published = some file → firstLine (s.content file) = decimalText (pid p)

/-- Regular steps keep every daemon at work in possession of the PID file. -/
theorem PidFiles.owns_moved (small : ∀ p, pid p < 10 ^ 8) (h : s.Wellformed)
    (owns : ∀ p, s.Owns pid p (s.phase p)) (regular : s.Regular pid (p, event))
    (moved : s.Moved pid p event s')
    : ∀ q, s'.Owns pid q (s'.phase q) := by
  cases moved with
  | opens before named =>
      refine (Function.forall_update_iff _ _).mpr ⟨⟨nofun, nofun⟩, fun q _ => ?_⟩
      exact ⟨(owns q).named, (owns q).text⟩
  | creates before unnamed =>
      refine (Function.forall_update_iff _ _).mpr ⟨⟨nofun, nofun⟩, fun q _ => ⟨?_, ?_⟩⟩
      · intro f active
        have named := (owns q).named f active
        rw [unnamed] at named
        cases named
      · intro f published
        have named := (owns q).named f (DaemonPhase.active_of_published published)
        rw [unnamed] at named
        cases named
  | @locks file before free =>
      refine (Function.forall_update_iff _ _).mpr ⟨⟨fun f active => ?_, nofun⟩, fun q _ => ?_⟩
      · cases active
        have same : s.pidfile = (s.phase p).file := regular
        rwa [before] at same
      · exact ⟨(owns q).named, (owns q).text⟩
  | @writes file count before =>
      have named : s.pidfile = some file := (owns p).named file (by rw [before]; rfl)
      have mine : (s.phase p).locked = some file := by rw [before]; rfl
      refine (Function.forall_update_iff _ _).mpr ⟨⟨fun f active => ?_, fun f published => ?_⟩,
        fun q different => ⟨(owns q).named, fun f published => ?_⟩⟩
      · cases active
        exact named
      · cases published
        change firstLine (Function.update s.content file _ file) = _
        rw [Function.update_self]
        exact firstLine_pidText (small p) regular _
      · have held := DaemonPhase.locked_of_active (DaemonPhase.active_of_published published)
        have away : f ≠ file := by
          rintro rfl
          exact different (h.unique held mine)
        change firstLine (Function.update s.content file _ f) = _
        rw [Function.update_of_ne away]
        exact (owns q).text f published
  | stops before =>
      have mine := owns p
      rw [before] at mine
      refine (Function.forall_update_iff _ _).mpr ⟨⟨mine.named, mine.text⟩, fun q _ => ?_⟩
      exact ⟨(owns q).named, (owns q).text⟩
  | @removes file before =>
      have named : s.pidfile = some file := (owns p).named file (by rw [before]; rfl)
      refine (Function.forall_update_iff _ _).mpr ⟨⟨nofun, nofun⟩, fun q different => ?_⟩
      -- nobody else is at work while this process still has the name
      have idle (f : Nat) (active : (s.phase q).active = some f) : False := by
        have same : f = file := Option.some.inj (((owns q).named f active).symm.trans named)
        refine different (h.unique (DaemonPhase.locked_of_active active) ?_)
        rw [before, same]
        rfl
      exact ⟨fun f active => (idle f active).elim,
        fun f published => (idle f (DaemonPhase.active_of_published published)).elim⟩
  | ends _ _ =>
      refine (Function.forall_update_iff _ _).mpr ⟨⟨nofun, nofun⟩, fun q _ => ?_⟩
      exact ⟨(owns q).named, (owns q).text⟩

end Steps

section Runs

variable {pid : ι → Nat} {s : PidFiles ι} {trace : List (ι × DaemonEvent)} {p : ι}

theorem PidFiles.wellformed_run (reached : run (PidFiles.step pid) .initial trace = some s)
    : s.Wellformed :=
  run_induct (P := fun _ s => PidFiles.Wellformed s) PidFiles.wellformed_initial
    (fun _ s a s' known stepped =>
      known.moved (PidFiles.moved_of_step stepped : s.Moved pid a.1 a.2 s')) reached

theorem PidFiles.owns_run (small : ∀ p, pid p < 10 ^ 8)
    (reached : run (guarded (PidFiles.Regular pid) (PidFiles.step pid)) .initial trace = some s)
    : s.Wellformed ∧ ∀ p, s.Owns pid p (s.phase p) := by
  refine run_induct (P := fun _ s => PidFiles.Wellformed s ∧ ∀ p, s.Owns pid p (s.phase p))
    ⟨PidFiles.wellformed_initial, fun _ => ⟨nofun, nofun⟩⟩
    (fun _ s a s' known stepped => ?_) reached
  obtain ⟨regular, stepped⟩ := guarded_eq_some.mp stepped
  have moved : s.Moved pid a.1 a.2 s' := PidFiles.moved_of_step stepped
  exact ⟨known.1.moved moved, PidFiles.owns_moved small known.1 known.2 regular moved⟩

/-- A daemon is at work. -/
def PidFiles.Works (s : PidFiles ι) (p : ι) : Prop := (s.phase p).active.isSome = true

theorem PidFiles.goto_phase (s : PidFiles ι) (p : ι) (next : DaemonPhase)
    : (s.goto p next).phase p = next :=
  Function.update_self ..

theorem PidFiles.works_goto {q : ι} {next : DaemonPhase} (different : p ≠ q)
    : (s.goto q next).Works p ↔ s.Works p := by
  have same : (s.goto q next).phase p = s.phase p := Function.update_of_ne different _ _
  rw [PidFiles.Works, same, PidFiles.Works]

omit [DecidableEq ι] in
/-- A process that has a file locked and has not removed its name is at work. -/
theorem PidFiles.Wellformed.works (h : s.Wellformed) {file : Nat}
    (held : (s.phase p).locked = some file) (named : s.pidfile = some file)
    : s.Works p := by
  have removed := (h.fits p).removed file
  unfold PidFiles.Works
  cases phase : s.phase p with
  | writing | running | removing => rfl
  | leaving f =>
      rw [phase] at held
      cases held
      exact absurd named (removed phase)
  | opening | locking | gone =>
      rw [phase] at held
      cases held

theorem PidFiles.step_opens {file : Nat} (before : s.phase p = .opening)
    (named : s.pidfile = some file)
    : s.step pid (p, .openFile true) = some (s.goto p (.locking file)) := by
  simp only [PidFiles.step, before, named]

theorem PidFiles.step_creates (before : s.phase p = .opening) (unnamed : s.pidfile = none)
    : s.step pid (p, .openFile true)
      = some ({ s with
          pidfile := some s.nextFile
          nextFile := s.nextFile + 1
          content := Function.update s.content s.nextFile [] }.goto p (.locking s.nextFile)) := by
  simp only [PidFiles.step, before, unnamed]

theorem PidFiles.step_locks {file : Nat} (before : s.phase p = .locking file)
    (free : s.locks file = none)
    : s.step pid (p, .lockFile true)
      = some ({ s with locks := Function.update s.locks file (some p) }.goto p (.writing file)) := by
  simp only [PidFiles.step, before, tryLock_free p free]

theorem PidFiles.step_refused {file : Nat} {holder : ι} (before : s.phase p = .locking file)
    (taken : s.locks file = some holder)
    : s.step pid (p, .lockFile true) = some (s.fails p false) := by
  simp only [PidFiles.step, before, tryLock_taken p taken]

/-- While a daemon works on another file than the named one, whoever tries to lock that one finds
another daemon at work or becomes one.
-/
theorem PidFiles.Wellformed.lock_finds_work (h : s.Wellformed) {file other : Nat}
    (active : (s.phase p).active = some file) (named : s.pidfile = some other)
    (away : other ≠ file) {q : ι} (locking : s.phase q = .locking other)
    : ∃ s' r, s.step pid (q, .lockFile true) = some s' ∧ r ≠ p ∧ s'.Works r ∧ s'.Works p := by
  have mine : s.Works p := by rw [PidFiles.Works, active]; rfl
  have different : p ≠ q := by
    rintro rfl
    rw [locking] at active
    cases active
  cases taken : s.locks other with
  | none =>
      refine ⟨_, q, PidFiles.step_locks locking taken, different.symm, ?_,
        (PidFiles.works_goto different).mpr mine⟩
      rw [PidFiles.Works, PidFiles.goto_phase]
      rfl
  | some r =>
      have held := ((h.fits r).locked other).mp taken
      have distinct : r ≠ q := by
        rintro rfl
        rw [locking] at held
        cases held
      refine ⟨_, r, PidFiles.step_refused locking taken, ?_,
        (PidFiles.works_goto distinct).mpr (h.works held named),
        (PidFiles.works_goto different).mpr mine⟩
      rintro rfl
      exact away (Option.some.inj (held.symm.trans (DaemonPhase.locked_of_active active)))

/-- Once a daemon works on a file without the name, the next process that is started finds
another daemon at work or becomes one.
-/
theorem PidFiles.Wellformed.two_at_work (h : s.Wellformed) {file : Nat}
    (active : (s.phase p).active = some file) (unnamed : s.pidfile ≠ some file) {q : ι}
    (starts : s.phase q = .opening)
    : ∃ s' r, run (PidFiles.step pid) s [(q, .openFile true), (q, .lockFile true)] = some s'
        ∧ r ≠ p ∧ s'.Works r ∧ s'.Works p := by
  have different : p ≠ q := by
    rintro rfl
    rw [starts] at active
    cases active
  -- the process opens the file that has the name, or creates one
  have opens : ∃ opened other, s.step pid (q, .openFile true) = some opened
      ∧ opened.pidfile = some other ∧ other ≠ file ∧ opened.phase q = .locking other
      ∧ opened.phase p = s.phase p := by
    cases named : s.pidfile with
    | none =>
        have below := (h.fits p).opened file
          (DaemonPhase.file_of_locked (DaemonPhase.locked_of_active active))
        exact ⟨_, s.nextFile, PidFiles.step_creates starts named, rfl, below.ne',
          PidFiles.goto_phase .., Function.update_of_ne different _ _⟩
    | some other =>
        exact ⟨_, other, PidFiles.step_opens starts named, named,
          fun same => unnamed (same ▸ named), PidFiles.goto_phase ..,
          Function.update_of_ne different _ _⟩
  obtain ⟨opened, other, first, named, away, locking, same⟩ := opens
  have wellformed := h.moved (PidFiles.moved_of_step first)
  obtain ⟨s', r, second, distinct, work⟩ :=
    @PidFiles.Wellformed.lock_finds_work _ _ pid _ _ wellformed _ _ (same ▸ active) named away _
      locking
  refine ⟨s', r, ?_, distinct, work⟩
  rw [run, first, Option.bind_some, run, second]
  rfl

end Runs

/-- **One daemon per PID file**: as long as every process takes the lock on the file that still has
the name of the PID file, at most one daemon is at work, and the first line of the named file is
its PID. Once a process has taken the lock on a file that has been removed since it was opened, and
works on, the next process that is started finds two daemons at work or is the second one.
-/
theorem one_daemon_per_pid_file (pid : ι → Nat) (small : ∀ p, pid p < 10 ^ 8)
    : (∀ trace s,
        run (guarded (PidFiles.Regular pid) (PidFiles.step pid)) .initial trace = some s
        → (∀ p q, s.Works p → s.Works q → p = q)
          ∧ ∀ p file, (s.phase p).published = some file
            → s.pidfile = some file ∧ firstLine (s.content file) = decimalText (pid p))
      ∧ ∀ trace (s : PidFiles ι) p file q,
          run (PidFiles.step pid) .initial trace = some s
          → (s.phase p).active = some file
          → s.pidfile ≠ some file
          → s.phase q = .opening
          → ∃ s' r, run (PidFiles.step pid) s [(q, .openFile true), (q, .lockFile true)] = some s'
              ∧ r ≠ p ∧ s'.Works r ∧ s'.Works p := by
  refine ⟨fun trace s reached => ?_, fun trace s p file q reached active unnamed starts => ?_⟩
  · obtain ⟨wellformed, owns⟩ := PidFiles.owns_run small reached
    refine ⟨fun p q hp hq => ?_, fun p file published => ?_⟩
    · obtain ⟨f, mine⟩ := Option.isSome_iff_exists.mp hp
      obtain ⟨g, other⟩ := Option.isSome_iff_exists.mp hq
      have same : f = g :=
        Option.some.inj (((owns p).named f mine).symm.trans ((owns q).named g other))
      subst same
      exact wellformed.unique (DaemonPhase.locked_of_active mine) (DaemonPhase.locked_of_active other)
    · exact ⟨(owns p).named file (DaemonPhase.active_of_published published),
        (owns p).text file published⟩
  · exact (PidFiles.wellformed_run reached).two_at_work active unnamed starts

/-- Witness: a process opens the file just before the old daemon removes it, and locks it after
the old daemon has ended.
-/
theorem two_daemons_after_removed_file
    : ∃ (s s' : PidFiles (Fin 3)) (r : Fin 3),
        run (PidFiles.step fun p : Fin 3 => 100 + p) .initial
          [(0, .openFile true), (0, .lockFile true), (0, .writePid (some 4)), (0, .mainLoopEnds),
            (1, .openFile true), (0, .removeFile), (0, .exit), (1, .lockFile true)] = some s
        ∧ run (PidFiles.step fun p : Fin 3 => 100 + p) s [(2, .openFile true), (2, .lockFile true)]
          = some s'
        ∧ r ≠ 1 ∧ s'.Works r ∧ s'.Works 1 := by
  have reached : ((run (PidFiles.step fun p : Fin 3 => 100 + p) .initial
      [(0, .openFile true), (0, .lockFile true), (0, .writePid (some 4)), (0, .mainLoopEnds),
        (1, .openFile true), (0, .removeFile), (0, .exit), (1, .lockFile true)]).any fun s =>
      (s.phase 1).active = some 0 && s.pidfile = none && s.phase 2 = .opening) = true := by
    decide +kernel
  obtain ⟨s, reached, found⟩ := (Option.any_eq_true _ _).mp reached
  simp only [Bool.and_eq_true, decide_eq_true_eq] at found
  obtain ⟨⟨active, unnamed⟩, starts⟩ := found
  obtain ⟨s', r, joined⟩ := (one_daemon_per_pid_file (fun p : Fin 3 => 100 + p) (by decide)).2 _ s 1
    0 2 reached active (by rw [unnamed]; exact nofun) starts
  exact ⟨s, s', r, reached, joined⟩

end VirtioForwarder
