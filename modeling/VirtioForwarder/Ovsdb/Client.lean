import VirtioForwarder.Ovsdb.Parser

/-! The loop of `parse_ovsdb_client`: rows are cut out of what `read` returns and taken apart.
However the output is split into reads, the rows that fit into the buffer are passed on in
order.
-/

namespace VirtioForwarder

open CText

/-- `MAX_READ`. -/
def maxRead : Nat := 65535

/-- What `process_external_ids` is called with for a row. -/
structure RowCall where
  action : List Char
  name : List Char
  portConfig : PortConfig
  deriving DecidableEq, Repr

/-- The arrays that a row is taken apart into. -/
structure RowBuffers where
  tmp : List Char
  action : List Char
  name : List Char
  deriving DecidableEq, Repr

/-- Take the row at the beginning of `buf` apart; `val` is what the array of that name holds
when `parse_map` is called.
-/
def parseRow (val buf : List Char) (buffers : RowBuffers) : RowCall × RowBuffers :=
  let (pos, tmp) := extractField buf 0 buffers.tmp
  let (pos, action) := extractField buf pos buffers.action
  let (pos, name) := extractField buf pos buffers.name
  let name := unquote name
  let (_, tmp) := extractField buf pos tmp
  (⟨cString action, cString name, parseMap val tmp⟩, ⟨tmp, action, name⟩)

/-- The variables of `parse_ovsdb_client`, and the calls of `process_external_ids` so far. -/
structure ClientReader where
  buf : List Char
  remain : Nat
  buffers : RowBuffers
  calls : List RowCall
  deriving DecidableEq, Repr

/-- The inner loop: every row that is complete is passed on unless it is empty, and what follows
it is moved to the beginning of `buf`. The bound is for the iterations; `stack` is what `val`
holds at each call.
-/
def ClientReader.readRows (stack : Nat → List Char) : Nat → ClientReader → ClientReader
  | 0, reader => reader
  | n + 1, reader =>
      match cutAt '\n' (cString reader.buf) with
      | none => reader
      | some (row, _) =>
          let buf := reader.buf.set row.length '\x00'
          let rest := cString (reader.buf.drop (row.length + 1))
          let moved := { reader with
            buf := overwrite buf (rest ++ ['\x00'])
            remain := rest.length }
          if row = [] then readRows stack n moved
          else
            let (call, buffers) := parseRow (stack reader.calls.length) buf reader.buffers
            readRows stack n { moved with buffers := buffers, calls := reader.calls ++ [call] }

/-- The output of `ovsdb-client` that has not been read yet, and how much the next calls of
`read` are ready to return.
-/
structure Pipe where
  pending : List Char
  sizes : List Nat
  deriving DecidableEq, Repr

/-- `read`: at least one byte while there are any, and no more than there is space for. -/
def Pipe.read (pipe : Pipe) (space : Nat) : List Char × Pipe :=
  let count := min space (max 1 (pipe.sizes.headD 1))
  (pipe.pending.take count, ⟨pipe.pending.drop count, pipe.sizes.tail⟩)

/-- The rest of a long row is read byte by byte; `none` if the output ends before the row. -/
def skipRow : List Char → List Nat → Option Pipe
  | [], _ => none
  | c :: rest, sizes => if c = '\n' then some ⟨rest, sizes.tail⟩ else skipRow rest sizes.tail

/-- What is done with the bytes of one `read`, which stand behind those that remained. -/
def ClientReader.receive (stack : Nat → List Char) (reader : ClientReader) (chunk : List Char)
    : ClientReader :=
  let len := reader.remain + chunk.length
  readRows stack len { reader with
    buf := reader.buf.take reader.remain
      ++ overwrite (reader.buf.drop reader.remain) (chunk ++ ['\x00'])
    remain := len }

/-- The outer loop, with a bound for its iterations. -/
def ClientReader.readAll (stack : Nat → List Char) : Nat → Pipe → ClientReader → ClientReader
  | 0, _, reader => reader
  | n + 1, pipe, reader =>
      let (chunk, pipe) := pipe.read (maxRead - reader.remain - 1)
      if chunk = [] then reader
      else
        let reader := reader.receive stack chunk
        if reader.remain = maxRead - 1 then
          match skipRow pipe.pending pipe.sizes with
          | none => reader
          | some pipe =>
              readAll stack n pipe { reader with buf := overwrite reader.buf ['\n'], remain := 0 }
        else readAll stack n pipe reader

/-- The calls that `parse_ovsdb_client` makes until the output ends, given what its arrays hold
at first.
-/
def clientCalls (stack : Nat → List Char) (pipe : Pipe) (buf : List Char) (buffers : RowBuffers)
    : List RowCall :=
  (ClientReader.readAll stack (pipe.pending.length + 1) pipe ⟨buf, 0, buffers, []⟩).calls

/-- The row leads to the call whatever follows it in `buf` and was left in the arrays. -/
def Isolated (row : List Char) (call : RowCall) : Prop :=
  ∀ val following buffers, (parseRow val (row ++ '\x00' :: following) buffers).1 = call

/-- A row that can be cut out: it has neither a newline nor a zero byte. -/
def PlainRow (row : List Char) : Prop := '\n' ∉ row ∧ '\x00' ∉ row

/-- The rows that are passed on. -/
def passedOn (row : List Char) : Bool := row ≠ [] ∧ row.length < maxRead - 1

section Chunks

variable (stack : Nat → List Char) {call : List Char → RowCall}

theorem zero_not_mem_unlines {rows : List (List Char)} (plain : ∀ row ∈ rows, PlainRow row)
    : '\x00' ∉ unlines rows := by
  intro member
  rcases mem_unlines member with newline | ⟨row, found, member⟩
  · cases newline
  · exact (plain row found).2 member

/-- One iteration of the inner loop. -/
theorem ClientReader.readRows_row {row rest stale : List Char} (n : Nat) {reader : ClientReader}
    (plain : PlainRow row) (ends : '\x00' ∉ rest)
    (buf : reader.buf = row ++ '\n' :: (rest ++ '\x00' :: stale))
    (isolated : row ≠ [] → Isolated row (call row))
    : ∃ left buffers,
        reader.readRows stack (n + 1)
          = ClientReader.readRows stack n ⟨rest ++ '\x00' :: left, rest.length, buffers,
              reader.calls ++ ([row].filter (· ≠ [])).map call⟩ := by
  obtain ⟨memory, remain, buffers, calls⟩ := reader
  subst buf
  have text : cString (row ++ '\n' :: (rest ++ '\x00' :: stale)) = row ++ '\n' :: rest := by
    have whole : '\x00' ∉ row ++ '\n' :: rest := by simp [plain.2, ends]
    have found := cString_append stale whole
    rwa [List.append_assoc] at found
  have cut : cutAt '\n' (row ++ '\n' :: rest) = some (row, rest) := cutAt_append rest plain.1
  have marked : (row ++ '\n' :: (rest ++ '\x00' :: stale)).set row.length '\x00'
      = row ++ '\x00' :: (rest ++ '\x00' :: stale) := by simp
  have following : cString ((row ++ '\n' :: (rest ++ '\x00' :: stale)).drop (row.length + 1))
      = rest := by
    rw [List.drop_length_add_append, List.drop_succ_cons, List.drop_zero,
      cString_append stale ends]
  simp only [readRows, text, cut, marked, following, overwrite_string]
  by_cases blank : row = []
  · rw [if_pos blank]
    exact ⟨_, buffers, by simp [blank]; rfl⟩
  · rw [if_neg blank, isolated blank (stack calls.length) _ buffers]
    exact ⟨_, _, by simp [blank]; rfl⟩

/-- Complete rows in `buf` are passed on in order, and the part of a row that follows them is
kept. By induction on the rows.
-/
theorem ClientReader.readRows_calls {rows : List (List Char)} {part stale : List Char} {n : Nat}
    {reader : ClientReader} (bound : rows.length ≤ n)
    (plain : ∀ row ∈ rows, PlainRow row) (plainPart : PlainRow part)
    (isolated : ∀ row ∈ rows, row ≠ [] → Isolated row (call row))
    (buf : reader.buf = unlines rows ++ part ++ '\x00' :: stale)
    (remain : reader.remain = (unlines rows ++ part).length)
    : ∃ left buffers,
        reader.readRows stack n
          = ⟨part ++ '\x00' :: left, part.length, buffers,
              reader.calls ++ (rows.filter (· ≠ [])).map call⟩ := by
  induction rows generalizing n reader stale with
  | nil =>
      obtain ⟨memory, size, buffers, calls⟩ := reader
      simp only [unlines_nil, List.nil_append] at buf remain
      subst buf remain
      refine ⟨stale, buffers, ?_⟩
      have none : cutAt '\n' (cString (part ++ '\x00' :: stale)) = none := by
        rw [cString_append stale plainPart.2]
        exact cutAt_eq_none plainPart.1
      cases n with
      | zero => simp [readRows]
      | succ n => simp [readRows, none]
  | cons row rows ih =>
      obtain ⟨n, rfl⟩ := Nat.exists_eq_add_of_le' (Nat.one_le_of_lt bound)
      have later : ∀ row ∈ rows, PlainRow row :=
        fun row member => plain row (List.mem_cons_of_mem _ member)
      have ends : '\x00' ∉ unlines rows ++ part := by
        rw [List.mem_append, not_or]
        exact ⟨zero_not_mem_unlines later, plainPart.2⟩
      have here : reader.buf = row ++ '\n' :: (unlines rows ++ part ++ '\x00' :: stale) := by
        simpa using buf
      obtain ⟨left, buffers, step⟩ := ClientReader.readRows_row stack n
        (plain row List.mem_cons_self) ends here (isolated row List.mem_cons_self)
      obtain ⟨last, arrays, whole⟩ := @ih left n
        ⟨_, _, buffers, reader.calls ++ ([row].filter (· ≠ [])).map call⟩
        (Nat.le_of_succ_le_succ bound) later
        (fun row member => isolated row (List.mem_cons_of_mem _ member)) rfl rfl
      refine ⟨last, arrays, ?_⟩
      rw [step, whole]
      simp only [List.append_assoc, ← List.map_append, ← List.filter_append, List.singleton_append]

theorem skipRow_of_newline {more : List Char} (rest : List Char) (sizes : List Nat)
    (free : '\n' ∉ more)
    : ∃ left, skipRow (more ++ '\n' :: rest) sizes = some ⟨rest, left⟩ := by
  induction more generalizing sizes with
  | nil => exact ⟨sizes.tail, rfl⟩
  | cons c more ih =>
      rw [List.mem_cons, not_or] at free
      obtain ⟨left, skipped⟩ := ih sizes.tail free.2
      exact ⟨left, by simpa [skipRow, Ne.symm free.1] using skipped⟩

theorem Pipe.read_splits (pipe : Pipe) (space : Nat) (room : 0 < space)
    : (pipe.read space).1 ++ (pipe.read space).2.pending = pipe.pending
      ∧ (pipe.read space).1.length ≤ space
      ∧ ((pipe.read space).1 = [] → pipe.pending = []) := by
  refine ⟨List.take_append_drop _ _, ?_, fun nothing => ?_⟩
  · simp only [Pipe.read, List.length_take]
    omega
  · rcases List.take_eq_nil_iff.mp nothing with zero | ended
    · omega
    · exact ended

/-- What a `read` brings is cut into rows; the part of a row at its end remains. -/
theorem ClientReader.receive_calls {rows : List (List Char)} {part chunk stale : List Char}
    {reader : ClientReader} {text : List Char} (text_eq : part ++ chunk = unlines rows ++ text)
    (plain : ∀ row ∈ rows, PlainRow row) (plainText : PlainRow text)
    (isolated : ∀ row ∈ rows, row ≠ [] → Isolated row (call row))
    (buf : reader.buf = part ++ stale) (remain : reader.remain = part.length)
    : ∃ left buffers,
        reader.receive stack chunk
          = ⟨text ++ '\x00' :: left, text.length, buffers,
              reader.calls ++ (rows.filter (· ≠ [])).map call⟩ := by
  obtain ⟨memory, size, buffers, calls⟩ := reader
  subst buf remain
  have stored : (part ++ stale).take part.length
      ++ overwrite ((part ++ stale).drop part.length) (chunk ++ ['\x00'])
      = unlines rows ++ text ++ '\x00' :: stale.drop (chunk.length + 1) := by
    rw [List.take_left, List.drop_left, overwrite_string, ← List.append_assoc, text_eq]
  have size : part.length + chunk.length = (unlines rows ++ text).length := by
    rw [← text_eq, List.length_append]
  have enough : rows.length ≤ part.length + chunk.length := by
    have := length_le_unlines rows
    rw [size, List.length_append]
    omega
  exact readRows_calls stack enough plain plainText isolated stored size

/-- A row of which a part has been read ends at the next newline. -/
theorem unlines_begun {rows : List (List Char)} {part pending : List Char}
    (begun : unlines rows = part ++ pending) (free : '\n' ∉ part) (started : part ≠ [])
    : ∃ more following,
        rows = (part ++ more) :: following ∧ pending = more ++ '\n' :: unlines following := by
  cases rows with
  | nil => exact absurd (List.append_eq_nil_iff.mp begun.symm).1 started
  | cons row rows =>
      rw [unlines_cons] at begun
      rcases List.append_eq_append_iff.mp begun with ⟨more, rfl, tail⟩ | ⟨more, rfl, tail⟩
      · cases more with
        | nil => exact ⟨[], rows, by simp, by simpa using tail.symm⟩
        | cons c more =>
            obtain ⟨rfl, _⟩ := List.cons.inj tail
            exact absurd (by simp) free
      · exact ⟨more, rows, rfl, tail⟩

/-- The rows that fit are passed on in order, by induction on the reads. -/
theorem ClientReader.readAll_calls {rows : List (List Char)} {part stale : List Char} {n : Nat}
    {pipe : Pipe} {reader : ClientReader} (bound : pipe.pending.length < n)
    (whole : unlines rows = part ++ pipe.pending) (short : part.length < maxRead - 1)
    (free : '\n' ∉ part) (plain : ∀ row ∈ rows, PlainRow row)
    (isolated : ∀ row ∈ rows, row ≠ [] → Isolated row (call row))
    (buf : reader.buf = part ++ stale) (remain : reader.remain = part.length)
    : (reader.readAll stack n pipe).calls = reader.calls ++ (rows.filter passedOn).map call := by
  induction n generalizing rows part stale pipe reader with
  | zero => exact absurd bound (Nat.not_lt_zero _)
  | succ n ih =>
      obtain ⟨split, room, ended⟩ := pipe.read_splits (maxRead - reader.remain - 1) (by omega)
      simp only [readAll]
      generalize pipe.read (maxRead - reader.remain - 1) = result at split room ended ⊢
      obtain ⟨chunk, rest⟩ := result
      dsimp only at split room ended ⊢
      by_cases nothing : chunk = []
      · rw [if_pos nothing]
        rw [ended nothing, List.append_nil] at whole
        cases rows with
        | nil => simp
        | cons row rows => exact absurd (whole ▸ by simp) free
      · rw [if_neg nothing]
        rw [← split, ← List.append_assoc] at whole
        obtain ⟨before, after, text, rfl, text_eq, following, free⟩ :=
          unlines_split whole fun row member => (plain row member).1
        have plainAfter : ∀ row ∈ after, PlainRow row :=
          fun row member => plain row (List.mem_append_right _ member)
        have plainText : PlainRow text := by
          refine ⟨free, fun member => zero_not_mem_unlines plainAfter ?_⟩
          rw [following]
          exact List.mem_append_left _ member
        obtain ⟨left, buffers, received⟩ := receive_calls stack text_eq
          (fun row member => plain row (List.mem_append_left _ member)) plainText
          (fun row member => isolated row (List.mem_append_left _ member)) buf remain
        have size := congrArg List.length text_eq
        simp only [List.length_append] at size
        have fitting : before.filter (· ≠ []) = before.filter passedOn := by
          refine List.filter_congr fun row member => ?_
          have := length_lt_unlines member
          have fits : row.length < maxRead - 1 := by omega
          simp [passedOn, fits]
        have consumed : rest.pending.length < n := by
          have := congrArg List.length split
          have := List.length_pos_iff.mpr nothing
          rw [List.length_append] at *
          omega
        have isolatedAfter : ∀ row ∈ after, row ≠ [] → Isolated row (call row) :=
          fun row member => isolated row (List.mem_append_right _ member)
        rw [received, fitting]
        simp only [List.filter_append, List.map_append, ← List.append_assoc]
        by_cases full : text.length = maxRead - 1
        · -- the row goes on behind the end of the buffer, so that it is too long
          rw [if_pos full]
          have started : text ≠ [] := List.ne_nil_of_length_pos (by omega)
          obtain ⟨more, later, rfl, pending⟩ := unlines_begun following free started
          have freeMore : '\n' ∉ more := fun member =>
            (plainAfter _ List.mem_cons_self).1 (List.mem_append_right _ member)
          obtain ⟨sizes, skipped⟩ := skipRow_of_newline (unlines later) rest.sizes freeMore
          have dropped : passedOn (text ++ more) = false := by
            simp only [passedOn, List.length_append, decide_eq_false_iff_not]
            omega
          have fewer : (unlines later).length < n := by
            rw [pending, List.length_append, List.length_cons] at consumed
            omega
          rw [pending, skipped, List.filter_cons_of_neg (by simp [dropped])]
          exact @ih later [] _ ⟨unlines later, sizes⟩ _ fewer rfl (by decide) (by simp)
            (fun row member => plainAfter row (List.mem_cons_of_mem _ member))
            (fun row member => isolatedAfter row (List.mem_cons_of_mem _ member)) rfl rfl
        · rw [if_neg full]
          exact ih consumed following (by omega) free plainAfter isolatedAfter rfl rfl

/-- However the output is split into reads, the rows that fit into the buffer are passed on in
order.
-/
theorem clientCalls_rows {rows : List (List Char)} (sizes : List Nat) (buf : List Char)
    (buffers : RowBuffers) (plain : ∀ row ∈ rows, PlainRow row)
    (isolated : ∀ row ∈ rows, row ≠ [] → Isolated row (call row))
    : clientCalls stack ⟨unlines rows, sizes⟩ buf buffers = (rows.filter passedOn).map call :=
  @ClientReader.readAll_calls stack call rows [] buf _ ⟨unlines rows, sizes⟩ _
    (Nat.lt_succ_self _) rfl (by decide) (by simp) plain isolated rfl rfl

end Chunks

end VirtioForwarder
