import Mathlib.Algebra.GroupWithZero.Nat
import Mathlib.Data.List.Basic
import Mathlib.Data.List.Perm.Basic

/-! `getopt_long` of the GNU C library, in the order in which it permutes the arguments so that
the options come first. The option string begins with a colon, so that an argument that is
missing is told from an option that is unknown.
-/

namespace Getopt

/-- `has_arg`, or the colons after a letter of the option string. -/
inductive HasArg
  | no
  | required
  | optional
  deriving DecidableEq, Repr

/-- `struct option`. -/
structure LongOption where
  name : List Char
  hasArg : HasArg
  val : Char
  deriving DecidableEq, Repr

/-- The options that are known: `optstring` up to its terminating null, and `longopts`. -/
structure Options where
  optstring : List Char
  long : List LongOption
  deriving DecidableEq, Repr

/-- What a call returns, if it is not -1: the value of an option with `optarg`, or a question
mark or a colon with `optopt`. For a long option that is unknown or ambiguous `optopt` is zero.
-/
inductive Result
  | option (val : Char) (arg : Option (List Char))
  | unknown (optopt : Char)
  | missing (optopt : Char)
  deriving DecidableEq, Repr

/-- The value itself, a question mark or a colon. -/
def Result.returned : Result → Char
  | .option val _ => val
  | .unknown _ => '?'
  | .missing _ => ':'

/-- The arguments between two calls. Those before `optind` have been passed, operands have been
skipped, and the others have not been looked at; `cluster` are the letters of the current
argument that are left.
-/
structure Scan where
  passed : List (List Char)
  skipped : List (List Char)
  rest : List (List Char)
  cluster : List Char
  deriving DecidableEq, Repr

/-- The first call is for the argument after the name of the program. -/
def Scan.start : List (List Char) → Scan
  | [] => ⟨[], [], [], []⟩
  | program :: args => ⟨[program], [], args, []⟩

/-- `optind`. -/
def Scan.optind (scan : Scan) : Nat := scan.passed.length

/-- `argv`, with the arguments that have been passed before those that were skipped. -/
def Scan.argv (scan : Scan) : List (List Char) := scan.passed ++ (scan.skipped ++ scan.rest)

/-- The argument is not an option: it does not begin with a dash, or it is one. -/
def isOperand : List Char → Bool
  | '-' :: _ :: _ => false
  | _ => true

/-- An exact match among the long options, or the first one that has the name as its beginning if
no other one with that beginning differs from it.
-/
def findLong (long : List LongOption) (name : List Char) : Option LongOption :=
  match long.find? fun option => option.name = name with
  | some option => some option
  | none =>
      match long.filter fun option => name.isPrefixOf option.name with
      | [] => none
      | option :: others =>
          if others.all fun other => other.hasArg = option.hasArg ∧ other.val = option.val then
            some option
          else none

/-- An argument that follows its option is passed with it. -/
def takeArg (val : Char) (scan : Scan) : Result × Scan :=
  match scan.rest with
  | [] => (.missing val, scan)
  | arg :: rest =>
      (.option val (some arg), { scan with passed := scan.passed ++ [arg], rest := rest })

/-- A long option; `text` is its name, with its argument after an equals sign. -/
def longOption (options : Options) (text : List Char) (scan : Scan) : Result × Scan :=
  match findLong options.long (text.takeWhile (· ≠ '=')) with
  | none => (.unknown '\x00', scan)
  | some option =>
      match text.dropWhile (· ≠ '='), option.hasArg with
      | [], .required => takeArg option.val scan
      | [], _ => (.option option.val none, scan)
      | _ :: _, .no => (.unknown option.val, scan)
      | _ :: arg, _ => (.option option.val (some arg), scan)

/-- A letter that a semicolon follows in the option string: what comes next is a long option. -/
def longArg (options : Options) (c : Char) (scan : Scan) : Result × Scan :=
  match scan.cluster, scan.rest with
  | [], [] => (.missing c, scan)
  | [], text :: rest =>
      longOption options text { scan with passed := scan.passed ++ [text], rest := rest }
  | text, _ => longOption options text { scan with cluster := [] }

/-- The colons after a letter. -/
def colons : List Char → HasArg
  | ':' :: ':' :: _ => .optional
  | ':' :: _ => .required
  | _ => .no

/-- A letter, after which `cluster` is left of its argument. -/
def shortOption (options : Options) (c : Char) (scan : Scan) : Result × Scan :=
  if c = ':' ∨ c = ';' ∨ c ∉ options.optstring then (.unknown c, scan)
  else
    let after := (options.optstring.dropWhile (· ≠ c)).tail
    if c = 'W' ∧ after.head? = some ';' then longArg options c scan
    else
      match colons after, scan.cluster with
      | .no, _ => (.option c none, scan)
      | .optional, [] => (.option c none, scan)
      | .required, [] => takeArg c scan
      | _, arg => (.option c (some arg), { scan with cluster := [] })

/-- The next letter of the current argument. -/
def nextLetter (options : Options) (scan : Scan) : Option Result × Scan :=
  match scan.cluster with
  | [] => (none, scan)
  | c :: cluster => (shortOption options c { scan with cluster := cluster }).map some id

/-- `getopt_long`; `none` is -1. Operands are skipped, and two dashes end the options. -/
def getoptLong (options : Options) (scan : Scan) : Option Result × Scan :=
  if scan.cluster ≠ [] then nextLetter options scan
  else
    let skipped := scan.skipped ++ scan.rest.takeWhile isOperand
    match scan.rest.dropWhile isOperand with
    | [] => (none, { scan with skipped := skipped, rest := [] })
    | arg :: rest =>
        let scan := ⟨scan.passed ++ [arg], skipped, rest, []⟩
        if arg = ['-', '-'] then (none, scan)
        else if ['-', '-'].isPrefixOf arg then
          (longOption options (arg.drop 2) scan).map some id
        else nextLetter options { scan with cluster := arg.drop 1 }

/-- How many letters and arguments are left. -/
def Scan.measure (scan : Scan) : Nat :=
  scan.cluster.length + (scan.rest.map fun arg => arg.length + 1).sum

/-- The results of the calls up to the one that returns -1, with a bound for their number. -/
def results (options : Options) : Nat → Scan → List Result × Scan
  | 0, scan => ([], scan)
  | n + 1, scan =>
      match getoptLong options scan with
      | (none, scan) => ([], scan)
      | (some result, scan) => (results options n scan).map (result :: ·) id

/-- The results for the arguments of a program, and how the arguments are left. -/
def scanArgs (options : Options) (argv : List (List Char)) : List Result × Scan :=
  results options ((Scan.start argv).measure + 1) (.start argv)

/-- Arguments are passed one after another, and letters are used up. -/
structure Moves (before after : Scan) : Prop where
  used : ∃ used, before.rest = used ++ after.rest ∧ after.passed = before.passed ++ used
  skipped : after.skipped = before.skipped
  cluster : after.cluster.length ≤ before.cluster.length

theorem Moves.refl (scan : Scan) : Moves scan scan :=
  ⟨⟨[], rfl, (List.append_nil _).symm⟩, rfl, Nat.le_refl _⟩

theorem Moves.trans {first second third : Scan} (some_ : Moves first second)
    (more : Moves second third)
    : Moves first third := by
  obtain ⟨⟨used, rest, passed⟩, skipped, cluster⟩ := some_
  obtain ⟨⟨used', rest', passed'⟩, skipped', cluster'⟩ := more
  refine ⟨⟨used ++ used', ?_, ?_⟩, skipped'.trans skipped,
    Nat.le_trans cluster' cluster⟩
  · rw [rest, rest', List.append_assoc]
  · rw [passed', passed, List.append_assoc]

theorem Moves.measure {before after : Scan} (moves : Moves before after)
    : after.measure ≤ before.measure := by
  obtain ⟨⟨used, rest, _⟩, _, cluster⟩ := moves
  simp only [Scan.measure, rest, List.map_append, List.sum_append]
  omega

theorem Moves.passed {before after : Scan} (moves : Moves before after)
    : before.passed <+: after.passed := by
  obtain ⟨⟨used, _, passed⟩, _, _⟩ := moves
  exact ⟨used, passed.symm⟩

theorem Moves.argv_perm {before after : Scan} (moves : Moves before after)
    : after.argv.Perm before.argv := by
  obtain ⟨⟨used, rest, passed⟩, skipped, _⟩ := moves
  simp only [Scan.argv, rest, passed, skipped, List.append_assoc]
  refine List.Perm.append_left _ ?_
  rw [← List.append_assoc, ← List.append_assoc]
  exact List.perm_append_comm.append_right _

/-- The value belongs to an option. -/
def Options.Known (options : Options) (val : Char) : Prop :=
  (val ∈ options.optstring ∧ val ≠ ':') ∨ ∃ option ∈ options.long, option.val = val

/-- A step passes arguments, and the value that it returns is one of an option. -/
structure Steps (options : Options) (before : Scan) (step : Result × Scan) : Prop where
  moves : Moves before step.2
  known : ∀ val arg, step.1 = .option val arg → options.Known val

theorem Steps.option {options : Options} {before after : Scan} {val : Char}
    {arg : Option (List Char)} (known : options.Known val) (moves : Moves before after)
    : Steps options before (.option val arg, after) := by
  refine ⟨moves, ?_⟩
  intro val' arg' same
  obtain ⟨rfl, -⟩ := Result.option.inj same
  exact known

theorem Steps.unknown (options : Options) (scan : Scan) (optopt : Char)
    : Steps options scan (.unknown optopt, scan) :=
  ⟨.refl scan, nofun⟩

theorem Steps.missing (options : Options) (scan : Scan) (optopt : Char)
    : Steps options scan (.missing optopt, scan) :=
  ⟨.refl scan, nofun⟩

theorem Steps.after {options : Options} {first second : Scan} {step : Result × Scan}
    (moves : Moves first second) (steps : Steps options second step)
    : Steps options first step :=
  ⟨moves.trans steps.moves, steps.known⟩

theorem Moves.pass {scan : Scan} {arg : List Char} {rest : List (List Char)}
    (left : scan.rest = arg :: rest)
    : Moves scan { scan with passed := scan.passed ++ [arg], rest := rest } :=
  ⟨⟨[arg], left, rfl⟩, rfl, Nat.le_refl _⟩

theorem Moves.dropCluster (scan : Scan) : Moves scan { scan with cluster := [] } :=
  ⟨⟨[], rfl, (List.append_nil _).symm⟩, rfl, Nat.zero_le _⟩

theorem takeArg_steps {options : Options} {val : Char} (known : options.Known val) (scan : Scan)
    : Steps options scan (takeArg val scan) := by
  unfold takeArg
  cases left : scan.rest with
  | nil => exact .missing options scan val
  | cons arg rest => exact .option known (.pass left)

theorem findLong_mem {long : List LongOption} {name : List Char} {option : LongOption}
    (found : findLong long name = some option)
    : option ∈ long := by
  unfold findLong at found
  split at found
  · rename_i same
    obtain rfl := Option.some.inj found
    exact List.mem_of_find?_eq_some same
  · split at found
    · cases found
    · rename_i first others filtered
      split at found
      · obtain rfl := Option.some.inj found
        have member : first ∈ long.filter fun option => name.isPrefixOf option.name := by
          rw [filtered]
          exact List.mem_cons_self
        exact List.mem_of_mem_filter member
      · cases found

theorem longOption_steps (options : Options) (text : List Char) (scan : Scan)
    : Steps options scan (longOption options text scan) := by
  unfold longOption
  split
  · exact .unknown options scan _
  · rename_i option found
    have known : options.Known option.val := Or.inr ⟨option, findLong_mem found, rfl⟩
    split
    · exact takeArg_steps known scan
    · exact .option known (.refl scan)
    · exact .unknown options scan _
    · exact .option known (.refl scan)

theorem longArg_steps (options : Options) (c : Char) (scan : Scan)
    : Steps options scan (longArg options c scan) := by
  unfold longArg
  split
  · exact .missing options scan c
  · rename_i text rest _ left
    exact .after (.pass left) (longOption_steps options text _)
  · exact .after (.dropCluster scan) (longOption_steps options _ _)

theorem shortOption_steps (options : Options) (c : Char) (scan : Scan)
    : Steps options scan (shortOption options c scan) := by
  unfold shortOption
  split
  · exact .unknown options scan c
  · rename_i letter
    have known : options.Known c := by
      rw [not_or, not_or, not_not] at letter
      exact Or.inl ⟨letter.2.2, letter.1⟩
    dsimp only
    split
    · exact longArg_steps options c scan
    · split
      · exact .option known (.refl scan)
      · exact .option known (.refl scan)
      · exact takeArg_steps known scan
      · exact .option known (.dropCluster scan)

/-- The last call: operands are skipped up to the end or up to two dashes. -/
structure Ends (before after : Scan) : Prop where
  argv : after.argv.Perm before.argv
  passed : before.passed <+: after.passed
  stopped : after.rest = [] ∨ after.passed.getLast? = some ['-', '-']

/-- Any other call: an option is passed, and fewer letters and arguments are left. -/
structure Continues (options : Options) (before : Scan) (result : Result) (after : Scan)
    : Prop where
  argv : after.argv.Perm before.argv
  passed : before.passed <+: after.passed
  fewer : after.measure < before.measure
  known : ∀ val arg, result = .option val arg → options.Known val

theorem nextLetter_continues (options : Options) (scan : Scan) (letters : scan.cluster ≠ [])
    : ∃ result after, nextLetter options scan = (some result, after)
        ∧ Continues options scan result after := by
  unfold nextLetter
  cases left : scan.cluster with
  | nil => exact absurd left letters
  | cons c cluster =>
      have steps := shortOption_steps options c { scan with cluster := cluster }
      have argv := steps.moves.argv_perm
      have fewer := steps.moves.measure
      refine ⟨_, _, rfl, argv, steps.moves.passed, ?_, steps.known⟩
      refine Nat.lt_of_le_of_lt fewer ?_
      simp only [Scan.measure, left, List.length_cons]
      omega

theorem Continues.after {options : Options} {first second third : Scan} {result : Result}
    (argv : second.argv.Perm first.argv) (passed : first.passed <+: second.passed)
    (fewer : second.measure < first.measure) (steps : Continues options second result third)
    : Continues options first result third :=
  ⟨steps.argv.trans argv, passed.trans steps.passed, Nat.lt_trans steps.fewer fewer, steps.known⟩

/-- The argument after the operands is looked at. -/
theorem looked_at (passed skipped operands rest : List (List Char)) (arg cluster : List Char)
    (shorter : cluster.length ≤ arg.length)
    : (Scan.mk (passed ++ [arg]) (skipped ++ operands) rest cluster).argv.Perm
          (Scan.mk passed skipped (operands ++ arg :: rest) []).argv
        ∧ (Scan.mk (passed ++ [arg]) (skipped ++ operands) rest cluster).measure
            < (Scan.mk passed skipped (operands ++ arg :: rest) []).measure := by
  constructor
  · simp only [Scan.argv, List.append_assoc, List.singleton_append]
    refine List.Perm.append_left _ ?_
    rw [← List.append_assoc, ← List.append_assoc]
    exact List.perm_middle.symm
  · simp only [Scan.measure, List.map_append, List.map_cons, List.sum_append, List.sum_cons,
      List.length_nil]
    omega

theorem isOperand_eq_false {arg : List Char} (option : isOperand arg = false)
    : arg.drop 1 ≠ [] := by
  unfold isOperand at option
  split at option
  · simp
  · cases option

theorem getoptLong_cases (options : Options) (scan : Scan)
    : (∃ after, getoptLong options scan = (none, after) ∧ Ends scan after)
      ∨ ∃ result after, getoptLong options scan = (some result, after)
          ∧ Continues options scan result after := by
  unfold getoptLong
  split
  · rename_i letters
    exact Or.inr (nextLetter_continues options scan letters)
  · rename_i none_left
    obtain ⟨passed, skipped, rest, cluster⟩ := scan
    obtain rfl : cluster = [] := not_not.mp none_left
    have operands := List.takeWhile_append_dropWhile (p := isOperand) (l := rest)
    dsimp only
    generalize rest.takeWhile isOperand = seen at operands ⊢
    cases left : rest.dropWhile isOperand with
    | nil =>
        rw [left, List.append_nil] at operands
        subst operands
        exact Or.inl ⟨_, rfl, by simp [Scan.argv], List.prefix_refl _, Or.inl rfl⟩
    | cons arg more =>
        have option : isOperand arg = false := by
          have := List.head?_dropWhile_not isOperand rest
          rw [left] at this
          simpa using this
        rw [left] at operands
        subst operands
        dsimp only
        split
        · rename_i dashes
          exact Or.inl ⟨_, rfl, (looked_at passed skipped seen more arg [] (Nat.zero_le _)).1,
            List.prefix_append _ _, Or.inr (by rw [dashes]; exact List.getLast?_concat)⟩
        · right
          split
          · obtain ⟨argv, fewer⟩ := looked_at passed skipped seen more arg [] (Nat.zero_le _)
            have steps := longOption_steps options (arg.drop 2)
              ⟨passed ++ [arg], skipped ++ seen, more, []⟩
            exact ⟨_, _, rfl, steps.moves.argv_perm.trans argv,
              (List.prefix_append _ _).trans steps.moves.passed,
              Nat.lt_of_le_of_lt steps.moves.measure fewer, steps.known⟩
          · obtain ⟨argv, fewer⟩ := looked_at passed skipped seen more arg (arg.drop 1) (by simp)
            obtain ⟨result, after, same, continues⟩ := nextLetter_continues options
              ⟨passed ++ [arg], skipped ++ seen, more, arg.drop 1⟩ (isOperand_eq_false option)
            exact ⟨result, after, same, continues.after argv (List.prefix_append _ _) fewer⟩

/-- With enough calls the last one returns -1, and every value belongs to an option. -/
theorem results_end (options : Options)
    : ∀ (n : Nat) (scan : Scan), scan.measure < n →
        Ends scan (results options n scan).2
          ∧ ∀ val arg, .option val arg ∈ (results options n scan).1 → options.Known val := by
  intro n
  induction n with
  | zero => exact fun scan enough => absurd enough (Nat.not_lt_zero _)
  | succ n hind =>
      intro scan enough
      rcases getoptLong_cases options scan with
        ⟨after, same, ends⟩ | ⟨result, after, same, continues⟩
      · simp only [results, same]
        exact ⟨ends, nofun⟩
      · obtain ⟨ends, known⟩ := hind after (by have := continues.fewer; omega)
        simp only [results, same, Prod.map_snd, id, Prod.map_fst, List.mem_cons]
        refine ⟨⟨ends.argv.trans continues.argv, continues.passed.trans ends.passed, ends.stopped⟩, ?_⟩
        rintro val arg (first | later)
        · exact continues.known val arg first.symm
        · exact known val arg later

theorem scanArgs_end (options : Options) (argv : List (List Char))
    : Ends (.start argv) (scanArgs options argv).2
        ∧ ∀ val arg, .option val arg ∈ (scanArgs options argv).1 → options.Known val :=
  results_end options _ _ (Nat.lt_succ_self _)

end Getopt
