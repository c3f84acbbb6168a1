import VirtioForwarder.Library.Bits
import VirtioForwarder.Library.Getopt

/-! `cmdline_parser` of `cmdline.c`, over `getopt_long`. What it should do is said by the results of
the calls of `getopt_long`: which of them are errors, and which callbacks run.
-/

namespace VirtioForwarder

open Getopt

/-- `cmdline_opt_t` without its usage text. The callback is given the caller's value, which it may
change, the argument of the option and its index.
-/
structure CmdlineOpt (σ : Type) where
  optLong : List Char
  optShort : Char
  paramFlags : BitVec 32
  func : σ → Option (List Char) → Nat → Int × σ
  hasArg : HasArg

section Parser

variable {σ : Type}

/-- `CMDLINE_PARAM_FLAG_MANDATORY`. -/
def CmdlineOpt.mandatory (opt : CmdlineOpt σ) : Bool := opt.paramFlags &&& 1#32 ≠ 0

/-- `CMDLINE_PARAM_FLAG_TERMINATE`. -/
def CmdlineOpt.terminate (opt : CmdlineOpt σ) : Bool := opt.paramFlags &&& 2#32 ≠ 0

/-- `CMDLINE_IGNORE_UNKNOWN`. -/
def ignoreUnknown (flags : BitVec 32) : Bool := flags &&& 2#32 ≠ 0

/-- `CMDLINE_IGNORE_EXTRA`. -/
def ignoreExtra (flags : BitVec 32) : Bool := flags &&& 4#32 ≠ 0

/-- The colons that are put after a letter. -/
def colonsOf : HasArg → List Char
  | .no => []
  | .required => [':']
  | .optional => [':', ':']

/-- What is put into `optstring` before its terminating null. -/
def optstringOf (opts : List (CmdlineOpt σ)) : List Char :=
  ':' :: opts.flatMap fun opt => opt.optShort :: colonsOf opt.hasArg

/-- `optstring`, which ends at its first null, and `getopt_options`. -/
def getoptOptions (opts : List (CmdlineOpt σ)) : Options where
  optstring := (optstringOf opts).takeWhile (· ≠ '\x00')
  long := opts.map fun opt => ⟨opt.optLong, opt.hasArg, opt.optShort⟩

/-- `mandatory_bitmap`. -/
def mandatoryBitmap (opts : List (CmdlineOpt σ)) : BitVec 64 :=
  opts.zipIdx.foldl
    (fun bitmap (opt, i) => if opt.mandatory then bitmap ||| (1#64 <<< i) else bitmap) 0

/-- Why the arguments are refused. -/
inductive CmdlineError
  | tooManyOptions
  | unknownOption (optopt : Char)
  | missingArgument (optopt : Char)
  | unexpected (c : Char)
  | optionError (c : Char)
  | mandatoryOmitted
  | unhandledExtra (arg : Option (List Char))
  deriving DecidableEq, Repr

/-- A call of the callback of the option at an index. -/
structure CallbackCall where
  index : Nat
  arg : Option (List Char)
  deriving DecidableEq, Repr

/-- The caller's value, the two checks, and the calls that were made. -/
structure ParserState (σ : Type) where
  value : σ
  mandatoryCheck : BitVec 64
  terminateCheck : Bool
  calls : List CallbackCall
  deriving DecidableEq, Repr

/-- The state before the loop. -/
def ParserState.start (value : σ) : ParserState σ := ⟨value, 0, false, []⟩

/-- `optarg`. -/
def optarg : Result → Option (List Char)
  | .option _ arg => arg
  | _ => none

/-- The option whose letter is `c`, and its index. -/
def findOption (opts : List (CmdlineOpt σ)) (c : Char) : Option (CmdlineOpt σ × Nat) :=
  opts.zipIdx.find? fun entry => entry.1.optShort = c

/-- The state after a callback. -/
def ParserState.called (value : σ) (call : CallbackCall) (state : ParserState σ) : ParserState σ :=
  { state with value := value, calls := state.calls ++ [call] }

/-- The checks after the callback of an option. -/
def ParserState.check (opt : CmdlineOpt σ) (i : Nat) (state : ParserState σ) : ParserState σ :=
  { state with
    mandatoryCheck :=
      if opt.mandatory then state.mandatoryCheck ||| (1#64 <<< i) else state.mandatoryCheck,
    terminateCheck := state.terminateCheck || opt.terminate }

/-- What is done for a result of `getopt_long`. -/
def handleResult (opts : List (CmdlineOpt σ)) (flags : BitVec 32) (result : Result)
    (state : ParserState σ)
    : Option CmdlineError × ParserState σ :=
  match findOption opts result.returned with
  | none =>
      match result with
      | .unknown optopt =>
          if optopt = '\x00' then (none, state)
          else if (optopt ≠ '?' ∧ optopt ≠ 'h') ∧ ignoreUnknown flags then (none, state)
          else (some (.unknownOption optopt), state)
      | .missing optopt => (some (.missingArgument optopt), state)
      | .option c _ => (some (.unexpected c), state)
  | some (opt, i) =>
      let (ret, value) := opt.func state.value (optarg result) i
      let state := state.called value ⟨i, optarg result⟩
      if ret ≠ 0 then (some (.optionError result.returned), state)
      else (none, state.check opt i)

/-- The loop over the results, with a bound for their number. -/
def parseLoop (opts : List (CmdlineOpt σ)) (flags : BitVec 32)
    : Nat → Scan → ParserState σ → Option CmdlineError × ParserState σ × Scan
  | 0, scan, state => (none, state, scan)
  | n + 1, scan, state =>
      match getoptLong (getoptOptions opts) scan with
      | (none, scan) => (none, state, scan)
      | (some result, scan) =>
          match handleResult opts flags result state with
          | (some error, state) => (some error, state, scan)
          | (none, state) => parseLoop opts flags n scan state

/-- What `cmdline_parser` leaves; `optind` is what it puts into `cmdline_optind`, if it gets so
far.
-/
structure Parsed (σ : Type) where
  error : Option CmdlineError
  value : σ
  calls : List CallbackCall
  optind : Option Nat
  deriving DecidableEq, Repr

/-- What `cmdline_parser` returns. -/
def Parsed.ret (parsed : Parsed σ) : Int := if parsed.error.isNone then 0 else -1

/-- The two checks after the loop. -/
def finishParse (opts : List (CmdlineOpt σ)) (argc : Nat) (flags : BitVec 32)
    (state : ParserState σ) (scan : Scan)
    : Parsed σ :=
  if state.mandatoryCheck ≠ mandatoryBitmap opts ∧ state.terminateCheck = false then
    ⟨some .mandatoryOmitted, state.value, state.calls, none⟩
  else if (scan.optind ≥ 1 ∧ scan.optind < argc ∧ ignoreExtra flags = false)
      ∧ scan.argv[scan.optind - 1]? ≠ some ['-', '-'] then
    ⟨some (.unhandledExtra scan.argv[scan.optind]?), state.value, state.calls, some scan.optind⟩
  else ⟨none, state.value, state.calls, some scan.optind⟩

/-- `cmdline_parser`. -/
def cmdlineParser (opts : List (CmdlineOpt σ)) (value : σ) (argv : List (List Char))
    (flags : BitVec 32)
    : Parsed σ :=
  if opts.length > 64 then ⟨some .tooManyOptions, value, [], none⟩
  else
    match parseLoop opts flags ((Scan.start argv).measure + 1) (.start argv)
      (.start value) with
    | (some error, state, _) => ⟨some error, state.value, state.calls, none⟩
    | (none, state, scan) => finishParse opts argv.length flags state scan

/-- The tables that the parser is for. -/
structure OptionTable (opts : List (CmdlineOpt σ)) : Prop where
  few : opts.length ≤ 64
  distinct : (opts.map CmdlineOpt.optShort).Nodup
  unreserved : ∀ opt ∈ opts, opt.optShort ∉ ['?', ':', 'h']

/-- A result that is an error, whatever the callbacks do. -/
def RefusedResult (flags : BitVec 32) : Result → Prop
  | .option _ _ => False
  | .unknown optopt => ¬(ignoreUnknown flags = true ∧ optopt ≠ '?' ∧ optopt ≠ 'h')
  | .missing _ => True

/-- The calls that should be made for the results, once for each option up to the first error,
and whether there is no error.
-/
inductive Expected (opts : List (CmdlineOpt σ)) (flags : BitVec 32)
    : σ → List Result → List CallbackCall → Bool → Prop
  | done (value : σ) : Expected opts flags value [] [] true
  | called {value after : σ} {opt : CmdlineOpt σ} {i : Nat} {arg : Option (List Char)}
      {results : List Result} {calls : List CallbackCall} {faultless : Bool}
      (member : opts[i]? = some opt) (accepted : opt.func value arg i = (0, after))
      (more : Expected opts flags after results calls faultless)
      : Expected opts flags value (.option opt.optShort arg :: results) (⟨i, arg⟩ :: calls)
          faultless
  | failed {value : σ} {opt : CmdlineOpt σ} {i : Nat} {arg : Option (List Char)}
      {results : List Result}
      (member : opts[i]? = some opt) (failed : (opt.func value arg i).1 ≠ 0)
      : Expected opts flags value (.option opt.optShort arg :: results) [⟨i, arg⟩] false
  | ignored {value : σ} {optopt : Char} {results : List Result} {calls : List CallbackCall}
      {faultless : Bool}
      (harmless : ¬RefusedResult flags (.unknown optopt))
      (more : Expected opts flags value results calls faultless)
      : Expected opts flags value (.unknown optopt :: results) calls faultless
  | refused {value : σ} {result : Result} {results : List Result}
      (error : RefusedResult flags result)
      : Expected opts flags value (result :: results) [] false

/-- An option is among the results. -/
def Seen (opt : CmdlineOpt σ) (results : List Result) : Prop :=
  ∃ arg, .option opt.optShort arg ∈ results

/-- Every mandatory option is among the results, or some option that ends the program. -/
def Complete (opts : List (CmdlineOpt σ)) (results : List Result) : Prop :=
  (∀ opt ∈ opts, opt.mandatory = true → Seen opt results)
    ∨ ∃ opt ∈ opts, opt.terminate = true ∧ Seen opt results

/-- What is asked of `cmdline_parser`. The operands before two dashes are those that
`getopt_long` has skipped.
-/
structure MeetsContract (opts : List (CmdlineOpt σ)) (flags : BitVec 32) (value : σ)
    (argv : List (List Char))
    : Prop where
  specified : ∃ calls faultless,
    Expected opts flags value (scanArgs (getoptOptions opts) argv).1 calls faultless
  met : ∀ calls faultless,
    Expected opts flags value (scanArgs (getoptOptions opts) argv).1 calls faultless →
      (cmdlineParser opts value argv flags).calls = calls
      ∧ ((cmdlineParser opts value argv flags).ret = 0
          ↔ faultless = true
            ∧ Complete opts (scanArgs (getoptOptions opts) argv).1
            ∧ ((scanArgs (getoptOptions opts) argv).2.skipped = [] ∨ ignoreExtra flags = true))

/-- The two checks after the loop are passed. Two dashes before `optind` excuse what was skipped. -/
def PassesChecks (opts : List (CmdlineOpt σ)) (flags : BitVec 32) (results : List Result)
    (last : Scan)
    : Prop :=
  Complete opts results
    ∧ (last.skipped = [] ∨ ignoreExtra flags = true ∨ last.passed.getLast? = some ['-', '-'])

/-- After a result with `optopt` zero another callback runs, or the arguments are accepted. -/
inductive GoesOn (accepted : Prop) : List Result → Prop
  | silent {results : List Result} (more : GoesOn accepted results)
      : GoesOn accepted (.unknown '\x00' :: results)
  | option (val : Char) (arg : Option (List Char)) (results : List Result)
      : GoesOn accepted (.option val arg :: results)
  | finished (passes : accepted) : GoesOn accepted []

/-- The first error is a result with `optopt` zero, and it is overlooked. -/
def OverlooksUnknown (opts : List (CmdlineOpt σ)) (flags : BitVec 32) (value : σ)
    (argv : List (List Char))
    : Prop :=
  ignoreUnknown flags = false
  ∧ ∃ before after calls,
      (scanArgs (getoptOptions opts) argv).1 = before ++ .unknown '\x00' :: after
      ∧ Expected opts flags value before calls true
      ∧ GoesOn
          (PassesChecks opts flags before (scanArgs (getoptOptions opts) argv).2)
          after

/-- Operands were skipped, there is no other error, and the argument before `optind` is two
dashes: they end the options after the operands, or they are the argument of an option.
-/
def OverlooksExtra (opts : List (CmdlineOpt σ)) (flags : BitVec 32) (value : σ)
    (argv : List (List Char))
    : Prop :=
  (∃ calls, Expected opts flags value (scanArgs (getoptOptions opts) argv).1 calls true)
  ∧ Complete opts (scanArgs (getoptOptions opts) argv).1
  ∧ ignoreExtra flags = false
  ∧ (scanArgs (getoptOptions opts) argv).2.skipped ≠ []
  ∧ (scanArgs (getoptOptions opts) argv).2.passed.getLast? = some ['-', '-']

-----------------------------------------------------------------------------------------
-- The options of the table

theorem find_zipIdx {opt : CmdlineOpt σ} (opts : List (CmdlineOpt σ))
    : ∀ (start i : Nat), (opts.map CmdlineOpt.optShort).Nodup → opts[i]? = some opt →
        (opts.zipIdx start).find? (fun entry => entry.1.optShort = opt.optShort)
          = some (opt, start + i) := by
  induction opts with
  | nil =>
      intro start i _ member
      simp at member
  | cons first rest hind =>
      intro start i distinct member
      rw [List.map_cons, List.nodup_cons] at distinct
      rw [List.zipIdx_cons]
      cases i with
      | zero =>
          obtain rfl : first = opt := by simpa using member
          rw [List.find?_cons_of_pos (by simp)]
          rfl
      | succ i =>
          rw [List.getElem?_cons_succ] at member
          have other : first.optShort ≠ opt.optShort := by
            intro same
            refine distinct.1 ?_
            rw [same]
            exact List.mem_map_of_mem (List.mem_of_getElem? member)
          rw [List.find?_cons_of_neg (by simpa using other), hind (start + 1) i distinct.2 member]
          congr 2
          omega

theorem OptionTable.findOption_eq {opts : List (CmdlineOpt σ)} (table : OptionTable opts)
    {opt : CmdlineOpt σ} {i : Nat} (member : opts[i]? = some opt)
    : findOption opts opt.optShort = some (opt, i) := by
  have found := find_zipIdx opts 0 i table.distinct member
  rwa [Nat.zero_add] at found

theorem findOption_none {opts : List (CmdlineOpt σ)} {c : Char}
    (absent : ∀ opt ∈ opts, opt.optShort ≠ c)
    : findOption opts c = none := by
  simp only [findOption, List.find?_eq_none, decide_eq_true_eq]
  intro entry member
  exact absent entry.1 (List.fst_mem_of_mem_zipIdx member)

theorem OptionTable.findOption_reserved {opts : List (CmdlineOpt σ)} (table : OptionTable opts)
    {c : Char} (reserved : c ∈ ['?', ':', 'h'])
    : findOption opts c = none :=
  findOption_none fun opt member same => table.unreserved opt member (same ▸ reserved)

theorem mem_colonsOf {hasArg : HasArg} {c : Char} (inside : c ∈ colonsOf hasArg) : c = ':' := by
  cases hasArg with
  | no => cases inside
  | required => simpa [colonsOf] using inside
  | optional => simpa [colonsOf] using inside

/-- A value that `getopt_long` knows is the letter of an option. -/
theorem known_letter {opts : List (CmdlineOpt σ)} {val : Char}
    (known : (getoptOptions opts).Known val)
    : ∃ (i : Nat) (opt : CmdlineOpt σ), opts[i]? = some opt ∧ opt.optShort = val := by
  have member : ∃ opt ∈ opts, opt.optShort = val := by
    rcases known with ⟨inside, letter⟩ | ⟨long, inside, same⟩
    · have := List.takeWhile_subset _ inside
      simp only [optstringOf, List.mem_cons, letter, List.mem_flatMap, false_or] at this
      obtain ⟨opt, member, same | colon⟩ := this
      · exact ⟨opt, member, same.symm⟩
      · exact absurd (mem_colonsOf colon) letter
    · simp only [getoptOptions, List.mem_map] at inside
      obtain ⟨opt, member, rfl⟩ := inside
      exact ⟨opt, member, same⟩
  obtain ⟨opt, inside, same⟩ := member
  obtain ⟨i, found⟩ := List.mem_iff_getElem?.mp inside
  exact ⟨i, opt, found, same⟩

-----------------------------------------------------------------------------------------
-- The loop

/-- The results handled one after another. -/
def handleAll (opts : List (CmdlineOpt σ)) (flags : BitVec 32)
    : List Result → ParserState σ → Option CmdlineError × ParserState σ
  | [], state => (none, state)
  | result :: results, state =>
      match handleResult opts flags result state with
      | (some error, state) => (some error, state)
      | (none, state) => handleAll opts flags results state

/-- The loop handles the results of the calls, and it ends with them if there is no error. -/
theorem parseLoop_eq_handleAll (opts : List (CmdlineOpt σ)) (flags : BitVec 32)
    : ∀ (n : Nat) (scan : Scan) (state : ParserState σ),
        (parseLoop opts flags n scan state).1
            = (handleAll opts flags (results (getoptOptions opts) n scan).1 state).1
          ∧ (parseLoop opts flags n scan state).2.1
            = (handleAll opts flags (results (getoptOptions opts) n scan).1 state).2
          ∧ ((parseLoop opts flags n scan state).1 = none →
              (parseLoop opts flags n scan state).2.2
                = (results (getoptOptions opts) n scan).2) := by
  intro n
  induction n with
  | zero => exact fun scan state => ⟨rfl, rfl, fun _ => rfl⟩
  | succ n hind =>
      intro scan state
      rw [parseLoop, results]
      rcases getoptLong (getoptOptions opts) scan with ⟨result | result, after⟩
      · exact ⟨rfl, rfl, fun _ => rfl⟩
      · simp only [Prod.map_fst, Prod.map_snd, id, handleAll]
        rcases handleResult opts flags result state with ⟨error | error, next⟩
        · exact hind after next
        · exact ⟨rfl, rfl, fun ended => absurd ended (Option.some_ne_none error)⟩

theorem handleAll_unknown {opts : List (CmdlineOpt σ)} (table : OptionTable opts)
    (flags : BitVec 32) (optopt : Char) (results : List Result) (state : ParserState σ)
    : handleAll opts flags (.unknown optopt :: results) state
      = if optopt = '\x00' ∨ ((optopt ≠ '?' ∧ optopt ≠ 'h') ∧ ignoreUnknown flags) then
          handleAll opts flags results state
        else (some (.unknownOption optopt), state) := by
  have absent : findOption opts (Result.unknown optopt).returned = none :=
    table.findOption_reserved (by simp [Result.returned])
  simp only [handleAll, handleResult, absent]
  by_cases null : optopt = '\x00'
  · simp [null]
  · by_cases letter : (optopt ≠ '?' ∧ optopt ≠ 'h') ∧ ignoreUnknown flags
    · simp [null, letter]
    · simp [null, letter]

theorem handleAll_missing {opts : List (CmdlineOpt σ)} (table : OptionTable opts)
    (flags : BitVec 32) (optopt : Char) (results : List Result) (state : ParserState σ)
    : handleAll opts flags (.missing optopt :: results) state
      = (some (.missingArgument optopt), state) := by
  have absent : findOption opts (Result.missing optopt).returned = none :=
    table.findOption_reserved (by simp [Result.returned])
  simp only [handleAll, handleResult, absent]

theorem handleAll_option {opts : List (CmdlineOpt σ)} (table : OptionTable opts)
    (flags : BitVec 32) {opt : CmdlineOpt σ} {i : Nat} (member : opts[i]? = some opt)
    (arg : Option (List Char)) (results : List Result) (state : ParserState σ)
    : handleAll opts flags (.option opt.optShort arg :: results) state
      = if (opt.func state.value arg i).1 ≠ 0 then
          (some (.optionError opt.optShort), state.called (opt.func state.value arg i).2 ⟨i, arg⟩)
        else
          handleAll opts flags results
            ((state.called (opt.func state.value arg i).2 ⟨i, arg⟩).check opt i) := by
  have found : findOption opts (Result.option opt.optShort arg).returned = some (opt, i) :=
    table.findOption_eq member
  rw [handleAll, handleResult, found]
  dsimp only [optarg, Result.returned]
  by_cases failed : (opt.func state.value arg i).1 ≠ 0
  · rw [if_pos failed, if_pos failed]
  · rw [if_neg failed, if_neg failed]

/-- Calls are only added. -/
theorem handleAll_calls {opts : List (CmdlineOpt σ)} {flags : BitVec 32}
    : ∀ (results : List Result) (state : ParserState σ),
        state.calls <+: (handleAll opts flags results state).2.calls := by
  intro results
  induction results with
  | nil => exact fun state => List.prefix_refl _
  | cons result results hind =>
      intro state
      have step : state.calls <+: (handleResult opts flags result state).2.calls := by
        unfold handleResult
        split
        · split
          · split
            · exact List.prefix_refl _
            · split
              · exact List.prefix_refl _
              · exact List.prefix_refl _
          · exact List.prefix_refl _
          · exact List.prefix_refl _
        · dsimp only
          split
          · exact List.prefix_append _ _
          · exact List.prefix_append _ _
      rw [handleAll]
      revert step
      rcases handleResult opts flags result state with ⟨error | error, next⟩
      · exact fun step => step.trans (hind next)
      · exact fun step => step

-----------------------------------------------------------------------------------------
-- The checks

/-- The two checks say which options were among the results. -/
structure Checked (opts : List (CmdlineOpt σ)) (results : List Result)
    (before after : ParserState σ)
    : Prop where
  mandatory : ∀ i, after.mandatoryCheck.getLsbD i = true
    ↔ before.mandatoryCheck.getLsbD i = true
      ∨ ∃ opt, opts[i]? = some opt ∧ opt.mandatory = true ∧ Seen opt results
  terminate : after.terminateCheck = true
    ↔ before.terminateCheck = true
      ∨ ∃ opt ∈ opts, opt.terminate = true ∧ Seen opt results

theorem Checked.nil (opts : List (CmdlineOpt σ)) (state : ParserState σ)
    : Checked opts [] state state where
  mandatory := by simp [Seen]
  terminate := by simp [Seen]

theorem seen_unknown {opt : CmdlineOpt σ} {optopt : Char} {results : List Result}
    : Seen opt (.unknown optopt :: results) ↔ Seen opt results := by
  simp [Seen]

theorem seen_option {opt : CmdlineOpt σ} {val : Char} {arg : Option (List Char)}
    {results : List Result}
    : Seen opt (.option val arg :: results) ↔ opt.optShort = val ∨ Seen opt results := by
  simp [Seen, exists_or]

theorem Checked.unknown {opts : List (CmdlineOpt σ)} {optopt : Char} {results : List Result}
    {before after : ParserState σ} (checked : Checked opts results before after)
    : Checked opts (.unknown optopt :: results) before after where
  mandatory := by simpa only [seen_unknown] using checked.mandatory
  terminate := by simpa only [seen_unknown] using checked.terminate

/-- The letter of an option is not one of another option. -/
theorem OptionTable.same_option {opts : List (CmdlineOpt σ)} (table : OptionTable opts)
    {opt other : CmdlineOpt σ} {i j : Nat} (member : opts[i]? = some opt)
    (member' : opts[j]? = some other) (same : other.optShort = opt.optShort)
    : other = opt ∧ j = i := by
  have found := table.findOption_eq member
  rw [← same, table.findOption_eq member'] at found
  exact Prod.mk.inj (Option.some.inj found)

theorem OptionTable.lt {opts : List (CmdlineOpt σ)} (table : OptionTable opts)
    {opt : CmdlineOpt σ} {i : Nat} (member : opts[i]? = some opt)
    : i < 64 :=
  Nat.lt_of_lt_of_le (List.getElem?_eq_some_iff.mp member).1 table.few

theorem getLsbD_setBit {word : BitVec 64} {i j : Nat} (small : i < 64)
    : (word ||| (1#64 <<< i)).getLsbD j = true ↔ word.getLsbD j = true ∨ j = i := by
  have set : word ||| (1#64 <<< i) = Bits.assignBit word i true := rfl
  rw [set, Bits.getLsbD_assignBit small]
  by_cases same : j = i
  · simp [same]
  · simp [same]

theorem Checked.option {opts : List (CmdlineOpt σ)} (table : OptionTable opts)
    {opt : CmdlineOpt σ} {i : Nat} (member : opts[i]? = some opt) {value : σ}
    {arg : Option (List Char)} {results : List Result} {before after : ParserState σ}
    (checked : Checked opts results ((before.called value ⟨i, arg⟩).check opt i) after)
    : Checked opts (.option opt.optShort arg :: results) before after where
  mandatory := by
    intro j
    rw [checked.mandatory j]
    have bit : ((before.called value ⟨i, arg⟩).check opt i).mandatoryCheck.getLsbD j = true
        ↔ before.mandatoryCheck.getLsbD j = true ∨ (opt.mandatory = true ∧ j = i) := by
      cases mandatory : opt.mandatory with
      | false => simp [ParserState.check, ParserState.called, mandatory]
      | true =>
          simpa [ParserState.check, ParserState.called, mandatory]
            using getLsbD_setBit (table.lt member)
    rw [bit, or_assoc]
    refine or_congr_right ?_
    constructor
    · rintro (⟨mandatory, rfl⟩ | ⟨other, found, mandatory, seen⟩)
      · exact ⟨opt, member, mandatory, seen_option.mpr (Or.inl rfl)⟩
      · exact ⟨other, found, mandatory, seen_option.mpr (Or.inr seen)⟩
    · rintro ⟨other, found, mandatory, seen⟩
      rcases seen_option.mp seen with same | later
      · obtain ⟨rfl, rfl⟩ := table.same_option member found same
        exact Or.inl ⟨mandatory, rfl⟩
      · exact Or.inr ⟨other, found, mandatory, later⟩
  terminate := by
    rw [checked.terminate]
    have bit : ((before.called value ⟨i, arg⟩).check opt i).terminateCheck = true
        ↔ before.terminateCheck = true ∨ opt.terminate = true := by
      simp [ParserState.check, ParserState.called]
    rw [bit, or_assoc]
    refine or_congr_right ?_
    constructor
    · rintro (terminate | ⟨other, inside, terminate, seen⟩)
      · exact ⟨opt, List.mem_of_getElem? member, terminate, seen_option.mpr (Or.inl rfl)⟩
      · exact ⟨other, inside, terminate, seen_option.mpr (Or.inr seen)⟩
    · rintro ⟨other, inside, terminate, seen⟩
      rcases seen_option.mp seen with same | later
      · obtain ⟨j, found⟩ := List.mem_iff_getElem?.mp inside
        obtain ⟨rfl, -⟩ := table.same_option member found same
        exact Or.inl terminate
      · exact Or.inr ⟨other, inside, terminate, later⟩

/-- The bits that are set for a part of the table. -/
theorem getLsbD_mandatory_fold {i : Nat} (opts : List (CmdlineOpt σ))
    : ∀ (start : Nat) (bitmap : BitVec 64), start + opts.length ≤ 64 →
        (((opts.zipIdx start).foldl
            (fun bitmap (opt, i) => if opt.mandatory then bitmap ||| (1#64 <<< i) else bitmap)
            bitmap).getLsbD i = true
          ↔ bitmap.getLsbD i = true
            ∨ ∃ j opt, i = start + j ∧ opts[j]? = some opt ∧ opt.mandatory = true) := by
  induction opts with
  | nil => simp
  | cons first rest hind =>
      intro start bitmap small
      rw [List.length_cons] at small
      rw [List.zipIdx_cons, List.foldl_cons, hind _ _ (by omega)]
      have bit : (if first.mandatory then bitmap ||| (1#64 <<< start) else bitmap).getLsbD i = true
          ↔ bitmap.getLsbD i = true ∨ (first.mandatory = true ∧ i = start) := by
        cases mandatory : first.mandatory with
        | false => simp
        | true => simpa using getLsbD_setBit (by omega)
      rw [bit, or_assoc]
      refine or_congr_right ?_
      constructor
      · rintro (⟨mandatory, rfl⟩ | ⟨j, opt, rfl, found, mandatory⟩)
        · exact ⟨0, first, rfl, rfl, mandatory⟩
        · exact ⟨j + 1, opt, by omega, found, mandatory⟩
      · rintro ⟨j, opt, rfl, found, mandatory⟩
        cases j with
        | zero =>
            obtain rfl : first = opt := by simpa using found
            exact Or.inl ⟨mandatory, rfl⟩
        | succ j => exact Or.inr ⟨j, opt, by omega, found, mandatory⟩

theorem getLsbD_mandatoryBitmap {opts : List (CmdlineOpt σ)} (few : opts.length ≤ 64) {i : Nat}
    : (mandatoryBitmap opts).getLsbD i = true
      ↔ ∃ opt, opts[i]? = some opt ∧ opt.mandatory = true := by
  rw [mandatoryBitmap, getLsbD_mandatory_fold opts 0 0 (by omega)]
  simp

/-- The mandatory options that were seen are all of them, or the check is not made. -/
theorem Checked.complete_iff {opts : List (CmdlineOpt σ)} (table : OptionTable opts)
    {results : List Result} {value : σ} {state : ParserState σ}
    (checked : Checked opts results (.start value) state)
    : ¬(state.mandatoryCheck ≠ mandatoryBitmap opts ∧ state.terminateCheck = false)
      ↔ Complete opts results := by
  have terminate : state.terminateCheck = true
      ↔ ∃ opt ∈ opts, opt.terminate = true ∧ Seen opt results := by
    rw [checked.terminate]
    simp [ParserState.start]
  have mandatory : state.mandatoryCheck = mandatoryBitmap opts
      ↔ ∀ opt ∈ opts, opt.mandatory = true → Seen opt results := by
    have bit : ∀ i, state.mandatoryCheck.getLsbD i = true
        ↔ ∃ opt, opts[i]? = some opt ∧ opt.mandatory = true ∧ Seen opt results := by
      intro i
      rw [checked.mandatory i]
      simp [ParserState.start]
    constructor
    · intro same opt inside mandatory
      obtain ⟨i, found⟩ := List.mem_iff_getElem?.mp inside
      have set : (mandatoryBitmap opts).getLsbD i = true :=
        (getLsbD_mandatoryBitmap table.few).mpr ⟨opt, found, mandatory⟩
      rw [← same, bit] at set
      obtain ⟨other, found', _, seen⟩ := set
      rw [found] at found'
      exact Option.some.inj found' ▸ seen
    · intro all
      refine BitVec.eq_of_getLsbD_eq ?_
      intro i _
      rw [Bool.eq_iff_iff, bit, getLsbD_mandatoryBitmap table.few]
      constructor
      · rintro ⟨opt, found, mandatory, _⟩
        exact ⟨opt, found, mandatory⟩
      · rintro ⟨opt, found, mandatory⟩
        exact ⟨opt, found, mandatory, all opt (List.mem_of_getElem? found) mandatory⟩
  rw [Complete, ← mandatory, ← terminate, not_and_or, not_not, Bool.not_eq_false]

/-- What is skipped or left is excused by two dashes before it, or it is an error. -/
theorem extra_iff {argv : List (List Char)} {last : Scan} (ends : Ends (.start argv) last)
    (flags : BitVec 32)
    : ¬((last.optind ≥ 1 ∧ last.optind < argv.length ∧ ignoreExtra flags = false)
          ∧ last.argv[last.optind - 1]? ≠ some ['-', '-'])
      ↔ last.skipped = [] ∨ ignoreExtra flags = true
        ∨ last.passed.getLast? = some ['-', '-'] := by
  have length : argv.length = last.passed.length + (last.skipped.length + last.rest.length) := by
    have same := ends.argv.length_eq
    cases argv with
    | nil => simpa [Scan.argv, Scan.start] using same.symm
    | cons program args => simpa [Scan.argv, Scan.start] using same.symm
  by_cases none : last.passed = []
  · have empty : argv = [] := by
      cases argv with
      | nil => rfl
      | cons program args =>
          have := none ▸ ends.passed
          simp [Scan.start] at this
    subst empty
    rw [List.length_nil] at length
    have nothing : last.skipped = [] := List.length_eq_zero_iff.mp (by omega)
    simp [nothing]
  · have before : last.argv[last.optind - 1]? = last.passed.getLast? := by
      have positive := List.length_pos_iff.mpr none
      rw [Scan.argv, Scan.optind, List.getElem?_append_left (by omega), List.getLast?_eq_getElem?]
    have positive : last.optind ≥ 1 := List.length_pos_iff.mpr none
    rw [before]
    constructor
    · intro accepted
      by_contra refused
      rw [not_or, not_or, Bool.not_eq_true] at refused
      obtain ⟨skipped, extra, dashes⟩ := refused
      have := List.length_pos_iff.mpr skipped
      exact accepted ⟨⟨positive, by rw [Scan.optind]; omega, extra⟩, dashes⟩
    · rintro excused ⟨⟨_, fewer, extra⟩, dashes⟩
      have left : last.rest = [] := ends.stopped.resolve_right dashes
      rcases excused with skipped | ignored | same
      · rw [Scan.optind, length, left, skipped] at fewer
        simp at fewer
      · rw [ignored] at extra
        cases extra
      · exact dashes same

theorem finishParse_accepts_iff {opts : List (CmdlineOpt σ)} (table : OptionTable opts)
    {results : List Result} {value : σ} {state : ParserState σ}
    (checked : Checked opts results (.start value) state)
    {argv : List (List Char)} {last : Scan} (ends : Ends (.start argv) last) (flags : BitVec 32)
    : (finishParse opts argv.length flags state last).ret = 0
      ↔ PassesChecks opts flags results last := by
  rw [PassesChecks, ← checked.complete_iff table, ← extra_iff ends flags, finishParse]
  split
  · rename_i omitted
    simp [Parsed.ret, omitted]
  · rename_i complete
    split
    · rename_i extra
      simp [Parsed.ret, extra]
    · rename_i none
      simp only [Parsed.ret, Option.isNone_none, if_true, true_iff]
      exact ⟨complete, none⟩

theorem finishParse_calls (opts : List (CmdlineOpt σ)) (argc : Nat) (flags : BitVec 32)
    (state : ParserState σ) (last : Scan)
    : (finishParse opts argc flags state last).calls = state.calls := by
  unfold finishParse
  split
  · rfl
  · split
    · rfl
    · rfl

-----------------------------------------------------------------------------------------
-- The contract

theorem not_refusedResult_unknown {flags : BitVec 32} {optopt : Char}
    : ¬RefusedResult flags (.unknown optopt) ↔ (optopt ≠ '?' ∧ optopt ≠ 'h') ∧ ignoreUnknown flags := by
  rw [RefusedResult, not_not, and_comm]

/-- Results without an error are handled, and the loop goes on after them. -/
theorem Expected.handled {opts : List (CmdlineOpt σ)} (table : OptionTable opts)
    {flags : BitVec 32} {value : σ} {results : List Result} {calls : List CallbackCall}
    {faultless : Bool} (expected : Expected opts flags value results calls faultless)
    : faultless = true → ∀ state : ParserState σ, state.value = value →
        ∃ after : ParserState σ,
          (∀ more, handleAll opts flags (results ++ more) state = handleAll opts flags more after)
          ∧ after.calls = state.calls ++ calls ∧ Checked opts results state after := by
  induction expected with
  | done value =>
      intro _ state _
      exact ⟨state, fun _ => rfl, (List.append_nil _).symm, .nil opts state⟩
  | @called value after opt i arg results calls faultless member accepted more hind =>
      intro fine state same
      obtain ⟨last, handled, made, checked⟩ :=
        hind fine ((state.called after ⟨i, arg⟩).check opt i) rfl
      refine ⟨last, ?_, ?_, .option table member checked⟩
      · intro more
        rw [List.cons_append, handleAll_option table flags member, same, accepted,
          if_neg (not_not.mpr rfl), handled more]
      · rw [made]
        simp [ParserState.check, ParserState.called]
  | failed => nofun
  | ignored harmless more hind =>
      intro fine state same
      obtain ⟨last, handled, made, checked⟩ := hind fine state same
      refine ⟨last, ?_, made, checked.unknown⟩
      intro more
      rw [List.cons_append, handleAll_unknown table,
        if_pos (Or.inr (not_refusedResult_unknown.mp harmless)), handled more]
  | refused => nofun

/-- The first error stops the loop, or it is a result with `optopt` zero. -/
theorem Expected.stops_or_silent {opts : List (CmdlineOpt σ)} (table : OptionTable opts)
    {flags : BitVec 32} {value : σ} {results : List Result} {calls : List CallbackCall}
    {faultless : Bool} (expected : Expected opts flags value results calls faultless)
    : faultless = false → ∀ state : ParserState σ, state.value = value →
        (∃ error after, handleAll opts flags results state = (some error, after)
          ∧ after.calls = state.calls ++ calls)
        ∨ (ignoreUnknown flags = false
            ∧ ∃ before after, results = before ++ .unknown '\x00' :: after
                ∧ Expected opts flags value before calls true) := by
  induction expected with
  | done => nofun
  | @called value after opt i arg results calls faultless member accepted more hind =>
      intro fault state same
      rcases hind fault ((state.called after ⟨i, arg⟩).check opt i) rfl with
        ⟨error, last, handled, made⟩ | ⟨unset, before, rest, same', expected⟩
      · left
        refine ⟨error, last, ?_, ?_⟩
        · rw [handleAll_option table flags member, same, accepted, if_neg (not_not.mpr rfl), handled]
        · rw [made]
          simp [ParserState.check, ParserState.called]
      · right
        refine ⟨unset, .option opt.optShort arg :: before, rest, ?_, .called member accepted expected⟩
        rw [same', List.cons_append]
  | @failed value opt i arg results member failed =>
      intro _ state same
      left
      refine ⟨.optionError opt.optShort, state.called (opt.func value arg i).2 ⟨i, arg⟩, ?_, rfl⟩
      rw [handleAll_option table flags member, same, if_pos failed]
  | @ignored value optopt results calls faultless harmless more hind =>
      intro fault state same
      rcases hind fault state same with
        ⟨error, last, handled, made⟩ | ⟨unset, before, rest, same', expected⟩
      · left
        refine ⟨error, last, ?_, made⟩
        rw [handleAll_unknown table, if_pos (Or.inr (not_refusedResult_unknown.mp harmless)), handled]
      · right
        refine ⟨unset, .unknown optopt :: before, rest, ?_, .ignored harmless expected⟩
        rw [same', List.cons_append]
  | @refused value result results error =>
      intro _ state _
      cases result with
      | option val arg => exact absurd error not_false
      | unknown optopt =>
          by_cases null : optopt = '\x00'
          · right
            subst null
            refine ⟨?_, [], results, rfl, .done value⟩
            cases set : ignoreUnknown flags with
            | false => rfl
            | true => exact absurd error (not_refusedResult_unknown.mpr ⟨by decide, set⟩)
          · left
            refine ⟨.unknownOption optopt, state, ?_, (List.append_nil _).symm⟩
            rw [handleAll_unknown table, if_neg]
            rintro (zero | letter)
            · exact null zero
            · exact not_refusedResult_unknown.mpr letter error
      | missing optopt =>
          exact Or.inl ⟨_, state, handleAll_missing table flags optopt results state,
            (List.append_nil _).symm⟩

/-- Every list of results that `getopt_long` can give is specified. -/
theorem expected_total {opts : List (CmdlineOpt σ)} (flags : BitVec 32) (results : List Result)
    (known : ∀ val arg, .option val arg ∈ results → (getoptOptions opts).Known val)
    : ∀ value : σ, ∃ calls faultless, Expected opts flags value results calls faultless := by
  induction results with
  | nil => exact fun value => ⟨[], true, .done value⟩
  | cons result results hind =>
      intro value
      have known' : ∀ val arg, .option val arg ∈ results → (getoptOptions opts).Known val :=
        fun val arg inside => known val arg (List.mem_cons_of_mem _ inside)
      by_cases error : RefusedResult flags result
      · exact ⟨[], false, .refused error⟩
      · cases result with
        | option val arg =>
            obtain ⟨i, opt, member, rfl⟩ := known_letter (known val arg List.mem_cons_self)
            by_cases failed : (opt.func value arg i).1 ≠ 0
            · exact ⟨_, _, .failed member failed⟩
            · obtain ⟨calls, faultless, more⟩ := hind known' (opt.func value arg i).2
              have accepted : opt.func value arg i = (0, (opt.func value arg i).2) :=
                Prod.ext (not_not.mp failed) rfl
              exact ⟨_, _, .called member accepted more⟩
        | unknown optopt =>
            obtain ⟨calls, faultless, more⟩ := hind known' value
            exact ⟨calls, faultless, .ignored error more⟩
        | missing optopt => exact absurd trivial error

/-- A result that is refused is the first error after results without one. -/
theorem Expected.before_refused {opts : List (CmdlineOpt σ)} {flags : BitVec 32} {value : σ}
    {before : List Result} {calls : List CallbackCall} {faultless : Bool}
    (expected : Expected opts flags value before calls faultless) {result : Result}
    (error : RefusedResult flags result) (after : List Result)
    : faultless = true → Expected opts flags value (before ++ result :: after) calls false := by
  induction expected with
  | done value => exact fun _ => .refused error
  | called member accepted _ hind => exact fun fine => .called member accepted (hind fine)
  | failed => nofun
  | ignored harmless _ hind => exact fun fine => .ignored harmless (hind fine)
  | refused => nofun

/-- After a result that was overlooked a callback runs, or the loop ends without an error. -/
theorem GoesOn.handled {opts : List (CmdlineOpt σ)} (table : OptionTable opts) {flags : BitVec 32}
    {accepted : Prop} {results : List Result} (goesOn : GoesOn accepted results)
    : (∀ val arg, .option val arg ∈ results → (getoptOptions opts).Known val) →
      ∀ state : ParserState σ,
        (handleAll opts flags results state = (none, state) ∧ accepted)
        ∨ state.calls.length < (handleAll opts flags results state).2.calls.length := by
  induction goesOn with
  | silent _ hind =>
      intro known state
      rw [handleAll_unknown table, if_pos (Or.inl rfl)]
      exact hind (fun val arg inside => known val arg (List.mem_cons_of_mem _ inside)) state
  | option val arg results =>
      intro known state
      obtain ⟨i, opt, member, rfl⟩ := known_letter (known val arg List.mem_cons_self)
      right
      rw [handleAll_option table flags member]
      split
      · simp [ParserState.called]
      · refine Nat.lt_of_lt_of_le ?_ (handleAll_calls results _).length_le
        simp [ParserState.check, ParserState.called]
  | finished passes =>
      intro _ state
      exact Or.inl ⟨rfl, passes⟩

/-- If it does not go on so, no callback runs and an error is found in the end. -/
theorem handleAll_of_not_goesOn {opts : List (CmdlineOpt σ)} (table : OptionTable opts)
    {flags : BitVec 32} (unset : ignoreUnknown flags = false) {accepted : Prop}
    (results : List Result) (state : ParserState σ)
    : ¬GoesOn accepted results →
        (∃ error, handleAll opts flags results state = (some error, state))
        ∨ (handleAll opts flags results state = (none, state) ∧ ¬accepted) := by
  induction results with
  | nil => exact fun stops => Or.inr ⟨rfl, fun passes => stops (.finished passes)⟩
  | cons result results hind =>
      intro stops
      cases result with
      | option val arg => exact absurd (.option val arg results) stops
      | unknown optopt =>
          rw [handleAll_unknown table]
          by_cases null : optopt = '\x00'
          · subst null
            rw [if_pos (Or.inl rfl)]
            exact hind fun goesOn => stops (.silent goesOn)
          · rw [if_neg (by simp [null, unset])]
            exact Or.inl ⟨_, rfl⟩
      | missing optopt => exact Or.inl ⟨_, handleAll_missing table flags optopt results state⟩

theorem cmdlineParser_error {opts : List (CmdlineOpt σ)} (table : OptionTable opts)
    {flags : BitVec 32} {value : σ} {argv : List (List Char)} {error : CmdlineError}
    {state : ParserState σ}
    (handled : handleAll opts flags (scanArgs (getoptOptions opts) argv).1 (.start value)
      = (some error, state))
    : cmdlineParser opts value argv flags = ⟨some error, state.value, state.calls, none⟩ := by
  obtain ⟨outcome, final, -⟩ := parseLoop_eq_handleAll opts flags
    ((Scan.start argv).measure + 1) (.start argv) (.start value)
  rw [← scanArgs, handled] at outcome final
  rw [cmdlineParser, if_neg (Nat.not_lt.mpr table.few)]
  revert outcome final
  rcases parseLoop opts flags ((Scan.start argv).measure + 1) (.start argv) (.start value) with
    ⟨found, last, scan⟩
  intro outcome final
  obtain rfl : found = some error := outcome
  obtain rfl : last = state := final
  rfl

theorem cmdlineParser_done {opts : List (CmdlineOpt σ)} (table : OptionTable opts)
    {flags : BitVec 32} {value : σ} {argv : List (List Char)} {state : ParserState σ}
    (handled : handleAll opts flags (scanArgs (getoptOptions opts) argv).1 (.start value)
      = (none, state))
    : cmdlineParser opts value argv flags
      = finishParse opts argv.length flags state (scanArgs (getoptOptions opts) argv).2 := by
  obtain ⟨outcome, final, ended⟩ := parseLoop_eq_handleAll opts flags
    ((Scan.start argv).measure + 1) (.start argv) (.start value)
  rw [← scanArgs] at outcome final ended
  rw [handled] at outcome final
  rw [cmdlineParser, if_neg (Nat.not_lt.mpr table.few)]
  revert outcome final ended
  rcases parseLoop opts flags ((Scan.start argv).measure + 1) (.start argv) (.start value) with
    ⟨found, last, scan⟩
  intro outcome final ended
  obtain rfl : found = none := outcome
  obtain rfl : last = state := final
  rw [← ended rfl]

/-- A result with `optopt` zero that is overlooked breaks the contract. -/
theorem not_meetsContract_of_unknown {opts : List (CmdlineOpt σ)} (table : OptionTable opts)
    {flags : BitVec 32} {value : σ} {argv : List (List Char)}
    (overlooks : OverlooksUnknown opts flags value argv)
    : ¬MeetsContract opts flags value argv := by
  intro meets
  obtain ⟨unset, before, after, calls, same, expected, goesOn⟩ := overlooks
  obtain ⟨ends, known⟩ := scanArgs_end (getoptOptions opts) argv
  have error : RefusedResult flags (.unknown '\x00') := by
    intro harmless
    rw [harmless.1] at unset
    cases unset
  obtain ⟨state, handled, made, checked⟩ := expected.handled table rfl (.start value) rfl
  have handled' := handled (.unknown '\x00' :: after)
  rw [← same, handleAll_unknown table, if_pos (Or.inl rfl)] at handled'
  obtain ⟨madeCalls, returned⟩ := meets.met calls false
    (same ▸ expected.before_refused error after rfl)
  have known' : ∀ val arg, .option val arg ∈ after → (getoptOptions opts).Known val := by
    intro val arg inside
    refine known val arg ?_
    rw [same]
    exact List.mem_append_right _ (List.mem_cons_of_mem _ inside)
  rcases goesOn.handled table known' state with ⟨finished, passes⟩ | longer
  · rw [finished] at handled'
    have accepted := (finishParse_accepts_iff table checked ends flags).mpr passes
    rw [← cmdlineParser_done table handled'] at accepted
    exact absurd (returned.mp accepted).1 Bool.false_ne_true
  · have all : (cmdlineParser opts value argv flags).calls
        = (handleAll opts flags after state).2.calls := by
      revert handled'
      rcases handleAll opts flags after state with ⟨outcome | outcome, last⟩
      · intro handled'
        rw [cmdlineParser_done table handled', finishParse_calls]
      · intro handled'
        rw [cmdlineParser_error table handled']
    rw [← all, madeCalls, made] at longer
    exact absurd longer (by simp [ParserState.start])

/-- Operands that are overlooked break the contract. -/
theorem not_meetsContract_of_extra {opts : List (CmdlineOpt σ)} (table : OptionTable opts)
    {flags : BitVec 32} {value : σ} {argv : List (List Char)}
    (overlooks : OverlooksExtra opts flags value argv)
    : ¬MeetsContract opts flags value argv := by
  intro meets
  obtain ⟨⟨calls, expected⟩, complete, unset, skipped, dashes⟩ := overlooks
  obtain ⟨ends, -⟩ := scanArgs_end (getoptOptions opts) argv
  obtain ⟨state, handled, -, checked⟩ := expected.handled table rfl (.start value) rfl
  have handled' := handled []
  rw [List.append_nil] at handled'
  have accepted := (finishParse_accepts_iff table checked ends flags).mpr
    ⟨complete, Or.inr (Or.inr dashes)⟩
  rw [← cmdlineParser_done table handled'] at accepted
  obtain ⟨-, -, excused⟩ := ((meets.met calls true expected).2.mp accepted)
  rcases excused with none | ignored
  · exact skipped none
  · rw [ignored] at unset
    cases unset

/-- `cmdline_parser` returns 0 exactly if no result is an error, the mandatory options are there
and there is no operand before two dashes, and the callbacks run up to the first error, unless the
first error is an unknown long option or an operand is excused by two dashes that come later.
-/
theorem meetsContract_iff {opts : List (CmdlineOpt σ)} (table : OptionTable opts)
    (flags : BitVec 32) (value : σ) (argv : List (List Char))
    : MeetsContract opts flags value argv
      ↔ ¬OverlooksUnknown opts flags value argv ∧ ¬OverlooksExtra opts flags value argv := by
  constructor
  · intro meets
    constructor
    · exact fun overlooks => not_meetsContract_of_unknown table overlooks meets
    · exact fun overlooks => not_meetsContract_of_extra table overlooks meets
  · rintro ⟨unknowns, extras⟩
    obtain ⟨ends, known⟩ := scanArgs_end (getoptOptions opts) argv
    refine ⟨expected_total flags _ known value, ?_⟩
    intro calls faultless expected
    cases faultless with
    | true =>
        obtain ⟨state, handled, made, checked⟩ := expected.handled table rfl (.start value) rfl
        have handled' := handled []
        rw [List.append_nil] at handled'
        rw [cmdlineParser_done table handled', finishParse_calls,
          finishParse_accepts_iff table checked ends flags]
        refine ⟨made, ?_⟩
        constructor
        · rintro ⟨complete, skipped | ignored | dashes⟩
          · exact ⟨rfl, complete, Or.inl skipped⟩
          · exact ⟨rfl, complete, Or.inr ignored⟩
          · refine ⟨rfl, complete, ?_⟩
            by_contra refused
            rw [not_or, Bool.not_eq_true] at refused
            exact extras ⟨⟨calls, expected⟩, complete, refused.2, refused.1, dashes⟩
        · rintro ⟨-, complete, skipped | ignored⟩
          · exact ⟨complete, Or.inl skipped⟩
          · exact ⟨complete, Or.inr (Or.inl ignored)⟩
    | false =>
        rcases expected.stops_or_silent table rfl (.start value) rfl with
          ⟨error, state, handled, made⟩ | ⟨unset, before, after, same, expected'⟩
        · rw [cmdlineParser_error table handled]
          exact ⟨made, by simp [Parsed.ret]⟩
        · obtain ⟨state, handled, made, checked⟩ :=
            expected'.handled table rfl (.start value) rfl
          have handled' := handled (.unknown '\x00' :: after)
          rw [← same, handleAll_unknown table, if_pos (Or.inl rfl)] at handled'
          have stops : ¬GoesOn
              (PassesChecks opts flags before (scanArgs (getoptOptions opts) argv).2) after :=
            fun goesOn => unknowns ⟨unset, before, after, calls, same, expected', goesOn⟩
          rcases handleAll_of_not_goesOn table unset after state stops with
            ⟨error, stopped⟩ | ⟨finished, refused⟩
          · rw [stopped] at handled'
            rw [cmdlineParser_error table handled']
            exact ⟨made, by simp [Parsed.ret]⟩
          · rw [finished] at handled'
            rw [cmdlineParser_done table handled', finishParse_calls,
              finishParse_accepts_iff table checked ends flags]
            exact ⟨made, by simp [refused]⟩

/-- A table with one option, which takes no argument and whose callback counts. -/
def countingTable : List (CmdlineOpt Nat) :=
  [⟨['v', 'e', 'r'], 'v', 0, fun count _ _ => (0, count + 1), .no⟩]

theorem optionTable_countingTable : OptionTable countingTable where
  few := by decide
  distinct := by decide
  unreserved := by simp [countingTable]

/-- A mandatory option, whose argument must not be empty, and one that is counted. -/
def sizedTable : List (CmdlineOpt Nat) :=
  [⟨['s', 'i', 'z', 'e'], 's', 1, fun size arg _ =>
      if arg.getD [] = [] then (1, size) else (0, (arg.getD []).length), .required⟩,
    ⟨['v', 'e', 'r'], 'v', 0, fun size _ _ => (0, size + 1), .no⟩]

theorem optionTable_sizedTable : OptionTable sizedTable where
  few := by decide
  distinct := by decide
  unreserved := by simp [sizedTable]

/-- Witness: two options are accepted, and their callbacks run in the order of the arguments;
without the mandatory one they are refused.
-/
theorem sized_options_meet
    : MeetsContract sizedTable 0 0 [['p'], ['-', 'v'], ['-', 's', 'a', 'b']]
      ∧ (cmdlineParser sizedTable 0 [['p'], ['-', 'v'], ['-', 's', 'a', 'b']] 0).calls
        = [⟨1, none⟩, ⟨0, some ['a', 'b']⟩]
      ∧ MeetsContract sizedTable 0 0 [['p'], ['-', 'v']]
      ∧ (cmdlineParser sizedTable 0 [['p'], ['-', 'v']] 0).ret = -1 := by
  have both : scanArgs (getoptOptions sizedTable) [['p'], ['-', 'v'], ['-', 's', 'a', 'b']]
      = ([.option 'v' none, .option 's' (some ['a', 'b'])],
        ⟨[['p'], ['-', 'v'], ['-', 's', 'a', 'b']], [], [], []⟩) := by decide
  have one : scanArgs (getoptOptions sizedTable) [['p'], ['-', 'v']]
      = ([.option 'v' none], ⟨[['p'], ['-', 'v']], [], [], []⟩) := by decide
  have known {results : List Result} {argv : List (List Char)} {last : Scan}
      (scanned : scanArgs (getoptOptions sizedTable) argv = (results, last))
      (none : Result.unknown '\x00' ∉ results)
      : ¬ OverlooksUnknown sizedTable 0 0 argv := by
    rintro ⟨_, before, after, _, same, _⟩
    have split : results = before ++ Result.unknown '\x00' :: after := by rwa [scanned] at same
    exact none (split ▸ List.mem_append_right _ List.mem_cons_self)
  refine ⟨(meetsContract_iff optionTable_sizedTable 0 0 _).mpr ⟨known both (by simp), ?_⟩,
    by decide, (meetsContract_iff optionTable_sizedTable 0 0 _).mpr ⟨known one (by simp), ?_⟩,
    by decide⟩
  · rintro ⟨_, _, _, skipped, _⟩
    exact skipped (by rw [both])
  · rintro ⟨_, _, _, skipped, _⟩
    exact skipped (by rw [one])

/-- A long option that is unknown is accepted, and so is an operand before two dashes. -/
theorem unknown_long_option_accepted
    : OptionTable countingTable
      ∧ (cmdlineParser countingTable 0 [['p'], ['-', '-', 'x']] 0).ret = 0
      ∧ ¬MeetsContract countingTable 0 0 [['p'], ['-', '-', 'x']]
      ∧ (cmdlineParser countingTable 0 [['p'], ['x'], ['-', '-']] 0).ret = 0
      ∧ ¬MeetsContract countingTable 0 0 [['p'], ['x'], ['-', '-']] := by
  have unknown : scanArgs (getoptOptions countingTable) [['p'], ['-', '-', 'x']]
      = ([.unknown '\x00'], ⟨[['p'], ['-', '-', 'x']], [], [], []⟩) := by decide
  have extra : scanArgs (getoptOptions countingTable) [['p'], ['x'], ['-', '-']]
      = ([], ⟨[['p'], ['-', '-']], [['x']], [], []⟩) := by decide
  have complete : ∀ results, Complete countingTable results :=
    fun results => Or.inl (by simp [countingTable, CmdlineOpt.mandatory])
  refine ⟨optionTable_countingTable, by decide, ?_, by decide, ?_⟩
  · refine not_meetsContract_of_unknown optionTable_countingTable ⟨by decide, [], [], [], ?_⟩
    rw [unknown]
    exact ⟨rfl, .done 0, .finished ⟨complete _, Or.inl rfl⟩⟩
  · refine not_meetsContract_of_extra optionTable_countingTable ?_
    rw [OverlooksExtra, extra]
    exact ⟨⟨[], .done 0⟩, complete _, by decide, by decide, rfl⟩

end Parser

end VirtioForwarder
