import VirtioForwarder.Inputs.PciAddress

/-! The commands that the daemon takes from a file: what `scan_file` recognises in the bytes that
it has read, and in the memory behind them.
-/

namespace VirtioForwarder

open CText

/-- What the file asks for. -/
inductive FileAction where
  | addPort
  | delPort
  deriving DecidableEq, Repr

/-- The text that a command begins with. -/
def FileAction.keyword : FileAction → List Char
  | .addPort => "add_port ".toList
  | .delPort => "del_port ".toList

/-- `MATCH_TOKEN`. The length that is compared is `sizeof` of one character of the keyword. -/
def matchToken (test keyword : List Char) : Bool := test.take 1 == keyword.take 1

/-- `buf` after `fread`: the first 128 bytes, and zeros behind fewer. -/
def fileBuf (content : List Char) : List Char :=
  content.take 128 ++ List.replicate (128 - content.length) '\x00'

/-- The netdev that `sscanf` reads from `args`; the string may go on in the memory behind `buf`. -/
def fileNetdev (content beyond : List Char) : Option (List Char) :=
  (scanWord 16 (cString ((fileBuf content ++ beyond).drop 8))).map Prod.fst

/-- `scan_file`: the function that is called, with the VF that it is called for. `ethtool` is what
is read from the program of that name for a netdev.
-/
def scanFile (ethtool : List Char → EthtoolRead) (content beyond : List Char)
    : Option (FileAction × SriovInfo) :=
  if content = [] then none
  else
    let buf := fileBuf content
    if matchToken buf FileAction.addPort.keyword then do
      let netdev ← fileNetdev content beyond
      let vfinfo ← getVfPcieFromNetdev (ethtool netdev)
      return (.addPort, vfinfo)
    else if matchToken buf FileAction.delPort.keyword then do
      let netdev ← fileNetdev content beyond
      let vfinfo ← getVfPcieFromNetdev (ethtool netdev)
      return (.delPort, vfinfo)
    else none

/-- The name of a netdev. -/
def IsNetdev (name : List Char) : Prop :=
  name ≠ [] ∧ ∀ c ∈ name, isSpace c = false ∧ c ≠ '\x00'

/-- A name ends here. -/
def EndsName (tail : List Char) : Prop := ∀ c ∈ tail.head?, isSpace c = true ∨ c = '\x00'

/-- The content begins with the keyword, and a name follows it. -/
def Names (content : List Char) (action : FileAction) (name : List Char) : Prop :=
  ∃ tail, content = action.keyword ++ (name ++ tail) ∧ IsNetdev name ∧ EndsName tail

/-- A netdev for which `ethtool` prints this resolves to the VF: so it does in a cleared array. -/
def resolves (output : List Char) : Option SriovInfo := getVfPcieFromNetdev ⟨output, []⟩

/-- The netdev resolves in the same way whatever stood in the array before. -/
def Settles (output : List Char) : Prop :=
  ∀ memory, getVfPcieFromNetdev ⟨output, memory⟩ = resolves output

/-- The function that is called is the one that the content asks for, for a netdev that resolves to
the VF; whatever netdevs there are for which `ethtool` prints something possible, and whatever stands
in memory behind the buffer and in the array of the lookup.
-/
def FileExact (possible : List Char → Prop) (content : List Char) : Prop :=
  ∀ (output : List Char → List Char) (memory beyond : List Char),
    (∀ netdev, possible (output netdev))
    → ∀ action vfinfo,
      scanFile (fun netdev => ⟨output netdev, memory⟩) content beyond = some (action, vfinfo)
      ↔ ∃ name, Names content action name ∧ resolves (output name) = some vfinfo

/-- Only white space stands from byte 8 on, up to a zero byte or the end of the file in the first 128
bytes.
-/
def NoArgs (content : List Char) : Prop :=
  ∃ spaces rest, (content.take 128).drop 8 = spaces ++ rest ∧ (∀ c ∈ spaces, isSpace c = true)
    ∧ (rest.head? = some '\x00' ∨ rest = [] ∧ content.length < 128)

/-- The content does not begin with the first letter of a keyword, or has no argument at byte 8, or is
a command with a name of at most 16 characters, and what `ethtool` prints settles what a netdev
resolves to.
-/
def FileConditions (possible : List Char → Prop) (content : List Char) : Prop :=
  (∀ c ∈ content.head?, c ≠ 'a' ∧ c ≠ 'd')
  ∨ NoArgs content
  ∨ (∃ action name, Names content action name ∧ name.length ≤ 16)
    ∧ ∀ output, possible output → Settles output

theorem keyword_injective {action other : FileAction}
    (same : action.keyword.take 1 = other.keyword.take 1)
    : action = other := by
  cases action <;> cases other
  · rfl
  · exact absurd same (by decide)
  · exact absurd same (by decide)
  · rfl

theorem matchToken_iff {content keyword : List Char} (some : content ≠ [])
    : matchToken (fileBuf content) keyword = true ↔ content.take 1 = keyword.take 1 := by
  obtain ⟨c, rest, rfl⟩ := List.exists_cons_of_ne_nil some
  exact beq_iff_eq

/-- What `scan_file` decides on: the first byte, and the name that it reads. -/
theorem scanFile_eq_some {ethtool : List Char → EthtoolRead} {content beyond : List Char}
    (some : content ≠ []) {action : FileAction} {vfinfo : SriovInfo}
    : scanFile ethtool content beyond = .some (action, vfinfo)
      ↔ content.take 1 = action.keyword.take 1
        ∧ ∃ netdev, fileNetdev content beyond = .some netdev
          ∧ getVfPcieFromNetdev (ethtool netdev) = .some vfinfo := by
  have branch : ∀ other : FileAction,
      (do
        let netdev ← fileNetdev content beyond
        let vfinfo ← getVfPcieFromNetdev (ethtool netdev)
        return (other, vfinfo)) = Option.some (action, vfinfo)
      ↔ other = action ∧ ∃ netdev, fileNetdev content beyond = .some netdev
          ∧ getVfPcieFromNetdev (ethtool netdev) = .some vfinfo := by
    intro other
    simp only [Option.bind_eq_bind, Option.bind_eq_some_iff, Option.pure_def, Option.some.injEq,
      Prod.mk.injEq]
    constructor
    · rintro ⟨netdev, read, info, resolved, rfl, rfl⟩
      exact ⟨rfl, netdev, read, resolved⟩
    · rintro ⟨rfl, netdev, read, resolved⟩
      exact ⟨netdev, read, vfinfo, resolved, rfl, rfl⟩
  rw [scanFile, if_neg some]
  dsimp only
  by_cases add : content.take 1 = FileAction.addPort.keyword.take 1
  · rw [if_pos ((matchToken_iff some).mpr add), branch, add]
    exact and_congr_left' ⟨fun same => same ▸ rfl, keyword_injective⟩
  · rw [if_neg (mt (matchToken_iff some).mp add)]
    by_cases del : content.take 1 = FileAction.delPort.keyword.take 1
    · rw [if_pos ((matchToken_iff some).mpr del), branch, del]
      exact and_congr_left' ⟨fun same => same ▸ rfl, keyword_injective⟩
    · rw [if_neg (mt (matchToken_iff some).mp del)]
      refine iff_of_false (by simp) ?_
      rintro ⟨first, _⟩
      cases action
      · exact add first
      · exact del first

/-- Two names at one place are the same. -/
theorem netdev_unique {first second tail rest : List Char} (named : IsNetdev first)
    (other : IsNetdev second) (ends : EndsName tail) (stops : EndsName rest)
    (same : first ++ tail = second ++ rest)
    : first = second := by
  have read : ∀ {name tail : List Char}, IsNetdev name → EndsName tail →
      (name ++ tail).takeWhile (fun c => !isSpace c && c != '\x00') = name := by
    intro name tail named ends
    rw [List.takeWhile_append_of_pos]
    · cases tail with
      | nil => exact List.append_nil _
      | cons c more =>
          rw [List.takeWhile_cons_of_neg, List.append_nil]
          have stop := ends c rfl
          rcases stop with space | zero
          · simp [space]
          · simp [zero]
    · intro c member
      have plain := named.2 c member
      simp [plain.1, plain.2]
  rw [← read named ends, same, read other stops]

/-- A command begins with the first letter of its own keyword. -/
theorem Names.first {content name : List Char} {action : FileAction}
    (named : Names content action name)
    : content.take 1 = action.keyword.take 1 := by
  obtain ⟨tail, rfl, _⟩ := named
  cases action <;> rfl

theorem Names.unique {content name other : List Char} {action otherAction : FileAction}
    (named : Names content action name) (again : Names content otherAction other)
    : action = otherAction ∧ name = other := by
  have equal : action = otherAction := keyword_injective (named.first.symm.trans again.first)
  subst equal
  obtain ⟨tail, whole, plain, ends⟩ := named
  obtain ⟨rest, same, plain', ends'⟩ := again
  have behind := List.append_cancel_left (whole.symm.trans same)
  exact ⟨rfl, netdev_unique plain plain' ends ends' behind⟩

/-- The string of the memory ends with the name or goes on with white space. -/
theorem EndsName.cString {memory : List Char} (ends : EndsName memory)
    : ∀ c ∈ (cString memory).head?, isSpace c = true := by
  intro c first
  cases memory with
  | nil => cases first
  | cons d rest =>
      by_cases zero : d = '\x00'
      · rw [zero] at first
        cases first
      · rw [CText.cString, List.takeWhile_cons_of_pos (by simpa using zero)] at first
        cases first
        exact (ends c rfl).resolve_right zero

/-- The name of a command is read, if it fits. -/
theorem Names.fileNetdev {content name : List Char} {action : FileAction}
    (named : Names content action name) (fits : name.length ≤ 16) (beyond : List Char)
    : fileNetdev content beyond = some name := by
  obtain ⟨tail, rfl, ⟨some, plain⟩, ends⟩ := named
  have length : action.keyword.length = 9 := by cases action <;> rfl
  have last : action.keyword.drop 8 = [' '] := by cases action <;> rfl
  generalize zeros : List.replicate (128 - (action.keyword ++ (name ++ tail)).length) '\x00' = fill
  generalize behind : tail.take (119 - name.length) ++ (fill ++ beyond) = more
  have cut : (action.keyword ++ (name ++ tail)).take 128
      = action.keyword ++ (name ++ tail.take (119 - name.length)) := by
    rw [List.take_append, List.take_of_length_le (by omega), length, List.take_append,
      List.take_of_length_le (by omega)]
  have args : (fileBuf (action.keyword ++ (name ++ tail)) ++ beyond).drop 8
      = ' ' :: name ++ more := by
    rw [fileBuf, zeros, cut, List.append_assoc, List.append_assoc, List.append_assoc, behind,
      List.drop_append_of_le_length (by omega), last]
    rfl
  have stops : ∀ c ∈ (cString more).head?, isSpace c = true := by
    apply EndsName.cString
    intro c first
    rw [← behind] at first
    cases tail with
    | nil =>
        have some : 128 - (action.keyword ++ (name ++ [])).length = 118 - name.length + 1 := by
          rw [List.length_append, List.append_nil, length]
          omega
        rw [List.take_nil, List.nil_append, ← zeros, some, List.replicate_succ] at first
        cases first
        exact Or.inr rfl
    | cons d rest =>
        have some : 119 - name.length = 118 - name.length + 1 := by omega
        rw [some, List.take_succ_cons] at first
        exact ends c first
  have string : cString (' ' :: name ++ more) = ' ' :: (name ++ cString more) := by
    apply cString_append_left
    simp only [List.mem_cons, not_or]
    exact ⟨by decide, fun zero => (plain _ zero).2 rfl⟩
  rw [VirtioForwarder.fileNetdev, args, string, scanWord_space _ _ rfl,
    scanWord_of_word some fits (fun c member => (plain c member).1) stops]
  rfl

/-- The bytes from byte 8 on, with what stands behind the content. -/
theorem fileBuf_drop (content beyond : List Char)
    : ∃ fill, (fileBuf content ++ beyond).drop 8 = (content.take 128).drop 8 ++ (fill ++ beyond)
        ∧ (content.length < 128 → fill.head? = some '\x00') ∧ (128 ≤ content.length → fill = []) := by
  refine ⟨(List.replicate (128 - content.length) '\x00').drop (8 - (content.take 128).length), ?_, ?_,
    ?_⟩
  · rw [fileBuf, List.append_assoc, List.drop_append, List.drop_append_of_le_length]
    rw [List.length_replicate, List.length_take]
    omega
  · intro short
    rw [List.drop_replicate, List.length_take]
    have some : 128 - content.length - (8 - min 128 content.length)
        = (127 - content.length - (8 - min 128 content.length)) + 1 := by omega
    rw [some, List.replicate_succ]
    rfl
  · intro long
    rw [Nat.sub_eq_zero_of_le long]
    exact List.drop_nil

/-- Without an argument no name is read. -/
theorem NoArgs.fileNetdev {content : List Char} (none : NoArgs content) (beyond : List Char)
    : fileNetdev content beyond = .none := by
  obtain ⟨spaces, rest, split, white, ends⟩ := none
  obtain ⟨fill, args, zero, _⟩ := fileBuf_drop content beyond
  have plain : '\x00' ∉ spaces := fun member => absurd (white _ member) (by decide)
  have stop : cString (rest ++ (fill ++ beyond)) = [] := by
    rcases ends with first | ⟨rfl, short⟩
    · obtain ⟨more, rfl⟩ := List.head?_eq_some_iff.mp first
      rfl
    · obtain ⟨more, rfl⟩ := List.head?_eq_some_iff.mp (zero short)
      rfl
  rw [VirtioForwarder.fileNetdev, args, split, List.append_assoc, cString_append_left _ plain, stop,
    List.append_nil, (scanWord_eq_none (by decide)).mpr white]
  rfl

/-- Otherwise a name is read, for some memory behind the buffer. -/
theorem fileNetdev_of_args {content : List Char} (some : ¬ NoArgs content)
    : ∃ beyond name, fileNetdev content beyond = .some name ∧ name.length ≤ 16 := by
  have read : ∀ beyond, (¬ ∀ c ∈ cString ((fileBuf content ++ beyond).drop 8), isSpace c = true) →
      ∃ beyond name, fileNetdev content beyond = .some name ∧ name.length ≤ 16 := by
    intro beyond word
    rw [← scanWord_eq_none (by decide : 0 < 16), ← Ne, Option.ne_none_iff_exists'] at word
    obtain ⟨⟨name, rest⟩, scanned⟩ := word
    refine ⟨beyond, name, ?_, scanWord_length scanned⟩
    rw [fileNetdev, scanned]
    rfl
  generalize spaces : ((content.take 128).drop 8).takeWhile isSpace = white
  generalize behind : ((content.take 128).drop 8).dropWhile isSpace = rest
  have split : (content.take 128).drop 8 = white ++ rest := by
    rw [← spaces, ← behind, List.takeWhile_append_dropWhile]
  have space : ∀ c ∈ white, isSpace c = true := by
    intro c member
    rw [← spaces] at member
    exact List.mem_takeWhile_imp member
  have plain : '\x00' ∉ white := fun member => absurd (space _ member) (by decide)
  cases rest with
  | nil =>
      have long : 128 ≤ content.length := by
        by_contra short
        exact some ⟨white, [], split, space, Or.inr ⟨rfl, by omega⟩⟩
      obtain ⟨fill, args, _, none⟩ := fileBuf_drop content ['x']
      apply read ['x']
      rw [args, split, none long, List.append_nil, List.nil_append, cString_append_left _ plain]
      intro all
      exact absurd (all 'x' (by simp [cString])) (by decide)
  | cons c rest =>
      have word : isSpace c = false := by
        have first := List.head_dropWhile_not isSpace (l := (content.take 128).drop 8)
          (by rw [behind]; exact List.cons_ne_nil _ _)
        simpa only [behind, List.head_cons] using first
      have zero : c ≠ '\x00' := by
        rintro rfl
        exact some ⟨white, _, split, space, Or.inl rfl⟩
      obtain ⟨fill, args, _⟩ := fileBuf_drop content []
      apply read []
      rw [args, split, List.append_assoc, cString_append_left _ plain]
      intro all
      have member : c ∈ white ++ cString (c :: rest ++ (fill ++ [])) := by
        simp [cString, zero]
      rw [all c member] at word
      cases word

/-- What `ethtool` prints for a netdev that resolves. -/
def resolvedOutput : List Char := "bus-info: NFP 0 VF0.40 0000:05:0d.0\n".toList

/-- If no line with the bus is printed, one that was read before is found again. -/
theorem not_settles_of_other_line : ¬ Settles "driver: nfp\n".toList := by
  intro settles
  have again := settles ("driver: nfp\n".toList ++ resolvedOutput)
  revert again
  decide

/-- Outside the conditions, some netdev makes the code and the content disagree. -/
theorem FileConditions.of_exact {possible : List Char → Prop} {content printed : List Char}
    {vfinfo : SriovInfo} (nothing : possible []) (some : possible printed)
    (resolved : resolves printed = .some vfinfo) (holds : FileExact possible content)
    : FileConditions possible content := by
  by_contra outside
  rw [FileConditions, not_or, not_or] at outside
  obtain ⟨letter, args, command⟩ := outside
  push Not at letter
  obtain ⟨c, first, letter⟩ := letter
  obtain ⟨tail, rfl⟩ := List.head?_eq_some_iff.mp first
  have starts : ∃ action : FileAction, (c :: tail).take 1 = action.keyword.take 1 := by
    by_cases add : c = 'a'
    · exact ⟨.addPort, by rw [add]; rfl⟩
    · exact ⟨.delPort, by rw [letter add]; rfl⟩
  obtain ⟨action, starts⟩ := starts
  obtain ⟨beyond, name, read, short⟩ := fileNetdev_of_args args
  have named : Names (c :: tail) action name := by
    have done : scanFile (fun netdev => ⟨if netdev = name then printed else [], []⟩) (c :: tail)
        beyond = .some (action, vfinfo) :=
      (scanFile_eq_some (List.cons_ne_nil c tail)).mpr
        ⟨starts, name, read, by rw [if_pos rfl]; exact resolved⟩
    have prints (netdev : List Char) : possible (if netdev = name then printed else []) := by
      split
      · exact some
      · exact nothing
    obtain ⟨netdev, named, found⟩ := (holds _ _ _ prints _ _).mp done
    by_cases same : netdev = name
    · exact same ▸ named
    · rw [if_neg same] at found
      cases found
  refine command ⟨⟨action, name, named, short⟩, fun output prints memory => Option.ext fun vf => ?_⟩
  -- the name is read whatever stands behind the buffer, so that only the lookup is left
  have same := holds (fun _ => output) memory [] (fun _ => prints) action vf
  rw [scanFile_eq_some (List.cons_ne_nil c tail), named.fileNetdev short] at same
  constructor
  · intro found
    obtain ⟨_, _, found⟩ := same.mp ⟨starts, name, rfl, found⟩
    exact found
  · intro found
    obtain ⟨_, _, _, found⟩ := same.mpr ⟨name, named, found⟩
    exact found

end VirtioForwarder
