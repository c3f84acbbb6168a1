import VirtioForwarder.Control.World
import VirtioForwarder.Library.CText

/-! The names of the default sockets: a relay number between the two parts that
`prep_default_sockets` makes of the directory and the template, and the number that is read back
from a name.
-/

namespace VirtioForwarder

open CText

/-- The directory and the template in `struct virtio_vhostuser_conf`, which are strings in arrays of
128 and 32 bytes.
-/
structure SocketTemplate where
  socketPath : List Char
  socketName : List Char
  pathPlain : '\x00' ∉ socketPath
  namePlain : '\x00' ∉ socketName
  pathFits : socketPath.length < 128
  nameFits : socketName.length < 32

/-- What the directory turns out to be, and whether it can be made. -/
inductive SocketDirectory where
  | directory
  | otherFile
  | missing (made : Bool)
  deriving DecidableEq, Repr

/-- The directory, and whether the user and the group of the sockets are known if they are given. -/
structure SocketHost where
  directory : SocketDirectory
  userKnown : Bool
  groupKnown : Bool

/-- The static arrays `vhost_socket_name_prefix` and `vhost_socket_name_suffix`. -/
structure SocketNameParts where
  vhostSocketNamePrefix : List Char
  vhostSocketNameSuffix : List Char
  deriving DecidableEq

/-- Both have 128 bytes. -/
def SocketNameParts.Sized (parts : SocketNameParts) : Prop :=
  parts.vhostSocketNamePrefix.length = 128 ∧ parts.vhostSocketNameSuffix.length = 128

/-- The checks of the template: `%u` once, and no `/`. -/
def templateValid (socketName : List Char) : Bool :=
  match afterFirst "%u".toList socketName with
  | none => false
  | some rest => (afterFirst "%u".toList ('u' :: rest)).isNone && '/' ∉ socketName

/-- The prefix: the directory and a slash, and then the text before `%u` in what is left of the array.
With no bytes left nothing is printed.
-/
def printPrefix (array path before : List Char) : Option (List Char) := do
  let first ← snprintf array 0 128 (path ++ ['/'])
  let len := path.length + 1
  if 128 - len = 0 then some first else snprintf first len (128 - len) before

/-- The suffix: what follows `%u` moves to the beginning of the array. It is valid if it does not
begin with a digit.
-/
def moveSuffix (array rest : List Char) : Option (Bool × List Char) :=
  if rest ≠ [] then
    (snprintf array 0 128 rest).map fun last => (!(cString last).head?.any Char.isDigit, last)
  else (store array 0 ['\x00']).map fun last => (true, last)

/-- The parts are made of the directory and the template. The template is copied to the array for
the suffix, where `*s` then ends the text before `%u`; `none` is a write outside the arrays.
-/
def splitTemplate (template : SocketTemplate) (parts : SocketNameParts)
    : Option (Bool × SocketNameParts) := do
  let copy ← snprintf parts.vhostSocketNameSuffix 0 128 template.socketName
  let rest ← afterFirst "%u".toList (cString copy)
  let s := (cString copy).length - rest.length - 2
  let copy ← store copy s ['\x00']
  let whole ← printPrefix parts.vhostSocketNamePrefix template.socketPath (cString copy)
  let (valid, last) ← moveSuffix copy rest
  return (valid, ⟨whole, last⟩)

/-- `prep_default_sockets`: the return value and the parts. -/
def prepDefaultSockets (host : SocketHost) (template : SocketTemplate) (parts : SocketNameParts)
    : Option (Int × SocketNameParts) :=
  if host.directory = .otherFile ∨ host.directory = .missing false then some (1, parts)
  else if templateValid template.socketName = false then some (1, parts)
  else
    match splitTemplate template parts with
    | none => none
    | some (false, parts) => some (1, parts)
    | some (true, parts) =>
        if host.userKnown = false then some (-1, parts)
        else if host.groupKnown = false then some (-1, parts)
        else some (0, parts)

/-- `virtio_vhostuser_id_to_name` into an array. -/
def virtioVhostuserIdToName (parts : SocketNameParts) (id : Nat) (name : List Char) (namesz : Nat)
    : Option (List Char) :=
  snprintf name 0 namesz
    (cString parts.vhostSocketNamePrefix ++ decimalText id ++ cString parts.vhostSocketNameSuffix)

/-- `virtio_vhostuser_name_to_id`. -/
def virtioVhostuserNameToId (settings : Settings) (parts : SocketNameParts) (name : List Char)
    : Int :=
  let namelen := name.length
  let prefixlen := (cString parts.vhostSocketNamePrefix).length
  let suffixlen := (cString parts.vhostSocketNameSuffix).length
  if namelen < prefixlen + suffixlen + 1 then -1
  else if name.take prefixlen ≠ cString parts.vhostSocketNamePrefix then -1
  else if suffixlen ≠ 0 ∧ name.drop (namelen - suffixlen) ≠ cString parts.vhostSocketNameSuffix then
    -1
  else
    let spn := strspn (name.drop prefixlen) "0123456789".toList
    if namelen < prefixlen + spn then -1
    else
      let id := (atoi (name.drop prefixlen) % 2 ^ 32).toNat
      if id < settings.maxRelays then id else -1

-----------------------------------------------------------------------------------------
-- The parts that an accepted template leaves
-----------------------------------------------------------------------------------------

/-- The directory, a slash and the template up to `%u` stand in the first array as far as they fit,
and the rest of the template, which begins with no digit, stands in the second one.
-/
structure PartsOf (template : SocketTemplate) (parts : SocketNameParts) : Prop where
  sized : parts.Sized
  split : ∃ before,
    template.socketName
      = before ++ ("%u".toList ++ cString parts.vhostSocketNameSuffix)
    ∧ cString parts.vhostSocketNamePrefix = (template.socketPath ++ '/' :: before).take 127
  noDigit : ∀ c ∈ (cString parts.vhostSocketNameSuffix).head?, c.isDigit = false

/-- The prefix, which is printed in two calls. -/
theorem printPrefix_eq_some {array path before : List Char} (length : array.length = 128)
    (pathFits : path.length < 128) (plain : '\x00' ∉ path ++ '/' :: before)
    : ∃ whole, printPrefix array path before = some whole
        ∧ whole.length = 128 ∧ cString whole = (path ++ '/' :: before).take 127 := by
  obtain ⟨first, done, same, begins⟩ := snprintf_first (path ++ ['/']) (by omega : 0 < array.length)
  rw [length] at done same begins
  have short : '\x00' ∉ (path ++ '/' :: before).take 127 :=
    fun member => plain (List.mem_of_mem_take member)
  rw [printPrefix, done, Option.bind_eq_bind, Option.bind_some]
  by_cases full : 128 - (path.length + 1) = 0
  · refine ⟨first, if_pos full, same, ?_⟩
    have cut : (path ++ '/' :: before).take 127 = (path ++ ['/']).take 127 := by
      rw [List.take_append_of_le_length (by omega), List.take_append_of_le_length (by omega)]
    rw [cut] at short ⊢
    exact cString_of_prefix short begins
  · have fits : (path ++ ['/']).length = path.length + 1 := by simp
    rw [List.take_of_length_le (by omega)] at begins
    have here : path ++ ['/'] <+: first := (List.prefix_append _ _).trans begins
    obtain ⟨whole, appended, length', text⟩ := snprintf_at before here (by omega)
    rw [fits, same] at appended text
    refine ⟨whole, (if_neg full).trans appended, by omega, ?_⟩
    have cut : path ++ ['/'] ++ before.take (128 - (path.length + 1) - 1)
        = (path ++ '/' :: before).take 127 := by
      have all : path ++ '/' :: before = path ++ ['/'] ++ before := by simp
      rw [all, List.take_append, List.take_of_length_le (l := path ++ ['/']) (by omega), fits]
      congr 2
      omega
    rw [cut] at text
    exact cString_of_prefix short text

/-- The suffix, which fits. -/
theorem moveSuffix_eq_some {array rest : List Char} (length : array.length = 128)
    (fits : rest.length < 128) (plain : '\x00' ∉ rest)
    : ∃ last, moveSuffix array rest = some (!rest.head?.any Char.isDigit, last)
        ∧ last.length = 128 ∧ cString last = rest := by
  by_cases some : rest = []
  · subst some
    obtain ⟨last, done, same, text⟩ :=
      store_zero List.nil_prefix (by omega : ([] : List Char).length < array.length)
    refine ⟨last, ?_, same.trans length, cString_of_prefix plain text⟩
    rw [moveSuffix, if_neg (by simp)]
    exact congrArg (Option.map _) done
  · obtain ⟨last, done, same, text⟩ := snprintf_first rest (by omega : 0 < array.length)
    rw [length] at done same text
    rw [List.take_of_length_le (by omega)] at text
    have string := cString_of_prefix plain text
    refine ⟨last, ?_, same, string⟩
    rw [moveSuffix, if_pos some, done, Option.map_some, string]

/-- What an accepted template leaves in the arrays. -/
theorem splitTemplate_parts {template : SocketTemplate} {start parts : SocketNameParts}
    (sized : start.Sized) (accepted : splitTemplate template start = some (true, parts))
    : PartsOf template parts := by
  obtain ⟨prefixSize, suffixSize⟩ := sized
  have nameFits := template.nameFits
  have namePlain := template.namePlain
  obtain ⟨copy, copied, copySize, copyBegins⟩ :=
    snprintf_first template.socketName (by omega : 0 < start.vhostSocketNameSuffix.length)
  rw [suffixSize] at copied copySize copyBegins
  rw [List.take_of_length_le (by omega)] at copyBegins
  have copyString := cString_of_prefix namePlain copyBegins
  rw [splitTemplate, copied, Option.bind_eq_bind, Option.bind_some, copyString] at accepted
  obtain ⟨rest, found, accepted⟩ := Option.bind_eq_some_iff.mp accepted
  obtain ⟨before, split⟩ := afterFirst_eq_some found
  have lengths : template.socketName.length = before.length + (2 + rest.length) := by
    rw [split, List.length_append, List.length_append]
    rfl
  have place : template.socketName.length - rest.length - 2 = before.length := by omega
  rw [split] at copyBegins namePlain
  rw [List.mem_append, List.mem_append, not_or, not_or] at namePlain
  have here : before <+: copy := by
    rw [List.append_assoc] at copyBegins
    exact (List.prefix_append _ _).trans copyBegins
  obtain ⟨cut, stored, cutSize, cutBegins⟩ :=
    store_zero here (by omega : before.length < copy.length)
  have cutString := cString_of_prefix namePlain.1 cutBegins
  have plain : '\x00' ∉ template.socketPath ++ '/' :: before := by
    simp [template.pathPlain, namePlain.1]
  obtain ⟨whole, printed, wholeSize, wholeString⟩ :=
    printPrefix_eq_some prefixSize template.pathFits plain
  obtain ⟨last, moved, lastSize, lastString⟩ :=
    moveSuffix_eq_some (cutSize.trans copySize) (by omega) namePlain.2.2
  simp only [place, stored, cutString, printed, moved, Option.bind_eq_bind, Option.bind_some]
    at accepted
  cases hd : (!rest.head?.any Char.isDigit) with
  | false =>
      rw [hd] at accepted
      cases accepted
  | true =>
      rw [hd] at accepted
      cases accepted
      constructor
      case sized => exact ⟨wholeSize, lastSize⟩
      case split => exact ⟨before, by rw [lastString, split], wholeString⟩
      case noDigit =>
          intro c first
          rw [lastString, Option.mem_def] at first
          rw [first, Option.any_some, Bool.not_eq_true'] at hd
          exact hd

theorem prepDefaultSockets_parts {host : SocketHost} {template : SocketTemplate}
    {start parts : SocketNameParts} (sized : start.Sized)
    (accepted : prepDefaultSockets host template start = some (0, parts))
    : PartsOf template parts := by
  rw [prepDefaultSockets] at accepted
  split at accepted
  · cases accepted
  · split at accepted
    · cases accepted
    · split at accepted
      · cases accepted
      · cases accepted
      · next done =>
          split at accepted
          · cases accepted
          · split at accepted
            · cases accepted
            · cases accepted
              exact splitTemplate_parts sized done

-----------------------------------------------------------------------------------------
-- Names and numbers
-----------------------------------------------------------------------------------------

/-- Decimal digits, at least one, that denote a number. -/
def Denotes (digits : List Char) (id : Nat) : Prop :=
  digits ≠ [] ∧ (∀ c ∈ digits, c.isDigit = true) ∧ number 10 digits = id

/-- A name made of both parts with a text between them. -/
def nameAround (parts : SocketNameParts) (middle : List Char) : List Char :=
  cString parts.vhostSocketNamePrefix ++ (middle ++ cString parts.vhostSocketNameSuffix)

/-- The name of a relay: digits that denote its number stand between the parts. -/
def IsNameOf (parts : SocketNameParts) (id : Nat) (name : List Char) : Prop :=
  ∃ digits, Denotes digits id ∧ name = nameAround parts digits

/-- A number is read only from the name of that relay, and -1 from what is the name of none. -/
def NameExact (settings : Settings) (parts : SocketNameParts) (name : List Char) : Prop :=
  (∀ id : Nat, virtioVhostuserNameToId settings parts name = id → IsNameOf parts id name)
  ∧ ((∀ id < settings.maxRelays, ¬ IsNameOf parts id name) →
      virtioVhostuserNameToId settings parts name = -1)

/-- The number at the beginning of a text, limited to 64 bits and taken modulo 2^32. -/
def wrappedNumber (text : List Char) : Nat :=
  (max longMin (min longMax (leadingNumber text)) % 2 ^ 32).toNat

/-- Both parts with something else than the number of a relay between them, where the number of a
relay stands behind the prefix nonetheless: other characters follow it, white space or a sign
stands before it, it is 0 because there is no digit, or it wraps around.
-/
def MisreadName (settings : Settings) (parts : SocketNameParts) (name : List Char) : Prop :=
  ∃ middle, middle ≠ [] ∧ name = nameAround parts middle
    ∧ (∀ id < settings.maxRelays, ¬ Denotes middle id)
    ∧ wrappedNumber (middle ++ cString parts.vhostSocketNameSuffix) < settings.maxRelays

/-- The name of each relay fits in the array of the caller and is read back, and no two relays have
the same name.
-/
def NamesRoundTrip (settings : Settings) (parts : SocketNameParts) : Prop :=
  (∀ id < settings.maxRelays, ∀ buf : List Char, buf.length = 266 →
    ∃ name, virtioVhostuserIdToName parts id buf 266 = some name
      ∧ virtioVhostuserNameToId settings parts (cString name) = id)
  ∧ ∀ first < settings.maxRelays, ∀ second < settings.maxRelays, ∀ buf other name same,
      buf.length = 266 → other.length = 266 →
      virtioVhostuserIdToName parts first buf 266 = some name →
      virtioVhostuserIdToName parts second other 266 = some same →
      cString name = cString same → first = second

section Names

variable {settings : Settings} {template : SocketTemplate} {parts : SocketNameParts}

theorem isDigit_hexDigit : ∀ digit < 10, (hexDigit false digit).isDigit = true := by
  decide

theorem denotes_decimalText (id : Nat) : Denotes (decimalText id) id := by
  refine ⟨decimalText_ne_nil id, ?_, number_decimalText id⟩
  intro c member
  obtain ⟨digit, small, rfl⟩ := mem_decimalText member
  exact isDigit_hexDigit digit small

/-- The number of a relay between the parts is the one that is read, since the suffix continues it
with no digit.
-/
theorem PartsOf.wrappedNumber (split : PartsOf template parts) {digits : List Char} {id : Nat}
    (denotes : Denotes digits id) (relay : id < settings.maxRelays)
    : wrappedNumber (digits ++ cString parts.vhostSocketNameSuffix) = id := by
  obtain ⟨some, all, value⟩ := denotes
  have leading : leadingNumber (digits ++ cString parts.vhostSocketNameSuffix) = id := by
    rw [leadingNumber_digits some, value]
    · intro c member
      rw [isDigitOf_ten]
      exact all c member
    · intro c first
      rw [isDigitOf_ten]
      exact split.noDigit c first
  have small := settings.relaysFit
  have clipped : max longMin (min longMax (id : Int)) = id := by
    rw [longMin, longMax]
    omega
  rw [VirtioForwarder.wrappedNumber, leading, clipped]
  omega

theorem nameAround_injective {first second : List Char}
    (same : nameAround parts first = nameAround parts second)
    : first = second :=
  List.append_cancel_right (List.append_cancel_left same)

/-- What is read from a name with both parts. -/
theorem virtioVhostuserNameToId_eq (settings : Settings) (parts : SocketNameParts)
    {middle : List Char} (some : middle ≠ [])
    : virtioVhostuserNameToId settings parts (nameAround parts middle)
      = if wrappedNumber (middle ++ cString parts.vhostSocketNameSuffix) < settings.maxRelays then
          (wrappedNumber (middle ++ cString parts.vhostSocketNameSuffix) : Int)
        else -1 := by
  have long := List.length_pos_iff.mpr some
  have whole : (nameAround parts middle).length
      = (cString parts.vhostSocketNamePrefix).length
        + (middle.length + (cString parts.vhostSocketNameSuffix).length) := by
    rw [nameAround, List.length_append, List.length_append]
  have first : (nameAround parts middle).take (cString parts.vhostSocketNamePrefix).length
      = cString parts.vhostSocketNamePrefix := List.take_left' rfl
  have behind : (nameAround parts middle).drop (cString parts.vhostSocketNamePrefix).length
      = middle ++ cString parts.vhostSocketNameSuffix := List.drop_left' rfl
  have last : (nameAround parts middle).drop
      ((nameAround parts middle).length - (cString parts.vhostSocketNameSuffix).length)
      = cString parts.vhostSocketNameSuffix := by
    rw [nameAround, ← List.append_assoc]
    apply List.drop_left'
    rw [List.length_append, List.length_append, List.length_append]
    omega
  have span : strspn (middle ++ cString parts.vhostSocketNameSuffix) "0123456789".toList
      ≤ middle.length + (cString parts.vhostSocketNameSuffix).length := by
    rw [← List.length_append]
    exact (List.takeWhile_prefix _).length_le
  rw [virtioVhostuserNameToId]
  simp only [first, behind, last]
  rw [if_neg (by omega), if_neg (by simp), if_neg (by simp), if_neg (by omega), atoi_emod]
  rfl

/-- A name from which a number is read has both parts and something between them. -/
theorem exists_middle {name : List Char}
    (read : virtioVhostuserNameToId settings parts name ≠ -1)
    : ∃ middle, middle ≠ [] ∧ name = nameAround parts middle := by
  rw [virtioVhostuserNameToId] at read
  by_cases short : name.length < (cString parts.vhostSocketNamePrefix).length
      + (cString parts.vhostSocketNameSuffix).length + 1
  · exact absurd (if_pos short) read
  rw [if_neg short] at read
  by_cases first : name.take (cString parts.vhostSocketNamePrefix).length
      = cString parts.vhostSocketNamePrefix
  · rw [if_neg (not_not_intro first)] at read
    by_cases last : (cString parts.vhostSocketNameSuffix).length ≠ 0
        ∧ name.drop (name.length - (cString parts.vhostSocketNameSuffix).length)
          ≠ cString parts.vhostSocketNameSuffix
    · exact absurd (if_pos last) read
    · have ends : name.drop (name.length - (cString parts.vhostSocketNameSuffix).length)
          = cString parts.vhostSocketNameSuffix := by
        by_cases none : (cString parts.vhostSocketNameSuffix).length = 0
        · rw [none, Nat.sub_zero, List.drop_length, List.length_eq_zero_iff.mp none]
        · by_contra other
          exact last ⟨none, other⟩
      have place : name.length - (cString parts.vhostSocketNameSuffix).length
          = (cString parts.vhostSocketNamePrefix).length
            + (name.length - (cString parts.vhostSocketNamePrefix).length
              - (cString parts.vhostSocketNameSuffix).length) := by omega
      rw [place, ← List.drop_drop] at ends
      refine ⟨(name.drop (cString parts.vhostSocketNamePrefix).length).take
        (name.length - (cString parts.vhostSocketNamePrefix).length
          - (cString parts.vhostSocketNameSuffix).length), ?_, ?_⟩
      · rw [← List.length_pos_iff, List.length_take, List.length_drop]
        omega
      · calc name
            = name.take (cString parts.vhostSocketNamePrefix).length
              ++ name.drop (cString parts.vhostSocketNamePrefix).length :=
              (List.take_append_drop _ _).symm
          _ = nameAround parts _ := by
              rw [first, nameAround]
              congr 1
              conv_lhs => rw [← List.take_append_drop (name.length
                - (cString parts.vhostSocketNamePrefix).length
                - (cString parts.vhostSocketNameSuffix).length)
                (name.drop (cString parts.vhostSocketNamePrefix).length), ends]
  · exact absurd (if_pos first) read

/-- Both directions of the claim for one name: the number of a relay is read from its name and from
nothing else, unless the name is misread.
-/
theorem nameExact_iff (split : PartsOf template parts) (name : List Char)
    : NameExact settings parts name ↔ ¬ MisreadName settings parts name := by
  constructor
  · rintro holds ⟨middle, some, rfl, other, begins⟩
    have read := virtioVhostuserNameToId_eq settings parts some
    rw [if_pos begins] at read
    obtain ⟨digits, denotes, same⟩ := holds.1 _ read
    cases nameAround_injective same
    exact other _ begins denotes
  · intro fit
    have relay : ∀ {id : Nat}, virtioVhostuserNameToId settings parts name = id →
        id < settings.maxRelays ∧ IsNameOf parts id name := by
      intro id read
      obtain ⟨middle, some, rfl⟩ := exists_middle (by rw [read]; omega)
      have value := virtioVhostuserNameToId_eq settings parts some
      rw [read] at value
      split at value
      · next begins =>
          by_cases denotes : ∃ relay < settings.maxRelays, Denotes middle relay
          · obtain ⟨relay, small, denotes⟩ := denotes
            rw [split.wrappedNumber denotes small, Int.natCast_inj] at value
            subst value
            exact ⟨small, middle, denotes, rfl⟩
          · push Not at denotes
            exact absurd ⟨middle, some, rfl, denotes, begins⟩ fit
      · omega
    constructor
    · exact fun id read => (relay read).2
    · intro none
      by_contra read
      obtain ⟨middle, some, rfl⟩ := exists_middle read
      have value := virtioVhostuserNameToId_eq settings parts some
      split at value
      · obtain ⟨small, named⟩ := relay value
        exact none _ small named
      · exact read value

/-- The name of a relay is printed whole. -/
theorem PartsOf.idToName (split : PartsOf template parts) {id : Nat} (relay : id < settings.maxRelays)
    {buf : List Char} (size : buf.length = 266)
    : ∃ name, virtioVhostuserIdToName parts id buf 266 = some name
        ∧ cString name = nameAround parts (decimalText id) := by
  obtain ⟨before, named, whole⟩ := split.split
  have small := settings.relaysFit
  have nameFits := template.nameFits
  have prefixLength : (cString parts.vhostSocketNamePrefix).length ≤ 127 := by
    rw [whole]
    exact List.length_take_le _ _
  have suffixLength : (cString parts.vhostSocketNameSuffix).length ≤ 31 := by
    rw [named, List.length_append, List.length_append] at nameFits
    omega
  have digitsLength : (decimalText id).length ≤ 2 := decimalText_length_le (by omega) (by omega)
  have plain : '\x00' ∉ nameAround parts (decimalText id) := by
    rw [nameAround, List.mem_append, List.mem_append, not_or, not_or]
    exact ⟨zero_not_mem_cString _, zero_not_mem_decimalText id, zero_not_mem_cString _⟩
  obtain ⟨name, printed, _, text⟩ :=
    snprintf_first (nameAround parts (decimalText id)) (by omega : 0 < buf.length)
  rw [size] at printed text
  rw [List.take_of_length_le] at text
  · refine ⟨name, ?_, cString_of_prefix plain text⟩
    rw [virtioVhostuserIdToName, List.append_assoc]
    exact printed
  · rw [nameAround, List.length_append, List.length_append]
    omega

theorem PartsOf.roundTrip (split : PartsOf template parts) (settings : Settings)
    : NamesRoundTrip settings parts := by
  have back : ∀ id < settings.maxRelays, ∀ buf : List Char, buf.length = 266 →
      ∃ name, virtioVhostuserIdToName parts id buf 266 = some name
        ∧ virtioVhostuserNameToId settings parts (cString name) = id := by
    intro id relay buf size
    obtain ⟨name, printed, text⟩ := split.idToName relay size
    refine ⟨name, printed, ?_⟩
    have denotes := denotes_decimalText id
    rw [text, virtioVhostuserNameToId_eq settings parts denotes.1,
      split.wrappedNumber denotes relay, if_pos relay]
  refine ⟨back, ?_⟩
  intro first firstRelay second secondRelay buf other name same size size' printed printed' equal
  obtain ⟨_, again, read⟩ := back first firstRelay buf size
  cases printed.symm.trans again
  obtain ⟨_, again, read'⟩ := back second secondRelay other size'
  cases printed'.symm.trans again
  rw [equal, read'] at read
  exact (Int.natCast_inj.mp read).symm

end Names

/-- The names of the default sockets are read back for every template that is accepted; and a string
is taken for the name of a relay, or for none, as it should be, if and only if it is not misread.
-/
theorem socketNames_exact_iff (settings : Settings) {host : SocketHost} {template : SocketTemplate}
    {start parts : SocketNameParts} (sized : start.Sized)
    (accepted : prepDefaultSockets host template start = some (0, parts))
    : NamesRoundTrip settings parts
      ∧ ∀ name, NameExact settings parts name ↔ ¬ MisreadName settings parts name := by
  have split := prepDefaultSockets_parts sized accepted
  exact ⟨split.roundTrip settings, nameExact_iff split⟩

/-- The default directory and template. -/
def defaultTemplate : SocketTemplate where
  socketPath := "/tmp".toList
  socketName := "virtio-forwarder%u.sock".toList
  pathPlain := by decide
  namePlain := by decide
  pathFits := by decide
  nameFits := by decide

/-- The arrays before the daemon has started. -/
def emptyParts : SocketNameParts :=
  ⟨List.replicate 128 '\x00', List.replicate 128 '\x00'⟩

/-- The arrays for the default template. -/
def defaultParts : SocketNameParts where
  vhostSocketNamePrefix := "/tmp/virtio-forwarder".toList ++ List.replicate 107 '\x00'
  vhostSocketNameSuffix :=
    ".sock\x00-forwarder\x00u.sock".toList ++ List.replicate 105 '\x00'

theorem prepDefaultSockets_default
    : prepDefaultSockets ⟨.directory, true, true⟩ defaultTemplate emptyParts
      = some (0, defaultParts) := by
  decide +kernel

/-- Witness: the default template. -/
theorem socketNames_exact_default
    : NamesRoundTrip twoWorkers defaultParts
      ∧ ∀ name, NameExact twoWorkers defaultParts name
          ↔ ¬ MisreadName twoWorkers defaultParts name :=
  socketNames_exact_iff twoWorkers ⟨rfl, rfl⟩ prepDefaultSockets_default

/-- A name with other characters behind the number is taken for the socket of relay 0. -/
theorem nameToId_accepts_junk
    : prepDefaultSockets ⟨.directory, true, true⟩ defaultTemplate emptyParts
        = some (0, defaultParts)
      ∧ ¬ NameExact twoWorkers defaultParts "/tmp/virtio-forwarder0junk.sock".toList := by
  refine ⟨prepDefaultSockets_default, fun holds => ?_⟩
  have split := prepDefaultSockets_parts ⟨rfl, rfl⟩ prepDefaultSockets_default
  refine (nameExact_iff split _).mp holds ⟨"0junk".toList, by decide, by decide, ?_, by decide⟩
  rintro id _ ⟨_, digits, _⟩
  exact absurd (digits 'j' (by decide)) (by decide)

end VirtioForwarder
