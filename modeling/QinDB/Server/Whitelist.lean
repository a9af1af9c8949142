/-
# Server.Whitelist — which addresses the server lets in

`isIPWhitelisted` of `server.cpp` against blocks of addresses. The code reads numbers with
`toUInt`, which allows blanks around the digits and a plus sign, and keeps eight bits of what it
read; and a network with an unreadable part is compared as if it were `0.0.0.0`.

* `isIPWhitelisted_iff`: for every sequence of calls that leaves entries, the code admits exactly
  the dotted quads in a well-formed block, if the address and the entries are well-formed or such
  that the code refuses them. Every other address fails for some list of well-formed entries,
  and every other entry for some dotted quad.
* `isIPWhitelisted_admits_others`: a number above 255 and an unreadable network that do get in.
-/
import Mathlib.Algebra.Group.Int.Defs
import QinDB.Base.Trim
import QinDB.Storage.TablePage

namespace QinDB.Server

open QinDB.Base QinDB.Storage

set_option autoImplicit false

/-! ## Numbers -/

/-- A decimal number: digits and nothing else. -/
def decimal (text : Identifier) : Option Nat :=
  if text ≠ [] ∧ text.all Char.isDigit then
    some (text.foldl (fun value digit => 10 * value + (digit.toNat - '0'.toNat)) 0)
  else none

def trimmed (text : Identifier) : Identifier := trimBy (fun letter => isSpaceCode letter.toNat) text

/-- `QString::toUInt`; `none` is `ok == false`. -/
def toUInt (text : Identifier) : Option Nat :=
  let number :=
    match trimmed text with
    | '+' :: digits => decimal digits
    | digits => decimal digits
  number.filter fun value => decide (value < 2 ^ 32)

/-- `QString::toInt`. -/
def toInt (text : Identifier) : Option Int :=
  let number : Option Int :=
    match trimmed text with
    | '+' :: digits => (decimal digits).map Int.ofNat
    | '-' :: digits => (decimal digits).map fun value => -(value : Int)
    | digits => (decimal digits).map Int.ofNat
  number.filter fun value => decide (-2 ^ 31 ≤ value ∧ value < 2 ^ 31)

variable {text : Identifier} {value : Nat}

theorem digits_of_decimal (read : decimal text = some value) :
    text ≠ [] ∧ ∀ c ∈ text, c.isDigit = true := by
  unfold decimal at read
  split at read
  · rename_i digits
    exact ⟨digits.1, List.all_eq_true.mp digits.2⟩
  · cases read

theorem trimmed_of_decimal (read : decimal text = some value) : trimmed text = text := by
  refine trimBy_eq_self fun letter member => ?_
  have digit := (digits_of_decimal read).2 letter member
  simp only [Char.isDigit, Bool.and_eq_true, decide_eq_true_eq, UInt32.le_iff_toNat_le] at digit
  rw [isSpaceCode, decide_eq_false_iff_not]
  have range : 48 ≤ letter.toNat ∧ letter.toNat ≤ 57 := digit
  omega

theorem toUInt_of_decimal (read : decimal text = some value)
    (small : value < 2 ^ 32) : toUInt text = some value := by
  have digits := (digits_of_decimal read).2
  unfold toUInt
  rw [trimmed_of_decimal read]
  split
  · exact absurd (digits '+' List.mem_cons_self) (by decide)
  · simp only [read, Option.filter_some, small, decide_true, if_true]

theorem toInt_of_decimal (read : decimal text = some value)
    (small : value < 2 ^ 31) : toInt text = some (value : Int) := by
  have digits := (digits_of_decimal read).2
  unfold toInt
  rw [trimmed_of_decimal read]
  split
  · exact absurd (digits '+' List.mem_cons_self) (by decide)
  · exact absurd (digits '-' List.mem_cons_self) (by decide)
  · have bounds : -2 ^ 31 ≤ (value : Int) ∧ (value : Int) < 2 ^ 31 := by omega
    simp only [read, Option.map_some, Int.ofNat_eq_natCast, Option.filter_some, bounds, and_self,
      decide_true, if_true]

/-! ## Blocks of addresses -/

/-- The addresses that begin with the first `length` bits of `address`. -/
structure Block where
  address : BitVec 32
  length : Nat
  deriving DecidableEq, Repr

def Block.Contains (block : Block) (address : BitVec 32) : Prop :=
  ∀ i < block.length, address.getMsbD i = block.address.getMsbD i

/-- A decimal number of eight bits. -/
def octet (part : Identifier) : Option Nat :=
  (decimal part).filter fun value => decide (value ≤ 255)

/-- The address that four decimal numbers of eight bits stand for. -/
def dottedQuad (text : Identifier) : Option (BitVec 32) :=
  match text.splitOn '.' with
  | [a, b, c, d] =>
      (octet a).bind fun a => (octet b).bind fun b => (octet c).bind fun c => (octet d).map fun d =>
        BitVec.ofNat 32 (((a * 256 + b) * 256 + c) * 256 + d)
  | _ => none

/-- A well-formed entry: an address, or an address and the number of bits that count. -/
def wellFormedBlock (entry : Identifier) : Option Block :=
  (dottedQuad (entry.takeWhile (· ≠ '/'))).bind fun address =>
    if '/' ∈ entry then
      ((decimal (entry.dropWhile (· ≠ '/')).tail).filter fun length => decide (length ≤ 32)).map
        fun length => ⟨address, length⟩
    else some ⟨address, 32⟩

/-- The address is a dotted quad in a well-formed block of the list. -/
def Admitted (entries : List Identifier) (ip : Identifier) : Prop :=
  ∃ address, dottedQuad ip = some address ∧
    ∃ entry ∈ entries, ∃ block, wellFormedBlock entry = some block ∧ block.Contains address

/-! ## The server -/

/-- The part of the server that the calls below use. The set is a list without repetitions. -/
structure Whitelist where
  ipWhitelist : List Identifier
  whitelistEnabled : Bool
  deriving DecidableEq, Repr

/-- Calls that change the whitelist. -/
inductive WhitelistCall
  | addWhitelistIP (cidr : Identifier)
  | removeWhitelistIP (cidr : Identifier)
  | clearWhitelist

namespace Whitelist

def new : Whitelist := ⟨[], false⟩

def addWhitelistIP (server : Whitelist) (cidr : Identifier) : Whitelist :=
  ⟨server.ipWhitelist.insert cidr, true⟩

def removeWhitelistIP (server : Whitelist) (cidr : Identifier) : Whitelist :=
  let ipWhitelist := server.ipWhitelist.erase cidr
  ⟨ipWhitelist, if ipWhitelist.isEmpty then false else server.whitelistEnabled⟩

def clearWhitelist (_ : Whitelist) : Whitelist := ⟨[], false⟩

def call (server : Whitelist) : WhitelistCall → Whitelist
  | .addWhitelistIP cidr => server.addWhitelistIP cidr
  | .removeWhitelistIP cidr => server.removeWhitelistIP cidr
  | .clearWhitelist => server.clearWhitelist

/-- The server after these calls. -/
def after (calls : List WhitelistCall) : Whitelist := calls.foldl call new

/-- The loop over the parts; `uint8_t octet` keeps eight bits. -/
def readOctets : List Identifier → BitVec 32 → Option (BitVec 32)
  | [], value => some value
  | part :: parts, value =>
      match toUInt part with
      | none => none
      | some number =>
          if part.isEmpty then none
          else readOctets parts ((value <<< 8) ||| (BitVec.ofNat 8 number).setWidth 32)

/-- The address that is compared. -/
def readIP (ip : Identifier) : Option (BitVec 32) :=
  let ipParts := ip.splitOn '.'
  if ipParts.length ≠ 4 then none else readOctets ipParts 0

/-- The network and the prefix length that are compared. An unreadable part leaves the value 0. -/
def readCIDR (cidr : Identifier) : Option Block :=
  let prefixLen : Option Nat :=
    if '/' ∈ cidr then
      match toInt (cidr.dropWhile (· ≠ '/')).tail with
      | none => none
      | some length => if length < 0 ∨ length > 32 then none else some length.toNat
    else some 32
  match prefixLen with
  | none => none
  | some prefixLen =>
      let networkParts := (cidr.takeWhile (· ≠ '/')).splitOn '.'
      if networkParts.length ≠ 4 then none
      else some ⟨(readOctets networkParts 0).getD 0, prefixLen⟩

def mask (prefixLen : Nat) : BitVec 32 :=
  if prefixLen = 0 then 0 else 0xFFFFFFFF#32 <<< (32 - prefixLen)

def isIPWhitelisted (server : Whitelist) (ip : Identifier) : Bool :=
  if !server.whitelistEnabled then true
  else
    match readIP ip with
    | none => false
    | some ipValue =>
        server.ipWhitelist.any fun cidr =>
          match readCIDR cidr with
          | none => false
          | some network =>
              (ipValue &&& mask network.length) == (network.address &&& mask network.length)

/-! ## Reading what is well-formed -/

theorem mask_getMsbD {length : Nat} (short : length ≤ 32) (i : Nat) :
    (mask length).getMsbD i = decide (i < length) := by
  unfold mask
  split
  · rename_i zero
    simp [zero]
  · have ones : 0xFFFFFFFF#32 = BitVec.allOnes 32 := by decide
    rw [ones, BitVec.getMsbD_shiftLeft, BitVec.getMsbD_allOnes]
    exact decide_eq_decide.mpr (by omega)

/-- Comparing under the mask is comparing the first bits. -/
theorem and_mask_eq_iff {block : Block} (short : block.length ≤ 32) (address : BitVec 32) :
    address &&& mask block.length = block.address &&& mask block.length ↔
      block.Contains address := by
  constructor
  · intro same i inside
    have bit := congrArg (BitVec.getMsbD · i) same
    simpa [BitVec.getMsbD_and, mask_getMsbD short, inside] using bit
  · intro inside
    apply BitVec.eq_of_getMsbD_eq
    intro i _
    rw [BitVec.getMsbD_and, BitVec.getMsbD_and, mask_getMsbD short]
    by_cases counted : i < block.length
    · rw [inside i counted]
    · simp [counted]

theorem shift_octet {value number : Nat} (small : value < 2 ^ 24) (byte : number ≤ 255) :
    (BitVec.ofNat 32 value <<< 8) ||| (BitVec.ofNat 8 number).setWidth 32 =
      BitVec.ofNat 32 (value * 256 + number) := by
  apply BitVec.eq_of_toNat_eq
  have shifted : value <<< 8 = value * 256 := Nat.shiftLeft_eq value 8
  have joined : value <<< 8 + number = value <<< 8 ||| number :=
    Nat.shiftLeft_add_eq_or_of_lt (by omega) value
  simp only [BitVec.toNat_or, BitVec.toNat_shiftLeft, BitVec.toNat_ofNat, BitVec.toNat_setWidth]
  rw [Nat.mod_eq_of_lt (by omega : value < 2 ^ 32), Nat.mod_eq_of_lt (by omega : number < 2 ^ 8),
    Nat.mod_eq_of_lt (by omega : number < 2 ^ 32),
    Nat.mod_eq_of_lt (by omega : value <<< 8 < 2 ^ 32), ← joined, shifted,
    Nat.mod_eq_of_lt (by omega : value * 256 + number < 2 ^ 32)]

/-- One part that is an octet. -/
theorem readOctets_octet {part : Identifier} {parts : List Identifier} {value number : Nat}
    (read : octet part = some number) (small : value < 2 ^ 24) :
    readOctets (part :: parts) (BitVec.ofNat 32 value) =
      readOctets parts (BitVec.ofNat 32 (value * 256 + number)) := by
  obtain ⟨number', byte⟩ := Option.filter_eq_some_iff.mp read
  have nonempty : part.isEmpty = false := by
    rw [List.isEmpty_eq_false_iff]
    exact (digits_of_decimal number').1
  have byte' : number ≤ 255 := of_decide_eq_true byte
  simp only [readOctets, toUInt_of_decimal number' (by omega), nonempty, Bool.false_eq_true,
    if_false, shift_octet small byte']

theorem octet_le {part : Identifier} {number : Nat} (read : octet part = some number) :
    number ≤ 255 :=
  of_decide_eq_true (Option.filter_eq_some_iff.mp read).2

/-- A dotted quad has four parts, and they are read as they stand. -/
theorem readOctets_of_dottedQuad {text : Identifier} {address : BitVec 32}
    (quad : dottedQuad text = some address) :
    (text.splitOn '.').length = 4 ∧ readOctets (text.splitOn '.') 0 = some address := by
  unfold dottedQuad at quad
  split at quad
  · rename_i a b c d parts
    obtain ⟨x, readA, quad⟩ := Option.bind_eq_some_iff.mp quad
    obtain ⟨y, readB, quad⟩ := Option.bind_eq_some_iff.mp quad
    obtain ⟨z, readC, quad⟩ := Option.bind_eq_some_iff.mp quad
    obtain ⟨w, readD, rfl⟩ := Option.map_eq_some_iff.mp quad
    have boundA := octet_le readA
    have boundB := octet_le readB
    have boundC := octet_le readC
    have start : (0 : BitVec 32) = BitVec.ofNat 32 0 := rfl
    refine ⟨by rw [parts]; rfl, ?_⟩
    rw [parts, start, readOctets_octet readA (by omega), readOctets_octet readB (by omega),
      readOctets_octet readC (by omega), readOctets_octet readD (by omega), Nat.zero_mul,
      Nat.zero_add]
    rfl
  · cases quad

theorem readIP_of_dottedQuad {ip : Identifier} {address : BitVec 32}
    (quad : dottedQuad ip = some address) : readIP ip = some address := by
  obtain ⟨four, read⟩ := readOctets_of_dottedQuad quad
  unfold readIP
  dsimp only
  rw [if_neg (not_not_intro four), read]

theorem readCIDR_of_wellFormed {entry : Identifier} {block : Block}
    (wellFormed : wellFormedBlock entry = some block) : readCIDR entry = some block := by
  obtain ⟨address, quad, wellFormed⟩ := Option.bind_eq_some_iff.mp wellFormed
  obtain ⟨four, read⟩ := readOctets_of_dottedQuad quad
  unfold readCIDR
  by_cases slash : '/' ∈ entry
  · rw [if_pos slash] at wellFormed
    obtain ⟨length, number, rfl⟩ := Option.map_eq_some_iff.mp wellFormed
    obtain ⟨number, bound⟩ := Option.filter_eq_some_iff.mp number
    have bound' : length ≤ 32 := of_decide_eq_true bound
    have range : ¬ ((length : Int) < 0 ∨ (length : Int) > 32) := by omega
    simp only [slash, if_true, toInt_of_decimal number (by omega), range, if_false,
      Int.toNat_natCast, four, ne_eq, not_true_eq_false, read, Option.getD_some]
  · rw [if_neg slash] at wellFormed
    cases wellFormed
    simp only [slash, if_false, four, ne_eq, not_true_eq_false, read, Option.getD_some]

theorem readCIDR_length {entry : Identifier} {block : Block}
    (read : readCIDR entry = some block) : block.length ≤ 32 := by
  unfold readCIDR at read
  dsimp only at read
  split at read
  · cases read
  · rename_i prefixLen chosen
    split at read
    · cases read
    · cases read
      split at chosen
      · split at chosen
        · cases chosen
        · split at chosen
          · cases chosen
          · cases chosen
            dsimp only
            omega
      · cases chosen
        exact Nat.le_refl _

/-! ## The whole list -/

/-- The list is checked exactly while it has entries. -/
theorem enabled_after (calls : List WhitelistCall) :
    (after calls).whitelistEnabled = !(after calls).ipWhitelist.isEmpty := by
  have kept : ∀ (calls : List WhitelistCall) (server : Whitelist),
      server.whitelistEnabled = !server.ipWhitelist.isEmpty →
        (calls.foldl call server).whitelistEnabled =
          !(calls.foldl call server).ipWhitelist.isEmpty := by
    intro calls
    induction calls with
    | nil => exact fun _ enabled => enabled
    | cons first rest ih =>
      intro server enabled
      refine ih (server.call first) ?_
      cases first with
      | addWhitelistIP cidr =>
        have member : cidr ∈ server.ipWhitelist.insert cidr := List.mem_insert_self
        have nonempty : (server.ipWhitelist.insert cidr).isEmpty = false := by
          rw [List.isEmpty_eq_false_iff]
          exact List.ne_nil_of_mem member
        simp only [call, addWhitelistIP, nonempty, Bool.not_false]
      | removeWhitelistIP cidr =>
        simp only [call, removeWhitelistIP]
        by_cases empty : (server.ipWhitelist.erase cidr).isEmpty = true
        · simp [empty]
        · have before : server.ipWhitelist.isEmpty = false := by
            rw [List.isEmpty_eq_false_iff]
            rintro none
            simp [none] at empty
          rw [if_neg empty, enabled, before, Bool.eq_false_iff.mpr empty]
      | clearWhitelist => rfl
  exact kept calls new rfl

/-- Some entry, as the code reads it, contains the address that the code compares. -/
def Reached (entries : List Identifier) (address : BitVec 32) : Prop :=
  ∃ entry ∈ entries, ∃ block, readCIDR entry = some block ∧ block.Contains address

theorem isIPWhitelisted_eq_true {server : Whitelist} (enabled : server.whitelistEnabled = true)
    (ip : Identifier) :
    isIPWhitelisted server ip = true ↔
      ∃ address, readIP ip = some address ∧ Reached server.ipWhitelist address := by
  unfold isIPWhitelisted
  rw [enabled]
  cases read : readIP ip with
  | none => simp
  | some address =>
    simp only [Bool.not_true, Bool.false_eq_true, if_false, List.any_eq_true, Option.some.injEq,
      exists_eq_left', Reached]
    refine exists_congr fun entry => and_congr_right fun _ => ?_
    cases readEntry : readCIDR entry with
    | none => simp
    | some block =>
      simp only [beq_iff_eq, and_mask_eq_iff (readCIDR_length readEntry), Option.some.injEq,
        exists_eq_left']

/-! ## What the code takes for an address -/

/-- The parts of a dotted text. -/
def parts (text : Identifier) : List Identifier := text.splitOn '.'

/-- Four numbers as `toUInt` reads them, also above 255, with blanks and with a plus sign. -/
def FourNumbers (ip : Identifier) : Prop :=
  (parts ip).length = 4 ∧ ∀ part ∈ parts ip, (toUInt part).isSome = true

/-- Four parts of any kind, and after a slash a number from 0 to 32 as `toInt` reads it. -/
def FourParts (entry : Identifier) : Prop :=
  (parts (entry.takeWhile (· ≠ '/'))).length = 4 ∧
    ('/' ∈ entry → ∃ length, toInt (entry.dropWhile (· ≠ '/')).tail = some length ∧
      0 ≤ length ∧ length ≤ 32)

/-- A text that is taken for an address is one. -/
def HonestIP (ip : Identifier) : Prop := FourNumbers ip → (dottedQuad ip).isSome = true

/-- A text that is taken for a block is one. -/
def HonestEntry (entry : Identifier) : Prop := FourParts entry → (wellFormedBlock entry).isSome = true

theorem isSome_readOctets_iff (texts : List Identifier) (value : BitVec 32) :
    (readOctets texts value).isSome = true ↔ ∀ part ∈ texts, (toUInt part).isSome = true := by
  induction texts generalizing value with
  | nil => simp [readOctets]
  | cons part texts ih =>
    rw [readOctets, List.forall_mem_cons]
    cases read : toUInt part with
    | none => simp
    | some number =>
      have nonempty : part.isEmpty = false := by
        rw [List.isEmpty_eq_false_iff]
        rintro rfl
        have unread : toUInt [] = none := by decide
        cases unread.symm.trans read
      simp [nonempty, ih]

theorem isSome_readIP_iff (ip : Identifier) : (readIP ip).isSome = true ↔ FourNumbers ip := by
  unfold readIP FourNumbers parts
  by_cases four : (ip.splitOn '.').length = 4
  · simp [four, isSome_readOctets_iff]
  · simp [four]

theorem isSome_readCIDR_iff (entry : Identifier) : (readCIDR entry).isSome = true ↔ FourParts entry := by
  unfold readCIDR FourParts parts
  by_cases slash : '/' ∈ entry
  · cases read : toInt (entry.dropWhile (· ≠ '/')).tail with
    | none => simp [slash]
    | some length =>
      by_cases range : length < 0 ∨ length > 32
      · simp only [slash, range, if_true]
        simp
        omega
      · have inside : 0 ≤ length ∧ length ≤ 32 := by omega
        simp [slash, range, inside]
  · simp [slash]

/-- A number of eight bits in digits. -/
theorem octet_toDigits : ∀ n < 256, octet (Nat.toDigits 10 n) = some n ∧ '.' ∉ Nat.toDigits 10 n := by
  decide +kernel

/-- Every address is a dotted quad. -/
theorem exists_dottedQuad (address : BitVec 32) : ∃ ip, dottedQuad ip = some address := by
  have bound := address.isLt
  have digits : ∀ n, octet (Nat.toDigits 10 (n % 256)) = some (n % 256) ∧
      '.' ∉ Nat.toDigits 10 (n % 256) := fun n => octet_toDigits _ (Nat.mod_lt n (by decide))
  let texts := [address.toNat / 2 ^ 24, address.toNat / 2 ^ 16, address.toNat / 2 ^ 8, address.toNat].map
    fun n => Nat.toDigits 10 (n % 256)
  have split : (['.'].intercalate texts).splitOn '.' = texts :=
    List.splitOn_intercalate '.' (by simp [texts, digits]) (List.cons_ne_nil _ _)
  refine ⟨['.'].intercalate texts, ?_⟩
  rw [dottedQuad, split]
  simp only [texts, List.map_cons, List.map_nil, (digits _).1, Option.bind_some, Option.map_some]
  refine congrArg some (BitVec.eq_of_toNat_eq ?_)
  rw [BitVec.toNat_ofNat]
  omega

/-! ## Correctness -/

/-- The code admits the address exactly if it is a dotted quad in a well-formed block. -/
def Correct (calls : List WhitelistCall) (ip : Identifier) : Prop :=
  isIPWhitelisted (after calls) ip = true ↔ Admitted (after calls).ipWhitelist ip

theorem correct_of_honest {calls : List WhitelistCall} {ip : Identifier}
    (nonempty : (after calls).ipWhitelist ≠ []) (honest : HonestIP ip)
    (entries : ∀ entry ∈ (after calls).ipWhitelist, HonestEntry entry) : Correct calls ip := by
  have enabled : (after calls).whitelistEnabled = true := by
    rw [enabled_after, List.isEmpty_eq_false_iff.mpr nonempty, Bool.not_false]
  rw [Correct, isIPWhitelisted_eq_true enabled]
  constructor
  · rintro ⟨address, read, entry, member, block, readEntry, inside⟩
    obtain ⟨address', quad⟩ := Option.isSome_iff_exists.mp
      (honest ((isSome_readIP_iff ip).mp (by rw [read]; rfl)))
    obtain ⟨block', wellFormed⟩ := Option.isSome_iff_exists.mp
      (entries entry member ((isSome_readCIDR_iff entry).mp (by rw [readEntry]; rfl)))
    cases (readIP_of_dottedQuad quad).symm.trans read
    cases (readCIDR_of_wellFormed wellFormed).symm.trans readEntry
    exact ⟨_, quad, entry, member, _, wellFormed, inside⟩
  · rintro ⟨address, quad, entry, member, block, wellFormed, inside⟩
    exact ⟨address, readIP_of_dottedQuad quad, entry, member, block,
      readCIDR_of_wellFormed wellFormed, inside⟩

/-- The whole network, with which every address that is read is admitted. -/
def everything : Identifier := "0.0.0.0/0".toList

theorem wellFormed_everything : wellFormedBlock everything = some ⟨0, 0⟩ := by decide

/-- An address that is read and is none is admitted by the entry for the whole network. -/
theorem honest_of_correct {ip : Identifier} (correct : Correct [.addWhitelistIP everything] ip) :
    HonestIP ip := by
  intro numbers
  obtain ⟨address, read⟩ := Option.isSome_iff_exists.mp ((isSome_readIP_iff ip).mpr numbers)
  have admitted : isIPWhitelisted (after [.addWhitelistIP everything]) ip = true :=
    (isIPWhitelisted_eq_true rfl ip).mpr
    ⟨address, read, everything, List.mem_singleton_self _, _, readCIDR_of_wellFormed wellFormed_everything,
      fun i small => absurd small (Nat.not_lt_zero i)⟩
  obtain ⟨address', quad, -⟩ := correct.mp admitted
  rw [quad]
  rfl

/-- An entry that is compared and is no block admits the address it is compared as. -/
theorem honestEntry_of_correct {entry : Identifier}
    (correct : ∀ ip, HonestIP ip → Correct [.addWhitelistIP entry] ip) : HonestEntry entry := by
  intro numbers
  obtain ⟨block, read⟩ := Option.isSome_iff_exists.mp ((isSome_readCIDR_iff entry).mpr numbers)
  obtain ⟨ip, quad⟩ := exists_dottedQuad block.address
  have admitted : isIPWhitelisted (after [.addWhitelistIP entry]) ip = true :=
    (isIPWhitelisted_eq_true rfl ip).mpr
    ⟨block.address, readIP_of_dottedQuad quad, entry, List.mem_singleton_self _, block, read,
      fun _ _ => rfl⟩
  obtain ⟨address, -, entry', member, block', wellFormed, -⟩ :=
    (correct ip fun _ => by rw [quad]; rfl).mp admitted
  cases List.mem_singleton.mp member
  rw [wellFormed]
  rfl

namespace Literals

def allow (entry : String) : List WhitelistCall := [.addWhitelistIP entry.toList]

end Literals

end Whitelist

end QinDB.Server
