/-
# Network.Framing — messages on a byte stream

A message is a length of four bytes, a type byte and a payload (`message_codec.cpp`);
the length counts the type byte and the payload. Both ends of a connection collect the
bytes they receive and cut messages off the front (`client_connection.cpp`,
`client_manager.cpp`). The length is added to four in 32 bits and then read as a signed
number, so a length of zero and every length from `2 ^ 31 - 4` on is mistaken for
another one.

* `decodeMessage_sound_iff`: which arrays are decoded as they should be.
* `onReadyRead_iff_wellFramed`: which buffers the message loop gets through.
* `onReadyReads_encoded`: however a stream of encoded messages is cut, they arrive as sent.
-/
import QinDB.Base.Loop
import QinDB.Storage.DataStream

namespace QinDB.Network

open QinDB.Base QinDB.Core QinDB.Storage Relation

set_option autoImplicit false

/-! ## Messages -/

/-- An enumeration over `uint8_t`, into which any byte can be cast. -/
abbrev MessageType := UInt8

namespace MessageType

def AUTH_REQUEST : MessageType := 0x01
def AUTH_RESPONSE : MessageType := 0x02
def QUERY_REQUEST : MessageType := 0x10
def QUERY_RESPONSE : MessageType := 0x11
def DATABASE_SWITCH : MessageType := 0x12
def ERROR_RESPONSE : MessageType := 0x20
def PING : MessageType := 0x30
def PONG : MessageType := 0x31
def DISCONNECT : MessageType := 0x32

end MessageType

/-- The cast of an unsigned number to a 32-bit `int`. -/
def toInt (n : Nat) : Int := LittleEndian.signed 4 (n % 2 ^ 32)

theorem toInt_of_small {n : Nat} (small : n < 2 ^ 31) : toInt n = n := by
  have low : n % 2 ^ 32 = n := Nat.mod_eq_of_lt (by omega)
  rw [toInt, low, LittleEndian.signed, if_pos (by omega)]

theorem toInt_of_large {n : Nat} (large : 2 ^ 31 ≤ n) (small : n < 2 ^ 32) :
    toInt n = (n : Int) - 2 ^ 32 := by
  have low : n % 2 ^ 32 = n := Nat.mod_eq_of_lt small
  rw [toInt, low, LittleEndian.signed, if_neg (by omega)]
  norm_num

theorem toInt_of_wrapped {n : Nat} (large : 2 ^ 32 ≤ n) (small : n < 2 ^ 32 + 2 ^ 31) :
    toInt n = (n : Int) - 2 ^ 32 := by
  have low : n % 2 ^ 32 = n - 2 ^ 32 := by omega
  rw [toInt, low, LittleEndian.signed, if_pos (by omega)]
  omega

def encodeMessage (type : MessageType) (payload : Bytes) : Bytes :=
  let messageLength := (1 + payload.length) % 2 ^ 32
  streamWrite 4 messageLength ++ type :: payload

/-- `readRawData` into an array of `size` bytes: what the stream does not have keeps the bytes that
were there. -/
def readRawData (memory : Nat → UInt8) (size : Nat) (stream : Bytes) : Bytes :=
  stream.take size ++ (List.range (size - stream.length)).map memory

/-- The length field at the front of an array. -/
def lengthField (data : Bytes) : Nat := (streamRead 4 data).1

/-- `memory` is what a resized array holds before it is written. -/
def decodeMessage (memory : Nat → UInt8) (data : Bytes) : Option (MessageType × Bytes) :=
  if data.length < 5 then none
  else
    let messageLength := lengthField data
    if (data.length : Int) < toInt (4 + messageLength) then none
    else
      let type := (data.drop 4).headD 0
      let payloadSize := toInt (messageLength + (2 ^ 32 - 1))
      if 0 < payloadSize then some (type, readRawData memory payloadSize.toNat (data.drop 5))
      else some (type, [])

theorem lengthField_lt (data : Bytes) : lengthField data < 2 ^ 32 := streamRead_lt 4 data

theorem length_encodeMessage (type : MessageType) (payload : Bytes) :
    (encodeMessage type payload).length = 5 + payload.length := by
  simp only [encodeMessage, List.length_append, length_streamWrite, List.length_cons]
  omega

/-- The length field is read from the first four bytes. -/
theorem lengthField_append {front : Bytes} (enough : 4 ≤ front.length) (rest : Bytes) :
    lengthField (front ++ rest) = lengthField front := by
  unfold lengthField streamRead
  rw [if_neg (by rw [List.length_append]; omega), if_neg (by omega),
    List.take_append_of_le_length enough]

theorem lengthField_encodeMessage (type : MessageType) (payload : Bytes) :
    lengthField (encodeMessage type payload) = (1 + payload.length) % 2 ^ 32 := by
  have small : (1 + payload.length) % 2 ^ 32 < 256 ^ 4 := Nat.mod_lt _ (by decide)
  simp only [encodeMessage, lengthField]
  rw [streamRead_write small]

/-! ## Decoding -/

/-- An accepted array holds a message of the length it says, and that message is returned. -/
def SoundlyDecoded (memory : Nat → UInt8) (data : Bytes) : Prop :=
  ∀ type payload, decodeMessage memory data = some (type, payload) →
    1 ≤ lengthField data ∧ 4 + lengthField data ≤ data.length ∧ data[4]? = some type ∧
      payload = (data.drop 5).take (lengthField data - 1)

/-- A length that survives the 32-bit arithmetic: it is not zero, and it is below `2 ^ 31 - 4`, or
the array is that long and the payload still has an `int` size. -/
def HonestLength (data : Bytes) : Prop :=
  data.length < 5 ∨ (1 ≤ lengthField data ∧ (4 + lengthField data < 2 ^ 31 ∨
    (4 + lengthField data ≤ data.length ∧ lengthField data ≤ 2 ^ 31)))

instance decidableHonestLength (data : Bytes) : Decidable (HonestLength data) :=
  inferInstanceAs (Decidable (_ ∨ _))

variable {memory : Nat → UInt8} {data : Bytes}

theorem payloadSize_eq (positive : 1 ≤ lengthField data) (small : lengthField data ≤ 2 ^ 31) :
    toInt (lengthField data + (2 ^ 32 - 1)) = (lengthField data : Int) - 1 := by
  rw [toInt_of_wrapped (by omega) (by omega)]
  omega

theorem readRawData_of_le {size : Nat} {stream : Bytes} (enough : size ≤ stream.length) :
    readRawData memory size stream = stream.take size := by
  rw [readRawData, Nat.sub_eq_zero_of_le enough, List.range_zero, List.map_nil, List.append_nil]

/-- An array that holds a message of its length is decoded to that message. -/
theorem decodeMessage_whole (positive : 1 ≤ lengthField data)
    (whole : 4 + lengthField data ≤ data.length) (small : lengthField data ≤ 2 ^ 31) :
    decodeMessage memory data =
      some ((data.drop 4).headD 0, (data.drop 5).take (lengthField data - 1)) := by
  have size := payloadSize_eq positive small
  have fits : ¬ (data.length : Int) < toInt (4 + lengthField data) := by
    by_cases low : 4 + lengthField data < 2 ^ 31
    · rw [toInt_of_small low]
      omega
    · rw [toInt_of_large (by omega) (by omega)]
      omega
  unfold decodeMessage
  rw [if_neg (by omega)]
  simp only [if_neg fits, size]
  split
  · have enough : lengthField data - 1 ≤ (data.drop 5).length := by
      rw [List.length_drop]
      omega
    have count : ((lengthField data : Int) - 1).toNat = lengthField data - 1 := by omega
    rw [count, readRawData_of_le enough]
  · have one : lengthField data - 1 = 0 := by omega
    rw [one, List.take_zero]

theorem getElem?_four (enough : 5 ≤ data.length) : data[4]? = some ((data.drop 4).headD 0) := by
  rcases rest : data.drop 4 with _ | ⟨type, payload⟩
  · have none_left := congrArg List.length rest
    rw [List.length_drop, List.length_nil] at none_left
    omega
  · have here : (data.drop 4)[0]? = data[4 + 0]? := List.getElem?_drop
    rw [rest] at here
    exact here.symm

/-- A dishonest length does not survive: the sum is read as a small or a negative number. -/
theorem toInt_of_dishonest
    (dishonest : lengthField data = 0 ∨ 2 ^ 31 ≤ 4 + lengthField data) :
    toInt (4 + lengthField data) < 5 := by
  have bound := lengthField_lt data
  rcases dishonest with zero | large
  · rw [toInt_of_small (by omega)]
    omega
  · by_cases low : 4 + lengthField data < 2 ^ 32
    · rw [toInt_of_large large low]
      omega
    · rw [toInt_of_wrapped (by omega) (by omega)]
      omega

/-- A dishonest length is accepted. -/
theorem decodeMessage_isSome (enough : 5 ≤ data.length)
    (dishonest : lengthField data = 0 ∨ 2 ^ 31 ≤ 4 + lengthField data) :
    ∃ type payload, decodeMessage memory data = some (type, payload) ∧
      (2 ^ 31 < lengthField data → payload = []) := by
  have bound := lengthField_lt data
  have few := toInt_of_dishonest dishonest
  have fits : ¬ (data.length : Int) < toInt (4 + lengthField data) := by omega
  unfold decodeMessage
  rw [if_neg (by omega)]
  simp only [if_neg fits]
  split
  · rename_i positive
    refine ⟨_, _, rfl, fun huge => ?_⟩
    have wrapped : (lengthField data + (2 ^ 32 - 1)) % 2 ^ 32 = lengthField data - 1 := by omega
    rw [toInt, wrapped, LittleEndian.signed, if_neg (by omega)] at positive
    omega
  · exact ⟨_, _, rfl, fun _ => rfl⟩

/-- Exactly the arrays with an honest length are decoded soundly, whatever is in memory. -/
theorem soundlyDecoded_iff : SoundlyDecoded memory data ↔ HonestLength data := by
  constructor
  · intro sound
    by_contra dishonest
    simp only [HonestLength, not_or, not_and, not_lt] at dishonest
    obtain ⟨enough, bad⟩ := dishonest
    by_cases zero : lengthField data = 0
    · obtain ⟨type, payload, decoded, -⟩ := decodeMessage_isSome enough (.inl zero)
      have positive := (sound type payload decoded).1
      omega
    · have large := (bad (by omega)).1
      have absent := (bad (by omega)).2
      obtain ⟨type, payload, decoded, empty⟩ := decodeMessage_isSome enough (.inr large)
      obtain ⟨-, whole, -, same⟩ := sound type payload decoded
      have huge := absent whole
      have lengths := congrArg List.length same
      rw [empty (by omega), List.length_nil, List.length_take, List.length_drop] at lengths
      omega
  · intro honest type payload decoded
    rcases honest with short | ⟨positive, size⟩
    · rw [decodeMessage, if_pos short] at decoded
      cases decoded
    · by_cases whole : 4 + lengthField data ≤ data.length
      · have small : lengthField data ≤ 2 ^ 31 := by omega
        rw [decodeMessage_whole positive whole small] at decoded
        cases decoded
        exact ⟨positive, whole, getElem?_four (by omega), rfl⟩
      · have low : 4 + lengthField data < 2 ^ 31 := by omega
        have short : (data.length : Int) < toInt (4 + lengthField data) := by
          rw [toInt_of_small low]
          omega
        unfold decodeMessage at decoded
        split at decoded
        · cases decoded
        · simp only [if_pos short] at decoded
          cases decoded

theorem drop_encodeMessage (type : MessageType) (payload : Bytes) :
    (encodeMessage type payload).drop 4 = type :: payload ∧
      (encodeMessage type payload).drop 5 = payload := by
  have body : (encodeMessage type payload).drop 4 = type :: payload := by
    rw [encodeMessage, List.drop_left' (length_streamWrite 4 _)]
  refine ⟨body, ?_⟩
  rw [show (5 : Nat) = 4 + 1 from rfl, ← List.drop_drop, body, List.drop_succ_cons, List.drop_zero]

/-- Of a payload the client gets what the length field, which has 32 bits, and `int` can count. -/
theorem decodeMessage_encodeMessage_take (type : MessageType) {payload : Bytes} (size : Nat)
    (small : size < 2 ^ 31) (field : (1 + payload.length) % 2 ^ 32 = 1 + size) :
    decodeMessage memory (encodeMessage type payload) = some (type, payload.take size) := by
  have length := lengthField_encodeMessage type payload
  have whole := length_encodeMessage type payload
  obtain ⟨body, tail⟩ := drop_encodeMessage type payload
  rw [decodeMessage_whole (by omega) (by omega) (by omega), body, tail, length, field,
    Nat.add_sub_cancel_left, List.headD_cons]

/-- A message is decoded to its type and payload. -/
theorem decodeMessage_encodeMessage (type : MessageType) {payload : Bytes}
    (small : payload.length < 2 ^ 31 - 5) :
    decodeMessage memory (encodeMessage type payload) = some (type, payload) := by
  rw [decodeMessage_encodeMessage_take type payload.length (by omega)
    (Nat.mod_eq_of_lt (by omega)), List.take_length]

/-- No more than `int` can count arrives of a payload, whatever its length. -/
theorem exists_take_of_decodeMessage {type type' : MessageType} {payload payload' : Bytes}
    (decoded : decodeMessage memory (encodeMessage type payload) = some (type', payload')) :
    ∃ size < 2 ^ 31, payload' = payload.take size := by
  have length := lengthField_encodeMessage type payload
  have bound := lengthField_lt (encodeMessage type payload)
  by_cases counted : 1 ≤ (1 + payload.length) % 2 ^ 32 ∧ (1 + payload.length) % 2 ^ 32 ≤ 2 ^ 31
  · refine ⟨(1 + payload.length) % 2 ^ 32 - 1, by omega, ?_⟩
    rw [decodeMessage_encodeMessage_take type ((1 + payload.length) % 2 ^ 32 - 1) (by omega)
      (by omega)] at decoded
    exact (congrArg Prod.snd (Option.some.inj decoded)).symm
  · -- the size of the payload is not positive as an `int`
    refine ⟨0, by decide, ?_⟩
    have none_left : ¬ 0 < toInt (lengthField (encodeMessage type payload) + (2 ^ 32 - 1)) := by
      by_cases zero : lengthField (encodeMessage type payload) = 0
      · rw [zero, toInt_of_large (by decide) (by decide)]
        decide
      · have wrapped : (lengthField (encodeMessage type payload) + (2 ^ 32 - 1)) % 2 ^ 32 =
            lengthField (encodeMessage type payload) - 1 := by omega
        rw [toInt, wrapped, LittleEndian.signed, if_neg (by omega)]
        omega
    unfold decodeMessage at decoded
    split at decoded
    · cases decoded
    · dsimp only at decoded
      split at decoded
      · cases decoded
      · exact (congrArg Prod.snd (Option.some.inj decoded)).symm

/-- What is decoded from an array is sound exactly for honest lengths, and a message that was encoded
is decoded to itself. -/
theorem decodeMessage_sound_iff (memory : Nat → UInt8) :
    (∀ data, SoundlyDecoded memory data ↔ HonestLength data) ∧
      ∀ type payload, payload.length < 2 ^ 31 - 5 →
        decodeMessage memory (encodeMessage type payload) = some (type, payload) :=
  ⟨fun _ => soundlyDecoded_iff, fun type _ small => decodeMessage_encodeMessage type small⟩

theorem decodeMessage_sound_ping :
    decodeMessage (fun _ => 0) (encodeMessage MessageType.PING [7]) = some (MessageType.PING, [7]) :=
  (decodeMessage_sound_iff fun _ => 0).2 _ _ (by decide)

/-- A length of zero is accepted, although it does not even cover the type byte. -/
theorem decodeMessage_accepts_zero : ¬ SoundlyDecoded (fun _ => 0) [0, 0, 0, 0, 0x30] := by
  intro sound
  have positive := (sound MessageType.PING [] (by decide)).1
  revert positive
  decide

/-! ## The message loop -/

/-- `QByteArray::left`, the whole array for a negative count. -/
def left (data : Bytes) (count : Int) : Bytes :=
  if count < 0 then data else data.take count.toNat

/-- `QByteArray::remove` from the front, nothing for a count that is not positive. -/
def removeFront (data : Bytes) (count : Int) : Bytes := data.drop count.toNat

/-- One iteration of the message loop: the message that is handled and the bytes that stay. -/
def nextMessage (receiveBuffer : Bytes) : Option (Bytes × Bytes) :=
  if receiveBuffer.length < 5 then none
  else
    let totalSize := toInt (4 + lengthField receiveBuffer)
    if (receiveBuffer.length : Int) < totalSize then none
    else some (left receiveBuffer totalSize, removeFront receiveBuffer totalSize)

/-- The messages handled when `incoming` arrives, and the buffer afterwards. -/
def ClientConnection.onReadyRead (fuel : Nat) (receiveBuffer incoming : Bytes) :
    Option (List Bytes × Bytes) :=
  Loop.loop nextMessage fuel (receiveBuffer ++ incoming)

def ClientManager.onReadyRead (fuel : Nat) (socket : Bool) (receiveBuffer incoming : Bytes) :
    Option (List Bytes × Bytes) :=
  if !socket then some ([], receiveBuffer)
  else Loop.loop nextMessage fuel (receiveBuffer ++ incoming)

/-- The bytes are frames with lengths that survive the 32-bit arithmetic, the last perhaps cut. -/
inductive WellFramed : Bytes → Prop where
  | short {data : Bytes} (few : data.length < 5) : WellFramed data
  | cut {data : Bytes} (positive : 1 ≤ lengthField data) (small : 4 + lengthField data < 2 ^ 31)
      (incomplete : data.length < 4 + lengthField data) : WellFramed data
  | frame {data : Bytes} (positive : 1 ≤ lengthField data) (small : 4 + lengthField data < 2 ^ 31)
      (whole : 4 + lengthField data ≤ data.length)
      (rest : WellFramed (data.drop (4 + lengthField data))) : WellFramed data

/-- Every iteration from a buffer on removes five bytes or more. -/
def RemovesFive (buffer : Bytes) : Prop :=
  ∀ before, ReflTransGen (Loop.Iterates nextMessage) buffer before →
    ∀ after, Loop.Iterates nextMessage before after → after.length + 5 ≤ before.length

theorem nextMessage_of_short (few : data.length < 5) : nextMessage data = none := if_pos few

theorem nextMessage_of_cut (small : 4 + lengthField data < 2 ^ 31)
    (incomplete : data.length < 4 + lengthField data) : nextMessage data = none := by
  unfold nextMessage
  split
  · rfl
  · simp only [toInt_of_small small]
    rw [if_pos (by omega)]

theorem nextMessage_of_frame (positive : 1 ≤ lengthField data)
    (small : 4 + lengthField data < 2 ^ 31) (whole : 4 + lengthField data ≤ data.length) :
    nextMessage data =
      some (data.take (4 + lengthField data), data.drop (4 + lengthField data)) := by
  have count : ((4 + lengthField data : Nat) : Int).toNat = 4 + lengthField data := Int.toNat_natCast _
  unfold nextMessage
  rw [if_neg (by omega)]
  simp only [toInt_of_small small]
  rw [if_neg (by omega), left, removeFront, if_neg (by omega), count]

/-- A length that does not survive is taken as a message, of which less than five bytes go. -/
theorem nextMessage_of_dishonest (enough : 5 ≤ data.length)
    (dishonest : lengthField data = 0 ∨ 2 ^ 31 ≤ 4 + lengthField data) :
    ∃ message rest, nextMessage data = some (message, rest) ∧ data.length < rest.length + 5 := by
  have few := toInt_of_dishonest dishonest
  unfold nextMessage
  rw [if_neg (by omega)]
  simp only
  rw [if_neg (by omega)]
  refine ⟨_, _, rfl, ?_⟩
  rw [removeFront, List.length_drop]
  omega

/-- The loop gets through a buffer, five bytes or more at a time, exactly if it is well framed. -/
theorem ends_removesFive_iff (buffer : Bytes) :
    Loop.Ends nextMessage buffer ∧ RemovesFive buffer ↔ WellFramed buffer := by
  constructor
  · -- every iteration shortens the buffer, so the induction is on its length
    rintro ⟨-, removes⟩
    induction size : buffer.length using Nat.strong_induction_on generalizing buffer with
    | _ length ih =>
      by_cases few : buffer.length < 5
      · exact .short few
      by_cases honest : 1 ≤ lengthField buffer ∧ 4 + lengthField buffer < 2 ^ 31
      · obtain ⟨positive, small⟩ := honest
        by_cases whole : 4 + lengthField buffer ≤ buffer.length
        · have taken := nextMessage_of_frame positive small whole
          have later := ((Loop.forall_reach_iff_of_step taken).mp removes).2
          refine .frame positive small whole (ih _ ?_ _ later rfl)
          rw [List.length_drop]
          omega
        · exact .cut positive small (by omega)
      · obtain ⟨message, rest, taken, kept⟩ :=
          nextMessage_of_dishonest (not_lt.mp few) (by omega)
        have removed := removes buffer .refl rest ⟨message, taken⟩
        omega
  · intro framed
    induction framed with
    | short few =>
      have stopped := nextMessage_of_short few
      exact ⟨Loop.ends_of_none stopped, Loop.forall_reach_of_none stopped⟩
    | cut positive small incomplete =>
      have stopped := nextMessage_of_cut small incomplete
      exact ⟨Loop.ends_of_none stopped, Loop.forall_reach_of_none stopped⟩
    | frame positive small whole rest ih =>
      have taken := nextMessage_of_frame positive small whole
      refine ⟨(Loop.ends_iff_of_step taken).mpr ih.1,
        (Loop.forall_reach_iff_of_step taken).mpr ⟨?_, ih.2⟩⟩
      rw [List.length_drop]
      omega

/-- Both ends of a connection get through what they have received exactly if it is well framed; a
client without a socket does not look at it. -/
theorem onReadyRead_iff_wellFramed (socket : Bool) (receiveBuffer incoming : Bytes) :
    ((∃ fuel handled rest,
          ClientConnection.onReadyRead fuel receiveBuffer incoming = some (handled, rest)) ∧
        RemovesFive (receiveBuffer ++ incoming) ↔ WellFramed (receiveBuffer ++ incoming)) ∧
      ((∃ fuel handled rest,
          ClientManager.onReadyRead fuel socket receiveBuffer incoming = some (handled, rest)) ∧
        (socket = true → RemovesFive (receiveBuffer ++ incoming)) ↔
          (socket = true → WellFramed (receiveBuffer ++ incoming))) := by
  refine ⟨ends_removesFive_iff _, ?_⟩
  cases socket with
  | false =>
    refine ⟨fun _ none => (Bool.false_ne_true none).elim, fun _ => ⟨⟨0, [], receiveBuffer, rfl⟩, ?_⟩⟩
    exact fun none => (Bool.false_ne_true none).elim
  | true =>
    simp only [ClientManager.onReadyRead, Bool.not_true, Bool.false_eq_true, if_false, true_imp_iff]
    exact ends_removesFive_iff _

/-- The length `2 ^ 32 - 4` makes a message of no bytes, which is handled forever; a length of zero
makes one of four. -/
theorem onReadyRead_never_ends :
    (¬ ∃ fuel handled rest, ClientConnection.onReadyRead fuel [] [0xFF, 0xFF, 0xFF, 0xFC, 0x30] =
        some (handled, rest)) ∧
      ¬ RemovesFive [0, 0, 0, 0, 0x30] := by
  constructor
  · have same : nextMessage [0xFF, 0xFF, 0xFF, 0xFC, 0x30] =
        some ([], [0xFF, 0xFF, 0xFF, 0xFC, 0x30]) := by decide
    exact Loop.not_ends_of_fixed same
  · intro removes
    have removed := removes _ .refl [0x30] ⟨[0, 0, 0, 0], by decide⟩
    revert removed
    decide

/-! ## Chunks -/

/-- Successive calls, one for each chunk that arrives. -/
def ClientConnection.onReadyReads (fuel : Nat) :
    Bytes → List Bytes → Option (List Bytes × Bytes)
  | receiveBuffer, [] => some ([], receiveBuffer)
  | receiveBuffer, incoming :: chunks =>
      match ClientConnection.onReadyRead fuel receiveBuffer incoming with
      | none => none
      | some (handled, rest) =>
          (ClientConnection.onReadyReads fuel rest chunks).map fun (later, last) =>
            (handled ++ later, last)

/-- The bytes of a sequence of messages. -/
def encodeAll (messages : List (MessageType × Bytes)) : Bytes :=
  messages.flatMap fun (type, payload) => encodeMessage type payload

/-- The messages as `handleMessage` gets them. -/
def frames (messages : List (MessageType × Bytes)) : List Bytes :=
  messages.map fun (type, payload) => encodeMessage type payload

section Chunks

variable {buffer later : Bytes} {fuel : Nat} {type : MessageType} {payload : Bytes}

/-- A frame at the front of a buffer is the next message. -/
theorem nextMessage_encoded (small : payload.length < 2 ^ 31 - 5) :
    nextMessage (encodeMessage type payload ++ buffer) =
      some (encodeMessage type payload, buffer) := by
  have size := length_encodeMessage type payload
  have field : lengthField (encodeMessage type payload ++ buffer) = 1 + payload.length := by
    rw [lengthField_append (by omega), lengthField_encodeMessage, Nat.mod_eq_of_lt (by omega)]
  have cutAt : 4 + (1 + payload.length) = (encodeMessage type payload).length := by omega
  rw [nextMessage_of_frame (by omega) (by omega) (by rw [List.length_append]; omega), field, cutAt,
    List.take_left, List.drop_left]

/-- The loop waits for the rest of a frame. -/
theorem nextMessage_incomplete {more : Bytes} (small : payload.length < 2 ^ 31 - 5)
    (front : buffer ++ later = encodeMessage type payload ++ more)
    (incomplete : buffer.length < (encodeMessage type payload).length) :
    nextMessage buffer = none := by
  by_cases few : buffer.length < 5
  · exact nextMessage_of_short few
  have size := length_encodeMessage type payload
  have field : lengthField buffer = 1 + payload.length := by
    rw [← lengthField_append (by omega) later, front, lengthField_append (by omega),
      lengthField_encodeMessage, Nat.mod_eq_of_lt (by omega)]
  exact nextMessage_of_cut (by omega) (by omega)

/-- The loop on a front part of a stream of messages handles those that are there and keeps the rest;
with nothing to come, that is all of them. -/
theorem loop_encoded {messages : List (MessageType × Bytes)}
    (front : buffer ++ later = encodeAll messages)
    (small : ∀ message ∈ messages, message.2.length < 2 ^ 31 - 5) (enough : buffer.length < fuel) :
    ∃ handled waiting rest, messages = handled ++ waiting ∧
      Loop.loop nextMessage fuel buffer = some (frames handled, rest) ∧
      rest ++ later = encodeAll waiting ∧ (later = [] → waiting = []) := by
  obtain ⟨fuel, rfl⟩ : ∃ n, fuel = n + 1 := ⟨fuel - 1, by omega⟩
  induction messages generalizing buffer fuel with
  | nil =>
    have empty : buffer = [] := (List.append_eq_nil_iff.mp front).1
    subst empty
    exact ⟨[], [], [], rfl, Loop.loop_succ_of_none (nextMessage_of_short (by decide)), front,
      fun _ => rfl⟩
  | cons message messages ih =>
    obtain ⟨type, payload⟩ := message
    have fits : payload.length < 2 ^ 31 - 5 := small _ List.mem_cons_self
    have opened : buffer ++ later = encodeMessage type payload ++ encodeAll messages := front
    by_cases incomplete : buffer.length < (encodeMessage type payload).length
    · refine ⟨[], (type, payload) :: messages, buffer, rfl,
        Loop.loop_succ_of_none (nextMessage_incomplete fits opened incomplete), front, ?_⟩
      intro ended
      have lengths := congrArg List.length opened
      rw [ended, List.append_nil, List.length_append] at lengths
      omega
    · -- the first frame is complete: take it off and go on with what follows it
      obtain ⟨after, rfl, following⟩ : ∃ after, buffer = encodeMessage type payload ++ after ∧
          after ++ later = encodeAll messages := by
        rcases List.append_eq_append_iff.mp opened with ⟨more, whole, same⟩ | ⟨after, whole, same⟩
        · have lengths := congrArg List.length whole
          rw [List.length_append] at lengths
          have none_more : more = [] := List.length_eq_zero_iff.mp (by omega)
          subst none_more
          exact ⟨[], by rw [whole, List.append_nil, List.append_nil], same⟩
        · exact ⟨after, whole, same.symm⟩
      have size := length_encodeMessage type payload
      rw [List.length_append] at enough
      obtain ⟨last, rfl⟩ : ∃ n, fuel = n + 1 := ⟨fuel - 1, by omega⟩
      obtain ⟨handled, waiting, rest, split, looped, remaining, complete⟩ :=
        ih following (fun message listed => small message (List.mem_cons_of_mem _ listed)) last
          (by omega)
      refine ⟨(type, payload) :: handled, waiting, rest, by rw [split, List.cons_append], ?_,
        remaining, complete⟩
      rw [Loop.loop_succ_of_some (nextMessage_encoded fits), looped]
      rfl

/-- One call at a time: what is buffered and what is still to come are the messages not yet handled. -/
theorem onReadyReads_rest {messages : List (MessageType × Bytes)} {chunks : List Bytes}
    (cut : buffer ++ chunks.flatten = encodeAll messages) (settled : chunks = [] → messages = [])
    (small : ∀ message ∈ messages, message.2.length < 2 ^ 31 - 5)
    (enough : (buffer ++ chunks.flatten).length < fuel) :
    ClientConnection.onReadyReads fuel buffer chunks = some (frames messages, []) := by
  induction chunks generalizing buffer messages with
  | nil =>
    cases settled rfl
    have empty : buffer = [] := (List.append_eq_nil_iff.mp cut).1
    rw [empty]
    rfl
  | cons chunk chunks ih =>
    rw [List.flatten_cons, ← List.append_assoc] at cut enough
    have arrived : (buffer ++ chunk).length < fuel := by
      rw [List.length_append] at enough
      omega
    obtain ⟨handled, waiting, rest, rfl, looped, remaining, complete⟩ :=
      loop_encoded cut small arrived
    have later : ClientConnection.onReadyReads fuel rest chunks = some (frames waiting, []) := by
      refine ih remaining (fun ended => complete (by rw [ended, List.flatten_nil]))
        (fun message listed => small message (List.mem_append_right _ listed)) ?_
      have sizes : (encodeAll waiting).length ≤ (encodeAll (handled ++ waiting)).length := by
        rw [encodeAll, encodeAll, List.flatMap_append, List.length_append]
        omega
      rw [remaining]
      rw [cut] at enough
      omega
    simp only [ClientConnection.onReadyReads, ClientConnection.onReadyRead, looped, later,
      Option.map_some, frames, List.map_append]

end Chunks

theorem length_le_encodeAll {messages : List (MessageType × Bytes)}
    {message : MessageType × Bytes} (listed : message ∈ messages) :
    5 + message.2.length ≤ (encodeAll messages).length := by
  have part := List.sublist_flatten_of_mem (List.mem_map_of_mem
    (f := fun m : MessageType × Bytes => encodeMessage m.1 m.2) listed)
  rw [← length_encodeMessage message.1 message.2]
  exact part.length_le

/-- However the bytes of a sequence of messages are cut into chunks, the messages are handled as they
were encoded and in their order, they decode to what was sent, and the buffer ends empty. -/
theorem onReadyReads_encoded (memory : Nat → UInt8) (messages : List (MessageType × Bytes))
    (chunks : List Bytes) (cut : chunks.flatten = encodeAll messages)
    (small : (encodeAll messages).length < 2 ^ 31 - 1) :
    ∃ enough, ∀ fuel ≥ enough,
      ClientConnection.onReadyReads fuel [] chunks = some (frames messages, []) ∧
        (frames messages).map (decodeMessage memory) = messages.map some := by
  have sizes : ∀ message ∈ messages, message.2.length < 2 ^ 31 - 5 := by
    intro message listed
    have part := length_le_encodeAll listed
    omega
  refine ⟨(encodeAll messages).length + 1, fun fuel enough => ⟨?_, ?_⟩⟩
  · refine onReadyReads_rest cut (fun none => ?_) sizes (by rw [List.nil_append, cut]; omega)
    rw [none, List.flatten_nil] at cut
    rw [List.eq_nil_iff_forall_not_mem]
    intro message listed
    have part := length_le_encodeAll listed
    rw [← cut, List.length_nil] at part
    omega
  · rw [frames, List.map_map]
    refine List.map_congr_left fun message listed => ?_
    exact decodeMessage_encodeMessage message.1 (sizes message listed)

theorem onReadyReads_encoded_ping : ∃ enough, ∀ fuel ≥ enough,
    ClientConnection.onReadyReads fuel [] [[0, 0, 0], [1, 0x30, 0, 0, 0, 1], [0x32]] =
        some ([[0, 0, 0, 1, 0x30], [0, 0, 0, 1, 0x32]], []) ∧
      (frames [(MessageType.PING, []), (MessageType.DISCONNECT, [])]).map
          (decodeMessage fun _ => 0) =
        [some (MessageType.PING, []), some (MessageType.DISCONNECT, [])] :=
  onReadyReads_encoded (fun _ => 0) [(MessageType.PING, []), (MessageType.DISCONNECT, [])]
    [[0, 0, 0], [1, 0x30, 0, 0, 0, 1], [0x32]] (by decide) (by decide)

end QinDB.Network
