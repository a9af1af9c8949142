/-
# Network.Codec — the control messages

The payloads of `message_codec.cpp`: integers in the width of their C++ type, most
significant byte first, and texts as a length of four bytes and UTF-8. A decoder reads
all fields, short or not, and looks at the status of the stream at the end. `fromUtf8`
takes a byte order mark at the beginning of a text away.

* `decode_control_messages_iff`: a control message is decoded from its payload, and from no
  proper prefix of it, exactly if none of its texts begins with the mark.
-/
import QinDB.Base.Decoder
import QinDB.Base.Utf8
import QinDB.Network.Framing

namespace QinDB.Network

open QinDB.Base QinDB.Core QinDB.Storage

set_option autoImplicit false

/-! ## Reading -/

/-- `stream >> x` for an unsigned `x` of `w` bytes, zero if the stream is too short. -/
def readUInt (w : Nat) : Decoder UInt8 Nat := fun s =>
  let result := streamRead w s.left
  (result.1, { s with left := result.2, ok := s.ok && decide (w ≤ s.left.length) })

/-- `resize` of a new array and `readRawData` into it. -/
def readArray (memory : Nat → UInt8) (length : Nat) : Decoder UInt8 Bytes := do
  Decoder.request length
  fun s => (readRawData memory length s.left,
    { s with left := s.left.drop length, ok := s.ok && decide (length ≤ s.left.length) })

abbrev QString := List UInt16

def encodeString (text : QString) : Bytes :=
  streamWrite 4 ((Utf8.encode text).length % 2 ^ 32) ++ Utf8.encode text

def decodeString (memory : Nat → UInt8) : Decoder UInt8 QString := do
  let length ← readUInt 4
  if length = 0 then pure []
  else
    let data ← readArray memory length
    pure (Utf8.decode data)

/-! ## Messages -/

/-- An enumeration over `uint8_t`, into which any byte can be cast. -/
abbrev AuthStatus := UInt8

@[ext] structure AuthRequest where
  protocolVersion : UInt16
  username : QString
  password : QString
  database : QString
  deriving DecidableEq, Repr

@[ext] structure AuthResponse where
  status : AuthStatus
  sessionId : UInt64
  message : QString
  deriving DecidableEq, Repr

@[ext] structure QueryRequest where
  sessionId : UInt64
  sql : QString
  deriving DecidableEq, Repr

@[ext] structure DatabaseSwitchMessage where
  databaseName : QString
  deriving DecidableEq, Repr

@[ext] structure ErrorResponse where
  errorCode : UInt32
  message : QString
  detail : QString
  deriving DecidableEq, Repr

section Messages

variable (memory : Nat → UInt8)

/-- A decoder on a payload: nothing for an empty payload and for one that is too short. -/
def decodePayload {α : Type} (fields : Decoder UInt8 α) (payload : Bytes) : Option α :=
  if payload.isEmpty then none
  else
    let result := fields (Decoder.start payload)
    if result.2.ok then some result.1 else none

def encodeAuthRequest (request : AuthRequest) : Bytes :=
  encodeMessage MessageType.AUTH_REQUEST (streamWrite 2 request.protocolVersion.toNat ++
    (encodeString request.username ++ (encodeString request.password ++
      encodeString request.database)))

def authRequestFields : Decoder UInt8 AuthRequest := do
  let protocolVersion ← readUInt 2
  let username ← decodeString memory
  let password ← decodeString memory
  let database ← decodeString memory
  pure ⟨.ofNat protocolVersion, username, password, database⟩

def decodeAuthRequest : Bytes → Option AuthRequest :=
  decodePayload (authRequestFields memory)

def encodeAuthResponse (response : AuthResponse) : Bytes :=
  encodeMessage MessageType.AUTH_RESPONSE (streamWrite 1 response.status.toNat ++
    (streamWrite 8 response.sessionId.toNat ++ encodeString response.message))

def authResponseFields : Decoder UInt8 AuthResponse := do
  let status ← readUInt 1
  let sessionId ← readUInt 8
  let message ← decodeString memory
  pure ⟨.ofNat status, .ofNat sessionId, message⟩

def decodeAuthResponse : Bytes → Option AuthResponse :=
  decodePayload (authResponseFields memory)

def encodeQueryRequest (request : QueryRequest) : Bytes :=
  encodeMessage MessageType.QUERY_REQUEST
    (streamWrite 8 request.sessionId.toNat ++ encodeString request.sql)

def queryRequestFields : Decoder UInt8 QueryRequest := do
  let sessionId ← readUInt 8
  let sql ← decodeString memory
  pure ⟨.ofNat sessionId, sql⟩

def decodeQueryRequest : Bytes → Option QueryRequest :=
  decodePayload (queryRequestFields memory)

def encodeDatabaseSwitch (message : DatabaseSwitchMessage) : Bytes :=
  encodeMessage MessageType.DATABASE_SWITCH (encodeString message.databaseName)

def databaseSwitchFields : Decoder UInt8 DatabaseSwitchMessage := do
  let databaseName ← decodeString memory
  pure ⟨databaseName⟩

def decodeDatabaseSwitch : Bytes → Option DatabaseSwitchMessage :=
  decodePayload (databaseSwitchFields memory)

def encodeErrorResponse (error : ErrorResponse) : Bytes :=
  encodeMessage MessageType.ERROR_RESPONSE (streamWrite 4 error.errorCode.toNat ++
    (encodeString error.message ++ encodeString error.detail))

def errorResponseFields : Decoder UInt8 ErrorResponse := do
  let errorCode ← readUInt 4
  let message ← decodeString memory
  let detail ← decodeString memory
  pure ⟨.ofNat errorCode, message, detail⟩

def decodeErrorResponse : Bytes → Option ErrorResponse :=
  decodePayload (errorResponseFields memory)

end Messages

/-! ## Round trips -/

open Decoder

variable {w n : Nat}

@[simp] theorem sticky_readUInt (w : Nat) : Sticky (readUInt w) := by
  intro s marked
  simp only [readUInt, marked, Bool.false_and]

@[simp] theorem sticky_readArray (memory : Nat → UInt8) (length : Nat) :
    Sticky (readArray memory length) := by
  refine (Sticky.request length).bind fun _ s marked => ?_
  simp only [marked, Bool.false_and]

theorem extends_readUInt (w : Nat) : Extends (readUInt w) where
  sticky := sticky_readUInt w
  longer s more fine := by
    have enough : w ≤ s.left.length := of_decide_eq_true (Bool.and_eq_true_iff.mp fine).2
    have longer : w ≤ (s.left ++ more).length := le_trans enough (by simp)
    simp only [readUInt, streamRead, decide_eq_true enough, decide_eq_true longer,
      if_neg (not_lt.mpr enough), if_neg (not_lt.mpr longer), List.take_append_of_le_length enough,
      List.drop_append_of_le_length enough]

theorem extends_readArray (memory : Nat → UInt8) (length : Nat) : Extends (readArray memory length) := by
  refine (Extends.request length).bind fun _ => ⟨fun s marked => ?_, fun s more fine => ?_⟩
  · simp only [marked, Bool.false_and]
  · have enough : length ≤ s.left.length := of_decide_eq_true (Bool.and_eq_true_iff.mp fine).2
    have longer : length ≤ (s.left ++ more).length := le_trans enough (by simp)
    simp only [decide_eq_true enough, decide_eq_true longer, readRawData_of_le enough,
      readRawData_of_le longer, List.take_append_of_le_length enough,
      List.drop_append_of_le_length enough]

theorem readUInt_write {s : Stream UInt8} {rest : Bytes} (small : n < 256 ^ w)
    (front : s.left = streamWrite w n ++ rest) : readUInt w s = (n, { s with left := rest }) := by
  have enough : w ≤ s.left.length := by
    rw [front, List.length_append, length_streamWrite]
    omega
  simp only [readUInt, decide_eq_true enough, Bool.and_true]
  rw [front, streamRead_write small]

theorem reads_readUInt (small : n < 256 ^ w) : Reads (readUInt w) (streamWrite w n) n where
  whole ok front := by
    rw [readUInt_write small front]
    exact ⟨rfl, rfl, ok⟩
  cut {s} _ shorter proper := by
    have fewer : s.left.length < w := by
      rw [← length_streamWrite w n]
      exact lt_of_le_of_ne shorter.length_le fun same => proper (shorter.eq_of_length same)
    simp only [readUInt, decide_eq_false (not_le.mpr fewer), Bool.and_false]

theorem reads_readArray (memory : Nat → UInt8) (data : Bytes) :
    Reads (readArray memory data.length) data data := by
  refine (Reads.request data.length).bind ⟨fun {s rest} ok front => ?_, fun {s} _ shorter proper => ?_⟩
    fun _ s marked => ?_
  · have enough : data.length ≤ s.left.length := by
      rw [front, List.length_append]
      omega
    refine ⟨?_, ?_, ?_⟩
    · rw [readRawData_of_le enough, front, List.take_left]
    · simp only [front, List.drop_left]
    · simp only [ok, Bool.true_and, decide_eq_true enough]
  · have fewer : s.left.length < data.length :=
      lt_of_le_of_ne shorter.length_le fun same => proper (shorter.eq_of_length same)
    simp only [decide_eq_false (not_le.mpr fewer), Bool.and_false]
  · simp only [marked, Bool.false_and]

variable {memory : Nat → UInt8}

@[simp] theorem sticky_decodeString : Sticky (decodeString memory) :=
  (sticky_readUInt 4).bind fun _ => by simp

theorem extends_decodeString : Extends (decodeString memory) :=
  (extends_readUInt 4).bind fun _ => .ite (.pure _)
    ((extends_readArray memory _).bind fun _ => .pure _)

variable (memory) in
/-- What is decoded after a length of which all bytes are there. -/
theorem decodeString_of_length {n : Nat} {body : Bytes} {s : Stream UInt8} (small : n < 2 ^ 32)
    (front : s.left = streamWrite 4 n ++ body) (enough : n ≤ body.length) :
    (decodeString memory s).1 = Utf8.decode (body.take n) ∧ (decodeString memory s).2.ok = s.ok ∧
      (decodeString memory s).2.left = body.drop n := by
  rw [decodeString, bind_apply, readUInt_write small front]
  split
  · have zero : n = 0 := ‹_›
    subst zero
    exact ⟨rfl, rfl, rfl⟩
  · refine ⟨congrArg Utf8.decode (readRawData_of_le enough), ?_, rfl⟩
    exact (congrArg (s.ok && ·) (decide_eq_true enough)).trans (Bool.and_true _)

/-- A text as the other side has it. -/
def received (text : QString) : QString := Utf8.decode (Utf8.encode text)

theorem reads_decodeString {text : QString} (short : (Utf8.encode text).length < 2 ^ 32) :
    Reads (decodeString memory) (encodeString text) (received text) := by
  rw [encodeString, Nat.mod_eq_of_lt short, received]
  refine (reads_readUInt short).bind ?_ (by simp)
  split
  · rename_i zero
    rw [List.length_eq_zero_iff.mp zero]
    exact .pure _
  · exact (reads_readArray memory (Utf8.encode text)).bind_pure Utf8.decode

theorem streamWrite_ne_nil (positive : 0 < w) : streamWrite w n ≠ [] := by
  rw [← List.length_pos_iff, length_streamWrite]
  exact positive

/-- The payload of a message decodes to a value, and no proper prefix of it decodes. -/
def Decodes {α : Type} (decode : Bytes → Option α) (message : Bytes) (value : α) : Prop :=
  decode (message.drop 5) = some value ∧
    ∀ front, front <+: message.drop 5 → front ≠ message.drop 5 → decode front = none

theorem decodes_of_reads {α : Type} {fields : Decoder UInt8 α} {payload : Bytes} {value : α}
    (type : MessageType) (reads : Reads fields payload value) (nonempty : payload ≠ []) :
    Decodes (decodePayload fields) (encodeMessage type payload) value := by
  rw [Decodes, (drop_encodeMessage type payload).2]
  constructor
  · obtain ⟨read, -, fine⟩ := reads.whole (s := start payload) rfl (List.append_nil payload).symm
    rw [decodePayload, if_neg (by rwa [List.isEmpty_iff])]
    simp only [fine, if_true, read]
  · intro front shorter proper
    have marked := reads.cut (s := start front) rfl shorter proper
    rw [decodePayload]
    split
    · rfl
    · simp only [marked, Bool.false_eq_true, if_false]

theorem Decodes.iff_eq {α : Type} {decode : Bytes → Option α} {message : Bytes} {value other : α}
    (decodes : Decodes decode message value) : Decodes decode message other ↔ value = other :=
  ⟨fun again => Option.some.inj (decodes.1.symm.trans again.1), fun same => same ▸ decodes⟩

/-- Valid Unicode, shorter than `2 ^ 31` bytes. -/
def Valid (text : QString) : Prop := Utf8.Paired text = true ∧ (Utf8.encode text).length < 2 ^ 31

/-- The text does not begin with a byte order mark. -/
def Unmarked (text : QString) : Prop := text.head? ≠ some 0xFEFF

theorem Valid.reads {text : QString} (valid : Valid text) :
    Reads (decodeString memory) (encodeString text) (received text) :=
  reads_decodeString (lt_trans valid.2 (by decide))

theorem Valid.received_eq_iff {text : QString} (valid : Valid text) :
    received text = text ↔ Unmarked text :=
  (Utf8.decode_encode_eq_iff text).trans (and_iff_right valid.1)

/-! ## Control messages -/

theorem decodes_authRequest (request : AuthRequest) (username : Valid request.username)
    (password : Valid request.password) (database : Valid request.database) :
    Decodes (decodeAuthRequest memory) (encodeAuthRequest request) request ↔
      Unmarked request.username ∧ Unmarked request.password ∧ Unmarked request.database := by
  have decoded : Decodes (decodeAuthRequest memory) (encodeAuthRequest request)
      ⟨request.protocolVersion, received request.username, received request.password,
        received request.database⟩ := by
    refine decodes_of_reads _ ?_ (List.append_ne_nil_of_left_ne_nil (streamWrite_ne_nil (by decide)) _)
    refine (reads_readUInt request.protocolVersion.toNat_lt).bind ?_
      fun _ => sticky_decodeString.bind (by simp)
    rw [UInt16.ofNat_toNat]
    exact username.reads.bind (password.reads.bind (database.reads.bind_pure _) (by simp)) (by simp)
  rw [decoded.iff_eq, ← username.received_eq_iff, ← password.received_eq_iff, ← database.received_eq_iff]
  simp [AuthRequest.ext_iff]

theorem decodes_authResponse (response : AuthResponse) (message : Valid response.message) :
    Decodes (decodeAuthResponse memory) (encodeAuthResponse response) response ↔
      Unmarked response.message := by
  have decoded : Decodes (decodeAuthResponse memory) (encodeAuthResponse response)
      ⟨response.status, response.sessionId, received response.message⟩ := by
    refine decodes_of_reads _ ?_ (List.append_ne_nil_of_left_ne_nil (streamWrite_ne_nil (by decide)) _)
    refine (reads_readUInt response.status.toNat_lt).bind ?_ (by simp)
    refine (reads_readUInt response.sessionId.toNat_lt).bind ?_ (by simp)
    rw [UInt8.ofNat_toNat, UInt64.ofNat_toNat]
    exact message.reads.bind_pure _
  rw [decoded.iff_eq, ← message.received_eq_iff]
  simp [AuthResponse.ext_iff]

theorem decodes_queryRequest (request : QueryRequest) (sql : Valid request.sql) :
    Decodes (decodeQueryRequest memory) (encodeQueryRequest request) request ↔
      Unmarked request.sql := by
  have decoded : Decodes (decodeQueryRequest memory) (encodeQueryRequest request)
      ⟨request.sessionId, received request.sql⟩ := by
    refine decodes_of_reads _ ?_ (List.append_ne_nil_of_left_ne_nil (streamWrite_ne_nil (by decide)) _)
    refine (reads_readUInt request.sessionId.toNat_lt).bind ?_ (by simp)
    rw [UInt64.ofNat_toNat]
    exact sql.reads.bind_pure _
  rw [decoded.iff_eq, ← sql.received_eq_iff]
  simp [QueryRequest.ext_iff]

theorem decodes_databaseSwitch (message : DatabaseSwitchMessage) (name : Valid message.databaseName) :
    Decodes (decodeDatabaseSwitch memory) (encodeDatabaseSwitch message) message ↔
      Unmarked message.databaseName := by
  have decoded : Decodes (decodeDatabaseSwitch memory) (encodeDatabaseSwitch message)
      ⟨received message.databaseName⟩ := by
    refine decodes_of_reads _ ?_ (List.append_ne_nil_of_left_ne_nil (streamWrite_ne_nil (by decide)) _)
    exact name.reads.bind_pure _
  rw [decoded.iff_eq, ← name.received_eq_iff]
  simp [DatabaseSwitchMessage.ext_iff]

theorem decodes_errorResponse (error : ErrorResponse) (message : Valid error.message)
    (detail : Valid error.detail) :
    Decodes (decodeErrorResponse memory) (encodeErrorResponse error) error ↔
      Unmarked error.message ∧ Unmarked error.detail := by
  have decoded : Decodes (decodeErrorResponse memory) (encodeErrorResponse error)
      ⟨error.errorCode, received error.message, received error.detail⟩ := by
    refine decodes_of_reads _ ?_ (List.append_ne_nil_of_left_ne_nil (streamWrite_ne_nil (by decide)) _)
    refine (reads_readUInt error.errorCode.toNat_lt).bind ?_ (by simp)
    rw [UInt32.ofNat_toNat]
    exact message.reads.bind (detail.reads.bind_pure _) (by simp)
  rw [decoded.iff_eq, ← message.received_eq_iff, ← detail.received_eq_iff]
  simp [ErrorResponse.ext_iff]

/-- A control message is decoded from its payload, and from no proper prefix of it, exactly if none
of its texts begins with a byte order mark. -/
theorem decode_control_messages_iff (memory : Nat → UInt8) :
    (∀ request : AuthRequest, Valid request.username → Valid request.password →
        Valid request.database →
        (Decodes (decodeAuthRequest memory) (encodeAuthRequest request) request ↔
          Unmarked request.username ∧ Unmarked request.password ∧ Unmarked request.database)) ∧
      (∀ response : AuthResponse, Valid response.message →
        (Decodes (decodeAuthResponse memory) (encodeAuthResponse response) response ↔
          Unmarked response.message)) ∧
      (∀ request : QueryRequest, Valid request.sql →
        (Decodes (decodeQueryRequest memory) (encodeQueryRequest request) request ↔
          Unmarked request.sql)) ∧
      (∀ message : DatabaseSwitchMessage, Valid message.databaseName →
        (Decodes (decodeDatabaseSwitch memory) (encodeDatabaseSwitch message) message ↔
          Unmarked message.databaseName)) ∧
      ∀ error : ErrorResponse, Valid error.message → Valid error.detail →
        (Decodes (decodeErrorResponse memory) (encodeErrorResponse error) error ↔
          Unmarked error.message ∧ Unmarked error.detail) :=
  ⟨decodes_authRequest, decodes_authResponse, decodes_queryRequest, decodes_databaseSwitch,
    decodes_errorResponse⟩

/-- The name `db` arrives. -/
theorem decode_control_messages_iff_switch :
    Decodes (decodeDatabaseSwitch fun _ => 0) (encodeDatabaseSwitch ⟨[0x64, 0x62]⟩) ⟨[0x64, 0x62]⟩ :=
  ((decode_control_messages_iff fun _ => 0).2.2.2.1 _ (by unfold Valid; decide)).mpr (by unfold Unmarked; decide)

/-- The mark in front of the name `db` is lost. -/
theorem marked_name_lost : Valid [0xFEFF, 0x64, 0x62] ∧
    ¬ Decodes (decodeDatabaseSwitch fun _ => 0) (encodeDatabaseSwitch ⟨[0xFEFF, 0x64, 0x62]⟩)
      ⟨[0xFEFF, 0x64, 0x62]⟩ := by
  have valid : Valid [0xFEFF, 0x64, 0x62] := by
    unfold Valid
    decide
  exact ⟨valid, fun decodes => (decodes_databaseSwitch _ valid).mp decodes rfl⟩

end QinDB.Network
