/-
# The operations of the client and the messages they build

`Upload`, `Download` and `ListFiles` open a connection, send a request, check
the response and go on from there. They build messages from a header and a
shared pointer to a body, and the constructor asks the body for its size, so a
message without one is never made. `ListFiles` requests with a null pointer, and
`Upload` acknowledges with one.
-/

import Fup.Client.Download
import Fup.Client.Upload

namespace Fup

/-- `FUP_MAX_FILENAME_SIZE`. -/
def maxFilenameSize : ℕ := 255

/-- `util::IsResponseValid`. -/
def isResponseValid (connId : ConnectionId) (response : Message) (expectedKeyword : Keyword) :
    Bool :=
  if response.header.keyword ≠ expectedKeyword ∨ connId ≠ response.header.connectionId ∨
      response.header.bodySize = 0 ∨ response.body = none then false
  else true

namespace Client

/-! ### Messages -/

/-- The arguments of the constructor of a message that is sent. -/
structure Outgoing where
  header : Header
  body : Option Body
  deriving DecidableEq

/-- The message is constructed, measured and serialized with the id of any
connection, and without a body it is a header that announces none. -/
def Outgoing.Encodable (order : ByteOrder) (outgoing : Outgoing) : Prop :=
  ∃ message, Message.ofBody outgoing.header outgoing.body = .ok message ∧
    message.size ≠ .error .nullPointer ∧
      (∀ id, TcpWrapper.frame order id message ≠ .error .nullPointer) ∧
        (outgoing.body = none → message.header.bodySize = 0 ∧
          ∀ id, ∃ buffer, TcpWrapper.frame order id message = .ok buffer ∧
            buffer.cells.length = Header.size)

/-- What an acknowledgement is built from. -/
def acknowledgement (version : Version) (id : ConnectionId) : Outgoing :=
  ⟨⟨version, id, .ack, 0⟩, none⟩

/-- What `RequestResend` builds. -/
def resendRequest (version : Version) (id : ConnectionId) (seqId : SequenceId) : Outgoing :=
  ⟨⟨version, id, .resend, 0⟩, some (.resend ⟨seqId⟩)⟩

theorem serialize_ne_nullPointer (order : ByteOrder) (body : Body) :
    body.serialize order ≠ .error .nullPointer := by
  cases body with
  | files files =>
    rw [Body.serialize, Files.serialize]
    dsimp only
    split_ifs <;> simp
  | _ => simp [Body.serialize]

theorem frame_ne_nullPointer (order : ByteOrder) (id : ConnectionId) (header : Header)
    (body : Body) : TcpWrapper.frame order id ⟨header, some body⟩ ≠ .error .nullPointer := by
  have encodes := serialize_ne_nullPointer order body
  rw [TcpWrapper.frame, Message.serialize, Message.size]
  dsimp only
  rw [ok_bind]
  cases encoded : body.serialize order with
  | ok cells => simp
  | error failure =>
    rw [encoded] at encodes
    exact encodes

/-- A message can be encoded exactly when it has a body. -/
theorem Outgoing.encodable_iff (order : ByteOrder) (outgoing : Outgoing) :
    outgoing.Encodable order ↔ outgoing.body ≠ none := by
  rcases outgoing with ⟨header, _ | body⟩
  · exact iff_of_false (fun ⟨_, impossible, _⟩ => by cases impossible) fun present => present rfl
  · refine iff_of_true ⟨_, rfl, by simp [Message.size], fun id => ?_, by simp⟩ (by simp)
    exact frame_ne_nullPointer order id _ body

/-! ### States -/

/-- The fields of a client and what its host brings along. -/
structure ClientFields where
  order : ByteOrder
  crc32 : List Byte → Checksum
  version : Version
  udpPort : Port

/-- An operation with its arguments. An upload reads the file first. -/
inductive Operation
  | upload (filename file : List Byte)
  | download (filename : List Byte)
  | listFiles
  deriving DecidableEq

/-- The id of a new connection, which is not initialized, and the port of the
UDP socket of a download. -/
structure Opened where
  id : ConnectionId
  port : Port

/-- The next block of an operation on `n` workers. -/
inductive OperationPc (n : ℕ)
  | opening
  | requesting (opened : Opened)
  /-- In `SendAndReceive`. -/
  | sending (opened : Opened) (request : Message)
  | checking (id : ConnectionId) (response : Message)
  | uploading (sender : Sender) (file : List Byte) (packetCount : ℕ) (s : Uploading n)
  | downloading (receiver : Receiver) (s : Downloading n)
  | ended (failure : Option Failure)

/-- An operation and the messages it has built for the connection, the latest
first. -/
structure Operating (n : ℕ) where
  pc : OperationPc n
  built : List Outgoing

/-- What the next block learns from outside, and the blocks of the transfers. -/
inductive OperationMove (n : ℕ)
  | opened (errno : String) (outcome : Except String Opened)
  | request (errno : String)
  | answered (outcome : Except String Message)
  | checked (errno : String) (fault : Option String) (working : UInt64)
  | upload (move : UploadMove n)
  | download (move : DownloadMove n)

namespace Operation

/-- The keyword of a response that grants the operation. -/
def expectedKeyword : Operation → Keyword
  | .upload _ _ => .download
  | .download _ => .upload
  | .listFiles => .files

/-- What the request is built from. -/
def request (client : ClientFields) (operation : Operation) (opened : Opened) (errno : String) :
    Except Failure Outgoing :=
  match operation with
  | .upload filename file => do
    let fileSize : FileSize := UInt64.ofNat file.length
    let packetCount ← calculateTotalPacketCount fileSize
    if packetCount = 0 then .error (.exception ("file size is zero. error: " ++ errno ++ "\n"))
    else return {
      header := ⟨client.version, opened.id, .upload, 0⟩
      body := some (.upload
        ⟨client.udpPort, fileSize, packetCount, some (UInt16.ofNat filename.length), filename⟩) }
  | .download filename => .ok {
      header := ⟨client.version, opened.id, .download, 0⟩
      body := some (.download ⟨opened.port, some (UInt16.ofNat filename.length), filename⟩) }
  | .listFiles => .ok ⟨⟨client.version, opened.id, .listFiles, 0⟩, none⟩

/-- What is thrown for an ABORT. -/
def refused (operation : Operation) (errno : String) : Failure :=
  match operation with
  | .upload _ _ => .exception ("server not accepting upload request. error: " ++ errno ++ "\n")
  -- `ListFiles` has the text of `Download`.
  | _ => .exception ("server not accepting download request. error: " ++ errno ++ "\n")

/-- What the operation does with a valid response. The download reads the packet
count of an `Upload`. -/
def proceed {n : ℕ} (client : ClientFields) (operation : Operation) (id : ConnectionId)
    (response : Message) (fault : Option String) (working : UInt64) : OperationPc n :=
  match operation, response.body, fault with
  | .upload _ _, none, _ =>
    .ended (some (.exception "Failed to cast response body to fup::Download"))
  | .upload _ file, some _, none =>
    match calculateTotalPacketCount (UInt64.ofNat file.length) with
    | .ok packetCount =>
      .uploading ⟨client.order, client.crc32, client.version, id⟩ file packetCount.toNat
        (.start file packetCount.toNat working)
    | .error failure => .ended (some failure)
  | .download _, none, _ =>
    .ended (some (.exception "Failed to cast response body to fup::Upload"))
  | .download _, some (.upload announced), none =>
    let receiver : Receiver := ⟨client.order, client.crc32, id, announced.packetCount⟩
    .downloading receiver (.start receiver working)
  | .download _, some _, none => .ended (some .outOfBounds)
  | .listFiles, none, _ =>
    .ended (some (.exception "Failed to cast response body to fup::Files"))
  | .listFiles, some _, none => .ended none
  | _, some _, some what => .ended (some (.exception what))

/-- The check on the length of the name, where there is one. -/
def LengthChecked : Operation → Prop
  | .upload filename _ => filename.length ≤ maxFilenameSize
  | .download _ => True
  | .listFiles => True

/-- A request that an operation can make. -/
def Requests (client : ClientFields) (operation : Operation) (opened : Opened)
    (request : Message) : Prop :=
  ∃ errno outgoing, operation.request client opened errno = .ok outgoing ∧
    Message.ofBody outgoing.header outgoing.body = .ok request

end Operation

namespace Operating

variable {n : ℕ}

/-! ### Steps -/

/-- The next block. -/
def next (client : ClientFields) (operation : Operation) (pc : OperationPc n)
    (move : OperationMove n) : Option (OperationPc n) :=
  match pc, move with
  | .opening, .opened errno outcome =>
    match operation, outcome with
    | .upload filename _, outcome =>
      if maxFilenameSize < filename.length then
        some (.ended (some (.exception ("filename is too long. error: " ++ errno ++ "\n"))))
      else match outcome with
        | .ok opened => some (.requesting opened)
        | .error what => some (.ended (some (.exception what)))
    | _, .ok opened => some (.requesting opened)
    | _, .error what => some (.ended (some (.exception what)))
  | .requesting opened, .request errno =>
    match operation.request client opened errno with
    | .error failure => some (.ended (some failure))
    | .ok outgoing =>
      match Message.ofBody outgoing.header outgoing.body with
      | .ok request => some (.sending opened request)
      | .error failure => some (.ended (some failure))
  | .sending opened request, .answered outcome =>
    match TcpWrapper.frame client.order opened.id request, outcome with
    | .error failure, _ => some (.ended (some failure))
    | .ok _, .error what =>
      some (.ended (some (.exception ("TcpWrapper::SendAndReceive: An error occured: " ++ what))))
    -- The first message gives a connection without an id its id.
    | .ok _, .ok response =>
      some (.checking (if opened.id = 0 then response.header.connectionId else opened.id) response)
  | .checking id response, .checked errno fault working =>
    if isResponseValid id response operation.expectedKeyword then
      some (operation.proceed client id response fault working)
    else if response.header.keyword = .abort then some (.ended (some (operation.refused errno)))
    else some (.ended (some (.exception
      ("unexpected response from server. error: " ++ errno ++ "\n"))))
  | .uploading sender file packetCount s, .upload move =>
    ((Uploading.system sender file packetCount).step s move).map
      (.uploading sender file packetCount)
  | .downloading receiver s, .download move =>
    ((Downloading.system receiver client.version).step s move).map (.downloading receiver)
  | _, _ => none

/-- The messages that the next block builds for the connection. -/
def builds (client : ClientFields) (operation : Operation) (pc : OperationPc n)
    (move : OperationMove n) : List Outgoing :=
  match pc, move with
  | .requesting opened, .request errno =>
    match operation.request client opened errno with
    | .ok outgoing => [outgoing]
    | .error _ => []
  | .uploading sender _ _ s, .upload .upload =>
    if s.pc = .acknowledge then [acknowledgement sender.version sender.connectionId] else []
  | .downloading _ s, .download .download =>
    if s.pc = .acknowledge then [acknowledgement client.version s.connectionId] else []
  | .downloading _ s, .download (.task _ .internal) =>
    match s.task with
    | .requesting seqId => [resendRequest client.version s.connectionId seqId]
    | _ => []
  | _, _ => []

def start : Operating n := ⟨.opening, []⟩

/-- All runs of an operation. -/
def system (client : ClientFields) (operation : Operation) :
    StepSystem (Operating n) (OperationMove n) where
  init s := s = start
  step s move :=
    (next client operation s.pc move).map fun pc =>
      ⟨pc, builds client operation s.pc move ++ s.built⟩

/-! ### What is built -/

/-- Every message built so far can be encoded. -/
def AllEncodable (order : ByteOrder) (s : Operating n) : Prop :=
  ∀ outgoing ∈ s.built, outgoing.Encodable order

/-- The block is neither the ACK at the end of an upload nor the request for the
list of files. -/
def Bodied (operation : Operation) (s : Operating n) (move : OperationMove n) : Prop :=
  match operation with
  | .upload _ _ => ∀ sender file packetCount u, s.pc = .uploading sender file packetCount u →
      move = .upload .upload → u.pc ≠ .acknowledge
  | .download _ => True
  | .listFiles => ∀ opened errno, s.pc = .requesting opened → move ≠ .request errno

/-- The transfer belongs to the operation, and a download is in its loop or on
the way out after an exception. -/
def Fits (operation : Operation) : OperationPc n → Prop
  | .uploading _ _ _ _ => ∃ filename file, operation = .upload filename file
  | .downloading _ s => (∃ filename, operation = .download filename) ∧ Downloading.InLoop s
  | _ => True

/-- What a block can lead to. Every block can fail. -/
inductive Leads (client : ClientFields) (operation : Operation) :
    OperationPc n → OperationMove n → OperationPc n → Prop
  | fails {pc : OperationPc n} {move : OperationMove n} (failure : Failure) :
      Leads client operation pc move (.ended (some failure))
  | opens {errno : String} {opened : Opened} (checked : operation.LengthChecked) :
      Leads client operation .opening (.opened errno (.ok opened)) (.requesting opened)
  | requests {errno : String} {opened : Opened} {request : Message}
      (requests : operation.Requests client opened request) :
      Leads client operation (.requesting opened) (.request errno) (.sending opened request)
  | answers {opened : Opened} {request response : Message} (id : ConnectionId) :
      Leads client operation (.sending opened request) (.answered (.ok response))
        (.checking id response)
  | proceeds {id : ConnectionId} {response : Message} {errno : String} {fault : Option String}
      {working : UInt64} :
      Leads client operation (.checking id response) (.checked errno fault working)
        (operation.proceed client id response fault working)
  | uploads {sender : Sender} {file : List Byte} {packetCount : ℕ} {s t : Uploading n}
      {move : UploadMove n}
      (moved : (Uploading.system sender file packetCount).step s move = some t) :
      Leads client operation (.uploading sender file packetCount s) (.upload move)
        (.uploading sender file packetCount t)
  | downloads {receiver : Receiver} {s t : Downloading n} {move : DownloadMove n}
      (moved : (Downloading.system receiver client.version).step s move = some t) :
      Leads client operation (.downloading receiver s) (.download move)
        (.downloading receiver t)

section Steps

variable {client : ClientFields} {operation : Operation} {pc pc' : OperationPc n}
  {move : OperationMove n}

theorem leads_of_opened {errno : String} {outcome : Except String Opened}
    (moved : next client operation .opening (.opened errno outcome) = some pc') :
    Leads client operation .opening (.opened errno outcome) pc' := by
  unfold next at moved
  cases operation with
  | upload filename file =>
    -- Only an upload checks the length of the name.
    dsimp only at moved
    split_ifs at moved with long
    · cases moved
      exact .fails _
    · cases outcome with
      | ok opened =>
        cases moved
        exact .opens (Nat.le_of_not_lt long)
      | error what =>
        cases moved
        exact .fails _
  | download | listFiles =>
    cases outcome with
    | ok opened =>
      cases moved
      exact .opens trivial
    | error what =>
      cases moved
      exact .fails _

/-- A request may be refused, and a message may have no size. -/
theorem leads_of_request {opened : Opened} {errno : String}
    (moved : next client operation (.requesting opened) (.request errno) = some pc') :
    Leads client operation (.requesting opened) (.request errno) pc' := by
  unfold next at moved
  cases requested : operation.request client opened errno with
  | error failure =>
    simp only [requested] at moved
    cases moved
    exact .fails _
  | ok outgoing =>
    simp only [requested] at moved
    cases made : Message.ofBody outgoing.header outgoing.body with
    | error failure =>
      rw [made] at moved
      cases moved
      exact .fails _
    | ok request =>
      rw [made] at moved
      cases moved
      exact .requests ⟨errno, outgoing, requested, made⟩

theorem leads_of_next (moved : next client operation pc move = some pc') :
    Leads client operation pc move pc' := by
  unfold next at moved
  split at moved
  case h_1 errno outcome => exact leads_of_opened moved
  case h_2 opened errno => exact leads_of_request moved
  case h_3 opened request outcome =>
    split at moved
    · cases moved
      exact .fails _
    · cases moved
      exact .fails _
    · cases moved
      exact .answers _
  case h_4 id response errno fault working =>
    split_ifs at moved
    · cases moved
      exact .proceeds
    · cases moved
      exact .fails _
    · cases moved
      exact .fails _
  case h_5 sender file packetCount s step =>
    obtain ⟨t, stepped, rfl⟩ := Option.map_eq_some_iff.mp moved
    exact .uploads stepped
  case h_6 receiver s step =>
    obtain ⟨t, stepped, rfl⟩ := Option.map_eq_some_iff.mp moved
    exact .downloads stepped
  case h_7 => cases moved

theorem fits_proceed (id : ConnectionId) (response : Message) (fault : Option String)
    (working : UInt64) :
    Fits operation (operation.proceed client id response fault working : OperationPc n) := by
  unfold Operation.proceed
  split
  case h_2 filename file _ _ =>
    split
    · exact ⟨filename, file, rfl⟩
    · trivial
  case h_4 filename announced _ => exact ⟨⟨filename, rfl⟩, Downloading.inLoop_start _ working⟩
  all_goals trivial

theorem Fits.next (fits : Fits operation pc) (moved : next client operation pc move = some pc') :
    Fits operation pc' := by
  cases leads_of_next moved with
  | proceeds => exact fits_proceed _ _ _ _
  | uploads => exact fits
  | downloads stepped => exact ⟨fits.1, fits.2.step stepped⟩
  | fails | opens | requests | answers => trivial

/-- A request has a body unless it is for the list of files. -/
theorem body_of_request {opened : Opened} {errno : String} {outgoing : Outgoing}
    (requested : operation.request client opened errno = .ok outgoing) :
    outgoing.body ≠ none ↔ operation ≠ .listFiles := by
  cases operation with
  | upload filename file =>
    rw [Operation.request] at requested
    cases counted : calculateTotalPacketCount (UInt64.ofNat file.length) with
    | error failure =>
      rw [counted] at requested
      cases requested
    | ok packetCount =>
      rw [counted, ok_bind] at requested
      split_ifs at requested
      cases requested
      simp
  | download filename =>
    cases requested
    simp
  | listFiles =>
    cases requested
    simp

/-- What a block builds has a body exactly when the block is bodied. -/
theorem body_of_builds_iff {built : List Outgoing} (fits : Fits operation pc) :
    (∀ outgoing ∈ builds client operation pc move, outgoing.body ≠ none) ↔
      Bodied operation ⟨pc, built⟩ move := by
  unfold builds
  split
  case h_1 opened errno =>
    -- The request for the list of files is the one without a body.
    have bodied : Bodied operation (⟨.requesting opened, built⟩ : Operating n) (.request errno) ↔
        operation ≠ .listFiles := by
      cases operation with
      | upload filename file =>
        exact iff_of_true (fun _ _ _ _ located => by cases located) (by simp)
      | download filename => exact iff_of_true trivial (by simp)
      | listFiles => exact iff_of_false (fun guard => guard opened errno rfl rfl) (by simp)
    rw [bodied]
    split
    case h_1 outgoing requested => rw [List.forall_mem_singleton, body_of_request requested]
    case h_2 failure refused =>
      refine iff_of_true (by simp) ?_
      rintro rfl
      cases refused
  case h_2 sender file packetCount s =>
    -- Of an upload only the last block builds a message, the ACK, which has no body.
    obtain ⟨filename, source, rfl⟩ := fits
    split_ifs with last
    · refine iff_of_false (by simp [acknowledgement]) fun guard => ?_
      exact guard sender file packetCount s rfl rfl last
    · refine iff_of_true (by simp) fun _ _ _ _ located _ => ?_
      cases located
      exact last
  case h_3 receiver s =>
    obtain ⟨⟨filename, rfl⟩, inLoop⟩ := fits
    -- A download never gets to its own acknowledgement.
    have ahead : s.pc ≠ .acknowledge := fun last => inLoop.ahead (by rw [last]; rfl)
    rw [if_neg ahead]
    exact iff_of_true (by simp) trivial
  case h_4 receiver s w =>
    obtain ⟨⟨filename, rfl⟩, inLoop⟩ := fits
    refine iff_of_true ?_ trivial
    split <;> simp [resendRequest]
  case h_5 notRequest notUpload notDownload notResend =>
    refine iff_of_true (by simp) ?_
    cases operation with
    | upload filename file =>
      intro sender file packetCount u located same
      exact absurd same (notUpload sender file packetCount u located)
    | download filename => trivial
    | listFiles => exact fun opened errno located same => notRequest opened errno located same

/-- The transfer fits the operation, and what it has built can be encoded. -/
structure Clean (order : ByteOrder) (operation : Operation) (s : Operating n) : Prop where
  fits : Fits operation s.pc
  allEncodable : AllEncodable order s

theorem clean_start (order : ByteOrder) (operation : Operation) :
    Clean order operation (start : Operating n) :=
  ⟨trivial, by simp [AllEncodable, start]⟩

/-- A step keeps everything encodable exactly when it is bodied. -/
theorem Clean.step_iff {s t : Operating n} (clean : Clean client.order operation s)
    (moved : (system client operation).step s move = some t) :
    Fits operation t.pc ∧ (AllEncodable client.order t ↔ Bodied operation s move) := by
  obtain ⟨pc, next, rfl⟩ := Option.map_eq_some_iff.mp moved
  refine ⟨clean.fits.next next, ?_⟩
  have bodied : (∀ outgoing ∈ builds client operation s.pc move, outgoing.body ≠ none) ↔
      Bodied operation s move := body_of_builds_iff clean.fits
  simp only [← Outgoing.encodable_iff client.order] at bodied
  rw [AllEncodable, List.forall_mem_append, bodied]
  exact and_iff_left clean.allEncodable

end Steps

/-- In a run of an operation all messages can be encoded exactly when no block
acknowledges an upload or requests the list of files. -/
theorem throughout_allEncodable_iff {client : ClientFields} {operation : Operation}
    {moves : List (OperationMove n)} {t : Operating n}
    (run : (system client operation).exec start moves = some t) :
    (system client operation).Throughout (AllEncodable client.order) start moves ↔
      (system client operation).Within (Bodied operation) start moves := by
  refine StepSystem.throughout_iff_within (clean_start client.order operation) ?_
    (fun _ clean => clean.allEncodable) ?_ run
  · intro s move u clean bodied moved
    obtain ⟨fits, extended⟩ := clean.step_iff moved
    exact ⟨fits, extended.mpr bodied⟩
  · intro s move u clean bare moved encodable
    exact bare ((clean.step_iff moved).2.mp encodable)

/-- A client on a little-endian host. -/
def littleClient : ClientFields := ⟨.little, fun _ => 0, 1, 12421⟩

/-- The server agrees to an upload of one byte on one worker, and the listener is
enqueued. -/
def agreedRun : List (OperationMove 1) :=
  [.opened "" (.ok ⟨7, 0⟩), .request "",
    .answered (.ok ⟨⟨1, 7, .download, 5⟩, some (.download ⟨50000, some 1, [97]⟩)⟩),
    .checked "" none 0, .upload .upload]

theorem isSome_agreedRun :
    ((system littleClient (.upload [97] [1])).exec start agreedRun).isSome := by decide +kernel

/-- The theorem for this upload. -/
theorem throughout_allEncodable_agreed :
    (system littleClient (.upload [97] [1])).Throughout (AllEncodable .little) start agreedRun ↔
      (system littleClient (.upload [97] [1])).Within (Bodied (.upload [97] [1])) start
        agreedRun :=
  throughout_allEncodable_iff (Option.some_get isSome_agreedRun).symm

/-- The request of `ListFiles` can not be made. -/
theorem not_allEncodable_listFiles :
    ¬ (system littleClient .listFiles : StepSystem (Operating 1) (OperationMove 1)).Throughout
      (AllEncodable .little) start [.opened "" (.ok ⟨7, 0⟩), .request ""] := by
  intro throughout
  have encodable := throughout _ List.prefix_rfl _ rfl _ (List.mem_singleton_self _)
  exact (Outgoing.encodable_iff .little _).mp encodable rfl

end Operating

end Client

end Fup
