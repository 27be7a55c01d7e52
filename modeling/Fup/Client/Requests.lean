/-
# The file that a request names

`Upload` checks that the name is not too long before it connects, `Download`
checks nothing, and neither asks whether there is a name at all. The length
field of a request counts to 65535 and the decoders take no empty name. So the
peer finds the caller's file in the request exactly when the name fits its
length field, or when an upload without a name has nothing to send.
-/

import Fup.Client.Operations
import Fup.Message.Language

namespace Fup.Client

/-! ### Names -/

namespace Operation

/-- The decoder of the operation's request accepts the bytes and finds the name
that the caller gave. The request for the list of files has none. -/
def NamedIn (order : ByteOrder) (operation : Operation) (body : List Byte) : Prop :=
  match operation with
  | .upload filename _ =>
    ∃ upload, Upload.ofData order body = .ok upload ∧ upload.filename = filename
  | .download filename =>
    ∃ download, Download.ofData order body = .ok download ∧ download.filename = filename
  | .listFiles => True

/-- A file without packets: it is empty, or so long that its count comes out as
zero. -/
def NothingToSend (file : List Byte) : Prop :=
  (file.length + 1174) % 2 ^ 64 / 1175 % 2 ^ 32 = 0

/-- An upload has a name or nothing to send, and the name of a download fits its
length field. -/
def Nameable : Operation → Prop
  | .upload filename file => filename = [] → NothingToSend file
  | .download filename => NameFits filename
  | .listFiles => True

/-- The packet count of a file without packets is zero. -/
theorem nothingToSend_iff {file : List Byte} {packetCount : PacketCount}
    (counted : calculateTotalPacketCount (UInt64.ofNat file.length) = .ok packetCount) :
    NothingToSend file ↔ packetCount = 0 := by
  have count := toNat_calculateTotalPacketCount counted
  rw [UInt64.toNat_ofNat', Nat.mod_add_mod] at count
  rw [NothingToSend, ← count, ← UInt32.toNat_inj]
  rfl

/-- A file with packets is counted. -/
theorem counted_of_something {file : List Byte} (something : ¬ NothingToSend file) :
    ∃ packetCount, calculateTotalPacketCount (UInt64.ofNat file.length) = .ok packetCount := by
  have nonzero : UInt64.ofNat file.length ≠ 0 := by
    intro zero
    have empty : file.length % 2 ^ 64 = 0 := by
      rw [← UInt64.toNat_ofNat', zero]
      rfl
    apply something
    rw [NothingToSend, ← Nat.mod_add_mod, empty]
    decide
  exact ⟨_, if_neg nonzero⟩

end Operation

/-- A frame carries the bytes of the body behind the header. -/
theorem body_of_frame {order : ByteOrder} {id : ConnectionId} {header : Header} {body : Body}
    {bytes : List Byte} {frame : Buffer Byte} (encoded : body.serialize order = .ok ⟨bytes, true⟩)
    (sized : bytes.length = body.size.toNat) (small : bytes.length < 2 ^ 63)
    (framed : TcpWrapper.frame order id ⟨header, some body⟩ = .ok frame) :
    frame.inBounds = true ∧ frame.cells.drop Header.size = bytes := by
  obtain ⟨cells, whole, -, behind⟩ :=
    TcpWrapper.exists_frame_of_body order id header encoded sized small
  obtain rfl := Except.ok.inj (framed.symm.trans whole)
  exact ⟨rfl, behind⟩

/-- A peer of any kind decodes the body of a framed UPLOAD whose name fits. -/
theorem upload_of_frame {order : ByteOrder} {id : ConnectionId} {header : Header}
    {upload : Upload} {frame : Buffer Byte} (fits : NameFits upload.filename)
    (framed : TcpWrapper.frame order id ⟨header, some (.upload upload)⟩ = .ok frame) :
    frame.inBounds = true ∧ ∀ peer, Upload.ofData peer (frame.cells.drop Header.size) =
      .ok { upload with filenameSize := none } := by
  have encoded : Body.serialize order (.upload upload) = .ok ⟨upload.wire, true⟩ :=
    congrArg Except.ok (Upload.serialize_eq order upload fits.short)
  obtain ⟨sized, small⟩ := Upload.sized_wire fits
  obtain ⟨inside, found⟩ := body_of_frame encoded sized small framed
  refine ⟨inside, fun peer => ?_⟩
  have read := Upload.ofData_wire peer fits []
  rwa [List.append_nil, ← found] at read

/-- A peer of any kind decodes the body of a framed DOWNLOAD whose name fits. -/
theorem download_of_frame {order : ByteOrder} {id : ConnectionId} {header : Header}
    {download : Download} {frame : Buffer Byte} (fits : NameFits download.filename)
    (framed : TcpWrapper.frame order id ⟨header, some (.download download)⟩ = .ok frame) :
    frame.inBounds = true ∧ ∀ peer, Download.ofData peer (frame.cells.drop Header.size) =
      .ok { download with filenameSize := none } := by
  have encoded : Body.serialize order (.download download) = .ok ⟨download.wire, true⟩ :=
    congrArg Except.ok (Download.serialize_eq order download fits.short)
  obtain ⟨sized, small⟩ := Download.sized_wire fits
  obtain ⟨inside, found⟩ := body_of_frame encoded sized small framed
  refine ⟨inside, fun peer => ?_⟩
  have read := Download.ofData_wire peer fits []
  rwa [List.append_nil, ← found] at read

/-- A message whose body can be encoded makes a frame. -/
theorem exists_frame (order : ByteOrder) (id : ConnectionId) (header : Header) (body : Body)
    {buf : Buffer Byte} (encoded : body.serialize order = .ok buf) :
    ∃ frame, TcpWrapper.frame order id ⟨header, some body⟩ = .ok frame := by
  rw [TcpWrapper.frame, Message.serialize, Message.size]
  dsimp only
  rw [ok_bind, encoded]
  exact ⟨_, rfl⟩

namespace Operating

/-- A request about to be sent is encoded inside its buffer, and a peer of any
kind finds in its body the name that the caller gave. A request that can not be
encoded makes the operation fail instead. -/
def RequestNamed {n : ℕ} (client : ClientFields) (operation : Operation) (s : Operating n) :
    Prop :=
  ∀ opened request frame, s.pc = .sending opened request →
    TcpWrapper.frame client.order opened.id request = .ok frame →
      frame.inBounds = true ∧ ∀ peer, operation.NamedIn peer (frame.cells.drop Header.size)

section Requests

variable {n : ℕ} {client : ClientFields} {operation : Operation}

/-! ### Requests that are made -/

/-- What is known before the request is made and while it is sent. -/
def Prepared (client : ClientFields) (operation : Operation) : OperationPc n → Prop
  | .requesting _ => operation.LengthChecked
  | .sending opened request => operation.LengthChecked ∧ operation.Requests client opened request
  | _ => True

theorem prepared_proceed (id : ConnectionId) (response : Message) (fault : Option String)
    (working : UInt64) :
    Prepared client operation
      (operation.proceed client id response fault working : OperationPc n) := by
  unfold Operation.proceed
  split
  case h_2 => split <;> trivial
  all_goals trivial

/-- Only the first two blocks lead to a request. -/
theorem Prepared.next {pc pc' : OperationPc n} {move : OperationMove n}
    (prepared : Prepared client operation pc)
    (moved : Operating.next client operation pc move = some pc') :
    Prepared client operation pc' := by
  cases leads_of_next moved with
  | opens checked => exact checked
  | requests requests => exact ⟨prepared, requests⟩
  | proceeds => exact prepared_proceed _ _ _ _
  | fails | answers | uploads | downloads => trivial

theorem prepared_of_reachable {s : Operating n}
    (reached : (system client operation).Reachable s) : Prepared client operation s.pc := by
  refine @StepSystem.Reachable.invariant _ _ _ (fun t => Prepared client operation t.pc) s
    reached ?_ ?_
  · rintro _ rfl
    trivial
  · intro t move u prepared moved
    obtain ⟨pc, next, rfl⟩ := Option.map_eq_some_iff.mp moved
    exact prepared.next next

/-! ### Requests that are found -/

/-- The requests of a nameable operation that has passed its checks are found. -/
theorem namedIn_of_requests {opened : Opened} {request : Message} {frame : Buffer Byte}
    (nameable : operation.Nameable) (checked : operation.LengthChecked)
    (requests : operation.Requests client opened request)
    (framed : TcpWrapper.frame client.order opened.id request = .ok frame) :
    frame.inBounds = true ∧ ∀ peer, operation.NamedIn peer (frame.cells.drop Header.size) := by
  obtain ⟨errno, outgoing, requested, made⟩ := requests
  cases operation with
  | upload filename file =>
    rw [Operation.request] at requested
    cases counted : calculateTotalPacketCount (UInt64.ofNat file.length) with
    | error failure =>
      rw [counted] at requested
      cases requested
    | ok packetCount =>
      rw [counted, ok_bind] at requested
      split_ifs at requested with nothing
      cases requested
      cases made
      -- There are packets to send, so there is a name.
      have nonempty : filename ≠ [] := fun empty =>
        nothing ((Operation.nothingToSend_iff counted).mp (nameable empty))
      have fits : NameFits filename :=
        ⟨List.length_pos_iff.mpr nonempty, (checked : filename.length ≤ 255).trans (by decide)⟩
      obtain ⟨inside, found⟩ := upload_of_frame fits framed
      exact ⟨inside, fun peer => ⟨_, found peer, rfl⟩⟩
  | download filename =>
    cases requested
    cases made
    have fits : NameFits filename := nameable
    obtain ⟨inside, found⟩ := download_of_frame fits framed
    exact ⟨inside, fun peer => ⟨_, found peer, rfl⟩⟩
  | listFiles =>
    cases requested
    cases made

/-- Every request that passes the check on the name is about to be sent in some
run. -/
theorem reachable_sending {opened : Opened} {request : Message}
    (checked : operation.LengthChecked) (requests : operation.Requests client opened request) :
    ∃ s : Operating n, (system client operation).Reachable s ∧ s.pc = .sending opened request := by
  obtain ⟨errno, outgoing, requested, made⟩ := requests
  have opening : next client operation (.opening : OperationPc n) (.opened errno (.ok opened)) =
      some (.requesting opened) := by
    cases operation with
    | upload filename file => exact if_neg (Nat.not_lt.mpr checked)
    | download filename => rfl
    | listFiles => rfl
  have requesting : next client operation (.requesting opened : OperationPc n) (.request errno) =
      some (.sending opened request) := by
    simp only [next, requested, made]
  set first : Operating n := ⟨.requesting opened, []⟩ with firstIs
  have opens : (system client operation).step start (.opened errno (.ok opened)) = some first := by
    exact congrArg (Option.map _) opening
  -- The body is built by the step that makes the request.
  have requestsNow : (system client operation).step first (.request errno) =
      some ⟨.sending opened request, builds client operation first.pc (.request errno) ++ []⟩ :=
    congrArg (Option.map _) requesting
  have initial : (system client operation).Reachable (start : Operating n) :=
    ⟨start, [], rfl, rfl⟩
  exact ⟨_, (initial.step opens).step requestsNow, rfl⟩

/-- When every request is found, the operation is nameable. -/
theorem nameable_of_requestNamed
    (named : ∀ s : Operating n, (system client operation).Reachable s →
      RequestNamed client operation s) : operation.Nameable := by
  cases operation with
  | upload filename file =>
    rintro rfl
    by_contra something
    obtain ⟨packetCount, counted⟩ := Operation.counted_of_something something
    have counts : packetCount ≠ 0 := fun zero =>
      something ((Operation.nothingToSend_iff counted).mpr zero)
    -- An upload without a name, whose peer refuses to decode it.
    set upload : Upload := ⟨client.udpPort, UInt64.ofNat file.length, packetCount,
      UInt16.ofNat 0, []⟩ with uploadIs
    have requests : Operation.Requests client (.upload [] file) ⟨0, 0⟩
        ⟨⟨client.version, 0, .upload, upload.size⟩, some (.upload upload)⟩ := by
      refine ⟨"", ⟨⟨client.version, 0, .upload, 0⟩, some (.upload upload)⟩, ?_, rfl⟩
      rw [Operation.request, counted, ok_bind, if_neg counts]
      rfl
    -- In some run the request is about to be sent, so the peer finds the name.
    obtain ⟨s, reached, sending⟩ := reachable_sending (n := n) (Nat.zero_le _) requests
    obtain ⟨frame, framed⟩ := exists_frame client.order 0 ⟨client.version, 0, .upload, upload.size⟩
      (.upload upload) rfl
    obtain ⟨upload, decoded, same⟩ := (named s reached _ _ frame sending framed).2 .little
    have fits := (Upload.wire_of_ofData decoded).1
    rw [same] at fits
    exact absurd fits.1 (by decide)
  | download filename =>
    set download : Download := ⟨0, UInt16.ofNat filename.length, filename⟩ with downloadIs
    have requests : Operation.Requests client (.download filename) ⟨0, 0⟩
        ⟨⟨client.version, 0, .download, download.size⟩, some (.download download)⟩ :=
      ⟨"", _, rfl, rfl⟩
    have checked : Operation.LengthChecked (.download filename) := trivial
    obtain ⟨s, reached, sending⟩ := reachable_sending (n := n) checked requests
    obtain ⟨frame, framed⟩ := exists_frame client.order 0
      ⟨client.version, 0, .download, download.size⟩ (.download download) rfl
    obtain ⟨download, decoded, rfl⟩ := (named s reached _ _ frame sending framed).2 .little
    exact (Download.wire_of_ofData decoded).1
  | listFiles => trivial

/-- In every run the peer finds the caller's file in the request exactly when the
name fits, or when an upload without a name has nothing to send. -/
theorem requestNamed_iff (client : ClientFields) (operation : Operation) :
    (∀ s : Operating n, (system client operation).Reachable s →
      RequestNamed client operation s) ↔ operation.Nameable := by
  constructor
  · exact nameable_of_requestNamed
  · intro nameable s reached opened request frame sending framed
    have prepared := prepared_of_reachable reached
    rw [sending] at prepared
    exact namedIn_of_requests nameable prepared.1 prepared.2 framed

end Requests

/-- A connection with the id 7 is made for a download, and its request. -/
def requestRun : List (OperationMove 1) := [.opened "" (.ok ⟨7, 50000⟩), .request ""]

/-- The request for a file without a name is sent, and the decoder rejects it. -/
theorem not_requestNamed_noName :
    ¬ ∀ s : Operating 1, (system littleClient (.download [])).Reachable s →
      RequestNamed littleClient (.download []) s := by
  intro named
  set download : Download := ⟨50000, some 0, []⟩ with downloadIs
  set request : Message := ⟨⟨1, 7, .download, 4⟩, some (.download download)⟩ with requestIs
  have run : (system littleClient (.download [])).exec start requestRun =
      some ⟨.sending ⟨7, 50000⟩ request, [⟨⟨1, 7, .download, 0⟩, some (.download download)⟩]⟩ :=
    rfl
  have framed : TcpWrapper.frame .little 7 request =
      .ok ⟨[0, 1, 0, 0, 0, 7, 2, 0, 0, 0, 4, 0, 0, 0, 0, 195, 80, 0, 0], true⟩ := by decide
  obtain ⟨-, found⟩ := named _ ⟨start, requestRun, rfl, run⟩ _ _ _ rfl framed
  obtain ⟨decoded, accepted, -⟩ := found .little
  have rejected : Download.ofData .little [195, 80, 0, 0] =
      .error (.exception "fup::Download: Insufficient data") := by decide
  cases rejected.symm.trans accepted

end Operating

end Fup.Client
