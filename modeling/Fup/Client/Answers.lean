/-
# The answers that operations get

`Upload` and `Download` go on to their transfer when the answer to their request is a
DOWNLOAD or an UPLOAD, and `ListFiles` when it is a list of files. An answer comes in
over the connection of the request, so it is what `Receive` makes of a frame. Of a
DOWNLOAD or an UPLOAD it makes nothing but a failure, and the request of `ListFiles`
is never sent. So no operation succeeds, whatever its peer answers.
-/

import Fup.Client.Operations
import Fup.TcpLink.Garbled

namespace Fup.Client

open TcpWrapper (Announced Receiving frames mem_frames_iff prefixFree_frames)

/-- What a peer, on a host of any kind, sends in reply: the frame of a message that
is spoken, or of a list of files or a packet of whatever contents. -/
structure Reply where
  peer : ByteOrder
  id : ConnectionId
  message : Message
  body : Body
  carried : message.body = some body
  announces : body.size = message.header.bodySize
  said : Spoken message.header.keyword body ∨ message.header.keyword = .files ∨
    message.header.keyword = .packet
  buffer : Buffer Byte
  framed : TcpWrapper.frame peer id message = .ok buffer

/-- The message is what `Receive` returns on the bytes that it takes for a frame, at the
front of a reply. -/
def AnsweredBy (order : ByteOrder) (response : Message) : Prop :=
  ∃ (reply : Reply) (bytes : List Byte), bytes ∈ frames order ∧
    bytes <+: reply.buffer.cells ∧
      (Receiving.after order bytes).result order = some (.ok response)

namespace Reply

variable {order : ByteOrder} (reply : Reply) {bytes : List Byte} {response : Message}

/-- The header that the vector begins with. -/
def header : Header := { reply.message.header with connectionId := reply.id }

/-- All of the header arrives but a body size, which is lost between hosts of two kinds. -/
theorem read_front (coded : bytes ∈ frames order) (front : bytes <+: reply.buffer.cells) :
    Header.read order bytes = { reply.header with
      bodySize := Header.readBodySize order
        (Header.bodySizeField reply.peer reply.header.bodySize) } := by
  have enough := (mem_frames_iff.mp coded).1
  have vector : reply.buffer.cells.take Header.size = reply.header.wire reply.peer :=
    Message.take_of_serialize reply.framed (enough.trans front.length_le)
  have begins : bytes.take Header.size = reply.header.wire reply.peer := by
    obtain ⟨rest, whole⟩ := front
    rw [← vector, ← whole, List.take_append_of_le_length enough]
  have width : (bytes.take Header.size).length = Header.size := List.length_take_of_le enough
  conv_lhs => rw [← List.take_append_drop Header.size bytes]
  rw [Header.read_append order width.ge, begins, Header.read_wire]

/-- What `Receive` returns has the keyword of the reply. -/
theorem keyword_of_result (coded : bytes ∈ frames order) (front : bytes <+: reply.buffer.cells)
    (returned : (Receiving.after order bytes).result order = some (.ok response)) :
    response.header.keyword = reply.message.header.keyword := by
  have read := reply.read_front coded front
  rcases Nat.lt_or_ge (Header.read order bytes).bodySize.toNat Header.size with small | long
  · have short : TcpWrapper.Short order bytes := ⟨(mem_frames_iff.mp coded).1, small⟩
    cases Receiving.result_of_short short returned
  · rw [Receiving.result_of_frame coded long, read] at returned
    obtain ⟨body, -, rfl⟩ := map_eq_ok.mp (Option.some.inj returned)
    rfl

/-- Of a message that is spoken it returns nothing. -/
theorem not_result_of_spoken (spoken : Spoken reply.message.header.keyword reply.body)
    (coded : bytes ∈ frames order) (front : bytes <+: reply.buffer.cells) :
    (Receiving.after order bytes).result order ≠ some (.ok response) := by
  intro returned
  by_cases same : reply.peer = order
  · -- A host of the same kind takes the whole frame.
    subst same
    let announced : Announced :=
      ⟨reply.message, reply.body, reply.carried, reply.announces, spoken.small⟩
    have written : (announced.onConnection reply.id).written reply.peer = reply.buffer.cells :=
      TcpWrapper.Announced.written_onConnection reply.framed
    rw [← written] at front
    have whole := prefixFree_frames reply.peer bytes coded _
      ((announced.onConnection reply.id).written_mem_frames reply.peer) front
    rw [whole] at returned
    obtain ⟨failure, failed⟩ :=
      (announced.onConnection reply.id).exists_error_of_spoken spoken returned
    cases failed
  · -- A host of another kind reads that there is no body.
    have short : TcpWrapper.Short order bytes := by
      refine ⟨(mem_frames_iff.mp coded).1, ?_⟩
      rw [reply.read_front coded front, Header.readBodySize_bodySizeField, if_neg same]
      decide
    cases Receiving.result_of_short short returned

end Reply

/-- An answer is a list of files or a packet. -/
theorem AnsweredBy.keyword {order : ByteOrder} {response : Message}
    (answered : AnsweredBy order response) :
    response.header.keyword = .files ∨ response.header.keyword = .packet := by
  obtain ⟨reply, bytes, coded, front, returned⟩ := answered
  rw [reply.keyword_of_result coded front returned]
  rcases reply.said with spoken | other
  · exact absurd returned (reply.not_result_of_spoken spoken coded front)
  · exact other

namespace Operating

variable {n : ℕ} {client : ClientFields} {operation : Operation}

/-- The move brings no answer but one that a peer has to say. -/
def Answers (order : ByteOrder) (move : OperationMove n) : Prop :=
  ∀ response, move = .answered (.ok response) → AnsweredBy order response

/-- The operation has neither been granted nor succeeded. -/
def Ungranted : OperationPc n → Prop
  | .uploading _ _ _ _ => False
  | .downloading _ _ => False
  | .ended none => False
  | _ => True

/-- Before an answer is checked the request has been sent, which that for the list of
files never is. The answer is a list of files or a packet. -/
def Unheard (operation : Operation) : OperationPc n → Prop
  | .sending _ _ => operation ≠ .listFiles
  | .checking _ response => operation ≠ .listFiles ∧
      (response.header.keyword = .files ∨ response.header.keyword = .packet)
  | pc => Ungranted pc

theorem Unheard.ungranted {pc : OperationPc n} (unheard : Unheard operation pc) :
    Ungranted pc := by
  cases pc with
  | sending | checking => trivial
  | opening | requesting | uploading | downloading | ended => exact unheard

/-- The request for the list of files can not be made. -/
theorem ne_listFiles_of_requests {opened : Opened} {request : Message}
    (requests : operation.Requests client opened request) : operation ≠ .listFiles := by
  rintro rfl
  obtain ⟨errno, outgoing, requested, made⟩ := requests
  cases requested
  cases made

/-- The others expect the counterpart of their request. -/
theorem expectedKeyword_of_ne (named : operation ≠ .listFiles) :
    operation.expectedKeyword = .download ∨ operation.expectedKeyword = .upload := by
  cases operation with
  | upload filename file => exact Or.inl rfl
  | download filename => exact Or.inr rfl
  | listFiles => exact absurd rfl named

/-- An answer of another kind than the expected one does not pass the check. -/
theorem not_isResponseValid {id : ConnectionId} {response : Message} {expected : Keyword}
    (other : response.header.keyword ≠ expected) :
    isResponseValid id response expected = false := by
  rw [isResponseValid, if_pos (Or.inl other)]

theorem Unheard.next {pc pc' : OperationPc n} {move : OperationMove n}
    (unheard : Unheard operation pc) (answers : Answers client.order move)
    (moved : Operating.next client operation pc move = some pc') : Unheard operation pc' := by
  cases leads_of_next moved with
  | fails => trivial
  | opens => trivial
  | requests requests => exact ne_listFiles_of_requests requests
  | answers id => exact ⟨unheard, (answers _ rfl).keyword⟩
  | @proceeds id response errno fault working =>
    obtain ⟨named, kind⟩ := unheard
    -- The operation expects an answer of another kind.
    have other : response.header.keyword ≠ operation.expectedKeyword := by
      rcases expectedKeyword_of_ne named with expected | expected <;>
        rcases kind with kind | kind <;> rw [expected, kind] <;> decide
    simp only [Operating.next, not_isResponseValid other, Bool.false_eq_true, if_false]
      at moved
    split_ifs at moved <;> exact Option.some.inj moved ▸ trivial
  | uploads => exact unheard
  | downloads => exact unheard

/-- In a run whose answers are what a peer has to say, no operation is granted and none
succeeds. -/
theorem ungranted_of_exec {moves : List (OperationMove n)} {s : Operating n}
    (answers : ∀ move ∈ moves, Answers client.order move)
    (run : (system client operation).exec start moves = some s) : Ungranted s.pc := by
  have within : (system client operation).Within (fun _ move => Answers client.order move) start
      moves := (StepSystem.within_label_iff run).mpr answers
  have unheard : Unheard operation s.pc := by
    refine @StepSystem.invariant_of_within _ _ (system client operation)
      (fun _ move => Answers client.order move) (fun t => Unheard operation t.pc) start s moves
      trivial ?_ within run
    intro t move u unheard answers moved
    obtain ⟨pc, next, rfl⟩ := Option.map_eq_some_iff.mp moved
    exact unheard.next answers next
  exact unheard.ungranted

/-- A list of one name that says it has none. -/
def wrongList : Files := ⟨0, [20], [List.replicate 20 97]⟩

/-- It is all that a server says. -/
def listReply : Reply where
  peer := .little
  id := 7
  message := ⟨⟨1, 7, .files, 22⟩, some (.files wrongList)⟩
  body := .files wrongList
  carried := rfl
  announces := by decide
  said := Or.inr (Or.inl rfl)
  buffer := ⟨[0, 1, 0, 0, 0, 7, 1, 0, 0, 0, 22, 0, 0, 0, 0, 0, 0, 0, 0] ++
    List.replicate 18 97, false⟩
  framed := by decide +kernel

/-- What is left of it at the other end. -/
def emptyList : Message := ⟨⟨1, 7, .files, 22⟩, some (.files ⟨0, [], []⟩)⟩

/-- It answers the request of an upload. -/
def wronglyAnswered : List (OperationMove 1) :=
  [.opened "" (.ok ⟨7, 0⟩), .request "", .answered (.ok emptyList), .checked "" none 0]

/-- The theorem for that upload, which ends with an exception. -/
theorem ungranted_wronglyAnswered :
    ∃ s, (system littleClient (.upload [97] [1])).exec start wronglyAnswered = some s ∧
      Ungranted s.pc := by
  have ends : ((system littleClient (.upload [97] [1])).exec start wronglyAnswered).isSome := by
    decide +kernel
  obtain ⟨s, run⟩ := Option.isSome_iff_exists.mp ends
  refine ⟨s, run, ungranted_of_exec (fun move listed response same => ?_) run⟩
  subst same
  -- The one answer is the list.
  simp only [wronglyAnswered, List.mem_cons, OperationMove.answered.injEq, Except.ok.injEq,
    List.not_mem_nil, reduceCtorEq, false_or, or_false] at listed
  subst listed
  exact ⟨listReply, listReply.buffer.cells,
    mem_frames_iff.mpr ⟨by decide, by decide +kernel⟩, List.prefix_rfl, by decide +kernel⟩

end Operating

end Fup.Client
