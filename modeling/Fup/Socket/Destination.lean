/-
# Where a UDP socket sends to

A UDP socket keeps one address. `Send` writes it when it is given one, whatever
becomes of the datagram, and `Connect` writes an empty one when it returns. `Receive`
writes the sender of a datagram, but only where there is no address yet. So a socket
sends to the last address that it was given, and one that was never given any answers
the first peer that it heard, whoever else it hears.
-/

import Fup.Communications
import Fup.Socket.Handles
import Fup.TcpSend

namespace Fup

/-- How a call of `Send` ended, the socket after it, and what `sendto` was asked to
send, and to whom. -/
structure UdpSending where
  result : Except Failure Unit
  socket : Socket
  datagram : Option (SockAddr × List Byte)

/-- A call on a `UdpWrapper` or on its socket, with what the network answers:
`sendto` a number of bytes or an error, `recvfrom` a datagram and its sender or an
error. -/
inductive UdpCall
  | send (message : Message) (dest : Option SockAddr) (answer : Except String ℤ)
  | receive (answer : Except String (List Byte × StoredAddr))
  | connect (network : Network) (url port : String)

namespace Socket

/-- The address that `Send` is given replaces the one the socket has. -/
def aim (s : Socket) (dest : Option SockAddr) : Socket :=
  match dest with
  | some addr => { s with destAddr := some addr }
  | none => s

/-- What `Send` throws for an exception inside it. -/
def sendFailed (what : String) : Failure :=
  .exception ("Socket::Send: An error occured when sending a message: " ++ what)

/-- `Socket::Send` on a UDP socket, with the answer of `sendto`, and the address and
the bytes that `sendto` is called with. -/
def sendTo (s : Socket) (buffer : List Byte) (dest : Option SockAddr) (answer : Except String ℤ) :
    Except Failure ℤ × Socket × Option (SockAddr × List Byte) :=
  let s := s.aim dest
  match s.destAddr with
  | none =>
    (.error (sendFailed "Socket::Send: Can not send an UDP message without address info"), s, none)
  | some addr =>
    match answer with
    | .ok bytesSent => (.ok bytesSent, s, some (addr, buffer))
    | .error errno =>
      (.error (sendFailed
        ("Socket::sendToBase: An error occured while sending UDP message: " ++ errno)), s,
        some (addr, buffer))

/-- `Socket::Receive` on a UDP socket. The first sender is kept. -/
def receiveFrom (s : Socket) (answer : Except String (List Byte × StoredAddr)) :
    Except Failure (List Byte) × Socket :=
  match answer with
  | .error errno =>
    (.error (.exception
      ("Socket::Receive: An error occured while receiving UDP message: " ++ errno)), s)
  | .ok (bytes, sender) =>
    match s.destAddr with
    | none => (.ok bytes, { s with destAddr := some sender.sockAddr })
    | some _ => (.ok bytes, s)

end Socket

namespace UdpWrapper

/-- What `UdpWrapper::Send` throws for a failure inside it. Only exceptions are
caught. -/
def sendFailed : Failure → Failure
  | .exception what =>
    .exception ("UdpWrapper::Send: Failed to send the complete message: " ++ what)
  | failure => failure

/-- `UdpWrapper::Send`. -/
def send (order : ByteOrder) (s : Socket) (message : Message) (dest : Option SockAddr)
    (answer : Except String ℤ) : UdpSending :=
  match message.serialize order with
  | .error failure => ⟨.error (sendFailed failure), s, none⟩
  | .ok buffer =>
    match s.sendTo buffer.cells dest answer with
    | (.error failure, s, datagram) => ⟨.error (sendFailed failure), s, datagram⟩
    | (.ok bytesSent, s, datagram) =>
      if bytesSent = 0 ∨ TcpWrapper.intLength buffer.cells ≠ bytesSent then
        ⟨.error (sendFailed (.exception "Bytes sent is not equal to the expected amount.")), s,
          datagram⟩
      else ⟨.ok (), s, datagram⟩

/-- `UdpWrapper::Receive`, and the socket after it. -/
def receiveOn (order : ByteOrder) (s : Socket)
    (answer : Except String (List Byte × StoredAddr)) : Except Failure Message × Socket :=
  match s.receiveFrom answer with
  | (.error failure, s) => (.error failure, s)
  | (.ok bytes, s) => (receive order bytes, s)

/-- The socket after a call. -/
def next (order : ByteOrder) (s : Socket) : UdpCall → Socket
  | .send message dest answer => (send order s message dest answer).socket
  | .receive answer => (receiveOn order s answer).2
  | .connect network url port => (s.connect network url port).socket

/-- The socket after some calls. -/
def after (order : ByteOrder) (s : Socket) (calls : List UdpCall) : Socket :=
  calls.foldl (next order) s

/-! ### Who is addressed -/

/-- The address that a call gives the socket: the one that `Send` is called with, once
the message is a vector, and an empty one when `Connect` returns. -/
def given (order : ByteOrder) : UdpCall → Option SockAddr
  | .send message dest _ =>
    match message.serialize order with
    | .ok _ => dest
    | .error _ => none
  | .receive _ => none
  | .connect network url port =>
    match (Socket.connect network ⟨false, none⟩ url port).result with
    | .ok _ => some .empty
    | .error _ => none

/-- The sender that a call hears. -/
def heard : UdpCall → Option SockAddr
  | .receive (.ok (_, sender)) => some sender.sockAddr
  | _ => none

/-- The last address that the calls gave a socket; without any the one it had; without
that the first that they heard. -/
def destination (order : ByteOrder) (first : Option SockAddr) (calls : List UdpCall) :
    Option SockAddr :=
  (calls.filterMap (given order)).getLast?.or (first.or (calls.filterMap heard).head?)

variable {order : ByteOrder} {s : Socket}

/-- A message without an address to go to. -/
theorem refuses {message : Message} {buffer : Buffer Byte} {dest : Option SockAddr}
    {answer : Except String ℤ} (serialized : message.serialize order = .ok buffer)
    (nowhere : (s.aim dest).destAddr = none) :
    (send order s message dest answer).result = .error (sendFailed (Socket.sendFailed
      "Socket::Send: Can not send an UDP message without address info")) := by
  rw [send, serialized]
  dsimp only
  rw [Socket.sendTo, nowhere]

end UdpWrapper

end Fup
