/-
# The handles of sockets

A `Socket` keeps the number of a descriptor from its construction to its
destruction and remembers whether it has made the descriptor blocking. The kernel
gives out numbers and takes them back. `Close` gives the number back and the object
keeps it, so the destructor closes whatever the number means by then.

A process is any number of sockets beside the rest of the program, which opens
descriptors of its own and closes only those. What the kernel answers comes with
each call: a number that is free, a status, the address of a peer. A descriptor
that is closed is gone, whatever the status, and the calls on a number that is not
open fail.
-/

import Fup.Lib.StepSystem
import Fup.Socket.Connect

namespace Fup

/-- `SocketHandle`. -/
abbrev SocketHandle := ℤ

/-- `INVALID_SOCKET_HANDLE`. -/
def invalidSocketHandle : SocketHandle := -1

/-- `sizeof(struct sockaddr_storage)`. -/
def storageSize : ℕ := 128

/-- An address that a `sockaddr_storage` has room for. -/
structure StoredAddr extends AddrInfo where
  fits : aiAddr.length ≤ storageSize

/-- `SockAddr(&storage, addrlen)` for a storage that starts with the address. -/
def StoredAddr.sockAddr (a : StoredAddr) : SockAddr where
  addrBuf := some a.aiAddr
  addrLen := a.aiAddrlen
  counted := a.counted
  nonempty := fun same => a.nonempty (Option.some.inj same)

/-- `SetAddr` copies out of the storage what was copied into it. -/
theorem StoredAddr.setAddr_eq (a : StoredAddr) {rest : List Byte} :
    SockAddr.setAddr (some (a.aiAddr ++ rest)) a.aiAddrlen = .ok a.sockAddr := by
  have counted := a.counted
  have positive : 0 < a.aiAddrlen.toNat := counted ▸ List.length_pos_iff.mpr a.nonempty
  have inside : a.aiAddrlen.toNat ≤ (a.aiAddr ++ rest).length := by
    rw [List.length_append]
    omega
  have front : (a.aiAddr ++ rest).take a.aiAddrlen.toNat = a.aiAddr := by
    rw [← counted, List.take_left]
  obtain ⟨copied, copies, addrLen, addrBuf⟩ := SockAddr.setAddr_eq positive inside
  rw [copies]
  obtain ⟨buf, len, _, _⟩ := copied
  subst addrLen
  subst addrBuf
  simp only [front]
  rfl

theorem loopback_fits : Socket.loopback.aiAddr.length ≤ storageSize := by decide

/-- The loopback address in a storage. -/
def StoredAddr.loopback : StoredAddr := ⟨Socket.loopback, loopback_fits⟩

/-- The members of a socket that its whole life depends on. -/
structure SocketObject extends Socket where
  handle : SocketHandle
  isBlocking : Bool
  localAddr : Option SockAddr

/-- A socket, and whether `Close` has given its number back. -/
structure LiveSocket extends SocketObject where
  closed : Bool

/-- An open descriptor: whether `O_NONBLOCK` is set. -/
structure Descriptor where
  nonblock : Bool
  deriving DecidableEq

/-- The descriptors of the kernel by number, the sockets, and the descriptors that
the rest of the program has open, as it left them. -/
structure Process where
  table : SocketHandle → Option Descriptor
  sockets : ℕ → Option LiveSocket
  rest : SocketHandle → Option Descriptor

/-- What `getaddrinfo` answers, and `socket` for each entry of its list. -/
structure Opening where
  err : ℤ
  res : List (StoredAddr × SocketHandle)
  gaiStrerror : String

/-- What `accept` answers: a number, the descriptor behind it and the peer. -/
structure Arrival where
  nHandle : SocketHandle
  descriptor : Descriptor
  addr : StoredAddr

/-- A status and `strerror(errno)`. -/
structure Answer where
  status : ℤ
  strerror : String

/-- A call of a member function of a socket, or what the rest of the program does. -/
inductive SocketCall
  | construct (i : ℕ) (isTcp : Bool) (opening : Opening)
  | adopt (i : ℕ) (isTcp : Bool) (sockfd : SocketHandle) (localAddr dest : Option SockAddr)
  | accept (i j : ℕ) (arrival : Arrival) (strerror : String)
  | connect (i : ℕ) (network : Network) (url port : String)
  | setBlocking (i : ℕ) (blocking : Bool) (answer : Answer)
  | close (i : ℕ) (answer : Answer)
  | destroy (i : ℕ)
  | opens (n : SocketHandle) (descriptor : Descriptor)
  | closes (n : SocketHandle)

namespace Process

/-! ### Members -/

/-- A number that the kernel may give out. -/
def Free (p : Process) (n : SocketHandle) : Prop := 0 ≤ n ∧ p.table n = none

instance (p : Process) (n : SocketHandle) : Decidable (p.Free n) :=
  inferInstanceAs (Decidable (_ ∧ _))

/-- There is another descriptor under a number, or none. -/
def setTable (p : Process) (n : SocketHandle) (descriptor : Option Descriptor) : Process :=
  { p with table := Function.update p.table n descriptor }

/-- There is another object, or none. -/
def setSocket (p : Process) (i : ℕ) (socket : Option LiveSocket) : Process :=
  { p with sockets := Function.update p.sockets i socket }

/-- The rest of the program has another descriptor under a number, or none. -/
def setRest (p : Process) (n : SocketHandle) (descriptor : Option Descriptor) : Process :=
  { p with rest := Function.update p.rest n descriptor }

/-- `Socket(bool, SocketHandle, std::shared_ptr<SockAddr>, std::shared_ptr<SockAddr>)`. -/
def adopted (isTcp : Bool) (sockfd : SocketHandle) (localAddr dest : Option SockAddr) :
    LiveSocket where
  isTcp := isTcp
  destAddr := dest
  handle := sockfd
  isBlocking := true
  localAddr := localAddr
  closed := false

/-- The loop of the constructor: the first entry for which `socket` gives a number. -/
def firstSocket : List (StoredAddr × SocketHandle) → Option (StoredAddr × SocketHandle)
  | [] => none
  | (addr, sockfd) :: rest =>
    if sockfd = invalidSocketHandle then firstSocket rest else some (addr, sockfd)

/-- `Socket(bool, Port)`. The object comes to be only when nothing is thrown. -/
def construct (p : Process) (i : ℕ) (isTcp : Bool) (opening : Opening) :
    Option (Except Failure Unit × Process) :=
  if p.sockets i ≠ none then none
  else if opening.err ≠ 0 then
    some (.error (.exception
      ("sock::getSock: An error occured in getaddrinfo: " ++ opening.gaiStrerror)), p)
  else
    match firstSocket opening.res with
    | none => some (.error (.exception "sock::getSock: Failed to create socket"), p)
    | some (addr, sockfd) =>
      if p.Free sockfd then
        some (.ok (), (p.setTable sockfd (some ⟨false⟩)).setSocket i (some
          { isTcp := isTcp
            destAddr := none
            handle := sockfd
            isBlocking := true
            localAddr := some addr.sockAddr
            closed := false }))
      else none

/-- `Socket::Accept`. The new object is made from what the listening one has. -/
def accept (p : Process) (i j : ℕ) (arrival : Arrival) (strerror : String) :
    Option (Except Failure Unit × Process) :=
  match p.sockets i, p.sockets j with
  | some socket, none =>
    if arrival.nHandle = -1 then
      some (.error (.exception
        ("Socket::Accept: An error occured while accepting a connection: " ++ strerror)), p)
    else if p.table socket.handle ≠ none ∧ p.Free arrival.nHandle then
      let nDestAddr := some arrival.addr.sockAddr
      some (.ok (), (p.setTable arrival.nHandle (some arrival.descriptor)).setSocket j
        (some (adopted socket.isTcp arrival.nHandle socket.localAddr nDestAddr)))
    else none
  | _, _ => none

/-- `fcntl(handle, F_SETFL, flags)`, whose status may be an error on any descriptor
and is one on a number that is not open. -/
def setFlags (p : Process) (n : SocketHandle) (nonblock : Bool) (status : ℤ) : Option Process :=
  match p.table n with
  | some _ => some (if status = -1 then p else p.setTable n (some ⟨nonblock⟩))
  | none => if status = -1 then some p else none

/-- `Socket::SetBlocking`. -/
def setBlocking (p : Process) (i : ℕ) (blocking : Bool) (answer : Answer) :
    Option (Except Failure Unit × Process) :=
  match p.sockets i with
  | some socket =>
    if socket.isBlocking = blocking then some (.ok (), p)
    else
      (p.setFlags socket.handle (!blocking) answer.status).map fun p =>
        if answer.status = -1 then
          (.error (.exception
            ("Socket::Socket: Failed to set socket blocking mode: " ++ answer.strerror)), p)
        else (.ok (), p.setSocket i (some { socket with isBlocking := blocking }))
  | none => none

/-- `Socket::Close`. The handle stays what it is. -/
def close (p : Process) (i : ℕ) (answer : Answer) : Option (Except Failure Unit × Process) :=
  match p.sockets i with
  | some socket =>
    if p.table socket.handle = none ∧ answer.status ≠ -1 then none
    else
      let p := (p.setTable socket.handle none).setSocket i (some { socket with closed := true })
      if answer.status = -1 then
        some (.error (.exception
          ("Socket::Close: An error occured while closing the socket: " ++ answer.strerror)), p)
      else some (.ok (), p)
  | none => none

/-- `~Socket`. -/
def destroy (p : Process) (i : ℕ) : Option Process :=
  (p.sockets i).map fun socket =>
    if socket.handle ≠ invalidSocketHandle then (p.setTable socket.handle none).setSocket i none
    else p.setSocket i none

/-- `Socket::Connect`, which asks the kernel about the descriptor and leaves it the
number it had. -/
def connect (p : Process) (i : ℕ) (network : Network) (url port : String) :
    Option (Except Failure Unit × Process) :=
  (p.sockets i).map fun socket =>
    let connecting := socket.toSocket.connect network url port
    (connecting.result, p.setSocket i (some { socket with toSocket := connecting.socket }))

/-- The object made by the second constructor is now responsible for the number. -/
def adopt (p : Process) (i : ℕ) (isTcp : Bool) (sockfd : SocketHandle)
    (localAddr dest : Option SockAddr) : Option Process :=
  if p.sockets i ≠ none then none
  else some ((p.setRest sockfd none).setSocket i (some (adopted isTcp sockfd localAddr dest)))

/-- The rest of the program opens a descriptor. -/
def opens (p : Process) (n : SocketHandle) (descriptor : Descriptor) : Option Process :=
  if p.Free n then some ((p.setTable n (some descriptor)).setRest n (some descriptor)) else none

/-- The rest of the program closes a descriptor that it has opened. -/
def closes (p : Process) (n : SocketHandle) : Option Process :=
  if p.rest n = none then none else some ((p.setTable n none).setRest n none)

/-- A process before its first socket. -/
def start (rest : SocketHandle → Option Descriptor) : Process where
  table := rest
  sockets := fun _ => none
  rest := rest

/-- All processes, with any calls in any order. -/
def system : StepSystem Process SocketCall where
  init p := ∃ rest, (∀ n, rest n ≠ none → 0 ≤ n) ∧ p = start rest
  step p call :=
    match call with
    | .construct i isTcp opening => (p.construct i isTcp opening).map Prod.snd
    | .adopt i isTcp sockfd localAddr dest => p.adopt i isTcp sockfd localAddr dest
    | .accept i j arrival strerror => (p.accept i j arrival strerror).map Prod.snd
    | .connect i network url port => (p.connect i network url port).map Prod.snd
    | .setBlocking i blocking answer => (p.setBlocking i blocking answer).map Prod.snd
    | .close i answer => (p.close i answer).map Prod.snd
    | .destroy i => p.destroy i
    | .opens n descriptor => p.opens n descriptor
    | .closes n => p.closes n

end Process

end Fup
