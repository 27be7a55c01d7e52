/-
# The UDP destination

`util::CreateUdpDestinationAddressFromTcp` writes the port into the bytes it is
given, through a pointer that the constant reference does not protect, and makes
the new address from as many of them as a pointer has. The overload for shared
pointers does the same.
-/

import Fup.Socket

namespace Fup

open SockAddr FixedWidth

/-- `sizeof(sockaddr)` of a pointer with that name. -/
def pointerSize : UInt32 := 8

/-- An assignment to bytes of an address, through the pointer of `GetAddr`. -/
def SockAddr.store (a : SockAddr) (offset : ℕ) (bytes : List Byte) : Except Failure SockAddr :=
  match there : a.addrBuf with
  | none => .error .nullPointer
  | some data =>
    if offset + bytes.length ≤ data.length then
      let stored := ((⟨data, true⟩ : Buffer Byte).memcpy offset bytes).cells
      have length : stored.length = data.length := Buffer.length_cells_memcpy _ _ _
      .ok {
        addrBuf := some stored
        addrLen := a.addrLen
        counted := by
          have counted := a.counted
          rw [there] at counted
          exact length.trans counted
        nonempty := fun empty => a.nonempty <| by
          rw [Option.some.inj empty, List.length_nil] at length
          rw [there, List.length_eq_zero_iff.mp length.symm] }
    else .error .outOfBounds

section Create

variable (order : ByteOrder)

/-- Both overloads, with the address they return and the one they were given,
after the call. -/
def createUdpDestination (tcpAddr : SockAddr) (udpPort : Port) :
    Except Failure (SockAddr × SockAddr) :=
  match tcpAddr.addrBuf with
  | none => .error .nullPointer
  | some data => do
    let code ← readFamily order data
    let tcpAddr ←
      match Family.ofCode code with
      | some _ => tcpAddr.store 2 (order.store 2 (htons order udpPort).toNat)
      | none => .ok tcpAddr
    let sockAddr ← setAddr tcpAddr.addrBuf pointerSize
    return (sockAddr, tcpAddr)

def createUdpDestinationAddressFromTcp (tcpAddr : SockAddr) (udpPort : Port) :
    Except Failure (SockAddr × SockAddr) :=
  createUdpDestination order tcpAddr udpPort

/-- The overload for a shared pointer, which may be null. -/
def createUdpDestinationAddressFromSharedTcp (tcpAddr : Option SockAddr) (udpPort : Port) :
    Except Failure (SockAddr × SockAddr) :=
  match tcpAddr with
  | none => .error .nullPointer
  | some tcpAddr => createUdpDestination order tcpAddr udpPort

end Create

/-! ### What a destination should be -/

/-- An IPv4 or IPv6 address, as long as the structure of its family. -/
def WellFormed (order : ByteOrder) (a : SockAddr) : Prop :=
  ∃ family, a.family order = some family ∧ a.addrLen.toNat = family.size

/-- The field `sin_addr` or `sin6_addr` of an address. -/
def ipBytes (order : ByteOrder) (a : SockAddr) : Option (List Byte) :=
  (a.family order).map fun family =>
    ((a.addrBuf.getD []).drop family.addrOffset).take family.addrSize

/-- The new address is the other one with the port, the readers succeed on it,
and the other one is what it was. -/
structure DerivedFrom (order : ByteOrder) (inetNtop : InetNtop) (a : SockAddr) (udpPort : Port)
    (destination left : SockAddr) : Prop where
  family : destination.family order = a.family order
  addrLen : destination.addrLen = a.addrLen
  ip : ipBytes order destination = ipBytes order a
  port : destination.getPort order = .ok udpPort
  readable : ∃ ip, destination.getIpAddress order inetNtop = .ok ip
  unchanged : left = a

/-- The call returns such an address. -/
def Derives (order : ByteOrder) (inetNtop : InetNtop) (a : SockAddr) (udpPort : Port)
    (result : Except Failure (SockAddr × SockAddr)) : Prop :=
  ∃ destination left, result = .ok (destination, left) ∧
    DerivedFrom order inetNtop a udpPort destination left

/-! ### What it is -/

theorem SockAddr.store_eq {a : SockAddr} {data : List Byte} (there : a.addrBuf = some data)
    {offset : ℕ} {bytes : List Byte} (inside : offset + bytes.length ≤ data.length) :
    ∃ left, a.store offset bytes = .ok left ∧ left.addrLen = a.addrLen ∧
      left.addrBuf = some (data.take offset ++ bytes ++ data.drop (offset + bytes.length)) := by
  rw [store]
  split
  case h_1 none => cases there.symm.trans none
  case h_2 data' there' =>
    obtain rfl := Option.some.inj (there.symm.trans there')
    rw [if_pos inside]
    exact ⟨_, rfl, rfl, congrArg some (Buffer.cells_memcpy ⟨data, true⟩ inside)⟩

/-- The bytes of an address after an assignment to its port. -/
def withPort (data : List Byte) (port : Port) : List Byte :=
  data.take 2 ++ highFirst 2 port.toNat ++ data.drop 4

section WithPort

variable {data : List Byte} (enough : 4 ≤ data.length) (port : Port)
include enough

theorem length_withPort : (withPort data port).length = data.length := by
  simp only [withPort, List.length_append, List.length_take, List.length_drop, length_highFirst]
  omega

theorem take_withPort : (withPort data port).take saFamilySize = data.take saFamilySize := by
  have front : (data.take 2).length = 2 := List.length_take_of_le (by omega)
  rw [withPort, List.append_assoc]
  exact List.take_left' front

/-- The assignment of the branch of either family. -/
theorem store_withPort {a : SockAddr} (there : a.addrBuf = some data) :
    ∃ left, a.store 2 (highFirst 2 port.toNat) = .ok left ∧ left.addrLen = a.addrLen ∧
      left.addrBuf = some (withPort data port) := by
  have width : (highFirst 2 port.toNat).length = 2 := length_highFirst 2 _
  have stored := store_eq there ((congrArg (2 + ·) width).trans_le enough)
  rw [width] at stored
  exact stored

theorem field16_withPort : field16 (withPort data port) 2 = port := by
  have front : (data.take 2).length = 2 := List.length_take_of_le (by omega)
  rw [withPort, List.append_assoc]
  exact field16_highFirst _ _ front port

end WithPort

/-- What both overloads do with the bytes of an IPv4 or IPv6 address: the port is
stored into these behind the family, and eight of them are copied. -/
theorem exists_destination {order : ByteOrder} {a : SockAddr} {data : List Byte} {family : Family}
    (there : a.addrBuf = some data) (known : familyOf order data = some family)
    (eight : 8 ≤ data.length) (udpPort : Port) :
    ∃ destination left, createUdpDestination order a udpPort = .ok (destination, left) ∧
      (left.addrLen = a.addrLen ∧ left.addrBuf = some (withPort data udpPort)) ∧
        destination.addrLen = pointerSize ∧
          destination.addrBuf = some ((withPort data udpPort).take 8) := by
  have four : 4 ≤ data.length := (by decide : 4 ≤ 8).trans eight
  have two : saFamilySize ≤ data.length := (by decide : saFamilySize ≤ 4).trans four
  -- The port is stored behind the family, and then the bytes are copied.
  obtain ⟨left, stores, leftLen, leftBuf⟩ := store_withPort four udpPort there
  have inside : 8 ≤ (withPort data udpPort).length := (length_withPort four udpPort).symm ▸ eight
  obtain ⟨destination, sets, destinationLen, destinationBuf⟩ :
      ∃ made, setAddr (some (withPort data udpPort)) pointerSize = .ok made ∧
        made.addrLen = pointerSize ∧ made.addrBuf = some ((withPort data udpPort).take 8) :=
    setAddr_eq (show 0 < pointerSize.toNat by decide) inside
  refine ⟨destination, left, ?_, ⟨leftLen, leftBuf⟩, destinationLen, destinationBuf⟩
  rw [createUdpDestination, there]
  dsimp only
  rw [readFamily_eq order two, ok_bind, ← familyOf, known]
  dsimp only
  rw [store_htons, stores, ok_bind, leftBuf, sets]
  rfl

/-- A well-formed address has the bytes of its family. -/
theorem WellFormed.exists_bytes {order : ByteOrder} {a : SockAddr} (wellFormed : WellFormed order a) :
    ∃ data family, a.addrBuf = some data ∧ data.length = a.addrLen.toNat ∧
      familyOf order data = some family ∧ data.length = family.size := by
  obtain ⟨family, known, size⟩ := wellFormed
  have counted := a.counted
  cases there : a.addrBuf with
  | none =>
    have long := family.eight_lt_size
    rw [there, size, Option.getD_none, List.length_nil] at counted
    omega
  | some data =>
    rw [SockAddr.family, there, Option.getD_some] at known
    rw [there, Option.getD_some] at counted
    exact ⟨data, family, rfl, counted, known, counted.trans size⟩

/-- What both overloads do with an IPv4 or IPv6 address: the port of the address
itself is the new one, and the address returned is cut to eight bytes, which the
readers refuse. -/
theorem exists_createUdpDestination {order : ByteOrder} {a : SockAddr} (udpPort : Port)
    (wellFormed : WellFormed order a) :
    ∃ destination left, createUdpDestination order a udpPort = .ok (destination, left) ∧
      destination.addrLen = pointerSize ∧ left.getPort order = .ok udpPort ∧
        ∃ what, destination.getPort order = .error (.exception what) := by
  obtain ⟨data, family, there, counted, known, size⟩ := wellFormed.exists_bytes
  have long : 8 < data.length := family.eight_lt_size.trans_eq size.symm
  have four : 4 ≤ data.length := (by decide : 4 ≤ 8).trans long.le
  have width := length_withPort four udpPort
  have front := take_withPort four udpPort
  obtain ⟨destination, left, returned, ⟨leftLen, leftBuf⟩, destinationLen, destinationBuf⟩ :=
    exists_destination there known long.le udpPort
  refine ⟨destination, left, returned, destinationLen, ?_, ?_⟩
  · have whole : (withPort data udpPort).length = left.addrLen.toNat := by
      rw [width, counted, leftLen]
    have sameFamily : familyOf order (withPort data udpPort) = some family :=
      (familyOf_congr order front).trans known
    rw [getPort_of_whole order leftBuf whole sameFamily (size.symm.trans width.symm).le,
      field16_withPort four]
  · -- Eight bytes are not enough for either family.
    have cut : ((withPort data udpPort).take 8).length = 8 :=
      List.length_take_of_le (long.le.trans_eq width.symm)
    have eight : ((withPort data udpPort).take 8).length = destination.addrLen.toNat := by
      rw [destinationLen]
      exact cut
    have sameFamily : familyOf order ((withPort data udpPort).take 8) = some family := by
      rw [← known]
      apply familyOf_congr order
      rw [List.take_take]
      exact front
    exact getPort_of_truncated order destinationBuf eight sameFamily
      ((by decide : saFamilySize ≤ 8).trans_eq cut.symm) (cut.trans_lt family.eight_lt_size)

/-- 127.0.0.1 with port 12420. -/
def localhost : SockAddr :=
  ⟨some [2, 0, 48, 132, 127, 0, 0, 1, 0, 0, 0, 0, 0, 0, 0, 0], 16, rfl, nofun⟩

/-- Neither overload derives the destination of any IPv4 or IPv6 address. -/
theorem not_derives {order : ByteOrder} {a : SockAddr} (wellFormed : WellFormed order a)
    (inetNtop : InetNtop) (udpPort : Port) :
    ¬ Derives order inetNtop a udpPort (createUdpDestinationAddressFromTcp order a udpPort) ∧
      ¬ Derives order inetNtop a udpPort
        (createUdpDestinationAddressFromSharedTcp order (some a) udpPort) := by
  -- The readers refuse what is returned, so the port is not there to read.
  have never : ¬ Derives order inetNtop a udpPort (createUdpDestination order a udpPort) := by
    rintro ⟨destination, left, returned, derived⟩
    obtain ⟨destination', left', returned', -, -, what, throws⟩ :=
      exists_createUdpDestination udpPort wellFormed
    obtain ⟨rfl, rfl⟩ := Prod.mk.inj (Except.ok.inj (returned'.symm.trans returned))
    exact absurd (throws.symm.trans derived.port) nofun
  exact ⟨never, never⟩

/-- The theorem for 127.0.0.1 with port 12420. -/
theorem not_derives_localhost :
    ¬ Derives .little .dotted localhost 12421
        (createUdpDestinationAddressFromTcp .little localhost 12421) ∧
      ¬ Derives .little .dotted localhost 12421
        (createUdpDestinationAddressFromSharedTcp .little (some localhost) 12421) :=
  not_derives ⟨.inet, by decide, by decide⟩ .dotted 12421

/-- The port of the address itself is overwritten. -/
theorem not_derives_overwritten :
    ¬ ∀ a udpPort, WellFormed .little a → Derives .little .dotted a udpPort
      (createUdpDestinationAddressFromTcp .little a udpPort) := by
  intro derives
  have wellFormed : WellFormed .little localhost := ⟨.inet, by decide, by decide⟩
  obtain ⟨destination, left, returned, derived⟩ := derives localhost 12421 wellFormed
  obtain ⟨destination', left', returned', -, port, -⟩ :=
    exists_createUdpDestination 12421 wellFormed
  obtain ⟨rfl, rfl⟩ := Prod.mk.inj (Except.ok.inj (returned'.symm.trans returned))
  -- The address was to stay as it was, with port 12420.
  rw [derived.unchanged] at port
  exact absurd port (by decide)

end Fup
