/-
# The two readers of an address

`util::GetPortFromSockAddr` and `util::GetIpFromSockAddr` read the fields that
`SockAddr::GetPort` and `SockAddr::GetIpAddress` read, and check nothing but the
family. Either reader is one scheme with two fields, so that the schemes are
compared once.
-/

import Fup.Socket

namespace Fup

open SockAddr

variable (order : ByteOrder)

/-- The branches of the readers in `util`, around what they read. -/
def unchecked {α : Type} (a : SockAddr) (read : Family → List Byte → Except Failure α) :
    Except Failure α :=
  match a.addrBuf with
  | none => .error .nullPointer
  | some data => do
    let code ← readFamily order data
    match Family.ofCode code with
    | some family => read family data
    | none => .error (.exception "Invalid address family")

def getPortFromSockAddr (a : SockAddr) : Except Failure Port :=
  unchecked order a fun _ data => readPort order data

/-- When the conversion fails, the string is read from a buffer that nothing has
filled. -/
def getIpFromSockAddr (inetNtop : InetNtop) (a : SockAddr) : Except Failure (List Byte) :=
  unchecked order a fun family data => do
    match ← readIp inetNtop family data Family.inet6.strLen with
    | some text => return text
    | none => .error .outOfBounds

/-! ### Agreement -/

/-- Both calls throw, or both return the same value, and neither touches a byte
that is not there. -/
structure Agree {α : Type} (first second : Except Failure α) : Prop where
  defined : Defined first ∧ Defined second
  same : ∀ a, first = .ok a ↔ second = .ok a

/-- The port readers agree, and so do the IP readers. -/
structure ReadersAgree (inetNtop : InetNtop) (a : SockAddr) : Prop where
  port : Agree (getPortFromSockAddr order a) (a.getPort order)
  ip : Agree (getIpFromSockAddr order inetNtop a) (a.getIpAddress order inetNtop)

/-- The address has a family, and if the readers know it, the whole structure. -/
structure Whole (a : SockAddr) : Prop where
  enough : saFamilySize ≤ a.addrLen.toNat
  whole : ∀ family, a.family order = some family → family.size ≤ a.addrLen.toNat

variable {order}

section Schemes

variable {α : Type} {a : SockAddr} {read read' : Family → List Byte → Except Failure α}
  {data : List Byte}

theorem unchecked_eq (there : a.addrBuf = some data) (enough : saFamilySize ≤ data.length) :
    unchecked order a read =
      match familyOf order data with
      | some family => read family data
      | none => .error (.exception "Invalid address family") := by
  rw [unchecked, there]
  dsimp only
  rw [readFamily_eq order enough, ok_bind, familyOf]

theorem unchecked_of_none (there : a.addrBuf = none) :
    unchecked order a read = .error .nullPointer := by
  rw [unchecked, there]

/-- Less than a family is read outside the buffer. -/
theorem unchecked_of_short (there : a.addrBuf = some data) (short : data.length < saFamilySize) :
    unchecked order a read = .error .outOfBounds := by
  rw [unchecked, there]
  dsimp only
  rw [readFamily_eq_outOfBounds order short]
  rfl

theorem not_whole_of_none (there : a.addrBuf = none) : ¬ Whole order a := by
  intro whole
  have enough := whole.enough
  rw [← a.counted, there, Option.getD_none, List.length_nil] at enough
  exact absurd enough (by decide)

/-- The lengths are those of the bytes. -/
theorem whole_iff (there : a.addrBuf = some data) :
    Whole order a ↔ saFamilySize ≤ data.length ∧
      ∀ family, familyOf order data = some family → family.size ≤ data.length := by
  have counted : data.length = a.addrLen.toNat := by rw [← a.counted, there, Option.getD_some]
  have families : a.family order = familyOf order data := by
    rw [SockAddr.family, there, Option.getD_some]
  rw [counted, ← families]
  exact ⟨fun whole => ⟨whole.enough, whole.whole⟩, fun ⟨enough, whole⟩ => ⟨enough, whole⟩⟩

/-- Two exceptions agree. -/
theorem agree_exception (what what' : String) :
    Agree (.error (.exception what) : Except Failure α) (.error (.exception what')) where
  defined := ⟨trivial, trivial⟩
  same := by simp

/-- A call that does not throw what the other throws does not agree with it. -/
theorem not_agree_exception {result : Except Failure α} (what : String)
    (other : ∀ what', result ≠ .error (.exception what')) :
    ¬ Agree result (.error (.exception what)) := by
  intro agree
  cases result with
  | ok a => cases (agree.same a).mp rfl
  | error failure =>
    cases failure with
    | exception what' => exact other what' rfl
    | outOfBounds => exact agree.defined.1
    | nullPointer => exact agree.defined.1

/-- The schemes agree exactly on whole addresses, when they read the same of
these and the unchecked one never throws what it reads. -/
theorem agree_iff_whole (what : String)
    (reads : ∀ family data, family.size ≤ data.length →
      ∃ x, read family data = .ok x ∧ read' family data = .ok x)
    (quiet : ∀ family data what', read family data ≠ .error (.exception what')) :
    Agree (unchecked order a read) (checked order what a read') ↔ Whole order a := by
  cases there : a.addrBuf with
  | none =>
    -- The one reader follows the null pointer.
    rw [unchecked_of_none there]
    exact iff_of_false (fun agree => agree.defined.1) (not_whole_of_none there)
  | some data =>
    have counted : data.length = a.addrLen.toNat := by rw [← a.counted, there, Option.getD_some]
    rw [whole_iff there]
    by_cases enough : saFamilySize ≤ data.length
    · rw [unchecked_eq there enough, checked_eq order there counted enough]
      -- An address of another family is refused by both.
      cases known : familyOf order data with
      | none =>
        refine iff_of_true (agree_exception _ _) ⟨enough, fun family is => ?_⟩
        cases is
      | some family =>
        dsimp only
        -- Behind the check of the length both read the same fields.
        split_ifs with truncated
        · refine iff_of_false (not_agree_exception _ (quiet family data)) fun ⟨_, whole⟩ => ?_
          exact absurd (whole family rfl) (Nat.not_le.mpr truncated)
        · obtain ⟨x, same, same'⟩ := reads family data (Nat.le_of_not_lt truncated)
          rw [same, same']
          refine iff_of_true ⟨⟨trivial, trivial⟩, fun _ => Iff.rfl⟩ ⟨enough, fun other is => ?_⟩
          obtain rfl := Option.some.inj is
          exact Nat.le_of_not_lt truncated
    · -- The other one says that there is no address.
      rw [unchecked_of_short there (Nat.lt_of_not_le enough)]
      exact iff_of_false (fun agree => agree.defined.1) fun ⟨there, _⟩ => enough there

end Schemes

/-! ### Both fields -/

/-- A port is missing only where the bytes are. -/
theorem readPort_ne_exception (data : List Byte) (what : String) :
    readPort order data ≠ .error (.exception what) := by
  rcases Nat.lt_or_ge data.length 4 with short | enough
  · have outside : readPort order data = .error .outOfBounds := by
      rw [readPort, readNtohs, readBytesAt_eq_outOfBounds (Or.inr short)]
      rfl
    rw [outside]
    exact fun threw => by cases threw
  · rw [readPort_eq order enough]
    exact fun threw => by cases threw

theorem agree_ports_iff (a : SockAddr) :
    Agree (getPortFromSockAddr order a) (a.getPort order) ↔ Whole order a := by
  refine agree_iff_whole _ (fun family data enough => ?_) fun _ => readPort_ne_exception
  have port : 4 ≤ data.length :=
    family.four_le_addrOffset.trans ((Nat.le_add_right _ _).trans
      (family.addrEnd_le_size.trans enough))
  exact ⟨_, readPort_eq order port, readPort_eq order port⟩

theorem agree_ips_iff (inetNtop : InetNtop) (a : SockAddr) :
    Agree (getIpFromSockAddr order inetNtop a) (a.getIpAddress order inetNtop) ↔
      Whole order a := by
  refine agree_iff_whole _ (fun family data enough => ?_) fun family data what' => ?_
  · have inside := family.addrEnd_le_size.trans enough
    rw [readIp_eq inetNtop inside family.strLen_le_inet6, readIp_eq inetNtop inside le_rfl]
    exact ⟨_, rfl, rfl⟩
  · rcases Nat.lt_or_ge data.length (family.addrOffset + family.addrSize) with short | inside
    · rw [readIp, readBytes, Buffer.slice?_eq_none data short]
      exact fun threw => by cases threw
    · rw [readIp_eq inetNtop inside family.strLen_le_inet6]
      exact fun threw => by cases threw

/-- Both pairs of readers agree exactly on the addresses that are as long as their
family says, and on those of another family that have one. -/
theorem readersAgree_iff (order : ByteOrder) (inetNtop : InetNtop) (a : SockAddr) :
    ReadersAgree order inetNtop a ↔ Whole order a :=
  ⟨fun agree => (agree_ports_iff a).mp agree.port,
    fun whole => ⟨(agree_ports_iff a).mpr whole, (agree_ips_iff inetNtop a).mpr whole⟩⟩

/-- The address 127.0.0.1 with port 12420, cut to the size of a pointer: the
readers in `util` return its port and its IP, those of the class throw. -/
theorem not_readersAgree_cut :
    ¬ ReadersAgree .little .dotted ⟨some [2, 0, 48, 132, 127, 0, 0, 1], 8, rfl, nofun⟩ := by
  intro agree
  have whole := ((agree_ports_iff _).mp agree.port).whole .inet (by decide)
  exact absurd whole (by decide)

end Fup
