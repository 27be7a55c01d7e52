/-
# Connecting

`Socket::Connect` asks `getaddrinfo` for addresses and tries them one after the
other until a `connect` succeeds. What the two answer is a parameter. The
address that is kept as the destination is a local object that the loop never
assigns.
-/

import Fup.Utils.UdpDestination

namespace Fup

/-- An entry of the list of `getaddrinfo`: the bytes behind `ai_addr`. -/
structure AddrInfo where
  aiAddr : List Byte
  aiAddrlen : UInt32
  counted : aiAddr.length = aiAddrlen.toNat
  nonempty : aiAddr ≠ []

/-- `SOCK_STREAM` and `SOCK_DGRAM`. -/
inductive SockType
  | stream
  | dgram
  deriving DecidableEq

/-- The fields of `hints` that are set. -/
structure Hints where
  aiFamily : Family
  aiSocktype : SockType
  aiFlags : ℤ

/-- What the calls of `Connect` answer: `getaddrinfo` an error code and a list,
`connect` a status at its `k`-th call. -/
structure Network where
  getaddrinfo : String → String → Hints → ℤ × List AddrInfo
  connect : ℕ → AddrInfo → ℤ
  gaiStrerror : ℤ → String

/-- The members of a socket that `Connect` uses. -/
structure Socket where
  isTcp : Bool
  destAddr : Option SockAddr

/-- How a call of `Connect` ended, the socket after it, and the addresses it has
tried. -/
structure Connecting where
  result : Except Failure Unit
  socket : Socket
  tried : List AddrInfo

namespace Socket

/-- The loop over the list from its `k`-th call of `connect` on: the entries
tried, and the one at which it stopped. -/
def tries (connect : ℕ → AddrInfo → ℤ) : ℕ → List AddrInfo → List AddrInfo × Option AddrInfo
  | _, [] => ([], none)
  | k, p :: rest =>
    if connect k p ≠ -1 then ([p], some p)
    else
      let (tried, stopped) := tries connect (k + 1) rest
      (p :: tried, stopped)

def hints (s : Socket) : Hints :=
  { aiFamily := .inet, aiSocktype := if s.isTcp then .stream else .dgram, aiFlags := 0 }

def connect (network : Network) (s : Socket) (url port : String) : Connecting :=
  let (err, res) := network.getaddrinfo url port s.hints
  if err ≠ 0 then
    { result := .error (.exception
        ("Socket::Connect: An error occured on getaddrinfo: " ++ network.gaiStrerror err))
      socket := s
      tried := [] }
  else
    let sockAddr := SockAddr.empty
    let (tried, p) := tries network.connect 0 res
    match p with
    | none =>
      { result := .error (.exception
          ("Socket::Connect: An error occured while conneting: " ++ network.gaiStrerror err))
        socket := s
        tried := tried }
    | some _ =>
      match sockAddr.copy with
      | .ok copy =>
        { result := .ok (), socket := { s with destAddr := some copy }, tried := tried }
      | .error failure => { result := .error failure, socket := s, tried := tried }

/-! ### The loop -/

/-- Every call of `connect` for these entries fails, the first being the `k`-th. -/
def AllFail (connect : ℕ → AddrInfo → ℤ) (k : ℕ) (entries : List AddrInfo) : Prop :=
  ∀ j p, entries[j]? = some p → connect (k + j) p = -1

theorem allFail_cons_iff {connect : ℕ → AddrInfo → ℤ} {k : ℕ} {p : AddrInfo}
    {rest : List AddrInfo} :
    AllFail connect k (p :: rest) ↔ connect k p = -1 ∧ AllFail connect (k + 1) rest := by
  constructor
  · intro fail
    refine ⟨fail 0 p rfl, fun j q there => ?_⟩
    rw [Nat.add_right_comm]
    exact fail (j + 1) q there
  · rintro ⟨first, others⟩ j q there
    cases j with
    | zero => exact Option.some.inj there ▸ first
    | succ j =>
      have later := others j q there
      rwa [Nat.add_right_comm] at later

/-- The loop runs off the list exactly when every call fails. -/
theorem tries_eq_none_iff (connect : ℕ → AddrInfo → ℤ) (k : ℕ) (entries : List AddrInfo) :
    (tries connect k entries).2 = none ↔ AllFail connect k entries := by
  induction entries generalizing k with
  | nil => exact iff_of_true rfl nofun
  | cons p rest ih =>
    rw [tries, allFail_cons_iff]
    split_ifs with connects
    · exact iff_of_false nofun fun fail => connects fail.1
    · exact (ih (k + 1)).trans (and_iff_right (not_not.mp connects)).symm

/-- Otherwise it stops at the first entry whose call succeeds, and has tried the
entries up to there. -/
theorem tries_stopped {connect : ℕ → AddrInfo → ℤ} {k : ℕ} {entries : List AddrInfo}
    {p : AddrInfo} (stopped : (tries connect k entries).2 = some p) :
    ∃ before after, entries = before ++ p :: after ∧ AllFail connect k before ∧
      connect (k + before.length) p ≠ -1 ∧ (tries connect k entries).1 = before ++ [p] := by
  induction entries generalizing k with
  | nil => cases stopped
  | cons q rest ih =>
    rw [tries] at stopped ⊢
    split_ifs at stopped ⊢ with connects
    · obtain rfl := Option.some.inj stopped
      exact ⟨[], rest, rfl, nofun, connects, rfl⟩
    · obtain ⟨before, after, split, fail, last, tried⟩ := ih stopped
      refine ⟨q :: before, after, ?_, ?_, ?_, ?_⟩
      · rw [split, List.cons_append]
      · exact allFail_cons_iff.mpr ⟨not_not.mp connects, fail⟩
      · rwa [List.length_cons, Nat.add_comm before.length, ← Nat.add_assoc]
      · exact congrArg (q :: ·) tried

/-! ### The destination -/

variable (network : Network) (s : Socket) (url port : String)

/-- The list that `getaddrinfo` returns for the call. -/
def entries : List AddrInfo := (network.getaddrinfo url port s.hints).2

/-- The entry is the first one of the list that connects, and those tried are the
ones up to it. -/
def StopsAt (p : AddrInfo) (tried : List AddrInfo) : Prop :=
  ∃ before after, s.entries network url port = before ++ p :: after ∧
    AllFail network.connect 0 before ∧ network.connect before.length p ≠ -1 ∧
      tried = before ++ [p]

/-- A call that returns has tried the entries up to the first one that connects,
and keeps its address; a call that throws leaves the socket as it was. -/
structure RecordsDestination : Prop where
  returned : (s.connect network url port).result = .ok () → ∃ p destination,
    s.StopsAt network url port p (s.connect network url port).tried ∧
      (s.connect network url port).socket.destAddr = some destination ∧
        destination.addrBuf = some p.aiAddr ∧ destination.addrLen = p.aiAddrlen
  threw : ∀ failure, (s.connect network url port).result = .error failure →
    (s.connect network url port).socket.destAddr = s.destAddr

/-- Nobody can be connected to: `getaddrinfo` fails, or `connect` fails for every
entry. -/
def Unconnected : Prop :=
  (network.getaddrinfo url port s.hints).1 ≠ 0 ∨
    AllFail network.connect 0 (s.entries network url port)

variable {network s url port}

/-- Then the call throws and the socket is what it was. -/
theorem connect_of_unconnected (unconnected : s.Unconnected network url port) :
    (∃ what, (s.connect network url port).result = .error (.exception what)) ∧
      (s.connect network url port).socket = s := by
  rw [connect]
  dsimp only
  split_ifs with err
  · exact ⟨⟨_, rfl⟩, rfl⟩
  · have ended : (tries network.connect 0 (network.getaddrinfo url port s.hints).2).2 = none :=
      (tries_eq_none_iff network.connect 0 _).mpr (unconnected.resolve_left err)
    rw [ended]
    exact ⟨⟨_, rfl⟩, rfl⟩

/-- Otherwise it stops at the first entry that connects and returns, and the
destination is the address that the loop never assigned. -/
theorem connect_of_connected (connected : ¬ s.Unconnected network url port) :
    (s.connect network url port).result = .ok () ∧
      (s.connect network url port).socket.destAddr = some .empty ∧
        ∃ p, s.StopsAt network url port p (s.connect network url port).tried := by
  obtain ⟨err, opened⟩ := not_or.mp connected
  rw [connect]
  dsimp only
  rw [if_neg err]
  cases stopped : (tries network.connect 0 (network.getaddrinfo url port s.hints).2).2 with
  | none => exact absurd ((tries_eq_none_iff network.connect 0 _).mp stopped) opened
  | some p =>
    obtain ⟨before, after, split, fail, last, tried⟩ := tries_stopped stopped
    rw [Nat.zero_add] at last
    rw [SockAddr.copy_eq]
    exact ⟨rfl, rfl, p, before, after, split, fail, last, tried⟩

/-- The upload path follows the null pointer of that destination. -/
theorem createUdpDestination_of_connect (order : ByteOrder)
    (returned : (s.connect network url port).result = .ok ()) (udpPort : Port) :
    ∃ destination, (s.connect network url port).socket.destAddr = some destination ∧
      createUdpDestinationAddressFromTcp order destination udpPort = .error .nullPointer := by
  have connected : ¬ s.Unconnected network url port := by
    intro unconnected
    obtain ⟨⟨what, threw⟩, -⟩ := connect_of_unconnected unconnected
    cases threw.symm.trans returned
  exact ⟨_, (connect_of_connected connected).2.1, rfl⟩

/-- The destination is recorded exactly when there is none to record. -/
theorem recordsDestination_iff (network : Network) (s : Socket) (url port : String) :
    s.RecordsDestination network url port ↔ s.Unconnected network url port := by
  constructor
  · intro records
    by_contra connected
    obtain ⟨returned, destAddr, -⟩ := connect_of_connected connected
    obtain ⟨p, destination, -, kept, addrBuf, -⟩ := records.returned returned
    -- The destination of a call that returns is empty, and an entry of the list is not.
    obtain rfl := Option.some.inj (destAddr.symm.trans kept)
    cases addrBuf
  · intro unconnected
    obtain ⟨⟨what, threw⟩, same⟩ := connect_of_unconnected unconnected
    exact ⟨fun returned => (nomatch threw.symm.trans returned),
      fun _ _ => congrArg Socket.destAddr same⟩

/-- The loopback address. -/
def loopback : AddrInfo :=
  ⟨[2, 0, 48, 132, 127, 0, 0, 1, 0, 0, 0, 0, 0, 0, 0, 0], 16, rfl, nofun⟩

/-- A host with this address, which accepts. -/
def accepting : Network where
  getaddrinfo := fun _ _ _ => (0, [loopback])
  connect := fun _ _ => 0
  gaiStrerror := fun _ => "Success"

theorem not_recordsDestination_accepting :
    ¬ (⟨true, none⟩ : Socket).RecordsDestination accepting "localhost" "12420" := by
  intro records
  obtain ⟨p, destination, -, kept, addrBuf, -⟩ := records.returned rfl
  obtain rfl : SockAddr.empty = destination := Option.some.inj kept
  cases addrBuf

end Socket

end Fup
