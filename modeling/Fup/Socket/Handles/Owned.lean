/-
# The owners of descriptors

Each open descriptor belongs to one socket or to the rest of the program. A socket
gives its number back with `Close` and keeps it all the same, which does no harm
while the number is free. Once the kernel has given it out again, closing the socket
a second time or destroying it closes the descriptor of somebody else, and
`SetBlocking` may alter it.
-/

import Fup.Lib.Shares
import Fup.Socket.Handles

namespace Fup

namespace Process

/-! ### Ownership -/

/-- What a socket has to itself until `Close`: a descriptor under its handle,
blocking or not as it remembers. -/
def holding (socket : LiveSocket) (n : SocketHandle) : Option Descriptor :=
  if n = socket.handle ∧ socket.closed = false then some ⟨!socket.isBlocking⟩ else none

/-- The sockets and the rest of the program. -/
inductive Holder
  | socket (i : ℕ)
  | rest
  deriving DecidableEq

/-- What a holder has open, as it knows it. -/
def share (p : Process) : Holder → SocketHandle → Option Descriptor
  | .socket i, n => (p.sockets i).bind fun socket => holding socket n
  | .rest, n => p.rest n

/-- Every open descriptor belongs to exactly one socket, which knows whether it is
blocking, or to the rest of the program, which finds it as it left it; and what they
have not closed is open. -/
structure Owned (p : Process) : Prop where
  numbered : ∀ n, p.table n ≠ none → 0 ≤ n
  shared : SharedOut p.table p.share

/-- The number that the socket gave back means another descriptor by now. -/
def Reissued (p : Process) (socket : LiveSocket) : Prop :=
  socket.closed = true ∧ p.table socket.handle ≠ none

/-- Calls that leave every descriptor with its owner. A socket that was closed is
closed again or destroyed only while its number is free, and sets no flags of the
descriptor that has its number; a handle that is adopted is a blocking descriptor of
the rest of the program; and `accept` returns blocking descriptors. -/
def Orderly (p : Process) : SocketCall → Prop
  | .adopt _ _ sockfd _ _ => p.rest sockfd = some ⟨false⟩
  | .accept _ _ arrival _ => arrival.nHandle = -1 ∨ arrival.descriptor = ⟨false⟩
  | .setBlocking i blocking answer => ∀ socket, p.sockets i = some socket →
    p.Reissued socket → socket.isBlocking = blocking ∨ answer.status = -1 ∨
      p.table socket.handle = some ⟨!blocking⟩
  | .close i _ => ∀ socket, p.sockets i = some socket → ¬ p.Reissued socket
  | .destroy i => ∀ socket, p.sockets i = some socket → ¬ p.Reissued socket
  | _ => True

theorem holding_handle {socket : LiveSocket} (live : socket.closed = false) :
    holding socket socket.handle = some ⟨!socket.isBlocking⟩ :=
  if_pos ⟨rfl, live⟩

theorem holding_of_ne {socket : LiveSocket} {n : SocketHandle} (different : n ≠ socket.handle) :
    holding socket n = none :=
  if_neg fun held => different held.1

theorem holding_of_closed {socket : LiveSocket} (closed : socket.closed = true)
    (n : SocketHandle) : holding socket n = none :=
  if_neg fun held => Bool.false_ne_true (held.2.symm.trans closed)

theorem owned_start {rest : SocketHandle → Option Descriptor}
    (numbered : ∀ n, rest n ≠ none → 0 ≤ n) : (start rest).Owned where
  numbered := numbered
  shared := by
    constructor
    · intro n r
      constructor
      · intro there
        exact ⟨.rest, there⟩
      · rintro ⟨holder, held⟩
        cases holder with
        | socket i => cases held
        | rest => exact held
    · intro one other n r q held found
      cases one with
      | socket i => cases held
      | rest =>
        cases other with
        | socket j => cases found
        | rest => rfl

/-! ### One descriptor changes -/

section Change

variable {p : Process} {i : ℕ} {n : SocketHandle} {descriptor : Option Descriptor}

theorem setSocket_self (socket : Option LiveSocket) : (p.setSocket i socket).sockets i = socket :=
  Function.update_self (β := fun _ => Option LiveSocket) i socket p.sockets

theorem setSocket_of_ne {j : ℕ} (socket : Option LiveSocket) (different : j ≠ i) :
    (p.setSocket i socket).sockets j = p.sockets j :=
  Function.update_of_ne (β := fun _ => Option LiveSocket) different socket p.sockets

theorem share_setSocket_self (socket : Option LiveSocket) (m : SocketHandle) :
    (p.setSocket i socket).share (.socket i) m = socket.bind fun socket => holding socket m := by
  rw [share, setSocket_self]

theorem share_setSocket_of_ne {holder : Holder} (socket : Option LiveSocket) (m : SocketHandle)
    (different : holder ≠ .socket i) :
    (p.setSocket i socket).share holder m = p.share holder m := by
  cases holder with
  | rest => rfl
  | socket j =>
    have other : j ≠ i := fun same => different (congrArg Holder.socket same)
    rw [share, setSocket_of_ne _ other]
    rfl

theorem share_of_absent (absent : p.sockets i = none) (m : SocketHandle) :
    p.share (.socket i) m = none := by
  rw [share, absent]
  rfl

theorem share_of_present {socket : LiveSocket} (present : p.sockets i = some socket)
    (m : SocketHandle) : p.share (.socket i) m = holding socket m := by
  rw [share, present]
  rfl

theorem numbered_update {table : SocketHandle → Option Descriptor}
    (numbered : ∀ m, table m ≠ none → 0 ≤ m) (valid : descriptor ≠ none → 0 ≤ n)
    (m : SocketHandle) (there : Function.update table n descriptor m ≠ none) : 0 ≤ m := by
  by_cases same : m = n
  · subst same
    rw [Function.update_self] at there
    exact valid there
  · rw [Function.update_of_ne same] at there
    exact numbered m there

variable (owned : p.Owned)
include owned

/-- The descriptor of an object and the object change together. -/
theorem Owned.change {socket : Option LiveSocket} (valid : descriptor ≠ none → 0 ≤ n)
    (before : ∀ m, m ≠ n → p.share (.socket i) m = none)
    (alone : ∀ holder, holder ≠ .socket i → p.share holder n = none)
    (here : (socket.bind fun socket => holding socket n) = descriptor)
    (elsewhere : ∀ m, m ≠ n → (socket.bind fun socket => holding socket m) = none) :
    ((p.setTable n descriptor).setSocket i socket).Owned where
  numbered := numbered_update owned.numbered valid
  shared := by
    have entry (holder : Holder) :
        ((p.setTable n descriptor).setSocket i socket).share holder n =
          if holder = .socket i then descriptor else none := by
      split_ifs with same
      · rw [same, share_setSocket_self, here]
      · rw [share_setSocket_of_ne _ _ same]
        exact alone holder same
    have outside (holder : Holder) (m : SocketHandle) (different : m ≠ n) :
        ((p.setTable n descriptor).setSocket i socket).share holder m = p.share holder m := by
      by_cases same : holder = .socket i
      · rw [same, share_setSocket_self, elsewhere m different, before m different]
      · rw [share_setSocket_of_ne _ _ same]
        rfl
    exact owned.shared.set entry outside

/-- An object that has nothing changes, and has nothing afterwards. -/
theorem Owned.changeIdle {socket : Option LiveSocket}
    (before : ∀ m, p.share (.socket i) m = none)
    (after : ∀ m, (socket.bind fun socket => holding socket m) = none) :
    (p.setSocket i socket).Owned := by
  have same : (p.setSocket i socket).share = p.share := by
    funext holder m
    by_cases self : holder = .socket i
    · rw [self, share_setSocket_self, after, before]
    · exact share_setSocket_of_ne _ _ self
  refine ⟨owned.numbered, ?_⟩
  rw [same]
  exact owned.shared

/-- A descriptor of the rest of the program changes. -/
theorem Owned.changeRest (valid : descriptor ≠ none → 0 ≤ n)
    (alone : ∀ holder, holder ≠ .rest → p.share holder n = none) :
    ((p.setTable n descriptor).setRest n descriptor).Owned where
  numbered := numbered_update owned.numbered valid
  shared := by
    have entry (holder : Holder) :
        ((p.setTable n descriptor).setRest n descriptor).share holder n =
          if holder = .rest then descriptor else none := by
      cases holder with
      | rest => exact Function.update_self n descriptor p.rest
      | socket i => exact alone (.socket i) nofun
    have outside (holder : Holder) (m : SocketHandle) (different : m ≠ n) :
        ((p.setTable n descriptor).setRest n descriptor).share holder m = p.share holder m := by
      cases holder with
      | rest => exact Function.update_of_ne different descriptor p.rest
      | socket i => rfl
    exact owned.shared.set entry outside

end Change

/-! ### Sockets and what they hold -/

section Held

variable {p q : Process} {i : ℕ} {socket : LiveSocket} (owned : p.Owned)
  (present : p.sockets i = some socket)
include owned present

section

variable (live : socket.closed = false)
include live

/-- A socket that nobody closed has its handle open. -/
theorem Owned.open_of_live : p.table socket.handle = some ⟨!socket.isBlocking⟩ := by
  have held : p.share (.socket i) socket.handle = some ⟨!socket.isBlocking⟩ := by
    rw [share_of_present present, holding_handle live]
  exact owned.shared.there held

/-- Nobody else has it. -/
theorem Owned.alone_of_live (holder : Holder) (different : holder ≠ .socket i) :
    p.share holder socket.handle = none := by
  have held : p.share (.socket i) socket.handle = some ⟨!socket.isBlocking⟩ := by
    rw [share_of_present present, holding_handle live]
  exact owned.shared.others held different

theorem Owned.zero_le_of_live : 0 ≤ socket.handle := by
  refine owned.numbered socket.handle ?_
  rw [owned.open_of_live present live]
  exact Option.some_ne_none _

/-- Another object with the descriptor of the one it replaces. -/
theorem Owned.replace (other : LiveSocket) (same : other.handle = socket.handle)
    (stays : other.closed = false) :
    ((p.setTable socket.handle (some ⟨!other.isBlocking⟩)).setSocket i (some other)).Owned := by
  refine owned.change (fun _ => owned.zero_le_of_live present live) ?_
    (owned.alone_of_live present live) ?_ ?_
  · intro m different
    rw [share_of_present present, holding_of_ne different]
  · rw [← same]
    exact holding_handle stays
  · intro m different
    rw [← same] at different
    exact holding_of_ne different

/-- The descriptor is closed, and the object, if there is one left, knows it. -/
theorem Owned.release {other : Option LiveSocket}
    (nothing : ∀ m, (other.bind fun other => holding other m) = none) :
    ((p.setTable socket.handle none).setSocket i other).Owned := by
  refine owned.change (fun acts => absurd rfl acts) ?_ (owned.alone_of_live present live)
    (nothing socket.handle) fun m _ => nothing m
  intro m different
  rw [share_of_present present, holding_of_ne different]

end

end Held

/-- A socket that was closed has nothing, whatever its number means. -/
theorem share_of_closed {p : Process} {i : ℕ} {socket : LiveSocket}
    (present : p.sockets i = some socket) (closed : socket.closed = true) (m : SocketHandle) :
    p.share (.socket i) m = none := by
  rw [share_of_present present, holding_of_closed closed]

/-- Writing an entry that is there already. -/
theorem setTable_eq_self {p : Process} {n : SocketHandle} {descriptor : Option Descriptor}
    (there : p.table n = descriptor) : p.setTable n descriptor = p := by
  rw [setTable, ← there, Function.update_eq_self]

/-! ### Calls -/

section Calls

variable {p q : Process} {i : ℕ} (owned : p.Owned)
include owned

/-- A new object with a new descriptor. -/
theorem Owned.create (socket : LiveSocket) (live : socket.closed = false)
    (absent : p.sockets i = none) (free : p.Free socket.handle) :
    ((p.setTable socket.handle (some ⟨!socket.isBlocking⟩)).setSocket i (some socket)).Owned :=
  owned.change (fun _ => free.1) (fun m _ => share_of_absent absent m)
    (fun holder _ => owned.shared.free free.2 holder) (holding_handle live)
    fun _ different => holding_of_ne different

theorem Owned.construct {isTcp : Bool} {opening : Opening} {result : Except Failure Unit}
    (called : p.construct i isTcp opening = some (result, q)) : q.Owned := by
  rw [Process.construct] at called
  split_ifs at called with there err
  · cases called
    exact owned
  · split at called
    · cases called
      exact owned
    · split_ifs at called with free
      cases called
      exact owned.create ⟨⟨⟨isTcp, none⟩, _, true, _⟩, false⟩ rfl (not_not.mp there) free

theorem Owned.accept {j : ℕ} {arrival : Arrival} {strerror : String}
    {result : Except Failure Unit} (called : p.accept i j arrival strerror = some (result, q))
    (blocking : arrival.nHandle = -1 ∨ arrival.descriptor = ⟨false⟩) : q.Owned := by
  rw [Process.accept] at called
  split at called
  · rename_i socket listening absent
    split_ifs at called with failed free
    · cases called
      exact owned
    · cases called
      rw [blocking.resolve_left failed]
      exact owned.create (adopted _ _ _ _) rfl absent free.2
  · cases called

theorem Owned.setBlocking {blocking : Bool} {answer : Answer} {result : Except Failure Unit}
    (called : p.setBlocking i blocking answer = some (result, q))
    (spares : ∀ socket, p.sockets i = some socket → p.Reissued socket →
      socket.isBlocking = blocking ∨ answer.status = -1 ∨
        p.table socket.handle = some ⟨!blocking⟩) : q.Owned := by
  rw [Process.setBlocking] at called
  split at called
  · rename_i socket present
    by_cases same : socket.isBlocking = blocking
    · rw [if_pos same] at called
      cases called
      exact owned
    rw [if_neg same] at called
    obtain ⟨r, flagged, ended⟩ := Option.map_eq_some_iff.mp called
    rw [setFlags] at flagged
    by_cases failed : answer.status = -1
    · rw [if_pos failed] at ended
      cases ended
      split at flagged
      · rw [if_pos failed] at flagged
        cases flagged
        exact owned
      · rw [if_pos failed] at flagged
        cases flagged
        exact owned
    · rw [if_neg failed] at ended
      cases ended
      split at flagged
      · rename_i descriptor there
        rw [if_neg failed] at flagged
        cases flagged
        rcases Bool.eq_false_or_eq_true socket.closed with closed | live
        · -- The descriptor is somebody else's, and is as the call would make it.
          have reissued : p.Reissued socket := ⟨closed, by rw [there]; exact Option.some_ne_none _⟩
          have fits := ((spares socket present reissued).resolve_left same).resolve_left failed
          rw [setTable_eq_self fits]
          exact owned.changeIdle (share_of_closed present closed)
            fun m => holding_of_closed (by exact closed) m
        · exact owned.replace present live { socket with isBlocking := blocking } rfl live
      · rw [if_neg failed] at flagged
        cases flagged
  · cases called

theorem Owned.close {answer : Answer} {result : Except Failure Unit}
    (called : p.close i answer = some (result, q))
    (spares : ∀ socket, p.sockets i = some socket → ¬ p.Reissued socket) : q.Owned := by
  rw [Process.close] at called
  split at called
  · rename_i socket present
    have after : q = (p.setTable socket.handle none).setSocket i
        (some { socket with closed := true }) := by
      split_ifs at called <;> cases called <;> rfl
    rw [after]
    cases closed : socket.closed with
    | false => exact owned.release present closed fun m => holding_of_closed rfl m
    | true =>
      have free : p.table socket.handle = none := by
        by_contra there
        exact spares socket present ⟨closed, there⟩
      rw [setTable_eq_self free]
      exact owned.changeIdle (share_of_closed present closed) fun m => holding_of_closed rfl m
  · cases called

theorem Owned.destroy (called : p.destroy i = some q)
    (spares : ∀ socket, p.sockets i = some socket → ¬ p.Reissued socket) : q.Owned := by
  obtain ⟨socket, present, ended⟩ := Option.map_eq_some_iff.mp called
  cases closed : socket.closed with
  | false =>
    have valid : socket.handle ≠ invalidSocketHandle := by
      intro same
      have zero_le := owned.zero_le_of_live present closed
      rw [same] at zero_le
      exact absurd zero_le (by decide)
    rw [if_pos valid] at ended
    subst ended
    exact owned.release present closed fun _ => rfl
  | true =>
    have free : p.table socket.handle = none := by
      by_contra there
      exact spares socket present ⟨closed, there⟩
    rw [setTable_eq_self free, ite_self] at ended
    subst ended
    exact owned.changeIdle (share_of_closed present closed) fun _ => rfl

theorem Owned.connect {network : Network} {url port : String} {result : Except Failure Unit}
    (called : p.connect i network url port = some (result, q)) : q.Owned := by
  obtain ⟨socket, present, ended⟩ := Option.map_eq_some_iff.mp called
  cases ended
  -- The handle and the flag are as they were.
  rcases Bool.eq_false_or_eq_true socket.closed with closed | live
  · exact owned.changeIdle (share_of_closed present closed)
      fun m => holding_of_closed (by exact closed) m
  · have same := setTable_eq_self (owned.open_of_live present live)
    have replaced := owned.replace present live
      { socket with toSocket := (socket.toSocket.connect network url port).socket } rfl live
    rw [same] at replaced
    exact replaced

theorem Owned.adopt {isTcp : Bool} {sockfd : SocketHandle} {localAddr dest : Option SockAddr}
    (called : p.adopt i isTcp sockfd localAddr dest = some q)
    (others : p.rest sockfd = some ⟨false⟩) : q.Owned := by
  rw [Process.adopt] at called
  split_ifs at called with there
  cases called
  have held : p.share .rest sockfd = some ⟨false⟩ := others
  refine ⟨owned.numbered, ?_⟩
  have entry (holder : Holder) :
      ((p.setRest sockfd none).setSocket i (some (adopted isTcp sockfd localAddr dest))).share
        holder sockfd = if holder = .socket i then some ⟨false⟩ else none := by
    split_ifs with same
    · rw [same, share_setSocket_self]
      exact if_pos ⟨rfl, rfl⟩
    · rw [share_setSocket_of_ne _ _ same]
      cases holder with
      | rest => exact Function.update_self sockfd none p.rest
      | socket j =>
        have apart : p.share (.socket j) sockfd = none := by
          refine owned.shared.others held ?_
          exact Holder.noConfusion
        exact apart
  have outside (holder : Holder) (m : SocketHandle) (different : m ≠ sockfd) :
      ((p.setRest sockfd none).setSocket i (some (adopted isTcp sockfd localAddr dest))).share
        holder m = p.share holder m := by
    by_cases same : holder = .socket i
    · rw [same, share_setSocket_self, share_of_absent (not_not.mp there)]
      exact holding_of_ne different
    · rw [share_setSocket_of_ne _ _ same]
      cases holder with
      | rest => exact Function.update_of_ne different none p.rest
      | socket j => rfl
  exact owned.shared.pass entry outside (owned.shared.there held)

theorem Owned.opens {n : SocketHandle} {descriptor : Descriptor}
    (called : p.opens n descriptor = some q) : q.Owned := by
  rw [Process.opens] at called
  split_ifs at called with free
  cases called
  exact owned.changeRest (fun _ => free.1) fun holder _ => owned.shared.free free.2 holder

theorem Owned.closes {n : SocketHandle} (called : p.closes n = some q) : q.Owned := by
  rw [Process.closes] at called
  split_ifs at called with nothing
  cases called
  obtain ⟨descriptor, held⟩ := Option.ne_none_iff_exists'.mp nothing
  have held : p.share .rest n = some descriptor := held
  exact owned.changeRest (fun acts => absurd rfl acts) fun holder different =>
    owned.shared.others held different

end Calls

/-- Calls that leave every descriptor with its owner do. -/
theorem Owned.step {p q : Process} {call : SocketCall} (owned : p.Owned)
    (orderly : p.Orderly call) (moved : system.step p call = some q) : q.Owned := by
  cases call with
  | construct i isTcp opening =>
    obtain ⟨⟨result, q⟩, called, rfl⟩ := Option.map_eq_some_iff.mp moved
    exact owned.construct called
  | adopt i isTcp sockfd localAddr dest => exact owned.adopt moved orderly
  | accept i j arrival strerror =>
    obtain ⟨⟨result, q⟩, called, rfl⟩ := Option.map_eq_some_iff.mp moved
    exact owned.accept called orderly
  | connect i network url port =>
    obtain ⟨⟨result, q⟩, called, rfl⟩ := Option.map_eq_some_iff.mp moved
    exact owned.connect called
  | setBlocking i blocking answer =>
    obtain ⟨⟨result, q⟩, called, rfl⟩ := Option.map_eq_some_iff.mp moved
    exact owned.setBlocking called orderly
  | close i answer =>
    obtain ⟨⟨result, q⟩, called, rfl⟩ := Option.map_eq_some_iff.mp moved
    exact owned.close called orderly
  | destroy i => exact owned.destroy moved orderly
  | opens n descriptor => exact owned.opens moved
  | closes n => exact owned.closes moved

/-! ### Descriptors that are taken -/

section Taken

variable {p q : Process} {i : ℕ} {socket : LiveSocket} (owned : p.Owned)
  (present : p.sockets i = some socket)
include owned present

/-- A number that was given out again belongs to somebody else. -/
theorem Owned.owner_of_reissued (reissued : p.Reissued socket) :
    0 ≤ socket.handle ∧ ∃ holder descriptor, holder ≠ .socket i ∧
      p.table socket.handle = some descriptor ∧
        p.share holder socket.handle = some descriptor := by
  obtain ⟨closed, there⟩ := reissued
  obtain ⟨descriptor, found⟩ := Option.ne_none_iff_exists'.mp there
  obtain ⟨holder, held⟩ := (owned.shared.counted _ _).mp found
  refine ⟨owned.numbered _ there, holder, descriptor, ?_, found, held⟩
  rintro rfl
  rw [share_of_closed present closed] at held
  cases held

/-- The owner does not find it any more when the number means another descriptor, or
none. -/
theorem Owned.not_owned_of_reissued (reissued : p.Reissued socket)
    {entry : Option Descriptor} {other : Option LiveSocket}
    (changed : entry ≠ p.table socket.handle) :
    ¬ ((p.setTable socket.handle entry).setSocket i other).Owned := by
  intro after
  obtain ⟨-, holder, descriptor, different, found, held⟩ :=
    owned.owner_of_reissued present reissued
  have still : ((p.setTable socket.handle entry).setSocket i other).share holder socket.handle =
      some descriptor := by
    rw [share_setSocket_of_ne _ _ different]
    exact held
  have there : Function.update p.table socket.handle entry socket.handle = some descriptor :=
    after.shared.there still
  rw [Function.update_self, ← found] at there
  exact changed there

end Taken

/-- Any other call takes a descriptor from its owner, or alters it. -/
theorem Owned.not_step {p q : Process} {call : SocketCall} (owned : p.Owned)
    (wild : ¬ p.Orderly call) (moved : system.step p call = some q) : ¬ q.Owned := by
  cases call with
  | construct | connect | opens | closes => exact absurd trivial wild
  | adopt i isTcp sockfd localAddr dest =>
    intro after
    change p.adopt i isTcp sockfd localAddr dest = some q at moved
    rw [Process.adopt] at moved
    split_ifs at moved with there
    cases moved
    have held := share_setSocket_self (p := p.setRest sockfd none) (i := i)
      (some (adopted isTcp sockfd localAddr dest)) sockfd
    have found : p.table sockfd = some ⟨false⟩ :=
      after.shared.there (held.trans (if_pos ⟨rfl, rfl⟩))
    obtain ⟨holder, mine⟩ := (owned.shared.counted _ _).mp found
    cases holder with
    | rest => exact wild mine
    | socket j =>
      -- Another socket has the descriptor, and has it still.
      have different : Holder.socket j ≠ .socket i := by
        intro same
        rw [same, share_of_absent (not_not.mp there)] at mine
        cases mine
      have still := share_setSocket_of_ne (p := p.setRest sockfd none)
        (some (adopted isTcp sockfd localAddr dest)) sockfd different
      exact different (after.shared.apart (still.trans mine) (held.trans (if_pos ⟨rfl, rfl⟩)))
  | accept i j arrival strerror =>
    intro after
    obtain ⟨⟨result, q⟩, called, rfl⟩ := Option.map_eq_some_iff.mp moved
    obtain ⟨connected, flagged⟩ := not_or.mp wild
    rw [Process.accept] at called
    split at called
    · rename_i socket listening absent
      rw [if_neg connected] at called
      split_ifs at called
      cases called
      have held := share_setSocket_self
        (p := p.setTable arrival.nHandle (some arrival.descriptor)) (i := j)
        (some (adopted socket.isTcp arrival.nHandle socket.localAddr (some arrival.addr.sockAddr)))
        arrival.nHandle
      have there : Function.update p.table arrival.nHandle (some arrival.descriptor)
          arrival.nHandle = some ⟨false⟩ :=
        after.shared.there (held.trans (if_pos ⟨rfl, rfl⟩))
      rw [Function.update_self] at there
      exact flagged (Option.some.inj there)
    · cases called
  | setBlocking i blocking answer =>
    obtain ⟨⟨result, q⟩, called, rfl⟩ := Option.map_eq_some_iff.mp moved
    have ⟨socket, present, reissued, wrong⟩ : ∃ socket, p.sockets i = some socket ∧
        p.Reissued socket ∧ ¬ (socket.isBlocking = blocking ∨ answer.status = -1 ∨
          p.table socket.handle = some ⟨!blocking⟩) := by
      simpa only [Orderly, not_forall, exists_prop] using wild
    obtain ⟨differs, works, changes⟩ : socket.isBlocking ≠ blocking ∧ answer.status ≠ -1 ∧
        p.table socket.handle ≠ some ⟨!blocking⟩ := by
      simpa only [not_or] using wrong
    obtain ⟨descriptor, there⟩ := Option.ne_none_iff_exists'.mp reissued.2
    rw [Process.setBlocking, present] at called
    dsimp only at called
    rw [if_neg differs, setFlags, there] at called
    dsimp only at called
    rw [if_neg works, Option.map_some, if_neg works] at called
    cases called
    exact owned.not_owned_of_reissued present reissued (Ne.symm changes)
  | close i answer =>
    obtain ⟨⟨result, q⟩, called, rfl⟩ := Option.map_eq_some_iff.mp moved
    have ⟨socket, present, reissued⟩ : ∃ socket, p.sockets i = some socket ∧
        p.Reissued socket := by
      simpa only [Orderly, not_forall, not_not, exists_prop] using wild
    rw [Process.close, present] at called
    dsimp only at called
    rw [if_neg fun free => reissued.2 free.1] at called
    have after : q = (p.setTable socket.handle none).setSocket i
        (some { socket with closed := true }) := by
      split_ifs at called <;> cases called <;> rfl
    rw [after]
    exact owned.not_owned_of_reissued present reissued (Ne.symm reissued.2)
  | destroy i =>
    have ⟨socket, present, reissued⟩ : ∃ socket, p.sockets i = some socket ∧
        p.Reissued socket := by
      simpa only [Orderly, not_forall, not_not, exists_prop] using wild
    change p.destroy i = some q at moved
    rw [Process.destroy, present, Option.map_some] at moved
    have valid : socket.handle ≠ invalidSocketHandle := by
      intro same
      have zero_le := (owned.owner_of_reissued present reissued).1
      rw [same] at zero_le
      exact absurd zero_le (by decide)
    rw [if_pos valid] at moved
    cases moved
    exact owned.not_owned_of_reissued present reissued (Ne.symm reissued.2)

/-! ### Runs -/

/-- In every state of a run each open descriptor has its one owner, who finds it as
it left it, exactly when no call of the run acts on a number that was given back and
given out again. -/
theorem throughout_owned_iff {rest : SocketHandle → Option Descriptor} {calls : List SocketCall}
    {p : Process} (numbered : ∀ n, rest n ≠ none → 0 ≤ n)
    (run : system.exec (start rest) calls = some p) :
    system.Throughout Owned (start rest) calls ↔ system.Within Orderly (start rest) calls := by
  refine StepSystem.throughout_iff_within (owned_start numbered) ?_ (fun _ owned => owned) ?_ run
  · intro p call q owned orderly moved
    exact owned.step orderly moved
  · intro p call q owned wild moved
    exact owned.not_step wild moved

/-- `socket` answers with the third number. -/
def thirdNumber : Opening where
  err := 0
  res := [(.loopback, 3)]
  gaiStrerror := "Success"

/-- A socket that is closed and, once its number is that of a file, destroyed. -/
def closedThenDestroyed : List SocketCall :=
  [.construct 0 true thirdNumber, .close 0 ⟨0, "Success"⟩, .opens 3 ⟨false⟩, .destroy 0]

theorem not_throughout_owned_closedThenDestroyed :
    ¬ system.Throughout Owned (start fun _ => none) closedThenDestroyed := by
  intro throughout
  have within := (throughout_owned_iff (fun _ acts => absurd rfl acts)
    (rfl : system.exec (start fun _ => none) closedThenDestroyed = some _)).mp throughout
  have last := within (closedThenDestroyed.take 3) (.destroy 0) List.prefix_rfl _ rfl
  exact last _ rfl ⟨rfl, Option.some_ne_none _⟩

end Process

end Fup
