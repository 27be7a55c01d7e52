/-
# The block of the file mutex

A worker holds the file mutex while it seeks and reads. Here the block is cut
into its steps: taking the mutex, the seek, the read, and the end of the scope,
each of which may be followed by a step of anyone. The seek and the read ask
nothing of the mutex; that nobody comes between them follows from who holds it.

Every run is followed by a run in which the block is one step, made at the read.
-/

import Fup.Client.Transmission.Chunks

namespace Fup.Client

/-- Where a worker is inside the block. -/
inductive FilePc
  | locked
  | sought
  /-- Behind the read, with the bytes that `gcount` counts. -/
  | got (bytes : List Byte)
  deriving DecidableEq

/-- A worker is in front of the block, or inside it. -/
def TransmitPc.reading : TransmitPc → Bool
  | .read _ => true
  | _ => false

/-- A transmission, the workers inside the block, which are still counted as in
front of it there, and the owner of the file mutex. -/
structure FileAccess (ι : Type) where
  shared : Transmission ι
  inside : ι → Option FilePc
  fileMutex : Option ι

/-- A step: one outside the block, or one of a worker's in it. -/
inductive FileMove (ι : Type)
  | outside (move : Move ι)
  | lock (w : ι)
  | seekg (w : ι)
  | read (w : ι)
  | unlock (w : ι)

namespace FileAccess

variable {ι : Type}

/-! ### Steps -/

section Steps

variable [DecidableEq ι]

/-- A worker is somewhere else in the block. -/
def goto (s : FileAccess ι) (w : ι) (pc : Option FilePc) : FileAccess ι :=
  { s with inside := Function.update s.inside w pc }

/-- A step outside the block. -/
def outside (sender : Sender) (s : FileAccess ι) : Move ι → Option (FileAccess ι)
  | .listen answer => (s.shared.listen answer).map fun shared => { s with shared := shared }
  | .transmit w sendFault =>
    if (s.shared.workers w).reading then none
    else (s.shared.transmit sender w sendFault).map fun shared => { s with shared := shared }

def lock (s : FileAccess ι) (w : ι) : Option (FileAccess ι) :=
  match s.shared.workers w, s.inside w, s.fileMutex with
  | .read _, none, none => some { s.goto w (some .locked) with fileMutex := some w }
  | _, _, _ => none

def seekg (s : FileAccess ι) (w : ι) : Option (FileAccess ι) :=
  match s.shared.workers w, s.inside w with
  | .read nextSeqId, some .locked =>
    let stream := s.shared.fileStream.seekg (nextSeqId * packetPayloadSize)
    some { s.goto w (some .sought) with shared := { s.shared with fileStream := stream } }
  | _, _ => none

def read (s : FileAccess ι) (w : ι) : Option (FileAccess ι) :=
  match s.shared.workers w, s.inside w with
  | .read _, some .sought =>
    let read := s.shared.fileStream.read packetPayloadSize
    some { s.goto w (some (.got read.2)) with shared := { s.shared with fileStream := read.1 } }
  | _, _ => none

/-- The next block behind the read. -/
def behind (nextSeqId : ℕ) (bytes : List Byte) : TransmitPc :=
  if bytes.length = 0 then .exited .noMoreData else .send nextSeqId (payloadBuffer bytes)

/-- The end of the scope, on either way out of it. -/
def unlock (s : FileAccess ι) (w : ι) : Option (FileAccess ι) :=
  match s.shared.workers w, s.inside w with
  | .read nextSeqId, some (.got bytes) =>
    some { s.goto w none with
      shared := s.shared.goto w (behind nextSeqId bytes)
      fileMutex := none }
  | _, _ => none

end Steps

def start (file : List Byte) (packetCount : ℕ) : FileAccess ι :=
  ⟨.start file packetCount, fun _ => none, none⟩

variable [DecidableEq ι]

/-- All interleavings of the workers and the listener. -/
def system (sender : Sender) (file : List Byte) (packetCount : ℕ) :
    StepSystem (FileAccess ι) (FileMove ι) where
  init s := s = start file packetCount
  step s move :=
    match move with
    | .outside move => s.outside sender move
    | .lock w => s.lock w
    | .seekg w => s.seekg w
    | .read w => s.read w
    | .unlock w => s.unlock w

/-! ### What a step does -/

/-- What a step does, by its kind. -/
inductive Accesses (sender : Sender) (s : FileAccess ι) : FileMove ι → FileAccess ι → Prop
  | listens (answer : Answer) (shared : Transmission ι)
    (listened : s.shared.listen answer = some shared) :
    Accesses sender s (.outside (.listen answer)) { s with shared := shared }
  | transmits (w : ι) (sendFault : Option Failure) (shared : Transmission ι)
    (elsewhere : (s.shared.workers w).reading = false)
    (transmitted : s.shared.transmit sender w sendFault = some shared) :
    Accesses sender s (.outside (.transmit w sendFault)) { s with shared := shared }
  | locks (w : ι) (nextSeqId : ℕ) (located : s.shared.workers w = .read nextSeqId)
    (free : s.fileMutex = none) :
    Accesses sender s (.lock w) { s.goto w (some .locked) with fileMutex := some w }
  | seeks (w : ι) (nextSeqId : ℕ) (located : s.shared.workers w = .read nextSeqId)
    (place : s.inside w = some .locked) :
    Accesses sender s (.seekg w) { s.goto w (some .sought) with
      shared := { s.shared with
        fileStream := s.shared.fileStream.seekg (nextSeqId * packetPayloadSize) } }
  | reads (w : ι) (nextSeqId : ℕ) (located : s.shared.workers w = .read nextSeqId)
    (place : s.inside w = some .sought) :
    Accesses sender s (.read w)
      { s.goto w (some (.got (s.shared.fileStream.read packetPayloadSize).2)) with
        shared := { s.shared with
          fileStream := (s.shared.fileStream.read packetPayloadSize).1 } }
  | unlocks (w : ι) (nextSeqId : ℕ) (bytes : List Byte)
    (located : s.shared.workers w = .read nextSeqId) (place : s.inside w = some (.got bytes)) :
    Accesses sender s (.unlock w) { s.goto w none with
      shared := s.shared.goto w (behind nextSeqId bytes)
      fileMutex := none }

theorem accesses_of_step {sender : Sender} {file : List Byte} {packetCount : ℕ}
    {s t : FileAccess ι} {move : FileMove ι}
    (moved : (system sender file packetCount).step s move = some t) :
    Accesses sender s move t := by
  -- Only a worker in the place that the action asks for takes it.
  cases move with
  | outside move =>
    have moved : s.outside sender move = some t := moved
    cases move with
    | listen answer =>
      obtain ⟨shared, listened, rfl⟩ := Option.map_eq_some_iff.mp moved
      exact .listens answer shared listened
    | transmit w sendFault =>
      obtain ⟨elsewhere, moved⟩ := Option.ite_none_left_eq_some.mp moved
      obtain ⟨shared, transmitted, rfl⟩ := Option.map_eq_some_iff.mp moved
      exact .transmits w sendFault shared (Bool.eq_false_iff.mpr elsewhere) transmitted
  | lock w =>
    have moved : s.lock w = some t := moved
    unfold lock at moved
    split at moved
    case h_1 nextSeqId located _ free =>
      exact Option.some.inj moved ▸ .locks w nextSeqId located free
    case h_2 => cases moved
  | seekg w =>
    have moved : s.seekg w = some t := moved
    unfold seekg at moved
    split at moved
    case h_1 nextSeqId located place =>
      exact Option.some.inj moved ▸ .seeks w nextSeqId located place
    case h_2 => cases moved
  | read w =>
    have moved : s.read w = some t := moved
    unfold read at moved
    split at moved
    case h_1 nextSeqId located place =>
      exact Option.some.inj moved ▸ .reads w nextSeqId located place
    case h_2 => cases moved
  | unlock w =>
    have moved : s.unlock w = some t := moved
    unfold unlock at moved
    split at moved
    case h_1 nextSeqId bytes located place =>
      exact Option.some.inj moved ▸ .unlocks w nextSeqId bytes located place
    case h_2 => cases moved

end FileAccess

/-! ### Steps outside the block -/

namespace Transmission

variable {ι : Type}

/-- The same with other workers and another stream. -/
def overlay (s : Transmission ι) (workers : ι → TransmitPc) (fileStream : InputStream Byte) :
    Transmission ι :=
  { s with workers := workers, fileStream := fileStream }

/-- The listener sees neither the workers nor the stream. -/
theorem listen_overlay (s : Transmission ι) (workers : ι → TransmitPc)
    (fileStream : InputStream Byte) (answer : Answer) :
    (s.overlay workers fileStream).listen answer =
      (s.listen answer).map fun t => t.overlay workers fileStream := by
  -- Handling a message looks at the table and the listener alone.
  have handles (message : Message) : (s.overlay workers fileStream).handle message =
      (s.handle message).overlay workers fileStream := by
    unfold handle
    cases dispatch message with
    | resend seqId =>
      change (if seqId.toNat < s.packetsToSend.length then _ else _) = _
      dsimp only
      split_ifs <;> rfl
    | _ => rfl
  have located : (s.overlay workers fileStream).listener = s.listener := rfl
  unfold listen
  rw [located]
  cases place : s.listener with
  | entering =>
    cases answer with
    | setup fault => cases fault <;> rfl
    | _ => rfl
  | selecting =>
    cases answer with
    | received outcome => cases outcome <;> rfl
    | _ => rfl
  | handling message =>
    cases answer with
    | internal => exact congrArg some (handles message)
    | _ => rfl
  | checkStop => cases answer <;> rfl
  | ended failure => cases answer <;> rfl

theorem listen_frame {s t : Transmission ι} {answer : Answer}
    (listened : s.listen answer = some t) :
    t.workers = s.workers ∧ t.fileStream = s.fileStream := by
  cases listens_of_listen listened <;> exact ⟨rfl, rfl⟩

variable [DecidableEq ι]

theorem goto_overlay (s : Transmission ι) (w : ι) (pc : TransmitPc) (workers : ι → TransmitPc)
    (fileStream : InputStream Byte) :
    (s.overlay workers fileStream).goto w pc =
      (s.goto w pc).overlay (Function.update workers w ((s.goto w pc).workers w)) fileStream := by
  rw [workers_goto, if_pos rfl]
  rfl

/-- A worker outside the block sees itself alone, and not the stream. -/
theorem transmit_overlay {sender : Sender} {s : Transmission ι} {w : ι} {sendFault : Option Failure}
    {workers : ι → TransmitPc} (elsewhere : (s.workers w).reading = false)
    (same : workers w = s.workers w) (fileStream : InputStream Byte) :
    (s.overlay workers fileStream).transmit sender w sendFault =
      (s.transmit sender w sendFault).map fun t =>
        t.overlay (Function.update workers w (t.workers w)) fileStream := by
  have located : (s.overlay workers fileStream).workers w = s.workers w := same
  unfold transmit
  rw [located]
  cases place : s.workers w with
  | read nextSeqId =>
    rw [place] at elsewhere
    cases elsewhere
  | exited exit => rfl
  | checkStop => exact congrArg some (goto_overlay s w _ workers fileStream)
  | choose => exact congrArg some (goto_overlay s w _ workers fileStream)
  | send nextSeqId buffer => exact congrArg some (by rw [goto_overlay]; rfl)
  | mark nextSeqId => exact congrArg some (by rw [goto_overlay]; rfl)

theorem transmit_frame {sender : Sender} {s t : Transmission ι} {w : ι}
    {sendFault : Option Failure} (elsewhere : (s.workers w).reading = false)
    (transmitted : s.transmit sender w sendFault = some t) :
    (∀ v ≠ w, t.workers v = s.workers v) ∧ t.fileStream = s.fileStream := by
  have others (pc : TransmitPc) (v : ι) (other : v ≠ w) : (s.goto w pc).workers v = s.workers v :=
    (workers_goto s w pc v).trans (if_neg other)
  cases transmits_of_transmit transmitted with
  | runsDry nextSeqId located => rw [located] at elsewhere; cases elsewhere
  | reads nextSeqId located => rw [located] at elsewhere; cases elsewhere
  | _ => exact ⟨others _, rfl⟩

end Transmission

namespace FileAccess

variable {ι : Type}

/-! ### The block as one step -/

/-- Where a worker is when the block is one step, made at the read. -/
def atOnce (inside : Option FilePc) (pc : TransmitPc) : TransmitPc :=
  match inside, pc with
  | some (.got bytes), .read nextSeqId => behind nextSeqId bytes
  | _, _ => pc

/-- The workers in the block hold the mutex, and a transmission has got as far
with its blocks in one step: its stream has not been moved by a seek alone. -/
structure Follows (s : FileAccess ι) (u : Transmission ι) : Prop where
  owner : ∀ w, s.inside w ≠ none → s.fileMutex = some w
  reading : ∀ w, s.inside w ≠ none → ∃ nextSeqId, s.shared.workers w = .read nextSeqId
  same : u = s.shared.overlay u.workers u.fileStream
  workers : ∀ w, u.workers w = atOnce (s.inside w) (s.shared.workers w)
  stream : (∀ w, s.inside w ≠ some .sought) → s.shared.fileStream = u.fileStream
  sought : ∀ w nextSeqId, s.inside w = some .sought → s.shared.workers w = .read nextSeqId →
    s.shared.fileStream = u.fileStream.seekg (nextSeqId * packetPayloadSize)

theorem follows_start (file : List Byte) (packetCount : ℕ) :
    Follows (start file packetCount : FileAccess ι) (.start file packetCount) where
  owner := fun _ there => absurd rfl there
  reading := fun _ there => absurd rfl there
  same := rfl
  workers := fun _ => rfl
  stream := fun _ => rfl
  sought := fun _ _ place => nomatch place

/-- It is enough to look at the worker inside, when there is no other. -/
theorem follows_of_alone {s : FileAccess ι} {u : Transmission ι} {w : ι}
    (alone : ∀ v ≠ w, s.inside v = none) (owner : s.inside w ≠ none → s.fileMutex = some w)
    (reading : s.inside w ≠ none → ∃ nextSeqId, s.shared.workers w = .read nextSeqId)
    (same : u = s.shared.overlay u.workers u.fileStream)
    (workers : ∀ v, u.workers v = atOnce (s.inside v) (s.shared.workers v))
    (stream : s.inside w ≠ some .sought → s.shared.fileStream = u.fileStream)
    (sought : ∀ nextSeqId, s.inside w = some .sought → s.shared.workers w = .read nextSeqId →
      s.shared.fileStream = u.fileStream.seekg (nextSeqId * packetPayloadSize)) :
    Follows s u := by
  -- Whoever is inside is `w`.
  have here {v : ι} (there : s.inside v ≠ none) : v = w := by
    by_contra other
    exact there (alone v other)
  constructor
  · intro v there
    exact here there ▸ owner (here there ▸ there)
  · intro v there
    exact here there ▸ reading (here there ▸ there)
  · exact same
  · exact workers
  · exact fun outside => stream (outside w)
  · intro v nextSeqId place located
    have there : s.inside v ≠ none := place ▸ Option.some_ne_none _
    obtain rfl := here there
    exact sought nextSeqId place located

namespace Follows

variable {s : FileAccess ι} {u : Transmission ι} (follows : Follows s u)

include follows

/-- With one worker inside there is no other. -/
theorem alone {w : ι} (here : s.inside w ≠ none) : ∀ v ≠ w, s.inside v = none := by
  intro v other
  by_contra there
  exact other (Option.some.inj ((follows.owner v there).symm.trans (follows.owner w here)))

/-- With a worker elsewhere in the block nobody is between the seek and the read. -/
theorem stream_eq {w : ι} (here : s.inside w ≠ none) (elsewhere : s.inside w ≠ some .sought) :
    s.shared.fileStream = u.fileStream := by
  apply follows.stream
  intro v place
  by_cases same : v = w
  · exact elsewhere (same ▸ place)
  · exact nomatch (follows.alone here v same).symm.trans place

/-- A worker that is not reading is not inside. -/
theorem inside_eq_none {w : ι} (elsewhere : (s.shared.workers w).reading = false) :
    s.inside w = none := by
  by_contra there
  obtain ⟨nextSeqId, located⟩ := follows.reading w there
  rw [located] at elsewhere
  cases elsewhere

theorem listens {answer : Answer} {shared : Transmission ι}
    (listened : s.shared.listen answer = some shared) :
    ∃ v, u.listen answer = some v ∧ Follows { s with shared := shared } v := by
  obtain ⟨workers, stream⟩ := Transmission.listen_frame listened
  refine ⟨shared.overlay u.workers u.fileStream, ?_, ?_⟩
  · rw [follows.same, Transmission.listen_overlay, listened]
    rfl
  · constructor
    · exact follows.owner
    · exact workers ▸ follows.reading
    · rfl
    · exact workers ▸ follows.workers
    · exact fun outside => stream.trans (follows.stream outside)
    · intro w nextSeqId place located
      exact stream.trans (follows.sought w nextSeqId place (workers ▸ located))

variable [DecidableEq ι]

theorem transmits {sender : Sender} {w : ι} {sendFault : Option Failure}
    {shared : Transmission ι} (elsewhere : (s.shared.workers w).reading = false)
    (transmitted : s.shared.transmit sender w sendFault = some shared) :
    ∃ v, u.transmit sender w sendFault = some v ∧ Follows { s with shared := shared } v := by
  obtain ⟨others, stream⟩ := Transmission.transmit_frame elsewhere transmitted
  have out := follows.inside_eq_none elsewhere
  -- Whoever is inside is another worker.
  have other {v : ι} (there : s.inside v ≠ none) : v ≠ w := fun same => there (same ▸ out)
  have here : u.workers w = s.shared.workers w := by
    rw [follows.workers, out]
    rfl
  refine ⟨shared.overlay (Function.update u.workers w (shared.workers w)) u.fileStream, ?_, ?_⟩
  · rw [follows.same, Transmission.transmit_overlay elsewhere here, transmitted]
    rfl
  · constructor
    · exact follows.owner
    · intro v there
      exact others v (other there) ▸ follows.reading v there
    · rfl
    · intro v
      refine (Function.update_apply u.workers w _ v).trans ?_
      split_ifs with same
      · rw [same, out]
        rfl
      · exact others v same ▸ follows.workers v
    · exact fun outside => stream.trans (follows.stream outside)
    · intro v nextSeqId place located
      have there : s.inside v ≠ none := place ▸ Option.some_ne_none _
      rw [others v (other there)] at located
      exact stream.trans (follows.sought v nextSeqId place located)

end Follows

section Inside

variable [DecidableEq ι] {s : FileAccess ι} {u : Transmission ι} {w : ι} {nextSeqId : ℕ}

theorem inside_goto (pc : Option FilePc) (v : ι) :
    (s.goto w pc).inside v = if v = w then pc else s.inside v :=
  Function.update_apply s.inside w pc v

theorem inside_goto_self (pc : Option FilePc) : (s.goto w pc).inside w = pc :=
  (inside_goto pc w).trans (if_pos rfl)

/-- With nobody else inside, nobody else is inside after a worker has moved. -/
theorem alone_goto (alone : ∀ v ≠ w, s.inside v = none) (pc : Option FilePc) :
    ∀ v ≠ w, (s.goto w pc).inside v = none := by
  intro v other
  rw [inside_goto, if_neg other, alone v other]

/-- The move makes no difference where the blocks are one step, when it is not
seen there. -/
theorem workers_goto (follows : Follows s u) {pc : Option FilePc}
    (unseen : atOnce pc (s.shared.workers w) = atOnce (s.inside w) (s.shared.workers w)) (v : ι) :
    u.workers v = atOnce ((s.goto w pc).inside v) (s.shared.workers v) := by
  rw [follows.workers, inside_goto]
  split_ifs with here
  · rw [here, unseen]
  · rfl

theorem Follows.locks (follows : Follows s u) (located : s.shared.workers w = .read nextSeqId)
    (free : s.fileMutex = none) :
    Follows { s.goto w (some .locked) with fileMutex := some w } u := by
  -- Nobody is inside while the mutex is free.
  have nobody (v : ι) : s.inside v = none := by
    by_contra there
    exact nomatch free.symm.trans (follows.owner v there)
  have unseen : atOnce (some .locked) (s.shared.workers w) =
      atOnce (s.inside w) (s.shared.workers w) := by
    rw [nobody w]
    rfl
  apply follows_of_alone
  · exact alone_goto (fun v _ => nobody v) _
  · exact fun _ => rfl
  · exact fun _ => ⟨nextSeqId, located⟩
  · exact follows.same
  · exact workers_goto follows unseen
  · exact fun _ => follows.stream fun v place => nomatch (nobody v).symm.trans place
  · exact fun _ place => nomatch (inside_goto_self _).symm.trans place

theorem Follows.seeks (follows : Follows s u) (located : s.shared.workers w = .read nextSeqId)
    (place : s.inside w = some .locked) :
    Follows { s.goto w (some .sought) with
      shared := { s.shared with
        fileStream := s.shared.fileStream.seekg (nextSeqId * packetPayloadSize) } } u := by
  have here : s.inside w ≠ none := place ▸ Option.some_ne_none _
  have stream := follows.stream_eq here (by rw [place]; exact nofun)
  -- Inside the block the worker still seems to be in front of it.
  have unseen : atOnce (some .sought) (s.shared.workers w) =
      atOnce (s.inside w) (s.shared.workers w) := by
    rw [place]
    rfl
  apply follows_of_alone
  · exact alone_goto (follows.alone here) _
  · exact fun _ => follows.owner w here
  · exact fun _ => ⟨nextSeqId, located⟩
  · exact follows.same
  · exact workers_goto follows unseen
  · exact fun elsewhere => absurd (inside_goto_self _) elsewhere
  · intro i _ reading
    obtain rfl := TransmitPc.read.inj (located.symm.trans reading)
    exact congrArg (InputStream.seekg · _) stream

/-- The read is where the block takes place: nobody has moved the stream since
the seek. -/
theorem Follows.reads (follows : Follows s u) (sender : Sender)
    (located : s.shared.workers w = .read nextSeqId) (place : s.inside w = some .sought) :
    ∃ v, u.transmit sender w none = some v ∧
      Follows { s.goto w (some (.got (s.shared.fileStream.read packetPayloadSize).2)) with
        shared := { s.shared with
          fileStream := (s.shared.fileStream.read packetPayloadSize).1 } } v := by
  have here : s.inside w ≠ none := place ▸ Option.some_ne_none _
  have sought := follows.sought w nextSeqId place located
  have reading : u.workers w = .read nextSeqId := by
    rw [follows.workers, place, located]
    rfl
  set read := s.shared.fileStream.read packetPayloadSize with readIs
  have readAt : u.fileStream.readAt (nextSeqId * packetPayloadSize) packetPayloadSize = read := by
    rw [InputStream.readAt, ← sought]
  refine ⟨{ u.goto w (behind nextSeqId read.2) with fileStream := read.1 }, ?_, ?_⟩
  -- The block in one step seeks and reads at once.
  · unfold Transmission.transmit
    rw [reading]
    dsimp only
    rw [readAt]
    rfl
  · apply follows_of_alone
    · exact alone_goto (follows.alone here) _
    · exact fun _ => follows.owner w here
    · exact fun _ => ⟨nextSeqId, located⟩
    · rw [follows.same]
      rfl
    -- The reader is behind the block for the one system, and inside it for the other.
    · intro v
      refine (Transmission.workers_goto u w _ v).trans ?_
      change _ = atOnce ((s.goto w _).inside v) (s.shared.workers v)
      rw [inside_goto]
      split_ifs with same
      · rw [same, located]
        rfl
      · exact follows.workers v
    · exact fun _ => rfl
    · exact fun _ place => by cases (inside_goto_self _).symm.trans place

theorem Follows.unlocks (follows : Follows s u) {bytes : List Byte}
    (located : s.shared.workers w = .read nextSeqId) (place : s.inside w = some (.got bytes)) :
    Follows { s.goto w none with
      shared := s.shared.goto w (behind nextSeqId bytes)
      fileMutex := none } u := by
  have here : s.inside w ≠ none := place ▸ Option.some_ne_none _
  have stream := follows.stream_eq here (by rw [place]; exact nofun)
  have out : (s.goto w none).inside w = none := inside_goto_self _
  apply follows_of_alone
  · exact alone_goto (follows.alone here) _
  · exact fun there => absurd out there
  · exact fun there => absurd out there
  · exact follows.same
  -- Now both have the worker behind the block.
  · intro v
    change _ = atOnce ((s.goto w none).inside v) ((s.shared.goto w _).workers v)
    rw [follows.workers, inside_goto, Transmission.workers_goto]
    split_ifs with same
    · rw [same, place, located]
      rfl
    · rfl
  · exact fun _ => stream
  · exact fun _ place => nomatch out.symm.trans place

end Inside

/-! ### Every run -/

variable [DecidableEq ι]

/-- The step of a block in one step that a move makes, if it makes any. -/
def blockOf : FileMove ι → Option (Move ι)
  | .outside move => some move
  | .read w => some (.transmit w none)
  | _ => none

/-- Every run with the block cut into steps is followed by one without. -/
def simulation (sender : Sender) (file : List Byte) (packetCount : ℕ) :
    StepSystem.Simulation (σ := FileAccess ι) (τ := Transmission ι)
      (system sender file packetCount) (Transmission.system sender file packetCount) where
  Related := Follows
  label := blockOf
  init := by
    rintro _ rfl
    exact ⟨_, rfl, follows_start file packetCount⟩
  stays := by
    intro s u move t follows moved labelled
    cases accesses_of_step moved with
    | listens => cases labelled
    | transmits => cases labelled
    | reads => cases labelled
    | locks w nextSeqId located free => exact follows.locks located free
    | seeks w nextSeqId located place => exact follows.seeks located place
    | unlocks w nextSeqId bytes located place => exact follows.unlocks located place
  moves := by
    intro s u move t move' follows moved labelled
    cases accesses_of_step moved with
    | locks => cases labelled
    | seeks => cases labelled
    | unlocks => cases labelled
    | listens answer shared listened =>
      obtain rfl := Option.some.inj labelled
      exact follows.listens listened
    | transmits w sendFault shared elsewhere transmitted =>
      obtain rfl := Option.some.inj labelled
      exact follows.transmits elsewhere transmitted
    | reads w nextSeqId located place =>
      obtain rfl := Option.some.inj labelled
      exact follows.reads sender located place

/-- All packets sent so far carry their own chunks. -/
def OwnChunks (sender : Sender) (file : List Byte) (s : FileAccess ι) : Prop :=
  ∀ i packet, .send i packet ∈ s.shared.history → OwnChunk sender file packet

/-- In every interleaving of the workers' steps all packets sent carry their own
chunks. -/
theorem ownChunks_of_reachable {sender : Sender} {file : List Byte} {packetCount : PacketCount}
    {s : FileAccess ι} (reached : (system sender file packetCount.toNat).Reachable s) :
    OwnChunks sender file s := by
  intro i packet sent
  obtain ⟨u, reached', (follows : Follows s u)⟩ :=
    (simulation sender file packetCount.toNat).reachable reached
  have history : u.history = s.shared.history := by
    rw [follows.same]
    rfl
  have carries := Transmission.carriesChunks_of_reachable reached'
  obtain ⟨below, rfl⟩ := carries.sent i packet (history ▸ sent)
  exact Transmission.ownChunk_packetOf sender file below

/-- One worker sends the only packet of a file of one byte. -/
def oneSend : List (FileMove Unit) :=
  [.outside (.transmit () none), .outside (.transmit () none), .lock (), .seekg (), .read (),
    .unlock (), .outside (.transmit () none)]

/-- The theorem for this run. -/
theorem ownChunks_oneSend :
    ∃ s : FileAccess Unit,
      (system ⟨.little, fun _ => 0, 1, 7⟩ [1] 1).exec (start [1] 1) oneSend = some s ∧
        s.shared.history.length = 1 ∧ OwnChunks ⟨.little, fun _ => 0, 1, 7⟩ [1] s := by
  have sends : ((system ⟨.little, fun _ => 0, 1, 7⟩ [1] 1).exec
      (start [1] 1 : FileAccess Unit) oneSend).map (fun s => s.shared.history.length) = some 1 := by
    decide
  obtain ⟨s, run, one⟩ := Option.map_eq_some_iff.mp sends
  have reached : (system ⟨.little, fun _ => 0, 1, 7⟩ [1] (1 : PacketCount).toNat).Reachable s :=
    ⟨_, oneSend, rfl, run⟩
  exact ⟨s, run, one, ownChunks_of_reachable reached⟩

end FileAccess

end Fup.Client
