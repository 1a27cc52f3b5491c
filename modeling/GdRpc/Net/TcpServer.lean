import GdRpc.Library.Transition
import GdRpc.Net.InetAddress
import Mathlib.Data.List.AList

/-!
# `TcpServer`

The base loop accepts connections and keeps them in `connections_`; every
connection lives on a loop of its own. `handleClose` runs on that loop and has
the base loop remove the connection: at once if it is the base loop itself, else
through a functor which has no more than a reference to a local variable of
`handleClose`. Loops are known by their position in `loops_`, the base loop is
`none`; connections by the order in which they were accepted.
-/

namespace GdRpc.Net

open GdRpc.Library

structure ServerConnection where
  name_ : Bytes
  loop_ : Option Nat
  deriving DecidableEq, Repr

/-- The functors the server hands to its loops. A removal is known by the call
of `handleClose` whose variable it refers to. -/
inductive ServerFunctor where
  | connectEstablished (connection : Nat)
  | removeConnectionInLoop (close : Nat)
  | connectDestroyed (connection : Nat)
  deriving DecidableEq, Repr

/-- One run of `removeConnectionInLoop`: the call of `handleClose` it is for,
and the connection that its reference led to. -/
structure Removal where
  close : Nat
  referred : Option Nat
  deriving DecidableEq, Repr

/-- `established` and `destroyed` are the connections whose `connectEstablished`
and `connectDestroyed` have run, `frames` the calls of `handleClose` that have
not returned. For the record, `closes` has the connection of each call of
`handleClose`, `removals` what has been removed, and `destroys` on which loop
which connection's `connectDestroyed` has been queued. -/
structure TcpServer where
  name_ : Bytes
  addr_ : InetAddress
  loops_ : Nat
  next_ : Nat
  nextConnId_ : Int
  connections_ : AList fun _ : Bytes => Nat
  accepted : List ServerConnection
  established : List Nat
  destroyed : List Nat
  pending_functors_ : Option Nat → List ServerFunctor
  frames : Option Nat → Option Nat
  closes : List Nat
  removals : List Removal
  destroys : List (Option Nat × Nat)

namespace TcpServer

/-- The server after `start`, with its sub-loops. -/
def new (name_ : Bytes) (addr_ : InetAddress) (loops_ : Nat) : TcpServer where
  name_ := name_
  addr_ := addr_
  loops_ := loops_
  next_ := 0
  nextConnId_ := 1
  connections_ := ∅
  accepted := []
  established := []
  destroyed := []
  pending_functors_ _ := []
  frames _ := none
  closes := []
  removals := []
  destroys := []

/-- `getNextLoop`: the loop, and `next_` afterwards. -/
def getNextLoop (server : TcpServer) : Option Nat × Nat :=
  if server.loops_ = 0 then (none, server.next_)
  else (some server.next_, if server.next_ + 1 ≥ server.loops_ then 0 else server.next_ + 1)

/-- `name_` and what `snprintf` writes into 64 bytes. -/
def connName (name_ : Bytes) (addr_ : InetAddress) (id : Int) : Bytes :=
  name_ ++ (ascii "-" ++ addr_.toIpPort ++ ascii "#" ++ decimal id).take 63

def queueInLoop (server : TcpServer) (loop : Option Nat) (functor : ServerFunctor) : TcpServer :=
  { server with
    pending_functors_ := Function.update server.pending_functors_ loop
      (server.pending_functors_ loop ++ [functor]) }

def connectEstablished (server : TcpServer) (connection : Nat) : TcpServer :=
  { server with established := server.established ++ [connection] }

def connectDestroyed (server : TcpServer) (connection : Nat) : TcpServer :=
  { server with destroyed := server.destroyed ++ [connection] }

/-- On the base loop, so that `runInLoop` of the base loop runs at once. -/
def newConnection (server : TcpServer) : TcpServer :=
  let (ioLoop, next_) := server.getNextLoop
  let connName := connName server.name_ server.addr_ server.nextConnId_
  let connection := server.accepted.length
  let added : TcpServer := { server with
    next_ := next_
    nextConnId_ := toInt (server.nextConnId_ + 1)
    connections_ := server.connections_.insert connName connection
    accepted := server.accepted ++ [{ name_ := connName, loop_ := ioLoop }] }
  match ioLoop with
  | none => added.connectEstablished connection
  | some _ => added.queueInLoop ioLoop (.connectEstablished connection)

def removeConnectionInLoop (server : TcpServer) (connection : Nat) (conn : ServerConnection) :
    TcpServer :=
  { server with
    connections_ := server.connections_.erase conn.name_
    destroys := server.destroys ++ [(conn.loop_, connection)] }.queueInLoop
      conn.loop_ (.connectDestroyed connection)

/-- The removal for a call of `handleClose`, with what its reference leads to. -/
def remove (server : TcpServer) (close : Nat) (referred : Option Nat) : TcpServer :=
  let recorded := { server with removals := server.removals ++ [⟨close, referred⟩] }
  match referred with
  | none => recorded
  | some connection =>
      match server.accepted[connection]? with
      | none => recorded
      | some conn => recorded.removeConnectionInLoop connection conn

/-- `handleClose` up to its return: the close callback hands the removal to
`runInLoop` of the base loop. -/
def handleClose (server : TcpServer) (connection : Nat) (conn : ServerConnection) : TcpServer :=
  let close := server.closes.length
  let called := { server with
    closes := server.closes ++ [connection]
    frames := Function.update server.frames conn.loop_ (some close) }
  match conn.loop_ with
  | none => called.remove close (some connection)
  | some _ => called.queueInLoop none (.removeConnectionInLoop close)

/-- The loop on which a call of `handleClose` runs. -/
def loopOf (server : TcpServer) (close : Nat) : Option (Option Nat) :=
  (server.closes[close]?).bind fun connection =>
    (server.accepted[connection]?).map ServerConnection.loop_

/-- The variable of the call exists until it returns. -/
def Open (server : TcpServer) (close : Nat) : Prop :=
  ∃ loop ∈ server.loopOf close, server.frames loop = some close

instance (server : TcpServer) (close : Nat) : Decidable (server.Open close) :=
  inferInstanceAs (Decidable (∃ loop ∈ server.loopOf close, _))

/-- The run of a functor is one step, taken when it ends. Where the variable does
not exist any more a reference leads to whatever is there, `stale`. -/
def run (server : TcpServer) (stale : Option Nat) : ServerFunctor → TcpServer
  | .connectEstablished connection => server.connectEstablished connection
  | .removeConnectionInLoop close =>
      server.remove close (if server.Open close then server.closes[close]? else stale)
  | .connectDestroyed connection => server.connectDestroyed connection

inductive Event where
  | newConnection
  | handleClose (connection : Nat)
  | returns (loop : Option Nat)
  | functor (loop : Option Nat) (stale : Option Nat)
  deriving DecidableEq, Repr

def next (server : TcpServer) : Event → TcpServer
  | .newConnection => server.newConnection
  | .handleClose connection =>
      match server.accepted[connection]? with
      | some conn => server.handleClose connection conn
      | none => server
  | .returns loop => { server with frames := Function.update server.frames loop none }
  | .functor loop stale =>
      match server.pending_functors_ loop with
      | [] => server
      | functor :: functors =>
          { server with
            pending_functors_ :=
              Function.update server.pending_functors_ loop functors }.run stale functor

/-- A loop that has called `handleClose` does nothing else until it returns. A
connection is closed when it has been established and not destroyed. -/
def Enabled (server : TcpServer) : Event → Prop
  | .newConnection => server.frames none = none ∧ server.accepted.length + 1 < 2 ^ 31
  | .handleClose connection =>
      connection ∈ server.established ∧ connection ∉ server.destroyed ∧
        ∃ conn ∈ server.accepted[connection]?, server.frames conn.loop_ = none
  | .returns loop => server.frames loop ≠ none
  | .functor loop _ => server.frames loop = none ∧ server.pending_functors_ loop ≠ []

instance (server : TcpServer) : ∀ event, Decidable (server.Enabled event)
  | .newConnection => inferInstanceAs (Decidable (_ ∧ _))
  | .handleClose connection =>
      inferInstanceAs (Decidable (_ ∧ _ ∧ ∃ conn ∈ server.accepted[connection]?, _))
  | .returns _ => inferInstanceAs (Decidable (_ ≠ _))
  | .functor _ _ => inferInstanceAs (Decidable (_ ∧ _))

/-- All interleavings of the loops of any server. -/
def system : System TcpServer Event where
  initial server := ∃ name_ addr_ loops_, server = new name_ addr_ loops_
  step server event after := server.Enabled event ∧ after = server.next event

/-- The connection's removal has run. -/
def Removed (server : TcpServer) (connection : Nat) : Prop :=
  ∃ removal ∈ server.removals, server.closes[removal.close]? = some connection

instance (server : TcpServer) (connection : Nat) : Decidable (server.Removed connection) :=
  inferInstanceAs (Decidable (∃ removal ∈ server.removals, _))

/-- The table of connections is exact. -/
structure Exact (server : TcpServer) : Prop where
  keys : (server.accepted.map ServerConnection.name_).Nodup
  refers : ∀ removal ∈ server.removals,
    ∃ connection, server.closes[removal.close]? = some connection ∧
      removal.referred = some connection
  table : ∀ key connection, connection ∈ server.connections_.lookup key ↔
    (∃ conn ∈ server.accepted[connection]?, conn.name_ = key) ∧ ¬ server.Removed connection
  destroyed : ∀ loop connection, server.destroys.count (loop, connection) =
    if server.Removed connection ∧
      ∃ conn ∈ server.accepted[connection]?, conn.loop_ = loop then 1 else 0

/-- A removal refers to a variable that exists. -/
def Safe (server : TcpServer) : ServerFunctor → Prop
  | .removeConnectionInLoop close => server.Open close
  | .connectEstablished _ | .connectDestroyed _ => True

instance (server : TcpServer) : ∀ functor, Decidable (server.Safe functor)
  | .removeConnectionInLoop close => inferInstanceAs (Decidable (server.Open close))
  | .connectEstablished _ | .connectDestroyed _ => inferInstanceAs (Decidable True)

/-- No connection is closed twice, and a removal ends before the `handleClose`
that queued it returns. -/
def Fit (server : TcpServer) : Event → Prop
  | .handleClose connection => connection ∉ server.closes
  | .functor loop _ => ∀ functor ∈ (server.pending_functors_ loop).head?, server.Safe functor
  | .newConnection | .returns _ => True

instance (server : TcpServer) : ∀ event, Decidable (server.Fit event)
  | .handleClose _ => inferInstanceAs (Decidable (_ ∉ _))
  | .functor loop _ =>
      inferInstanceAs (Decidable (∀ functor ∈ (server.pending_functors_ loop).head?, _))
  | .newConnection | .returns _ => inferInstanceAs (Decidable True)

/-- The runs in which every step is fit. -/
def fitSystem : System TcpServer Event where
  initial server := ∃ name_ addr_ loops_, server = new name_ addr_ loops_
  step server event after :=
    (server.Enabled event ∧ server.Fit event) ∧ after = server.next event

/-! ## What a fit step keeps -/

theorem connName_injective {name_ : Bytes} {addr_ : InetAddress} {first second : Nat}
    (firstSmall : first < 2 ^ 31) (secondSmall : second < 2 ^ 31)
    (same : connName name_ addr_ first = connName name_ addr_ second) : first = second := by
  have whole : ∀ id : Nat, id < 2 ^ 31 →
      (ascii "-" ++ addr_.toIpPort ++ ascii "#" ++ decimal id).take 63 =
        ascii "-" ++ addr_.toIpPort ++ ascii "#" ++ decimalNat id := by
    intro id small
    have address := addr_.length_toIpPort_le
    have number : (decimalNat id).length ≤ 10 := length_decimalNat_le (by decide) (by omega)
    have dash : (ascii "-").length = 1 := rfl
    have sharp : (ascii "#").length = 1 := rfl
    rw [decimal_natCast, List.take_of_length_le]
    simp only [List.length_append, dash, sharp]
    omega
  rw [connName, connName, whole first firstSmall, whole second secondSmall,
    List.append_cancel_left_eq, List.append_cancel_left_eq] at same
  exact decimalNat_injective same

/-- The calls of `handleClose` whose removal is queued. -/
def queuedRemovals (functors : List ServerFunctor) : List Nat :=
  functors.filterMap fun functor =>
    match functor with
    | .removeConnectionInLoop close => some close
    | .connectEstablished _ | .connectDestroyed _ => none

/-- What holds between two steps, where the removals for the calls `due` are
neither queued nor recorded. -/
structure Orderly (due : List Nat) (server : TcpServer) : Prop where
  bound : server.accepted.length < 2 ^ 31
  nextId : server.nextConnId_ = toInt (server.accepted.length + 1 : Nat)
  names : server.accepted.map ServerConnection.name_ =
    (List.range server.accepted.length).map fun index =>
      connName server.name_ server.addr_ (index + 1 : Nat)
  closed : server.closes.Nodup
  known : ∀ connection ∈ server.closes, connection < server.accepted.length
  base : ∀ loop close,
    .removeConnectionInLoop close ∉ server.pending_functors_ (some loop)
  cover : (server.removals.map Removal.close ++ due ++
    queuedRemovals (server.pending_functors_ none)).Perm (List.range server.closes.length)
  refers : ∀ removal ∈ server.removals, ∃ connection,
    server.closes[removal.close]? = some connection ∧ removal.referred = some connection
  table : ∀ key connection, connection ∈ server.connections_.lookup key ↔
    (∃ conn ∈ server.accepted[connection]?, conn.name_ = key) ∧ ¬ server.Removed connection
  recorded : server.destroys.map (fun entry => some entry.2) =
    server.removals.map Removal.referred
  own : ∀ entry ∈ server.destroys, ∃ conn ∈ server.accepted[entry.2]?, conn.loop_ = entry.1

variable {server : TcpServer} {due : List Nat}

theorem Orderly.keys (orderly : server.Orderly due) :
    (server.accepted.map ServerConnection.name_).Nodup := by
  rw [orderly.names]
  refine List.Nodup.map_on ?_ List.nodup_range
  intro first firstIn second secondIn same
  have bound := orderly.bound
  rw [List.mem_range] at firstIn secondIn
  have ids := connName_injective (by omega) (by omega) same
  omega

theorem Orderly.name_inj (orderly : server.Orderly due) {first second : Nat}
    {conn other : ServerConnection} (here : server.accepted[first]? = some conn)
    (there : server.accepted[second]? = some other) (same : conn.name_ = other.name_) :
    first = second := by
  have bound := (List.getElem?_eq_some_iff.mp here).1
  refine (List.getElem?_inj (by simpa using bound) orderly.keys).mp ?_
  simp [here, there, same]

theorem Orderly.name_eq (orderly : server.Orderly due) {connection : Nat}
    {conn : ServerConnection} (here : server.accepted[connection]? = some conn) :
    conn.name_ = connName server.name_ server.addr_ (connection + 1 : Nat) := by
  obtain ⟨bound, rfl⟩ := List.getElem?_eq_some_iff.mp here
  have name := congrArg (·[connection]?) orderly.names
  simpa [bound] using name

theorem Orderly.removed_lt (orderly : server.Orderly due) {connection : Nat}
    (removed : server.Removed connection) : connection < server.accepted.length := by
  obtain ⟨_, _, here⟩ := removed
  exact orderly.known connection (List.mem_of_getElem? here)

theorem Orderly.close_lt (orderly : server.Orderly due) {removal : Removal}
    (membership : removal ∈ server.removals) : removal.close < server.closes.length := by
  rw [← List.mem_range, ← orderly.cover.mem_iff]
  simp only [List.append_assoc, List.mem_append]
  exact .inl (List.mem_map_of_mem membership)

theorem Orderly.of_functors (orderly : server.Orderly due)
    {pending : Option Nat → List ServerFunctor} (established destroyed : List Nat)
    (frames : Option Nat → Option Nat) {rest : List Nat}
    (base : ∀ loop close, .removeConnectionInLoop close ∉ pending (some loop))
    (cover : (due ++ queuedRemovals (server.pending_functors_ none)).Perm
      (rest ++ queuedRemovals (pending none))) :
    { server with
      pending_functors_ := pending
      established := established
      destroyed := destroyed
      frames := frames }.Orderly rest where
  bound := orderly.bound
  nextId := orderly.nextId
  names := orderly.names
  closed := orderly.closed
  known := orderly.known
  base := base
  cover := by
    refine List.Perm.trans ?_ orderly.cover
    rw [List.append_assoc, List.append_assoc]
    exact cover.symm.append_left _
  refers := orderly.refers
  table := orderly.table
  recorded := orderly.recorded
  own := orderly.own

@[simp]
theorem queuedRemovals_append (first second : List ServerFunctor) :
    queuedRemovals (first ++ second) = queuedRemovals first ++ queuedRemovals second :=
  List.filterMap_append

theorem Orderly.queueInLoop (orderly : server.Orderly due) (loop : Option Nat)
    (functor : ServerFunctor) {rest : List Nat} (split : due = queuedRemovals [functor] ++ rest)
    (onBase : queuedRemovals [functor] ≠ [] → loop = none) :
    (server.queueInLoop loop functor).Orderly rest := by
  have others : ∀ close, functor = .removeConnectionInLoop close → loop = none := by
    rintro close rfl
    exact onBase (by simp [queuedRemovals])
  refine orderly.of_functors server.established server.destroyed server.frames ?_ ?_
  · intro index close membership
    by_cases here : some index = loop
    · subst here
      rw [Function.update_self, List.mem_append, List.mem_singleton] at membership
      rcases membership with old | new
      · exact orderly.base index close old
      · exact absurd (others close new.symm) (by simp)
    · rw [Function.update_of_ne here] at membership
      exact orderly.base index close membership
  · subst split
    by_cases here : none = loop
    · subst here
      rw [Function.update_self, queuedRemovals_append, List.append_assoc]
      exact List.perm_append_comm.trans (by rw [List.append_assoc])
    · have nothing : queuedRemovals [functor] = [] := by
        by_contra something
        exact here (onBase something).symm
      rw [Function.update_of_ne here, nothing, List.nil_append]

theorem queuedRemovals_head (functor : ServerFunctor) (functors : List ServerFunctor) :
    queuedRemovals (functor :: functors) = queuedRemovals [functor] ++ queuedRemovals functors :=
  queuedRemovals_append [functor] functors

theorem Orderly.pop (orderly : server.Orderly []) {loop : Option Nat} {functor : ServerFunctor}
    {functors : List ServerFunctor}
    (front : server.pending_functors_ loop = functor :: functors) :
    { server with
      pending_functors_ :=
        Function.update server.pending_functors_ loop functors }.Orderly
          (queuedRemovals [functor]) := by
  refine orderly.of_functors server.established server.destroyed server.frames ?_ ?_
  · intro index close membership
    by_cases here : some index = loop
    · subst here
      rw [Function.update_self] at membership
      apply orderly.base index close
      rw [front]
      exact List.mem_cons_of_mem _ membership
    · rw [Function.update_of_ne here] at membership
      exact orderly.base index close membership
  · cases loop with
    | none => rw [Function.update_self, front, List.nil_append, queuedRemovals_head]
    | some index =>
        have notRemoval : queuedRemovals [functor] = [] := by
          cases functor with
          | removeConnectionInLoop close =>
              have queued := orderly.base index close
              simp [front] at queued
          | connectEstablished connection | connectDestroyed connection => rfl
        rw [Function.update_of_ne (by simp), notRemoval]

/-- A call of `handleClose` for a connection that has not been closed. -/
theorem Orderly.close (orderly : server.Orderly []) {connection : Nat}
    (known : connection < server.accepted.length) (first : connection ∉ server.closes)
    (frames : Option Nat → Option Nat) :
    { server with
      closes := server.closes ++ [connection]
      frames := frames }.Orderly [server.closes.length] := by
  have removedIff : ∀ other, (∃ removal ∈ server.removals,
      (server.closes ++ [connection])[removal.close]? = some other) ↔ server.Removed other := by
    intro other
    unfold Removed
    constructor
    · rintro ⟨removal, membership, here⟩
      rw [List.getElem?_append_left (orderly.close_lt membership)] at here
      exact ⟨removal, membership, here⟩
    · rintro ⟨removal, membership, here⟩
      refine ⟨removal, membership, ?_⟩
      rw [List.getElem?_append_left (orderly.close_lt membership)]
      exact here
  refine ⟨orderly.bound, orderly.nextId, orderly.names, ?_, ?_, orderly.base, ?_, ?_, ?_,
    orderly.recorded, orderly.own⟩
  · exact List.nodup_append.mpr ⟨orderly.closed, List.nodup_singleton _, by
      rintro other membership _ new rfl
      rw [List.mem_singleton.mp new] at membership
      exact first membership⟩
  · intro other membership
    rcases List.mem_append.mp membership with old | new
    · exact orderly.known other old
    · rw [List.mem_singleton.mp new]
      exact known
  · have cover := orderly.cover
    rw [List.append_nil] at cover
    rw [List.length_append, List.length_singleton, List.range_succ, List.append_assoc]
    refine List.Perm.trans ?_ (cover.append_right _)
    rw [List.append_assoc]
    exact List.perm_append_comm.append_left _
  · intro removal membership
    obtain ⟨other, here, referred⟩ := orderly.refers removal membership
    exact ⟨other, by rw [List.getElem?_append_left (orderly.close_lt membership), here], referred⟩
  · intro key other
    rw [orderly.table]
    exact and_congr_right fun _ => not_congr (removedIff other).symm

theorem Orderly.remove {close : Nat} (orderly : server.Orderly [close]) {connection : Nat}
    (here : server.closes[close]? = some connection) :
    (server.remove close (some connection)).Orderly [] := by
  have bound := orderly.known connection (List.mem_of_getElem? here)
  obtain ⟨conn, there⟩ : ∃ conn, server.accepted[connection]? = some conn :=
    ⟨_, List.getElem?_eq_getElem bound⟩
  have removedIff : ∀ other,
      (∃ removal ∈ server.removals ++ [⟨close, some connection⟩],
        server.closes[removal.close]? = some other) ↔
      server.Removed other ∨ other = connection := by
    intro other
    unfold Removed
    simp only [List.mem_append, List.mem_singleton, or_and_right, exists_or, exists_eq_left,
      here, Option.some.injEq, eq_comm]
  have recorded : { server with
      removals := server.removals ++ [Removal.mk close (some connection)]
      connections_ := server.connections_.erase conn.name_
      destroys := server.destroys ++ [(conn.loop_, connection)] }.Orderly [] := by
    refine ⟨orderly.bound, orderly.nextId, orderly.names, orderly.closed, orderly.known,
      orderly.base, ?_, ?_, ?_, ?_, ?_⟩
    · simpa using orderly.cover
    · intro removal membership
      rcases List.mem_append.mp membership with old | new
      · exact orderly.refers removal old
      · rw [List.mem_singleton.mp new]
        exact ⟨connection, here, rfl⟩
    · intro key other
      unfold Removed
      rw [removedIff]
      by_cases same : key = conn.name_
      · subst same
        rw [AList.lookup_erase]
        apply iff_of_false (by simp)
        rintro ⟨⟨twin, isTwin, name⟩, remains⟩
        exact remains (.inr (orderly.name_inj isTwin there name))
      · rw [AList.lookup_erase_ne same, orderly.table]
        refine and_congr_right ?_
        rintro ⟨twin, isTwin, name⟩
        have differs : other ≠ connection := by
          rintro rfl
          obtain rfl := Option.some.inj (there.symm.trans isTwin)
          exact same name.symm
        simp [differs]
    · simp [orderly.recorded]
    · intro entry membership
      rcases List.mem_append.mp membership with old | new
      · exact orderly.own entry old
      · rw [List.mem_singleton.mp new]
        exact ⟨conn, there, rfl⟩
  simp only [TcpServer.remove, there, removeConnectionInLoop]
  exact recorded.queueInLoop conn.loop_ (.connectDestroyed connection) rfl
    (fun something => absurd rfl something)

theorem Orderly.newConnection (orderly : server.Orderly [])
    (room : server.accepted.length + 1 < 2 ^ 31) : server.newConnection.Orderly [] := by
  have id : server.nextConnId_ = (server.accepted.length + 1 : Nat) := by
    rw [orderly.nextId]
    exact toInt_of_lt (by omega) (by omega)
  have added : ∀ next_ ioLoop, { server with
      next_ := next_
      nextConnId_ := toInt (server.nextConnId_ + 1)
      connections_ := server.connections_.insert
        (connName server.name_ server.addr_ server.nextConnId_) server.accepted.length
      accepted := server.accepted ++
        [ServerConnection.mk (connName server.name_ server.addr_ server.nextConnId_)
          ioLoop] }.Orderly [] := by
    intro next_ ioLoop
    refine ⟨by simpa using room, by simp [id], ?_, orderly.closed, ?_, orderly.base, orderly.cover,
      orderly.refers, ?_, orderly.recorded, ?_⟩
    · simp [List.range_succ, orderly.names, id]
    · intro connection membership
      have known := orderly.known connection membership
      simp only [List.length_append, List.length_singleton]
      omega
    · intro key connection
      by_cases new : key = connName server.name_ server.addr_ server.nextConnId_
      · subst new
        rw [AList.lookup_insert, Option.mem_def, Option.some.injEq]
        constructor
        · rintro rfl
          refine ⟨⟨_, List.getElem?_concat_length, rfl⟩, ?_⟩
          intro removed
          exact absurd (orderly.removed_lt removed) (lt_irrefl _)
        · rintro ⟨⟨conn, here, name⟩, _⟩
          by_contra other
          have old : connection < server.accepted.length := by
            have bound := (List.getElem?_eq_some_iff.mp here).1
            rw [List.length_append, List.length_singleton] at bound
            omega
          rw [List.getElem?_append_left old] at here
          rw [orderly.name_eq here, id] at name
          have ids := connName_injective (by omega) (by omega) name
          omega
      · rw [AList.lookup_insert_ne new, orderly.table]
        refine and_congr_left fun _ => ?_
        rcases Nat.lt_trichotomy connection server.accepted.length with old | rfl | beyond
        · rw [List.getElem?_append_left old]
        · simp [Ne.symm new]
        · have none : server.accepted[connection]? = .none := List.getElem?_eq_none (by omega)
          have after : (server.accepted ++ [ServerConnection.mk
              (connName server.name_ server.addr_ server.nextConnId_) ioLoop])[connection]? =
                .none := by
            rw [List.getElem?_eq_none_iff, List.length_append, List.length_singleton]
            omega
          rw [none, after]
    · intro entry membership
      obtain ⟨conn, here, same⟩ := orderly.own entry membership
      refine ⟨conn, ?_, same⟩
      rw [List.getElem?_append_left (List.getElem?_eq_some_iff.mp here).1]
      exact here
  unfold TcpServer.newConnection
  split
  next ioLoop next_ _ =>
    dsimp only
    split
    next =>
      exact (added next_ none).of_functors _ _ server.frames orderly.base (.refl _)
    next index _ =>
      exact (added next_ (some index)).queueInLoop (some index)
        (.connectEstablished server.accepted.length) rfl (fun something => absurd rfl something)

theorem Orderly.run {functor : ServerFunctor}
    (orderly : server.Orderly (queuedRemovals [functor])) (safe : server.Safe functor)
    (stale : Option Nat) : (server.run stale functor).Orderly [] := by
  cases functor with
  | connectEstablished connection | connectDestroyed connection =>
      exact orderly.of_functors _ _ _ orderly.base (.refl _)
  | removeConnectionInLoop close =>
      obtain ⟨loop, isLoop, _⟩ := id safe
      obtain ⟨connection, here, _⟩ := Option.bind_eq_some_iff.mp isLoop
      have isOpen : server.Open close := safe
      simp only [TcpServer.run, if_pos isOpen, here]
      exact orderly.remove here

theorem orderly_new (name_ : Bytes) (addr_ : InetAddress) (loops_ : Nat) :
    (new name_ addr_ loops_).Orderly [] where
  bound := by simp [new]
  nextId := (toInt_of_lt (show 0 ≤ (1 : Int) by decide) (by decide)).symm
  names := rfl
  closed := List.nodup_nil
  known := by simp [new]
  base := by simp [new]
  cover := by simp [new, queuedRemovals]
  refers := by simp [new]
  table := by simp [new]
  recorded := rfl
  own := by simp [new]

theorem Orderly.count_destroys (orderly : server.Orderly []) (loop : Option Nat)
    (connection : Nat) :
    server.destroys.count (loop, connection) =
      if server.Removed connection ∧
        ∃ conn ∈ server.accepted[connection]?, conn.loop_ = loop then 1 else 0 := by
  have referred : (server.removals.map Removal.referred).Nodup := by
    have same : server.removals.map Removal.referred =
        (server.removals.map Removal.close).map (server.closes[·]?) := by
      rw [List.map_map]
      refine List.map_congr_left fun removal membership => ?_
      obtain ⟨connection, here, referred⟩ := orderly.refers removal membership
      exact referred.trans here.symm
    have closes := orderly.cover.nodup_iff.mpr List.nodup_range
    rw [List.append_nil] at closes
    rw [same]
    refine List.Nodup.map_on ?_ (List.nodup_append.mp closes).1
    intro close membership other _ equal
    obtain ⟨removal, isRemoval, rfl⟩ := List.mem_map.mp membership
    exact (List.getElem?_inj (orderly.close_lt isRemoval) orderly.closed).mp equal
  have once : server.destroys.Nodup := by
    rw [← orderly.recorded] at referred
    exact referred.of_map _
  rw [once.count]
  refine if_congr ?_ rfl rfl
  constructor
  · intro membership
    have isReferred : some connection ∈ server.removals.map Removal.referred := by
      rw [← orderly.recorded]
      exact List.mem_map_of_mem membership
    obtain ⟨removal, isRemoval, referred⟩ := List.mem_map.mp isReferred
    obtain ⟨other, here, same⟩ := orderly.refers removal isRemoval
    obtain rfl := Option.some.inj (referred.symm.trans same)
    exact ⟨⟨removal, isRemoval, here⟩, orderly.own _ membership⟩
  · rintro ⟨⟨removal, isRemoval, here⟩, conn, there, onLoop⟩
    obtain ⟨other, here', referred⟩ := orderly.refers removal isRemoval
    obtain rfl := Option.some.inj (here.symm.trans here')
    have isRecorded : some connection ∈ server.destroys.map fun entry => some entry.2 := by
      rw [orderly.recorded, ← referred]
      exact List.mem_map_of_mem isRemoval
    obtain ⟨⟨place, _⟩, membership, same⟩ := List.mem_map.mp isRecorded
    obtain rfl := Option.some.inj same
    obtain ⟨conn', there', own⟩ := orderly.own _ membership
    obtain rfl := Option.some.inj (there.symm.trans there')
    obtain rfl : place = loop := own.symm.trans onLoop
    exact membership

theorem orderly_next (orderly : server.Orderly []) {event : Event}
    (enabled : server.Enabled event) (fit : server.Fit event) :
    (server.next event).Orderly [] := by
  cases event with
  | newConnection => exact orderly.newConnection enabled.2
  | returns loop => exact orderly.of_functors _ _ _ orderly.base (.refl _)
  | handleClose connection =>
      obtain ⟨_, _, conn, here, _⟩ := enabled
      have known := (List.getElem?_eq_some_iff.mp here).1
      have called := orderly.close known fit
        (Function.update server.frames conn.loop_ (some server.closes.length))
      have own : (server.closes ++ [connection])[server.closes.length]? =
          some connection := by
        simp
      rw [Option.mem_def] at here
      simp only [next, here, TcpServer.handleClose]
      split
      next => exact called.remove own
      next => exact called.queueInLoop none _ rfl (fun _ => rfl)
  | functor loop stale =>
      cases front : server.pending_functors_ loop with
      | nil => exact absurd front enabled.2
      | cons functor functors =>
          simp only [next, front]
          exact (orderly.pop front).run (fit functor (by simp [front])) stale

/-- In every run in which no connection is closed twice, and every removal ends
before the `handleClose` that queued it returns, the table is exact. -/
theorem table_exact_of_fit {events : List Event} (execution : fitSystem.Execution events server) :
    server.Exact := by
  have orderly : server.Orderly [] := by
    apply execution.invariant (Orderly [])
    · rintro start ⟨name_, addr_, loops_, rfl⟩
      exact orderly_new name_ addr_ loops_
    · rintro before event after orderly ⟨⟨enabled, fit⟩, rfl⟩
      exact orderly_next orderly enabled fit
  exact ⟨orderly.keys, orderly.refers, orderly.table, orderly.count_destroys⟩

/-- A server with one sub-loop. -/
def oneLoop : TcpServer :=
  new (ascii "RpcServer") { sin_port := 8080, sin_addr := 2130706433 } 1

/-- The removal runs while `handleClose` is still in its close callback. -/
theorem table_exact_of_fit_prompt :
    let events : List Event :=
      [.newConnection, .functor (some 0) none, .handleClose 0, .functor none none,
        .returns (some 0), .functor (some 0) none]
    (events.foldl next oneLoop).Exact := by
  intro events
  have execution : fitSystem.Execution events (events.foldl next oneLoop) :=
    System.Execution.foldl fitSystem
      (fun server event => server.Enabled event ∧ server.Fit event)
      (fun _ _ permitted => ⟨permitted, rfl⟩) ⟨_, _, _, rfl⟩ (by decide +kernel)
  exact table_exact_of_fit execution

/-- The first connection's `handleClose` has returned and the second one's has
put its own variable in the same place: the second connection is removed twice,
and the first one stays. -/
theorem late_removal_dangles :
    ¬ ∀ (events : List Event) (server : TcpServer),
      system.Execution events server → server.Exact := by
  intro always
  let events : List Event :=
    [.newConnection, .newConnection, .functor (some 0) none, .functor (some 0) none,
      .handleClose 0, .returns (some 0), .handleClose 1, .functor none (some 1),
      .functor none none]
  have execution : system.Execution events (events.foldl next oneLoop) :=
    System.Execution.foldl system Enabled
      (fun _ _ enabled => ⟨enabled, rfl⟩) ⟨_, _, _, rfl⟩ (by decide +kernel)
  have removals : (events.foldl next oneLoop).removals = [⟨0, some 1⟩, ⟨1, some 1⟩] := by
    decide +kernel
  have closes : (events.foldl next oneLoop).closes = [0, 1] := by decide +kernel
  obtain ⟨connection, own, referred⟩ := (always events _ execution).refers ⟨0, some 1⟩
    (by simp [removals])
  simp only [closes, List.getElem?_cons_zero, Option.some.injEq] at own referred
  omega

end TcpServer

end GdRpc.Net
