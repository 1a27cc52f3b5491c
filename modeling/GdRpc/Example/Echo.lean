import GdRpc.Net.ConnectionThreads
import GdRpc.Net.OpenConnection

/-!
# The echo programs

`EchoClient` writes lines without a line feed from its main thread, `EchoServer`
sends back what it reads. Between the two connections the kernel keeps the bytes
it has accepted in order. The main thread waits, in the end, for the whole echo,
with a condition variable but without a test.
-/

namespace GdRpc.Example

open GdRpc.Library GdRpc.Net

/-- The main thread of the client, from its first `write` on. -/
inductive Main where
  | writing
  | waiting
  | woken
  deriving DecidableEq, Repr

/-- `cond.notify_one()` -/
def Main.notify_one : Main → Main
  | .waiting => .woken
  | main => main

/-- The two connections, how much of what each of them has handed to the kernel
the other one has got, the two strings that are compared at the end, and whether
the server has left its loop. -/
structure Echo where
  client : TcpConnection
  server : TcpConnection
  toServer : Nat
  toClient : Nat
  all : Bytes
  get_ : Bytes
  main : Main
  quit : Bool

/-- `conn->send` on the loop thread. -/
def sendOnLoop (conn : TcpConnection) (buf : Bytes) (result : WriteResult) : TcpConnection :=
  if conn.state_ = .kConnected then conn.sendInLoop buf result else conn

/-- `conn->send` on another thread. -/
def sendElsewhere (conn : TcpConnection) (buf : Bytes) : TcpConnection :=
  if conn.state_ = .kConnected then conn.queueInLoop (.sendInLoop buf) else conn

/-- `conn->shutdown` on the loop thread. -/
def shutdownOnLoop (conn : TcpConnection) : TcpConnection :=
  let (connected, conn) := conn.compareExchange .kConnected .kDisconnecting
  if connected then conn.shutdownInLoop else conn

/-- The connection after the callback, and whether it calls `loop_->quit()`. -/
def EchoServer.onMessage (conn : TcpConnection) (bye back : WriteResult) :
    TcpConnection × Bool :=
  let (_, msg, conn) := conn.readAll
  let conn :=
    if msg = ascii "exit\n" then shutdownOnLoop (sendOnLoop conn (ascii "bye\n") bye)
    else conn
  (sendOnLoop conn msg back, msg = ascii "quit\n")

namespace Echo

/-- `EchoClient::onMessage` -/
def onMessage (echo : Echo) : Echo :=
  let (_, msg, conn) := echo.client.readAll
  let get_ := echo.get_ ++ msg
  { echo with
    client := conn
    get_ := get_
    main := if get_.length = echo.all.length then echo.main.notify_one else echo.main }

/-- The turn of the main loop that appends to `all` and calls `write`. -/
def write (echo : Echo) (message : Bytes) : Echo :=
  { echo with
    all := echo.all ++ message
    client := sendElsewhere echo.client message }

/-- The oldest functor of the loop. -/
def runFunctor (conn : TcpConnection) (result : WriteResult) : TcpConnection :=
  match conn.pending_functors_ with
  | [] => conn
  | functor :: rest => { conn with pending_functors_ := rest }.runFunctor functor result

def clientRead (echo : Echo) (result : ReadvResult) : Echo :=
  let received := { echo with
    client := echo.client.handleRead result
    toClient := echo.toClient + result.stored.length }
  if result.stored = [] then received else received.onMessage

def serverRead (echo : Echo) (result : ReadvResult) (bye back : WriteResult) : Echo :=
  let server := echo.server.handleRead result
  let toServer := echo.toServer + result.stored.length
  if result.stored = [] then
    { echo with server := server, toServer := toServer }
  else
    let (server, quit) := EchoServer.onMessage server bye back
    { echo with server := server, toServer := toServer, quit := quit }

inductive Event where
  | write (message : Bytes)
  | wait
  | clientFunctor (result : WriteResult)
  | clientWrite (result : WriteResult)
  | clientRead (result : ReadvResult)
  | serverFunctor (result : WriteResult)
  | serverWrite (result : WriteResult)
  | serverRead (result : ReadvResult) (bye back : WriteResult)
  deriving DecidableEq, Repr

/-- What `::readv` can report: it fails, or takes bytes from the front of what
is on its way, and none of them only at the end of the stream. -/
def Arrives (sender receiver : TcpConnection) (taken : Nat) : ReadvResult → Prop
  | .failed _ => True
  | .delivered data =>
      data <+: sender.accepted.drop taken ∧
      data.length ≤ receiver.inputBuffer_.readvLength ∧
      (data = [] → sender.shutdownWrites ≠ 0)

instance (sender receiver : TcpConnection) (taken : Nat) :
    ∀ result, Decidable (Arrives sender receiver taken result)
  | .failed _ => inferInstanceAs (Decidable True)
  | .delivered _ => inferInstanceAs (Decidable (_ ∧ _ ∧ (_ → _)))

/-- The main thread writes letters and digits; the peer of an open connection
does not reset it; a server that has left its loop does nothing. -/
def Enabled (echo : Echo) : Event → Prop
  | .write message => echo.main = .writing ∧ 10 ∉ message
  | .wait => echo.main = .writing
  | .clientFunctor result => echo.client.pending_functors_ ≠ [] ∧ ¬ result.Fault
  | .clientWrite result => ¬ result.Fault
  | .clientRead result => Arrives echo.server echo.client echo.toClient result
  | .serverFunctor result =>
      echo.quit = false ∧ echo.server.pending_functors_ ≠ [] ∧ ¬ result.Fault
  | .serverWrite result => echo.quit = false ∧ ¬ result.Fault
  | .serverRead result bye back =>
      echo.quit = false ∧ Arrives echo.client echo.server echo.toServer result ∧
        ¬ bye.Fault ∧ ¬ back.Fault

instance (echo : Echo) : ∀ event, Decidable (echo.Enabled event)
  | .write _ => inferInstanceAs (Decidable (_ ∧ _))
  | .wait => inferInstanceAs (Decidable (_ = _))
  | .clientFunctor _ => inferInstanceAs (Decidable (_ ∧ _))
  | .clientWrite result => inferInstanceAs (Decidable (¬ result.Fault))
  | .clientRead _ => inferInstanceAs (Decidable (Arrives _ _ _ _))
  | .serverFunctor _ => inferInstanceAs (Decidable (_ ∧ _ ∧ _))
  | .serverWrite _ => inferInstanceAs (Decidable (_ ∧ _))
  | .serverRead _ _ _ => inferInstanceAs (Decidable (_ ∧ _ ∧ _ ∧ _))

def next (echo : Echo) : Event → Echo
  | .write message => echo.write message
  | .wait => { echo with main := .waiting }
  | .clientFunctor result => { echo with client := runFunctor echo.client result }
  | .clientWrite result => { echo with client := echo.client.handleWrite result }
  | .clientRead result => echo.clientRead result
  | .serverFunctor result => { echo with server := runFunctor echo.server result }
  | .serverWrite result => { echo with server := echo.server.handleWrite result }
  | .serverRead result bye back => echo.serverRead result bye back

/-- Both ends are connected; of the callbacks for output only the client has
set one. -/
def new : Echo where
  client := (TcpConnection.new true false).connectEstablished
  server := (TcpConnection.new false false).connectEstablished
  toServer := 0
  toClient := 0
  all := []
  get_ := []
  main := .writing
  quit := false

def system : System Echo Event where
  initial echo := echo = new
  step echo event after := echo.Enabled event ∧ after = echo.next event

/-! ## One side -/

/-- The functors of an open connection: messages and notifications. -/
def Plain (functor : Functor) : Prop :=
  functor.Notifies ∨ ∃ s, functor = .sendInLoop s

/-- An open connection with plain functors. -/
structure Side (conn : TcpConnection) : Prop where
  isOpen : conn.Open
  plain : ∀ functor ∈ conn.pending_functors_, Plain functor

/-- The messages that wait for `sendInLoop`. -/
def queued (conn : TcpConnection) : Bytes :=
  (Functor.messages conn.pending_functors_).flatten

variable {conn after : TcpConnection}

theorem message?_of_notifies {functor : Functor} (notifies : functor.Notifies) :
    functor.message? = none := by
  cases functor with
  | writeCompleteCallback | highWaterMarkCallback => rfl
  | _ => exact notifies.elim

theorem messages_of_notifies {functors : List Functor}
    (notify : ∀ functor ∈ functors, functor.Notifies) : Functor.messages functors = [] := by
  apply List.filterMap_eq_nil_iff.mpr
  exact fun functor membership => message?_of_notifies (notify functor membership)

theorem Side.puts (side : Side conn) {s : Bytes} (puts : conn.Puts s after) :
    Side after ∧ queued after = queued conn := by
  obtain ⟨added, notify, functors⟩ := puts.functors
  constructor
  · refine ⟨puts.isOpen, ?_⟩
    rw [functors]
    intro functor membership
    rcases List.mem_append.mp membership with earlier | new
    · exact side.plain functor earlier
    · exact .inl (notify functor new)
  · unfold queued
    rw [functors, Functor.messages, List.filterMap_append, ← Functor.messages,
      ← Functor.messages, messages_of_notifies notify, List.append_nil]

theorem Side.runFunctor (side : Side conn) {result : WriteResult} (harmless : ¬ result.Fault)
    {functor : Functor} {rest : List Functor}
    (pending : conn.pending_functors_ = functor :: rest) :
    Side (runFunctor conn result) ∧
      TcpConnection.Puts { conn with pending_functors_ := rest } (functor.message?.getD [])
        (Echo.runFunctor conn result) ∧
      (runFunctor conn result).outgoing ++ queued (runFunctor conn result) =
        conn.outgoing ++ queued conn := by
  have waiting : Side { conn with pending_functors_ := rest } := by
    obtain ⟨state_, interest, input, shutdownWrites⟩ := side.isOpen
    refine ⟨⟨state_, interest, input, shutdownWrites⟩, ?_⟩
    intro later membership
    apply side.plain
    rw [pending]
    exact List.mem_cons_of_mem _ membership
  have puts : TcpConnection.Puts { conn with pending_functors_ := rest }
      (functor.message?.getD []) (Echo.runFunctor conn result) := by
    unfold Echo.runFunctor
    rw [pending]
    have member : functor ∈ conn.pending_functors_ := by
      rw [pending]
      exact List.mem_cons_self
    rcases side.plain functor member with notifies | ⟨s, rfl⟩
    · rw [message?_of_notifies notifies]
      have same : TcpConnection.runFunctor { conn with pending_functors_ := rest } functor
          result = { conn with pending_functors_ := rest } := by
        cases functor with
        | writeCompleteCallback | highWaterMarkCallback => rfl
        | _ => exact notifies.elim
      simp only [same]
      exact ⟨waiting.isOpen, (List.append_nil _).symm, List.prefix_refl _, [], by simp,
        (List.append_nil _).symm⟩
    · exact waiting.isOpen.sendInLoop s harmless
  obtain ⟨side', queue⟩ := waiting.puts puts
  refine ⟨side', puts, ?_⟩
  rw [puts.outgoing, queue, List.append_assoc]
  unfold queued
  rw [pending]
  cases message : functor.message? <;> simp [Functor.messages, message, TcpConnection.outgoing]

theorem Side.sendElsewhere (side : Side conn) (buf : Bytes) :
    Side (sendElsewhere conn buf) ∧ (sendElsewhere conn buf).accepted = conn.accepted ∧
      (sendElsewhere conn buf).outgoing ++ queued (sendElsewhere conn buf) =
        conn.outgoing ++ queued conn ++ buf := by
  unfold GdRpc.Example.sendElsewhere
  rw [if_pos side.isOpen.state_]
  obtain ⟨⟨state_, interest, input, shutdownWrites⟩, plain⟩ := side
  refine ⟨⟨⟨state_, interest, input, shutdownWrites⟩, ?_⟩, rfl, ?_⟩
  · intro functor membership
    rcases List.mem_append.mp membership with earlier | new
    · exact plain functor earlier
    · exact .inr ⟨buf, List.mem_singleton.mp new⟩
  · simp [queued, Functor.messages, TcpConnection.queueInLoop, Functor.message?,
      TcpConnection.outgoing]

/-! ## The ring -/

/-- The bytes go round in order: what the client has written is `all`, what the
server has written is what has reached it, and `get_` is what has come back. -/
structure Ring (echo : Echo) : Prop where
  client : Side echo.client
  server : echo.server.Open
  silent : ∀ functor ∈ echo.server.pending_functors_, functor.Notifies
  toServer_le : echo.toServer ≤ echo.client.accepted.length
  toClient_le : echo.toClient ≤ echo.server.accepted.length
  written : echo.client.outgoing ++ queued echo.client = echo.all
  echoed : echo.server.outgoing = echo.client.accepted.take echo.toServer
  got : echo.get_ = echo.server.accepted.take echo.toClient
  plain : 10 ∉ echo.all
  quit : echo.quit = false
  woken : echo.main = .woken → echo.get_ = echo.all

variable {echo : Echo}

theorem ring_new : new.Ring := by
  have client : Side new.client :=
    ⟨TcpConnection.open_new true false, fun _ membership => absurd membership List.not_mem_nil⟩
  have server : new.server.Open := TcpConnection.open_new false false
  exact ⟨client, server, fun _ membership => absurd membership List.not_mem_nil,
    Nat.le_refl 0, Nat.le_refl 0, rfl, rfl, rfl, List.not_mem_nil, rfl,
    fun woken => absurd woken (by decide)⟩

theorem accepted_prefix_outgoing (conn : TcpConnection) : conn.accepted <+: conn.outgoing :=
  List.prefix_append _ _

theorem Ring.get_prefix (ring : echo.Ring) : echo.get_ <+: echo.all := by
  have back : echo.get_ <+: echo.server.accepted := by
    rw [ring.got]
    exact List.take_prefix _ _
  have there : echo.client.accepted.take echo.toServer <+: echo.client.accepted :=
    List.take_prefix _ _
  have served : echo.server.outgoing <+: echo.client.accepted.take echo.toServer := by
    rw [ring.echoed]
  have whole : echo.client.outgoing <+: echo.all := by
    rw [← ring.written]
    exact List.prefix_append _ _
  exact (((back.trans (accepted_prefix_outgoing _)).trans served).trans there).trans
    ((accepted_prefix_outgoing _).trans whole)

theorem Puts.silent {s : Bytes} (puts : conn.Puts s after)
    (silent : ∀ functor ∈ conn.pending_functors_, functor.Notifies) :
    ∀ functor ∈ after.pending_functors_, functor.Notifies := by
  obtain ⟨added, notify, functors⟩ := puts.functors
  rw [functors]
  intro functor membership
  rcases List.mem_append.mp membership with earlier | new
  · exact silent functor earlier
  · exact notify functor new

theorem take_of_beginning {before after : Bytes} {count : Nat} (grows : before <+: after)
    (inside : count ≤ before.length) : after.take count = before.take count := by
  obtain ⟨added, rfl⟩ := grows
  exact List.take_append_of_le_length inside

theorem Ring.client_step (ring : echo.Ring) {client : TcpConnection} (side : Side client)
    (accepted : echo.client.accepted <+: client.accepted)
    (written : client.outgoing ++ queued client = echo.client.outgoing ++ queued echo.client) :
    Ring { echo with client := client } := by
  constructor
  · exact side
  · exact ring.server
  · exact ring.silent
  · exact Nat.le_trans ring.toServer_le accepted.length_le
  · exact ring.toClient_le
  · exact written.trans ring.written
  · exact ring.echoed.trans (take_of_beginning accepted ring.toServer_le).symm
  · exact ring.got
  · exact ring.plain
  · exact ring.quit
  · exact ring.woken

theorem Ring.server_step (ring : echo.Ring) {before server : TcpConnection}
    (same : before.accepted = echo.server.accepted ∧ before.outgoing = echo.server.outgoing)
    (silent : ∀ functor ∈ before.pending_functors_, functor.Notifies)
    (puts : before.Puts [] server) : Ring { echo with server := server } := by
  have accepted : echo.server.accepted <+: server.accepted := by
    rw [← same.1]
    exact puts.accepted
  constructor
  · exact ring.client
  · exact puts.isOpen
  · exact Puts.silent puts silent
  · exact ring.toServer_le
  · exact Nat.le_trans ring.toClient_le accepted.length_le
  · exact ring.written
  · rw [puts.outgoing, List.append_nil, same.2]
    exact ring.echoed
  · exact ring.got.trans (take_of_beginning accepted ring.toClient_le).symm
  · exact ring.plain
  · exact ring.quit
  · exact ring.woken

theorem take_add_of_beginning {stream data : Bytes} {count : Nat}
    (arrives : data <+: stream.drop count) :
    stream.take (count + data.length) = stream.take count ++ data := by
  rw [List.take_add, ← List.prefix_iff_eq_take.mp arrives]

theorem Ring.write (ring : echo.Ring) (writing : echo.main = .writing) {message : Bytes}
    (plain : 10 ∉ message) : (echo.write message).Ring := by
  obtain ⟨side, accepted, written⟩ := ring.client.sendElsewhere message
  constructor
  · exact side
  · exact ring.server
  · exact ring.silent
  · rw [Echo.write, accepted]
    exact ring.toServer_le
  · exact ring.toClient_le
  · rw [Echo.write, written, ring.written]
  · rw [Echo.write, accepted]
    exact ring.echoed
  · exact ring.got
  · rw [Echo.write, List.mem_append, not_or]
    exact ⟨ring.plain, plain⟩
  · exact ring.quit
  · intro woken
    rw [Echo.write, writing] at woken
    exact absurd woken (by decide)

theorem Ring.clientRead_delivered (ring : echo.Ring) {data : Bytes}
    (arrives : Arrives echo.server echo.client echo.toClient (.delivered data)) :
    data ≠ [] ∧ ∃ client, echo.client.Puts [] client ∧
      client.accepted = echo.client.accepted ∧
      client.pending_functors_ = echo.client.pending_functors_ ∧
      echo.clientRead (.delivered data) = { echo with
        client := client
        toClient := echo.toClient + data.length
        get_ := echo.get_ ++ data
        main := if (echo.get_ ++ data).length = echo.all.length then echo.main.notify_one
          else echo.main } := by
  obtain ⟨inFlight, fits, closed⟩ := arrives
  have some : data ≠ [] := fun none => closed none ring.server.shutdownWrites
  obtain ⟨msg, puts, accepted, pending⟩ := ring.client.isOpen.readAll_handleRead some fits
  refine ⟨some, _, puts, accepted, pending, ?_⟩
  unfold clientRead onMessage
  rw [if_neg (by exact some)]
  dsimp only
  rw [msg]
  rfl

theorem Ring.clientRead (ring : echo.Ring) {result : ReadvResult}
    (arrives : Arrives echo.server echo.client echo.toClient result) :
    (echo.clientRead result).Ring := by
  cases result with
  | failed errno => exact ring
  | delivered data =>
      obtain ⟨some, client, puts, accepted, -, after⟩ := ring.clientRead_delivered arrives
      obtain ⟨side, queue⟩ := ring.client.puts puts
      have inFlight := arrives.1
      have kept : Ring { echo with
          client := client
          toClient := echo.toClient + data.length
          get_ := echo.get_ ++ data
          main := .writing } := by
        constructor
        · exact side
        · exact ring.server
        · exact ring.silent
        · rw [accepted]
          exact ring.toServer_le
        · have length := inFlight.length_le
          have before := ring.toClient_le
          rw [List.length_drop] at length
          dsimp only
          omega
        · rw [puts.outgoing, queue, List.append_nil]
          exact ring.written
        · rw [accepted]
          exact ring.echoed
        · rw [take_add_of_beginning inFlight, ring.got]
        · exact ring.plain
        · exact ring.quit
        · intro woken
          cases woken
      have isPrefix := kept.get_prefix
      rw [after]
      refine { kept with woken := ?_ }
      intro woken
      dsimp only at woken ⊢
      split at woken
      next same => exact isPrefix.eq_of_length same
      next other =>
        -- the main thread has been woken before, and nothing has been missing
        have whole := ring.woken woken
        rw [← whole] at isPrefix
        have length := isPrefix.length_le
        rw [List.length_append] at length
        exact absurd (List.length_eq_zero_iff.mp (by omega)) some

theorem Ring.serverRead_delivered (ring : echo.Ring) {data : Bytes} {bye back : WriteResult}
    (arrives : Arrives echo.client echo.server echo.toServer (.delivered data))
    (harmless : ¬ back.Fault) :
    ∃ server, echo.server.Puts data server ∧
      echo.serverRead (.delivered data) bye back = { echo with
        server := server
        toServer := echo.toServer + data.length } := by
  obtain ⟨inFlight, fits, closed⟩ := arrives
  have some : data ≠ [] := fun none => closed none ring.client.isOpen.shutdownWrites
  obtain ⟨msg, puts, -, -⟩ := ring.server.readAll_handleRead some fits
  have plain : 10 ∉ data := by
    intro membership
    have here := List.mem_of_mem_drop (inFlight.subset membership)
    apply ring.plain
    rw [← ring.written]
    exact List.mem_append_left _ (List.mem_append_left _ here)
  have noExit : data ≠ ascii "exit\n" := by
    rintro rfl
    exact plain (by decide)
  have noQuit : data ≠ ascii "quit\n" := by
    rintro rfl
    exact plain (by decide)
  refine ⟨_, puts.trans (puts.isOpen.sendInLoop data harmless), ?_⟩
  have isSent : EchoServer.onMessage (echo.server.handleRead (.delivered data)) bye back =
      ((echo.server.handleRead (.delivered data)).readAll.2.2.sendInLoop data back, false) := by
    unfold EchoServer.onMessage sendOnLoop
    simp only [msg, noExit, noQuit, if_false, puts.isOpen.state_, if_true, decide_false]
  unfold serverRead
  rw [if_neg (by exact some)]
  dsimp only
  rw [isSent, ← ring.quit]
  rfl

theorem Ring.serverRead (ring : echo.Ring) {result : ReadvResult} {bye back : WriteResult}
    (arrives : Arrives echo.client echo.server echo.toServer result) (harmless : ¬ back.Fault) :
    (echo.serverRead result bye back).Ring := by
  cases result with
  | failed errno => exact ring
  | delivered data =>
      have inFlight := arrives.1
      obtain ⟨server, puts, after⟩ := @Ring.serverRead_delivered _ ring _ bye _ arrives harmless
      rw [after]
      constructor
      · exact ring.client
      · exact puts.isOpen
      · exact Puts.silent puts ring.silent
      · have length := inFlight.length_le
        have before := ring.toServer_le
        rw [List.length_drop] at length
        dsimp only
        omega
      · exact Nat.le_trans ring.toClient_le puts.accepted.length_le
      · exact ring.written
      · rw [puts.outgoing, ring.echoed]
        exact (take_add_of_beginning inFlight).symm
      · exact ring.got.trans (take_of_beginning puts.accepted ring.toClient_le).symm
      · exact ring.plain
      · exact ring.quit
      · exact ring.woken

theorem Ring.next (ring : echo.Ring) {event : Event} (enabled : echo.Enabled event) :
    (echo.next event).Ring := by
  cases event with
  | write message => exact ring.write enabled.1 enabled.2
  | wait => exact { ring with woken := fun woken => absurd woken (by simp [Echo.next]) }
  | clientFunctor result =>
      obtain ⟨functor, rest, pending⟩ := List.exists_cons_of_ne_nil enabled.1
      obtain ⟨side, puts, written⟩ := ring.client.runFunctor enabled.2 pending
      exact ring.client_step side puts.accepted written
  | clientWrite result =>
      have puts := ring.client.isOpen.handleWrite result
      obtain ⟨side, queue⟩ := ring.client.puts puts
      refine ring.client_step side puts.accepted ?_
      rw [puts.outgoing, queue, List.append_nil]
  | clientRead result => exact ring.clientRead enabled
  | serverFunctor result =>
      obtain ⟨-, some, harmless⟩ := enabled
      obtain ⟨functor, rest, pending⟩ := List.exists_cons_of_ne_nil some
      have notifies : functor.Notifies := ring.silent functor (pending ▸ List.mem_cons_self)
      have side : Side echo.server :=
        ⟨ring.server, fun functor membership => .inl (ring.silent functor membership)⟩
      have puts := (side.runFunctor harmless pending).2.1
      rw [message?_of_notifies notifies] at puts
      refine @Ring.server_step echo ring { echo.server with pending_functors_ := rest } _
        ⟨rfl, rfl⟩ ?_ puts
      intro later membership
      apply ring.silent
      rw [pending]
      exact List.mem_cons_of_mem _ membership
  | serverWrite result =>
      exact ring.server_step ⟨rfl, rfl⟩ ring.silent (ring.server.handleWrite result)
  | serverRead result bye back => exact ring.serverRead enabled.2.1 enabled.2.2.2

/-! ## Everything comes back -/

/-- The stages that the bytes have passed, all together. -/
def stages (echo : Echo) : Nat :=
  echo.client.outgoing.length + echo.client.accepted.length + echo.toServer +
    echo.server.accepted.length + echo.toClient

theorem Ring.stages_le (ring : echo.Ring) : echo.stages ≤ 5 * echo.all.length := by
  have outgoing : echo.client.outgoing.length ≤ echo.all.length := by
    rw [← ring.written, List.length_append]
    exact Nat.le_add_right _ _
  have accepted := (accepted_prefix_outgoing echo.client).length_le
  have served := (accepted_prefix_outgoing echo.server).length_le
  have echoed := congrArg List.length ring.echoed
  have toServer := ring.toServer_le
  have toClient := ring.toClient_le
  rw [List.length_take] at echoed
  unfold stages
  omega

theorem arrives_next {sender receiver : TcpConnection} {taken : Nat}
    (inFlight : taken < sender.accepted.length) :
    Arrives sender receiver taken (.delivered [sender.accepted[taken]]) := by
  refine ⟨?_, ?_, fun none => absurd none (List.cons_ne_nil _ _)⟩
  · rw [List.drop_eq_getElem_cons inFlight]
    exact List.prefix_append [_] _
  · unfold Buffer.readvLength Buffer.extrabufSize
    rw [List.length_singleton]
    split <;> omega

theorem outgoing_of_idle (interest : conn.InterestMatchesBuffer)
    (idle : ¬ conn.channel_.isWriting = true) : conn.outgoing = conn.accepted := by
  have empty : conn.outputBuffer_.readable = [] := by
    by_contra nonempty
    exact idle (interest.mpr nonempty)
  rw [TcpConnection.outgoing, empty, List.append_nil]

theorem queued_of_quiet (quiet : ∀ functor ∈ conn.pending_functors_, functor.Notifies) :
    queued conn = [] := by
  rw [queued, messages_of_notifies quiet]
  rfl

/-- Once no message waits for the loop, bytes that are missing can be moved. -/
theorem Ring.progress (ring : echo.Ring)
    (quiet : ∀ functor ∈ echo.client.pending_functors_, functor.Notifies)
    (missing : echo.get_ ≠ echo.all) :
    ∃ event, echo.Enabled event ∧ (echo.next event).all = echo.all ∧
      echo.stages < (echo.next event).stages ∧
      ∀ functor ∈ (echo.next event).client.pending_functors_, functor.Notifies := by
  -- the first place, from the client on, where bytes wait
  by_cases clientWriting : echo.client.channel_.isWriting = true
  · have puts := ring.client.isOpen.handleWrite (.wrote 1)
    refine ⟨.clientWrite (.wrote 1), id, rfl, ?_, Puts.silent puts quiet⟩
    have more := ring.client.isOpen.handleWrite_takes clientWriting
    simp only [stages, Echo.next, puts.outgoing, List.append_nil]
    omega
  by_cases inFlight : echo.toServer < echo.client.accepted.length
  · have arrives : Arrives echo.client echo.server echo.toServer
        (.delivered [echo.client.accepted[echo.toServer]]) := arrives_next inFlight
    obtain ⟨server, puts, after⟩ :=
      @Ring.serverRead_delivered _ ring _ (.wrote 0) (.wrote 0) arrives id
    refine ⟨.serverRead _ (.wrote 0) (.wrote 0), ⟨ring.quit, arrives, id, id⟩, ?_⟩
    have accepted := puts.accepted.length_le
    simp only [Echo.next, after, stages, List.length_singleton]
    exact ⟨trivial, by omega, quiet⟩
  by_cases serverWriting : echo.server.channel_.isWriting = true
  · have puts := ring.server.handleWrite (.wrote 1)
    refine ⟨.serverWrite (.wrote 1), ⟨ring.quit, id⟩, rfl, ?_, quiet⟩
    have more := ring.server.handleWrite_takes serverWriting
    simp only [stages, Echo.next]
    omega
  by_cases back : echo.toClient < echo.server.accepted.length
  · have arrives : Arrives echo.server echo.client echo.toClient
        (.delivered [echo.server.accepted[echo.toClient]]) := arrives_next back
    obtain ⟨-, client, puts, accepted, pending, after⟩ := ring.clientRead_delivered arrives
    refine ⟨.clientRead (.delivered [echo.server.accepted[echo.toClient]]), arrives, ?_⟩
    simp only [Echo.next, after, stages, List.length_singleton, puts.outgoing, List.append_nil,
      accepted, pending]
    exact ⟨trivial, by omega, quiet⟩
  · refine absurd ?_ missing
    rw [ring.got, List.take_of_length_le (Nat.le_of_not_lt back),
      ← outgoing_of_idle ring.server.interest serverWriting, ring.echoed,
      List.take_of_length_le (Nat.le_of_not_lt inFlight),
      ← outgoing_of_idle ring.client.isOpen.interest clientWriting, ← ring.written,
      queued_of_quiet quiet, List.append_nil]

/-- The loop gets through the functors that wait, and only notifications are
queued meanwhile. -/
theorem Ring.drain (ring : echo.Ring) {waiting quiet : List Functor}
    (pending : echo.client.pending_functors_ = waiting ++ quiet)
    (notify : ∀ functor ∈ quiet, functor.Notifies) :
    ∃ events finish, system.Run echo events finish ∧ finish.Ring ∧
      ∀ functor ∈ finish.client.pending_functors_, functor.Notifies := by
  induction waiting generalizing echo quiet with
  | nil =>
      rw [List.nil_append] at pending
      exact ⟨[], echo, .nil, ring, pending ▸ notify⟩
  | cons functor waiting inductionHypothesis =>
      have harmless : ¬ (WriteResult.wrote 0).Fault := id
      have puts := (ring.client.runFunctor harmless pending).2.1
      obtain ⟨added, notifyAdded, functors⟩ := puts.functors
      have enabled : echo.Enabled (.clientFunctor (.wrote 0)) := by
        refine ⟨?_, harmless⟩
        rw [pending]
        exact List.cons_ne_nil _ _
      have step : system.Run echo [.clientFunctor (.wrote 0)] (echo.next _) :=
        System.Run.single system echo _ ⟨enabled, rfl⟩
      have later : ∀ functor ∈ quiet ++ added, functor.Notifies := by
        intro functor membership
        rcases List.mem_append.mp membership with earlier | new
        · exact notify functor earlier
        · exact notifyAdded functor new
      obtain ⟨events, finish, run, ring', silent⟩ := inductionHypothesis
        (ring.next enabled) (functors.trans (List.append_assoc _ _ _)) later
      exact ⟨_, finish, step.append run, ring', silent⟩

theorem Ring.completes_of_quiet (ring : echo.Ring)
    (quiet : ∀ functor ∈ echo.client.pending_functors_, functor.Notifies) :
    ∃ events finish, system.Run echo events finish ∧ finish.get_ = finish.all := by
  induction measure : 5 * echo.all.length - echo.stages using Nat.strong_induction_on
    generalizing echo with
  | h missing inductionHypothesis =>
      by_cases done : echo.get_ = echo.all
      · exact ⟨[], echo, .nil, done⟩
      · obtain ⟨event, enabled, all, further, silent⟩ := ring.progress quiet done
        have ring' := ring.next enabled
        have bound := ring'.stages_le
        have less : 5 * (echo.next event).all.length - (echo.next event).stages < missing := by
          rw [all] at bound ⊢
          omega
        obtain ⟨more, finish, onward, result⟩ := inductionHypothesis _ less ring' silent rfl
        have step := System.Run.single system echo event ⟨enabled, rfl⟩
        exact ⟨_, finish, step.append onward, result⟩

/-- From every state on all bytes can come back. -/
theorem Ring.completes (ring : echo.Ring) :
    ∃ events finish, system.Run echo events finish ∧ finish.get_ = finish.all := by
  obtain ⟨events, drained, run, ring, quiet⟩ := ring.drain (List.append_nil _).symm
    (fun functor membership => absurd membership List.not_mem_nil)
  obtain ⟨more, finish, onward, result⟩ := ring.completes_of_quiet quiet
  exact ⟨_, finish, run.append onward, result⟩

theorem reachable_ring {events : List Event} (execution : system.Execution events echo) :
    echo.Ring := by
  apply execution.invariant Ring
  · rintro _ rfl
    exact ring_new
  · rintro state event after ring ⟨enabled, rfl⟩
    exact ring.next enabled

/-- However the kernel cuts the streams and however the two loops and the main
thread take turns, the server takes nothing for a command, what has come back is
the beginning of what has been written, the rest is on its way in order, a main
thread that has been woken finds the two strings equal, and from every state all
can still come back. -/
theorem echo_in_order {events : List Event} (execution : system.Execution events echo) :
    echo.quit = false ∧ echo.client.shutdownWrites = 0 ∧ echo.server.shutdownWrites = 0 ∧
    echo.get_ ++ echo.server.outgoing.drop echo.toClient ++
      echo.client.outgoing.drop echo.toServer ++ queued echo.client = echo.all ∧
    (echo.main = .woken → echo.get_ = echo.all) ∧
    ∃ more finish, system.Run echo more finish ∧ finish.get_ = finish.all := by
  have ring := reachable_ring execution
  refine ⟨ring.quit, ring.client.isOpen.shutdownWrites, ring.server.shutdownWrites, ?_,
    ring.woken, ring.completes⟩
  have back : echo.get_ ++ echo.server.outgoing.drop echo.toClient = echo.server.outgoing := by
    rw [ring.got, ← take_of_beginning (accepted_prefix_outgoing echo.server) ring.toClient_le]
    exact List.take_append_drop _ _
  have there : echo.server.outgoing ++ echo.client.outgoing.drop echo.toServer =
      echo.client.outgoing := by
    rw [ring.echoed, ← take_of_beginning (accepted_prefix_outgoing echo.client) ring.toServer_le]
    exact List.take_append_drop _ _
  rw [back, there]
  exact ring.written

/-- Two messages, the first cut by the kernel, of which two bytes have come back. -/
theorem echo_in_order_two :
    let events : List Event := [.write [97, 98], .clientFunctor (.wrote 1), .write [99],
      .serverRead (.delivered [97]) (.wrote 0) (.wrote 1), .clientWrite (.wrote 1),
      .serverRead (.delivered [98]) (.wrote 0) (.wrote 1), .clientRead (.delivered [97, 98])]
    ∃ echo, system.Execution events echo ∧ echo.get_ = [97, 98] ∧
      queued echo.client = [99] ∧
      echo.get_ ++ echo.server.outgoing.drop echo.toClient ++
        echo.client.outgoing.drop echo.toServer ++ queued echo.client = [97, 98, 99] := by
  intro events
  have execution := System.Execution.foldl system Enabled (fun _ _ enabled => ⟨enabled, rfl⟩) rfl
    (show System.Allowed Enabled next new events by decide +kernel)
  exact ⟨_, execution, by decide +kernel, by decide +kernel, (echo_in_order execution).2.2.2.1⟩

/-! ## The main thread waits -/

/-- Once the main thread has stopped writing, only the return of bytes can wake
it. -/
theorem Ring.next_main (ring : echo.Ring) {event : Event} (enabled : echo.Enabled event)
    (stopped : echo.main ≠ .writing) :
    (echo.next event).all = echo.all ∧
      ((echo.next event).get_ = echo.get_ ∧ (echo.next event).main = echo.main ∨
        ∃ data, data ≠ [] ∧ (echo.next event).get_ = echo.get_ ++ data ∧
          (echo.next event).main = if (echo.get_ ++ data).length = echo.all.length then
            echo.main.notify_one else echo.main) := by
  cases event with
  | write message => exact absurd enabled.1 stopped
  | wait => exact absurd enabled stopped
  | clientFunctor | clientWrite | serverFunctor | serverWrite => exact ⟨rfl, .inl ⟨rfl, rfl⟩⟩
  | serverRead result bye back =>
      unfold Echo.next Echo.serverRead
      dsimp only
      split <;> exact ⟨rfl, .inl ⟨rfl, rfl⟩⟩
  | clientRead result =>
      cases result with
      | failed errno => exact ⟨rfl, .inl ⟨rfl, rfl⟩⟩
      | delivered data =>
          obtain ⟨some, client, -, -, -, after⟩ := ring.clientRead_delivered enabled
          simp only [Echo.next, after]
          exact ⟨trivial, .inr ⟨data, some, rfl, rfl⟩⟩

theorem Ring.never_woken (ring : echo.Ring) (waiting : echo.main = .waiting)
    (whole : echo.get_ = echo.all) {events : List Event} {finish : Echo}
    (run : system.Run echo events finish) : finish.main = .waiting := by
  have invariant := run.invariant
    (fun state => state.Ring ∧ state.main = .waiting ∧ state.get_ = state.all)
    ⟨ring, waiting, whole⟩ ?_
  · exact invariant.2.1
  · rintro state event after ⟨ring, waiting, whole⟩ ⟨enabled, rfl⟩
    have ring' := ring.next enabled
    have stopped : state.main ≠ .writing := by
      rw [waiting]
      decide
    obtain ⟨all, ⟨get_, main⟩ | ⟨data, some, get_, -⟩⟩ := ring.next_main enabled stopped
    · exact ⟨ring', main.trans waiting, by rw [get_, all, whole]⟩
    · have length := ring'.get_prefix.length_le
      rw [get_, all, whole, List.length_append] at length
      exact absurd (List.length_eq_zero_iff.mp (by omega)) some

theorem Ring.woken_of_whole (ring : echo.Ring) (waiting : echo.main = .waiting)
    (missing : echo.get_ ≠ echo.all) {events : List Event} {finish : Echo}
    (run : system.Run echo events finish) (whole : finish.get_ = finish.all) :
    finish.main = .woken := by
  have invariant := run.invariant
    (fun state => state.Ring ∧
      (state.main = .waiting ∧ state.get_ ≠ state.all ∨ state.main = .woken))
    ⟨ring, .inl ⟨waiting, missing⟩⟩ ?_
  · rcases invariant.2 with ⟨-, missing⟩ | woken
    · exact absurd whole missing
    · exact woken
  · rintro state event after ⟨ring, waits⟩ ⟨enabled, rfl⟩
    refine ⟨ring.next enabled, ?_⟩
    have stopped : state.main ≠ .writing := by
      rcases waits with ⟨waiting, -⟩ | woken <;> simp [*]
    obtain ⟨all, ⟨get_, main⟩ | ⟨data, -, get_, main⟩⟩ := ring.next_main enabled stopped
    · rw [main, get_, all]
      exact waits
    · rw [main, get_, all]
      split
      next same => rcases waits with ⟨waiting, -⟩ | woken <;> simp [*, Main.notify_one]
      next other =>
        rcases waits with ⟨waiting, -⟩ | woken
        · exact .inl ⟨waiting, fun whole => other (congrArg List.length whole)⟩
        · exact .inr woken

/-- The main thread can be woken exactly if the echo is not complete when it
starts to wait: the notification for the last byte is not kept for it. Wake-ups
of `cond.wait` without a notification are left out. -/
theorem main_woken_iff {events : List Event} (execution : system.Execution events echo)
    (writing : echo.main = .writing) :
    (∃ more finish, system.Run (echo.next .wait) more finish ∧ finish.main = .woken) ↔
      echo.get_ ≠ echo.all := by
  have ring : (echo.next .wait).Ring := (reachable_ring execution).next writing
  constructor
  · rintro ⟨more, finish, run, woken⟩ whole
    rw [ring.never_woken rfl whole run] at woken
    exact absurd woken (by decide)
  · intro missing
    obtain ⟨more, finish, run, whole⟩ := ring.completes
    exact ⟨more, finish, run, ring.woken_of_whole rfl missing run whole⟩

/-- The echo of one byte is back before the main thread waits for it. -/
theorem main_woken_iff_early :
    let events : List Event := [.write [97], .clientFunctor (.wrote 1),
      .serverRead (.delivered [97]) (.wrote 0) (.wrote 1), .clientRead (.delivered [97])]
    ∃ echo, system.Execution events echo ∧ echo.get_ = [97] ∧
      ¬ ∃ more finish, system.Run (echo.next .wait) more finish ∧ finish.main = .woken := by
  intro events
  have execution := System.Execution.foldl system Enabled (fun _ _ enabled => ⟨enabled, rfl⟩) rfl
    (show System.Allowed Enabled next new events by decide +kernel)
  refine ⟨_, execution, by decide +kernel, ?_⟩
  rw [main_woken_iff execution (by decide +kernel), not_not]
  decide +kernel

end Echo

end GdRpc.Example
