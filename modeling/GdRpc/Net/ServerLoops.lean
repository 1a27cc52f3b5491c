import GdRpc.Net.TcpServer
import Mathlib.Data.Int.CardIntervalMod

/-!
# The loops of the server's connections

Connections go to the sub-loops in turn, and whatever the server binds for a
connection goes to the queue of its own loop: so the base loop, which binds
both, has `connectEstablished` in front of `connectDestroyed`, even where a
removal has read a variable that is gone.
-/

namespace GdRpc.Net

open GdRpc.Library

namespace TcpServer

/-- The loop of the connection accepted in place `index`. -/
def loopFor (loops_ index : Nat) : Option Nat :=
  if loops_ = 0 then none else some (index % loops_)

/-- The connections that a loop has been given, closed or not. -/
def given (server : TcpServer) (loop : Option Nat) : List Nat :=
  (List.range server.accepted.length).filter fun connection =>
    server.accepted[connection]?.map ServerConnection.loop_ = some loop

/-- Those of them that are still there. -/
def live (server : TcpServer) (loop : Option Nat) : List Nat :=
  (server.given loop).filter (· ∉ server.destroyed)

/-! ## Taking turns -/

/-- `next_` has the turn of the next connection. -/
structure InTurn (server : TcpServer) : Prop where
  next_ : 0 < server.loops_ → server.next_ = server.accepted.length % server.loops_
  turns : server.accepted.map ServerConnection.loop_ =
    (List.range server.accepted.length).map (loopFor server.loops_)

theorem succ_mod (index : Nat) {loops_ : Nat} (positive : 0 < loops_) :
    (index + 1) % loops_ =
      if index % loops_ + 1 ≥ loops_ then 0 else index % loops_ + 1 := by
  have below := Nat.mod_lt index positive
  rw [← Nat.mod_add_mod]
  split
  next last =>
    have wraps : index % loops_ + 1 = loops_ := by omega
    rw [wraps, Nat.mod_self]
  next before => exact Nat.mod_eq_of_lt (by omega)

theorem getNextLoop_inTurn {server : TcpServer} (inTurn : server.InTurn) :
    server.getNextLoop.1 = loopFor server.loops_ server.accepted.length ∧
      (0 < server.loops_ →
        server.getNextLoop.2 = (server.accepted.length + 1) % server.loops_) := by
  unfold getNextLoop loopFor
  split
  next none => exact ⟨rfl, by omega⟩
  next some =>
    have positive := Nat.pos_of_ne_zero some
    have turn := inTurn.next_ positive
    rw [succ_mod _ positive, turn]
    exact ⟨rfl, fun _ => rfl⟩

/-- What does not accept leaves the turns alone. -/
structure SameTurns (before after : TcpServer) : Prop where
  loops_ : after.loops_ = before.loops_
  next_ : after.next_ = before.next_
  accepted : after.accepted = before.accepted

theorem SameTurns.inTurn {before after : TcpServer} (same : before.SameTurns after)
    (inTurn : before.InTurn) : after.InTurn := by
  obtain ⟨loops_, next_, accepted⟩ := same
  refine ⟨?_, ?_⟩
  · rw [loops_, next_, accepted]
    exact inTurn.next_
  · rw [loops_, accepted]
    exact inTurn.turns

theorem remove_sameTurns (server : TcpServer) (close : Nat) (referred : Option Nat) :
    server.SameTurns (server.remove close referred) := by
  unfold remove
  dsimp only
  split
  · exact ⟨rfl, rfl, rfl⟩
  · split <;> exact ⟨rfl, rfl, rfl⟩

theorem handleClose_sameTurns (server : TcpServer) (connection : Nat) (conn : ServerConnection) :
    server.SameTurns (server.handleClose connection conn) := by
  unfold handleClose
  dsimp only
  split
  · obtain ⟨loops_, next_, accepted⟩ := remove_sameTurns { server with
      closes := server.closes ++ [connection]
      frames := Function.update server.frames conn.loop_ (some server.closes.length) }
      server.closes.length (some connection)
    exact ⟨loops_, next_, accepted⟩
  · exact ⟨rfl, rfl, rfl⟩

theorem run_sameTurns (server : TcpServer) (stale : Option Nat) (functor : ServerFunctor) :
    server.SameTurns (server.run stale functor) := by
  cases functor with
  | connectEstablished | connectDestroyed => exact ⟨rfl, rfl, rfl⟩
  | removeConnectionInLoop close => exact server.remove_sameTurns close _

theorem newConnection_inTurn {server : TcpServer} (inTurn : server.InTurn) :
    server.newConnection.InTurn := by
  obtain ⟨loop, next_⟩ := getNextLoop_inTurn inTurn
  have accepts : server.newConnection.loops_ = server.loops_ ∧
      server.newConnection.next_ = server.getNextLoop.2 ∧
      server.newConnection.accepted = server.accepted ++
        [⟨connName server.name_ server.addr_ server.nextConnId_, server.getNextLoop.1⟩] := by
    unfold newConnection
    dsimp only
    split <;> exact ⟨rfl, rfl, rfl⟩
  obtain ⟨loops, next, accepted⟩ := accepts
  refine ⟨?_, ?_⟩
  · rw [loops, next, accepted, List.length_append]
    exact next_
  · rw [loops, accepted, List.length_append, List.length_singleton, List.range_succ,
      List.map_append, List.map_append, inTurn.turns, loop]
    rfl

theorem next_inTurn {server : TcpServer} (inTurn : server.InTurn) (event : Event) :
    (server.next event).InTurn := by
  cases event with
  | newConnection => exact newConnection_inTurn inTurn
  | handleClose connection =>
      simp only [next]
      split
      next conn _ => exact (server.handleClose_sameTurns connection conn).inTurn inTurn
      next => exact inTurn
  | returns loop =>
      have same : server.SameTurns (server.next (.returns loop)) := ⟨rfl, rfl, rfl⟩
      exact same.inTurn inTurn
  | functor loop stale =>
      simp only [next]
      split
      next => exact inTurn
      next functor functors _ =>
        apply (run_sameTurns _ stale functor).inTurn
        have taken : server.SameTurns { server with
            pending_functors_ := Function.update server.pending_functors_ loop functors } :=
          ⟨rfl, rfl, rfl⟩
        exact taken.inTurn inTurn

theorem reachable_inTurn {events : List Event} {server : TcpServer}
    (execution : system.Execution events server) : server.InTurn := by
  apply execution.invariant InTurn
  · rintro _ ⟨name_, addr_, loops_, rfl⟩
    exact ⟨fun _ => by simp [new], rfl⟩
  · rintro server event _ inTurn ⟨-, rfl⟩
    exact next_inTurn inTurn event

theorem InTurn.loop_eq {server : TcpServer} (inTurn : server.InTurn) {connection : Nat}
    (bounded : connection < server.accepted.length) :
    server.accepted[connection]?.map ServerConnection.loop_ =
      some (loopFor server.loops_ connection) := by
  have turns := congrArg (·[connection]?) inTurn.turns
  simpa [bounded] using turns

theorem InTurn.length_given {server : TcpServer} (inTurn : server.InTurn) {loop : Nat}
    (bound : loop < server.loops_) :
    (server.given (some loop)).length = server.accepted.length / server.loops_ +
      if loop < server.accepted.length % server.loops_ then 1 else 0 := by
  have positive : 0 < server.loops_ := by omega
  have counted := Nat.count_modEq_card server.accepted.length positive loop
  rw [Nat.mod_eq_of_lt bound] at counted
  rw [given, ← List.countP_eq_length_filter, ← counted, Nat.count]
  apply List.countP_congr
  intro connection membership
  rw [inTurn.loop_eq (List.mem_range.mp membership)]
  simp [loopFor, positive.ne', Nat.ModEq, Nat.mod_eq_of_lt bound]

theorem length_given_eq (server : TcpServer) (loop : Option Nat) :
    (server.given loop).length =
      (server.live loop).length + (server.given loop).countP (· ∈ server.destroyed) := by
  have split := List.length_eq_countP_add_countP (· ∈ server.destroyed) (l := server.given loop)
  rw [live, ← List.countP_eq_length_filter]
  simp only [decide_not, decide_eq_true_eq] at split ⊢
  omega

/-! ## The queue of a connection's own loop -/

/-- The connection a functor is bound to; a removal has a reference instead. -/
def bound : ServerFunctor → Option Nat
  | .connectEstablished connection | .connectDestroyed connection => some connection
  | .removeConnectionInLoop _ => none

/-- What has been established when a functor has run. -/
def establish (established : List Nat) : ServerFunctor → List Nat
  | .connectEstablished connection => established ++ [connection]
  | _ => established

/-- A connection is destroyed after it has been established. -/
def MayRun (established : List Nat) (functor : ServerFunctor) : Prop :=
  ∀ connection, functor = .connectDestroyed connection → connection ∈ established

theorem subset_establish (established : List Nat) (functor : ServerFunctor) :
    established ⊆ establish established functor := by
  cases functor with
  | connectEstablished connection => exact List.subset_append_left _ _
  | _ => exact List.Subset.refl _

theorem count_establish (established : List Nat) (functor : ServerFunctor) (connection : Nat) :
    (establish established functor).count connection = established.count connection +
      if functor = .connectEstablished connection then 1 else 0 := by
  cases functor with
  | connectEstablished first => simp [establish, List.count_singleton]
  | _ => simp [establish]

theorem mem_foldl_establish {established : List Nat} {functors : List ServerFunctor}
    {connection : Nat}
    (waits : connection ∈ established ∨ .connectEstablished connection ∈ functors) :
    connection ∈ functors.foldl establish established := by
  induction functors generalizing established with
  | nil => exact waits.resolve_right List.not_mem_nil
  | cons functor functors inductionHypothesis =>
      apply inductionHypothesis
      rcases waits with before | queued
      · exact Or.inl (subset_establish established functor before)
      · rcases List.mem_cons.mp queued with rfl | later
        · left
          exact List.mem_append_right _ (List.mem_singleton_self _)
        · exact Or.inr later

theorem allowed_of_subset {established more : List Nat} (subset : established ⊆ more)
    {functors : List ServerFunctor}
    (allowed : System.Allowed MayRun establish established functors) :
    System.Allowed MayRun establish more functors := by
  induction functors generalizing established more with
  | nil => trivial
  | cons functor functors inductionHypothesis =>
      obtain ⟨now, later⟩ := allowed
      refine ⟨fun connection same => subset (now connection same), ?_⟩
      refine inductionHypothesis ?_ later
      cases functor with
      | connectEstablished connection =>
          apply List.append_subset.mpr
          exact ⟨fun _ membership => List.mem_append_left _ (subset membership),
            List.subset_append_right _ _⟩
      | _ => exact subset

/-- What the queues hold, given what has been accepted and what has run. -/
structure Served (accepted : List ServerConnection) (established destroyed : List Nat)
    (pending : Option Nat → List ServerFunctor) : Prop where
  own : ∀ loop, ∀ functor ∈ pending loop, ∀ connection ∈ bound functor,
    ∃ conn ∈ accepted[connection]?, conn.loop_ = loop
  known : ∀ connection ∈ established, connection < accepted.length
  once : ∀ connection conn, accepted[connection]? = some conn →
    established.count connection +
      (pending conn.loop_).count (.connectEstablished connection) = 1
  order : ∀ loop, System.Allowed MayRun establish established (pending loop)
  done : ∀ connection ∈ destroyed, connection ∈ established

variable {accepted : List ServerConnection} {established destroyed : List Nat}
  {pending : Option Nat → List ServerFunctor}

theorem Served.covered (served : Served accepted established destroyed pending)
    {connection : Nat} {conn : ServerConnection} (here : accepted[connection]? = some conn) :
    connection ∈ established ∨ .connectEstablished connection ∈ pending conn.loop_ := by
  have once := served.once connection conn here
  by_cases ran : connection ∈ established
  · exact Or.inl ran
  · right
    rw [List.count_eq_zero_of_not_mem ran, Nat.zero_add] at once
    exact List.count_pos_iff.mp (by omega)

theorem Served.push (served : Served accepted established destroyed pending)
    (loop : Option Nat) {functor : ServerFunctor}
    (later : ∀ connection, functor ≠ .connectEstablished connection)
    (own : ∀ connection ∈ bound functor, ∃ conn ∈ accepted[connection]?, conn.loop_ = loop) :
    Served accepted established destroyed
      (Function.update pending loop (pending loop ++ [functor])) := by
  refine ⟨?_, served.known, ?_, ?_, served.done⟩
  · intro place other membership connection here
    by_cases same : place = loop
    · subst same
      rw [Function.update_self, List.mem_append, List.mem_singleton] at membership
      rcases membership with before | rfl
      · exact served.own place other before connection here
      · exact own connection here
    · rw [Function.update_of_ne same] at membership
      exact served.own place other membership connection here
  · intro connection conn here
    rw [← served.once connection conn here]
    by_cases same : conn.loop_ = loop
    · rw [same, Function.update_self, List.count_append, List.count_singleton,
        if_neg (by simpa using later connection), Nat.add_zero]
    · rw [Function.update_of_ne same]
  · intro place
    by_cases same : place = loop
    · subst same
      rw [Function.update_self, System.allowed_append]
      refine ⟨served.order place, ?_⟩
      rintro connection rfl
      obtain ⟨conn, here, onLoop⟩ := own connection rfl
      apply mem_foldl_establish
      rw [← onLoop]
      exact served.covered here
    · rw [Function.update_of_ne same]
      exact served.order place

theorem Served.pop (served : Served accepted established destroyed pending) {loop : Option Nat}
    {functor : ServerFunctor} {functors : List ServerFunctor}
    (front : pending loop = functor :: functors) :
    Served accepted (establish established functor)
      (destroyed ++ match functor with | .connectDestroyed connection => [connection] | _ => [])
      (Function.update pending loop functors) := by
  have member : functor ∈ pending loop := by
    rw [front]
    exact List.mem_cons_self
  have order := served.order loop
  rw [front] at order
  refine ⟨?_, ?_, ?_, ?_, ?_⟩
  · intro place other membership
    by_cases same : place = loop
    · subst same
      rw [Function.update_self] at membership
      apply served.own place
      rw [front]
      exact List.mem_cons_of_mem _ membership
    · rw [Function.update_of_ne same] at membership
      exact served.own place other membership
  · intro connection membership
    cases functor with
    | connectEstablished first =>
        rcases List.mem_append.mp membership with before | new
        · exact served.known connection before
        · rw [List.mem_singleton] at new
          obtain ⟨conn, here, -⟩ := served.own loop _ member connection (by simp [bound, new])
          exact (List.getElem?_eq_some_iff.mp here).1
    | _ => exact served.known connection membership
  · intro connection conn here
    have once := served.once connection conn here
    rw [count_establish]
    by_cases same : conn.loop_ = loop
    · rw [same, front, List.count_cons] at once
      simp only [beq_iff_eq] at once
      rw [same, Function.update_self]
      omega
    · have other : functor ≠ .connectEstablished connection := by
        rintro rfl
        obtain ⟨twin, isTwin, onLoop⟩ := served.own loop _ member connection rfl
        obtain rfl := Option.some.inj (here.symm.trans isTwin)
        exact same onLoop
      rw [Function.update_of_ne same, if_neg other, Nat.add_zero]
      exact once
  · intro place
    by_cases same : place = loop
    · subst same
      rw [Function.update_self]
      exact order.2
    · rw [Function.update_of_ne same]
      exact allowed_of_subset (subset_establish established functor) (served.order place)
  · intro connection membership
    apply subset_establish
    rcases List.mem_append.mp membership with before | new
    · exact served.done connection before
    · cases functor with
      | connectDestroyed last =>
          rw [List.mem_singleton] at new
          exact order.1 connection (by rw [new])
      | _ => cases new

theorem Served.fresh (served : Served accepted established destroyed pending) :
    accepted.length ∉ established ∧
      ∀ loop, .connectEstablished accepted.length ∉ pending loop := by
  refine ⟨fun membership => absurd (served.known _ membership) (lt_irrefl _), ?_⟩
  intro loop membership
  obtain ⟨_, old, -⟩ := served.own loop _ membership accepted.length rfl
  exact absurd (List.getElem?_eq_some_iff.mp old).1 (lt_irrefl _)

theorem Served.widen (served : Served accepted established destroyed pending)
    (conn : ServerConnection) {loop : Option Nat} {functor : ServerFunctor}
    (membership : functor ∈ pending loop) {connection : Nat}
    (here : connection ∈ bound functor) :
    ∃ known ∈ (accepted ++ [conn])[connection]?, known.loop_ = loop := by
  obtain ⟨known, old, onLoop⟩ := served.own loop functor membership connection here
  refine ⟨known, ?_, onLoop⟩
  rw [List.getElem?_append_left (List.getElem?_eq_some_iff.mp old).1]
  exact old

theorem accepted_cases {conn known : ServerConnection} {connection : Nat}
    (here : (accepted ++ [conn])[connection]? = some known) :
    (connection < accepted.length ∧ accepted[connection]? = some known) ∨
      (connection = accepted.length ∧ known = conn) := by
  rcases Nat.lt_trichotomy connection accepted.length with old | rfl | beyond
  · rw [List.getElem?_append_left old] at here
    exact Or.inl ⟨old, here⟩
  · rw [List.getElem?_concat_length, Option.some.injEq] at here
    exact Or.inr ⟨rfl, here.symm⟩
  · have bounded := (List.getElem?_eq_some_iff.mp here).1
    rw [List.length_append, List.length_singleton] at bounded
    omega

theorem Served.accept (served : Served accepted established destroyed pending)
    (conn : ServerConnection) :
    Served (accepted ++ [conn]) established destroyed
      (Function.update pending conn.loop_
        (pending conn.loop_ ++ [.connectEstablished accepted.length])) := by
  obtain ⟨fresh, unbound⟩ := served.fresh
  refine ⟨?_, ?_, ?_, ?_, served.done⟩
  · intro place functor membership connection here
    by_cases same : place = conn.loop_
    · subst same
      rw [Function.update_self, List.mem_append, List.mem_singleton] at membership
      rcases membership with before | rfl
      · exact served.widen conn before here
      · obtain rfl := Option.some.inj here
        exact ⟨conn, List.getElem?_concat_length, rfl⟩
    · rw [Function.update_of_ne same] at membership
      exact served.widen conn membership here
  · intro connection membership
    have known := served.known connection membership
    rw [List.length_append]
    omega
  · intro connection known here
    rcases accepted_cases here with ⟨old, here⟩ | ⟨rfl, rfl⟩
    · rw [← served.once connection known here]
      by_cases same : known.loop_ = conn.loop_
      · rw [same, Function.update_self, List.count_append, List.count_singleton, if_neg]
        · rfl
        · simp [old.ne']
      · rw [Function.update_of_ne same]
    · rw [List.count_eq_zero_of_not_mem fresh, Function.update_self, List.count_append,
        List.count_eq_zero_of_not_mem (unbound _)]
      simp
  · intro place
    by_cases same : place = conn.loop_
    · subst same
      rw [Function.update_self, System.allowed_append]
      exact ⟨served.order conn.loop_, nofun⟩
    · rw [Function.update_of_ne same]
      exact served.order place

theorem Served.acceptNow (served : Served accepted established destroyed pending)
    (conn : ServerConnection) :
    Served (accepted ++ [conn]) (established ++ [accepted.length]) destroyed pending := by
  obtain ⟨fresh, unbound⟩ := served.fresh
  refine ⟨?_, ?_, ?_, ?_, ?_⟩
  · intro place functor membership connection here
    exact served.widen conn membership here
  · intro connection membership
    rw [List.length_append, List.length_singleton]
    rcases List.mem_append.mp membership with before | new
    · have known := served.known connection before
      omega
    · rw [List.mem_singleton.mp new]
      omega
  · intro connection known here
    rw [List.count_append, List.count_singleton]
    rcases accepted_cases here with ⟨old, here⟩ | ⟨rfl, rfl⟩
    · rw [← served.once connection known here, if_neg (by simp [old.ne'])]
      rfl
    · rw [List.count_eq_zero_of_not_mem fresh, List.count_eq_zero_of_not_mem (unbound _)]
      simp
  · exact fun place => allowed_of_subset (List.subset_append_left _ _) (served.order place)
  · exact fun connection membership => List.mem_append_left _ (served.done connection membership)

/-! ## Runs -/

/-- What the queues of a server hold. -/
def Serves (server : TcpServer) : Prop :=
  Served server.accepted server.established server.destroyed server.pending_functors_

theorem remove_serves {server : TcpServer} (serves : server.Serves) (close : Nat)
    (referred : Option Nat) : (server.remove close referred).Serves := by
  unfold remove
  dsimp only
  split
  next => exact serves
  next connection =>
    split
    next => exact serves
    next conn here =>
      refine Served.push serves conn.loop_ nofun ?_
      intro other same
      obtain rfl := Option.some.inj same
      exact ⟨conn, here, rfl⟩

theorem handleClose_serves {server : TcpServer} (serves : server.Serves) (connection : Nat)
    (conn : ServerConnection) : (server.handleClose connection conn).Serves := by
  unfold handleClose
  dsimp only
  split
  · apply remove_serves
    exact serves
  · exact Served.push serves none nofun nofun

theorem newConnection_serves {server : TcpServer} (serves : server.Serves) :
    server.newConnection.Serves := by
  unfold newConnection
  dsimp only
  split
  · exact Served.acceptNow serves _
  · exact Served.accept serves
      ⟨connName server.name_ server.addr_ server.nextConnId_, server.getNextLoop.1⟩

theorem next_serves {server : TcpServer} (serves : server.Serves) (event : Event) :
    (server.next event).Serves := by
  cases event with
  | newConnection => exact newConnection_serves serves
  | handleClose connection =>
      simp only [next]
      split
      next conn _ => exact handleClose_serves serves connection conn
      next => exact serves
  | returns loop => exact serves
  | functor loop stale =>
      simp only [next]
      split
      next => exact serves
      next functor functors front =>
        have taken := Served.pop serves front
        cases functor with
        | connectEstablished connection =>
            rw [List.append_nil] at taken
            exact taken
        | connectDestroyed connection => exact taken
        | removeConnectionInLoop close =>
            rw [List.append_nil] at taken
            apply remove_serves
            exact taken

theorem reachable_serves {events : List Event} {server : TcpServer}
    (execution : system.Execution events server) : server.Serves := by
  apply execution.invariant Serves
  · rintro _ ⟨name_, addr_, loops_, rfl⟩
    exact ⟨by simp [new], by simp [new], by simp [new], fun _ => trivial, by simp [new]⟩
  · rintro server event _ serves ⟨-, rfl⟩
    exact next_serves serves event

/-- In every interleaving of the loops the sub-loops are given the connections in
turn, so that none is ever given two more than another. Closes are not made up
for: of the connections that are still there a loop may have more than another by
as many as the other one has lost. -/
theorem connections_balanced {events : List Event} {server : TcpServer}
    (execution : system.Execution events server) :
    (∀ connection conn, server.accepted[connection]? = some conn →
      conn.loop_ = loopFor server.loops_ connection) ∧
    ∀ first < server.loops_, ∀ second < server.loops_,
      (server.given (some first)).length ≤ (server.given (some second)).length + 1 ∧
      (server.live (some first)).length ≤ (server.live (some second)).length +
        (server.given (some second)).countP (· ∈ server.destroyed) + 1 := by
  have inTurn := reachable_inTurn execution
  constructor
  · intro connection conn here
    have own := inTurn.loop_eq (List.getElem?_eq_some_iff.mp here).1
    rw [here] at own
    exact Option.some.inj own
  · intro first firstBound second secondBound
    have balanced : (server.given (some first)).length ≤
        (server.given (some second)).length + 1 := by
      rw [inTurn.length_given firstBound, inTurn.length_given secondBound]
      split <;> split <;> omega
    have left := server.length_given_eq (some first)
    have right := server.length_given_eq (some second)
    exact ⟨balanced, by omega⟩

/-- Four connections on two sub-loops, of which the second loses both of its own. -/
def lopsided : List Event :=
  let close (connection : Nat) : List Event :=
    [.handleClose connection, .functor none none, .returns (some 1), .functor (some 1) none]
  List.replicate 4 .newConnection ++
    List.replicate 2 (.functor (some 0) none) ++ List.replicate 2 (.functor (some 1) none) ++
    close 1 ++ close 3

theorem connections_balanced_lopsided :
    let server := lopsided.foldl next
      (new (ascii "RpcServer") { sin_port := 8080, sin_addr := 2130706433 } 2)
    (server.live (some 0) = [0, 2] ∧ server.live (some 1) = [] ∧
      server.given (some 1) = [1, 3] ∧ server.connections_.entries.length = 2) ∧
    (∀ connection conn, server.accepted[connection]? = some conn →
      conn.loop_ = loopFor server.loops_ connection) ∧
    ∀ first < server.loops_, ∀ second < server.loops_,
      (server.given (some first)).length ≤ (server.given (some second)).length + 1 ∧
      (server.live (some first)).length ≤ (server.live (some second)).length +
        (server.given (some second)).countP (· ∈ server.destroyed) + 1 :=
  ⟨by decide +kernel, connections_balanced (System.Execution.foldl system Enabled
    (fun _ _ enabled => ⟨enabled, rfl⟩) ⟨_, _, _, rfl⟩ (by decide +kernel))⟩

/-- In every interleaving, whatever the references of removals lead to, what is
bound for a connection waits on the loop of the connection only, and no
connection is established twice or destroyed before it has been established. -/
theorem established_before_destroyed {events : List Event} {server : TcpServer}
    (execution : system.Execution events server) :
    (∀ loop, ∀ functor ∈ server.pending_functors_ loop, ∀ connection ∈ bound functor,
      ∃ conn ∈ server.accepted[connection]?, conn.loop_ = loop) ∧
    server.established.Nodup ∧ ∀ connection ∈ server.destroyed,
      connection ∈ server.established := by
  have serves := reachable_serves execution
  refine ⟨serves.own, ?_, serves.done⟩
  rw [List.nodup_iff_count_le_one]
  intro connection
  by_cases ran : connection ∈ server.established
  · have bounded := serves.known connection ran
    have once := serves.once connection _ (List.getElem?_eq_getElem bounded)
    omega
  · rw [List.count_eq_zero_of_not_mem ran]
    exact Nat.zero_le 1

/-- Two connections on one sub-loop, one of them not yet established when the
removal of the other, by a reference that is gone, leads to it. -/
def staleRemoval : List Event :=
  [.newConnection, .newConnection, .functor (some 0) none, .handleClose 0, .returns (some 0),
    .functor none (some 1), .functor (some 0) none, .functor (some 0) none]

theorem established_before_destroyed_stale :
    let server := staleRemoval.foldl next oneLoop
    (∀ loop, ∀ functor ∈ server.pending_functors_ loop, ∀ connection ∈ bound functor,
      ∃ conn ∈ server.accepted[connection]?, conn.loop_ = loop) ∧
    server.established.Nodup ∧ ∀ connection ∈ server.destroyed,
      connection ∈ server.established :=
  established_before_destroyed (System.Execution.foldl system Enabled
    (fun _ _ enabled => ⟨enabled, rfl⟩) ⟨_, _, _, rfl⟩ (by decide +kernel))

end TcpServer

end GdRpc.Net
