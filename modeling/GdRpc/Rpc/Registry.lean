import GdRpc.Library.Decimal
import GdRpc.Library.Lines
import GdRpc.Library.Transition
import GdRpc.Rpc.ZkClient

/-!
# The servers of one service

Every `RpcServer::Run` appends the line of its server to the znode of the
service. The znode is ephemeral: it goes with the session of the server that
created it, and with no other.
-/

namespace GdRpc.Rpc

open GdRpc.Library

universe u

def newline : UInt8 := 10

/-- What a server publishes of itself; its address is part of one line. -/
structure Published where
  ip_ : Bytes
  port_ : Int
  weight_ : Int
  word : newline ∉ ip_

namespace Published

/-- `sprintf(data, "%s %d %d\n", ip_.c_str(), port_, weight_)` -/
def data (server : Published) : Bytes :=
  server.ip_ ++ ascii " " ++ decimal server.port_ ++ ascii " " ++ decimal server.weight_ ++
    [newline]

end Published

theorem newline_not_mem_decimal (value : Int) : newline ∉ decimal value := by
  have notDigit : isDigitOf 10 newline = false := by decide
  cases value with
  | ofNat value => exact not_mem_decimalNat notDigit
  | negSucc value =>
      have printed : decimal (.negSucc value) = ascii "-" ++ decimalNat (value + 1) := by
        simp [decimal, decimalNat, ascii, toString, Int.repr]
      have sign : newline ∉ ascii "-" := by decide
      rw [printed, List.mem_append, not_or]
      exact ⟨sign, not_mem_decimalNat notDigit⟩

theorem Published.data_isLine (server : Published) : IsLine newline server.data := by
  refine ⟨server.ip_ ++ ascii " " ++ decimal server.port_ ++ ascii " " ++
    decimal server.weight_, ?_, rfl⟩
  have space : newline ∉ ascii " " := by decide
  simp [server.word, newline_not_mem_decimal, space]

/-- The znode of the service, and the sessions that are alive and have
registered a server. -/
structure Registry (Session : Type u) where
  node : Option (Znode Session)
  live : List (Session × Published)

namespace Registry

variable {Session : Type u} [DecidableEq Session]

/-- The session that the znode belongs to. -/
def owner (registry : Registry Session) : Option Session :=
  registry.node.bind Znode.ephemeralOwner

/-- `buf` is what the array of `Append` holds at the call. -/
inductive Event (Session : Type u) where
  | Run (session : Session) (server : Published) (buf : Bytes)
  | sessionEnd (session : Session)

/-- A session is the session of one run of one server. -/
def Enabled (registry : Registry Session) : Event Session → Prop
  | .Run session _ buf => buf.length = 1024 ∧ ∀ entry ∈ registry.live, entry.1 ≠ session
  | .sessionEnd _ => True

instance (registry : Registry Session) : ∀ event, Decidable (registry.Enabled event)
  | .Run _ _ _ => inferInstanceAs (Decidable (_ ∧ _))
  | .sessionEnd _ => inferInstanceAs (Decidable True)

/-- ZooKeeper deletes the znode of a session that ends. -/
def next (registry : Registry Session) : Event Session → Registry Session
  | .Run session server buf => {
      node := (ZkClient.Append session registry.node server.data ZOO_EPHEMERAL buf .none).2
      live := registry.live ++ [(session, server)] }
  | .sessionEnd session => {
      node := if registry.owner = some session then none else registry.node
      live := registry.live.filter fun entry => entry.1 ≠ session }

def empty : Registry Session where
  node := none
  live := []

def system : System (Registry Session) (Event Session) where
  initial registry := registry = empty
  step registry event after := registry.Enabled event ∧ after = registry.next event

/-- The data of the znode contains the line of the server. -/
def Lists (registry : Registry Session) (server : Published) : Prop :=
  ∃ node ∈ registry.node, ∃ data ∈ node.data, HoldsLine newline data server.data

/-- A server is listed exactly when it has registered and its session has not
ended. Servers that print the same line are one. -/
def Exact (registry : Registry Session) : Prop :=
  ∀ server : Published,
    registry.Lists server ↔ ∃ entry ∈ registry.live, entry.2.data = server.data

/-- A registration fits into its two arrays. The session that ends is the one
the znode belongs to and no other server is registered, or the znode is not its
own and another server has left the same line. -/
def Fit (registry : Registry Session) : Event Session → Prop
  | .Run _ server _ =>
      server.data.length < 32 ∧
      ∀ node ∈ registry.node, ∀ data ∈ node.data, data.length ≤ 1024
  | .sessionEnd session =>
      ∀ entry ∈ registry.live, entry.1 = session →
        if registry.owner = some session then
          ∀ other ∈ registry.live, other.1 = session
        else
          ∃ other ∈ registry.live, other.1 ≠ session ∧ other.2.data = entry.2.data

instance (registry : Registry Session) : ∀ event, Decidable (registry.Fit event)
  | .Run _ _ _ => inferInstanceAs (Decidable (_ ∧ _))
  | .sessionEnd _ => by
      unfold Fit
      infer_instance

/-- Nothing is registered, or the znode belongs to a live session and consists
of the lines of the live servers. -/
inductive Accurate (registry : Registry Session) : Prop where
  | nothing (absent : registry.node = none) (none : registry.live = [])
  | lines (owner : Session) (lines : List Bytes)
      (node : registry.node = some ⟨some lines.flatten, some owner⟩)
      (alive : ∃ entry ∈ registry.live, entry.1 = owner)
      (members : ∀ line, line ∈ lines ↔ ∃ entry ∈ registry.live, entry.2.data = line)

variable {registry : Registry Session}

omit [DecidableEq Session] in
theorem lists_iff_of_lines {owner : Option Session} {lines : List Bytes}
    (node : registry.node = some ⟨some lines.flatten, owner⟩)
    (each : ∀ line ∈ lines, ∃ server : Published, server.data = line) (server : Published) :
    registry.Lists server ↔ server.data ∈ lines := by
  have eachLine : ∀ line ∈ lines, IsLine newline line := by
    intro line membership
    obtain ⟨printed, rfl⟩ := each line membership
    exact printed.data_isLine
  rw [← holdsLine_flatten_iff eachLine server.data_isLine]
  simp [Lists, node]

omit [DecidableEq Session] in
theorem Accurate.exact (accurate : registry.Accurate) : registry.Exact := by
  intro server
  cases accurate with
  | nothing absent none => simp [Lists, absent, none]
  | lines owner lines node alive members =>
      rw [lists_iff_of_lines node _ server]
      · exact members server.data
      · intro line membership
        obtain ⟨entry, _, printed⟩ := (members line).mp membership
        exact ⟨entry.2, printed⟩

theorem Accurate.run (accurate : registry.Accurate) {session : Session} {server : Published}
    {buf : Bytes} (size : buf.length = 1024) (short : server.data.length < 32)
    (fits : ∀ node ∈ registry.node, ∀ data ∈ node.data, data.length ≤ 1024) :
    (registry.next (.Run session server buf)).Accurate := by
  cases accurate with
  | nothing absent none =>
      have created := ZkClient.Append_none session server.data
        (show server.data.length ≤ buf.length by omega)
      refine .lines session [server.data, server.data] ?_ ?_ ?_
      · simp only [next, absent, created, List.flatten_cons, List.flatten_nil, List.append_nil]
      · exact ⟨(session, server), by simp [next], rfl⟩
      · simp [next, none, eq_comm]
  | lines owner lines node alive members =>
      have room : lines.flatten.length ≤ buf.length := by
        rw [size]
        exact fits _ node _ rfl
      have appended := ZkClient.Append_some session ⟨some lines.flatten, some owner⟩ rfl
        server.data ZOO_EPHEMERAL room
      refine .lines owner (lines ++ [server.data]) ?_ ?_ ?_
      · simp only [next, node, appended, List.flatten_append, List.flatten_cons,
          List.flatten_nil, List.append_nil]
      · obtain ⟨entry, membership, own⟩ := alive
        exact ⟨entry, List.mem_append_left _ membership, own⟩
      · intro line
        simp only [next, List.mem_append, List.mem_singleton, members, or_and_right, exists_or,
          exists_eq_left, eq_comm]

theorem Accurate.sessionEnd (accurate : registry.Accurate) {session : Session}
    (fit : registry.Fit (.sessionEnd session)) :
    (registry.next (.sessionEnd session)).Accurate := by
  cases accurate with
  | nothing absent none => exact .nothing (by simp [next, absent]) (by simp [next, none])
  | lines owner lines node alive members =>
      have owned : registry.owner = some owner := by simp [Registry.owner, node]
      by_cases own : owner = session
      · subst own
        obtain ⟨entry, membership, creator⟩ := alive
        have alone := fit entry membership creator
        rw [if_pos owned] at alone
        refine .nothing (by simp [next, owned]) ?_
        simp only [next, List.filter_eq_nil_iff]
        intro other membership
        simp [alone other membership]
      · have stays : (registry.next (.sessionEnd session)).node = registry.node := by
          simp [next, owned, own]
        refine .lines owner lines (stays.trans node) ?_ ?_
        · obtain ⟨entry, membership, creator⟩ := alive
          refine ⟨entry, List.mem_filter.mpr ⟨membership, ?_⟩, creator⟩
          simp [creator, own]
        · intro line
          rw [members]
          constructor
          · rintro ⟨entry, membership, rfl⟩
            by_cases ends : entry.1 = session
            · have twin := fit entry membership ends
              rw [if_neg (by simp [owned, own])] at twin
              obtain ⟨other, inLive, remains, same⟩ := twin
              exact ⟨other, List.mem_filter.mpr ⟨inLive, by simpa using remains⟩, same⟩
            · exact ⟨entry, List.mem_filter.mpr ⟨membership, by simpa using ends⟩, rfl⟩
          · rintro ⟨entry, membership, rfl⟩
            exact ⟨entry, (List.mem_filter.mp membership).1, rfl⟩

/-- A session end that is not fit leaves the registry wrong. -/
theorem Accurate.not_exact_sessionEnd (accurate : registry.Accurate) {session : Session}
    (unfit : ¬ registry.Fit (.sessionEnd session)) :
    ¬ (registry.next (.sessionEnd session)).Exact := by
  intro exact
  simp only [Fit, not_forall] at unfit
  obtain ⟨entry, membership, ends, wrong⟩ := unfit
  cases accurate with
  | nothing absent none =>
      rw [none] at membership
      cases membership
  | lines owner lines node alive members =>
      split at wrong
      next own =>
        -- the znode is gone, and with it the line of another server
        simp only [not_forall] at wrong
        obtain ⟨other, inLive, remains⟩ := wrong
        have listed := (exact other.2).mpr
          ⟨other, List.mem_filter.mpr ⟨inLive, by simpa using remains⟩, rfl⟩
        simp [Lists, next, own] at listed
      next foreign =>
        -- the znode stays, and with it the line of this server
        have stays : (registry.next (.sessionEnd session)).node =
            some ⟨some lines.flatten, some owner⟩ := by
          simp [next, foreign, node]
        have listed : (registry.next (.sessionEnd session)).Lists entry.2 := by
          rw [lists_iff_of_lines stays _ entry.2, members]
          · exact ⟨entry, membership, rfl⟩
          · intro line member
            obtain ⟨printer, _, printed⟩ := (members line).mp member
            exact ⟨printer.2, printed⟩
        obtain ⟨other, inLive, same⟩ := (exact entry.2).mp listed
        obtain ⟨inLive, remains⟩ := List.mem_filter.mp inLive
        exact wrong ⟨other, inLive, by simpa using remains, same⟩

/-- The runs in which every step is fit. -/
def fitSystem : System (Registry Session) (Event Session) where
  initial registry := registry = empty
  step registry event after :=
    (registry.Enabled event ∧ registry.Fit event) ∧ after = registry.next event

/-- In every run in which the znode's session ends only after all others, and
each of the others leaves its line to a twin, the registry is exact. -/
theorem exact_of_fit {events : List (Event Session)}
    (execution : fitSystem.Execution events registry) : registry.Exact := by
  have accurate : registry.Accurate := by
    apply execution.invariant Accurate
    · rintro start rfl
      exact .nothing rfl rfl
    · rintro before event after accurate ⟨⟨enabled, fit⟩, rfl⟩
      cases event with
      | Run session server buf => exact accurate.run enabled.1 fit.1 fit.2
      | sessionEnd session => exact accurate.sessionEnd fit
  exact accurate.exact

def echoServer (port_ : Int) : Published where
  ip_ := ascii "127.0.0.1"
  port_ := port_
  weight_ := 1
  word := by decide

/-- One server after the other. -/
theorem exact_of_fit_successive :
    let events : List (Event Nat) :=
      [.Run 0 (echoServer 8080) (List.replicate 1024 0), .sessionEnd 0,
        .Run 1 (echoServer 8081) (List.replicate 1024 0)]
    (events.foldl next empty).Exact := by
  intro events
  have execution : fitSystem.Execution events (events.foldl next empty) :=
    System.Execution.foldl fitSystem
      (fun registry event => registry.Enabled event ∧ registry.Fit event)
      (fun _ _ permitted => ⟨permitted, rfl⟩) rfl (by decide +kernel)
  exact exact_of_fit execution

/-- Two servers register, and the session of the first one ends: the znode goes
with it, and the second one is not listed any more. -/
theorem creator_end_unlists :
    ¬ ∀ (events : List (Event Nat)) (registry : Registry Nat),
      system.Execution events registry → registry.Exact := by
  intro always
  let events : List (Event Nat) :=
    [.Run 0 (echoServer 8080) (List.replicate 1024 0),
      .Run 1 (echoServer 8081) (List.replicate 1024 0), .sessionEnd 0]
  have execution : system.Execution events (events.foldl next empty) :=
    System.Execution.foldl system Enabled
      (fun _ _ enabled => ⟨enabled, rfl⟩) rfl (by decide +kernel)
  have absent : (events.foldl next empty).node = none := by decide +kernel
  have remains : (events.foldl next empty).live = [(1, echoServer 8081)] := rfl
  have lists := (always _ _ execution (echoServer 8081)).mpr
    ⟨(1, echoServer 8081), by rw [remains]; exact List.mem_cons_self, rfl⟩
  simp [Lists, absent] at lists

end Registry

end GdRpc.Rpc
