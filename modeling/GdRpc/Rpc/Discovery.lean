import GdRpc.Net.InetAddress
import GdRpc.Rpc.ClusterCli
import GdRpc.Rpc.Registry

/-!
# The constructor of `RpcCluster`

The data of the znode is read into a string, split into lines, and each line
into the tokens of a client. A client is known here by the address it is made
for. `make_shared` is given the third token where `Client` takes an `int`; what
becomes of it is the parameter `weightOf`. `clientMap_` is never read.
-/

namespace GdRpc.Rpc

open GdRpc.Library GdRpc.Net

universe u

def space : UInt8 := 32

/-- `str | std::views::split('\n')`; an empty string has no parts. -/
def splitLines (str : Bytes) : List Bytes :=
  if str = [] then [] else str.splitOn newline

/-- The tokens that `std::getline(ss, t, ' ')` finds; behind a last space is
none. -/
def tokens (endpoint : Bytes) : List Bytes :=
  let pieces := endpoint.splitOn space
  if pieces.getLast? = some [] then pieces.dropLast else pieces

namespace RpcCluster

/-- The loop body of the constructor, none if it indexes a token that is not
there. -/
def addEndpoint (weightOf : Bytes → Int) (cluster : RpcCluster InetAddress)
    (endpoint : Bytes) : Option (RpcCluster InetAddress) :=
  let tmp := tokens endpoint
  match tmp[0]?, tmp[1]?, tmp[2]? with
  | some first, some second, some third =>
      let address := InetAddress.new (atoi first) second
      let cli : Client InetAddress :=
        { weight_ := weightOf third, currentWeight_ := 0, client_ := address }
      some { cluster with loadBalence_ := cluster.loadBalence_.Add cli }
  | _, _, _ => none

/-- The constructor, from what `GetData` returned. -/
def new (weightOf : Bytes → Int) (str : Bytes) : Option (RpcCluster InetAddress) :=
  (splitLines str).foldlM (addEndpoint weightOf) { loadBalence_ := { elements_ := [] } }

end RpcCluster

/-- An IPv4 address with the port and the weight of a server. -/
structure ServerEndpoint where
  address : InetAddress
  weight_ : Nat
  port_pos : 0 < address.toPort
  weight_pos : 0 < weight_
  weight_lt : weight_ < 2 ^ 31

namespace ServerEndpoint

/-- The server whose members are these. -/
def server (endpoint : ServerEndpoint) : Published where
  ip_ := endpoint.address.toIp
  port_ := endpoint.address.toPort.toNat
  weight_ := endpoint.weight_
  word := InetAddress.not_mem_toIp (by decide) (by decide)

/-- A client of the load balancer for the endpoint. -/
def Reached (endpoint : ServerEndpoint) (client : Client InetAddress) : Prop :=
  client.client_ = endpoint.address ∧ client.weight_ = endpoint.weight_

instance (endpoint : ServerEndpoint) (client : Client InetAddress) :
    Decidable (endpoint.Reached client) :=
  inferInstanceAs (Decidable (_ ∧ _))

/-- The znode data for the endpoints. -/
def registered (endpoints : List ServerEndpoint) : Bytes :=
  (endpoints.map fun endpoint => endpoint.server.data).flatten

/-- The constructor succeeds and has one client for each endpoint, in order. -/
def Discovered (endpoints : List ServerEndpoint) (cluster : Option (RpcCluster InetAddress)) :
    Prop :=
  ∃ made ∈ cluster, List.Forall₂ Reached endpoints made.loadBalence_.elements_

/-- The line without its newline. -/
def text (endpoint : ServerEndpoint) : Bytes :=
  endpoint.address.toIp ++ space :: decimalNat endpoint.address.toPort.toNat ++
    space :: decimalNat endpoint.weight_

theorem data_eq (endpoint : ServerEndpoint) :
    endpoint.server.data = endpoint.text ++ [newline] := by
  simp [server, Published.data, text, ascii, space]

theorem tokens_text (endpoint : ServerEndpoint) :
    tokens endpoint.text =
      [endpoint.address.toIp, decimalNat endpoint.address.toPort.toNat,
        decimalNat endpoint.weight_] := by
  have noDigit : isDigitOf 10 space = false := by decide
  have ip : space ∉ endpoint.address.toIp := InetAddress.not_mem_toIp (by decide) noDigit
  have pieces : endpoint.text.splitOn space =
      [endpoint.address.toIp, decimalNat endpoint.address.toPort.toNat,
        decimalNat endpoint.weight_] := by
    rw [text, List.append_assoc, List.cons_append, List.splitOn_append_cons_self_of_not_mem ip,
      List.splitOn_append_cons_self_of_not_mem (not_mem_decimalNat noDigit),
      List.splitOn_eq_singleton (not_mem_decimalNat noDigit)]
  rw [tokens, pieces]
  simp [decimalNat_ne_nil]

theorem length_data_le (endpoint : ServerEndpoint) : endpoint.server.data.length ≤ 33 := by
  have ip := endpoint.address.length_toIp_le
  have port : (decimalNat endpoint.address.toPort.toNat).length ≤ 5 := by
    have bound := endpoint.address.toPort.toNat_lt
    exact length_decimalNat_le (by decide) (by omega)
  have weight : (decimalNat endpoint.weight_).length ≤ 10 := by
    have bound := endpoint.weight_lt
    exact length_decimalNat_le (by decide) (by omega)
  simp only [data_eq, text, List.length_append, List.length_cons, List.length_nil]
  omega

theorem zero_not_mem_data (endpoint : ServerEndpoint) : 0 ∉ endpoint.server.data := by
  have noDigit : isDigitOf 10 0 = false := by decide
  have ip : 0 ∉ endpoint.address.toIp := InetAddress.not_mem_toIp (by decide) noDigit
  simp [data_eq, text, ip, not_mem_decimalNat noDigit, space, newline]

/-- The port is read from the ip, and the ip from the port. -/
def swapped (endpoint : ServerEndpoint) (weightOf : Bytes → Int) : Client InetAddress where
  weight_ := weightOf (decimalNat endpoint.weight_)
  currentWeight_ := 0
  client_ := {
    sin_port := UInt16.ofNat (endpoint.address.octet 3)
    sin_addr := UInt32.ofNat endpoint.address.toPort.toNat }

theorem addEndpoint_text (endpoint : ServerEndpoint) (weightOf : Bytes → Int)
    (cluster : RpcCluster InetAddress) :
    RpcCluster.addEndpoint weightOf cluster endpoint.text =
      some { loadBalence_ := cluster.loadBalence_.Add (endpoint.swapped weightOf) } := by
  have octet := endpoint.address.octet_lt 3
  have port : atoi endpoint.address.toIp = endpoint.address.octet 3 := by
    rw [InetAddress.toIp, List.append_assoc, List.append_assoc]
    exact atoi_decimalNat_append (by omega) (by simp [isDigitOf, digitValue, dot])
  have ip : inet_addr (decimalNat endpoint.address.toPort.toNat) =
      endpoint.address.toPort.toNat :=
    inet_addr_decimalNat endpoint.port_pos (by
      have bound := endpoint.address.toPort.toNat_lt
      omega)
  have inRange : ((endpoint.address.octet 3 : Int) % 2 ^ 16).toNat =
      endpoint.address.octet 3 := by
    omega
  simp only [RpcCluster.addEndpoint, tokens_text, InetAddress.new, port, ip, inRange, swapped,
    List.getElem?_cons_zero, List.getElem?_cons_succ]

/-- The swapped address is right for no endpoint: only port 0 is the first octet
of an address below `65536`. -/
theorem not_reached_swapped (endpoint : ServerEndpoint) (weightOf : Bytes → Int) :
    ¬ endpoint.Reached (endpoint.swapped weightOf) := by
  rintro ⟨same, _⟩
  have positive : 0 < endpoint.address.toPort.toNat := endpoint.port_pos
  have bound := endpoint.address.toPort.toNat_lt
  have ports := congrArg (fun address => address.sin_port.toNat) same
  have ips := congrArg (fun address => address.sin_addr.toNat) same
  simp only [swapped, InetAddress.octet, InetAddress.toPort, UInt16.toNat_ofNat',
    UInt32.toNat_ofNat', Nat.reducePow] at positive bound ports ips
  have first : endpoint.address.sin_addr.toNat / 16777216 = 0 := Nat.div_eq_of_lt (by omega)
  rw [first] at ports
  omega

end ServerEndpoint

namespace RpcCluster

theorem foldlM_addEndpoint_prefix {weightOf : Bytes → Int} {lines : List Bytes}
    {cluster made : RpcCluster InetAddress}
    (result : lines.foldlM (addEndpoint weightOf) cluster = some made) :
    cluster.loadBalence_.elements_ <+: made.loadBalence_.elements_ := by
  induction lines generalizing cluster with
  | nil =>
      cases result
      exact List.prefix_rfl
  | cons line lines inductionHypothesis =>
      rw [List.foldlM_cons, Option.bind_eq_bind, Option.bind_eq_some_iff] at result
      obtain ⟨between, added, result⟩ := result
      refine List.IsPrefix.trans ?_ (inductionHypothesis result)
      simp only [addEndpoint] at added
      split at added
      · cases added
        exact List.prefix_append _ _
      · cases added

theorem new_newline (weightOf : Bytes → Int) (str : Bytes) :
    new weightOf (str ++ [newline]) = none := by
  have lines : splitLines (str ++ [newline]) = str.splitOn newline ++ [[]] := by
    rw [splitLines, if_neg (by simp), List.splitOn_append_cons_self, List.splitOn_nil]
  have last : ∀ cluster, addEndpoint weightOf cluster [] = none := by
    intro cluster
    rfl
  rw [new, lines, List.foldlM_append]
  simp [last]

/-- What `GetData` returns begins with the first line, and so does what is made
of it. -/
theorem new_registered {Session : Type u} {endpoint : ServerEndpoint}
    {endpoints : List ServerEndpoint} {weightOf : Bytes → Int} (owner : Option Session)
    {buffer : Bytes} (size : buffer.length = 1024) (beyond : Bytes) {made : RpcCluster InetAddress}
    (result : new weightOf (ZkClient.GetData
      (some ⟨some (ServerEndpoint.registered (endpoint :: endpoints)), owner⟩) buffer beyond none) =
        some made) :
    [endpoint.swapped weightOf] <+: made.loadBalence_.elements_ := by
  obtain ⟨more, returned⟩ := ZkClient.GetData_some owner (ServerEndpoint.registered endpoints)
    (show endpoint.server.data.length ≤ buffer.length by
      have short := endpoint.length_data_le
      omega)
    endpoint.zero_not_mem_data beyond
  have clean : newline ∉ endpoint.text := by
    obtain ⟨text, clean, same⟩ := endpoint.server.data_isLine
    rw [endpoint.data_eq, List.append_left_inj] at same
    rwa [same]
  have lines : splitLines (endpoint.server.data ++ more) =
      endpoint.text :: more.splitOn newline := by
    rw [splitLines, if_neg (by simp [endpoint.data_eq]), endpoint.data_eq, List.append_assoc,
      List.singleton_append, List.splitOn_append_cons_self_of_not_mem clean]
  have split : ServerEndpoint.registered (endpoint :: endpoints) =
      endpoint.server.data ++ ServerEndpoint.registered endpoints := rfl
  rw [split, returned, new, lines, List.foldlM_cons, endpoint.addEndpoint_text] at result
  exact foldlM_addEndpoint_prefix result

/-- The constructor reads the tokens in another order than `RpcServer::Run`
writes them, and so it finds no registered servers at all. -/
theorem not_discovered {Session : Type u} {endpoints : List ServerEndpoint} (some : endpoints ≠ [])
    (weightOf : Bytes → Int) (owner : Option Session) {buffer : Bytes}
    (size : buffer.length = 1024) (beyond : Bytes) :
    ¬ ServerEndpoint.Discovered endpoints (new weightOf (ZkClient.GetData
      (.some ⟨.some (ServerEndpoint.registered endpoints), owner⟩) buffer beyond none)) := by
  rintro ⟨made, result, reached⟩
  cases endpoints with
  | nil => exact some rfl
  | cons endpoint endpoints =>
      obtain ⟨others, elements⟩ := new_registered owner size beyond result
      rw [← elements, List.singleton_append, List.forall₂_cons] at reached
      exact endpoint.not_reached_swapped weightOf reached.1

/-- `127.0.0.1 8080 1` -/
def localEndpoint : ServerEndpoint where
  address := { sin_port := 8080, sin_addr := 2130706433 }
  weight_ := 1
  port_pos := by decide
  weight_pos := by decide
  weight_lt := by decide

/-- Memory that goes on after the newline with further text. -/
theorem not_discovered_overrun :
    ¬ ServerEndpoint.Discovered [localEndpoint] (new (fun _ => 1) (ZkClient.GetData
      (some ⟨some (ServerEndpoint.registered [localEndpoint]), some 0⟩) (List.replicate 1024 65)
        [0] none)) :=
  not_discovered (by simp) (fun _ => 1) (some 0) List.length_replicate [0]

/-- One server, and an array of zeros. -/
theorem single_not_discovered :
    ¬ ∀ (endpoints : List ServerEndpoint) (weightOf : Bytes → Int) (owner : Option Nat)
        (buffer beyond : Bytes), endpoints ≠ [] → buffer.length = 1024 →
      ServerEndpoint.Discovered endpoints (new weightOf (ZkClient.GetData
        (some ⟨some (ServerEndpoint.registered endpoints), owner⟩) buffer beyond none)) := by
  intro always
  have discovered := always [localEndpoint] (fun _ => 1) (some 0) (List.replicate 1024 0) []
    (by simp) List.length_replicate
  obtain ⟨made, result, _⟩ := discovered
  have returned : ZkClient.GetData
      (some ⟨some (ServerEndpoint.registered [localEndpoint]), some 0⟩)
        (List.replicate 1024 0) [] none =
        ascii "127.0.0.1 8080 1" ++ [newline] := by
    decide +kernel
  rw [returned, new_newline] at result
  cases result

end RpcCluster

end GdRpc.Rpc
