import GdRpc.Library.Iteration

/-!
# `RpcCluster` and `RoundRobin`

A pointer into `elements_` is a position in the list. `Next` uses a member
`currentWeight_` that `Client` does not declare; it is taken as an `int` that
starts at zero. With a single element `Next` returns its `client_`, which here
is the pointer to that element.
-/

namespace GdRpc.Rpc

universe u

structure Client (T : Type u) where
  weight_ : Int
  currentWeight_ : Int
  client_ : T
  deriving DecidableEq, Repr

structure RoundRobin (T : Type u) where
  elements_ : List (Client T)
  deriving DecidableEq, Repr

namespace RoundRobin

variable {T : Type u}

def Add (balancer : RoundRobin T) (t : Client T) : RoundRobin T where
  elements_ := balancer.elements_ ++ [t]

/-- The variables of the loop in `Next`. -/
structure NextLoop (T : Type u) where
  elements_ : List (Client T)
  total : Int
  p : Nat

/-- `elements_[i]->currentWeight_` -/
def currentWeight (elements_ : List (Client T)) (i : Nat) : Int :=
  (elements_[i]?.map Client.currentWeight_).getD 0

/-- The loop body of `Next`. -/
def NextLoop.body (loop : NextLoop T) (i : Nat) : NextLoop T :=
  match loop.elements_[i]? with
  | none => loop
  | some element =>
      let elements_ := loop.elements_.set i { element with
        currentWeight_ := element.currentWeight_ + element.weight_ }
      { elements_ := elements_
        total := loop.total + element.weight_
        p :=
          if currentWeight elements_ i > currentWeight elements_ loop.p then i
          else loop.p }

/-- The element returned, none for `nullptr`, and the balancer afterwards. -/
def Next (balancer : RoundRobin T) : Option Nat × RoundRobin T :=
  if balancer.elements_.isEmpty then
    (none, balancer)
  else if balancer.elements_.length = 1 then
    (some 0, balancer)
  else
    let loop := (List.range balancer.elements_.length).foldl NextLoop.body
      { elements_ := balancer.elements_, total := 0, p := 0 }
    (some loop.p, { elements_ := loop.elements_.modify loop.p fun element =>
      { element with currentWeight_ := element.currentWeight_ - loop.total } })

end RoundRobin

structure RpcCluster (T : Type u) where
  loadBalence_ : RoundRobin T
  deriving DecidableEq, Repr

/-- The endpoint `fn` is applied to, if it is applied at all, and the cluster
afterwards. -/
def RpcCluster.call {T : Type u} (cluster : RpcCluster T) :
    Option Nat × RpcCluster T :=
  match cluster.loadBalence_.Next with
  | (none, loadBalence_) => (none, { cluster with loadBalence_ := loadBalence_ })
  | (some _, loadBalence_) =>
      let (clientPtr, loadBalence_) := loadBalence_.Next
      (clientPtr, { cluster with loadBalence_ := loadBalence_ })

end GdRpc.Rpc
