import Mathlib.Data.List.AList
import GdRpc.Protocol.RpcHeader

/-!
# `rpcChannelCli`

`outstandings_` is the `std::map` from ids to pairs. For the record, `sent`
has what is handed to `codec_.send` and `effects` what happens to responses
and closures. The mutex makes each access to the map one step.
-/

namespace GdRpc.Rpc

open GdRpc.Library

universe u v w

/-- The pair of a call; either pointer may be null. -/
structure OutstandingCall (Response : Type u) (Closure : Type v) where
  response : Option Response
  done : Option Closure
  deriving DecidableEq, Repr

/-- The arguments of `CallMethod`, the method given by
`method->service()->full_name()` and `method->name()`. -/
structure Call (Message : Type w) (Response : Type u) (Closure : Type v) where
  service : Bytes
  method : Bytes
  request : Message
  out : OutstandingCall Response Closure
  deriving DecidableEq, Repr

/-- `response->ParseFromString(payload)` and `done->Run()`. -/
inductive Effect (Response : Type u) (Closure : Type v) where
  | ParseFromString (response : Response) (payload : Bytes)
  | Run (done : Closure)
  deriving DecidableEq, Repr

structure RpcChannelCli (Message : Type w) (Response : Type u) (Closure : Type v) where
  id_ : Int
  outstandings_ : AList fun _ : Int => OutstandingCall Response Closure
  sent : List (RpcHeader × Message)
  effects : List (Effect Response Closure)

namespace RpcChannelCli

variable {Message : Type w} {Response : Type u} {Closure : Type v}

def new : RpcChannelCli Message Response Closure where
  id_ := 0
  outstandings_ := ∅
  sent := []
  effects := []

/-- The header `CallMethod` fills in; `set_msg_id_` takes a `uint32`. -/
def requestHeader (id_ : Int) (service method : Bytes) : RpcHeader where
  message_type_ := .Request
  msg_id_ := UInt32.ofInt id_
  service_name_ := service
  method_name_ := method

def CallMethod (cli : RpcChannelCli Message Response Closure)
    (call : Call Message Response Closure) : RpcChannelCli Message Response Closure :=
  { cli with
    outstandings_ := cli.outstandings_.insert cli.id_ call.out
    sent := cli.sent ++
      [(requestHeader cli.id_ call.service call.method, call.request)] }

/-- What is done with a pair taken out of `outstandings_`. -/
def finish (out : OutstandingCall Response Closure) (payload : Bytes) :
    List (Effect Response Closure) :=
  match out.response with
  | none => []
  | some response =>
      .ParseFromString response payload ::
        match out.done with
        | none => []
        | some done => [.Run done]

def onRpcHeader (cli : RpcChannelCli Message Response Closure) (message : RpcHeader)
    (payload : Bytes) : RpcChannelCli Message Response Closure :=
  match message.message_type_ with
  | .Response =>
      let id : Int := message.msg_id_.toNat
      match cli.outstandings_.lookup id with
      | none => cli
      | some out =>
          { cli with
            outstandings_ := cli.outstandings_.erase id
            effects := cli.effects ++ finish out payload }
  | _ => cli

inductive Event (Message : Type w) (Response : Type u) (Closure : Type v) where
  | CallMethod (call : Call Message Response Closure)
  | onRpcHeader (message : RpcHeader) (payload : Bytes)
  deriving DecidableEq, Repr

def next (cli : RpcChannelCli Message Response Closure) :
    Event Message Response Closure → RpcChannelCli Message Response Closure
  | .CallMethod call => cli.CallMethod call
  | .onRpcHeader message payload => cli.onRpcHeader message payload

end RpcChannelCli

end GdRpc.Rpc
