import GdRpc.Library.PrefixCode
import GdRpc.Net.MessageOrder
import GdRpc.Protocol.UniqueDecoding

/-!
# Frames that several threads send

`CallMethod` and `SendRpcResponse` run on any thread, and each hands a whole
frame to one call of `send`. The frames come to the other side one behind the
other, and where one begins can be told from the bytes before it.
-/

namespace GdRpc.Rpc

open GdRpc.Library GdRpc.Net

universe u

namespace ProtocolCodec

def frame (codec : ProtocolCodec) (pair : RpcHeader × Bytes) : Bytes :=
  codec.send pair.1 pair.2

/-- The bytes of the header and those of the payload. -/
def contents (pair : RpcHeader × Bytes) : Bytes × Bytes :=
  (pair.1.SerializeAsString, pair.2)

theorem stream_eq (codec : ProtocolCodec) (pairs : List (RpcHeader × Bytes)) :
    codec.stream pairs = (pairs.map codec.frame).flatten := rfl

theorem prefixCode {codec : ProtocolCodec}
    (documented : codec.format.SerializeAsString = RpcHeader.SerializeAsString) :
    PrefixCode codec.frame contents Sent where
  nonempty pair _ empty := by
    have single : codec.stream [pair] ≠ [] := stream_ne_nil (List.cons_ne_nil _ _)
    rw [stream_eq, List.map_singleton, empty] at single
    exact single rfl
  separates first second rest rest' firstSent secondSent same := by
    obtain ⟨bodies, rests⟩ := Sent.frame_inj documented firstSent secondSent same
    obtain ⟨header, payload⟩ := firstSent.body_inj secondSent bodies
    exact ⟨Prod.ext header payload, rests⟩

open ConnectionThreads

variable {Thread : Type u} [DecidableEq Thread] {loop : Thread}

theorem reachable_ordered {history : List (Interleaved Thread)}
    {threads : ConnectionThreads Thread}
    (execution : (interleavings loop).Execution history threads) :
    Ordered loop (history.filterMap Interleaved.sent?) threads := by
  apply execution.history
    (fun past reached => Ordered loop (past.filterMap Interleaved.sent?) reached)
  · rintro _ ⟨writeComplete, highWaterMark, rfl⟩
    exact start_ordered loop writeComplete highWaterMark
  · rintro past middle label next ⟨handed, queued, invariant⟩ step
    have single : [label].filterMap Interleaved.sent? = label.sent?.toList := by
      cases sent : label.sent? with
      | none => simp [sent]
      | some entry => simp [sent]
    rw [List.filterMap_append, single]
    exact invariant.step step

/-- Whatever the interleaving and the results of the writes, the bytes accepted
are whole frames, those of each thread in the order of its calls, and perhaps
the beginning of one more. Whoever reads whole frames from them, with headers
filled in as those sent are, reads the first of these frames, header and payload. -/
theorem frames_in_thread_order (codec : ProtocolCodec)
    (documented : codec.format.SerializeAsString = RpcHeader.SerializeAsString)
    {calls : List (Thread × (RpcHeader × Bytes))} (sent : ∀ call ∈ calls, Sent call.2)
    {history : List (Interleaved Thread)} {threads : ConnectionThreads Thread}
    (execution : (interleavings loop).Execution history threads)
    (framed : history.filterMap Interleaved.sent? = calls.map (Prod.map id codec.frame)) :
    ∃ (frames : List (Thread × (RpcHeader × Bytes))) (rest : Bytes),
      KeepsThreadOrder frames calls ∧
      threads.connection.accepted = codec.stream (frames.map Prod.snd) ++ rest ∧
      Unfinished codec.frame (· ∈ calls.map Prod.snd) rest ∧
      ∀ received, (∀ pair ∈ received, Sent pair) →
        codec.stream received <+: threads.connection.accepted →
        received.map contents <+: frames.map (contents ∘ Prod.snd) := by
  obtain ⟨handed, queued, invariant⟩ := reachable_ordered execution
  have keeps : KeepsThreadOrder handed (calls.map (Prod.map id codec.frame)) := by
    rw [← framed]
    apply invariant.order.sublist
    rw [List.append_assoc]
    exact List.sublist_append_left _ _
  obtain ⟨items, itemsKeep, rfl⟩ := keeps.exists_map
  have member : ∀ pair ∈ items.map Prod.snd, pair ∈ calls.map Prod.snd := by
    intro pair membership
    obtain ⟨⟨thread, _⟩, isItem, rfl⟩ := List.mem_map.mp membership
    have own := (itemsKeep thread).subset (List.mem_filter.mpr ⟨isItem, by simp⟩)
    exact List.mem_map_of_mem (List.mem_filter.mp own).1
  have begins : threads.connection.accepted <+:
      ((items.map Prod.snd).map codec.frame).flatten := by
    have accepted := invariant.carries.accepted
    rw [List.map_map] at accepted ⊢
    exact accepted
  obtain ⟨whole, rest, isPrefix, split, unfinished⟩ := exists_whole member begins
  have taken : whole = (items.take whole.length).map Prod.snd := by
    rw [List.map_take]
    exact List.prefix_iff_eq_take.mp isPrefix
  refine ⟨items.take whole.length, rest, ?_, ?_, unfinished, ?_⟩
  · exact itemsKeep.sublist (List.take_sublist _ _)
  · rw [← taken]
    exact split
  · intro received receivedSent read
    have isSent : ∀ pair ∈ calls.map Prod.snd, Sent pair := by
      intro pair membership
      obtain ⟨call, isCall, rfl⟩ := List.mem_map.mp membership
      exact sent call isCall
    rw [← List.map_map, ← taken]
    apply (prefixCode documented).contents_of_read _ receivedSent (unfinished.mono isSent)
    · rw [split] at read
      exact read
    · intro pair membership
      exact isSent pair (member pair (isPrefix.subset membership))

/-- A response of the loop thread overtakes the request of thread `1`, of which
the kernel has taken five bytes. -/
theorem frames_in_thread_order_overtaking :
    let request : RpcHeader × Bytes :=
      (RpcChannelCli.requestHeader 1 (ascii "S") (ascii "m"), [1, 2])
    let response : RpcHeader × Bytes := (RpcServer.responseHeader 0, [])
    let codec : ProtocolCodec := ⟨ascii "v1.0", .proto3⟩
    let calls := [(1, request), (0, response)]
    let labels : List (Interleaved Nat) :=
      [.act (.send 1 (codec.frame request)),
        .act (.runInLoop 1 (.send (codec.frame request)) (.wrote 0)),
        .act (.send 0 (codec.frame response)),
        .act (.runInLoop 0 (.send (codec.frame response)) (.wrote 6)),
        .act .beginFunctors, .act (.runFunctor (.wrote 5))]
    let threads := labels.foldl (interleave 0) (ConnectionThreads.start false false)
    threads.connection.accepted = [2, 0, 0, 0, 40, 1] ++ [10, 0, 0, 0, 8] ∧
      ∃ (frames : List (Nat × (RpcHeader × Bytes))) (rest : Bytes),
        KeepsThreadOrder frames calls ∧
        threads.connection.accepted = codec.stream (frames.map Prod.snd) ++ rest ∧
        Unfinished codec.frame (· ∈ calls.map Prod.snd) rest ∧
        ∀ received, (∀ pair ∈ received, Sent pair) →
          codec.stream received <+: threads.connection.accepted →
          received.map contents <+: frames.map (contents ∘ Prod.snd) := by
  intro request response codec calls labels threads
  have sent : ∀ call ∈ calls, Sent call.2 := by
    intro call membership
    rcases List.mem_cons.mp membership with rfl | last
    · exact ⟨.inl ⟨1, _, _, by decide, by decide, rfl⟩, by decide, by decide⟩
    · rw [List.mem_singleton.mp last]
      exact ⟨.inr ⟨0, rfl⟩, by decide, by decide⟩
  have execution : (interleavings 0).Execution labels threads :=
    System.Execution.foldl (interleavings 0)
      (fun threads label => label.Enabled 0 threads)
      (fun _ _ enabled => ⟨enabled, rfl⟩) ⟨false, false, rfl⟩ (by decide +kernel)
  exact ⟨by decide +kernel, frames_in_thread_order codec rfl sent execution (by decide)⟩

end ProtocolCodec

end GdRpc.Rpc
