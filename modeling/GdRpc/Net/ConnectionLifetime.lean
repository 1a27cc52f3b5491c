import GdRpc.Net.ChannelRemoval

/-!
# How long a connection lives

A connection is freed with the last `shared_ptr` to it. Its owner has one until
`closeCallback_`, users have theirs, the loop has one for each functor bound to
`shared_from_this()`, from the queueing to the end of the batch in which the
functor runs, and the dispatch of a channel has one. `shutdown` alone binds a
plain `this`. The owner is on the loop of the connection: a `TcpClient`, or a
`TcpServer` without sub-loops.
-/

namespace GdRpc.Net

open GdRpc.Library GdRpc.Library.System

universe u

/-- The functor has a reference to the connection. -/
def Functor.Holds : Functor → Prop
  | .shutdownInLoop => False
  | _ => True

instance : ∀ functor : Functor, Decidable functor.Holds
  | .shutdownInLoop => inferInstanceAs (Decidable False)
  | .sendInLoop _ | .forceCloseInLoop | .connectDestroyed | .writeCompleteCallback
  | .highWaterMarkCallback _ => inferInstanceAs (Decidable True)

/-- The connection with the references to it. `ran` are the functors of the
present batch that have run, `owner` the reference in `connection_`, `closing`
that of the close callback between dropping it and queueing `connectDestroyed`,
`holders` those of the users. `taken` records that a `connectDestroyed` has been
swapped out of the queue. -/
structure ConnectionLifetime (Thread : Type u) where
  lifecycle : Lifecycle Thread
  ran : List Functor
  owner : Bool
  closing : Bool
  holders : List Thread
  taken : Bool

namespace ConnectionLifetime

variable {Thread : Type u} [DecidableEq Thread]

inductive Event (Thread : Type u) where
  | step (event : Lifecycle.Event Thread)
  | acquire (thread : Thread)
  | release (thread : Thread)

/-- Someone has a reference. -/
def Referenced (lifetime : ConnectionLifetime Thread) : Prop :=
  lifetime.owner = true ∨ lifetime.closing = true ∨ lifetime.holders ≠ [] ∨
    (∃ functor ∈ lifetime.ran ++ lifetime.lifecycle.functors, functor.Holds) ∨
    lifetime.lifecycle.Dispatching

instance (lifetime : ConnectionLifetime Thread) : Decidable lifetime.Referenced :=
  inferInstanceAs (Decidable (_ ∨ _ ∨ _ ∨ (∃ functor ∈ _, Functor.Holds functor) ∨ _))

/-- The thread that takes a step. -/
def thread (loop : Thread) : Lifecycle.Event Thread → Thread
  | .request thread _ | .proceed thread _ _ => thread
  | _ => loop

/-- The two steps in which the close callback queues `connectDestroyed`. -/
def Destroying : Lifecycle.Event Thread → Prop
  | .request _ .queueConnectDestroyed | .proceed _ .queueConnectDestroyed _ => True
  | _ => False

/-- The close callback is the owner's, runs to its end on the loop thread and is
alone in queueing `connectDestroyed`; everyone else needs a reference. -/
def Entitled (loop : Thread) (lifetime : ConnectionLifetime Thread) :
    Lifecycle.Event Thread → Prop
  | .request thread .queueConnectDestroyed => thread = loop ∧ lifetime.closing = true
  | .request _ .runConnectDestroyed => False
  | .request thread _ => thread ∈ lifetime.holders
  | _ => True

instance (event : Lifecycle.Event Thread) : Decidable (Destroying event) := by
  unfold Destroying
  split <;> infer_instance

instance (loop : Thread) (lifetime : ConnectionLifetime Thread)
    (event : Lifecycle.Event Thread) : Decidable (lifetime.Entitled loop event) := by
  unfold Entitled
  split <;> infer_instance

def Enabled (loop : Thread) (lifetime : ConnectionLifetime Thread) : Event Thread → Prop
  | .step event =>
      lifetime.lifecycle.Enabled loop event ∧ lifetime.Entitled loop event ∧
        (lifetime.closing = true → thread loop event = loop → Destroying event)
  | .acquire _ => lifetime.Referenced
  | .release thread => thread ∈ lifetime.holders ∧ lifetime.lifecycle.Idle thread

instance (loop : Thread) (lifetime : ConnectionLifetime Thread) :
    ∀ event, Decidable (lifetime.Enabled loop event)
  | .step _ => inferInstanceAs (Decidable (_ ∧ _ ∧ (_ → _ → _)))
  | .acquire _ => inferInstanceAs (Decidable lifetime.Referenced)
  | .release _ => inferInstanceAs (Decidable (_ ∧ _))

/-- `closeCallback_` is called in this step. -/
def Closes (loop : Thread) (lifetime : ConnectionLifetime Thread)
    (event : Lifecycle.Event Thread) : Bool :=
  (lifetime.lifecycle.next loop event).connection.closes ≠ lifetime.lifecycle.connection.closes

def next (loop : Thread) (lifetime : ConnectionLifetime Thread) :
    Event Thread → ConnectionLifetime Thread
  | .step event =>
      { lifetime with
        lifecycle := lifetime.lifecycle.next loop event
        ran :=
          match event with
          | .runFunctor _ => lifetime.ran ++ lifetime.lifecycle.functor?.toList
          | .endFunctors => []
          | _ => lifetime.ran
        owner := lifetime.owner && !lifetime.Closes loop event
        closing :=
          match event with
          | .proceed _ .queueConnectDestroyed _ => false
          | _ => lifetime.closing || lifetime.Closes loop event
        taken :=
          match event with
          | .doPendingFunctors => lifetime.taken ||
              .connectDestroyed ∈ lifetime.lifecycle.connection.pending_functors_
          | _ => lifetime.taken }
  | .acquire thread => { lifetime with holders := thread :: lifetime.holders }
  | .release thread => { lifetime with holders := lifetime.holders.erase thread }

/-- A new connection, just stored by its owner. -/
def start (writeComplete highWaterMark : Bool) : ConnectionLifetime Thread where
  lifecycle := .start writeComplete highWaterMark
  ran := []
  owner := true
  closing := false
  holders := []
  taken := false

def system (loop : Thread) : System (ConnectionLifetime Thread) (Event Thread) where
  initial lifetime :=
    ∃ writeComplete highWaterMark, lifetime = start writeComplete highWaterMark
  step lifetime event after :=
    lifetime.Enabled loop event ∧ after = lifetime.next loop event

/-- A `shutdown` that has passed its test gets its functor into the queue before
`connectDestroyed` is swapped out of it. -/
def Fit (loop : Thread) (lifetime : ConnectionLifetime Thread) : Event Thread → Prop
  | .step (.proceed thread .shutdown _) => thread ≠ loop → lifetime.taken = false
  | _ => True

instance (loop : Thread) (lifetime : ConnectionLifetime Thread) (event : Event Thread) :
    Decidable (lifetime.Fit loop event) := by
  unfold Fit
  split <;> infer_instance

/-- The step uses the connection or the channel it owns. -/
def Touches : Event Thread → Prop
  | .step (.poll return_events_) => return_events_.isSome
  | .step .doPendingFunctors | .step .endFunctors => False
  | .step _ => True
  | .acquire _ | .release _ => False

/-- The runs in which every step is fit. -/
def fitSystem (loop : Thread) : System (ConnectionLifetime Thread) (Event Thread) where
  initial lifetime :=
    ∃ writeComplete highWaterMark, lifetime = start writeComplete highWaterMark
  step lifetime event after :=
    (lifetime.Enabled loop event ∧ lifetime.Fit loop event) ∧ after = lifetime.next loop event

variable {loop : Thread} {lifetime : ConnectionLifetime Thread}

/-- The vector of functors that `doPendingFunctors` runs through. -/
def vector (lifetime : ConnectionLifetime Thread) : List Functor :=
  lifetime.ran ++ lifetime.lifecycle.batch

/-- What a call under way relies on: a reference of its thread, or the close
callback of the loop thread. -/
def Backed (loop : Thread) (lifetime : ConnectionLifetime Thread)
    (entry : Thread × Request) : Prop :=
  if entry.2.Destroys then entry.1 = loop ∧ lifetime.closing = true
  else entry.1 ∈ lifetime.holders

/-- What holds of the references as long as every step is fit. -/
structure Held (loop : Thread) (lifetime : ConnectionLifetime Thread) : Prop where
  orderly : lifetime.lifecycle.Orderly
  registry : lifetime.lifecycle.poller.Registry
  silent : lifetime.lifecycle.stage ≠ .established → lifetime.lifecycle.connection.closes = 0
  told : lifetime.owner = false ∨ lifetime.closing = true →
    0 < lifetime.lifecycle.connection.closes
  distinct : (lifetime.lifecycle.calls.map Prod.fst).Nodup
  callers : ∀ entry ∈ lifetime.lifecycle.calls, lifetime.Backed loop entry
  kept : lifetime.taken = false → lifetime.owner = true ∨ lifetime.closing = true ∨
    .connectDestroyed ∈ lifetime.lifecycle.connection.pending_functors_
  ended : lifetime.taken = true → 0 < lifetime.lifecycle.connection.closes
  swapped : .connectDestroyed ∈ lifetime.vector → lifetime.taken = true
  gone : lifetime.taken = true →
    .connectDestroyed ∈ lifetime.vector ∨ lifetime.lifecycle.Gone
  running : lifetime.vector ≠ [] → ∃ batch, lifetime.lifecycle.iteration = .functors batch
  removed : .connectDestroyed ∈ lifetime.ran → lifetime.lifecycle.poller.registered = none
  pending : .shutdownInLoop ∈ lifetime.lifecycle.connection.pending_functors_ →
    lifetime.taken = false
  plain : .shutdownInLoop ∈ lifetime.vector →
    lifetime.taken = false ∨ .connectDestroyed ∈ lifetime.vector

/-! ## One step -/

omit [DecidableEq Thread] in
theorem Held.begun (held : lifetime.Held loop)
    (closes : 0 < lifetime.lifecycle.connection.closes) :
    lifetime.lifecycle.stage = .established ∧ lifetime.lifecycle.connection.Closed := by
  constructor
  · by_contra early
    have none := held.silent early
    omega
  · exact held.orderly.ends (Or.inr closes)

omit [DecidableEq Thread] in
theorem Held.told_step (held : lifetime.Held loop) {event : Lifecycle.Event Thread}
    (entitled : lifetime.Entitled loop event) : lifetime.lifecycle.Told event := by
  cases event with
  | request thread request =>
      cases request with
      | queueConnectDestroyed => exact fun _ => held.told (Or.inr entitled.2)
      | runConnectDestroyed => exact absurd entitled id
      | send | shutdown | forceClose => exact fun destroys => absurd destroys id
  | _ => trivial

theorem Held.closes_mono (held : lifetime.Held loop) {event : Lifecycle.Event Thread}
    (enabled : lifetime.lifecycle.Enabled loop event) :
    lifetime.lifecycle.connection.closes ≤
      (lifetime.lifecycle.next loop event).connection.closes :=
  (held.orderly.next_stage enabled).1

theorem Held.closes_pos (held : lifetime.Held loop) {event : Lifecycle.Event Thread}
    (enabled : lifetime.lifecycle.Enabled loop event)
    (closes : lifetime.Closes loop event = true) :
    0 < (lifetime.lifecycle.next loop event).connection.closes := by
  have grows := held.closes_mono enabled
  have differs := of_decide_eq_true closes
  omega

theorem vector_next {event : Lifecycle.Event Thread}
    (enabled : lifetime.lifecycle.Enabled loop event) :
    (event = .doPendingFunctors ∧ (lifetime.next loop (.step event)).vector =
        lifetime.ran ++ lifetime.lifecycle.connection.pending_functors_) ∨
      (event = .endFunctors ∧ (lifetime.next loop (.step event)).vector = []) ∨
      (event ≠ .doPendingFunctors ∧
        (lifetime.next loop (.step event)).vector = lifetime.vector) := by
  cases event with
  | doPendingFunctors => exact Or.inl ⟨rfl, rfl⟩
  | endFunctors => exact Or.inr (Or.inl ⟨rfl, rfl⟩)
  | runFunctor result =>
      right
      right
      obtain ⟨functor, rest, here⟩ := Lifecycle.functors_of_functor? enabled.2
      obtain ⟨-, iteration, -⟩ := @Lifecycle.perform_fields _
        { lifetime.lifecycle with iteration := .functors rest } functor result
      refine ⟨by simp, ?_⟩
      simp [vector, next, Lifecycle.next, Lifecycle.batch, Lifecycle.functor?, here, iteration]
  | connectEstablished | connectionCallback | request | proceed | poll | handleEvent | handle =>
      right
      right
      refine ⟨by simp, ?_⟩
      rw [vector, vector, ← Lifecycle.next_batch enabled id]
      rfl

theorem taken_next {event : Lifecycle.Event Thread} (waits : event ≠ .doPendingFunctors) :
    (lifetime.next loop (.step event)).taken = lifetime.taken := by
  cases event with
  | doPendingFunctors => exact absurd rfl waits
  | _ => rfl

theorem closing_next {event : Lifecycle.Event Thread}
    (closing : lifetime.closing = true ∨ lifetime.Closes loop event = true) :
    (lifetime.next loop (.step event)).closing = true ∨
      .connectDestroyed ∈ (lifetime.lifecycle.next loop event).connection.pending_functors_ := by
  have goes : (lifetime.closing || lifetime.Closes loop event) = true := by
    rcases closing with before | now
    · rw [before, Bool.true_or]
    · rw [now, Bool.or_true]
  cases event with
  | proceed thread request result =>
      cases request with
      | queueConnectDestroyed =>
          right
          have queues : ¬ (thread = loop ∧ Request.queueConnectDestroyed.RunsInLoop) :=
            fun both => both.2
          simp only [Lifecycle.next, if_neg queues]
          exact List.mem_append_right _ (List.mem_singleton_self _)
      | _ => exact Or.inl goes
  | _ => exact Or.inl goes

/-- Until `connectDestroyed` is swapped out, someone answers for it. -/
theorem Held.kept_next (held : lifetime.Held loop) {event : Lifecycle.Event Thread}
    (enabled : lifetime.lifecycle.Enabled loop event)
    (free : (lifetime.next loop (.step event)).taken = false) :
    (lifetime.next loop (.step event)).owner = true ∨
      (lifetime.next loop (.step event)).closing = true ∨
      .connectDestroyed ∈ (lifetime.lifecycle.next loop event).connection.pending_functors_ := by
  have before : lifetime.taken = false ∧ (event = .doPendingFunctors →
      .connectDestroyed ∉ lifetime.lifecycle.connection.pending_functors_) := by
    cases event with
    | doPendingFunctors =>
        simp only [next, Bool.or_eq_false_iff, decide_eq_false_iff_not] at free
        exact ⟨free.1, fun _ => free.2⟩
    | _ => exact ⟨free, nofun⟩
  rcases held.kept before.1 with owner | closing | queued
  · by_cases closes : lifetime.Closes loop event = true
    · exact Or.inr (closing_next (Or.inr closes))
    · left
      rw [Bool.not_eq_true] at closes
      simp only [next, owner, closes]
      rfl
  · exact Or.inr (closing_next (Or.inl closing))
  · right
    right
    by_cases swaps : event = .doPendingFunctors
    · exact absurd queued (before.2 swaps)
    · obtain ⟨added, eq, -⟩ := Lifecycle.next_pending enabled swaps
      rw [eq]
      exact List.mem_append_left _ queued

theorem Held.told_next (held : lifetime.Held loop) {event : Lifecycle.Event Thread}
    (enabled : lifetime.lifecycle.Enabled loop event)
    (told : (lifetime.next loop (.step event)).owner = false ∨
      (lifetime.next loop (.step event)).closing = true) :
    0 < (lifetime.lifecycle.next loop event).connection.closes := by
  by_cases closes : lifetime.Closes loop event = true
  · exact held.closes_pos enabled closes
  · rw [Bool.not_eq_true] at closes
    apply (held.told _).trans_le (held.closes_mono enabled)
    rcases told with dropped | closing
    · left
      simpa [next, closes] using dropped
    · right
      cases event with
      | proceed thread request result =>
          cases request with
          | queueConnectDestroyed => cases closing
          | _ => simpa [next, closes] using closing
      | _ => simpa [next, closes] using closing

theorem closing_stays {event : Lifecycle.Event Thread} (closing : lifetime.closing = true)
    (other : ∀ thread result, event ≠ .proceed thread .queueConnectDestroyed result) :
    (lifetime.next loop (.step event)).closing = true := by
  cases event with
  | proceed thread request result =>
      cases request with
      | queueConnectDestroyed => exact absurd rfl (other thread result)
      | _ => simp [next, closing]
  | _ => simp [next, closing]

theorem Backed.stays {entry : Thread × Request} (backed : lifetime.Backed loop entry)
    {event : Lifecycle.Event Thread}
    (other : ∀ thread result, event ≠ .proceed thread .queueConnectDestroyed result) :
    (lifetime.next loop (.step event)).Backed loop entry := by
  unfold Backed at backed ⊢
  split at backed
  next destroys =>
    rw [if_pos destroys]
    exact ⟨backed.1, closing_stays backed.2 other⟩
  next holds =>
    rw [if_neg holds]
    exact backed

theorem Held.callers_request (held : lifetime.Held loop) {thread : Thread} {request : Request}
    (enabled : lifetime.lifecycle.Enabled loop (.request thread request))
    (entitled : lifetime.Entitled loop (.request thread request)) :
    ((lifetime.lifecycle.next loop (.request thread request)).calls.map Prod.fst).Nodup ∧
      ∀ entry ∈ (lifetime.lifecycle.next loop (.request thread request)).calls,
        (lifetime.next loop (.step (.request thread request))).Backed loop entry := by
  have earlier : ∀ entry ∈ lifetime.lifecycle.calls,
      (lifetime.next loop (.step (.request thread request))).Backed loop entry := by
    intro entry membership
    exact Backed.stays (held.callers entry membership) nofun
  rcases Lifecycle.next_request loop thread request lifetime.lifecycle with ⟨-, eq⟩ | eq
  · rw [eq]
    refine ⟨?_, ?_⟩
    · simp only [List.map_append, List.map_cons, List.map_nil]
      rw [← List.concat_eq_append, List.nodup_concat]
      refine ⟨?_, held.distinct⟩
      intro membership
      obtain ⟨entry, here, same⟩ := List.mem_map.mp membership
      exact enabled.1 entry here same
    · intro entry membership
      rcases List.mem_append.mp membership with before | last
      · exact earlier entry before
      · rw [List.mem_singleton] at last
        subst last
        cases request with
        | queueConnectDestroyed => exact ⟨entitled.1, closing_stays entitled.2 nofun⟩
        | runConnectDestroyed => exact absurd entitled id
        | send | shutdown | forceClose => exact entitled
  · rw [eq]
    exact ⟨held.distinct, earlier⟩

/-- A call ends. If it is that of the close callback, no other relies on it. -/
theorem Held.callers_proceed (held : lifetime.Held loop) {thread : Thread} {request : Request}
    {result : WriteResult}
    (enabled : lifetime.lifecycle.Enabled loop (.proceed thread request result)) :
    ((lifetime.lifecycle.next loop (.proceed thread request result)).calls.map Prod.fst).Nodup ∧
      ∀ entry ∈ (lifetime.lifecycle.next loop (.proceed thread request result)).calls,
        (lifetime.next loop (.step (.proceed thread request result))).Backed loop entry := by
  have calls : (lifetime.lifecycle.next loop (.proceed thread request result)).calls =
      lifetime.lifecycle.calls.erase (thread, request) := by
    simp only [Lifecycle.next]
    split
    · exact (Lifecycle.perform_fields request.functor result).2.2
    · rfl
  rw [calls]
  refine ⟨held.distinct.sublist ((List.erase_sublist).map Prod.fst), ?_⟩
  intro entry membership
  have before := List.mem_of_mem_erase membership
  have backed : lifetime.Backed loop entry := held.callers entry before
  by_cases last : request = .queueConnectDestroyed
  · subst last
    have own : thread = loop := (held.callers _ enabled.1).1
    have differs := (held.distinct.of_map Prod.fst).mem_erase_iff.mp membership
    unfold Backed at backed ⊢
    split at backed
    next destroys =>
      -- two calls of the loop thread at once
      have same := List.inj_on_of_nodup_map held.distinct before enabled.1 (backed.1.trans own.symm)
      exact absurd same differs.1
    next holds =>
      rw [if_neg holds]
      exact backed
  · apply backed.stays
    intro other result same
    cases same
    exact last rfl

theorem Held.callers_next (held : lifetime.Held loop) {event : Lifecycle.Event Thread}
    (enabled : lifetime.lifecycle.Enabled loop event)
    (entitled : lifetime.Entitled loop event) :
    ((lifetime.lifecycle.next loop event).calls.map Prod.fst).Nodup ∧
      ∀ entry ∈ (lifetime.lifecycle.next loop event).calls,
        (lifetime.next loop (.step event)).Backed loop entry := by
  have same : (∀ thread result, event ≠ .proceed thread .queueConnectDestroyed result) →
      (lifetime.lifecycle.next loop event).calls = lifetime.lifecycle.calls →
      ((lifetime.lifecycle.next loop event).calls.map Prod.fst).Nodup ∧
        ∀ entry ∈ (lifetime.lifecycle.next loop event).calls,
          (lifetime.next loop (.step event)).Backed loop entry := by
    intro other calls
    rw [calls]
    refine ⟨held.distinct, ?_⟩
    intro entry membership
    exact Backed.stays (held.callers entry membership) other
  cases event with
  | request thread request => exact held.callers_request enabled entitled
  | proceed thread request result => exact held.callers_proceed enabled
  | connectEstablished | connectionCallback | poll | doPendingFunctors | endFunctors =>
      exact same (by simp) rfl
  | handleEvent =>
      obtain ⟨return_events_, active⟩ := Lifecycle.active_of_return_events? enabled.2
      exact same (by simp) (by simp only [Lifecycle.next, active])
  | handle read write =>
      obtain ⟨handler, handlers, here⟩ := Lifecycle.handling_of_handler? enabled.2
      apply same (by simp)
      simp only [Lifecycle.next, here]
      exact (Lifecycle.callHandler_fields handler read write).2.1
  | runFunctor result =>
      obtain ⟨functor, rest, here⟩ := Lifecycle.functors_of_functor? enabled.2
      apply same (by simp)
      simp only [Lifecycle.next, here]
      exact (Lifecycle.perform_fields functor result).2.2

theorem Held.ended_next (held : lifetime.Held loop) {event : Lifecycle.Event Thread}
    (enabled : lifetime.lifecycle.Enabled loop event)
    (taken : (lifetime.next loop (.step event)).taken = true) :
    0 < (lifetime.lifecycle.next loop event).connection.closes := by
  have now : 0 < lifetime.lifecycle.connection.closes := by
    by_cases swaps : event = .doPendingFunctors
    · subst swaps
      simp only [next, Bool.or_eq_true, decide_eq_true_eq] at taken
      rcases taken with before | queued
      · exact held.ended before
      · exact held.orderly.queued (List.mem_append_right _ queued)
    · rw [taken_next swaps] at taken
      exact held.ended taken
  exact now.trans_le (held.closes_mono enabled)

omit [DecidableEq Thread] in
theorem Held.nothing_ran (held : lifetime.Held loop)
    (elsewhere : ∀ batch, lifetime.lifecycle.iteration ≠ .functors batch) :
    lifetime.vector = [] := by
  by_contra nonempty
  obtain ⟨batch, here⟩ := held.running nonempty
  exact elsewhere batch here

theorem Held.swap (held : lifetime.Held loop)
    (enabled : lifetime.lifecycle.Enabled loop .doPendingFunctors) :
    lifetime.vector = [] ∧ (lifetime.next loop (.step .doPendingFunctors)).vector =
      lifetime.lifecycle.connection.pending_functors_ := by
  have empty : lifetime.vector = [] := by
    apply held.nothing_ran
    intro batch here
    rcases enabled.2 with active | handling
    · rw [active] at here
      cases here
    · rw [handling] at here
      cases here
  refine ⟨empty, ?_⟩
  have ran : lifetime.ran = [] := (List.append_eq_nil_iff.mp empty).1
  change lifetime.ran ++ lifetime.lifecycle.connection.pending_functors_ = _
  rw [ran, List.nil_append]

theorem Held.swapped_next (held : lifetime.Held loop) {event : Lifecycle.Event Thread}
    (enabled : lifetime.lifecycle.Enabled loop event)
    (swapped : .connectDestroyed ∈ (lifetime.next loop (.step event)).vector) :
    (lifetime.next loop (.step event)).taken = true := by
  rcases vector_next enabled with ⟨rfl, -⟩ | ⟨rfl, empty⟩ | ⟨waits, same⟩
  · rw [(held.swap enabled).2] at swapped
    simp [next, swapped]
  · rw [empty] at swapped
    cases swapped
  · rw [same] at swapped
    rw [taken_next waits]
    exact held.swapped swapped

theorem Held.running_next (held : lifetime.Held loop) {event : Lifecycle.Event Thread}
    (enabled : lifetime.lifecycle.Enabled loop event)
    (nonempty : (lifetime.next loop (.step event)).vector ≠ []) :
    ∃ batch, (lifetime.lifecycle.next loop event).iteration = .functors batch := by
  cases event with
  | doPendingFunctors => exact ⟨_, rfl⟩
  | endFunctors => exact absurd rfl nonempty
  | runFunctor result =>
      obtain ⟨functor, rest, here⟩ := Lifecycle.functors_of_functor? enabled.2
      refine ⟨rest, ?_⟩
      simp only [Lifecycle.next, here]
      exact (Lifecycle.perform_fields functor result).2.1
  | connectEstablished | connectionCallback | request | proceed | poll | handleEvent | handle =>
      rcases vector_next enabled with ⟨⟨⟩, -⟩ | ⟨⟨⟩, -⟩ | ⟨-, same⟩
      rw [same] at nonempty
      obtain ⟨batch, here⟩ := held.running nonempty
      exact ⟨batch, (Lifecycle.next_functors_iff enabled id batch).mpr here⟩

theorem Held.removed_next (held : lifetime.Held loop) {event : Lifecycle.Event Thread}
    (enabled : lifetime.lifecycle.Enabled loop event)
    (ran : .connectDestroyed ∈ (lifetime.next loop (.step event)).ran) :
    (lifetime.lifecycle.next loop event).poller.registered = none := by
  have stays : .connectDestroyed ∈ lifetime.ran →
      (lifetime.lifecycle.next loop event).poller.registered = none := by
    intro before
    have here := List.mem_append_left lifetime.lifecycle.batch before
    obtain ⟨established, closed⟩ := held.begun (held.ended (held.swapped here))
    obtain ⟨batch, functors⟩ := held.running (List.ne_nil_of_mem here)
    exact Lifecycle.next_unregistered closed held.registry (by simp [established]) enabled
      (by simp [Lifecycle.handler?, functors]) (held.removed before)
  cases event with
  | runFunctor result =>
      obtain ⟨functor, rest, here⟩ := Lifecycle.functors_of_functor? enabled.2
      simp only [next, Lifecycle.functor?, here, List.head?_cons, Option.toList_some,
        List.mem_append, List.mem_singleton] at ran
      rcases ran with before | rfl
      · exact stays before
      · simp only [Lifecycle.next, here]
        apply Lifecycle.perform_connectDestroyed
        exact held.registry
  | endFunctors => cases ran
  | _ => exact stays ran

theorem Held.gone_next (held : lifetime.Held loop) {event : Lifecycle.Event Thread}
    (enabled : lifetime.lifecycle.Enabled loop event)
    (taken : (lifetime.next loop (.step event)).taken = true) :
    .connectDestroyed ∈ (lifetime.next loop (.step event)).vector ∨
      (lifetime.lifecycle.next loop event).Gone := by
  have stays : lifetime.taken = true → lifetime.lifecycle.Gone →
      (lifetime.lifecycle.next loop event).Gone := by
    intro before gone
    obtain ⟨established, closed⟩ := held.begun (held.ended before)
    exact gone.next closed held.registry (by simp [established]) enabled
  rcases vector_next enabled with ⟨rfl, -⟩ | ⟨rfl, -⟩ | ⟨waits, same⟩
  · obtain ⟨empty, swapped⟩ := held.swap enabled
    rw [swapped]
    simp only [next, Bool.or_eq_true, decide_eq_true_eq] at taken
    rcases taken with before | queued
    · right
      apply stays before
      apply (held.gone before).resolve_left
      rw [empty]
      exact List.not_mem_nil
    · exact Or.inl queued
  · right
    rcases held.gone taken with last | gone
    · -- the batch is over, so its `connectDestroyed` has run
      have ran : .connectDestroyed ∈ lifetime.ran := by
        simpa [vector, Lifecycle.batch, enabled.2] using last
      exact ⟨held.removed ran, rfl, by simp [Lifecycle.next]⟩
    · exact stays taken gone
  · rw [taken_next waits] at taken
    rw [same]
    exact (held.gone taken).imp_right (stays taken)

theorem Held.pending_next (held : lifetime.Held loop) {event : Lifecycle.Event Thread}
    (enabled : lifetime.lifecycle.Enabled loop event) (fit : lifetime.Fit loop (.step event))
    (queued : .shutdownInLoop ∈
      (lifetime.lifecycle.next loop event).connection.pending_functors_) :
    (lifetime.next loop (.step event)).taken = false := by
  by_cases swaps : event = .doPendingFunctors
  · subst swaps
    cases queued
  · rw [taken_next swaps]
    obtain ⟨added, eq, origin⟩ := Lifecycle.next_pending enabled swaps
    rw [eq] at queued
    rcases List.mem_append.mp queued with before | new
    · exact held.pending before
    · rcases origin _ new with notifies | ⟨thread, request, result, rfl, functor, remote⟩
      · exact absurd notifies id
      · cases request with
        | shutdown =>
            apply fit
            intro own
            exact remote ⟨own, trivial⟩
        | _ => cases functor

theorem Held.plain_next (held : lifetime.Held loop) {event : Lifecycle.Event Thread}
    (enabled : lifetime.lifecycle.Enabled loop event)
    (swapped : .shutdownInLoop ∈ (lifetime.next loop (.step event)).vector) :
    (lifetime.next loop (.step event)).taken = false ∨
      .connectDestroyed ∈ (lifetime.next loop (.step event)).vector := by
  rcases vector_next enabled with ⟨rfl, -⟩ | ⟨rfl, empty⟩ | ⟨waits, same⟩
  · rw [(held.swap enabled).2] at swapped ⊢
    by_cases queued : .connectDestroyed ∈ lifetime.lifecycle.connection.pending_functors_
    · exact Or.inr queued
    · left
      simp [next, queued, held.pending swapped]
  · rw [empty] at swapped
    cases swapped
  · rw [same] at swapped ⊢
    rw [taken_next waits]
    exact held.plain swapped

/-- The step lemma. -/
theorem Held.next (held : lifetime.Held loop) {event : Event Thread}
    (enabled : lifetime.Enabled loop event) (fit : lifetime.Fit loop event) :
    (lifetime.next loop event).Held loop := by
  cases event with
  | step event =>
      obtain ⟨permitted, entitled, -⟩ := enabled
      have told := held.told_step entitled
      obtain ⟨distinct, callers⟩ := held.callers_next permitted entitled
      exact {
        orderly := held.orderly.next permitted told
        registry := Lifecycle.next_registry held.registry event
        silent := Lifecycle.next_silent held.orderly held.silent permitted
        told := held.told_next permitted
        distinct := distinct
        callers := callers
        kept := held.kept_next permitted
        ended := held.ended_next permitted
        swapped := held.swapped_next permitted
        gone := held.gone_next permitted
        running := held.running_next permitted
        removed := held.removed_next permitted
        pending := held.pending_next permitted fit
        plain := held.plain_next permitted }
  | acquire thread =>
      refine { held with callers := ?_ }
      intro entry membership
      have backed := held.callers entry membership
      unfold Backed at backed ⊢
      split at backed
      next destroys =>
        rw [if_pos destroys]
        exact backed
      next holds =>
        rw [if_neg holds]
        exact List.mem_cons_of_mem thread backed
  | release thread =>
      refine { held with callers := ?_ }
      intro entry membership
      have backed := held.callers entry membership
      unfold Backed at backed ⊢
      split at backed
      next destroys =>
        rw [if_pos destroys]
        exact backed
      next holds =>
        rw [if_neg holds]
        exact (List.mem_erase_of_ne (enabled.2 entry membership)).mpr backed

/-- The run lemma. -/
theorem reachable_held {events : List (Event Thread)}
    (execution : (fitSystem loop).Execution events lifetime) : lifetime.Held loop := by
  apply execution.invariant (Held loop)
  · rintro _ ⟨writeComplete, highWaterMark, rfl⟩
    exact {
      orderly := @Lifecycle.reachable_orderly _ _ loop _ []
        ⟨_, ⟨writeComplete, highWaterMark, rfl⟩, .nil⟩
      registry := fun _ => rfl
      silent := fun _ => rfl
      told := by simp [start]
      distinct := by simp [start, Lifecycle.start]
      callers := by simp [start, Lifecycle.start]
      kept := fun _ => Or.inl rfl
      ended := by simp [start]
      swapped := by simp [start, vector, Lifecycle.batch, Lifecycle.start]
      gone := by simp [start]
      running := by simp [start, vector, Lifecycle.batch, Lifecycle.start]
      removed := by simp [start]
      pending := fun _ => rfl
      plain := fun _ => Or.inl rfl }
  · rintro lifetime event _ held ⟨⟨enabled, fit⟩, rfl⟩
    exact held.next enabled fit

/-! ## The last reference -/

omit [DecidableEq Thread] in
theorem referenced_of_functor {functor : Functor} (holds : functor.Holds)
    (membership : functor ∈ lifetime.vector ∨
      functor ∈ lifetime.lifecycle.connection.pending_functors_) : lifetime.Referenced := by
  have somewhere : functor ∈ lifetime.ran ++ lifetime.lifecycle.functors := by
    rw [Lifecycle.functors, ← List.append_assoc, List.mem_append]
    exact membership
  exact Or.inr (Or.inr (Or.inr (Or.inl ⟨functor, somewhere, holds⟩)))

omit [DecidableEq Thread] in
theorem referenced_of_connectDestroyed
    (membership : .connectDestroyed ∈ lifetime.vector ∨
      .connectDestroyed ∈ lifetime.lifecycle.connection.pending_functors_) :
    lifetime.Referenced :=
  @referenced_of_functor _ _ .connectDestroyed trivial membership

omit [DecidableEq Thread] in
theorem Held.referenced_of_free (held : lifetime.Held loop) (free : lifetime.taken = false) :
    lifetime.Referenced := by
  rcases held.kept free with owner | closing | queued
  · exact Or.inl owner
  · exact Or.inr (Or.inl closing)
  · exact referenced_of_connectDestroyed (Or.inr queued)

omit [DecidableEq Thread] in
theorem Held.referenced_of_here (held : lifetime.Held loop) (here : ¬ lifetime.lifecycle.Gone) :
    lifetime.Referenced := by
  cases taken : lifetime.taken with
  | false => exact held.referenced_of_free taken
  | true =>
      apply referenced_of_connectDestroyed
      exact Or.inl ((held.gone taken).resolve_right here)

omit [DecidableEq Thread] in
theorem referenced_of_backed {entry : Thread × Request} (backed : lifetime.Backed loop entry) :
    lifetime.Referenced := by
  unfold Backed at backed
  split at backed
  next => exact Or.inr (Or.inl backed.2)
  next => exact Or.inr (Or.inr (Or.inl (List.ne_nil_of_mem backed)))

omit [DecidableEq Thread] in
/-- A functor of the batch finds the connection alive, be it bound to a
reference or to a plain pointer. -/
theorem Held.referenced_of_running (held : lifetime.Held loop) {functor : Functor}
    {rest : List Functor} (here : lifetime.lifecycle.iteration = .functors (functor :: rest)) :
    lifetime.Referenced := by
  have swapped : functor ∈ lifetime.vector := by
    apply List.mem_append_right
    rw [Lifecycle.batch, here]
    exact List.mem_cons_self
  by_cases holds : functor.Holds
  · exact referenced_of_functor holds (Or.inl swapped)
  · have plain : functor = .shutdownInLoop := by
      cases functor with
      | shutdownInLoop => rfl
      | _ => exact absurd trivial holds
    rw [plain] at swapped
    rcases held.plain swapped with free | last
    · exact held.referenced_of_free free
    · exact referenced_of_connectDestroyed (Or.inl last)

omit [DecidableEq Thread] in
theorem Held.referenced_of_touches (held : lifetime.Held loop) {event : Event Thread}
    (enabled : lifetime.Enabled loop event) (touches : Touches event) : lifetime.Referenced := by
  have early : lifetime.lifecycle.stage ≠ .established → lifetime.Referenced := by
    intro early
    cases owner : lifetime.owner with
    | true => exact Or.inl owner
    | false =>
        have told := held.told (Or.inl owner)
        rw [held.silent early] at told
        exact absurd told (by decide)
  cases event with
  | step event =>
      obtain ⟨permitted, entitled, -⟩ := enabled
      cases event with
      | connectEstablished => exact early (by simp [show _ = _ from permitted])
      | connectionCallback => exact early (by simp [show _ = _ from permitted])
      | request thread request =>
          cases request with
          | queueConnectDestroyed => exact Or.inr (Or.inl entitled.2)
          | runConnectDestroyed => exact absurd entitled id
          | send | shutdown | forceClose =>
              exact Or.inr (Or.inr (Or.inl (List.ne_nil_of_mem entitled)))
      | proceed thread request result =>
          exact referenced_of_backed (held.callers _ permitted.1)
      | poll return_events_ =>
          apply held.referenced_of_here
          intro gone
          have known := permitted.2.2 touches
          rw [gone.registered] at known
          cases known
      | handleEvent =>
          apply held.referenced_of_here
          intro gone
          have active := permitted.2
          rw [gone.active] at active
          cases active
      | handle read write =>
          apply held.referenced_of_here
          intro gone
          have handles := permitted.2
          rw [gone.handler?] at handles
          cases handles
      | doPendingFunctors | endFunctors => exact absurd touches id
      | runFunctor result =>
          obtain ⟨functor, rest, here⟩ := Lifecycle.functors_of_functor? permitted.2
          exact held.referenced_of_running here
  | acquire thread | release thread => exact absurd touches id

/-- The steps that do not use the connection neither copy a reference nor call
back. -/
theorem referenced_of_next (event : Event Thread) (enabled : lifetime.Enabled loop event)
    (alone : ¬ Touches event) (referenced : (lifetime.next loop event).Referenced) :
    lifetime.Referenced := by
  cases event with
  | acquire thread => exact enabled
  | release thread => exact Or.inr (Or.inr (Or.inl (List.ne_nil_of_mem enabled.1)))
  | step event =>
      have silent : (lifetime.lifecycle.next loop event).connection.closes =
          lifetime.lifecycle.connection.closes := by
        cases event with
        | poll | doPendingFunctors | endFunctors => rfl
        | _ => exact absurd trivial alone
      have waiting : ∀ functor ∈ (lifetime.next loop (.step event)).ran ++
          (lifetime.lifecycle.next loop event).functors,
          functor ∈ lifetime.ran ++ lifetime.lifecycle.functors := by
        intro functor membership
        cases event with
        | poll return_events_ =>
            simpa [next, Lifecycle.next, Lifecycle.functors, Lifecycle.batch,
              enabled.1.2.1] using membership
        | doPendingFunctors =>
            simp only [next, Lifecycle.next, Lifecycle.functors, Lifecycle.batch,
              List.append_nil, List.mem_append] at membership ⊢
            exact membership.imp_right Or.inr
        | endFunctors =>
            simp only [next, Lifecycle.next, Lifecycle.functors, Lifecycle.batch,
              List.nil_append, List.mem_append] at membership ⊢
            exact Or.inr (Or.inr membership)
        | _ => exact absurd trivial alone
      have elsewhere : ¬ (lifetime.lifecycle.next loop event).Dispatching := by
        cases event with
        | poll | doPendingFunctors | endFunctors => exact id
        | _ => exact absurd trivial alone
      have closes : lifetime.Closes loop event = false := by simp [Closes, silent]
      rcases referenced with owner | closing | holders | ⟨functor, membership, holds⟩ | dispatching
      · left
        simpa [next, closes] using owner
      · right
        left
        cases event with
        | poll | doPendingFunctors | endFunctors => simpa [next, closes] using closing
        | _ => exact absurd trivial alone
      · exact Or.inr (Or.inr (Or.inl holders))
      · exact Or.inr (Or.inr (Or.inr (Or.inl ⟨functor, waiting functor membership, holds⟩)))
      · exact absurd dispatching elsewhere

/-- Once the last reference is gone, no step of the rest of the run uses the
connection or its channel, whichever threads have called what before. -/
theorem freed_is_left_alone {events more : List (Event Thread)}
    {before after : ConnectionLifetime Thread}
    (reached : (fitSystem loop).Execution events before)
    (onward : (fitSystem loop).Run before more after) (freed : ¬ before.Referenced) :
    ¬ after.Referenced ∧ ∀ event ∈ more, ¬ Touches event := by
  have invariant := onward.history
    (fun past reached => reached.Held loop ∧ ¬ reached.Referenced ∧
      ∀ event ∈ past, ¬ Touches event)
    ⟨reachable_held reached, freed, by simp⟩ ?_
  · exact invariant.2
  · rintro past middle event _ ⟨held, freed, alone⟩ ⟨⟨enabled, fit⟩, rfl⟩
    have leaves : ¬ Touches event :=
      fun touches => freed (held.referenced_of_touches enabled touches)
    refine ⟨held.next enabled fit, mt (referenced_of_next event enabled leaves) freed, ?_⟩
    intro other membership
    rcases List.mem_append.mp membership with earlier | last
    · exact alone other earlier
    · rw [List.mem_singleton.mp last]
      exact leaves

/-- The peer has closed, and the loop has destroyed the connection. -/
def closedByPeer : List (Event Bool) :=
  [.step .connectEstablished, .step .connectionCallback, .step .endFunctors,
    .step (.poll (some Channel.EPOLLIN)), .step .handleEvent,
    .step (.handle (.delivered []) (.wrote 0)), .step (.request false .queueConnectDestroyed),
    .step (.proceed false .queueConnectDestroyed (.wrote 0)), .step .doPendingFunctors,
    .step (.runFunctor (.wrote 0)), .step .endFunctors]

theorem fit_run (loop : Thread) {start : ConnectionLifetime Thread} {events : List (Event Thread)}
    (allowed : System.Allowed
      (fun lifetime event => lifetime.Enabled loop event ∧ lifetime.Fit loop event)
      (ConnectionLifetime.next loop) start events) :
    (fitSystem loop).Run start events (events.foldl (ConnectionLifetime.next loop) start) :=
  System.Run.foldl (fitSystem loop)
    (fun lifetime event => lifetime.Enabled loop event ∧ lifetime.Fit loop event)
    (fun _ _ both => ⟨both, rfl⟩) allowed

theorem freed_is_left_alone_peer :
    let before := closedByPeer.foldl (ConnectionLifetime.next false) (start false false)
    ¬ (before.next false (.step (.poll none))).Referenced ∧
      ∀ event ∈ ([.step (.poll none)] : List (Event Bool)), ¬ Touches event :=
  freed_is_left_alone
    ⟨start false false, ⟨false, false, rfl⟩, fit_run false (by decide +kernel)⟩
    (Run.single (fitSystem false) _ _ ⟨⟨by decide +kernel, trivial⟩, rfl⟩)
    (by decide +kernel)

/-- A `shutdown` on another thread, past its test before the peer closes, hands
its functor over only when the loop has swapped `connectDestroyed` out. -/
def lateShutdown : List (Event Bool) :=
  [.step .connectEstablished, .step .connectionCallback, .acquire true,
    .step (.request true .shutdown), .step .endFunctors,
    .step (.poll (some Channel.EPOLLIN)), .step .handleEvent,
    .step (.handle (.delivered []) (.wrote 0)), .step (.request false .queueConnectDestroyed),
    .step (.proceed false .queueConnectDestroyed (.wrote 0)), .step .doPendingFunctors,
    .step (.proceed true .shutdown (.wrote 0)), .release true,
    .step (.runFunctor (.wrote 0)), .step .endFunctors, .step (.poll none),
    .step .doPendingFunctors]

/-- The functor then runs on a connection that has been freed. -/
theorem shutdown_after_free :
    ∃ (events : List (Event Bool)) (lifetime : ConnectionLifetime Bool),
      (system false).Execution events lifetime ∧ ¬ lifetime.Referenced ∧
        lifetime.Enabled false (.step (.runFunctor (.wrote 0))) := by
  refine ⟨lateShutdown, lateShutdown.foldl (ConnectionLifetime.next false) (start false false),
    ?_, by decide +kernel, by decide +kernel⟩
  exact Execution.foldl (system false) (Enabled false) (fun _ _ enabled => ⟨enabled, rfl⟩)
    ⟨false, false, rfl⟩ (by decide +kernel)

end ConnectionLifetime

end GdRpc.Net
