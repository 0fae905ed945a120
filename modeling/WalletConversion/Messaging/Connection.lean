import Mathlib.Data.Finset.Insert
import Mathlib.Logic.Relation
import Mathlib.Order.Basic

/-!
# The shared connection to the broker

`RabbitMqConnection` keeps one connection with one channel, opens another when it is lost, and
starts the registered consumers again on the new channel. Its methods wait for the network at many
places, and everything else may happen while they wait. `State.step` runs what stands between two
such places.

## What is assumed of the surroundings

* A connection or channel that was asked to close ignores everything but the confirmation. What
  waits for an answer on it is rejected when it has closed; until then a call on it throws.
* The broker answers `basic.consume` with a subscription, or by closing the channel.
* When a connection or channel has closed, its handlers run, and they run once.
* The event loop takes an event of its own (a timer, the answer to `amqp.connect` or to a call on a
  new connection) only when no promise is left that is settled and not followed up. No such order is
  assumed of the frames of one connection: several of them may be taken from one packet.

Everything the network may answer is a parameter of the event, so that `State.step` is a function.
-/

namespace WalletConversion.RabbitMqConnection

/-! ### Connections -/

/-- The state of a connection or of a channel. -/
inductive Status where
  | opened
  /-- `close` was called, and the confirmation is awaited. -/
  | closing
  | closed
  deriving DecidableEq

/-- What one `amqp.connect` has opened. -/
structure Link where
  connection : Status
  /-- None before `createConfirmChannel` has resolved. -/
  channel : Option Status
  /-- The queue of each subscription the broker has accepted on the channel. -/
  subscriptions : List String
  deriving DecidableEq

namespace Link

/-- A connection without a channel. -/
def connected : Link := ⟨.opened, none, []⟩

/-- Calls on the channel reach the broker. -/
def Live (l : Link) : Prop := l.connection = .opened ∧ l.channel = some .opened

instance (l : Link) : Decidable l.Live := inferInstanceAs (Decidable (_ ∧ _))

/-- `channel.close()`. -/
def closeChannel (l : Link) : Link := if l.Live then { l with channel := some .closing } else l

/-- `connection.close()`. -/
def closeConnection (l : Link) : Link :=
  if l.connection = .opened then { l with connection := .closing } else l

/-- The channel has closed. -/
def channelClosed (l : Link) : Link := { l with channel := l.channel.map fun _ ↦ .closed }

/-- The connection has closed, and its channel with it. -/
def connectionClosed (l : Link) : Link := { l.channelClosed with connection := .closed }

/-- `createConfirmChannel` has resolved. -/
def channelOpened (l : Link) : Link := { l with channel := some .opened }

/-- The broker accepts a subscription to the queue. -/
def accept (queue : String) (l : Link) : Link :=
  { l with subscriptions := queue :: l.subscriptions }

section Numbered

variable (links : List Link) (i : ℕ)

/-- Calls on the channel of connection `i` reach the broker. -/
def LiveAt : Prop := ∃ l ∈ links[i]?, l.Live

instance : Decidable (LiveAt links i) :=
  decidable_of_iff (links[i]?.any fun l ↦ l.Live) (by simp [LiveAt, Option.any_eq_true])

/-- The state of connection `i`, if it was opened. -/
def connectionAt : Option Status := links[i]?.map (·.connection)

/-- The state of its channel, if it has one. -/
def channelAt : Option Status := links[i]?.bind (·.channel)

/-- The queues subscribed on the channel of connection `i`. -/
def subscriptionsAt : List String := links[i]?.elim [] (·.subscriptions)

end Numbered

variable {links : List Link} {i j : ℕ} {f : Link → Link} {queue : String}

/-- A link is live at a place where a live link stands. -/
theorem liveAt_iff : LiveAt links i ↔ ∃ l, links[i]? = some l ∧ l.Live := by
  simp [LiveAt]

/-- There is a link where there is a connection. -/
theorem lt_length_of_connectionAt {status : Status} (h : connectionAt links i = some status) :
    i < links.length := by
  by_contra hlt
  rw [connectionAt, List.getElem?_eq_none (not_lt.1 hlt)] at h
  cases h

/-- A live link has an open connection. -/
theorem connectionAt_of_liveAt (h : LiveAt links i) : connectionAt links i = some .opened := by
  obtain ⟨l, hl, hlive⟩ := liveAt_iff.1 h
  rw [connectionAt, hl, Option.map_some, hlive.1]

/-- Closing takes a connection or its channel out of service. -/
def Stops (f : Link → Link) : Prop := ∀ l, ¬ (f l).Live ∧ (f l).subscriptions = l.subscriptions

/-- A link whose channel is closed is not live. -/
theorem stops_closeChannel : Stops closeChannel := fun l ↦ by
  unfold closeChannel
  split
  · simp [Live]
  · exact ⟨‹_›, rfl⟩

/-- A link whose connection is closed is not live. -/
theorem stops_closeConnection : Stops closeConnection := fun l ↦ by
  unfold closeConnection
  split
  · simp [Live]
  · exact ⟨fun h ↦ ‹¬ _› h.1, rfl⟩

/-- A link that lost its channel is not live. -/
theorem stops_channelClosed : Stops channelClosed := fun l ↦ by simp [channelClosed, Live]

/-- A link that lost its connection is not live. -/
theorem stops_connectionClosed : Stops connectionClosed := fun l ↦ by
  simp [connectionClosed, channelClosed, Live]

theorem connection_closeChannel (l : Link) : l.closeChannel.connection = l.connection := by
  unfold closeChannel
  split <;> rfl

theorem connection_channelClosed (l : Link) : l.channelClosed.connection = l.connection := rfl

theorem connection_channelOpened (l : Link) : l.channelOpened.connection = l.connection := rfl

/-- What a change of one link does to the connections. -/
theorem connectionAt_modify : connectionAt (links.modify i f) j =
    links[j]?.map fun l ↦ if i = j then (f l).connection else l.connection := by
  rw [connectionAt, List.getElem?_modify]
  cases links[j]? with
  | none => rfl
  | some l => by_cases h : i = j <;> simp [h]

/-- What a change of one link does to the links that are live. -/
theorem liveAt_modify : LiveAt (links.modify i f) j ↔
    ∃ l, links[j]? = some l ∧ (if i = j then f l else l).Live := by
  rw [liveAt_iff, List.getElem?_modify]
  cases links[j]? with
  | none => simp
  | some l => by_cases h : i = j <;> simp [h]

/-- Connections of the same state, when the channel alone changes. -/
theorem connectionAt_modify_of_eq (h : ∀ l, (f l).connection = l.connection) :
    connectionAt (links.modify i f) j = connectionAt links j := by
  simp only [connectionAt_modify, h, ite_self]
  rfl

/-- A link that stops is not live, and the others stay as they are. -/
theorem liveAt_modify_of_stops (h : Stops f) :
    LiveAt (links.modify i f) j ↔ LiveAt links j ∧ j ≠ i := by
  rw [liveAt_modify, liveAt_iff]
  constructor
  · rintro ⟨l, hl, hlive⟩
    split at hlive
    · exact absurd hlive (h l).1
    · exact ⟨⟨l, hl, hlive⟩, Ne.symm ‹_›⟩
  · rintro ⟨⟨l, hl, hlive⟩, hne⟩
    exact ⟨l, hl, by rwa [if_neg hne.symm]⟩

/-- A change that keeps the subscriptions of a link keeps all of them. -/
theorem subscriptionsAt_modify_of_eq (h : ∀ l, (f l).subscriptions = l.subscriptions) :
    subscriptionsAt (links.modify i f) j = subscriptionsAt links j := by
  rw [subscriptionsAt, subscriptionsAt, List.getElem?_modify]
  cases links[j]? with
  | none => rfl
  | some l => by_cases hij : i = j <;> simp [hij, h]

/-- There are no subscriptions where there is no link. -/
theorem subscriptionsAt_of_le (h : links.length ≤ j) : subscriptionsAt links j = [] := by
  rw [subscriptionsAt, List.getElem?_eq_none h]
  rfl

/-- A live link accepts a subscription. -/
theorem subscriptionsAt_accept (h : LiveAt links i) :
    subscriptionsAt (links.modify i (accept queue)) j =
      if j = i then queue :: subscriptionsAt links j else subscriptionsAt links j := by
  rw [subscriptionsAt, subscriptionsAt, List.getElem?_modify]
  by_cases hij : i = j
  · obtain ⟨l, hl, -⟩ := liveAt_iff.1 h
    simp [← hij, hl, accept]
  · simp [hij, Ne.symm hij]

/-- A subscription makes no link live and ends none. -/
theorem liveAt_accept : LiveAt (links.modify i (accept queue)) j ↔ LiveAt links j := by
  rw [liveAt_modify, liveAt_iff]
  refine exists_congr fun l ↦ and_congr_right fun _ ↦ ?_
  split <;> rfl

/-- The connection of a link once `close` was called. -/
theorem connectionAt_closeConnection : connectionAt (links.modify i closeConnection) j =
    if i = j ∧ connectionAt links j = some .opened then some .closing
    else connectionAt links j := by
  rw [connectionAt_modify, connectionAt]
  cases links[j]? with
  | none => simp
  | some l =>
    by_cases hij : i = j
    · by_cases hl : l.connection = .opened <;> simp [hij, closeConnection, hl]
    · simp [hij]

/-- A connection that is lost is closed, and no other is. -/
theorem connectionAt_connectionClosed : connectionAt (links.modify i connectionClosed) j =
    if i = j then (connectionAt links j).map fun _ ↦ .closed else connectionAt links j := by
  rw [connectionAt_modify, connectionAt]
  cases links[j]? with
  | none => simp
  | some l => by_cases hij : i = j <;> simp [hij, connectionClosed]

/-- A new link has an open connection. -/
theorem connectionAt_append : connectionAt (links ++ [connected]) j =
    if j = links.length then some .opened else connectionAt links j := by
  rw [connectionAt, connectionAt]
  rcases lt_trichotomy j links.length with h | h | h
  · rw [List.getElem?_append_left h, if_neg h.ne]
  · rw [h, List.getElem?_concat_length, if_pos rfl]
    rfl
  · rw [List.getElem?_eq_none (by simp; omega), List.getElem?_eq_none h.le, if_neg h.ne']

/-- A new link is not live before its channel is open. -/
theorem liveAt_append : LiveAt (links ++ [connected]) j ↔ LiveAt links j := by
  rw [liveAt_iff, liveAt_iff]
  rcases lt_trichotomy j links.length with h | h | h
  · rw [List.getElem?_append_left h]
  · rw [h, List.getElem?_concat_length, List.getElem?_eq_none le_rfl]
    simp [connected, Live]
  · rw [List.getElem?_eq_none (by simp; omega), List.getElem?_eq_none h.le]

/-- A new link has no subscriptions. -/
theorem subscriptionsAt_append :
    subscriptionsAt (links ++ [connected]) j = subscriptionsAt links j := by
  rw [subscriptionsAt, subscriptionsAt]
  rcases lt_trichotomy j links.length with h | h | h
  · rw [List.getElem?_append_left h]
  · rw [h, List.getElem?_concat_length, List.getElem?_eq_none le_rfl]
    rfl
  · rw [List.getElem?_eq_none (by simp; omega), List.getElem?_eq_none h.le]

end Link

/-! ### What is under way -/

/-- The answer to a call. -/
inductive Reply where
  | pending
  | resolved
  | rejected
  deriving DecidableEq

/-- The calls that set up a new connection, in their order. -/
inductive SetUpCall where
  | createConfirmChannel
  | assertExchange
  | assertQueue
  | bindQueue
  | assertDeadLetterQueue
  | bindDeadLetterQueue
  | prefetch
  deriving DecidableEq

/-- The call after this one; `prefetch` is the last. -/
def SetUpCall.next : SetUpCall → Option SetUpCall
  | .createConfirmChannel => some .assertExchange
  | .assertExchange => some .assertQueue
  | .assertQueue => some .bindQueue
  | .bindQueue => some .assertDeadLetterQueue
  | .assertDeadLetterQueue => some .bindDeadLetterQueue
  | .bindDeadLetterQueue => some .prefetch
  | .prefetch => none

/-- How far `startConsumer` has come in the loop over the consumers. -/
inductive Starting where
  /-- `channel.consume` has this answer. -/
  | consuming (reply : Reply)
  /-- `startConsumer` has returned. -/
  | returned
  deriving DecidableEq

/-- How far the promise of `connectPromise` has come. Its `attempt` counts the tries. -/
inductive Attempt where
  /-- There is no promise. -/
  | idle
  /-- At `amqp.connect(url)`. -/
  | connecting (attempt : ℕ)
  /-- At a call of the set-up on connection `link`. -/
  | settingUp (attempt link : ℕ) (call : SetUpCall) (reply : Reply)
  /-- In the loop over the consumers, at the one of this position. -/
  | restoring (attempt link position : ℕ) (starting : Starting)
  /-- At `safeCloseChannel(channel)`. -/
  | closingChannel (attempt link : ℕ) (waits : Bool)
  /-- At `safeCloseConnection(connection)`. -/
  | closingConnection (attempt link : ℕ) (waits : Bool)
  /-- At `delay(…)`. -/
  | delaying (attempt : ℕ)
  /-- The promise is settled, and `connectPromise` is not yet reset. -/
  | settled (resolved : Bool)
  deriving DecidableEq

/-- How far a call of `consume` has come. -/
inductive Call where
  /-- In `getChannel`, where `connectPromise` is awaited. -/
  | waiting
  /-- In `getChannel`, and the promise is settled. -/
  | settled (resolved : Bool)
  /-- `getChannel` has returned the channel of connection `link`. -/
  | got (link : ℕ)
  /-- At `channel.consume`. -/
  | consuming (link : ℕ)
  /-- The broker has accepted. -/
  | consumed (link : ℕ)
  /-- It has returned or thrown. -/
  | over
  deriving DecidableEq

namespace Attempt

/-- Whether the promise is settled, and how. -/
def outcome : Attempt → Option Bool
  | .settled resolved => some resolved
  | .idle | .connecting _ | .settingUp _ _ _ _ | .restoring _ _ _ _ | .closingChannel _ _ _
  | .closingConnection _ _ _ | .delaying _ => none

/-- The answer it waits for is there. -/
def ready : Attempt → Bool
  | .settingUp _ _ _ reply | .restoring _ _ _ (.consuming reply) => reply ≠ .pending
  | .restoring _ _ _ .returned | .settled _ => true
  | .idle | .connecting _ | .closingChannel _ _ _ | .closingConnection _ _ _ | .delaying _ => false

end Attempt

namespace Call

/-- What waits for `connectPromise` goes on when it is settled. -/
def settle (resolved : Bool) : Call → Call
  | .waiting => .settled resolved
  | .settled resolved => .settled resolved
  | .got i => .got i
  | .consuming i => .consuming i
  | .consumed i => .consumed i
  | .over => .over

/-- The answer it waits for is there. -/
def ready : Call → Bool
  | .settled _ | .got _ | .consumed _ => true
  | .waiting | .consuming _ | .over => false

end Call

/-- A registered queue with the call of `consume` that has registered it. -/
structure Consumer where
  queue : String
  call : Call
  deriving DecidableEq

/-- How far `onModuleDestroy` has come. -/
inductive Destroy where
  | notCalled
  /-- At `safeCloseChannel(channel)`, with the closing it waits for. -/
  | closingChannel (connection : Option ℕ) (waits : Option ℕ)
  /-- At `safeCloseConnection(connection)`. -/
  | closingConnection (waits : Option ℕ)
  | resolved
  deriving DecidableEq

/-- What the environment configures: whether messaging is on at all, and how often a connection is
tried. -/
structure Config where
  enabled : Bool
  connectMaxAttempts : ℕ

/-- The fields of the object, what is under way in its methods, and every connection it has
opened. -/
structure State where
  connection : Option ℕ
  channel : Option ℕ
  reconnectTimer : Bool
  shuttingDown : Bool
  /-- In the order of their registration. -/
  consumers : List Consumer
  activeConsumers : Finset String
  attempt : Attempt
  /-- How many timers wait for `connectPromise`. -/
  reconnecting : ℕ
  /-- How many of them have seen it rejected, and not yet scheduled another one. -/
  exhausted : ℕ
  destroy : Destroy
  links : List Link
  deriving DecidableEq

namespace State

/-- The object after its constructor. -/
def initial : State where
  connection := none
  channel := none
  reconnectTimer := false
  shuttingDown := false
  consumers := []
  activeConsumers := ∅
  attempt := .idle
  reconnecting := 0
  exhausted := 0
  destroy := .notCalled
  links := []

/-! ### Connections of the object -/

/-- Calls on the channel of connection `i` reach the broker. -/
abbrev Live (s : State) (i : ℕ) : Prop := Link.LiveAt s.links i

/-- The state of connection `i`. -/
abbrev connectionStatus (s : State) (i : ℕ) : Option Status := Link.connectionAt s.links i

/-- The state of the channel of connection `i`. -/
abbrev channelStatus (s : State) (i : ℕ) : Option Status := Link.channelAt s.links i

/-- The queues subscribed on connection `i`. A queue that stands here twice is delivered to two
consumers. -/
abbrev subscriptions (s : State) (i : ℕ) : List String := Link.subscriptionsAt s.links i

/-- Change one connection. -/
def onLink (s : State) (i : ℕ) (f : Link → Link) : State := { s with links := s.links.modify i f }

/-- Forget the connection. -/
def forget (s : State) : State :=
  { s with connection := none, channel := none, activeConsumers := ∅ }

/-- Let one call of `consume` come further. -/
def onCall (s : State) (position : ℕ) (call : Call) : State :=
  { s with consumers := s.consumers.modify position fun c ↦ { c with call := call } }

/-! ### `connectWithRetry` -/

/-- `connectPromise` is settled, and what waits for it goes on. -/
def settle (s : State) (resolved : Bool) : State :=
  { s with
    attempt := .settled resolved
    consumers := s.consumers.map fun c ↦ { c with call := c.call.settle resolved }
    reconnecting := 0
    exhausted := if resolved then s.exhausted else s.exhausted + s.reconnecting }

/-- The head of the loop in `tryConnect`. -/
def tryConnect (config : Config) (s : State) (attempt : ℕ) : State :=
  if config.connectMaxAttempts < attempt ∨ s.shuttingDown then s.settle false
  else { s with attempt := .connecting attempt }

/-- The `catch` of `tryConnect`. -/
def attemptFailed (config : Config) (s : State) (attempt : ℕ) : State :=
  if attempt < config.connectMaxAttempts then { s with attempt := .delaying attempt }
  else s.settle false

/-- `connectWithRetry()` up to its `await`. -/
def connectWithRetry (config : Config) (s : State) : State :=
  if s.channel = none ∧ s.attempt = .idle then s.tryConnect config 1 else s

/-- Whether what `connectWithRetry()` returns is settled, and how. -/
def connectOutcome (s : State) : Option Bool :=
  if s.channel ≠ none then some true else s.attempt.outcome

/-- `scheduleReconnect()`. -/
def scheduleReconnect (s : State) : State :=
  if s.shuttingDown ∨ s.reconnectTimer then s else { s with reconnectTimer := true }

/-! ### `connectOnce` -/

/-- Close the channel after a failure. -/
def closeAttempt (s : State) (attempt i : ℕ) : State :=
  { s.onLink i .closeChannel with attempt := .closingChannel attempt i (s.Live i) }

/-- The next round of the loop over the consumers, where `startConsumer` begins. -/
def restoreFrom (s : State) (attempt i position : ℕ) : State :=
  match s.consumers[position]? with
  | none => s.settle true
  | some c =>
    if c.queue ∈ s.activeConsumers then
      { s with attempt := .restoring attempt i position .returned }
    else if s.Live i then
      { s with attempt := .restoring attempt i position (.consuming .pending) }
    else { s with attempt := .restoring attempt i position (.consuming .rejected) }

/-- The connection is set up: it becomes the current one. -/
def publish (s : State) (attempt i : ℕ) : State :=
  { s with connection := some i, channel := some i, activeConsumers := ∅ }.restoreFrom attempt i 0

/-- What follows the next `await` of `connectOnce`, and of `tryConnect` behind it. -/
def continueAttempt (config : Config) (s : State) : Option State :=
  match s.attempt with
  | .settingUp attempt i call .resolved =>
    match call.next with
    | some next =>
      some { s with
        attempt := .settingUp attempt i next (if s.Live i then .pending else .rejected) }
    | none => some (s.publish attempt i)
  | .settingUp attempt i _ .rejected => some (s.closeAttempt attempt i)
  | .restoring attempt i position (.consuming .resolved) =>
    match s.consumers[position]? with
    | some c =>
      some { s with
        activeConsumers := insert c.queue s.activeConsumers
        attempt := .restoring attempt i position .returned }
    | none => none
  | .restoring attempt i position .returned => some (s.restoreFrom attempt i (position + 1))
  | .restoring attempt i _ (.consuming .rejected) => some (s.forget.closeAttempt attempt i)
  | .closingChannel attempt i waits =>
    if waits = true ∧ s.channelStatus i ≠ some .closed then none
    else some { s.onLink i .closeConnection with
      attempt := .closingConnection attempt i (s.connectionStatus i = some .opened) }
  | .closingConnection attempt i waits =>
    if waits = true ∧ s.connectionStatus i ≠ some .closed then none
    else some (s.attemptFailed config attempt)
  | .settled _ => some { s with attempt := .idle }
  | .idle | .connecting _ | .settingUp _ _ _ .pending | .restoring _ _ _ (.consuming .pending)
  | .delaying _ => none

/-! ### `consume` -/

/-- `consume(queue)` up to its first `await`. -/
def consume (config : Config) (s : State) (queue : String) : State :=
  if queue ∈ s.consumers.map (·.queue) then s
  else if config.enabled = false then { s with consumers := s.consumers ++ [⟨queue, .over⟩] }
  else
    match s.channel with
    | some i => { s with consumers := s.consumers ++ [⟨queue, .got i⟩] }
    | none =>
      let s := s.connectWithRetry config
      { s with consumers := s.consumers ++
        [⟨queue, s.connectOutcome.elim .waiting .settled⟩] }

/-- What follows the next `await` of a call of `consume`. -/
def continueCall (s : State) (position : ℕ) : Option State :=
  match s.consumers[position]? with
  | none => none
  | some c =>
    match c.call with
    | .settled resolved =>
      match resolved, s.channel with
      | true, some i => some (s.onCall position (.got i))
      | true, none | false, _ => some (s.onCall position .over)
    | .got i =>
      if c.queue ∈ s.activeConsumers then some (s.onCall position .over)
      else if s.Live i then some (s.onCall position (.consuming i))
      else some (s.onCall position .over)
    | .consumed _ =>
      some { s.onCall position .over with
        activeConsumers := insert c.queue s.activeConsumers }
    | .waiting | .consuming _ | .over => none

/-! ### What the network does -/

/-- A call on the channel of connection `i` that waits for its answer is rejected. -/
def rejectPending (s : State) (i : ℕ) : State :=
  { s with
    consumers := s.consumers.map fun c ↦
      if c.call = .consuming i then { c with call := .over } else c
    attempt := match s.attempt with
      | .settingUp attempt j call .pending =>
        .settingUp attempt j call (if j = i then .rejected else .pending)
      | .restoring attempt j position (.consuming .pending) =>
        .restoring attempt j position (.consuming (if j = i then .rejected else .pending))
      | attempt => attempt }

/-- The channel of connection `i` has closed. -/
def channelClosed (s : State) (i : ℕ) : State :=
  let s := (s.onLink i .channelClosed).rejectPending i
  if s.channel = some i then (s.forget.onLink i .closeConnection).scheduleReconnect else s

/-- Connection `i` has closed. The handler of its channel comes first. -/
def connectionClosed (s : State) (i : ℕ) : State :=
  let s := (s.onLink i .connectionClosed).rejectPending i
  if s.channel = some i ∨ s.connection = some i then s.forget.scheduleReconnect else s

/-! ### `onModuleDestroy` -/

/-- `onModuleDestroy()` up to its first `await`. -/
def onModuleDestroy (s : State) : State :=
  { s.forget with
    shuttingDown := true
    reconnectTimer := false
    destroy := .closingChannel s.connection (s.channel.filter (s.Live ·))
    links := s.channel.elim s.links fun i ↦ s.links.modify i .closeChannel }

/-- What follows the next `await` of `close`. -/
def continueDestroy (s : State) : Option State :=
  match s.destroy with
  | .closingChannel connection waits =>
    if ∃ i ∈ waits, s.channelStatus i ≠ some .closed then none
    else some { s with
      destroy := .closingConnection (connection.filter (s.connectionStatus · = some .opened))
      links := connection.elim s.links fun i ↦ s.links.modify i .closeConnection }
  | .closingConnection waits =>
    if ∃ i ∈ waits, s.connectionStatus i ≠ some .closed then none
    else some { s with destroy := .resolved }
  | .notCalled | .resolved => none

end State

/-! ### Steps -/

/-- What happens next. -/
inductive Event where
  /-- `onModuleInit`, or `getChannel` for a publication. -/
  | connect
  | consume (queue : String)
  | destroy
  /-- `amqp.connect` resolves, or rejects. -/
  | connected
  | refused
  /-- The current call of the set-up resolves, or rejects. -/
  | setUp (resolved : Bool)
  /-- The delay between two tries is over. -/
  | delayed
  | reconnect
  /-- The broker accepts a subscription of the loop over the consumers, or of a call of
  `consume`. -/
  | restored
  | accepted (position : ℕ)
  | channelClosed (link : ℕ)
  | connectionClosed (link : ℕ)
  /-- Code that follows an `await`. -/
  | continueAttempt
  | continueCall (position : ℕ)
  | continueExhausted
  | continueDestroy
  deriving DecidableEq

namespace State

/-- No promise is left that is settled and not followed up. -/
def Drained (s : State) : Prop :=
  (∀ c ∈ s.consumers, c.call.ready = false) ∧ s.attempt.ready = false ∧ s.exhausted = 0

instance (s : State) : Decidable s.Drained := inferInstanceAs (Decidable (_ ∧ _ ∧ _))

/-- One step, when it can be taken. -/
def step (config : Config) (s : State) : Event → Option State
  | .connect => if config.enabled then some (s.connectWithRetry config) else some s
  | .consume queue => some (s.consume config queue)
  | .destroy => if s.destroy = .notCalled then some s.onModuleDestroy else none
  | .connected =>
    match s.attempt with
    | .connecting attempt =>
      if s.Drained then
        some { s with
          links := s.links ++ [.connected]
          attempt := .settingUp attempt s.links.length .createConfirmChannel .pending }
      else none
    | .idle | .settingUp _ _ _ _ | .restoring _ _ _ _ | .closingChannel _ _ _
    | .closingConnection _ _ _ | .delaying _ | .settled _ => none
  | .refused =>
    match s.attempt with
    | .connecting attempt => if s.Drained then some (s.attemptFailed config attempt) else none
    | .idle | .settingUp _ _ _ _ | .restoring _ _ _ _ | .closingChannel _ _ _
    | .closingConnection _ _ _ | .delaying _ | .settled _ => none
  | .setUp resolved =>
    match s.attempt with
    | .settingUp attempt i call .pending =>
      if s.Drained then
        if resolved then
          if call = .createConfirmChannel then
            if s.connectionStatus i = some .opened then
              some { s.onLink i .channelOpened with
                attempt := .settingUp attempt i call .resolved }
            else none
          else if s.Live i then some { s with attempt := .settingUp attempt i call .resolved }
          else none
        else some { s with attempt := .settingUp attempt i call .rejected }
      else none
    | .settingUp _ _ _ .resolved | .settingUp _ _ _ .rejected | .idle | .connecting _
    | .restoring _ _ _ _ | .closingChannel _ _ _ | .closingConnection _ _ _ | .delaying _
    | .settled _ => none
  | .delayed =>
    match s.attempt with
    | .delaying attempt => if s.Drained then some (s.tryConnect config (attempt + 1)) else none
    | .idle | .connecting _ | .settingUp _ _ _ _ | .restoring _ _ _ _ | .closingChannel _ _ _
    | .closingConnection _ _ _ | .settled _ => none
  | .reconnect =>
    if s.reconnectTimer = true ∧ s.Drained then
      let s := { s with reconnectTimer := false }.connectWithRetry config
      match s.connectOutcome with
      | none => some { s with reconnecting := s.reconnecting + 1 }
      | some true => some s
      | some false => some { s with exhausted := s.exhausted + 1 }
    else none
  | .restored =>
    match s.attempt with
    | .restoring attempt i position (.consuming .pending) =>
      match s.consumers[position]? with
      | some c =>
        if s.Live i then
          some { s.onLink i (.accept c.queue) with
            attempt := .restoring attempt i position (.consuming .resolved) }
        else none
      | none => none
    | .restoring _ _ _ (.consuming .resolved) | .restoring _ _ _ (.consuming .rejected)
    | .restoring _ _ _ .returned | .idle | .connecting _ | .settingUp _ _ _ _
    | .closingChannel _ _ _ | .closingConnection _ _ _ | .delaying _ | .settled _ => none
  | .accepted position =>
    match s.consumers[position]? with
    | some ⟨queue, .consuming i⟩ =>
      if s.Live i then some ((s.onLink i (.accept queue)).onCall position (.consumed i)) else none
    | some ⟨_, .waiting⟩ | some ⟨_, .settled _⟩ | some ⟨_, .got _⟩ | some ⟨_, .consumed _⟩
    | some ⟨_, .over⟩ | none => none
  | .channelClosed i =>
    if s.channelStatus i = some .opened ∨ s.channelStatus i = some .closing then
      some (s.channelClosed i)
    else none
  | .connectionClosed i =>
    if s.connectionStatus i = some .opened ∨ s.connectionStatus i = some .closing then
      some (s.connectionClosed i)
    else none
  | .continueAttempt => s.continueAttempt config
  | .continueCall position => s.continueCall position
  | .continueExhausted =>
    if s.exhausted = 0 then none
    else some { s with exhausted := s.exhausted - 1 }.scheduleReconnect
  | .continueDestroy => s.continueDestroy

/-- A run whose steps are all of a kind. -/
def Run (config : Config) (allowed : State → Event → Prop) : State → State → Prop :=
  Relation.ReflTransGen fun s s' ↦ ∃ event, allowed s event ∧ s.step config event = some s'

/-- What a list of events of the kind leads to. -/
def play (config : Config) (allowed : State → Event → Prop)
    [∀ s event, Decidable (allowed s event)] : State → List Event → Option State
  | s, [] => some s
  | s, event :: events =>
    if allowed s event then (s.step config event).bind fun s' ↦ s'.play config allowed events
    else none

/-- A schedule that can be played is a run. -/
theorem run_of_play {config : Config} {allowed : State → Event → Prop}
    [∀ s event, Decidable (allowed s event)] {s s' : State} {events : List Event}
    (h : s.play config allowed events = some s') : s.Run config allowed s' := by
  induction events generalizing s with
  | nil =>
    cases h
    exact .refl
  | cons event events ih =>
    rw [play] at h
    split at h
    · rename_i hallowed
      obtain ⟨s₁, hs₁, hrest⟩ := Option.bind_eq_some_iff.1 h
      exact .head ⟨event, hallowed, hs₁⟩ (ih hrest)
    · cases h

/-- A property found at the end of a list of events. -/
theorem exists_of_play {config : Config} {allowed : State → Event → Prop}
    [∀ s event, Decidable (allowed s event)] {s : State} (events : List Event) (P : State → Prop)
    [DecidablePred P] (h : (s.play config allowed events).any (fun s' ↦ decide (P s')) = true) :
    ∃ s', s.Run config allowed s' ∧ P s' := by
  obtain ⟨s', hs', hp⟩ := (Option.any_eq_true _ _).1 h
  exact ⟨s', run_of_play hs', of_decide_eq_true hp⟩

end State

end WalletConversion.RabbitMqConnection
