import WalletConversion.Messaging.CurrentConnection

/-!
# Shutting down

After `onModuleDestroy` nothing of the connection is to be left, and nothing new is to begin.
`shutdown_final` proves it for a shutdown that finds no attempt at work. An attempt looks at
`shuttingDown` before each try only: one that is waiting for `amqp.connect` goes on to open the
connection and to publish it (`shutdown_leaks`).

**How it is proved.** A shutdown that finds no attempt at work leaves the object `Down`: nothing is
connected but what the shutdown is about to close, and nothing new will be. Every later step keeps
this, whatever the broker does, so that the state is final once the promise of the shutdown is
resolved.
-/

namespace WalletConversion.RabbitMqConnection

namespace Attempt

/-- No connection is asked for, set up, restored or closed. -/
def calm : Attempt → Bool
  | .idle | .settled _ | .delaying _ => true
  | .connecting _ | .settingUp _ _ _ _ | .restoring _ _ _ _ | .closingChannel _ _ _
  | .closingConnection _ _ _ => false

end Attempt

/-- What `onModuleDestroy` itself is going to close, or waits for. -/
def Destroy.Closes (i : ℕ) (status : Status) : Destroy → Prop
  | .closingChannel connection _ => connection = some i ∧ status = .opened
  | .closingConnection waits => waits = some i
  | .notCalled | .resolved => False

namespace State

/-- Nothing is left of the connection, and no timer is going to open another. -/
structure Final (s : State) : Prop where
  connection : s.connection = none
  channel : s.channel = none
  reconnectTimer : s.reconnectTimer = false
  closed : ∀ i status, s.connectionStatus i = some status → status = .closed

/-- No attempt is at work on a connection, and every connection but the current one has closed. -/
structure Calm (s : State) : Prop where
  attempt : s.attempt.calm = true
  others : ∀ i status, s.connectionStatus i = some status → s.connection = some i ∨ status = .closed

instance (s : State) : Decidable s.Calm :=
  decidable_of_iff (s.attempt.calm = true ∧ ∀ i < s.links.length,
    s.connection = some i ∨ s.connectionStatus i = some .closed) <| by
  constructor
  · rintro ⟨hattempt, hothers⟩
    refine ⟨hattempt, fun i status hstatus ↦ ?_⟩
    refine (hothers i (Link.lt_length_of_connectionAt hstatus)).imp_right fun hclosed ↦ ?_
    exact Option.some.inj (hstatus.symm.trans hclosed)
  · rintro ⟨hattempt, hothers⟩
    refine ⟨hattempt, fun i hi ↦ ?_⟩
    have hstatus : s.connectionStatus i = some (s.links.get ⟨i, hi⟩).connection := by
      simp [Link.connectionAt, List.getElem?_eq_getElem hi]
    exact (hothers i _ hstatus).imp_right fun hclosed ↦ hstatus.trans (congrArg some hclosed)

/-- A shutdown finds the connection calm. -/
def Orderly (s : State) (event : Event) : Prop := event = .destroy → s.Calm

instance (s : State) (event : Event) : Decidable (s.Orderly event) :=
  inferInstanceAs (Decidable (_ → _))

/-- The object on its way down. -/
structure Down (s : State) : Prop where
  shuttingDown : s.shuttingDown = true
  reconnectTimer : s.reconnectTimer = false
  connection : s.connection = none
  channel : s.channel = none
  attempt : s.attempt.calm = true
  called : s.destroy ≠ .notCalled
  dead : ∀ i, ¬ s.Live i
  closes : ∀ i status, s.connectionStatus i = some status → status ≠ .closed →
    s.destroy.Closes i status

variable {s s' : State} {config : Config} {i : ℕ}

theorem Down.final (h : s.Down) (hresolved : s.destroy = .resolved) : s.Final where
  connection := h.connection
  channel := h.channel
  reconnectTimer := h.reconnectTimer
  closed i status hstatus := by
    by_contra hne
    have hcloses := h.closes i status hstatus hne
    rw [hresolved] at hcloses
    exact hcloses

/-- What a step does to an object on its way down. -/
structure Descends (s s' : State) : Prop where
  down : s'.Down
  resolved : s.destroy = .resolved → s'.destroy = .resolved
  length : s'.links.length = s.links.length
  subscriptions : ∀ i, s'.subscriptions i = s.subscriptions i

/-- An attempt comes to nothing. -/
theorem Down.setAttempt (h : s.Down) {a : Attempt} (ha : a.calm = true) {consumers : List Consumer}
    {activeConsumers : Finset String} {reconnecting exhausted : ℕ} :
    Descends s { s with
      attempt := a, consumers := consumers, activeConsumers := activeConsumers,
      reconnecting := reconnecting, exhausted := exhausted } :=
  ⟨⟨h.shuttingDown, h.reconnectTimer, h.connection, h.channel, ha, h.called, h.dead, h.closes⟩, id,
    rfl, fun _ ↦ rfl⟩

theorem Down.tryConnect (h : s.Down) {attempt : ℕ} : s.tryConnect config attempt = s.settle false :=
  if_pos (Or.inr h.shuttingDown)

theorem Down.connectWithRetry (h : s.Down) : Descends s (s.connectWithRetry config) := by
  unfold State.connectWithRetry
  split
  · rw [h.tryConnect]
    exact h.setAttempt rfl
  · exact h.setAttempt h.attempt

theorem Down.consume (h : s.Down) {queue : String} : Descends s (s.consume config queue) := by
  unfold State.consume
  split
  · exact h.setAttempt h.attempt
  · split
    · exact h.setAttempt h.attempt
    · split
      · exact h.setAttempt h.attempt
      · have hdescends : Descends s (s.connectWithRetry config) := h.connectWithRetry
        exact ⟨(hdescends.down.setAttempt hdescends.down.attempt).down, hdescends.resolved,
          hdescends.length, hdescends.subscriptions⟩

/-- No call reaches the broker. -/
theorem Down.continueCall (h : s.Down) {position : ℕ} (hs : s.continueCall position = some s') :
    Descends s s' := by
  unfold State.continueCall at hs
  split at hs
  · cases hs
  · split at hs
    · split at hs <;> cases hs <;> exact h.setAttempt h.attempt
    · split at hs
      · cases hs
        exact h.setAttempt h.attempt
      · split at hs
        · exact absurd ‹_› (h.dead _)
        · cases hs
          exact h.setAttempt h.attempt
    · cases hs
      exact h.setAttempt h.attempt
    all_goals cases hs

/-- What the network closes was to be closed. -/
theorem Down.relink (h : s.Down) {f : Link → Link} (hf : Link.Stops f)
    (hconnection : ∀ j status, Link.connectionAt (s.links.modify i f) j = some status →
      status ≠ .closed → s.connectionStatus j = some status) :
    Descends s ((s.onLink i f).rejectPending i) := by
  have hattempt : ((s.onLink i f).rejectPending i).attempt.calm = true := by
    have hcalm := h.attempt
    simp only [rejectPending, onLink]
    split <;> rename_i heq
    · rw [heq] at hcalm
      cases hcalm
    · rw [heq] at hcalm
      cases hcalm
    · exact hcalm
  refine ⟨⟨h.shuttingDown, h.reconnectTimer, h.connection, h.channel, hattempt, h.called, ?_, ?_⟩,
    id, List.length_modify .., fun j ↦ Link.subscriptionsAt_modify_of_eq fun l ↦ (hf l).2⟩
  · exact fun j hj ↦ h.dead j ((Link.liveAt_modify_of_stops hf).1 hj).1
  · exact fun j status hstatus hne ↦ h.closes j status (hconnection j status hstatus hne) hne

theorem Down.continueDestroy (h : s.Down) (hs : s.continueDestroy = some s') : Descends s s' := by
  unfold State.continueDestroy at hs
  split at hs
  · rename_i connection waits hdestroy
    split at hs
    · cases hs
    cases hs
    have hcloses : ∀ j status, s.connectionStatus j = some status → status ≠ .closed →
        connection = some j ∧ status = .opened := fun j status hstatus hne ↦ by
      have hj := h.closes j status hstatus hne
      rwa [hdestroy] at hj
    cases connection with
    | none =>
      refine ⟨⟨h.shuttingDown, h.reconnectTimer, h.connection, h.channel,
        h.attempt, by simp, h.dead,
        fun j status hstatus hne ↦ ?_⟩, fun h' ↦ by simp [hdestroy] at h', rfl, fun _ ↦ rfl⟩
      exact absurd (hcloses j status hstatus hne).1 (by simp)
    | some i =>
      refine ⟨⟨h.shuttingDown, h.reconnectTimer, h.connection, h.channel, h.attempt, by simp,
        fun j hj ↦ ?_, fun j status hstatus hne ↦ ?_⟩, fun h' ↦ by simp [hdestroy] at h',
        List.length_modify ..,
        fun j ↦ Link.subscriptionsAt_modify_of_eq fun l ↦ (Link.stops_closeConnection l).2⟩
      · exact h.dead j ((Link.liveAt_modify_of_stops Link.stops_closeConnection).1 hj).1
      · -- it was opened, and is the one that is waited for
        have hafter : Link.connectionAt (s.links.modify i .closeConnection) j =
            some status := hstatus
        rw [Link.connectionAt_closeConnection] at hafter
        split at hafter
        · rename_i hij
          obtain ⟨rfl, hopened⟩ := hij
          simp [Destroy.Closes, Option.filter_some, hopened]
        · rename_i hij
          obtain ⟨hi, rfl⟩ := hcloses j status hafter hne
          exact absurd ⟨Option.some.inj hi, hafter⟩ hij
  · rename_i waits hdestroy
    split at hs
    · cases hs
    rename_i hwaits
    cases hs
    refine ⟨⟨h.shuttingDown, h.reconnectTimer, h.connection, h.channel, h.attempt, by simp, h.dead,
      fun j status hstatus hne ↦ ?_⟩, fun _ ↦ rfl, rfl, fun _ ↦ rfl⟩
    have hj := h.closes j status hstatus hne
    rw [hdestroy] at hj
    exact absurd ⟨j, hj, fun hclosed ↦ hne (Option.some.inj (hstatus.symm.trans hclosed))⟩ hwaits
  all_goals cases hs

/-- **An object on its way down stays so**: a step opens no connection and starts no
subscription. -/
theorem Down.step (h : s.Down) {event : Event} (hs : s.step config event = some s') :
    Descends s s' := by
  have hcalm := h.attempt
  cases event with
  | connect =>
    simp only [State.step] at hs
    split at hs <;> cases hs
    · exact h.connectWithRetry
    · exact h.setAttempt h.attempt
  | consume queue =>
    cases hs
    exact h.consume
  | destroy =>
    rw [State.step, if_neg h.called] at hs
    cases hs
  | connected | refused | setUp resolved | restored =>
    simp only [State.step] at hs
    split at hs
    · rename_i hattempt
      rw [hattempt] at hcalm
      cases hcalm
    all_goals cases hs
  | delayed =>
    simp only [State.step] at hs
    split at hs
    · split at hs <;> cases hs
      rw [h.tryConnect]
      exact h.setAttempt rfl
    all_goals cases hs
  | reconnect =>
    rw [State.step, if_neg (by simp [h.reconnectTimer])] at hs
    cases hs
  | accepted position =>
    simp only [State.step] at hs
    split at hs
    · rw [if_neg (h.dead _)] at hs
      cases hs
    all_goals cases hs
  | channelClosed i =>
    simp only [State.step] at hs
    split at hs <;> cases hs
    have hdescends := h.relink (i := i) Link.stops_channelClosed fun j status hstatus _ ↦
      (Link.connectionAt_modify_of_eq Link.connection_channelClosed).symm.trans hstatus
    rw [State.channelClosed]
    rw [if_neg (by simp [hdescends.down.channel])]
    exact hdescends
  | connectionClosed i =>
    simp only [State.step] at hs
    split at hs <;> cases hs
    have hdescends := h.relink (i := i) Link.stops_connectionClosed fun j status hstatus hne ↦ by
      rw [Link.connectionAt_connectionClosed] at hstatus
      split at hstatus
      · obtain ⟨_, -, rfl⟩ := Option.map_eq_some_iff.1 hstatus
        exact absurd rfl hne
      · exact hstatus
    rw [State.connectionClosed]
    rw [if_neg (by simp [hdescends.down.channel, hdescends.down.connection])]
    exact hdescends
  | continueAttempt =>
    simp only [State.step, State.continueAttempt] at hs
    cases hattempt : s.attempt with
    | settled resolved =>
      rw [hattempt] at hs
      cases hs
      exact h.setAttempt rfl
    | idle | delaying _ =>
      rw [hattempt] at hs
      cases hs
    | connecting _ | settingUp _ _ _ _ | restoring _ _ _ _ | closingChannel _ _ _
    | closingConnection _ _ _ =>
      rw [hattempt] at hcalm
      cases hcalm
  | continueCall position => exact h.continueCall hs
  | continueExhausted =>
    simp only [State.step] at hs
    split at hs <;> cases hs
    rw [scheduleReconnect, if_pos (Or.inl h.shuttingDown)]
    exact h.setAttempt h.attempt
  | continueDestroy => exact h.continueDestroy hs

/-- A shutdown that finds the connection calm takes it down. -/
theorem Calm.down (hcalm : s.Calm) (hheld : s.Held) : s.onModuleDestroy.Down where
  shuttingDown := rfl
  reconnectTimer := rfl
  connection := rfl
  channel := rfl
  attempt := hcalm.attempt
  called := by simp [onModuleDestroy]
  dead j hj := by
    have hbuilds : s.attempt.builds = none := by
      have hattempt := hcalm.attempt
      cases hbuilds : s.attempt <;> simp_all [Attempt.calm, Attempt.builds]
    cases hchannel : s.channel with
    | none =>
      have hlive := hheld.live j (by simpa [onModuleDestroy, hchannel] using hj)
      simp [hchannel, hbuilds] at hlive
    | some i =>
      have hstopped := (Link.liveAt_modify_of_stops (i := i) Link.stops_closeChannel).1
        (by simpa [onModuleDestroy, hchannel] using hj)
      have hlive := hheld.live j hstopped.1
      simp only [hchannel, hbuilds, Option.some.injEq, reduceCtorEq, or_false] at hlive
      exact hstopped.2 hlive.symm
  closes j status hstatus hne := by
    have hbefore : s.connectionStatus j = some status := by
      cases hchannel : s.channel with
      | none => simpa [onModuleDestroy, hchannel] using hstatus
      | some i =>
        have hafter : Link.connectionAt (s.links.modify i .closeChannel) j = some status := by
          simpa [onModuleDestroy, hchannel] using hstatus
        rwa [Link.connectionAt_modify_of_eq Link.connection_closeChannel] at hafter
    have hcurrent := (hcalm.others j status hbefore).resolve_right hne
    refine ⟨hcurrent, ?_⟩
    -- the current connection is not being closed by anyone else
    cases status with
    | opened => rfl
    | closing => exact absurd (hheld.same.symm.trans hcurrent) (hheld.closing j hbefore).1
    | closed => exact absurd rfl hne

section Destroy

variable {attempt position : ℕ}

theorem destroy_tryConnect : (s.tryConnect config attempt).destroy = s.destroy := by
  unfold State.tryConnect
  split <;> rfl

theorem destroy_attemptFailed : (s.attemptFailed config attempt).destroy = s.destroy := by
  unfold State.attemptFailed
  split <;> rfl

theorem destroy_connectWithRetry : (s.connectWithRetry config).destroy = s.destroy := by
  unfold State.connectWithRetry
  split
  · exact destroy_tryConnect
  · rfl

theorem destroy_scheduleReconnect : s.scheduleReconnect.destroy = s.destroy := by
  unfold State.scheduleReconnect
  split <;> rfl

theorem destroy_restoreFrom : (s.restoreFrom attempt i position).destroy = s.destroy := by
  unfold State.restoreFrom
  split
  · rfl
  · split
    · rfl
    · split <;> rfl

theorem destroy_consume {queue : String} : (s.consume config queue).destroy = s.destroy := by
  unfold State.consume
  split
  · rfl
  · split
    · rfl
    · split
      · rfl
      · exact destroy_connectWithRetry

theorem destroy_continueAttempt (hs : s.continueAttempt config = some s') :
    s'.destroy = s.destroy := by
  unfold State.continueAttempt at hs
  split at hs
  · split at hs <;> cases hs
    · rfl
    · exact destroy_restoreFrom
  · cases hs
    rfl
  · split at hs <;> cases hs
    rfl
  · cases hs
    exact destroy_restoreFrom
  · cases hs
    rfl
  · split at hs <;> cases hs
    rfl
  · split at hs <;> cases hs
    exact destroy_attemptFailed
  · cases hs
    rfl
  all_goals cases hs

theorem destroy_continueCall (hs : s.continueCall position = some s') : s'.destroy = s.destroy := by
  unfold State.continueCall at hs
  split at hs
  · cases hs
  · split at hs
    · split at hs <;> cases hs <;> rfl
    · split at hs
      · cases hs
        rfl
      · split at hs <;> cases hs <;> rfl
    · cases hs
      rfl
    all_goals cases hs

/-- Only `onModuleDestroy` begins a shutdown. -/
theorem destroy_of_step {event : Event} (hs : s.step config event = some s')
    (hbefore : s.destroy = .notCalled) (hne : event ≠ .destroy) : s'.destroy = .notCalled := by
  rw [← hbefore]
  cases event with
  | connect =>
    simp only [State.step] at hs
    split at hs <;> cases hs
    · exact destroy_connectWithRetry
    · rfl
  | consume queue =>
    cases hs
    exact destroy_consume
  | destroy => exact absurd rfl hne
  | connected =>
    simp only [State.step] at hs
    split at hs
    · split at hs <;> cases hs
      rfl
    all_goals cases hs
  | refused =>
    simp only [State.step] at hs
    split at hs
    · split at hs <;> cases hs
      exact destroy_attemptFailed
    all_goals cases hs
  | setUp resolved =>
    simp only [State.step] at hs
    split at hs
    · split at hs
      · split at hs
        · split at hs
          · split at hs <;> cases hs
            rfl
          · split at hs <;> cases hs
            rfl
        · cases hs
          rfl
      · cases hs
    all_goals cases hs
  | delayed =>
    simp only [State.step] at hs
    split at hs
    · split at hs <;> cases hs
      exact destroy_tryConnect
    all_goals cases hs
  | reconnect =>
    simp only [State.step] at hs
    split at hs
    · split at hs <;> cases hs <;> exact destroy_connectWithRetry
    · cases hs
  | restored =>
    simp only [State.step] at hs
    split at hs
    · split at hs
      · split at hs <;> cases hs
        rfl
      · cases hs
    all_goals cases hs
  | accepted position =>
    simp only [State.step] at hs
    split at hs
    · split at hs <;> cases hs
      rfl
    all_goals cases hs
  | channelClosed i =>
    simp only [State.step] at hs
    split at hs <;> cases hs
    rw [State.channelClosed]
    split
    · exact destroy_scheduleReconnect
    · rfl
  | connectionClosed i =>
    simp only [State.step] at hs
    split at hs <;> cases hs
    rw [State.connectionClosed]
    split
    · exact destroy_scheduleReconnect
    · rfl
  | continueAttempt => exact destroy_continueAttempt hs
  | continueCall position => exact destroy_continueCall hs
  | continueExhausted =>
    simp only [State.step] at hs
    split at hs <;> cases hs
    exact destroy_scheduleReconnect
  | continueDestroy =>
    rw [State.step, State.continueDestroy, hbefore] at hs
    cases hs

end Destroy

/-- Before the shutdown the connections are in order, and after it the object goes down. -/
theorem down_of_run (h : initial.Run config Orderly s) :
    s.Held ∧ (s.destroy ≠ .notCalled → s.Down) := by
  induction h with
  | refl => exact ⟨held_initial, fun hcalled ↦ absurd rfl hcalled⟩
  | @tail s s' _ hstep ih =>
    obtain ⟨event, horderly, hs⟩ := hstep
    refine ⟨held_of_step ih.1 hs, fun hcalled ↦ ?_⟩
    by_cases hbefore : s.destroy = .notCalled
    · by_cases hdestroy : event = .destroy
      · subst hdestroy
        rw [State.step, if_pos hbefore] at hs
        cases hs
        exact (horderly rfl).down ih.1
      · exact absurd (destroy_of_step hs hbefore hdestroy) hcalled
    · exact ((ih.2 hbefore).step hs).down

/-- **A shutdown is final.** Let every shutdown of a run find the connection calm. Once
`onModuleDestroy` has resolved, then in every later state the fields are null and no timer is
pending, every connection the object has opened is closed, and neither a connection nor a
subscription is new. -/
theorem shutdown_final (hrun : initial.Run config Orderly s) (hresolved : s.destroy = .resolved)
    {allowed : State → Event → Prop} (hlater : s.Run config allowed s') :
    s'.Final ∧ s'.links.length = s.links.length ∧
      ∀ i, s'.subscriptions i = s.subscriptions i := by
  have hdown := (down_of_run hrun).2 (by simp [hresolved])
  have hdescends : Descends s s' := by
    induction hlater with
    | refl => exact ⟨hdown, id, rfl, fun _ ↦ rfl⟩
    | tail _ hstep ih =>
      obtain ⟨event, -, hs⟩ := hstep
      have hnext := ih.down.step hs
      exact ⟨hnext.down, hnext.resolved ∘ ih.resolved, hnext.length.trans ih.length,
        fun i ↦ (hnext.subscriptions i).trans (ih.subscriptions i)⟩
  exact ⟨hdescends.down.final (hdescends.resolved hresolved), hdescends.length,
    hdescends.subscriptions⟩

/-- What `onModuleInit` leads to when there are no consumers and nothing fails. -/
def connectingOnce : List Event :=
  [.connect, .connected, .setUp true, .continueAttempt, .setUp true, .continueAttempt, .setUp true,
    .continueAttempt, .setUp true, .continueAttempt, .setUp true, .continueAttempt, .setUp true,
    .continueAttempt, .setUp true, .continueAttempt, .continueAttempt]

/-- A connection that was set up is closed, and an attempt after that comes to nothing. -/
theorem shutdown_final_sample : ∃ s s' : State, s.links.length = 1 ∧ s'.attempt = .settled false ∧
    s'.Final := by
  obtain ⟨s, hreached, ⟨hresolved, hlength⟩, hlater⟩ : ∃ s, initial.Run ⟨true, 5⟩ Orderly s ∧
      (s.destroy = .resolved ∧ s.links.length = 1) ∧
      (s.play ⟨true, 5⟩ (fun _ _ ↦ True) [.connect]).any
        (fun s' ↦ decide (s'.attempt = .settled false)) = true :=
    exists_of_play (connectingOnce ++ [.destroy, .channelClosed 0, .continueDestroy,
      .connectionClosed 0, .continueDestroy]) _ (by decide +kernel)
  obtain ⟨s', hrun, hattempt⟩ := exists_of_play _ _ hlater
  exact ⟨s, s', hlength, hattempt, (shutdown_final hreached hresolved hrun).1⟩

/-- A shutdown while the first `amqp.connect` is under way resolves at once, and the connection is
opened and published after it. -/
theorem shutdown_leaks : ¬ ∀ (config : Config) (s s' : State),
    initial.Run config (fun _ _ ↦ True) s → s.destroy = .resolved →
      s.Run config (fun _ _ ↦ True) s' → s'.Final := by
  intro h
  obtain ⟨s, hreached, hresolved, hlater⟩ : ∃ s, initial.Run ⟨true, 5⟩ (fun _ _ ↦ True) s ∧
      s.destroy = .resolved ∧ (s.play ⟨true, 5⟩ (fun _ _ ↦ True) (connectingOnce.drop 1)).any
        (fun s' ↦ decide (s'.connection = some 0)) = true :=
    exists_of_play [.connect, .destroy, .continueDestroy, .continueDestroy] _ (by decide +kernel)
  obtain ⟨s', hrun, hconnection⟩ := exists_of_play _ _ hlater
  have hnone := (h _ _ _ hreached hresolved hrun).connection
  rw [hconnection] at hnone
  cases hnone

end State

end WalletConversion.RabbitMqConnection
