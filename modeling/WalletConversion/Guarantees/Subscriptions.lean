import WalletConversion.Messaging.Consumers

/-!
# One subscription for each consumer

Every registered queue is to have exactly one subscription on the current channel, whatever becomes
of connections in between. `one_subscription` proves it for every run in which the loop that starts
the consumers again is left undisturbed, and `subscribed_twice` shows what happens otherwise.

**How it is proved.** `OneSubscription` follows from three invariants, each kept by every step:
`Held` says which connection is the current one, `Sound` that subscriptions and records agree, and
`Alive` that the channel in the fields is open or about to be given up. Only the last two need the
run to be undisturbed. With messaging disabled there is no connection at all, which is an invariant
of its own.
-/

namespace WalletConversion.RabbitMqConnection.State

variable {s s' : State} {config : Config} {attempt i : ℕ}

/-! ### The channel of the current connection -/

/-- The channel of the current connection is open, or the attempt is about to give it up. -/
def Alive (s : State) : Prop := ∀ i, s.channel = some i →
  s.Live i ∨ ∃ attempt position, s.attempt = .restoring attempt i position (.consuming .rejected)

theorem alive_of_channel_eq_none (hchannel : s.channel = none) : s.Alive := fun i hi ↦ by
  simp [hchannel] at hi

theorem alive_restoreFrom {p : ℕ} (hlive : ∀ j, s.channel = some j → j = i ∧ s.Live i) :
    (s.restoreFrom attempt i p).Alive := by
  intro j
  unfold State.restoreFrom
  split
  · exact fun hj ↦ Or.inl ((hlive j hj).1 ▸ (hlive j hj).2)
  · split
    · exact fun hj ↦ Or.inl ((hlive j hj).1 ▸ (hlive j hj).2)
    · split
      · exact fun hj ↦ Or.inl ((hlive j hj).1 ▸ (hlive j hj).2)
      · exact fun hj ↦ Or.inl ((hlive j hj).1 ▸ (hlive j hj).2)

/-- A published connection is alive, or its first consumer finds that it is not. -/
theorem alive_publish (h : s.Live i ∨ s.consumers ≠ []) : (s.publish attempt i).Alive := by
  by_cases hlive : s.Live i
  · exact alive_restoreFrom fun j hj ↦ ⟨(Option.some.inj hj).symm, hlive⟩
  · obtain ⟨c, rest, hconsumers⟩ := List.exists_cons_of_ne_nil (h.resolve_left hlive)
    intro j hj
    have hpublished : s.publish attempt i = { s with
        connection := some i, channel := some i, activeConsumers := ∅,
        attempt := .restoring attempt i 0 (.consuming .rejected) } := by
      simp [State.publish, State.restoreFrom, hconsumers, hlive]
    rw [hpublished] at hj ⊢
    exact Or.inr ⟨attempt, 0, by rw [← Option.some.inj hj]⟩

/-- **A step of an attempt in an undisturbed run keeps the channel alive.** -/
theorem Alive.continueAttempt (h : s.Alive) (hheld : s.Held)
    (hundisturbed : s.Undisturbed .continueAttempt)
    (hs : s.continueAttempt config = some s') : s'.Alive := by
  unfold State.continueAttempt at hs
  split at hs
  · rename_i attempt i call hattempt
    split at hs <;> cases hs
    · exact alive_of_channel_eq_none
        (hheld.channel_eq_none (by rw [hattempt]; rfl) (by rw [hattempt]; rfl))
    · rename_i hlast
      have hprefetch : call = .prefetch := by cases call <;> simp_all [SetUpCall.next]
      subst hprefetch
      exact alive_publish (hundisturbed i (by rw [hattempt]; rfl))
  · rename_i attempt i call hattempt
    cases hs
    exact alive_of_channel_eq_none
      (hheld.channel_eq_none (by rw [hattempt]; rfl) (by rw [hattempt]; rfl))
  · rename_i attempt i p hattempt
    split at hs <;> cases hs
    intro j hj
    refine (h j hj).imp_right fun ⟨_, _, h'⟩ ↦ ?_
    rw [hattempt] at h'
    cases h'
  · rename_i attempt i p hattempt
    cases hs
    refine alive_restoreFrom fun j hj ↦ ?_
    obtain rfl := hheld.eq_of_restores (by rw [hattempt]; rfl) (by rw [hattempt]; rfl) hj
    refine ⟨rfl, (h j hj).resolve_right fun ⟨_, _, h'⟩ ↦ ?_⟩
    rw [hattempt] at h'
    cases h'
  · cases hs
    exact alive_of_channel_eq_none rfl
  · rename_i attempt i waits hattempt
    split at hs <;> cases hs
    exact alive_of_channel_eq_none
      (hheld.channel_eq_none (by rw [hattempt]; rfl) (by rw [hattempt]; rfl))
  · rename_i attempt i waits hattempt
    have hchannel := hheld.channel_eq_none (by rw [hattempt]; rfl) (by rw [hattempt]; rfl)
    split at hs <;> cases hs
    unfold State.attemptFailed
    split <;> exact alive_of_channel_eq_none hchannel
  · rename_i resolved hattempt
    cases hs
    intro j hj
    refine Or.inl ((h j hj).resolve_right fun ⟨_, _, h'⟩ ↦ ?_)
    rw [hattempt] at h'
    cases h'
  all_goals cases hs

/-- Another connection goes. -/
theorem Alive.stop (h : s.Alive) {f : Link → Link} (hf : Link.Stops f) {j : ℕ}
    (hj : s.channel ≠ some j) : ((s.onLink j f).rejectPending j).Alive := by
  intro i hi
  refine (h i hi).imp (fun hlive ↦ ?_) fun ⟨attempt, p, h'⟩ ↦ ⟨attempt, p, ?_⟩
  · exact (Link.liveAt_modify_of_stops hf).2 ⟨hlive, fun hij ↦ hj (hij ▸ hi)⟩
  · simp only [rejectPending, onLink, h']

theorem scheduleReconnect_alive : s.scheduleReconnect.Alive ↔ s.Alive := by
  unfold scheduleReconnect
  split <;> exact Iff.rfl

/-- So does the start of the retries. -/
theorem alive_connectWithRetry (h : s.Alive) : (s.connectWithRetry config).Alive := by
  by_cases hchannel : s.channel = none
  · exact alive_of_channel_eq_none (connectWithRetry_frame.1.trans hchannel)
  · rwa [State.connectWithRetry, if_neg fun h' ↦ hchannel h'.1]

/-- **The current connection stays alive.** -/
theorem alive_of_step (h : s.Alive) (hheld : s.Held) {event : Event}
    (hundisturbed : s.Undisturbed event) (hs : s.step config event = some s') : s'.Alive := by
  cases event with
  | connect =>
    simp only [step] at hs
    split at hs <;> cases hs
    · exact alive_connectWithRetry h
    · exact h
  | consume queue =>
    cases hs
    unfold State.consume
    split
    · exact h
    · split
      · exact h
      · split
        · exact h
        · exact alive_connectWithRetry h
  | destroy =>
    simp only [step] at hs
    split at hs <;> cases hs
    exact alive_of_channel_eq_none rfl
  | connected =>
    simp only [step] at hs
    split at hs
    · rename_i attempt hattempt
      split at hs <;> cases hs
      exact alive_of_channel_eq_none
        (hheld.channel_eq_none (by rw [hattempt]; rfl) (by rw [hattempt]; rfl))
    all_goals cases hs
  | refused =>
    simp only [step] at hs
    split at hs
    · rename_i attempt hattempt
      have hchannel := hheld.channel_eq_none (by rw [hattempt]; rfl) (by rw [hattempt]; rfl)
      split at hs <;> cases hs
      unfold State.attemptFailed
      split <;> exact alive_of_channel_eq_none hchannel
    all_goals cases hs
  | setUp resolved =>
    simp only [step] at hs
    split at hs
    · rename_i attempt i call hattempt
      have hchannel := hheld.channel_eq_none (by rw [hattempt]; rfl) (by rw [hattempt]; rfl)
      split at hs
      · split at hs
        · split at hs
          · split at hs <;> cases hs
            exact alive_of_channel_eq_none hchannel
          · split at hs <;> cases hs
            exact alive_of_channel_eq_none hchannel
        · cases hs
          exact alive_of_channel_eq_none hchannel
      · cases hs
    all_goals cases hs
  | delayed =>
    simp only [step] at hs
    split at hs
    · rename_i attempt hattempt
      have hchannel := hheld.channel_eq_none (by rw [hattempt]; rfl) (by rw [hattempt]; rfl)
      split at hs <;> cases hs
      unfold State.tryConnect
      split <;> exact alive_of_channel_eq_none hchannel
    all_goals cases hs
  | reconnect =>
    simp only [step] at hs
    split at hs
    · have halive : Alive ({ s with reconnectTimer := false }.connectWithRetry config) :=
        alive_connectWithRetry (s := { s with reconnectTimer := false }) h
      split at hs <;> cases hs <;> exact halive
    · cases hs
  | restored =>
    simp only [step] at hs
    split at hs
    · rename_i attempt i p hattempt
      split at hs
      · split at hs <;> cases hs
        rename_i hlive
        intro j hj
        obtain rfl := hheld.eq_of_restores (by rw [hattempt]; rfl) (by rw [hattempt]; rfl) hj
        exact Or.inl (Link.liveAt_accept.2 hlive)
      · cases hs
    all_goals cases hs
  | accepted p =>
    simp only [step] at hs
    split at hs
    · split at hs <;> cases hs
      exact fun j hj ↦ (h j hj).imp_left Link.liveAt_accept.2
    all_goals cases hs
  | channelClosed i =>
    simp only [step] at hs
    split at hs <;> cases hs
    rw [State.channelClosed]
    split
    · exact scheduleReconnect_alive.2 (alive_of_channel_eq_none rfl)
    · rename_i hi
      exact h.stop Link.stops_channelClosed hi
  | connectionClosed i =>
    simp only [step] at hs
    split at hs <;> cases hs
    rw [State.connectionClosed]
    split
    · exact scheduleReconnect_alive.2 (alive_of_channel_eq_none rfl)
    · rename_i hi
      exact h.stop Link.stops_connectionClosed fun h' ↦ hi (Or.inl h')
  | continueAttempt => exact h.continueAttempt hheld hundisturbed hs
  | continueCall p =>
    simp only [step, State.continueCall] at hs
    split at hs
    · cases hs
    · split at hs
      · split at hs <;> cases hs <;> exact h
      · split at hs
        · cases hs
          exact h
        · split at hs <;> cases hs <;> exact h
      · cases hs
        exact h
      all_goals cases hs
  | continueExhausted =>
    simp only [step] at hs
    split at hs <;> cases hs
    exact scheduleReconnect_alive.2 h
  | continueDestroy =>
    simp only [step, State.continueDestroy] at hs
    split at hs
    · rename_i connection waits hdestroy
      split at hs <;> cases hs
      cases connection with
      | none => exact h
      | some j =>
        have hleft := (hheld.left j (by rw [hdestroy]; rfl)).1
        exact fun i hi ↦ (h i hi).imp_left fun hlive ↦
          (Link.liveAt_modify_of_stops Link.stops_closeConnection).2
            ⟨hlive, fun hij ↦ hleft (hij ▸ hi)⟩
    · split at hs <;> cases hs
      exact h
    all_goals cases hs

/-! ### Runs -/

/-- With messaging disabled nothing is ever connected. -/
structure Disabled (s : State) : Prop where
  channel : s.channel = none
  attempt : s.attempt = .idle
  reconnectTimer : s.reconnectTimer = false
  exhausted : s.exhausted = 0
  links : s.links = []

/-- Where messaging is disabled it stays so. -/
theorem disabled_of_step (h : s.Disabled) (hdisabled : config.enabled = false) {event : Event}
    (hs : s.step config event = some s') : s'.Disabled := by
  have hnone : ∀ i, s.connectionStatus i = none ∧ s.channelStatus i = none := fun i ↦ by
    simp [Link.connectionAt, Link.channelAt, h.links]
  have hdead : ∀ i, ¬ s.Live i := fun i hlive ↦ by
    have hopened := Link.connectionAt_of_liveAt hlive
    exact absurd ((hnone i).1.symm.trans hopened) (by simp)
  cases event with
  | connect =>
    rw [step, if_neg (by simp [hdisabled])] at hs
    cases hs
    exact h
  | consume queue =>
    cases hs
    unfold State.consume
    split
    · exact h
    · exact ⟨h.channel, h.attempt, h.reconnectTimer, h.exhausted, h.links⟩
  | destroy =>
    simp only [step] at hs
    split at hs <;> cases hs
    exact ⟨rfl, h.attempt, rfl, h.exhausted, by simp [onModuleDestroy, h.channel, h.links]⟩
  | connected | refused | setUp resolved | delayed | restored =>
    simp only [step, h.attempt, reduceCtorEq] at hs
  | reconnect =>
    rw [step, if_neg (by simp [h.reconnectTimer])] at hs
    cases hs
  | accepted p =>
    simp only [step] at hs
    split at hs
    · rw [if_neg (hdead _)] at hs
      cases hs
    all_goals cases hs
  | channelClosed i =>
    rw [step, if_neg (by simp [(hnone i).2])] at hs
    cases hs
  | connectionClosed i =>
    rw [step, if_neg (by simp [(hnone i).1])] at hs
    cases hs
  | continueAttempt =>
    simp only [step, State.continueAttempt, h.attempt, reduceCtorEq] at hs
  | continueCall p =>
    have hsame : ∀ consumers active, Disabled { s with
        consumers := consumers, activeConsumers := active } := fun _ _ ↦
      ⟨h.channel, h.attempt, h.reconnectTimer, h.exhausted, h.links⟩
    simp only [step, State.continueCall] at hs
    split at hs
    · cases hs
    · split at hs
      · split at hs <;> cases hs <;> exact hsame _ _
      · split at hs
        · cases hs
          exact hsame _ _
        · split at hs <;> cases hs <;> exact hsame _ _
      · cases hs
        exact hsame _ _
      all_goals cases hs
  | continueExhausted =>
    rw [step, if_pos h.exhausted] at hs
    cases hs
  | continueDestroy =>
    simp only [step, State.continueDestroy] at hs
    split at hs
    · rename_i connection waits _
      split at hs <;> cases hs
      refine ⟨h.channel, h.attempt, h.reconnectTimer, h.exhausted, ?_⟩
      cases connection <;> simp [h.links]
    · split at hs <;> cases hs
      exact ⟨h.channel, h.attempt, h.reconnectTimer, h.exhausted, h.links⟩
    all_goals cases hs

/-- **What is promised of the subscriptions.** -/
structure OneSubscription (s : State) : Prop where
  /-- No queue has two subscriptions on a channel. -/
  distinct : ∀ i, (s.subscriptions i).Nodup
  /-- After an attempt, and without a call of `consume` under way, every registered queue has one on
  the current channel. -/
  complete : ∀ i, s.channel = some i → s.attempt.rests = true →
    (∀ c ∈ s.consumers, c.call = .over) → ∀ c ∈ s.consumers, (s.subscriptions i).count c.queue = 1
  /-- A connection that is open is the current one, or `onModuleDestroy` is closing it. -/
  current : ∀ i, s.attempt.rests = true → s.connectionStatus i = some .opened →
    s.connection = some i ∨ s.destroy.leaves = some i

theorem Disabled.oneSubscription (h : s.Disabled) : s.OneSubscription where
  distinct i := by simp [Link.subscriptionsAt, h.links]
  complete i hi := by simp [h.channel] at hi
  current i _ hi := by simp [Link.connectionAt, h.links] at hi

theorem Sound.oneSubscription (h : s.Sound) (hheld : s.Held) (halive : s.Alive) :
    s.OneSubscription where
  distinct := h.tidy.subscriptions
  complete i hi hrests hover c hc := by
    have hserve := h.serving i hi
    have hlive : s.Live i := (halive i hi).resolve_right fun ⟨_, _, h'⟩ ↦ by
      rw [h'] at hrests
      cases hrests
    obtain ⟨p, hp⟩ := List.mem_iff_getElem?.1 hc
    refine List.count_eq_one_of_mem (h.tidy.subscriptions i) ?_
    rcases hserve.progress hlive p c hp with h' | h' | ⟨_, _, _, h', -⟩
    · exact hserve.recorded c.queue h'
    · rw [hover c hc] at h'
      rcases h' with h' | h' | h' <;> cases h'
    · rw [h'] at hrests
      cases hrests
  current i hrests hi := by
    rcases hheld.opened i hi with h' | h' | h' | h'
    · exact Or.inl (hheld.same.trans h')
    · rw [Attempt.builds_eq_none_of_rests hrests] at h'
      cases h'
    · cases hattempt : s.attempt <;> simp_all [Attempt.rests, Attempt.leaves]
    · exact Or.inr h'

/-- **Every registered queue has one subscription.** In a run whose loops over the consumers are
undisturbed, no queue ever has two subscriptions on a channel, and whenever an attempt has ended
with its connection still current and no call of `consume` is under way, every registered queue has
one. -/
theorem one_subscription (h : initial.Run config Undisturbed s) : s.OneSubscription := by
  cases henabled : config.enabled with
  | false =>
    have hdisabled : s.Disabled := by
      induction h with
      | refl => exact ⟨rfl, rfl, rfl, rfl, rfl⟩
      | tail _ hstep ih =>
        obtain ⟨event, -, hs⟩ := hstep
        exact disabled_of_step ih henabled hs
    exact hdisabled.oneSubscription
  | true =>
    have hsound : s.Held ∧ s.Sound ∧ s.Alive := by
      induction h with
      | refl => exact ⟨held_initial, sound_initial, alive_of_channel_eq_none rfl⟩
      | tail _ hstep ih =>
        obtain ⟨event, hundisturbed, hs⟩ := hstep
        obtain ⟨hheld, hsound, halive⟩ := ih
        exact ⟨held_of_step hheld hs, sound_of_step hsound hheld henabled hundisturbed hs,
          alive_of_step halive hheld hundisturbed hs⟩
    exact hsound.2.1.oneSubscription hsound.1 hsound.2.2

/-- The steps of a first attempt, up to the loop over the consumers. -/
def settingUp : List Event :=
  [.connected, .setUp true, .continueAttempt, .setUp true, .continueAttempt, .setUp true,
    .continueAttempt, .setUp true, .continueAttempt, .setUp true, .continueAttempt, .setUp true,
    .continueAttempt, .setUp true, .continueAttempt]

/-- A queue registered before the first attempt has its subscription after it. -/
theorem one_subscription_sample : ∃ s : State, s.channel = some 0 ∧ s.attempt = .idle ∧
    s.consumers = [⟨"conversion.execution.requested", .over⟩] ∧ s.OneSubscription := by
  obtain ⟨s, hrun, hchannel, hattempt, hconsumers⟩ : ∃ s, initial.Run ⟨true, 5⟩ Undisturbed s ∧
      s.channel = some 0 ∧ s.attempt = .idle ∧
      s.consumers = [⟨"conversion.execution.requested", .over⟩] :=
    exists_of_play ([.consume "conversion.execution.requested"] ++ settingUp ++
      [.restored, .continueAttempt, .continueAttempt, .continueCall 0, .continueCall 0,
        .continueAttempt]) _ (by decide +kernel)
  exact ⟨s, hchannel, hattempt, hconsumers, one_subscription hrun⟩

/-- A queue that is registered while another one is being started is subscribed by its own call, and
again by the loop. -/
theorem subscribed_twice : ¬ ∀ (config : Config) (s : State),
    initial.Run config (fun _ _ ↦ True) s → s.OneSubscription := by
  intro h
  obtain ⟨s, hrun, htwice⟩ : ∃ s, initial.Run ⟨true, 5⟩ (fun _ _ ↦ True) s ∧
      s.subscriptions 0 = ["q-2", "q-2", "q-1"] :=
    exists_of_play ([.consume "q-1"] ++ settingUp ++
      [.consume "q-2", .continueCall 1, .restored, .continueAttempt, .continueAttempt, .restored,
        .accepted 1]) _ (by decide +kernel)
  have hdistinct := (h _ s hrun).distinct 0
  rw [htwice] at hdistinct
  exact absurd hdistinct (by decide)

end WalletConversion.RabbitMqConnection.State
